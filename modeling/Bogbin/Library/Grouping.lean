import Mathlib.Data.List.Basic
import Mathlib.Data.List.Induction
import Mathlib.Data.List.Nodup

/-!
# Groups by a key

The groups of a list of values with keys, as a loop over the list collects them.  Every key of the
list has one group, and it holds the values with the key in their order (`mem_group_by`).
-/

namespace Grouping

variable {κ α : Type*} [DecidableEq κ]

/-- Append a value to the group of its key; the first value makes the group. -/
def put (key : κ) (a : α) : List (κ × List α) → List (κ × List α)
  | [] => [(key, [a])]
  | (k, group) :: rest =>
    if k = key then (k, group ++ [a]) :: rest else (k, group) :: put key a rest

/-- The groups of a list in the order of their first values. -/
def group_by (entries : List (κ × α)) : List (κ × List α) :=
  entries.foldl (fun groups entry => put entry.1 entry.2 groups) []

/-- The values with a key. -/
def values (entries : List (κ × α)) (key : κ) : List α :=
  (entries.filter fun entry => entry.1 = key).map Prod.snd

section Lemmas

variable {entries : List (κ × α)} {groups : List (κ × List α)} {key k : κ} {a : α} {group : List α}

theorem mem_keys_put : k ∈ (put key a groups).map Prod.fst ↔ k = key ∨ k ∈ groups.map Prod.fst := by
  induction groups with
  | nil => simp [put]
  | cons entry rest ih =>
    obtain ⟨k', group⟩ := entry
    unfold put
    split_ifs with hk
    · subst hk
      simp
    · rw [List.map_cons, List.mem_cons, ih, List.map_cons, List.mem_cons]
      tauto

theorem nodup_put (h : (groups.map Prod.fst).Nodup) : ((put key a groups).map Prod.fst).Nodup := by
  induction groups with
  | nil => exact List.nodup_singleton key
  | cons entry rest ih =>
    obtain ⟨k', group⟩ := entry
    obtain ⟨hnot, hrest⟩ := List.nodup_cons.mp h
    unfold put
    split_ifs with hk
    · exact h
    · refine List.nodup_cons.mpr ⟨fun hmem => ?_, ih hrest⟩
      rcases mem_keys_put.mp hmem with rfl | hmem
      · exact hk rfl
      · exact hnot hmem

/-- The groups after a value has been put. -/
theorem mem_put (h : (groups.map Prod.fst).Nodup) :
    (k, group) ∈ put key a groups ↔
      if k = key then ∃ old, group = old ++ [a] ∧
          ((k, old) ∈ groups ∨ old = [] ∧ k ∉ groups.map Prod.fst)
      else (k, group) ∈ groups := by
  induction groups with
  | nil =>
    split_ifs with hk
    · subst hk
      simp [put]
    · simp [put, hk]
  | cons entry rest ih =>
    obtain ⟨k', group'⟩ := entry
    obtain ⟨hnot, hrest⟩ := List.nodup_cons.mp h
    have hother (l : List α) : (k', l) ∉ rest := fun hmem => hnot (List.mem_map.mpr ⟨_, hmem, rfl⟩)
    unfold put
    by_cases hput : k' = key
    · subst hput
      rw [if_pos rfl, List.mem_cons]
      by_cases hk : k = k'
      · subst hk
        simp [hother]
      · simp [hk]
    · rw [if_neg hput, List.mem_cons, ih hrest]
      by_cases hk : k = key
      · subst hk
        have hne : k ≠ k' := fun heq => hput heq.symm
        simp [hne]
      · simp [hk]

theorem group_by_append {entry : κ × α} :
    group_by (entries ++ [entry]) = put entry.1 entry.2 (group_by entries) := by
  unfold group_by
  rw [List.foldl_append, List.foldl_cons, List.foldl_nil]

theorem values_append {entry : κ × α} :
    values (entries ++ [entry]) key =
      if entry.1 = key then values entries key ++ [entry.2] else values entries key := by
  unfold values
  rw [List.filter_append, List.map_append]
  split_ifs with hkey
  · rw [List.filter_cons_of_pos (by simp [hkey])]
    rfl
  · rw [List.filter_cons_of_neg (by simp [hkey])]
    simp

theorem values_eq_nil (h : key ∉ entries.map Prod.fst) : values entries key = [] := by
  unfold values
  rw [List.map_eq_nil_iff, List.filter_eq_nil_iff]
  intro entry hmem heq
  exact h (of_decide_eq_true heq ▸ List.mem_map_of_mem hmem)

theorem nodup_group_by : ((group_by entries).map Prod.fst).Nodup := by
  induction entries using List.reverseRecOn with
  | nil => exact List.nodup_nil
  | append_singleton entries entry ih =>
    rw [group_by_append]
    exact nodup_put ih

theorem mem_keys_group_by : k ∈ (group_by entries).map Prod.fst ↔ k ∈ entries.map Prod.fst := by
  induction entries using List.reverseRecOn with
  | nil => exact Iff.rfl
  | append_singleton entries entry ih =>
    rw [group_by_append, mem_keys_put, ih, List.map_append, List.mem_append, List.map_singleton,
      List.mem_singleton]
    exact or_comm

/-- Every key has one group, of its values in their order. -/
theorem mem_group_by :
    (key, group) ∈ group_by entries ↔ key ∈ entries.map Prod.fst ∧ group = values entries key := by
  induction entries using List.reverseRecOn generalizing group with
  | nil => simp [group_by]
  | append_singleton entries entry ih =>
    rw [group_by_append, mem_put nodup_group_by, values_append, List.map_append, List.mem_append,
      List.map_singleton, List.mem_singleton]
    by_cases hkey : key = entry.1
    · subst hkey
      rw [if_pos rfl, if_pos rfl]
      constructor
      · rintro ⟨old, rfl, hold | ⟨rfl, hnot⟩⟩
        · exact ⟨.inr rfl, by rw [(ih.mp hold).2]⟩
        · rw [mem_keys_group_by] at hnot
          exact ⟨.inr rfl, by rw [values_eq_nil hnot]⟩
      · rintro ⟨-, rfl⟩
        by_cases hmem : entry.1 ∈ entries.map Prod.fst
        · exact ⟨_, rfl, .inl (ih.mpr ⟨hmem, rfl⟩)⟩
        · refine ⟨[], by rw [values_eq_nil hmem], .inr ⟨rfl, ?_⟩⟩
          rwa [mem_keys_group_by]
    · rw [if_neg hkey, if_neg (Ne.symm hkey), ih]
      simp [hkey]

theorem values_ne_nil (h : key ∈ entries.map Prod.fst) : values entries key ≠ [] := by
  obtain ⟨entry, hmem, rfl⟩ := List.mem_map.mp h
  intro hnil
  have hvalue : entry.2 ∈ values entries entry.1 :=
    List.mem_map_of_mem (List.mem_filter.mpr ⟨hmem, decide_eq_true rfl⟩)
  rw [hnil] at hvalue
  exact List.not_mem_nil hvalue

theorem mem_values : a ∈ values entries key ↔ (key, a) ∈ entries := by
  unfold values
  rw [List.mem_map]
  constructor
  · rintro ⟨⟨k, b⟩, hmem, rfl⟩
    obtain ⟨hmem', hkey⟩ := List.mem_filter.mp hmem
    have heq : k = key := of_decide_eq_true hkey
    exact heq ▸ hmem'
  · intro hmem
    exact ⟨_, List.mem_filter.mpr ⟨hmem, decide_eq_true rfl⟩, rfl⟩

/-- Values that are listed with their keys. -/
theorem values_keyed {f : α → κ} {l : List α} :
    values (l.map fun b => (f b, b)) key = l.filter fun b => f b = key := by
  unfold values
  rw [List.filter_map, List.map_map]
  exact List.map_id _

section Map

variable {β : Type*} (f : α → β)

theorem put_map : put key (f a) (groups.map (Prod.map id (List.map f))) =
    (put key a groups).map (Prod.map id (List.map f)) := by
  induction groups with
  | nil => rfl
  | cons entry rest ih =>
    obtain ⟨k', group⟩ := entry
    simp only [List.map_cons, put, Prod.map_apply, id]
    by_cases hk : k' = key
    · rw [if_pos hk, if_pos hk, List.map_cons, Prod.map_apply, List.map_append]
      rfl
    · rw [if_neg hk, if_neg hk, ih, List.map_cons]
      rfl

/-- The groups of mapped values are the mapped groups. -/
theorem group_by_map :
    group_by (entries.map (Prod.map id f)) = (group_by entries).map (Prod.map id (List.map f)) := by
  induction entries using List.reverseRecOn with
  | nil => rfl
  | append_singleton entries entry ih =>
    rw [List.map_append, List.map_singleton, group_by_append, group_by_append, ih, ← put_map]
    rfl

end Map

end Lemmas

end Grouping
