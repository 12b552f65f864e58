import Bogbin.Bogvm.Json

/-!
# Dictionaries in the order of their keys

A dictionary that is built with `Dict.set` lists its keys in order, and two such dictionaries with
the same items are equal (`Dict.ext_of_sorted`).
-/

namespace Bogbin.Bogvm

namespace Dict

variable {d d' : Dict} {k key key' : String} {v value value' : Json}

/-- The keys are listed in their order. -/
def Sorted (d : Dict) : Prop := d.Pairwise fun a b => a.1.toList < b.1.toList

theorem sorted_nil : Sorted [] := List.Pairwise.nil

theorem get_eq_none_of_lt (h : ∀ field ∈ d, k.toList < field.1.toList) : get d k = none := by
  induction d with
  | nil => rfl
  | cons field rest ih =>
    obtain ⟨k', v⟩ := field
    have hne : k' ≠ k := by
      rintro rfl
      exact lt_irrefl _ (h _ List.mem_cons_self)
    rw [get_cons, if_neg hne]
    exact ih fun field hf => h field (List.mem_cons_of_mem _ hf)

theorem lt_of_mem_set (hd : ∀ field ∈ d, k.toList < field.1.toList) (hkey : k.toList < key.toList) :
    ∀ field ∈ set d key value, k.toList < field.1.toList := by
  induction d with
  | nil => simpa [set] using hkey
  | cons field rest ih =>
    obtain ⟨k', v⟩ := field
    obtain ⟨hk', hrest⟩ := List.forall_mem_cons.mp hd
    rw [set]
    split_ifs
    · exact List.forall_mem_cons.mpr ⟨hkey, hrest⟩
    · exact List.forall_mem_cons.mpr ⟨hkey, hd⟩
    · exact List.forall_mem_cons.mpr ⟨hk', ih hrest⟩

theorem sorted_set (h : Sorted d) : Sorted (set d key value) := by
  induction d with
  | nil => exact List.pairwise_singleton _ _
  | cons field rest ih =>
    obtain ⟨k', v⟩ := field
    obtain ⟨hk', hrest⟩ := List.pairwise_cons.mp h
    rw [set]
    split_ifs with hsame hlt
    · subst hsame
      exact List.pairwise_cons.mpr ⟨hk', hrest⟩
    · refine List.pairwise_cons.mpr ⟨List.forall_mem_cons.mpr ⟨hlt, fun f hf => ?_⟩, h⟩
      exact hlt.trans (hk' f hf)
    · have hgt : k'.toList < key.toList := by
        rcases lt_trichotomy k'.toList key.toList with hgt | heq | hgt
        · exact hgt
        · exact absurd (String.toList_inj.mp heq) hsame
        · exact absurd hgt hlt
      exact List.pairwise_cons.mpr ⟨lt_of_mem_set hk' hgt, ih hrest⟩

theorem sorted_pop (h : Sorted d) : Sorted (pop d key) := by
  have hsub : (pop d key).Sublist d := by
    clear h
    induction d with
    | nil => exact List.Sublist.refl _
    | cons field rest ih =>
      obtain ⟨k', v⟩ := field
      rw [pop]
      split_ifs
      · exact ih.trans (List.sublist_cons_self _ _)
      · exact ih.cons_cons _
  exact h.sublist hsub

theorem sorted_of (items : List (String × Json)) : Sorted (of items) := by
  have hfold (l : List (String × Json)) (d : Dict) (hd : Sorted d) :
      Sorted (l.foldl (fun d item => set d item.1 item.2) d) := by
    induction l generalizing d with
    | nil => exact hd
    | cons item l ih => exact ih _ (sorted_set hd)
  exact hfold items [] sorted_nil

/-- Two dictionaries in order with the same items are equal. -/
theorem ext_of_sorted (hd : Sorted d) (hd' : Sorted d') (h : ∀ k, get d k = get d' k) : d = d' := by
  induction d generalizing d' with
  | nil =>
    cases d' with
    | nil => rfl
    | cons field rest =>
      have hhead := h field.1
      rw [get_cons, if_pos rfl] at hhead
      cases hhead
  | cons field rest ih =>
    obtain ⟨k, v⟩ := field
    obtain ⟨hk, hrest⟩ := List.pairwise_cons.mp hd
    cases d' with
    | nil =>
      have hhead := h k
      rw [get_cons, if_pos rfl] at hhead
      cases hhead
    | cons field' rest' =>
      obtain ⟨k', v'⟩ := field'
      obtain ⟨hk', hrest'⟩ := List.pairwise_cons.mp hd'
      have hle (a b : String) (l : Dict) (w w' : Json) (hl : ∀ f ∈ l, b.toList < f.1.toList)
          (heq : get ((b, w) :: l) a = some w') : ¬a.toList < b.toList := by
        intro hlt
        rw [get_eq_none_of_lt (List.forall_mem_cons.mpr ⟨hlt, fun f hf => hlt.trans (hl f hf)⟩)]
          at heq
        cases heq
      have h₁ := hle k k' rest' v' v hk' (by rw [← h k, get_cons, if_pos rfl])
      have h₂ := hle k' k rest v v' hk (by rw [h k', get_cons, if_pos rfl])
      have hkk : k = k' := String.toList_inj.mp (le_antisymm (not_lt.mp h₂) (not_lt.mp h₁))
      subst hkk
      have hhead := h k
      rw [get_cons, get_cons, if_pos rfl, if_pos rfl] at hhead
      obtain rfl := Option.some.inj hhead
      rw [ih hrest hrest' fun j => ?_]
      by_cases hj : k = j
      · subst hj
        rw [get_eq_none_of_lt hk, get_eq_none_of_lt hk']
      · simpa [get_cons, hj] using h j

theorem get_of_mem (h : Sorted d) (hmem : (k, v) ∈ d) : get d k = some v := by
  induction d with
  | nil => exact absurd hmem List.not_mem_nil
  | cons field rest ih =>
    obtain ⟨k', v'⟩ := field
    obtain ⟨hk', hrest⟩ := List.pairwise_cons.mp h
    rw [get_cons]
    rcases List.mem_cons.mp hmem with heq | hmem
    · obtain ⟨rfl, rfl⟩ := Prod.mk.inj heq
      exact if_pos rfl
    · rw [if_neg]
      · exact ih hrest hmem
      · rintro rfl
        exact lt_irrefl _ (hk' (k', v) hmem)

theorem mem_of_get (h : get d k = some v) : (k, v) ∈ d := by
  induction d with
  | nil => cases h
  | cons field rest ih =>
    obtain ⟨k', v'⟩ := field
    rw [get_cons] at h
    split_ifs at h with hk
    · subst hk
      obtain rfl := Option.some.inj h
      exact List.mem_cons_self
    · exact List.mem_cons_of_mem _ (ih h)

/-- A new key is one more field. -/
theorem perm_set (h : get d key = none) : (set d key value).Perm ((key, value) :: d) := by
  induction d with
  | nil => exact List.Perm.refl _
  | cons field rest ih =>
    obtain ⟨k', v'⟩ := field
    rw [get_cons] at h
    split_ifs at h with hk
    rw [set, if_neg hk]
    split_ifs
    · exact List.Perm.refl _
    · exact ((ih h).cons _).trans (List.Perm.swap _ _ _)

/-- The fields of a dictionary that is written with different keys. -/
theorem perm_of {items : List (String × Json)} (h : (items.map Prod.fst).Nodup) :
    (of items).Perm items := by
  induction items using List.reverseRecOn with
  | nil => exact List.Perm.refl _
  | append_singleton items item ih =>
    rw [List.map_append, List.map_singleton, List.nodup_append] at h
    obtain ⟨hitems, -, hapart⟩ := h
    have hperm := ih hitems
    have hnone : get (of items) item.1 = none := by
      cases hget : get (of items) item.1 with
      | none => rfl
      | some v =>
        have hmem := hperm.mem_iff.mp (mem_of_get hget)
        exact absurd rfl (hapart _ (List.mem_map_of_mem hmem) _ (List.mem_singleton.mpr rfl))
    have hset := @perm_set _ _ item.2 hnone
    rw [of, List.foldl_append]
    exact (hset.trans (hperm.cons _)).trans (List.perm_append_singleton _ _).symm

theorem get_map (f : Json → Json) : get (d.map (Prod.map id f)) k = (get d k).map f := by
  induction d with
  | nil => rfl
  | cons field rest ih =>
    obtain ⟨k', v⟩ := field
    rw [List.map_cons, Prod.map_apply, get_cons, get_cons, ih]
    show (if k' = k then some (f v) else _) = _
    split_ifs <;> rfl

theorem sorted_map (f : Json → Json) (h : Sorted d) : Sorted (d.map (Prod.map id f)) :=
  List.Pairwise.map _ (fun _ _ hlt => hlt) h

/-- A later value replaces an earlier one. -/
theorem set_set (h : Sorted d) : set (set d key value) key value' = set d key value' := by
  refine ext_of_sorted (sorted_set (sorted_set h)) (sorted_set h) fun k => ?_
  rw [get_set, get_set, get_set]
  split_ifs <;> rfl

theorem set_comm (h : Sorted d) (hne : key ≠ key') :
    set (set d key value) key' value' = set (set d key' value') key value := by
  refine ext_of_sorted (sorted_set (sorted_set h)) (sorted_set (sorted_set h)) fun k => ?_
  rw [get_set, get_set, get_set, get_set]
  by_cases h₁ : key' = k
  · rw [if_pos h₁, if_pos h₁, if_neg fun h₂ => hne (h₂.trans h₁.symm)]
  · rw [if_neg h₁, if_neg h₁]

end Dict

end Bogbin.Bogvm
