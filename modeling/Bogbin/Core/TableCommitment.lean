import Bogbin.Core.WorkspaceSort

/-!
# The table hashes do not depend on the order of the slots

Both table hashes sort a copy of the slots before they write it.  With distinct keys the sorted list is
the same for every order of the slots (`bubble_sort_eq_of_perm`), and so is the hash.
-/

namespace Bogbin.Core

section Sorted

variable {α : Type} {less : α → α → Bool} {s t : List α}

/-- Two orders of elements with distinct keys are sorted into the same list. -/
theorem bubble_sort_eq_of_perm {key : α → Bytes} (hless : ∀ a b, less a b = decide (key a < key b))
    (hnodup : (t.map key).Nodup) (h : s.Perm t) : bubble_sort less s = bubble_sort less t := by
  have horder := weakOrder_of_key key hless
  have hperm : (bubble_sort less s).Perm (bubble_sort less t) :=
    (bubble_sort_perm less s).trans (h.trans (bubble_sort_perm less t).symm)
  refine List.Perm.eq_of_pairwise (fun a b ha hb hab hba => ?_) (bubble_sort_sorted horder s)
    (bubble_sort_sorted horder t) hperm
  have ha : a ∈ t := h.mem_iff.mp ((bubble_sort_perm less s).mem_iff.mp ha)
  have hb : b ∈ t := (bubble_sort_perm less t).mem_iff.mp hb
  simp only [not_after, hless, Bool.not_eq_true', decide_eq_false_iff_not, List.not_lt] at hab hba
  exact List.inj_on_of_nodup_map hnodup ha hb (List.le_antisymm hab hba)

end Sorted

/-- Distinct ids and at most 55 objects: every order of the slots has the same hash. -/
theorem object_table_hash_of_perm {objects : List WorkspaceObject} (hlen : objects.length ≤ 55)
    (hnodup : (objects.map (·.object_id)).Nodup) :
    ∃ h, ∀ objects' : List WorkspaceObject, objects'.Perm objects →
      compute_object_table_hash objects' = some h := by
  have hfits : (compute_object_table_hash objects).isSome := by
    rw [compute_object_table_hash_isSome (by omega), object_table_bytes]
    omega
  obtain ⟨h, hh⟩ := Option.isSome_iff_exists.mp hfits
  refine ⟨h, fun objects' hperm => ?_⟩
  have hlength := hperm.length_eq
  by_cases hzero : objects.length = 0
  · rw [List.length_eq_zero_iff] at hzero
    rw [hzero, List.perm_nil] at hperm
    rw [hperm, ← hzero, hh]
  · have hkeys : (objects.map fun o => o.object_id.val).Nodup := by
      have hmap := hnodup.map Subtype.val_injective
      rwa [List.map_map] at hmap
    have hless (a b : WorkspaceObject) : hash_less a.object_id b.object_id =
        decide (a.object_id.val < b.object_id.val) := hash_less_eq _ _
    have hsort := bubble_sort_eq_of_perm hless hkeys hperm
    rw [compute_object_table_hash_eq (by omega) (by omega)] at hh ⊢
    rw [hsort, hh]

/-- Distinct paths whose encoding fits the buffer: every order of the slots has the same hash. -/
theorem path_index_hash_of_perm {paths : List WorkspacePathEntry} (hfit : path_index_bytes paths ≤ 4096)
    (hnodup : (paths.map (·.path)).Nodup) :
    ∃ h, ∀ paths' : List WorkspacePathEntry, paths'.Perm paths →
      compute_path_index_hash paths' = some h := by
  have hmin : 34 * paths.length ≤ (paths.map fun e => 34 + e.path_len.toNat).sum := by
    rw [Nat.mul_comm, ← smul_eq_mul, ← List.length_map fun e : WorkspacePathEntry => 34 + e.path_len.toNat]
    exact List.card_nsmul_le_sum _ _ (by simp)
  have hlen : paths.length ≤ 128 := by
    unfold path_index_bytes at hfit
    omega
  obtain ⟨h, hh⟩ := Option.isSome_iff_exists.mp ((compute_path_index_hash_isSome hlen).mpr hfit)
  refine ⟨h, fun paths' hperm => ?_⟩
  have hlength := hperm.length_eq
  by_cases hzero : paths.length = 0
  · rw [List.length_eq_zero_iff] at hzero
    rw [hzero, List.perm_nil] at hperm
    rw [hperm, ← hzero, hh]
  · have hsort := bubble_sort_eq_of_perm path_entry_less_eq hnodup hperm
    rw [compute_path_index_hash_eq (by omega) (by omega)] at hh ⊢
    rw [hsort, hh]

/-! ## The order of the paths -/

/-- A strict total order on what the entries are compared by. -/
structure StrictTotalOn {α β : Type} (less : α → α → Bool) (key : α → β) : Prop where
  irrefl : ∀ a, less a a = false
  trans : ∀ a b c, less a b = true → less b c = true → less a c = true
  total : ∀ a b, less a b = true ∨ key a = key b ∨ less b a = true

theorem strictTotalOn_of_key {α : Type} {less : α → α → Bool} {key : α → Bytes}
    (h : ∀ a b, less a b = decide (key a < key b)) : StrictTotalOn less key where
  irrefl a := by simp [h]
  trans a b c hab hbc := by
    rw [h, decide_eq_true_eq] at *
    exact List.lt_trans hab hbc
  total a b := by
    simp only [h, decide_eq_true_eq]
    by_cases hab : key a < key b
    · exact .inl hab
    · by_cases hba : key b < key a
      · exact .inr (.inr hba)
      · exact .inr (.inl (List.le_antisymm (List.not_lt.mp hba) (List.not_lt.mp hab)))

/-- The table hashes do not depend on the order of the slots, and the comparison of two paths is the
lexicographic order of their bytes. -/
theorem table_commitments_order_independent :
    (∀ objects : List WorkspaceObject, objects.length ≤ 55 → (objects.map (·.object_id)).Nodup →
      ∃ h, ∀ objects' : List WorkspaceObject, objects'.Perm objects →
        compute_object_table_hash objects' = some h) ∧
    (∀ paths : List WorkspacePathEntry, path_index_bytes paths ≤ 4096 →
      (paths.map (·.path)).Nodup → ∃ h, ∀ paths' : List WorkspacePathEntry, paths'.Perm paths →
        compute_path_index_hash paths' = some h) ∧
    StrictTotalOn path_entry_less WorkspacePathEntry.path ∧
    ∀ a b, path_entry_less a b = true ↔ a.path < b.path :=
  ⟨fun _ => object_table_hash_of_perm, fun _ => path_index_hash_of_perm,
    strictTotalOn_of_key path_entry_less_eq, fun a b => by rw [path_entry_less_eq, decide_eq_true_eq]⟩

/-- An empty file with this id. -/
def empty_file (object_id : Hash32) : WorkspaceObject := ⟨object_id, .File, Digest.zero, 0, Digest.zero⟩

theorem table_commitments_two_slots :
    (∃ h, ∀ objects' : List WorkspaceObject,
      objects'.Perm [empty_file Digest.zero, empty_file ⟨List.replicate 32 1, rfl⟩] →
        compute_object_table_hash objects' = some h) ∧
      ∃ h, ∀ paths' : List WorkspacePathEntry,
        paths'.Perm [entry_of (ascii "ab") (by decide) Digest.zero,
          entry_of (ascii "a") (by decide) Digest.zero] →
        compute_path_index_hash paths' = some h := by
  refine ⟨table_commitments_order_independent.1 _ (by decide) (by decide),
    table_commitments_order_independent.2.1 _ ?_ ?_⟩
  · simp only [path_index_bytes, List.map_cons, List.map_nil, path_len_entry_of]
    decide
  · simp only [List.map_cons, List.map_nil, path_entry_of]
    decide

end Bogbin.Core
