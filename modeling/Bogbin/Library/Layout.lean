import Bogbin.Library.Buffer

/-!
# Parts in a row

A writer that joins its parts and a reader that cuts windows at fixed offsets agree on a part when
the offset is the length of everything in front of it.  `placed` computes these offsets.
-/

namespace Layout

open Buffer

variable {α : Type*}

/-- The parts with their offsets, the first one at `off`. -/
def placed : ℕ → List (List α) → List (ℕ × List α)
  | _, [] => []
  | off, part :: parts => (off, part) :: placed (off + part.length) parts

/-- A part that is followed by others is the window at its offset. -/
theorem slice_placed {front : List α} {parts : List (List α)} {off : ℕ} {part : List α}
    (h : (off, part) ∈ placed front.length parts) (back : List α) :
    slice (front ++ parts.flatten ++ back) off part.length = part := by
  induction parts generalizing front with
  | nil => simp [placed] at h
  | cons first parts ih =>
    rcases List.mem_cons.mp h with heq | hmem
    · obtain ⟨rfl, rfl⟩ := Prod.mk.inj heq
      rw [List.flatten_cons, List.append_assoc, slice_append_right _ _ le_rfl, Nat.sub_self,
        List.append_assoc, slice_append_left _ _ (by omega), slice_eq_self _ le_rfl]
    · rw [← List.length_append] at hmem
      have hrest := ih hmem
      rwa [List.append_assoc front] at hrest

/-- A joined part is the window at its offset. -/
theorem slice_flatten {parts : List (List α)} {off len : ℕ} {part : List α}
    (h : (off, part) ∈ placed 0 parts) (hlen : part.length = len) (back : List α) :
    slice (parts.flatten ++ back) off len = part := by
  subst hlen
  have hslice := @slice_placed _ [] _ _ _ h back
  rwa [List.nil_append] at hslice

end Layout
