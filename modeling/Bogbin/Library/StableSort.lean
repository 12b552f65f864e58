import Mathlib.Data.List.Basic
import Mathlib.Data.List.Perm.Basic

/-!
# Stable sorts

A stable sort keeps the order of tied elements.  A sorted list with given ties is unique
(`eq_of_ties`), so every sort that sorts and keeps ties agrees with `List.mergeSort`
(`eq_mergeSort`).
-/

namespace StableSort

open List

variable {α : Type*} {le : α → α → Bool}

/-- The elements of a list that are tied with `a`, in their order. -/
def ties (le : α → α → Bool) (a : α) (l : List α) : List α := l.filter fun b => le a b && le b a

theorem mem_ties {a b : α} {l : List α} :
    b ∈ ties le a l ↔ b ∈ l ∧ le a b ∧ le b a := by
  simp [ties, List.mem_filter]

/-- A sorted list is determined by its ties. -/
theorem eq_of_ties (total : ∀ a b, le a b || le b a) {l₁ l₂ : List α}
    (h₁ : l₁.Pairwise fun a b => le a b) (h₂ : l₂.Pairwise fun a b => le a b)
    (h : ∀ a, ties le a l₁ = ties le a l₂) : l₁ = l₂ := by
  have refl (a : α) : le a a := by simpa using total a a
  induction l₁ generalizing l₂ with
  | nil =>
    cases l₂ with
    | nil => rfl
    | cons b t₂ =>
      have hb : b ∈ ties le b [] := by
        rw [h b]
        exact mem_ties.mpr ⟨List.mem_cons_self, refl b, refl b⟩
      exact absurd hb List.not_mem_nil
  | cons a t₁ ih =>
    cases l₂ with
    | nil =>
      have ha : a ∈ ties le a [] := by
        rw [← h a]
        exact mem_ties.mpr ⟨List.mem_cons_self, refl a, refl a⟩
      exact absurd ha List.not_mem_nil
    | cons b t₂ =>
      have hba : le b a := by
        have ha : a ∈ ties le a (b :: t₂) := by
          rw [← h a]
          exact mem_ties.mpr ⟨List.mem_cons_self, refl a, refl a⟩
        obtain rfl | hmem := List.mem_cons.mp (mem_ties.mp ha).1
        · exact refl a
        · exact List.rel_of_pairwise_cons h₂ hmem
      have hab : le a b := by
        have hb : b ∈ ties le b (a :: t₁) := by
          rw [h b]
          exact mem_ties.mpr ⟨List.mem_cons_self, refl b, refl b⟩
        obtain rfl | hmem := List.mem_cons.mp (mem_ties.mp hb).1
        · exact refl b
        · exact List.rel_of_pairwise_cons h₁ hmem
      have hhead : a = b := by
        have heq := h a
        simp only [ties, List.filter_cons, refl a, hab, hba, Bool.and_self, if_true] at heq
        exact (List.cons.inj heq).1
      subst hhead
      rw [ih h₁.of_cons h₂.of_cons fun c => ?_]
      have heq := h c
      simp only [ties, List.filter_cons] at heq
      split at heq
      · exact (List.cons.inj heq).2
      · exact heq

theorem ties_mergeSort (trans : ∀ a b c, le a b → le b c → le a c)
    (total : ∀ a b, le a b || le b a) (a : α) (l : List α) :
    ties le a (l.mergeSort le) = ties le a l := by
  have hsorted : (ties le a l).Pairwise fun b c => le b c := by
    refine List.pairwise_iff_forall_sublist.mpr fun {b c} hbc => ?_
    have hb := mem_ties.mp (hbc.subset (List.mem_cons_self ..))
    have hc := mem_ties.mp (hbc.subset (List.mem_cons_of_mem _ (List.mem_cons_self ..)))
    exact trans b a c hb.2.2 hc.2.1
  have hsub : ties le a l <+ l.mergeSort le :=
    List.sublist_mergeSort trans total hsorted List.filter_sublist
  have hsub' : ties le a l <+ ties le a (l.mergeSort le) := by
    have hfilter := hsub.filter fun b => le a b && le b a
    have hself : (ties le a l).filter (fun b => le a b && le b a) = ties le a l := by
      simp [ties, List.filter_filter]
    rwa [hself] at hfilter
  exact (hsub'.eq_of_length ((List.mergeSort_perm l le).filter _).length_eq.symm).symm

/-- A sort that sorts and keeps ties is the merge sort. -/
theorem eq_mergeSort (trans : ∀ a b c, le a b → le b c → le a c)
    (total : ∀ a b, le a b || le b a) {l s : List α} (hsorted : s.Pairwise fun a b => le a b)
    (hties : ∀ a, ties le a s = ties le a l) : s = l.mergeSort le :=
  eq_of_ties total hsorted (List.pairwise_mergeSort trans total l) fun a => by
    rw [hties, ties_mergeSort trans total]

end StableSort
