import Bogbin.Core.WorkspaceProof
import Bogbin.Library.StableSort

/-!
# The sort of the table hashes

The nested loops of `bubble_sort` are a stable sort, so they give what `List.mergeSort` gives.  The
two comparisons of the table hashes are the lexicographic order of byte strings.
-/

namespace Bogbin.Core

open StableSort

section BubbleSort

variable {α : Type} {less : α → α → Bool}

/-- `a` need not come after `b`. -/
def not_after (less : α → α → Bool) (a b : α) : Bool := !less b a

/-- The comparison is a strict weak order. -/
structure WeakOrder (less : α → α → Bool) : Prop where
  trans : ∀ a b c, not_after less a b → not_after less b c → not_after less a c
  total : ∀ a b, not_after less a b || not_after less b a

theorem WeakOrder.refl (h : WeakOrder less) (a : α) : not_after less a a := by
  simpa using h.total a a

/-- A comparison of keys is a strict weak order. -/
theorem weakOrder_of_key (key : α → Bytes)
    (h : ∀ a b, less a b = decide (key a < key b)) : WeakOrder less where
  trans a b c hab hbc := by
    simp only [not_after, h, Bool.not_eq_true', decide_eq_false_iff_not, List.not_lt] at *
    exact List.le_trans hab hbc
  total a b := by
    simp only [not_after, h, Bool.or_eq_true, Bool.not_eq_true', decide_eq_false_iff_not,
      List.not_lt]
    exact List.le_total _ _

/-- A step does nothing, or it exchanges two neighbours that stand in the wrong order. -/
theorem swap_step_cases (less : α → α → Bool) (s : List α) (j : ℕ) :
    swap_step less s j = s ∧
        (∀ a b, s[j]? = some a → s[j + 1]? = some b → not_after less a b) ∨
      ∃ pre a b post, s = pre ++ a :: b :: post ∧ pre.length = j ∧ less b a ∧
        swap_step less s j = pre ++ b :: a :: post := by
  unfold swap_step
  split
  · next a b ha hb =>
    split_ifs with hless
    · obtain ⟨hj, hga⟩ := List.getElem?_eq_some_iff.mp ha
      obtain ⟨hj', hgb⟩ := List.getElem?_eq_some_iff.mp hb
      have hlen : (s.take j).length = j := List.length_take_of_le (Nat.le_of_lt hj)
      have hs : s = s.take j ++ a :: b :: s.drop (j + 2) := by
        rw [← hga, ← hgb, List.getElem_cons_drop, List.getElem_cons_drop, List.take_append_drop]
      have hswap (pre post : List α) (hpre : pre.length = j) :
          ((pre ++ a :: b :: post).set j b).set (j + 1) a = pre ++ b :: a :: post := by
        subst hpre
        simp
      have heq := hswap (s.take j) (s.drop (j + 2)) hlen
      rw [← hs] at heq
      exact .inr ⟨s.take j, a, b, s.drop (j + 2), hs, hlen, hless, heq⟩
    · refine .inl ⟨rfl, fun a' b' ha' hb' => ?_⟩
      obtain rfl := Option.some.inj (ha.symm.trans ha')
      obtain rfl := Option.some.inj (hb.symm.trans hb')
      simpa [not_after] using hless
  · next hnone =>
    refine .inl ⟨rfl, fun a b ha hb => ?_⟩
    exact (hnone a b ha hb).elim

theorem ties_swap_step (h : WeakOrder less) (c : α) (s : List α) (j : ℕ) :
    ties (not_after less) c (swap_step less s j) = ties (not_after less) c s := by
  obtain ⟨hid, -⟩ | ⟨pre, a, b, post, hs, -, hless, hswap⟩ := swap_step_cases less s j
  · rw [hid]
  · rw [hswap, hs]
    have hnot : not_after less a b = false := by simpa [not_after] using hless
    -- neighbours in the wrong order are not tied, so at most one of them is tied with `c`
    have hone : ¬ ((not_after less c a && not_after less a c) = true ∧
        (not_after less c b && not_after less b c) = true) := by
      rintro ⟨ha, hb⟩
      rw [Bool.and_eq_true] at ha hb
      have hab := h.trans a c b ha.2 hb.1
      rw [hnot] at hab
      exact absurd hab (by decide)
    simp only [ties, List.filter_append, List.filter_cons]
    split <;> split <;> simp_all

theorem foldl_ties {β : Type} {f : List α → β → List α} {le : α → α → Bool} {c : α}
    (hf : ∀ s b, ties le c (f s b) = ties le c s) (bs : List β) (s : List α) :
    ties le c (bs.foldl f s) = ties le c s := by
  induction bs generalizing s with
  | nil => rfl
  | cons b bs ih => exact (ih (f s b)).trans (hf s b)

theorem ties_bubble_sort (h : WeakOrder less) (c : α) (s : List α) :
    ties (not_after less) c (bubble_sort less s) = ties (not_after less) c s :=
  foldl_ties (fun s _ => foldl_ties (ties_swap_step h c) _ s) _ s

/-- From position `m` on, every element is in its final place. -/
def Settled (less : α → α → Bool) (m : ℕ) (s : List α) : Prop :=
  ∀ i j a b, i < j → m ≤ j → s[i]? = some a → s[j]? = some b → not_after less a b

/-- No element before position `k` comes after the one at `k`. -/
def Topped (less : α → α → Bool) (k : ℕ) (s : List α) : Prop :=
  ∀ i a b, i ≤ k → s[i]? = some a → s[k]? = some b → not_after less a b

/-- Exchanging two neighbours below `m` keeps what is settled from `m` on. -/
theorem settled_swap_step {m j : ℕ} {s : List α} (h : Settled less m s) (hj : j + 1 < m) :
    Settled less m (swap_step less s j) := by
  obtain ⟨hid, -⟩ | ⟨pre, a, b, post, hs, hpre, -, hswap⟩ := swap_step_cases less s j
  · rwa [hid]
  · rw [hswap]
    intro i k x y hik hmk hx hy
    have hget (k : ℕ) (hk : j + 1 < k) :
        (pre ++ b :: a :: post)[k]? = (pre ++ a :: b :: post)[k]? := by
      obtain ⟨d, rfl⟩ : ∃ d, k = pre.length + (d + 2) := ⟨k - j - 2, by omega⟩
      rw [List.getElem?_append_right (by omega), List.getElem?_append_right (by omega)]
      simp
    rw [hget k (by omega), ← hs] at hy
    -- the element that the exchange moved to `i` was at some `i'` below `k` before it
    obtain ⟨i', hi', hx'⟩ : ∃ i' < k, s[i']? = some x := by
      rw [List.getElem?_append] at hx
      rw [hs]
      split_ifs at hx with hlt
      · exact ⟨i, hik, by rw [List.getElem?_append_left hlt]; exact hx⟩
      · obtain ⟨d, rfl⟩ : ∃ d, i = pre.length + d := ⟨i - pre.length, by omega⟩
        rw [Nat.add_sub_cancel_left] at hx
        match d, hx with
        | 0, hx => exact ⟨pre.length + 1, by omega, by simpa using hx⟩
        | 1, hx => exact ⟨pre.length, by omega, by simpa using hx⟩
        | d + 2, hx =>
          refine ⟨pre.length + (d + 2), hik, ?_⟩
          rw [List.getElem?_append_right (by omega)]
          simpa using hx
    exact h i' k x y hi' hmk hx' hy

/-- A step carries the top one position further. -/
theorem topped_swap_step (h : WeakOrder less) {k : ℕ} {s : List α} (htop : Topped less k s) :
    Topped less (k + 1) (swap_step less s k) := by
  obtain ⟨hid, horder⟩ | ⟨pre, a, b, post, hs, hpre, hless, hswap⟩ := swap_step_cases less s k
  · rw [hid]
    intro i x y hi hx hy
    obtain ⟨hlt, -⟩ := List.getElem?_eq_some_iff.mp hy
    have hk := List.getElem?_eq_getElem (Nat.lt_of_succ_lt hlt)
    obtain hi' | rfl := Nat.lt_or_eq_of_le hi
    · exact h.trans _ _ _ (htop i x _ (by omega) hx hk) (horder _ y hk hy)
    · obtain rfl := Option.some.inj (hx.symm.trans hy)
      exact h.refl x
  · have hba : not_after less b a := by
      have htotal := h.total a b
      rw [show not_after less a b = false by simpa [not_after] using hless] at htotal
      simpa using htotal
    rw [hswap]
    subst hpre
    intro i x y hi hx hy
    obtain rfl : y = a := by
      rw [List.getElem?_append_right (by omega)] at hy
      simpa using hy.symm
    rw [List.getElem?_append] at hx
    split_ifs at hx with hlt
    · exact htop i x y (by omega) (by rw [hs, List.getElem?_append_left hlt]; exact hx)
        (by rw [hs]; simp)
    · obtain rfl | rfl : i = pre.length ∨ i = pre.length + 1 := by omega
      · obtain rfl : x = b := by simpa using hx.symm
        exact hba
      · obtain rfl : x = y := by simpa using hx.symm
        exact h.refl x

theorem topped_pass (h : WeakOrder less) (s : List α) (m : ℕ) :
    Topped less m ((List.range m).foldl (swap_step less) s) := by
  induction m with
  | zero =>
    intro i a b hi ha hb
    obtain rfl : i = 0 := by omega
    obtain rfl := Option.some.inj (ha.symm.trans hb)
    exact h.refl a
  | succ m ih =>
    rw [List.range_succ, List.foldl_append]
    exact topped_swap_step h ih

theorem settled_pass {s : List α} {m n : ℕ} (h : Settled less n s) (hm : m < n) :
    Settled less n ((List.range m).foldl (swap_step less) s) := by
  induction m with
  | zero => exact h
  | succ m ih =>
    rw [List.range_succ, List.foldl_append]
    exact settled_swap_step (ih (by omega)) (by omega)

/-- After `i` passes over `n` elements the last `i` are settled. -/
theorem settled_passes (h : WeakOrder less) (s : List α) (i : ℕ) (hi : i ≤ s.length) :
    Settled less (s.length - i) ((List.range i).foldl
      (fun t i => (List.range (s.length - i - 1)).foldl (swap_step less) t) s) := by
  induction i with
  | zero =>
    intro i j a b _ hj _ hb
    rw [List.getElem?_eq_none (by simpa using hj)] at hb
    exact absurd hb (by simp)
  | succ i ih =>
    rw [List.range_succ, List.foldl_append, List.foldl_cons, List.foldl_nil]
    have hpass := settled_pass (ih (by omega)) (by omega : s.length - i - 1 < s.length - i)
    have htop := topped_pass h ((List.range i).foldl
      (fun t i => (List.range (s.length - i - 1)).foldl (swap_step less) t) s) (s.length - i - 1)
    intro j k a b hjk hk ha hb
    rw [show s.length - (i + 1) = s.length - i - 1 by omega] at hk
    obtain hk' | rfl := Nat.lt_or_eq_of_le hk
    · exact hpass j k a b hjk (by omega) ha hb
    · exact htop j a b (by omega) ha hb

theorem bubble_sort_sorted (h : WeakOrder less) (s : List α) :
    (bubble_sort less s).Pairwise fun a b => not_after less a b := by
  have hsettled := settled_passes h s s.length le_rfl
  rw [Nat.sub_self] at hsettled
  refine List.pairwise_iff_getElem.mpr fun i j hi hj hij => ?_
  exact hsettled i j _ _ hij (Nat.zero_le _) (List.getElem?_eq_getElem hi)
    (List.getElem?_eq_getElem hj)

/-- The nested loops sort as a merge sort does. -/
theorem bubble_sort_eq_mergeSort (h : WeakOrder less) (s : List α) :
    bubble_sort less s = s.mergeSort (not_after less) :=
  eq_mergeSort h.trans h.total (bubble_sort_sorted h s) fun c => ties_bubble_sort h c s

end BubbleSort

/-! ## The comparisons are lexicographic -/

/-- The comparison at the first position where two byte strings differ; without one, the shorter
comes first. -/
def first_difference_less (x y : Bytes) : Bool :=
  match (List.range (min x.length y.length)).find? fun k => x[k]? ≠ y[k]? with
  | some k => x.getD k 0 < y.getD k 0
  | none => x.length < y.length

theorem first_difference_less_eq (x y : Bytes) : first_difference_less x y = decide (x < y) := by
  induction x generalizing y with
  | nil =>
    cases y with
    | nil => rfl
    | cons b y => simp [first_difference_less]
  | cons a x ih =>
    cases y with
    | nil => simp [first_difference_less]
    | cons b y =>
      have hrange : List.range (min (a :: x).length (b :: y).length) =
          0 :: (List.range (min x.length y.length)).map Nat.succ := by
        rw [List.length_cons, List.length_cons, Nat.succ_min_succ, List.range_succ_eq_map]
      unfold first_difference_less
      rw [hrange, List.find?_cons]
      by_cases hab : a = b
      · subst hab
        have hlex : decide (a :: x < a :: y) = decide (x < y) := by simp
        rw [hlex, ← ih y, first_difference_less, List.find?_map]
        simp only [List.getElem?_cons_zero, ne_eq, not_true_eq_false, decide_false,
          Function.comp_def, Nat.succ_eq_add_one, List.getElem?_cons_succ, List.length_cons]
        cases (List.range (min x.length y.length)).find? fun k => decide (¬ x[k]? = y[k]?) with
        | none => simp
        | some k => simp
      · simp [hab, List.cons_lt_cons_iff]

theorem hash_less_eq (a b : Hash32) : hash_less a b = decide (a.val < b.val) := by
  rw [← first_difference_less_eq, hash_less, first_difference_less, a.2, b.2, Nat.min_self]
  cases (List.range 32).find? fun k => a.val[k]? ≠ b.val[k]? with
  | none => simp
  | some k => rfl

theorem path_entry_less_eq (a b : WorkspacePathEntry) :
    path_entry_less a b = decide (a.path < b.path) := by
  have hget (e : WorkspacePathEntry) {k : ℕ} (hk : k < e.path_len.toNat) :
      e.path_bytes.val[k]? = e.path[k]? := by
    rw [WorkspacePathEntry.path, List.getElem?_take_of_lt hk]
  have hfind : ((List.range (min a.path_len.toNat b.path_len.toNat)).find? fun k =>
        a.path_bytes.val[k]? ≠ b.path_bytes.val[k]?) =
      (List.range (min a.path_len.toNat b.path_len.toNat)).find? fun k =>
        a.path[k]? ≠ b.path[k]? := by
    refine List.find?_congr fun k hk => ?_
    have hlt := List.mem_range.mp hk
    rw [hget a (by omega), hget b (by omega)]
  rw [← first_difference_less_eq]
  unfold path_entry_less first_difference_less
  simp only [WorkspacePathEntry.length_path]
  rw [hfind]
  cases hk : (List.range (min a.path_len.toNat b.path_len.toNat)).find? fun k =>
      a.path[k]? ≠ b.path[k]? with
  | none => rfl
  | some k =>
    have hlt := List.mem_range.mp (List.mem_of_find?_eq_some hk)
    simp only [List.getD_eq_getElem?_getD]
    rw [hget a (by omega), hget b (by omega)]

end Bogbin.Core
