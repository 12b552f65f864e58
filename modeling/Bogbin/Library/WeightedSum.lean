import Mathlib.Algebra.Order.BigOperators.Group.List
import Mathlib.Tactic
import Std.Data.TreeMap

/-!
# Sums over the entries of a map

`weigh g t` is the sum of the entries of `t`, each multiplied by a weight of its key.  Adding to the
entry of a key adds the weighted amount (`weigh_add_to`), and an entry is the sum for the weight that is
one at its key (`value_eq_weigh`).
-/

namespace WeightedSum

open Std

variable {α R : Type*} {cmp : α → α → Ordering} [TransCmp cmp] [LawfulEqCmp cmp] [DecidableEq α]
  [CommSemiring R] {t : TreeMap α R cmp} {g : α → R} {k : α} {x : R}

def weigh (g : α → R) (t : TreeMap α R cmp) : R := (t.toList.map fun entry => entry.2 * g entry.1).sum

/-- The value of a key, zero when there is none. -/
def value (t : TreeMap α R cmp) (k : α) : R := (t[k]?).getD 0

/-- `t[k] += x` -/
def add_to (t : TreeMap α R cmp) (k : α) (x : R) : TreeMap α R cmp := t.insert k (value t k + x)

omit [DecidableEq α] [CommSemiring R] in
theorem nodup_toList (t : TreeMap α R cmp) : t.toList.Nodup := by
  refine List.Pairwise.imp (fun hne heq => hne ?_) (TreeMap.distinct_keys_toList (t := t))
  rw [heq]
  exact ReflCmp.compare_self

omit [CommSemiring R] in
theorem getElem?_insert_eq (t : TreeMap α R cmp) (k a : α) (x : R) :
    (t.insert k x)[a]? = if k = a then some x else t[a]? := by
  rw [TreeMap.getElem?_insert]
  by_cases h : k = a
  · rw [if_pos (LawfulEqCmp.compare_eq_iff_eq.mpr h), if_pos h]
  · rw [if_neg (mt LawfulEqCmp.compare_eq_iff_eq.mp h), if_neg h]

omit [DecidableEq α] in
theorem weigh_congr {t' : TreeMap α R cmp} (h : ∀ a : α, t[a]? = t'[a]?) : weigh g t = weigh g t' := by
  have hperm : t.toList.Perm t'.toList := by
    rw [List.perm_ext_iff_of_nodup (nodup_toList t) (nodup_toList t')]
    rintro ⟨a, v⟩
    rw [TreeMap.mem_toList_iff_getElem?_eq_some, TreeMap.mem_toList_iff_getElem?_eq_some, h]
  exact (hperm.map _).sum_eq

theorem weigh_insert :
    weigh g (t.insert k x) = x * g k +
      ((t.toList.filter fun entry => k ≠ entry.1).map fun entry => entry.2 * g entry.1).sum := by
  have hperm : (t.insert k x).toList.Perm ((k, x) :: t.toList.filter fun entry => k ≠ entry.1) := by
    rw [List.perm_ext_iff_of_nodup (nodup_toList _)
      (List.nodup_cons.mpr ⟨by simp, (nodup_toList t).filter _⟩)]
    rintro ⟨a, v⟩
    rw [TreeMap.mem_toList_iff_getElem?_eq_some, getElem?_insert_eq, List.mem_cons, List.mem_filter,
      TreeMap.mem_toList_iff_getElem?_eq_some]
    by_cases h : k = a
    · simp [h, eq_comm]
    · simp [h, Ne.symm h]
  rw [weigh, (hperm.map _).sum_eq, List.map_cons, List.sum_cons]

/-- The entry of a key apart from the others. -/
theorem weigh_eq (k : α) :
    weigh g t = value t k * g k +
      ((t.toList.filter fun entry => k ≠ entry.1).map fun entry => entry.2 * g entry.1).sum := by
  rw [value]
  cases h : t[k]? with
  | none =>
    have hall : t.toList.filter (fun entry => k ≠ entry.1) = t.toList := by
      refine List.filter_eq_self.mpr fun entry hmem => decide_eq_true fun heq => ?_
      obtain ⟨a, v⟩ := entry
      rw [TreeMap.mem_toList_iff_getElem?_eq_some, ← show k = a from heq, h] at hmem
      cases hmem
    rw [hall, Option.getD_none, zero_mul, zero_add, weigh]
  | some v =>
    rw [Option.getD_some, ← weigh_insert]
    refine weigh_congr fun a => ?_
    rw [getElem?_insert_eq]
    split_ifs with heq
    · rw [← heq, h]
    · rfl

omit [TransCmp cmp] [LawfulEqCmp cmp] [DecidableEq α] in
@[simp] theorem weigh_empty : weigh g (∅ : TreeMap α R cmp) = 0 := by
  have hnil : (∅ : TreeMap α R cmp).toList = [] := rfl
  rw [weigh, hnil]
  rfl

theorem weigh_add_to : weigh g (add_to t k x) = weigh g t + x * g k := by
  rw [add_to, weigh_insert, weigh_eq k]
  ring

theorem weigh_single : weigh g ((∅ : TreeMap α R cmp).insert k x) = x * g k := by
  have hnil : (∅ : TreeMap α R cmp).toList = [] := rfl
  rw [weigh_insert, hnil]
  exact add_zero _

/-- The weight that is one at `k`. -/
def at_key (k : α) (a : α) : R := if a = k then 1 else 0

theorem value_eq_weigh (t : TreeMap α R cmp) (k : α) : value t k = weigh (at_key k) t := by
  have hothers : ((t.toList.filter fun entry => k ≠ entry.1).map
      fun entry => entry.2 * (at_key k entry.1 : R)).sum = 0 := by
    refine List.sum_eq_zero fun y hy => ?_
    obtain ⟨entry, hmem, rfl⟩ := List.mem_map.mp hy
    have hne : entry.1 ≠ k := Ne.symm (of_decide_eq_true (List.mem_filter.mp hmem).2)
    rw [at_key, if_neg hne, mul_zero]
  rw [weigh_eq k, hothers, at_key, if_pos rfl, mul_one, add_zero]

end WeightedSum
