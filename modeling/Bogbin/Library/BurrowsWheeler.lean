import Mathlib.Data.List.Basic
import Mathlib.Data.List.Perm.Basic
import Mathlib.Logic.Function.Iterate
import Mathlib.Order.Lattice

/-!
# The Burrows-Wheeler transform

The rotations of a text, sorted, and their last column.  Sorting the column in front of a table of
prefixes of the rows gives the prefixes that are one longer (`pass_prefixes`), so that as many passes
as the text is long rebuild the rows (`passes_eq`).
-/

namespace BurrowsWheeler

variable {α : Type*} {d : α} {le : List α → List α → Bool} {rows : List (List α)} {text row : List α}
  {n k : ℕ}

/-- An order of the rows in which prefixes of rows of one length stay in order. -/
structure RowOrder (le : List α → List α → Bool) : Prop where
  trans : ∀ a b c, le a b = true → le b c = true → le a c = true
  total : ∀ a b, (le a b || le b a) = true
  antisymm : ∀ a b, le a b = true → le b a = true → a = b
  take : ∀ a b k, a.length = b.length → le a b = true → le (a.take k) (b.take k) = true

/-- The text from an index on, and then what is in front of it. -/
def rotation (text : List α) (i : ℕ) : List α := text.drop i ++ text.take i

/-- The rotation by one, to the right. -/
def turn (d : α) (row : List α) : List α := row.getLastD d :: row.dropLast

/-- The column in front of the rows, sorted. -/
def pass (le : List α → List α → Bool) (column : List α) (table : List (List α)) : List (List α) :=
  (column.zipWith List.cons table).mergeSort le

theorem length_rotation {i : ℕ} : (rotation text i).length = text.length := by
  rw [rotation, List.length_append, List.length_drop, List.length_take]
  omega

theorem take_turn (hlength : row.length = n) (hk : k < n) :
    (turn d row).take (k + 1) = row.getLastD d :: row.take k := by
  rw [turn, List.take_succ_cons, List.dropLast_eq_take, List.take_take, min_eq_left (by omega)]

/-- A pass makes the prefixes longer by one. -/
theorem pass_prefixes (hle : RowOrder le) (hlength : ∀ row ∈ rows, row.length = n)
    (hsorted : rows.Pairwise fun a b => le a b = true) (hturn : (rows.map (turn d)).Perm rows)
    (hk : k < n) : pass le (rows.map fun row => row.getLastD d) (rows.map (List.take k)) =
      rows.map (List.take (k + 1)) := by
  have hzip : (rows.map fun row => row.getLastD d).zipWith List.cons (rows.map (List.take k)) =
      (rows.map (turn d)).map (List.take (k + 1)) := by
    rw [List.zipWith_map, List.zipWith_self, List.map_map]
    exact List.map_congr_left fun row hrow => (take_turn (hlength row hrow) hk).symm
  have hperm : (pass le (rows.map fun row => row.getLastD d) (rows.map (List.take k))).Perm
      (rows.map (List.take (k + 1))) := by
    rw [pass, hzip]
    exact (List.mergeSort_perm _ _).trans (hturn.map _)
  have hprefixes : (rows.map (List.take (k + 1))).Pairwise fun a b => le a b = true := by
    refine List.pairwise_map.mpr (hsorted.imp_of_mem fun {a b} ha hb hab => ?_)
    exact hle.take a b (k + 1) ((hlength a ha).trans (hlength b hb).symm) hab
  exact List.Perm.eq_of_pairwise (fun a b _ _ => hle.antisymm a b)
    (List.pairwise_mergeSort hle.trans hle.total _) hprefixes hperm

theorem passes_prefixes (hle : RowOrder le) (hlength : ∀ row ∈ rows, row.length = n)
    (hsorted : rows.Pairwise fun a b => le a b = true) (hturn : (rows.map (turn d)).Perm rows)
    (hk : k ≤ n) : (pass le (rows.map fun row => row.getLastD d))^[k] (List.replicate rows.length []) =
      rows.map (List.take k) := by
  induction k with
  | zero =>
    show List.replicate rows.length [] = rows.map fun _ => []
    rw [List.map_const']
  | succ k ih =>
    rw [Function.iterate_succ_apply', ih (Nat.le_of_succ_le hk),
      pass_prefixes hle hlength hsorted hturn hk]

/-- As many passes as the rows are long rebuild the rows. -/
theorem passes_eq (hle : RowOrder le) (hlength : ∀ row ∈ rows, row.length = n)
    (hsorted : rows.Pairwise fun a b => le a b = true) (hturn : (rows.map (turn d)).Perm rows) :
    (pass le (rows.map fun row => row.getLastD d))^[n] (List.replicate rows.length []) = rows := by
  rw [passes_prefixes hle hlength hsorted hturn le_rfl]
  conv_rhs => rw [← List.map_id rows]
  exact List.map_congr_left fun row hrow => by rw [← hlength row hrow, List.take_length, id]

/-! ## The rotations of a text -/

theorem turn_rotation_succ {i : ℕ} (hi : i < text.length) :
    turn d (rotation text (i + 1)) = rotation text i := by
  have htake : text.take (i + 1) = text.take i ++ [text[i]] := List.take_succ_eq_append_getElem hi
  rw [turn, rotation, rotation, htake, ← List.append_assoc, List.getLastD_concat, List.dropLast_concat,
    List.drop_eq_getElem_cons hi, List.cons_append]

theorem turn_rotation_zero (hne : text ≠ []) :
    turn d (rotation text 0) = rotation text (text.length - 1) := by
  have hpos := List.length_pos_of_ne_nil hne
  have hlast := @turn_rotation_succ _ d text (text.length - 1) (by omega)
  rw [Nat.sub_add_cancel hpos] at hlast
  rw [← hlast, rotation, rotation, List.drop_length, List.take_length, List.drop_zero, List.take_zero,
    List.append_nil, List.nil_append]

/-- Turning the rotations of a text permutes them. -/
theorem turn_rotations : (((List.range text.length).map (rotation text)).map (turn d)).Perm
    ((List.range text.length).map (rotation text)) := by
  by_cases hne : text = []
  · rw [hne]
    exact List.Perm.refl _
  · obtain ⟨m, hm⟩ := Nat.exists_eq_succ_of_ne_zero (List.length_pos_of_ne_nil hne).ne'
    have hzero := @turn_rotation_zero _ d text hne
    have hsucc : ((List.range m).map fun i => turn d (rotation text (i + 1))) =
        (List.range m).map (rotation text) := by
      refine List.map_congr_left fun i hi => turn_rotation_succ ?_
      have hlt := List.mem_range.mp hi
      omega
    rw [hm, Nat.succ_sub_one] at hzero
    rw [hm, List.map_map]
    conv_lhs => rw [List.range_succ_eq_map, List.map_cons, List.map_map]
    show (turn d (rotation text 0) :: (List.range m).map fun i => turn d (rotation text (i + 1))).Perm _
    rw [hzero, hsucc, List.range_succ, List.map_append, List.map_singleton]
    exact (List.perm_append_singleton _ _).symm

/-- The passes over the last column of the sorted rotations rebuild them. -/
theorem passes_rotations (hle : RowOrder le) (hsorted : rows.Pairwise fun a b => le a b = true)
    (hrows : rows.Perm ((List.range text.length).map (rotation text))) :
    (pass le (rows.map fun row => row.getLastD d))^[text.length] (List.replicate rows.length []) = rows := by
  refine passes_eq hle (fun row hrow => ?_) hsorted ?_
  · obtain ⟨i, -, rfl⟩ := List.mem_map.mp (hrows.mem_iff.mp hrow)
    exact length_rotation
  · exact (hrows.map _).trans (turn_rotations.trans hrows.symm)

end BurrowsWheeler
