import Mathlib.Data.List.Basic
import Mathlib.Tactic

/-!
# A queue in a fixed array

The items of a queue are the first slots of an array.  `push` stores an item behind them; `pop` moves
every item behind the first one slot to the front, in a loop, and blanks the slot that is left over.
`contents_push` and `contents_pop` are the laws of a queue, and `Balanced` is what they keep over a
history: what went in is what came out, followed by the contents.
-/

namespace ArrayQueue

variable {α : Type*}

/-- The items of a queue of a given depth. -/
def contents (slots : List α) (depth : ℕ) : List α := slots.take depth

def push (slots : List α) (depth : ℕ) (x : α) : List α := slots.set depth x

/-- Move the slots `1, …, n` one to the front, one after another. -/
def shift (blank : α) (slots : List α) (n : ℕ) : List α :=
  (List.range' 1 n).foldl (fun slots i => slots.set (i - 1) (slots.getD i blank)) slots

def pop (blank : α) (slots : List α) (depth : ℕ) : List α :=
  (shift blank slots (depth - 1)).set (depth - 1) blank

@[simp] theorem length_push (slots : List α) (depth : ℕ) (x : α) :
    (push slots depth x).length = slots.length := List.length_set

theorem shift_succ (blank : α) (slots : List α) (n : ℕ) :
    shift blank slots (n + 1) =
      (shift blank slots n).set n ((shift blank slots n).getD (n + 1) blank) := by
  rw [shift, List.range'_1_concat, List.foldl_append, ← shift]
  simp [Nat.add_comm 1 n]

@[simp] theorem length_shift (blank : α) (slots : List α) (n : ℕ) :
    (shift blank slots n).length = slots.length := by
  induction n with
  | zero => rfl
  | succ n ih => rw [shift_succ, List.length_set, ih]

@[simp] theorem length_pop (blank : α) (slots : List α) (depth : ℕ) :
    (pop blank slots depth).length = slots.length := by
  rw [pop, List.length_set, length_shift]

/-- After the loop the first `n` slots hold their successors and the others are unchanged. -/
theorem getElem?_shift {blank : α} {slots : List α} {n : ℕ} (h : n < slots.length) (i : ℕ) :
    (shift blank slots n)[i]? = if i < n then slots[i + 1]? else slots[i]? := by
  induction n generalizing i with
  | zero => simp [shift]
  | succ n ih =>
    have hn : n < slots.length := by omega
    rw [shift_succ, List.getElem?_set, length_shift, List.getD_eq_getElem?_getD, ih hn, ih hn]
    by_cases hi : n = i
    · subst hi
      simp [hn, List.getElem?_eq_getElem h]
    · have hiff : i < n ↔ i < n + 1 := by omega
      simp [hi, hiff]

theorem contents_push {slots : List α} {depth : ℕ} (h : depth < slots.length) (x : α) :
    contents (push slots depth x) (depth + 1) = contents slots depth ++ [x] := by
  rw [contents, push, List.take_add_one, List.getElem?_set_self h, List.take_set_of_le le_rfl]
  rfl

theorem contents_pop {blank : α} {slots : List α} {depth : ℕ} (hpos : 0 < depth)
    (h : depth ≤ slots.length) :
    contents slots depth = slots[0] :: contents (pop blank slots depth) (depth - 1) := by
  have hshift : contents (pop blank slots depth) (depth - 1) = (slots.drop 1).take (depth - 1) := by
    rw [contents, pop, List.take_set_of_le le_rfl]
    apply List.ext_getElem?
    intro i
    rw [List.getElem?_take, List.getElem?_take, getElem?_shift (by omega), List.getElem?_drop,
      Nat.add_comm 1 i]
    split_ifs <;> rfl
  obtain ⟨depth, rfl⟩ := Nat.exists_eq_add_of_lt hpos
  cases slots with
  | nil => simp at h
  | cons a slots =>
    rw [hshift]
    simp [contents]

/-- What went into a queue is what came out of it, followed by its contents. -/
def Balanced (ins outs queue : List α) : Prop := ins = outs ++ queue

namespace Balanced

variable {ins outs queue : List α}

theorem start : Balanced ([] : List α) [] [] := rfl

theorem enqueue (h : Balanced ins outs queue) (x : α) :
    Balanced (ins ++ [x]) outs (queue ++ [x]) := by
  rw [Balanced, h, List.append_assoc]

theorem dequeue {x : α} (h : Balanced ins outs (x :: queue)) : Balanced ins (outs ++ [x]) queue := by
  rw [Balanced, List.append_assoc, List.singleton_append]
  exact h

theorem outs_prefix (h : Balanced ins outs queue) : outs <+: ins := ⟨queue, h.symm⟩

theorem length_eq (h : Balanced ins outs queue) : ins.length = outs.length + queue.length := by
  rw [h, List.length_append]

/-- An item that was in the queue at the start comes out behind exactly those in front of it. -/
theorem getElem?_outs {start : List α} (h : Balanced (start ++ ins) outs queue) {i : ℕ} {x : α}
    (hi : i < outs.length) (hx : start[i]? = some x) : outs[i]? = some x := by
  have hin : (start ++ ins)[i]? = some x := by
    rw [List.getElem?_append_left (List.getElem?_eq_some_iff.mp hx).1, hx]
  rwa [h, List.getElem?_append_left hi] at hin

end Balanced

end ArrayQueue
