import Bogbin.Library.Buffer

/-!
# Writing fields into a fixed staging buffer

A cursor holds a buffer of fixed length and the position of the next field.  `put` copies a field to
the position and fails when the field does not fit.  Fields written one after another amount to one
`put` of their concatenation (`put_put`, `putAll_eq`, `putEach_eq`), so that a sequence of writes
fits exactly when its total length does.
-/

namespace Staging

open Buffer

variable {α β : Type*}

/-- A buffer with the position of the next field. -/
structure Cursor (α : Type*) where
  buf : List α
  pos : ℕ
  pos_le : pos ≤ buf.length

namespace Cursor

/-- The start of a buffer. -/
def start (buf : List α) : Cursor α := ⟨buf, 0, Nat.zero_le _⟩

/-- The bytes before the position. -/
def written (c : Cursor α) : List α := c.buf.take c.pos

/-- Copy a field to the position; `none` when it does not fit. -/
def put (c : Cursor α) (src : List α) : Option (Cursor α) :=
  if h : c.pos + src.length ≤ c.buf.length then
    some ⟨patch c.buf c.pos src, c.pos + src.length, by rwa [length_patch _ h]⟩
  else none

/-- Copy fields one after another. -/
def putAll (c : Cursor α) (srcs : List (List α)) : Option (Cursor α) := srcs.foldlM put c

/-- Copy the fields of each item in turn. -/
def putEach (c : Cursor α) (fields : β → List (List α)) (items : List β) : Option (Cursor α) :=
  items.foldlM (fun c x => c.putAll (fields x)) c

@[simp] theorem written_start (buf : List α) : (start buf).written = [] := rfl

theorem put_isSome (c : Cursor α) (src : List α) :
    (c.put src).isSome ↔ c.pos + src.length ≤ c.buf.length := by
  unfold put
  split_ifs with h <;> simp [h]

theorem put_nil (c : Cursor α) : c.put [] = some c := by
  obtain ⟨buf, pos, hpos⟩ := c
  simp [put, patch, hpos]

theorem written_put {c d : Cursor α} {src : List α} (h : c.put src = some d) :
    d.written = c.written ++ src := by
  obtain ⟨buf, pos, hpos⟩ := c
  unfold put at h
  split_ifs at h
  obtain rfl := Option.some.inj h
  have hlen : (buf.take pos ++ src).length = pos + src.length := by
    rw [List.length_append, List.length_take, Nat.min_eq_left hpos]
  simp only [written, patch]
  rw [List.take_left' hlen]

theorem patch_patch_append (b : List α) {n : ℕ} (x y : List α) (h : n ≤ b.length) :
    patch (patch b n x) (n + x.length) y = patch b n (x ++ y) := by
  have hlen : (b.take n ++ x).length = n + x.length := by
    rw [List.length_append, List.length_take, Nat.min_eq_left h]
  simp only [patch]
  rw [List.take_left' hlen, ← hlen, List.drop_append, List.length_append, List.drop_drop]
  simp only [List.append_assoc, List.length_append, List.length_take, Nat.min_eq_left h]
  congr 3
  rw [List.drop_of_length_le (by simp; omega), List.nil_append]
  congr 1
  omega

/-- Two fields in a row are one field. -/
theorem put_put (c : Cursor α) (x y : List α) :
    ((c.put x).bind fun d => d.put y) = c.put (x ++ y) := by
  obtain ⟨buf, pos, hpos⟩ := c
  by_cases hx : pos + x.length ≤ buf.length
  · have hpatch : (patch buf pos x).length = buf.length := length_patch _ hx
    simp only [put, dif_pos hx, Option.bind_some, hpatch, List.length_append, Nat.add_assoc,
      patch_patch_append buf x y hpos]
  · have hxy : ¬ pos + (x ++ y).length ≤ buf.length := by
      rw [List.length_append]
      omega
    simp only [put, dif_neg hx, dif_neg hxy, Option.bind_none]

theorem putAll_eq (c : Cursor α) (srcs : List (List α)) : c.putAll srcs = c.put srcs.flatten := by
  induction srcs generalizing c with
  | nil => exact (put_nil c).symm
  | cons x srcs ih =>
    rw [List.flatten_cons, ← put_put]
    simp only [putAll, List.foldlM_cons] at ih ⊢
    exact Option.bind_congr fun d _ => ih d

theorem putEach_eq (c : Cursor α) (fields : β → List (List α)) (items : List β) :
    c.putEach fields items = c.put (items.flatMap fun x => (fields x).flatten) := by
  induction items generalizing c with
  | nil => exact (put_nil c).symm
  | cons x items ih =>
    rw [List.flatMap_cons, ← put_put, ← putAll_eq]
    simp only [putEach, List.foldlM_cons] at ih ⊢
    exact Option.bind_congr fun d _ => ih d

end Cursor

end Staging
