import Bogbin.Library.Buffer

/-! # Byte strings, digests and checks -/

namespace Bogbin

/-- A Rust `[u8]` or a Python `bytes`. -/
abbrev Bytes := List UInt8

/-- A digest of 32 bytes, `[u8; 32]`. -/
abbrev Digest := {b : Bytes // b.length = 32}

/-- The zero buffer `[0u8; n]`. -/
def zeros (n : ℕ) : Bytes := List.replicate n 0

@[simp] theorem length_zeros (n : ℕ) : (zeros n).length = n := List.length_replicate

theorem slice_zeros {n off len : ℕ} (h : off + len ≤ n) :
    Buffer.slice (zeros n) off len = zeros len :=
  Buffer.slice_replicate 0 h

theorem drop_zeros (n k : ℕ) : (zeros n).drop k = zeros (n - k) := List.drop_replicate ..

/-- The digest `[0; 32]`. -/
def Digest.zero : Digest := ⟨zeros 32, length_zeros 32⟩

/-- An ASCII byte string literal `b"..."`. -/
def ascii (s : String) : Bytes := s.toList.map fun c => UInt8.ofNat c.toNat

/-- `saturating_add(1)` on a 32-bit counter. -/
def saturating_succ (n : ℕ) : ℕ := min (n + 1) (2 ^ 32 - 1)

/-! ## Checks that return an error -/

/-- `if c { return Err(reason) }` -/
def reject_if {ε : Type} (c : Prop) [Decidable c] (reason : ε) : Except ε Unit :=
  if c then .error reason else .ok ()

@[simp] theorem reject_if_eq_ok {ε : Type} {c : Prop} [Decidable c] {reason : ε} {u : Unit} :
    reject_if c reason = .ok u ↔ ¬ c := by
  unfold reject_if
  split_ifs with h <;> simp [h]

@[simp] theorem bind_eq_ok {ε α β : Type} {x : Except ε α} {f : α → Except ε β} {b : β} :
    (x >>= f) = .ok b ↔ ∃ a, x = .ok a ∧ f a = .ok b := by
  cases x with
  | error e => simp [Bind.bind, Except.bind]
  | ok a => simp [Bind.bind, Except.bind]

/-- The rest of a program after a check. -/
theorem reject_bind_eq_ok {ε β : Type} {c : Prop} [Decidable c] {reason : ε}
    {f : Unit → Except ε β} {b : β} :
    (reject_if c reason >>= f) = .ok b ↔ ¬ c ∧ f () = .ok b := by
  unfold reject_if
  split_ifs with h
  · simp [Bind.bind, Except.bind, h]
  · simp [Bind.bind, Except.bind, h]

theorem toOption_eq_some {ε α : Type} {x : Except ε α} {a : α} :
    x.toOption = some a ↔ x = .ok a := by
  cases x <;> simp [Except.toOption]

theorem forM_eq_ok {ε α : Type} (items : List α) (f : α → Except ε Unit) :
    items.forM f = .ok () ↔ ∀ x ∈ items, f x = .ok () := by
  induction items with
  | nil => simp [List.forM, Pure.pure, Except.pure]
  | cons x items ih =>
    have hcons : (x :: items).forM f = (f x >>= fun _ => items.forM f) := rfl
    rw [hcons, bind_eq_ok, List.forall_mem_cons, ← ih]
    exact ⟨fun ⟨_, hx, hrest⟩ => ⟨hx, hrest⟩, fun ⟨hx, hrest⟩ => ⟨(), hx, hrest⟩⟩

/-! ## Equality of texts and paths -/

instance instLawfulBEqText : LawfulBEq (List Char) := List.instLawfulBEq

instance instLawfulBEqPath : LawfulBEq (List (List Char)) := List.instLawfulBEq

end Bogbin
