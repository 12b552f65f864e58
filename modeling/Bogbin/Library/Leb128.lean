import Mathlib.Tactic

/-!
# Base-128 numbers

A number as bytes with seven bits each, the lowest first; every byte but the last has its high bit
set.  `encode` is the shortest such text, and it determines the number (`value_encode`).
-/

namespace Leb128

/-- The digits of a number, for a bound on their count. -/
def encode_loop : ℕ → ℕ → List UInt8
  | 0, _ => []
  | fuel + 1, n =>
    if n / 128 = 0 then [UInt8.ofNat n] else UInt8.ofNat (n % 128 + 128) :: encode_loop fuel (n / 128)

def encode (n : ℕ) : List UInt8 := encode_loop (n + 1) n

/-- The number of some digits, whatever their high bits are. -/
def value : List UInt8 → ℕ
  | [] => 0
  | b :: rest => b.toNat % 128 + 128 * value rest

/-- All bytes but the last have their high bit set. -/
def Terminated : List UInt8 → Prop
  | [] => False
  | [b] => b.toNat < 128
  | b :: rest => 128 ≤ b.toNat ∧ Terminated rest

/-- No text continues another one. -/
theorem Terminated.prefix_eq {a b : List UInt8} (ha : Terminated a) (hb : Terminated b)
    (h : a <+: b) : a = b := by
  induction a generalizing b with
  | nil => cases ha
  | cons x a ih =>
    obtain ⟨rest, rfl⟩ := h
    cases a with
    | nil =>
      cases rest with
      | nil => rfl
      | cons y rest => exact absurd hb.1 (Nat.not_le_of_lt ha)
    | cons y a => exact congrArg (x :: ·) (ih ha.2 hb.2 (List.prefix_append _ rest))

section Lemmas

variable {n fuel k : ℕ} {b : UInt8} {bytes : List UInt8}

theorem encode_loop_of_lt (h : n < 128) : encode_loop (fuel + 1) n = [UInt8.ofNat n] := by
  rw [encode_loop, if_pos (Nat.div_eq_of_lt h)]

theorem encode_loop_of_le (h : 128 ≤ n) :
    encode_loop (fuel + 1) n = UInt8.ofNat (n % 128 + 128) :: encode_loop fuel (n / 128) := by
  rw [encode_loop, if_neg]
  omega

/-- More fuel than digits changes nothing. -/
theorem encode_loop_eq (h : n < fuel) : encode_loop fuel n = encode n := by
  induction n using Nat.strongRecOn generalizing fuel with
  | ind n ih =>
    obtain ⟨fuel, rfl⟩ := Nat.exists_eq_add_of_lt (Nat.lt_of_le_of_lt (Nat.zero_le n) h)
    rw [Nat.zero_add, encode]
    by_cases hn : n < 128
    · rw [encode_loop_of_lt hn, encode_loop_of_lt hn]
    · have hle : 128 ≤ n := Nat.le_of_not_lt hn
      have hlt : n / 128 < n := by omega
      rw [encode_loop_of_le hle, encode_loop_of_le hle, ih _ hlt (by omega), ih _ hlt hlt]

theorem encode_of_lt (h : n < 128) : encode n = [UInt8.ofNat n] := encode_loop_of_lt h

theorem encode_of_le (h : 128 ≤ n) :
    encode n = UInt8.ofNat (n % 128 + 128) :: encode (n / 128) := by
  rw [encode, encode_loop_of_le h, encode_loop_eq (by omega)]

theorem toNat_last (h : n < 128) : (UInt8.ofNat n).toNat = n := by
  rw [UInt8.toNat_ofNat']
  omega

theorem toNat_digit : (UInt8.ofNat (n % 128 + 128)).toNat = n % 128 + 128 := by
  rw [UInt8.toNat_ofNat']
  omega

theorem value_encode (n : ℕ) : value (encode n) = n := by
  induction n using Nat.strongRecOn with
  | ind n ih =>
    by_cases hn : n < 128
    · rw [encode_of_lt hn, value, value, toNat_last hn]
      omega
    · have hle : 128 ≤ n := Nat.le_of_not_lt hn
      rw [encode_of_le hle, value, toNat_digit, ih _ (by omega)]
      omega

theorem encode_injective {m : ℕ} (h : encode n = encode m) : n = m := by
  rw [← value_encode n, h, value_encode]

theorem encode_ne_nil (n : ℕ) : encode n ≠ [] := by
  by_cases hn : n < 128
  · rw [encode_of_lt hn]
    exact List.cons_ne_nil _ _
  · rw [encode_of_le (Nat.le_of_not_lt hn)]
    exact List.cons_ne_nil _ _

theorem terminated_encode (n : ℕ) : Terminated (encode n) := by
  induction n using Nat.strongRecOn with
  | ind n ih =>
    by_cases hn : n < 128
    · rw [encode_of_lt hn]
      show (UInt8.ofNat n).toNat < 128
      rwa [toNat_last hn]
    · have hle : 128 ≤ n := Nat.le_of_not_lt hn
      have hrest := ih (n / 128) (by omega)
      rw [encode_of_le hle]
      cases hcases : encode (n / 128) with
      | nil => exact absurd hcases (encode_ne_nil _)
      | cons b rest =>
        rw [hcases] at hrest
        exact ⟨by rw [toNat_digit]; omega, hrest⟩

theorem encode_prefix_eq {m : ℕ} (h : encode m <+: encode n) : m = n :=
  encode_injective ((terminated_encode m).prefix_eq (terminated_encode n) h)

/-- The count of the digits. -/
theorem length_encode_le : (encode n).length ≤ k + 1 ↔ n < 128 ^ (k + 1) := by
  induction k generalizing n with
  | zero =>
    by_cases hn : n < 128
    · rw [encode_of_lt hn]
      simpa using hn
    · have hle : 128 ≤ n := Nat.le_of_not_lt hn
      have hpos := List.length_pos_of_ne_nil (encode_ne_nil (n / 128))
      rw [encode_of_le hle, List.length_cons]
      omega
  | succ k ih =>
    by_cases hn : n < 128
    · rw [encode_of_lt hn, List.length_singleton]
      have hpow : 128 ≤ 128 ^ (k + 1 + 1) := by
        rw [pow_succ]
        exact Nat.le_mul_of_pos_left 128 (Nat.pos_of_ne_zero (by positivity))
      omega
    · have hle : 128 ≤ n := Nat.le_of_not_lt hn
      rw [encode_of_le hle, List.length_cons, Nat.add_le_add_iff_right, ih,
        Nat.div_lt_iff_lt_mul (by decide), ← pow_succ]

/-- A small number has one digit. -/
theorem length_encode_of_lt (h : n < 128) : (encode n).length = 1 := by
  rw [encode_of_lt h]
  rfl

end Lemmas

end Leb128
