import Mathlib.Algebra.Group.Nat.Defs
import Mathlib.Data.List.Lex
import Mathlib.Order.Lattice

/-!
# Zero-padded numbers

Decimal numbers that are filled up with zeros to a common width are ordered like their values
(`zero_padded_lt`), and every number can be read back from its padded form
(`ofDigitChars_zero_padded`).
-/

namespace ZeroPadding

open Nat List

/-- A number in decimal, filled up with zeros to a width, `{n:06d}` for the width 6. -/
def zero_padded (width n : ℕ) : List Char := List.leftpad width '0' (toDigits 10 n)

section Digits

variable {l m : List Char} {n width : ℕ}

theorem ofDigitChars_zero_padded : ofDigitChars 10 (zero_padded width n) 0 = n := by
  rw [zero_padded, leftpad, ofDigitChars_append, ofDigitChars_replicate_zero, Nat.mul_zero,
    ofDigitChars_ten_toDigits]

theorem zero_padded_injective {k : ℕ} (h : zero_padded width n = zero_padded width k) : n = k := by
  rw [← @ofDigitChars_zero_padded n width, h, ofDigitChars_zero_padded]

theorem length_zero_padded (hwidth : 0 < width) (h : n < 10 ^ width) :
    (zero_padded width n).length = width := by
  have hdigits := (length_toDigits_le_iff (by decide : 1 < 10) hwidth).mpr h
  rw [zero_padded, length_leftpad]
  omega

theorem isDigit_of_mem_zero_padded {c : Char} (h : c ∈ zero_padded width n) : c.isDigit := by
  rcases List.mem_append.mp h with hzero | hdigit
  · rw [List.eq_of_mem_replicate hzero]
    rfl
  · exact isDigit_of_mem_toDigits (by decide) (by decide) hdigit

theorem not_isDigit_not_mem {c : Char} (h : c.isDigit = false) : c ∉ zero_padded width n := by
  intro hmem
  rw [isDigit_of_mem_zero_padded hmem] at h
  cases h

/-- The value of a digit. -/
theorem digit_lt {c : Char} (h : c.isDigit) : 48 ≤ c.toNat ∧ c.toNat < 58 := by
  have hdigit := Char.isDigit_iff_toNat.mp h
  exact ⟨hdigit.1, Nat.lt_succ_of_le hdigit.2⟩

theorem ofDigitChars_cons_eq {c : Char} :
    ofDigitChars 10 (c :: l) 0 = 10 ^ l.length * (c.toNat - 48) + ofDigitChars 10 l 0 := by
  rw [ofDigitChars_cons, Nat.mul_zero, Nat.zero_add, ofDigitChars_eq_ofDigitChars_zero]
  rfl

theorem ofDigitChars_lt (h : ∀ c ∈ l, c.isDigit) : ofDigitChars 10 l 0 < 10 ^ l.length := by
  induction l with
  | nil => exact Nat.one_pos
  | cons c l ih =>
    obtain ⟨-, hc⟩ := digit_lt (h c List.mem_cons_self)
    have hl := ih fun d hd => h d (List.mem_cons_of_mem c hd)
    rw [ofDigitChars_cons_eq, List.length_cons, Nat.pow_succ]
    have hle : 10 ^ l.length * (c.toNat - 48) ≤ 10 ^ l.length * 9 :=
      Nat.mul_le_mul_left _ (by omega)
    omega

/-- Digit strings of one length are ordered like their values. -/
theorem lt_of_ofDigitChars_lt (hlength : l.length = m.length) (hl : ∀ c ∈ l, c.isDigit)
    (hm : ∀ c ∈ m, c.isDigit) (h : ofDigitChars 10 l 0 < ofDigitChars 10 m 0) : l < m := by
  induction l generalizing m with
  | nil =>
    obtain rfl := List.eq_nil_of_length_eq_zero hlength.symm
    exact absurd h (Nat.lt_irrefl _)
  | cons c l ih =>
    cases m with
    | nil => cases hlength
    | cons d m =>
      obtain ⟨hc, -⟩ := digit_lt (hl c List.mem_cons_self)
      obtain ⟨hd, -⟩ := digit_lt (hm d List.mem_cons_self)
      have hrest := ofDigitChars_lt fun e he => hl e (List.mem_cons_of_mem c he)
      have hrest' := ofDigitChars_lt fun e he => hm e (List.mem_cons_of_mem d he)
      have hlen : l.length = m.length := Nat.succ.inj hlength
      rw [ofDigitChars_cons_eq, ofDigitChars_cons_eq, hlen] at h
      rw [hlen] at hrest
      rw [List.cons_lt_cons_iff]
      rcases Nat.lt_trichotomy c.toNat d.toNat with hlt | heq | hgt
      · exact .inl hlt
      · obtain rfl := Char.toNat_inj.mp heq
        refine .inr ⟨rfl, ih hlen (fun e he => hl e (List.mem_cons_of_mem c he))
          (fun e he => hm e (List.mem_cons_of_mem c he)) (by omega)⟩
      · -- a smaller leading digit outweighs every rest
        have hle : 10 ^ m.length * (d.toNat - 48 + 1) ≤ 10 ^ m.length * (c.toNat - 48) :=
          Nat.mul_le_mul_left _ (by omega)
        rw [Nat.mul_succ] at hle
        omega

/-- Padded numbers that fit into the width are ordered like the numbers. -/
theorem zero_padded_lt {k : ℕ} (hwidth : 0 < width) (h : n < k) (hk : k < 10 ^ width) :
    zero_padded width n < zero_padded width k := by
  refine lt_of_ofDigitChars_lt ?_ (fun _ => isDigit_of_mem_zero_padded)
    (fun _ => isDigit_of_mem_zero_padded) ?_
  · rw [length_zero_padded hwidth (Nat.lt_trans h hk), length_zero_padded hwidth hk]
  · rw [ofDigitChars_zero_padded, ofDigitChars_zero_padded]
    exact h

end Digits

/-- The order of two strings of one length decides, whatever follows them. -/
theorem append_lt_append {l m : List Char} (hlength : l.length = m.length) (h : l < m)
    (s t : List Char) : l ++ s < m ++ t := by
  induction l generalizing m with
  | nil =>
    obtain rfl := List.eq_nil_of_length_eq_zero hlength.symm
    exact absurd h (List.lt_irrefl _)
  | cons c l ih =>
    cases m with
    | nil => cases hlength
    | cons d m =>
      rw [List.cons_append, List.cons_append, List.cons_lt_cons_iff]
      rcases List.cons_lt_cons_iff.mp h with hlt | ⟨rfl, hlt⟩
      · exact .inl hlt
      · exact .inr ⟨rfl, ih (Nat.succ.inj hlength) hlt⟩

/-- A number that is wider than the padding comes before the nines, when what follows the nines is
not a digit but comes after all of them. -/
theorem digits_lt_nines {l : List Char} {width : ℕ} {c : Char} (hdigits : ∀ d ∈ l, d.isDigit)
    (hlength : width < l.length) (hc : '9' < c) (s t : List Char) :
    l ++ s < List.replicate width '9' ++ c :: t := by
  induction width generalizing l with
  | zero =>
    cases l with
    | nil => exact absurd hlength (Nat.lt_irrefl 0)
    | cons d l =>
      have hd : d.toNat < 58 := (digit_lt (hdigits d List.mem_cons_self)).2
      have hc' : 57 < c.toNat := hc
      have hlt : d < c := show d.toNat < c.toNat by omega
      exact List.cons_lt_cons_iff.mpr (.inl hlt)
  | succ width ih =>
    cases l with
    | nil => exact absurd hlength (Nat.not_lt_zero _)
    | cons d l =>
      have hrest := ih (fun e he => hdigits e (List.mem_cons_of_mem d he))
        (Nat.lt_of_succ_lt_succ hlength)
      have hd : d.toNat < 58 := (digit_lt (hdigits d List.mem_cons_self)).2
      rw [List.replicate_succ, List.cons_append, List.cons_append, List.cons_lt_cons_iff]
      by_cases hnine : d = '9'
      · exact .inr ⟨hnine, hrest⟩
      · have hne : d.toNat ≠ 57 := fun h => hnine (Char.toNat_inj.mp h)
        have hlt : d < '9' := show d.toNat < 57 by omega
        exact .inl hlt

theorem lt_length_zero_padded {width n : ℕ} (hwidth : 0 < width) (h : 10 ^ width ≤ n) :
    width < (zero_padded width n).length := by
  have hdigits := mt (length_toDigits_le_iff (by decide : 1 < 10) hwidth).mp (Nat.not_lt.mpr h)
  rw [zero_padded, length_leftpad]
  omega

end ZeroPadding
