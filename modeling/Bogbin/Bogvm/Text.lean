import Bogbin.Bogvm.Genesis
import Bogbin.Library.Tokens

/-!
# Texts

The operations on texts that the assembler and the cell compiler use: `splitlines`, `split`,
`strip`, `upper`, `lower` and `int`.
-/

namespace Bogbin.Bogvm

open Tokens

abbrev Text := List Char

/-- `c.isspace()` -/
def is_space (c : Char) : Bool :=
  let n := c.toNat
  (9 ≤ n && n ≤ 13) || (28 ≤ n && n ≤ 32) || (0x2000 ≤ n && n ≤ 0x200a) ||
    n ∈ [0x85, 0xa0, 0x1680, 0x2028, 0x2029, 0x202f, 0x205f, 0x3000]

/-- A character that ends a line. -/
def is_break (c : Char) : Bool :=
  let n := c.toNat
  (10 ≤ n && n ≤ 13) || (28 ≤ n && n ≤ 30) || n ∈ [0x85, 0x2028, 0x2029]

/-- The lines of a text whose first line starts with `line`. -/
def scan_lines (line : Text) : Text → List Text
  | [] => flush line
  | '\r' :: '\n' :: rest => line :: scan_lines [] rest
  | c :: rest => if is_break c then line :: scan_lines [] rest else scan_lines (line ++ [c]) rest

/-- `text.splitlines()` -/
def splitlines (text : Text) : List Text := scan_lines [] text

/-- `text.split()` -/
def split (text : Text) : List Text := words is_space text

/-- `text.strip()` -/
def strip (text : Text) : Text := Tokens.strip is_space text

/-- `c.upper()`, for the characters whose upper case is ASCII. -/
def upper_char (c : Char) : Text :=
  match c.toNat with
  | 0x131 => ['I']
  | 0x17f => ['S']
  | 0xdf => ['S', 'S']
  | 0xfb00 => ['F', 'F']
  | 0xfb01 => ['F', 'I']
  | 0xfb02 => ['F', 'L']
  | 0xfb03 => ['F', 'F', 'I']
  | 0xfb04 => ['F', 'F', 'L']
  | 0xfb05 => ['S', 'T']
  | 0xfb06 => ['S', 'T']
  | _ => [c.toUpper]

/-- `text.upper()`, as far as the result is ASCII. -/
def upper (text : Text) : Text := text.flatMap upper_char

/-- `text.lower()`, as far as the result is ASCII. -/
def lower (text : Text) : Text :=
  text.map fun c => if c.toNat = 0x212a then 'k' else c.toLower

/-- The digits of an integer literal, with single underscores between digits. -/
def int_digits : Text → Option (List ℕ)
  | [] => none
  | [c] => (decimal c).map fun digit => [digit]
  | c :: '_' :: rest => do
    let digit ← decimal c
    let digits ← int_digits rest
    some (digit :: digits)
  | c :: rest => do
    let digit ← decimal c
    let digits ← int_digits rest
    some (digit :: digits)

/-- The sign of an integer literal and what follows it. -/
def int_sign : Text → ℤ × Text
  | '-' :: rest => (-1, rest)
  | '+' :: rest => (1, rest)
  | rest => (1, rest)

/-- `int(text)`, which takes at most 4300 digits. -/
def int (text : Text) : Except PyError ℤ :=
  let (sign, rest) := int_sign (strip text)
  match int_digits rest with
  | none => .error .ValueError
  | some digits =>
    if 4300 < digits.length then .error .ValueError
    else .ok (sign * (Nat.ofDigits 10 digits.reverse : ℕ))

/-- `str(n)` -/
def digits (n : ℕ) : Text := Nat.toDigits 10 n

/-! ## Lines -/

section Lines

variable {line text rest : Text}

theorem is_space_of_is_break {c : Char} (h : is_break c = true) : is_space c = true := by
  unfold is_break at h
  unfold is_space
  simp only [Bool.or_eq_true, Bool.and_eq_true, decide_eq_true_eq, List.mem_cons, List.not_mem_nil,
    or_false] at h ⊢
  omega

theorem scan_lines_append (h : ∀ c ∈ text, is_break c = false) :
    scan_lines line (text ++ rest) = scan_lines (line ++ text) rest := by
  induction text generalizing line with
  | nil => rw [List.nil_append, List.append_nil]
  | cons c text ih =>
    have hc := h c List.mem_cons_self
    have hne : c ≠ '\r' := by
      rintro rfl
      exact absurd hc (by decide)
    rw [List.cons_append, scan_lines, if_neg (by simp [hc]), ih fun d hd => h d (List.mem_cons_of_mem c hd),
      List.append_assoc, List.singleton_append]
    rintro rest' rfl
    exact absurd rfl hne

/-- Lines that end with `"\n"`. -/
theorem splitlines_flatMap {lines : List Text} (h : ∀ line ∈ lines, ∀ c ∈ line, is_break c = false) :
    splitlines (lines.flatMap (· ++ ['\n'])) = lines := by
  unfold splitlines
  induction lines with
  | nil => rfl
  | cons line lines ih =>
    rw [List.flatMap_cons, List.append_assoc, scan_lines_append (h line List.mem_cons_self),
      List.nil_append, List.singleton_append, scan_lines]
    · rw [if_pos (by decide), ih fun l hl => h l (List.mem_cons_of_mem line hl)]
    · intro rest heq
      exact absurd heq (by decide)

end Lines

/-! ## Numbers -/

section Numbers

variable {n : ℕ} {l : Text}

theorem decimal_of_isDigit {c : Char} (h : c.isDigit) : decimal c = some (c.toNat - 48) := by
  obtain ⟨hle, hlt⟩ := ZeroPadding.digit_lt h
  unfold decimal decimal_zeros
  rw [List.find?_cons_of_pos (by simp; omega)]
  rfl

theorem int_digits_of_isDigit (hne : l ≠ []) (h : ∀ c ∈ l, c.isDigit) :
    int_digits l = some (l.map fun c => c.toNat - 48) := by
  induction l with
  | nil => exact absurd rfl hne
  | cons c l ih =>
    have hc := decimal_of_isDigit (h c List.mem_cons_self)
    cases l with
    | nil => rw [int_digits, hc]; rfl
    | cons d l =>
      have hd : d ≠ '_' := by
        rintro rfl
        exact absurd (h '_' (by simp)) (by decide)
      rw [int_digits, hc, ih (by simp) fun e he => h e (List.mem_cons_of_mem c he)]
      · rfl
      · exact fun heq => nomatch heq
      · intro rest heq
        exact absurd (List.cons.inj heq).1 hd

theorem isWord_of_isDigit (hne : l ≠ []) (h : ∀ c ∈ l, c.isDigit) : IsWord is_space l := by
  refine ⟨hne, fun c hc => ?_⟩
  obtain ⟨hle, hlt⟩ := ZeroPadding.digit_lt (h c hc)
  unfold is_space
  simp only [Bool.or_eq_false_iff, Bool.and_eq_false_iff, decide_eq_false_iff_not, List.mem_cons,
    List.not_mem_nil, or_false]
  omega

theorem digits_ne_nil : digits n ≠ [] := Nat.toDigits_ne_nil

theorem isDigit_of_mem_digits {c : Char} (h : c ∈ digits n) : c.isDigit :=
  Nat.isDigit_of_mem_toDigits (by decide) (by decide) h

theorem isWord_digits : IsWord is_space (digits n) :=
  isWord_of_isDigit digits_ne_nil fun _ => isDigit_of_mem_digits

theorem ofDigits_of_isDigit (h : ∀ c ∈ l, c.isDigit) :
    Nat.ofDigits 10 (l.map fun c => c.toNat - 48).reverse = Nat.ofDigitChars 10 l 0 := by
  induction l with
  | nil => rfl
  | cons c l ih =>
    rw [List.map_cons, List.reverse_cons, Nat.ofDigits_append,
      ih fun d hd => h d (List.mem_cons_of_mem c hd), Nat.ofDigits_singleton,
      ZeroPadding.ofDigitChars_cons_eq, List.length_reverse, List.length_map, Nat.add_comm]

theorem int_sign_of_isDigit (h : ∀ c ∈ l, c.isDigit) : int_sign l = (1, l) := by
  unfold int_sign
  split
  · exact absurd (h '-' List.mem_cons_self) (by decide)
  · exact absurd (h '+' List.mem_cons_self) (by decide)
  · rfl

/-- `int(str(n))` -/
theorem int_of_digits (h : (digits n).length ≤ 4300) : int (digits n) = .ok n := by
  have hdigit : ∀ c ∈ digits n, c.isDigit := fun _ => isDigit_of_mem_digits
  have hvalue : Nat.ofDigitChars 10 (digits n) 0 = n := Nat.ofDigitChars_ten_toDigits
  unfold int strip
  rw [strip_of_isWord isWord_digits, int_sign_of_isDigit hdigit]
  dsimp only
  rw [int_digits_of_isDigit digits_ne_nil hdigit]
  dsimp only
  rw [List.length_map, if_neg (not_lt.mpr h), ofDigits_of_isDigit hdigit, hvalue, one_mul]

end Numbers

end Bogbin.Bogvm
