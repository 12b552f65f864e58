import Bogbin.Bogvm.Archive
import Bogbin.Bogvm.DictSorted
import Bogbin.Bogvm.Text
import Bogbin.Library.StateExcept

/-!
# Reading JSON

`json.loads`, for the texts without lone surrogates.  A float keeps the text that `json.dumps` writes
for it; `float_repr` gives this text for the one that has been read.  What `json.dumps` writes is read
back (`loads_dumps`), so two values with one canonical form are equal
(`canonical_bytes_injective`).
-/

namespace Bogbin.Bogvm

open StateExcept

/-- A dictionary in order is the one of its fields. -/
theorem Dict.of_eq_self {d : Dict} (h : Dict.Sorted d) : Dict.of d = d := by
  have hnodup : (d.map Prod.fst).Nodup := by
    rw [List.nodup_iff_pairwise_ne, List.pairwise_map]
    refine List.Pairwise.imp (fun {a b} hlt heq => ?_) h
    rw [heq] at hlt
    exact lt_irrefl _ hlt
  refine List.Perm.eq_of_pairwise (fun a b _ _ hab hba => ?_) (Dict.sorted_of d) h (Dict.perm_of hnodup)
  exact absurd (hab.trans hba) (lt_irrefl _)

namespace JsonReader

def is_whitespace (c : Char) : Bool := c ∈ [' ', '\t', '\n', '\r']

def skip (text : Text) : Text := text.dropWhile is_whitespace

/-! ## Strings -/

def hex_value (c : Char) : Option ℕ :=
  if c.isDigit then some (c.toNat - 48)
  else if 'a' ≤ c ∧ c ≤ 'f' then some (c.toNat - 87)
  else if 'A' ≤ c ∧ c ≤ 'F' then some (c.toNat - 55)
  else none

def scan_hex : Text → Option (ℕ × Text)
  | a :: b :: c :: d :: rest => do
    let a ← hex_value a
    let b ← hex_value b
    let c ← hex_value c
    let d ← hex_value d
    some (a * 4096 + b * 256 + c * 16 + d, rest)
  | _ => none

/-- The second half of a surrogate pair. -/
def scan_low_surrogate (high : ℕ) : Text → Option (Char × Text)
  | '\\' :: 'u' :: rest => do
    let (low, rest) ← scan_hex rest
    if 0xdc00 ≤ low ∧ low < 0xe000 then
      some (Char.ofNat (65536 + (high - 0xd800) * 1024 + (low - 0xdc00)), rest)
    else none
  | _ => none

/-- The character of an escape, after `\u`. -/
def scan_unicode (text : Text) : Option (Char × Text) := do
  let (n, rest) ← scan_hex text
  if 0xd800 ≤ n ∧ n < 0xdc00 then scan_low_surrogate n rest
  else if 0xdc00 ≤ n ∧ n < 0xe000 then none
  else some (Char.ofNat n, rest)

def unescape (c : Char) : Option Char :=
  match c with
  | '"' => some '"'
  | '\\' => some '\\'
  | '/' => some '/'
  | 'b' => some (Char.ofNat 8)
  | 'f' => some (Char.ofNat 12)
  | 'n' => some '\n'
  | 'r' => some '\r'
  | 't' => some '\t'
  | _ => none

/-- The character of an escape, after the backslash. -/
def scan_escape : Text → Option (Char × Text)
  | [] => none
  | c :: rest => if c = 'u' then scan_unicode rest else (unescape c).map fun d => (d, rest)

/-- The next character of a string, which is not its end. -/
def scan_char : Text → Option (Char × Text)
  | [] => none
  | c :: rest =>
    if c = '\\' then scan_escape rest
    else if c.toNat < 32 then none
    else some (c, rest)

/-- The string whose opening quote has been read. -/
def scan_string : ℕ → Text → Option (Text × Text)
  | 0, _ => none
  | fuel + 1, text =>
    if text.head? = some '"' then some ([], text.tail)
    else do
      let (c, rest) ← scan_char text
      let (s, rest) ← scan_string fuel rest
      some (c :: s, rest)

/-! ## Numbers -/

def scan_sign : Text → Text × Text
  | [] => ([], [])
  | c :: rest => if c = '-' then (['-'], rest) else ([], c :: rest)

def scan_digits (text : Text) : Text × Text := (text.takeWhile Char.isDigit, text.dropWhile Char.isDigit)

/-- The digits before the point; a leading zero is the only one. -/
def scan_whole : Text → Text × Text
  | [] => ([], [])
  | c :: rest => if c = '0' then (['0'], rest) else scan_digits (c :: rest)

/-- The part before a run of digits, with the digits, where there are any. -/
def with_digits (front text : Text) : Text × Text :=
  if (scan_digits text).1 = [] then ([], front ++ text)
  else (front ++ (scan_digits text).1, (scan_digits text).2)

def scan_fraction : Text → Text × Text
  | [] => ([], [])
  | c :: rest => if c = '.' then with_digits ['.'] rest else ([], c :: rest)

/-- The signed digits after the `e` of an exponent. -/
def scan_signed (e : Char) : Text → Text × Text
  | [] => ([], [e])
  | c :: rest => if c = '+' ∨ c = '-' then with_digits [e, c] rest else with_digits [e] (c :: rest)

def scan_exponent : Text → Text × Text
  | [] => ([], [])
  | c :: rest => if c = 'e' ∨ c = 'E' then scan_signed c rest else ([], c :: rest)

section Values

variable (float_repr : Text → String)

def scan_number (text : Text) : Except PyError (Json × Text) :=
  let (sign, text) := scan_sign text
  let (whole, text) := scan_whole text
  let (fraction, text) := scan_fraction text
  let (exponent, text) := scan_exponent text
  if whole = [] then .error .JSONDecodeError
  else if fraction = [] ∧ exponent = [] then do
    let n ← int (sign ++ whole)
    .ok (.int n, text)
  else .ok (.float (float_repr (sign ++ whole ++ fraction ++ exponent)), text)

/-! ## Values -/

def constants : List (Text × Json) :=
  [("null".toList, .null), ("true".toList, .bool true), ("false".toList, .bool false),
    ("NaN".toList, .float "NaN"), ("Infinity".toList, .float "Infinity"),
    ("-Infinity".toList, .float "-Infinity")]

def scan_constant (text : Text) : Option (Json × Text) :=
  (constants.find? fun constant => constant.1.isPrefixOf text).map fun constant =>
    (constant.2, text.drop constant.1.length)

/-- A value that is no string, array or object. -/
def scan_atom (text : Text) : Except PyError (Json × Text) :=
  match scan_constant text with
  | some found => .ok found
  | none => scan_number float_repr text

def string_of (text : Text) : Except PyError (String × Text) :=
  match scan_string text.length text with
  | some (s, rest) => .ok (String.ofList s, rest)
  | none => .error .JSONDecodeError

mutual

def scan_value : ℕ → Text → Except PyError (Json × Text)
  | 0, _ => .error .RecursionError
  | _ + 1, [] => .error .JSONDecodeError
  | fuel + 1, c :: rest =>
    if c = '"' then do
      let (s, rest) ← string_of rest
      .ok (.str s, rest)
    else if c = '[' then
      if (skip rest).head? = some ']' then .ok (.arr [], (skip rest).tail)
      else do
        let (items, rest) ← scan_items fuel (skip rest)
        .ok (.arr items, rest)
    else if c = '\x7b' then
      if (skip rest).head? = some '\x7d' then .ok (.obj [], (skip rest).tail)
      else do
        let (fields, rest) ← scan_fields fuel (skip rest)
        .ok (.obj (Dict.of fields), rest)
    else scan_atom float_repr (c :: rest)

/-- The items of an array, of which there is one at least. -/
def scan_items : ℕ → Text → Except PyError (List Json × Text)
  | 0, _ => .error .RecursionError
  | fuel + 1, text => do
    let (v, rest) ← scan_value fuel text
    match skip rest with
    | [] => .error .JSONDecodeError
    | c :: rest =>
      if c = ']' then .ok ([v], rest)
      else if c = ',' then do
        let (items, rest) ← scan_items fuel (skip rest)
        .ok (v :: items, rest)
      else .error .JSONDecodeError

/-- The fields of an object, of which there is one at least. -/
def scan_fields : ℕ → Text → Except PyError (List (String × Json) × Text)
  | 0, _ => .error .RecursionError
  | _ + 1, [] => .error .JSONDecodeError
  | fuel + 1, c :: text =>
    if c ≠ '"' then .error .JSONDecodeError
    else do
      let (key, rest) ← string_of text
      match skip rest with
      | [] => .error .JSONDecodeError
      | c :: rest =>
        if c ≠ ':' then .error .JSONDecodeError
        else do
          let (v, rest) ← scan_value fuel (skip rest)
          match skip rest with
          | [] => .error .JSONDecodeError
          | c :: rest =>
            if c = '\x7d' then .ok ([(key, v)], rest)
            else if c = ',' then do
              let (fields, rest) ← scan_fields fuel (skip rest)
              .ok ((key, v) :: fields, rest)
            else .error .JSONDecodeError

end

/-- `json.loads(text)` -/
def loads (text : Text) : Except PyError Json := do
  let (v, rest) ← scan_value float_repr (text.length + 1) (skip text)
  if skip rest = [] then .ok v else .error .JSONDecodeError

/-- `data.decode("utf-8")` -/
def decode_utf8 (data : Bytes) : Except PyError Text :=
  match String.fromUTF8? ⟨data.toArray⟩ with
  | some s => .ok s.toList
  | none => .error .UnicodeDecodeError

/-- `json.loads(data.decode("utf-8"))` -/
def loads_bytes (data : Bytes) : Except PyError Json := decode_utf8 data >>= loads float_repr

end Values

/-! ## Strings are read back -/

section Strings

variable {rest : Text}

theorem hex_value_hex_digit {d : ℕ} (h : d < 16) : hex_value (hex_digit d) = some d := by
  have hall : ∀ d < 16, hex_value (hex_digit d) = some d := by decide
  exact hall d h

theorem scan_hex_digits {n : ℕ} (h : n < 65536) :
    scan_hex (hex_digit (n / 4096 % 16) :: hex_digit (n / 256 % 16) :: hex_digit (n / 16 % 16) ::
      hex_digit (n % 16) :: rest) = some (n, rest) := by
  have hlt (m : ℕ) : m % 16 < 16 := Nat.mod_lt m (by decide)
  have hsum : n / 4096 % 16 * 4096 + n / 256 % 16 * 256 + n / 16 % 16 * 16 + n % 16 = n := by omega
  simp only [scan_hex, hex_value_hex_digit (hlt _), Option.bind_eq_bind, Option.bind_some, hsum]

/-- A character is no surrogate. -/
theorem toNat_bounds (c : Char) : c.toNat < 0xd800 ∨ 0xe000 ≤ c.toNat ∧ c.toNat < 0x110000 := by
  rcases c.valid with h | ⟨hlt, hle⟩
  · exact .inl h
  · refine .inr ⟨?_, hle⟩
    have h : 0xdfff < c.toNat := hlt
    omega

theorem scan_unicode_bmp {c : Char} (h : c.toNat < 65536) :
    scan_unicode ((hex_escape c.toNat).drop 2 ++ rest) = some (c, rest) := by
  have hbounds := toNat_bounds c
  have hhex := @scan_hex_digits rest _ h
  unfold scan_unicode hex_escape
  rw [List.drop_succ_cons, List.drop_succ_cons, List.drop_zero]
  simp only [List.cons_append, List.nil_append, hhex, Option.bind_eq_bind, Option.bind_some]
  rw [if_neg (by omega), if_neg (by omega), Char.ofNat_toNat]

theorem scan_unicode_pair {high low : ℕ} (hhigh : 0xd800 ≤ high ∧ high < 0xdc00)
    (hlow : 0xdc00 ≤ low ∧ low < 0xe000) :
    scan_unicode ((hex_escape high).drop 2 ++ (hex_escape low ++ rest)) =
      some (Char.ofNat (65536 + (high - 0xd800) * 1024 + (low - 0xdc00)), rest) := by
  have hfirst := @scan_hex_digits (hex_escape low ++ rest) high (by omega)
  have hsecond := @scan_hex_digits rest low (by omega)
  have hlow' : scan_low_surrogate high (hex_escape low ++ rest) =
      some (Char.ofNat (65536 + (high - 0xd800) * 1024 + (low - 0xdc00)), rest) := by
    unfold hex_escape
    simp only [List.cons_append, List.nil_append, scan_low_surrogate, hsecond, Option.bind_eq_bind,
      Option.bind_some, if_pos hlow]
  have hdrop (text : Text) : (hex_escape high).drop 2 ++ text =
      hex_digit (high / 4096 % 16) :: hex_digit (high / 256 % 16) :: hex_digit (high / 16 % 16) ::
        hex_digit (high % 16) :: text := rfl
  rw [hdrop, scan_unicode, hfirst, Option.bind_eq_bind, Option.bind_some]
  dsimp only
  rw [if_pos hhigh, hlow']

/-- A character is escaped with one letter, not at all, or in hexadecimal. -/
theorem escape_char_cases (c : Char) :
    (∃ e, escape_char c = ['\\', e] ∧ e.toNat < 128 ∧
      ∀ rest, scan_char ('\\' :: e :: rest) = some (c, rest)) ∨
    (escape_char c = [c] ∧ c ≠ '"' ∧ c ≠ '\\' ∧ 32 ≤ c.toNat ∧ c.toNat < 127) ∨
    (escape_char c = hex_escape c.toNat ∧ c.toNat < 65536) ∨
    (escape_char c = hex_escape (0xd800 + (c.toNat - 65536) / 1024) ++
      hex_escape (0xdc00 + (c.toNat - 65536) % 1024) ∧ 65536 ≤ c.toNat) := by
  have hofNat {n : ℕ} (h : c.toNat = n) : Char.ofNat n = c := by rw [← h, Char.ofNat_toNat]
  unfold escape_char
  by_cases hquote : c = '"'
  · subst hquote
    exact .inl ⟨'"', if_pos rfl, by decide, fun _ => rfl⟩
  rw [if_neg hquote]
  by_cases hslash : c = '\\'
  · subst hslash
    exact .inl ⟨'\\', if_pos rfl, by decide, fun _ => rfl⟩
  rw [if_neg hslash]
  by_cases hnewline : c = '\n'
  · subst hnewline
    exact .inl ⟨'n', if_pos rfl, by decide, fun _ => rfl⟩
  rw [if_neg hnewline]
  by_cases hreturn : c = '\r'
  · subst hreturn
    exact .inl ⟨'r', if_pos rfl, by decide, fun _ => rfl⟩
  rw [if_neg hreturn]
  by_cases htab : c = '\t'
  · subst htab
    exact .inl ⟨'t', if_pos rfl, by decide, fun _ => rfl⟩
  rw [if_neg htab]
  by_cases hback : c.toNat = 8
  · obtain rfl := hofNat hback
    exact .inl ⟨'b', if_pos rfl, by decide, fun _ => rfl⟩
  rw [if_neg hback]
  by_cases hform : c.toNat = 12
  · obtain rfl := hofNat hform
    exact .inl ⟨'f', if_pos rfl, by decide, fun _ => rfl⟩
  rw [if_neg hform]
  by_cases hplain : 32 ≤ c.toNat ∧ c.toNat < 127
  · exact .inr (.inl ⟨if_pos hplain, hquote, hslash, hplain⟩)
  rw [if_neg hplain]
  by_cases hbmp : c.toNat < 65536
  · exact .inr (.inr (.inl ⟨if_pos hbmp, hbmp⟩))
  · exact .inr (.inr (.inr ⟨if_neg hbmp, not_lt.mp hbmp⟩))

theorem scan_char_escape_char (c : Char) : scan_char (escape_char c ++ rest) = some (c, rest) := by
  have hunicode (n : ℕ) (text : Text) :
      scan_char (hex_escape n ++ text) = scan_unicode ((hex_escape n).drop 2 ++ text) := rfl
  rcases escape_char_cases c with ⟨e, hletter, -, hscan⟩ | ⟨hplain, -, hslash, hlow, -⟩ |
    ⟨hhex, hbmp⟩ | ⟨hpair, hlarge⟩
  · rw [hletter]
    exact hscan rest
  · rw [hplain, List.singleton_append, scan_char, if_neg hslash, if_neg (not_lt.mpr hlow)]
  · rw [hhex, hunicode, scan_unicode_bmp hbmp]
  · have hbounds := toNat_bounds c
    have hvalue : 65536 + (0xd800 + (c.toNat - 65536) / 1024 - 0xd800) * 1024 +
        (0xdc00 + (c.toNat - 65536) % 1024 - 0xdc00) = c.toNat := by omega
    rw [hpair, List.append_assoc, hunicode, scan_unicode_pair (by omega) (by omega), hvalue,
      Char.ofNat_toNat]

theorem head_escape_char (c : Char) : ∃ d text, escape_char c = d :: text ∧ d ≠ '"' := by
  rcases escape_char_cases c with ⟨e, hletter, -⟩ | ⟨hplain, hquote, -⟩ | ⟨hhex, -⟩ | ⟨hpair, -⟩
  · exact ⟨'\\', [e], hletter, by decide⟩
  · exact ⟨c, [], hplain, hquote⟩
  · exact ⟨'\\', _, hhex, by decide⟩
  · exact ⟨'\\', _, hpair, by decide⟩

theorem scan_string_escaped {s : Text} {fuel : ℕ} (h : s.length < fuel) :
    scan_string fuel (s.flatMap escape_char ++ '"' :: rest) = some (s, rest) := by
  induction s generalizing fuel with
  | nil =>
    obtain ⟨fuel, rfl⟩ := Nat.exists_eq_succ_of_ne_zero (Nat.ne_of_gt h)
    rfl
  | cons c s ih =>
    obtain ⟨fuel, rfl⟩ := Nat.exists_eq_succ_of_ne_zero (Nat.ne_of_gt (Nat.zero_lt_of_lt h))
    obtain ⟨d, text, heq, hne⟩ := head_escape_char c
    have hhead : ((c :: s).flatMap escape_char ++ '"' :: rest).head? ≠ some '"' := by
      rw [List.flatMap_cons, heq]
      exact fun hd => hne (Option.some.inj hd)
    rw [scan_string, if_neg hhead, List.flatMap_cons, List.append_assoc, scan_char_escape_char,
      Option.bind_eq_bind, Option.bind_some]
    dsimp only
    rw [ih (Nat.lt_of_succ_lt_succ h)]
    rfl

theorem length_le_flatMap_escape_char (s : Text) : s.length ≤ (s.flatMap escape_char).length := by
  induction s with
  | nil => exact Nat.zero_le _
  | cons c s ih =>
    obtain ⟨d, text, heq, -⟩ := head_escape_char c
    rw [List.flatMap_cons, List.length_append, heq]
    simp only [List.length_cons]
    omega

/-- A quoted string, after its first quote. -/
theorem string_of_quoted (s : String) :
    string_of (s.toList.flatMap escape_char ++ '"' :: rest) = .ok (s, rest) := by
  have hle := length_le_flatMap_escape_char s.toList
  have hfuel : s.toList.length < (s.toList.flatMap escape_char ++ '"' :: rest).length := by
    rw [List.length_append, List.length_cons]
    omega
  unfold string_of
  rw [scan_string_escaped hfuel]
  dsimp only
  rw [String.ofList_toList]

end Strings

/-! ## Numbers are read back -/

/-- A text that does not continue a number. -/
def Ends (rest : Text) : Prop :=
  ∀ c ∈ rest.head?, c.isDigit = false ∧ c ∉ ['-', '+', '.', 'e', 'E']

section Numbers

variable {text rest : Text} {n : ℕ}

theorem ends_nil : Ends [] := by
  intro c hc
  cases hc

theorem ends_cons {c : Char} (h : c ∈ [',', ']', '\x7d', '\n']) : Ends (c :: rest) := by
  intro d hd
  obtain rfl := Option.some.inj hd
  clear hd
  revert h
  simp only [List.mem_cons, List.not_mem_nil, or_false]
  rintro (rfl | rfl | rfl | rfl) <;> decide

theorem scan_digits_append (h : Ends rest) (text : Text) :
    scan_digits (text ++ rest) = ((scan_digits text).1, (scan_digits text).2 ++ rest) := by
  unfold scan_digits
  induction text with
  | nil =>
    cases rest with
    | nil => rfl
    | cons c rest =>
      have hc := (h c rfl).1
      simp [hc]
  | cons c text ih =>
    obtain ⟨htake, hdrop⟩ := Prod.mk.inj ih
    by_cases hc : c.isDigit
    · simp [hc, htake, hdrop]
    · simp [hc]

theorem with_digits_append (h : Ends rest) (front text : Text) :
    with_digits front (text ++ rest) =
      ((with_digits front text).1, (with_digits front text).2 ++ rest) := by
  unfold with_digits
  rw [scan_digits_append h]
  split_ifs
  · rw [List.append_assoc]
  · rfl

theorem scan_sign_append (h : Ends rest) (text : Text) :
    scan_sign (text ++ rest) = ((scan_sign text).1, (scan_sign text).2 ++ rest) := by
  cases text with
  | nil =>
    cases rest with
    | nil => rfl
    | cons c rest =>
      have hc : c ≠ '-' := by
        rintro rfl
        exact (h '-' rfl).2 (by decide)
      simp [scan_sign, hc]
  | cons c text =>
    rw [List.cons_append, scan_sign, scan_sign]
    split_ifs <;> rfl

theorem scan_whole_append (h : Ends rest) (text : Text) :
    scan_whole (text ++ rest) = ((scan_whole text).1, (scan_whole text).2 ++ rest) := by
  cases text with
  | nil =>
    cases rest with
    | nil => rfl
    | cons c rest =>
      have hdigit := (h c rfl).1
      have hc : c ≠ '0' := by
        rintro rfl
        exact absurd hdigit (by decide)
      simp [scan_whole, scan_digits, hc, hdigit]
  | cons c text =>
    rw [List.cons_append, scan_whole, scan_whole]
    split_ifs
    · rfl
    · exact scan_digits_append h (c :: text)

theorem scan_fraction_append (h : Ends rest) (text : Text) :
    scan_fraction (text ++ rest) = ((scan_fraction text).1, (scan_fraction text).2 ++ rest) := by
  cases text with
  | nil =>
    cases rest with
    | nil => rfl
    | cons c rest =>
      have hc : c ≠ '.' := by
        rintro rfl
        exact (h '.' rfl).2 (by decide)
      simp [scan_fraction, hc]
  | cons c text =>
    rw [List.cons_append, scan_fraction, scan_fraction]
    split_ifs
    · exact with_digits_append h ['.'] text
    · rfl

theorem scan_signed_append (h : Ends rest) (e : Char) (text : Text) :
    scan_signed e (text ++ rest) = ((scan_signed e text).1, (scan_signed e text).2 ++ rest) := by
  cases text with
  | nil =>
    cases rest with
    | nil => rfl
    | cons c rest =>
      have hc : ¬ (c = '+' ∨ c = '-') := by
        rintro (rfl | rfl)
        · exact (h '+' rfl).2 (by decide)
        · exact (h '-' rfl).2 (by decide)
      have hdigits := with_digits_append h [e] []
      rw [List.nil_append] at hdigits ⊢
      simp only [scan_signed, if_neg hc, hdigits]
      rfl
  | cons c text =>
    rw [List.cons_append, scan_signed, scan_signed]
    split_ifs
    · exact with_digits_append h [e, c] text
    · exact with_digits_append h [e] (c :: text)

theorem scan_exponent_append (h : Ends rest) (text : Text) :
    scan_exponent (text ++ rest) = ((scan_exponent text).1, (scan_exponent text).2 ++ rest) := by
  cases text with
  | nil =>
    cases rest with
    | nil => rfl
    | cons c rest =>
      have hc : ¬ (c = 'e' ∨ c = 'E') := by
        rintro (rfl | rfl)
        · exact (h 'e' rfl).2 (by decide)
        · exact (h 'E' rfl).2 (by decide)
      simp [scan_exponent, hc]
  | cons c text =>
    rw [List.cons_append, scan_exponent, scan_exponent]
    split_ifs
    · exact scan_signed_append h c text
    · rfl

variable {float_repr : Text → String} {v : Json} {k : ℤ}

/-- A number that is read whole is read in front of what does not continue it. -/
theorem scan_number_append (h : Ends rest) (hread : scan_number float_repr text = .ok (v, [])) :
    scan_number float_repr (text ++ rest) = .ok (v, rest) := by
  unfold scan_number at hread ⊢
  rw [scan_sign_append h]
  dsimp only at hread ⊢
  rw [scan_whole_append h]
  dsimp only
  rw [scan_fraction_append h]
  dsimp only
  rw [scan_exponent_append h]
  dsimp only
  split_ifs at hread ⊢ with hwhole hint
  · obtain ⟨n, hn, heq⟩ := bind_eq_ok.mp hread
    obtain ⟨rfl, hrest⟩ := Prod.mk.inj (Except.ok.inj heq)
    rw [hn, hrest]
    rfl
  · obtain ⟨rfl, hrest⟩ := Prod.mk.inj (Except.ok.inj hread)
    rw [hrest]
    rfl

theorem head_digits (h : n ≠ 0) : (digits n).head? ≠ some '0' := by
  unfold digits
  induction n using Nat.strongRecOn with
  | ind n ih =>
    by_cases hlt : n < 10
    · rw [Nat.toDigits_of_lt_base hlt]
      interval_cases n
      all_goals first
        | exact absurd rfl h
        | decide
    · rw [Nat.toDigits_of_base_le (by decide) (Nat.not_lt.mp hlt), List.head?_append_of_ne_nil _
        Nat.toDigits_ne_nil]
      exact ih (n / 10) (by omega) (by omega)

theorem scan_whole_digits : scan_whole (digits n) = (digits n, []) := by
  have hdigits : scan_digits (digits n) = (digits n, []) := by
    unfold scan_digits
    rw [List.takeWhile_eq_self_iff.mpr fun c hc => isDigit_of_mem_digits hc,
      List.dropWhile_eq_nil_iff.mpr fun c hc => isDigit_of_mem_digits hc]
  by_cases hn : n = 0
  · subst hn
    rfl
  · have hhead := head_digits hn
    cases hl : digits n with
    | nil => rfl
    | cons c l =>
      have hc : c ≠ '0' := by
        rintro rfl
        rw [hl] at hhead
        exact hhead rfl
      rw [scan_whole, if_neg hc, ← hl, hdigits]

theorem scan_sign_digits : scan_sign (digits n) = ([], digits n) := by
  cases hl : digits n with
  | nil => rfl
  | cons c l =>
    have hc : c ≠ '-' := by
      rintro rfl
      exact absurd (isDigit_of_mem_digits (hl ▸ List.mem_cons_self)) (by decide)
    rw [scan_sign, if_neg hc]

theorem int_neg_digits (h : (digits n).length ≤ 4300) : int ('-' :: digits n) = .ok (-n) := by
  have hdigit : ∀ c ∈ digits n, c.isDigit := fun _ => isDigit_of_mem_digits
  have hvalue : Nat.ofDigitChars 10 (digits n) 0 = n := Nat.ofDigitChars_ten_toDigits
  have hword : Tokens.IsWord is_space ('-' :: digits n) :=
    ⟨List.cons_ne_nil _ _, List.forall_mem_cons.mpr ⟨by decide, isWord_digits.2⟩⟩
  unfold int strip
  rw [Tokens.strip_of_isWord hword, int_sign]
  dsimp only
  rw [int_digits_of_isDigit digits_ne_nil hdigit]
  dsimp only
  rw [List.length_map, if_neg (not_lt.mpr h), ofDigits_of_isDigit hdigit, hvalue, neg_one_mul]

theorem toList_toString_ofNat (n : ℕ) : (toString (n : ℤ)).toList = digits n :=
  Nat.toList_repr

theorem toList_toString_neg (n : ℕ) (h : n ≠ 0) : (toString (-n : ℤ)).toList = '-' :: digits n := by
  obtain ⟨k, rfl⟩ := Nat.exists_eq_succ_of_ne_zero h
  have hrepr : toString (-(k.succ : ℕ) : ℤ) = "-" ++ Nat.repr k.succ := rfl
  rw [hrepr, String.toList_append, Nat.toList_repr]
  rfl

theorem scan_number_whole {sign whole : Text} (hsign : scan_sign text = (sign, rest))
    (hwhole : scan_whole rest = (whole, [])) (hne : whole ≠ []) (hint : int (sign ++ whole) = .ok k) :
    scan_number float_repr text = .ok (.int k, []) := by
  unfold scan_number
  rw [hsign]
  dsimp only
  rw [hwhole]
  simp [scan_fraction, scan_exponent, hne, hint]

theorem scan_number_int (k : ℤ) (h : (toString k).toList.length ≤ 4300) :
    scan_number float_repr (toString k).toList = .ok (.int k, []) := by
  have hnat (n : ℕ) (h : (toString (n : ℤ)).toList.length ≤ 4300) :
      scan_number float_repr (toString (n : ℤ)).toList = .ok (.int n, []) := by
    rw [toList_toString_ofNat] at h ⊢
    exact scan_number_whole scan_sign_digits scan_whole_digits digits_ne_nil (int_of_digits h)
  rcases Int.eq_nat_or_neg k with ⟨n, rfl | rfl⟩
  · exact hnat n h
  · by_cases hn : n = 0
    · subst hn
      exact hnat 0 h
    · rw [toList_toString_neg n hn] at h ⊢
      rw [List.length_cons] at h
      exact scan_number_whole rfl scan_whole_digits digits_ne_nil (int_neg_digits (by omega))

end Numbers

/-! ## Values are read back -/

section Values

variable {float_repr : Text → String} {v : Json} {text rest : Text}

/-- A value that `json.dumps` writes and `json.loads` reads: fields in order, integers of at most 4300
characters, and floats with the text that is written for them. -/
inductive Readable (float_repr : Text → String) : Json → Prop
  | null : Readable float_repr .null
  | bool (b : Bool) : Readable float_repr (.bool b)
  | int (n : ℤ) (h : (toString n).toList.length ≤ 4300) : Readable float_repr (.int n)
  | float (r : String) (h : scan_number float_repr r.toList = .ok (.float r, [])) :
    Readable float_repr (.float r)
  | str (s : String) : Readable float_repr (.str s)
  | arr (items : List Json) (h : ∀ v ∈ items, Readable float_repr v) : Readable float_repr (.arr items)
  | obj (fields : Dict) (sorted : Dict.Sorted fields) (h : ∀ field ∈ fields, Readable float_repr field.2) :
    Readable float_repr (.obj fields)

/-- The text of a value is read back. -/
def Reads (float_repr : Text → String) (v : Json) : Prop :=
  ∀ fuel rest, Ends rest → v.dumps.length ≤ fuel →
    scan_value float_repr fuel (v.dumps ++ rest) = .ok (v, rest)

/-- The first character of a number. -/
theorem head_of_number (hread : scan_number float_repr text = .ok (v, [])) :
    ∃ c l, text = c :: l ∧ (c.isDigit ∨ c = '-' ∧ ∃ d l', l = d :: l' ∧ d.isDigit) := by
  have hdigits {l : Text} (h : (scan_whole l).1 ≠ []) : ∃ d l', l = d :: l' ∧ d.isDigit := by
    cases l with
    | nil => exact absurd rfl h
    | cons d l' =>
      refine ⟨d, l', rfl, ?_⟩
      rw [scan_whole] at h
      split_ifs at h with hzero
      · subst hzero
        rfl
      · by_contra hd
        exact h (by simp [scan_digits, hd])
  have hwhole : (scan_whole (scan_sign text).2).1 ≠ [] := by
    intro h
    unfold scan_number at hread
    dsimp only at hread
    rw [if_pos h] at hread
    cases hread
  obtain ⟨d, l, heq, hd⟩ := hdigits hwhole
  cases text with
  | nil => cases heq
  | cons c text =>
    rw [scan_sign] at heq
    split_ifs at heq with hsign
    · exact ⟨c, text, rfl, .inr ⟨hsign, d, l, heq, hd⟩⟩
    · obtain ⟨rfl, rfl⟩ := List.cons.inj heq
      exact ⟨c, text, rfl, .inl hd⟩

theorem scan_constant_of_number {c : Char} {l : Text}
    (h : c.isDigit ∨ c = '-' ∧ ∃ d l', l = d :: l' ∧ d.isDigit) : scan_constant (c :: l) = none := by
  have hheads : ∀ constant ∈ constants, ∃ e f l', constant.1 = e :: f :: l' ∧ e.isDigit = false ∧
      f.isDigit = false := by
    intro constant hconstant
    simp only [constants, List.mem_cons, List.not_mem_nil, or_false] at hconstant
    rcases hconstant with rfl | rfl | rfl | rfl | rfl | rfl <;>
      exact ⟨_, _, _, rfl, by decide, by decide⟩
  unfold scan_constant
  rw [Option.map_eq_none_iff, List.find?_eq_none]
  intro constant hconstant hinitial
  obtain ⟨e, f, l', heq, he, hf⟩ := hheads constant hconstant
  rw [heq, List.isPrefixOf_iff_prefix] at hinitial
  obtain ⟨rfl, htail⟩ := List.cons_prefix_cons.mp hinitial
  rcases h with he' | ⟨-, d, l'', rfl, hd⟩
  · exact Bool.false_ne_true (he.symm.trans he')
  · obtain ⟨rfl, -⟩ := List.cons_prefix_cons.mp htail
    exact Bool.false_ne_true (hf.symm.trans hd)

theorem reads_atom {c : Char} {l : Text} (hdumps : v.dumps = c :: l) (hquote : c ≠ '"') (harr : c ≠ '[')
    (hobj : c ≠ '\x7b') (h : ∀ rest, Ends rest → scan_atom float_repr (v.dumps ++ rest) = .ok (v, rest)) :
    Reads float_repr v := by
  intro fuel rest hrest hfuel
  obtain ⟨fuel, rfl⟩ : ∃ n, fuel = n + 1 :=
    Nat.exists_eq_succ_of_ne_zero (by rw [hdumps, List.length_cons] at hfuel; omega)
  have hread := h rest hrest
  rw [hdumps, List.cons_append] at hread ⊢
  rw [scan_value, if_neg hquote, if_neg harr, if_neg hobj, hread]

theorem reads_number (hread : scan_number float_repr v.dumps = .ok (v, [])) : Reads float_repr v := by
  obtain ⟨c, l, heq, hhead⟩ := head_of_number hread
  have hne {d : Char} (hd : d.isDigit = false) (hminus : d ≠ '-') : c ≠ d := by
    rintro rfl
    rcases hhead with hc | ⟨hc, -⟩
    · exact Bool.false_ne_true (hd.symm.trans hc)
    · exact hminus hc
  refine reads_atom heq (hne rfl (by decide)) (hne rfl (by decide)) (hne rfl (by decide)) fun rest hrest => ?_
  have hconstant : scan_constant (v.dumps ++ rest) = none := by
    rw [heq, List.cons_append]
    refine scan_constant_of_number (hhead.imp_right ?_)
    rintro ⟨hc, d, l', rfl, hd⟩
    exact ⟨hc, d, l' ++ rest, rfl, hd⟩
  rw [scan_atom, hconstant]
  exact scan_number_append hrest hread

/-- A readable value starts with no white space and no closing bracket. -/
theorem head_dumps (h : Readable float_repr v) :
    ∃ c l, v.dumps = c :: l ∧ is_whitespace c = false ∧ c ≠ ']' ∧ c ≠ '\x7d' := by
  have hnumber {text : Text} {v : Json} (hread : scan_number float_repr text = .ok (v, [])) :
      ∃ c l, text = c :: l ∧ is_whitespace c = false ∧ c ≠ ']' ∧ c ≠ '\x7d' := by
    obtain ⟨c, l, heq, hhead⟩ := head_of_number hread
    refine ⟨c, l, heq, ?_⟩
    rcases hhead with hc | ⟨rfl, -⟩
    · have hne {d : Char} (hd : d.isDigit = false) : c ≠ d := by
        rintro rfl
        exact Bool.false_ne_true (hd.symm.trans hc)
      refine ⟨?_, hne rfl, hne rfl⟩
      simp [is_whitespace, hne (d := ' ') rfl, hne (d := '\t') rfl, hne (d := '\n') rfl, hne (d := '\r') rfl]
    · decide
  cases h with
  | null => exact ⟨'n', _, rfl, by decide⟩
  | bool b =>
    cases b
    · exact ⟨'f', _, rfl, by decide⟩
    · exact ⟨'t', _, rfl, by decide⟩
  | int n h => exact hnumber (scan_number_int n h)
  | float r h => exact hnumber h
  | str s => exact ⟨'"', _, rfl, by decide⟩
  | arr items h => exact ⟨'[', _, rfl, by decide⟩
  | obj fields sorted h => exact ⟨'\x7b', _, rfl, by decide⟩

theorem skip_dumps (h : Readable float_repr v) (rest : Text) : skip (v.dumps ++ rest) = v.dumps ++ rest := by
  obtain ⟨c, l, heq, hspace, -⟩ := head_dumps h
  rw [skip, heq, List.cons_append, List.dropWhile_cons, hspace]
  rfl

theorem skip_cons {c : Char} (h : is_whitespace c = false) : skip (c :: rest) = c :: rest := by
  rw [skip, List.dropWhile_cons, h]
  rfl

theorem dumps_items_cons (v : Json) (items : List Json) :
    Json.dumps_items (v :: items) =
      v.dumps ++ if items = [] then [] else ',' :: Json.dumps_items items := by
  rw [Json.dumps_items]

theorem scan_items_dumps {items : List Json} (hne : items ≠ []) (hreadable : ∀ v ∈ items, Readable float_repr v)
    (hreads : ∀ v ∈ items, Reads float_repr v) {fuel : ℕ} (hfuel : (Json.dumps_items items).length < fuel) :
    scan_items float_repr fuel (Json.dumps_items items ++ ']' :: rest) = .ok (items, rest) := by
  induction items generalizing fuel with
  | nil => exact absurd rfl hne
  | cons v items ih =>
    obtain ⟨fuel, rfl⟩ : ∃ n, fuel = n + 1 := Nat.exists_eq_succ_of_ne_zero (Nat.ne_zero_of_lt hfuel)
    have hv := hreads v List.mem_cons_self
    rw [dumps_items_cons] at hfuel ⊢
    rw [scan_items]
    by_cases hitems : items = []
    · subst hitems
      rw [if_pos rfl, List.append_nil] at hfuel ⊢
      rw [hv fuel (']' :: rest) (ends_cons (by decide)) (Nat.le_of_lt_succ hfuel)]
      rw [ok_bind]
      dsimp only
      rw [skip_cons (by decide)]
      dsimp only
      rw [if_pos rfl]
    · rw [if_neg hitems] at hfuel ⊢
      rw [List.length_append, List.length_cons] at hfuel
      obtain ⟨c, l, heq, -⟩ := head_dumps (hreadable v List.mem_cons_self)
      have hpos : 0 < v.dumps.length := by
        rw [heq]
        exact Nat.succ_pos _
      obtain ⟨w, items', rfl⟩ := List.exists_cons_of_ne_nil hitems
      have hw : Readable float_repr w := hreadable w (by simp)
      have hskip : skip (Json.dumps_items (w :: items') ++ ']' :: rest) =
          Json.dumps_items (w :: items') ++ ']' :: rest := by
        rw [dumps_items_cons, List.append_assoc]
        exact skip_dumps hw _
      rw [List.append_assoc, List.cons_append, hv fuel _ (ends_cons (by decide)) (by omega)]
      rw [ok_bind]
      dsimp only
      rw [skip_cons (by decide)]
      dsimp only
      rw [if_neg (by decide), if_pos rfl, hskip,
        ih hitems (fun u hu => hreadable u (List.mem_cons_of_mem v hu))
          (fun u hu => hreads u (List.mem_cons_of_mem v hu)) (by omega)]
      rfl

theorem dumps_fields_cons (k : String) (v : Json) (fields : Dict) :
    Json.dumps_fields ((k, v) :: fields) =
      '"' :: (k.toList.flatMap escape_char ++ '"' :: ':' :: (v.dumps ++
        if fields = [] then [] else ',' :: Json.dumps_fields fields)) := by
  rw [Json.dumps_fields, quoted]
  simp only [List.append_assoc, List.cons_append, List.nil_append]

theorem scan_fields_dumps {fields : Dict} (hne : fields ≠ [])
    (hreadable : ∀ field ∈ fields, Readable float_repr field.2)
    (hreads : ∀ field ∈ fields, Reads float_repr field.2) {fuel : ℕ}
    (hfuel : (Json.dumps_fields fields).length < fuel) :
    scan_fields float_repr fuel (Json.dumps_fields fields ++ '\x7d' :: rest) = .ok (fields, rest) := by
  induction fields generalizing fuel with
  | nil => exact absurd rfl hne
  | cons field fields ih =>
    obtain ⟨k, v⟩ := field
    obtain ⟨fuel, rfl⟩ : ∃ n, fuel = n + 1 := Nat.exists_eq_succ_of_ne_zero (Nat.ne_zero_of_lt hfuel)
    have hv : Reads float_repr v := hreads (k, v) List.mem_cons_self
    have hskip (rest : Text) : skip (v.dumps ++ rest) = v.dumps ++ rest :=
      skip_dumps (hreadable (k, v) List.mem_cons_self) rest
    rw [dumps_fields_cons] at hfuel ⊢
    simp only [List.length_cons, List.length_append] at hfuel
    rw [List.cons_append, scan_fields, if_neg (not_not_intro rfl), List.append_assoc, List.cons_append,
      List.cons_append, string_of_quoted]
    rw [ok_bind]
    dsimp only
    rw [skip_cons (by decide)]
    dsimp only
    rw [if_neg (not_not_intro rfl), List.append_assoc, hskip]
    by_cases hfields : fields = []
    · subst hfields
      rw [if_pos rfl] at hfuel ⊢
      rw [List.nil_append, hv fuel _ (ends_cons (by decide)) (by omega)]
      rw [ok_bind]
      dsimp only
      rw [skip_cons (by decide)]
      dsimp only
      rw [if_pos rfl]
    · rw [if_neg hfields] at hfuel ⊢
      rw [List.length_cons] at hfuel
      have hskip' : skip (Json.dumps_fields fields ++ '\x7d' :: rest) =
          Json.dumps_fields fields ++ '\x7d' :: rest := by
        obtain ⟨⟨k', w⟩, fields', rfl⟩ := List.exists_cons_of_ne_nil hfields
        rw [dumps_fields_cons, List.cons_append, skip_cons (by decide)]
      rw [List.cons_append, hv fuel _ (ends_cons (by decide)) (by omega)]
      rw [ok_bind]
      dsimp only
      rw [skip_cons (by decide)]
      dsimp only
      rw [if_neg (by decide), if_pos rfl, hskip',
        ih hfields (fun f hf => hreadable f (List.mem_cons_of_mem _ hf))
          (fun f hf => hreads f (List.mem_cons_of_mem _ hf)) (by omega)]
      rfl


theorem reads_of_readable (h : Readable float_repr v) : Reads float_repr v := by
  induction h with
  | null => exact reads_atom (c := 'n') rfl (by decide) (by decide) (by decide) fun _ _ => rfl
  | bool b =>
    cases b with
    | false => exact reads_atom (c := 'f') rfl (by decide) (by decide) (by decide) fun _ _ => rfl
    | true => exact reads_atom (c := 't') rfl (by decide) (by decide) (by decide) fun _ _ => rfl
  | int n h => exact reads_number (scan_number_int n h)
  | float r h => exact reads_number h
  | str s =>
    intro fuel rest hrest hfuel
    have hdumps (text : Text) : (Json.str s).dumps ++ text =
        '"' :: (s.toList.flatMap escape_char ++ '"' :: text) := by
      rw [Json.dumps, quoted]
      simp only [List.append_assoc, List.cons_append, List.nil_append]
    rw [Json.dumps, quoted, List.length_append] at hfuel
    obtain ⟨fuel, rfl⟩ : ∃ n, fuel = n + 1 :=
      Nat.exists_eq_succ_of_ne_zero (by simp at hfuel; omega)
    rw [hdumps, scan_value, if_pos rfl, string_of_quoted, ok_bind]
  | arr items h ih =>
    intro fuel rest hrest hfuel
    rw [Json.dumps, List.length_append, List.length_append] at hfuel
    simp only [List.length_cons, List.length_nil] at hfuel
    obtain ⟨fuel, rfl⟩ : ∃ n, fuel = n + 1 := Nat.exists_eq_succ_of_ne_zero (by omega)
    rw [Json.dumps, List.append_assoc, List.append_assoc, List.singleton_append, List.singleton_append,
      scan_value, if_neg (by decide), if_pos rfl]
    by_cases hitems : items = []
    · subst hitems
      rfl
    · obtain ⟨v, items', rfl⟩ := List.exists_cons_of_ne_nil hitems
      have hv := h v List.mem_cons_self
      obtain ⟨c, l, heq, hspace, hbracket, -⟩ := head_dumps hv
      have hskip : skip (Json.dumps_items (v :: items') ++ ']' :: rest) =
          Json.dumps_items (v :: items') ++ ']' :: rest := by
        rw [dumps_items_cons, List.append_assoc]
        exact skip_dumps hv _
      have hhead : (Json.dumps_items (v :: items') ++ ']' :: rest).head? ≠ some ']' := by
        rw [dumps_items_cons, heq]
        exact fun hc => hbracket (Option.some.inj hc)
      rw [hskip, if_neg hhead, scan_items_dumps hitems h ih (by omega), ok_bind]
  | obj fields sorted h ih =>
    intro fuel rest hrest hfuel
    rw [Json.dumps, List.length_append, List.length_append] at hfuel
    simp only [List.length_cons, List.length_nil] at hfuel
    obtain ⟨fuel, rfl⟩ : ∃ n, fuel = n + 1 := Nat.exists_eq_succ_of_ne_zero (by omega)
    rw [Json.dumps, List.append_assoc, List.append_assoc, List.singleton_append, List.singleton_append,
      scan_value, if_neg (by decide), if_neg (by decide), if_pos rfl]
    by_cases hfields : fields = []
    · subst hfields
      rfl
    · obtain ⟨⟨k, v⟩, fields', rfl⟩ := List.exists_cons_of_ne_nil hfields
      have hhead : (Json.dumps_fields ((k, v) :: fields') ++ '\x7d' :: rest).head? ≠ some '\x7d' := by
        rw [dumps_fields_cons]
        exact fun hc => absurd (Option.some.inj hc) (by decide)
      have hskip : skip (Json.dumps_fields ((k, v) :: fields') ++ '\x7d' :: rest) =
          Json.dumps_fields ((k, v) :: fields') ++ '\x7d' :: rest := by
        rw [dumps_fields_cons, List.cons_append, skip_cons (by decide)]
      have hof : Dict.of ((k, v) :: fields') = (k, v) :: fields' := Dict.of_eq_self sorted
      rw [hskip, if_neg hhead, scan_fields_dumps hfields h ih (by omega), ok_bind]
      dsimp only
      rw [hof]

/-- What `json.dumps` writes, `json.loads` reads back. -/
theorem loads_dumps (h : Readable float_repr v) : loads float_repr v.dumps = .ok v := by
  have hread := reads_of_readable h (v.dumps.length + 1) [] ends_nil (Nat.le_succ _)
  have hskip := skip_dumps h []
  rw [List.append_nil] at hread hskip
  rw [loads, hskip, hread, ok_bind]
  rfl

end Values

/-! ## The bytes of a text -/

section Ascii

variable {text : Text} {float_repr : Text → String} {v : Json}

/-- A scan has split a text after ASCII characters. -/
def Splits (p : Text × Text) (text : Text) : Prop := p.1 ++ p.2 = text ∧ ∀ c ∈ p.1, c.toNat < 128

theorem splits_nil (text : Text) : Splits ([], text) text := ⟨rfl, fun _ hc => absurd hc List.not_mem_nil⟩

theorem scan_digits_splits (text : Text) : Splits (scan_digits text) text := by
  refine ⟨List.takeWhile_append_dropWhile, fun c hc => ?_⟩
  have hdigit := ZeroPadding.digit_lt (List.mem_takeWhile_imp hc)
  omega

theorem with_digits_splits {front : Text} (hfront : ∀ c ∈ front, c.toNat < 128) (text : Text) :
    Splits (with_digits front text) (front ++ text) := by
  obtain ⟨heq, hascii⟩ := scan_digits_splits text
  unfold with_digits
  split_ifs
  · exact splits_nil _
  · refine ⟨by rw [List.append_assoc, heq], fun c hc => ?_⟩
    exact (List.mem_append.mp hc).elim (hfront c) (hascii c)

theorem scan_sign_splits (text : Text) : Splits (scan_sign text) text := by
  cases text with
  | nil => exact splits_nil []
  | cons c text =>
    rw [scan_sign]
    split_ifs with hc
    · subst hc
      exact ⟨rfl, by simp⟩
    · exact splits_nil _

theorem scan_whole_splits (text : Text) : Splits (scan_whole text) text := by
  cases text with
  | nil => exact splits_nil []
  | cons c text =>
    rw [scan_whole]
    split_ifs with hc
    · subst hc
      exact ⟨rfl, by simp⟩
    · exact scan_digits_splits _

theorem scan_fraction_splits (text : Text) : Splits (scan_fraction text) text := by
  cases text with
  | nil => exact splits_nil []
  | cons c text =>
    rw [scan_fraction]
    split_ifs with hc
    · subst hc
      exact with_digits_splits (by simp) text
    · exact splits_nil _

theorem scan_exponent_splits (text : Text) : Splits (scan_exponent text) text := by
  cases text with
  | nil => exact splits_nil []
  | cons c text =>
    rw [scan_exponent]
    split_ifs with hc
    · have hlt : c.toNat < 128 := by rcases hc with rfl | rfl <;> decide
      cases text with
      | nil => exact ⟨rfl, fun d hd => absurd hd List.not_mem_nil⟩
      | cons d text =>
        rw [scan_signed]
        split_ifs with hd
        · have hlt' : d.toNat < 128 := by rcases hd with rfl | rfl <;> decide
          exact with_digits_splits (by simpa using ⟨hlt, hlt'⟩) text
        · exact with_digits_splits (by simpa using hlt) (d :: text)
    · exact splits_nil _

theorem ascii_number (hread : scan_number float_repr text = .ok (v, [])) : ∀ c ∈ text, c.toNat < 128 := by
  obtain ⟨hsign, hsign'⟩ := scan_sign_splits text
  obtain ⟨hwhole, hwhole'⟩ := scan_whole_splits (scan_sign text).2
  obtain ⟨hfraction, hfraction'⟩ := scan_fraction_splits (scan_whole (scan_sign text).2).2
  obtain ⟨hexponent, hexponent'⟩ :=
    scan_exponent_splits (scan_fraction (scan_whole (scan_sign text).2).2).2
  have hrest : (scan_exponent (scan_fraction (scan_whole (scan_sign text).2).2).2).2 = [] := by
    unfold scan_number at hread
    dsimp only at hread
    split_ifs at hread
    · obtain ⟨n, -, heq⟩ := bind_eq_ok.mp hread
      exact (Prod.mk.inj (Except.ok.inj heq)).2
    · exact (Prod.mk.inj (Except.ok.inj hread)).2
  rw [hrest, List.append_nil] at hexponent
  intro c hc
  rw [← hsign, ← hwhole, ← hfraction, ← hexponent] at hc
  rcases List.mem_append.mp hc with hc | hc
  · exact hsign' c hc
  rcases List.mem_append.mp hc with hc | hc
  · exact hwhole' c hc
  rcases List.mem_append.mp hc with hc | hc
  · exact hfraction' c hc
  · exact hexponent' c hc

theorem ascii_escape_char {c d : Char} (h : d ∈ escape_char c) : d.toNat < 128 := by
  have hhex (n : ℕ) : (hex_digit (n % 16)).toNat < 128 := by
    have hall : ∀ k < 16, (hex_digit k).toNat < 128 := by decide
    exact hall _ (Nat.mod_lt n (by decide))
  have hescape {n : ℕ} {e : Char} (h : e ∈ hex_escape n) : e.toNat < 128 := by
    simp only [hex_escape, List.mem_cons, List.not_mem_nil, or_false] at h
    rcases h with rfl | rfl | rfl | rfl | rfl | rfl
    · decide
    · decide
    · exact hhex _
    · exact hhex _
    · exact hhex _
    · exact hhex _
  rcases escape_char_cases c with ⟨e, hletter, he, -⟩ | ⟨hplain, -, -, -, hlt⟩ | ⟨hhex, -⟩ | ⟨hpair, -⟩
  · rw [hletter] at h
    rcases List.mem_pair.mp h with rfl | rfl
    · decide
    · exact he
  · rw [hplain] at h
    rw [List.mem_singleton.mp h]
    omega
  · rw [hhex] at h
    exact hescape h
  · rw [hpair] at h
    exact (List.mem_append.mp h).elim hescape hescape

theorem ascii_quoted {s : String} {c : Char} (h : c ∈ quoted s) : c.toNat < 128 := by
  rw [quoted] at h
  simp only [List.mem_append, List.mem_singleton, List.mem_flatMap] at h
  rcases h with (rfl | ⟨d, -, hd⟩) | rfl
  · decide
  · exact ascii_escape_char hd
  · decide

theorem ascii_dumps_items {items : List Json} (h : ∀ v ∈ items, ∀ c ∈ v.dumps, c.toNat < 128) :
    ∀ c ∈ Json.dumps_items items, c.toNat < 128 := by
  induction items with
  | nil => exact fun c hc => absurd hc List.not_mem_nil
  | cons v items ih =>
    obtain ⟨hv, hitems⟩ := List.forall_mem_cons.mp h
    intro c hc
    rw [dumps_items_cons] at hc
    rcases List.mem_append.mp hc with hc | hc
    · exact hv c hc
    · split_ifs at hc
      · exact absurd hc List.not_mem_nil
      · rcases List.mem_cons.mp hc with rfl | hc
        · decide
        · exact ih hitems c hc

theorem ascii_dumps_fields {fields : Dict} (h : ∀ field ∈ fields, ∀ c ∈ field.2.dumps, c.toNat < 128) :
    ∀ c ∈ Json.dumps_fields fields, c.toNat < 128 := by
  induction fields with
  | nil => exact fun c hc => absurd hc List.not_mem_nil
  | cons field fields ih =>
    obtain ⟨hv, hfields⟩ := List.forall_mem_cons.mp h
    intro c hc
    rw [Json.dumps_fields] at hc
    simp only [List.mem_append, List.mem_singleton] at hc
    rcases hc with ((hc | rfl) | hc) | hc
    · exact ascii_quoted hc
    · decide
    · exact hv c hc
    · split_ifs at hc
      · exact absurd hc List.not_mem_nil
      · rcases List.mem_cons.mp hc with rfl | hc
        · decide
        · exact ih hfields c hc

/-- `json.dumps` writes ASCII. -/
theorem ascii_dumps (h : Readable float_repr v) : ∀ c ∈ v.dumps, c.toNat < 128 := by
  induction h with
  | null => simp [Json.dumps]
  | bool b => cases b <;> simp [Json.dumps]
  | int n h => exact ascii_number (@scan_number_int float_repr n h)
  | float r h => exact ascii_number h
  | str s => exact fun c hc => ascii_quoted hc
  | arr items h ih =>
    intro c hc
    rw [Json.dumps] at hc
    simp only [List.mem_append, List.mem_singleton] at hc
    rcases hc with (rfl | hc) | rfl
    · decide
    · exact ascii_dumps_items ih c hc
    · decide
  | obj fields sorted h ih =>
    intro c hc
    rw [Json.dumps] at hc
    simp only [List.mem_append, List.mem_singleton] at hc
    rcases hc with (rfl | hc) | rfl
    · decide
    · exact ascii_dumps_fields ih c hc
    · decide

theorem decode_utf8_of_chars {s : String} {data : Bytes} (h : s.toList.flatMap String.utf8EncodeChar = data) :
    decode_utf8 data = .ok s.toList := by
  have hbytes : (⟨data.toArray⟩ : ByteArray) = s.toByteArray := by
    rw [← String.utf8Encode_toList, List.utf8Encode, h]
    ext1
    simp
  have hsome : String.fromUTF8? s.toByteArray = some s := by
    unfold String.fromUTF8?
    rw [dif_pos s.isValidUTF8]
    rfl
  rw [decode_utf8, hbytes, hsome]

theorem utf8EncodeChar_ascii {c : Char} (h : c.toNat < 128) :
    String.utf8EncodeChar c = [UInt8.ofNat c.toNat] := by
  have hsize : c.utf8Size = 1 := by
    unfold Char.utf8Size
    rw [if_pos]
    show c.val.toNat ≤ 127
    exact Nat.lt_succ_iff.mp h
  rw [String.utf8EncodeChar_eq_singleton hsize]
  rfl

theorem decode_utf8_ascii (h : ∀ c ∈ text, c.toNat < 128) :
    decode_utf8 (text.map fun c => UInt8.ofNat c.toNat) = .ok text := by
  have hchars : (String.ofList text).toList.flatMap String.utf8EncodeChar =
      text.map fun c => UInt8.ofNat c.toNat := by
    rw [String.toList_ofList, ← List.flatMap_singleton' (text.map _), List.flatMap_map]
    exact List.flatMap_congr fun c hc => utf8EncodeChar_ascii (h c hc)
  rw [decode_utf8_of_chars hchars, String.toList_ofList]

/-- The canonical bytes of a value are read back. -/
theorem loads_canonical_bytes (h : Readable float_repr v) :
    loads_bytes float_repr (canonical_bytes v) = .ok v := by
  rw [loads_bytes, canonical_bytes, decode_utf8_ascii (ascii_dumps h), ok_bind, loads_dumps h]

/-- Two values with one canonical form are equal. -/
theorem canonical_bytes_injective {w : Json} (hv : Readable float_repr v) (hw : Readable float_repr w)
    (h : canonical_bytes v = canonical_bytes w) : v = w := by
  have hread := loads_canonical_bytes hv
  rw [h, loads_canonical_bytes hw] at hread
  exact (Except.ok.inj hread).symm

end Ascii

end JsonReader

end Bogbin.Bogvm
