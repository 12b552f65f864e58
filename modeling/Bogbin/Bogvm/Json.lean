import Bogbin.Core.Sha256

/-!
# JSON values

The values that `json.loads` gives and `json.dumps` writes.  The fields of an object are listed by
key, each key once, as `json.dumps` with `sort_keys` writes them.
-/

namespace Bogbin.Bogvm

open Bogbin.Core

inductive Json
  | null
  | bool (b : Bool)
  | int (n : ℤ)
  | float (repr : String)
  | str (s : String)
  | arr (items : List Json)
  | obj (fields : List (String × Json))

/-- A Python `dict` with string keys. -/
abbrev Dict := List (String × Json)

/-- The exceptions of Python that the modelled code raises or lets through. -/
inductive PyError
  | AttributeError
  | KeyError
  | TypeError
  | ValueError
  | UnicodeDecodeError
  | RecursionError
  | OSError
  | FileNotFoundError
  | ContainerError
  | ArchiveError
  | StoreError
  | KernelError
  | SchemaError
  | GenesisError
  | HyperGenesisError
  | UnboundLocalError
  | VMError
  | AssemblerError
  | StructError
  | IndexError
  | PackerError
  | OptimizerError
  | BogCellError
  | OverflowError
  | BogBootError
  | JSONDecodeError
  | BogOSError
  deriving DecidableEq, Repr

/-! ## Equality -/

namespace Json

mutual

def decEq : (v w : Json) → Decidable (v = w)
  | .null, .null => isTrue rfl
  | .bool b, .bool c => decidable_of_iff (b = c) (by simp)
  | .int n, .int k => decidable_of_iff (n = k) (by simp)
  | .float r, .float s => decidable_of_iff (r = s) (by simp)
  | .str r, .str s => decidable_of_iff (r = s) (by simp)
  | .arr l, .arr m => @decidable_of_iff _ (l = m) (by simp) (decEqItems l m)
  | .obj l, .obj m => @decidable_of_iff _ (l = m) (by simp) (decEqFields l m)
  | .null, .bool _ | .null, .int _ | .null, .float _ | .null, .str _ | .null, .arr _
  | .null, .obj _ | .bool _, .null | .bool _, .int _ | .bool _, .float _ | .bool _, .str _
  | .bool _, .arr _ | .bool _, .obj _ | .int _, .null | .int _, .bool _ | .int _, .float _
  | .int _, .str _ | .int _, .arr _ | .int _, .obj _ | .float _, .null | .float _, .bool _
  | .float _, .int _ | .float _, .str _ | .float _, .arr _ | .float _, .obj _ | .str _, .null
  | .str _, .bool _ | .str _, .int _ | .str _, .float _ | .str _, .arr _ | .str _, .obj _
  | .arr _, .null | .arr _, .bool _ | .arr _, .int _ | .arr _, .float _ | .arr _, .str _
  | .arr _, .obj _ | .obj _, .null | .obj _, .bool _ | .obj _, .int _ | .obj _, .float _
  | .obj _, .str _ | .obj _, .arr _ => isFalse nofun

def decEqItems : (l m : List Json) → Decidable (l = m)
  | [], [] => isTrue rfl
  | [], _ :: _ | _ :: _, [] => isFalse nofun
  | v :: l, w :: m =>
    @decidable_of_iff _ (v = w ∧ l = m) (by simp) (@instDecidableAnd _ _ (decEq v w) (decEqItems l m))

def decEqFields : (l m : List (String × Json)) → Decidable (l = m)
  | [], [] => isTrue rfl
  | [], _ :: _ | _ :: _, [] => isFalse nofun
  | (k, v) :: l, (k', w) :: m =>
    @decidable_of_iff _ (k = k' ∧ v = w ∧ l = m) (by simp [and_assoc])
      (@instDecidableAnd _ _ _ (@instDecidableAnd _ _ (decEq v w) (decEqFields l m)))

end

instance : DecidableEq Json := decEq

/-- `==` of Python: a truth value and a number with the same value are equal, too. -/
def py_eq : Json → Json → Bool
  | .bool b, .int n | .int n, .bool b => n = if b then 1 else 0
  | .float r, .int n | .int n, .float r => r = toString n ++ ".0"
  | .bool b, .float r | .float r, .bool b => r = if b then "1.0" else "0.0"
  | v, w => v = w

/-- The truth value of a JSON value. -/
def truthy : Json → Bool
  | .null => false
  | .bool b => b
  | .int n => n ≠ 0
  | .float r => r ≠ "0.0" ∧ r ≠ "-0.0"
  | .str s => s ≠ ""
  | .arr l => l ≠ []
  | .obj l => l ≠ []

@[simp] theorem py_eq_int (n k : ℤ) : py_eq (.int n) (.int k) = decide (n = k) :=
  decide_eq_decide.mpr (by simp)

theorem py_eq_str (v : Json) (s : String) : py_eq v (.str s) = decide (v = .str s) := by
  cases v <;> rfl

end Json

/-- `isinstance(value, int)`, with its value. -/
def int_value : Json → Option ℤ
  | .int n => some n
  | .bool b => some (if b then 1 else 0)
  | _ => none

/-- A value that a Python set can hold. -/
def hashable : Json → Bool
  | .arr _ => false
  | .obj _ => false
  | _ => true

/-! ## Dictionaries -/

namespace Dict

/-- `d.get(key)` -/
def get (d : Dict) (key : String) : Option Json :=
  match d with
  | [] => none
  | (k, v) :: rest => if k = key then some v else get rest key

/-- `d[key] = value` -/
def set (d : Dict) (key : String) (value : Json) : Dict :=
  match d with
  | [] => [(key, value)]
  | (k, v) :: rest =>
    if k = key then (key, value) :: rest
    else if key.toList < k.toList then (key, value) :: (k, v) :: rest
    else (k, v) :: set rest key value

/-- `d.pop(key, None)` on a copy of a dictionary. -/
def pop (d : Dict) (key : String) : Dict :=
  match d with
  | [] => []
  | (k, v) :: rest => if k = key then pop rest key else (k, v) :: pop rest key

/-- A dictionary display. -/
def of (items : List (String × Json)) : Dict := items.foldl (fun d item => set d item.1 item.2) []

/-- `d[key]` -/
def item (d : Dict) (key : String) : Except PyError Json :=
  match get d key with
  | some v => .ok v
  | none => .error .KeyError

section Lemmas

variable {d : Dict} {key k k' : String} {v value : Json}

theorem get_cons : get ((k', v) :: d) k = if k' = k then some v else get d k := rfl

theorem get_set : get (set d key value) k = if key = k then some value else get d k := by
  induction d with
  | nil => rfl
  | cons field rest ih =>
    obtain ⟨k', v⟩ := field
    unfold set
    by_cases hsame : k' = key
    · subst hsame
      rw [if_pos rfl, get_cons, get_cons]
      by_cases hk : k' = k
      · rw [if_pos hk, if_pos hk]
      · rw [if_neg hk, if_neg hk, if_neg hk]
    · rw [if_neg hsame]
      by_cases hlt : key.toList < k'.toList
      · rw [if_pos hlt, get_cons]
      · rw [if_neg hlt, get_cons, get_cons, ih]
        by_cases hk : k' = k
        · subst hk
          rw [if_pos rfl, if_neg (Ne.symm hsame), if_pos rfl]
        · rw [if_neg hk, if_neg hk]

@[simp] theorem get_set_self : get (set d key value) key = some value := by
  rw [get_set, if_pos rfl]

theorem get_set_of_ne (h : key ≠ k) : get (set d key value) k = get d k := by
  rw [get_set, if_neg h]

theorem get_pop : get (pop d key) k = if key = k then none else get d k := by
  induction d with
  | nil => exact (ite_self none).symm
  | cons field rest ih =>
    obtain ⟨k', v⟩ := field
    unfold pop
    by_cases hsame : k' = key
    · subst hsame
      rw [if_pos rfl, ih, get_cons]
      by_cases hk : k' = k
      · rw [if_pos hk, if_pos hk]
      · rw [if_neg hk, if_neg hk, if_neg hk]
    · rw [if_neg hsame, get_cons, get_cons, ih]
      by_cases hk : k' = k
      · subst hk
        rw [if_pos rfl, if_neg (Ne.symm hsame), if_pos rfl]
      · rw [if_neg hk, if_neg hk]

theorem get_pop_of_ne (h : key ≠ k) : get (pop d key) k = get d k := by
  rw [get_pop, if_neg h]

theorem pop_of_get_none (h : get d key = none) : pop d key = d := by
  induction d with
  | nil => rfl
  | cons field rest ih =>
    obtain ⟨k', v⟩ := field
    rw [get_cons] at h
    by_cases hsame : k' = key
    · rw [if_pos hsame] at h
      cases h
    · rw [if_neg hsame] at h
      rw [pop, if_neg hsame, ih h]

/-- Taking out a field that was set takes the field out. -/
theorem pop_set : pop (set d key value) key = pop d key := by
  induction d with
  | nil => exact if_pos rfl
  | cons field rest ih =>
    obtain ⟨k', v⟩ := field
    by_cases hsame : k' = key
    · subst hsame
      rw [set, if_pos rfl, pop, if_pos rfl, pop, if_pos rfl]
    · rw [set, if_neg hsame]
      by_cases hlt : key.toList < k'.toList
      · rw [if_pos hlt, pop, if_pos rfl]
      · rw [if_neg hlt, pop, if_neg hsame, ih, pop, if_neg hsame]

theorem item_eq_ok : item d key = .ok value ↔ get d key = some value := by
  unfold item
  cases get d key with
  | none => simp
  | some v => simp

end Lemmas

end Dict

/-! ## Hashes -/

def hex_digit (n : ℕ) : Char := "0123456789abcdef".toList.getD n '0'

def hex_escape (n : ℕ) : List Char :=
  ['\\', 'u', hex_digit (n / 4096 % 16), hex_digit (n / 256 % 16), hex_digit (n / 16 % 16),
    hex_digit (n % 16)]

/-- The escape of a character in `json.dumps` with `ensure_ascii`. -/
def escape_char (c : Char) : List Char :=
  if c = '"' then ['\\', '"']
  else if c = '\\' then ['\\', '\\']
  else if c = '\n' then ['\\', 'n']
  else if c = '\r' then ['\\', 'r']
  else if c = '\t' then ['\\', 't']
  else if c.toNat = 8 then ['\\', 'b']
  else if c.toNat = 12 then ['\\', 'f']
  else if 32 ≤ c.toNat ∧ c.toNat < 127 then [c]
  else if c.toNat < 65536 then hex_escape c.toNat
  else
    -- a surrogate pair
    hex_escape (0xd800 + (c.toNat - 65536) / 1024) ++ hex_escape (0xdc00 + (c.toNat - 65536) % 1024)

def quoted (s : String) : List Char := ['"'] ++ s.toList.flatMap escape_char ++ ['"']

namespace Json

mutual

/-- `json.dumps(value, sort_keys=True, separators=(",", ":"))` -/
def dumps : Json → List Char
  | .null => "null".toList
  | .bool b => if b then "true".toList else "false".toList
  | .int n => (toString n).toList
  | .float r => r.toList
  | .str s => quoted s
  | .arr l => ['['] ++ dumps_items l ++ [']']
  | .obj l => ['\x7b'] ++ dumps_fields l ++ ['\x7d']

def dumps_items : List Json → List Char
  | [] => []
  | v :: l => dumps v ++ (if l = [] then [] else ',' :: dumps_items l)

def dumps_fields : List (String × Json) → List Char
  | [] => []
  | (k, v) :: l => quoted k ++ [':'] ++ dumps v ++ (if l = [] then [] else ',' :: dumps_fields l)

end

end Json

def canonical_bytes (v : Json) : Bytes := v.dumps.map fun c => UInt8.ofNat c.toNat

/-- `hashlib.sha256(data).hexdigest()` -/
@[irreducible] def hexdigest (data : Bytes) : String :=
  String.ofList ((sha256_standard data).val.flatMap fun b =>
    [hex_digit (b.toNat / 16), hex_digit (b.toNat % 16)])

/-- `_stable_hash` -/
def stable_hash (v : Json) : String := hexdigest (canonical_bytes v)

end Bogbin.Bogvm
