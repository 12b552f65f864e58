import Bogbin.Bogvm.Json

/-!
# Deterministic bases

The byte generators of a data block: `BASIS_ORDER` and `synthesize_basis`.
-/

namespace Bogbin.Vm

open Bogvm

inductive Basis
  | zero_block
  | repeat_byte
  | delta_u8
  | dictionary_u8
  | rle_u8
  | ramp_u8
  | triangle_u8
  | sine8_u8
  | fourier8_u8
  deriving DecidableEq, Repr

def BASIS_ORDER : List Basis :=
  [.zero_block, .repeat_byte, .delta_u8, .dictionary_u8, .rle_u8, .ramp_u8, .triangle_u8, .sine8_u8,
    .fourier8_u8]

namespace Basis

def name : Basis → String
  | zero_block => "zero_block"
  | repeat_byte => "repeat_byte"
  | delta_u8 => "delta_u8"
  | dictionary_u8 => "dictionary_u8"
  | rle_u8 => "rle_u8"
  | ramp_u8 => "ramp_u8"
  | triangle_u8 => "triangle_u8"
  | sine8_u8 => "sine8_u8"
  | fourier8_u8 => "fourier8_u8"

/-- The basis of a name in `BASIS_ORDER`. -/
def of_name (s : String) : Option Basis := BASIS_ORDER.find? fun basis => basis.name = s

@[simp] theorem of_name_name (basis : Basis) : of_name basis.name = some basis := by
  cases basis <;> rfl

theorem name_of_of_name {s : String} {basis : Basis} (h : of_name s = some basis) :
    basis.name = s := by
  have hfound := List.find?_some h
  exact of_decide_eq_true hfound

theorem mem_BASIS_ORDER (basis : Basis) : basis ∈ BASIS_ORDER := by
  cases basis <;> decide

end Basis

def TRIANGLE_U8_OFFSETS : List ℤ := [0, 32, 64, 96, 128, 96, 64, 32]

def SINE8_U8_OFFSETS : List ℤ := [0, 90, 127, 90, 0, -90, -127, -90]

def COSINE8_U8_OFFSETS : List ℤ := [127, 90, 0, -90, -127, -90, 0, 90]

/-- The offset of a table with eight entries. -/
def wave (offsets : List ℤ) (i : ℕ) : ℤ := offsets.getD (i % 8) 0

/-- `value % 256` -/
def wrap (value : ℤ) : UInt8 := UInt8.ofNat (value % 256).toNat

/-- The byte of a basis at an index. -/
def Basis.byte_at (basis : Basis) (start_byte delta i : ℕ) : UInt8 :=
  match basis with
  | zero_block => 0
  | delta_u8 => wrap (start_byte + i * delta)
  | dictionary_u8 | rle_u8 | repeat_byte => UInt8.ofNat start_byte
  | ramp_u8 => wrap (start_byte + i)
  | triangle_u8 => wrap (start_byte + wave TRIANGLE_U8_OFFSETS i)
  | sine8_u8 => wrap (start_byte + wave SINE8_U8_OFFSETS i)
  | fourier8_u8 =>
    wrap (start_byte + delta * wave SINE8_U8_OFFSETS i / 127 +
      (delta / 2 : ℕ) * wave COSINE8_U8_OFFSETS i / 127)

/-- The bytes of a basis. -/
def Basis.bytes (basis : Basis) (start_byte length delta : ℕ) : Bytes :=
  (List.range length).map (basis.byte_at start_byte delta)

@[simp] theorem Basis.length_bytes (basis : Basis) (start_byte length delta : ℕ) :
    (basis.bytes start_byte length delta).length = length := by
  rw [Basis.bytes, List.length_map, List.length_range]

def synthesize_basis (basis : Basis) (start_byte length delta : ℕ) : Except PyError Bytes :=
  if 255 < start_byte then .error .ValueError
  else if 255 < delta then .error .ValueError
  else .ok (basis.bytes start_byte length delta)

theorem synthesize_basis_ok {basis : Basis} {start_byte length delta : ℕ} (hstart : start_byte ≤ 255)
    (hdelta : delta ≤ 255) :
    synthesize_basis basis start_byte length delta = .ok (basis.bytes start_byte length delta) := by
  rw [synthesize_basis, if_neg (not_lt.mpr hstart), if_neg (not_lt.mpr hdelta)]

end Bogbin.Vm
