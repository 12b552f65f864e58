import Bogbin.Bogvm.Json

/-!
# Reversible transforms

The transforms of a chunk before its basis is chosen: `TRANSFORM_ORDER`, `apply_transform` and
`invert_transform`.  The Burrows-Wheeler transform has the primary index as its parameter.
-/

namespace Bogbin.Container

open Bogvm

inductive Transform
  | identity
  | xor_previous
  | delta_previous
  | nibble_split
  | mtf
  | bwt
  | bwt_mtf
  deriving DecidableEq, Repr

def TRANSFORM_ORDER : List Transform :=
  [.identity, .xor_previous, .delta_previous, .nibble_split, .mtf, .bwt, .bwt_mtf]

namespace Transform

def name : Transform → String
  | identity => "identity"
  | xor_previous => "xor_previous"
  | delta_previous => "delta_previous"
  | nibble_split => "nibble_split"
  | mtf => "mtf"
  | bwt => "bwt"
  | bwt_mtf => "bwt_mtf"

/-- The transform of a name in `TRANSFORM_ORDER`. -/
def of_name (s : String) : Option Transform :=
  TRANSFORM_ORDER.find? fun transform => transform.name = s

/-- `name in BWT_TRANSFORMS` -/
def is_bwt (transform : Transform) : Bool := transform = bwt || transform = bwt_mtf

@[simp] theorem of_name_name (transform : Transform) : of_name transform.name = some transform := by
  cases transform <;> rfl

theorem mem_TRANSFORM_ORDER (transform : Transform) : transform ∈ TRANSFORM_ORDER := by
  cases transform <;> decide

end Transform

/-! ## The byte maps -/

/-- The first byte, and then every byte with the one before it. -/
def with_previous (f : UInt8 → UInt8 → UInt8) : Bytes → Bytes
  | [] => []
  | first :: rest => first :: rest.zipWith f (first :: rest)

/-- The bytes that follow a byte of the output. -/
def follow (f : UInt8 → UInt8 → UInt8) : UInt8 → Bytes → Bytes
  | _, [] => []
  | previous, b :: rest => f b previous :: follow f (f b previous) rest

/-- The first byte, and then every byte with the one before it in the output. -/
def from_previous (f : UInt8 → UInt8 → UInt8) : Bytes → Bytes
  | [] => []
  | first :: rest => first :: follow f first rest

/-- `_swap_nibbles` -/
def swap_nibbles (value : UInt8) : UInt8 := ((value &&& 0x0f) <<< 4) ||| (value >>> 4)

/-- `list(range(256))` -/
def all_bytes : Bytes := (List.range 256).map UInt8.ofNat

/-- The alphabet with the byte at an index in front; the first byte stays where it is. -/
def move_to_front (alphabet : Bytes) (index : ℕ) (value : UInt8) : Bytes :=
  if index = 0 then alphabet else value :: alphabet.eraseIdx index

def mtf_encode_loop : Bytes → Bytes → Bytes
  | _, [] => []
  | alphabet, value :: rest =>
    let index := alphabet.idxOf value
    UInt8.ofNat index :: mtf_encode_loop (move_to_front alphabet index value) rest

/-- `_mtf_encode` -/
def mtf_encode (data : Bytes) : Bytes := mtf_encode_loop all_bytes data

def mtf_decode_loop : Bytes → Bytes → Bytes
  | _, [] => []
  | alphabet, index :: rest =>
    let value := alphabet.getD index.toNat 0
    value :: mtf_decode_loop (move_to_front alphabet index.toNat value) rest

/-- `_mtf_decode` -/
def mtf_decode (data : Bytes) : Bytes := mtf_decode_loop all_bytes data

/-- `data[index:] + data[:index]` -/
def rotation (data : Bytes) (index : ℕ) : Bytes := data.drop index ++ data.take index

/-- The order of the pairs of a rotation and its index. -/
def rotation_le (a b : Bytes × ℕ) : Bool := a.1 < b.1 ∨ a.1 = b.1 ∧ a.2 ≤ b.2

def rotations (data : Bytes) : List (Bytes × ℕ) :=
  ((List.range data.length).map fun index => (rotation data index, index)).mergeSort rotation_le

/-- `_bwt_encode` -/
def bwt_encode (data : Bytes) : Bytes × ℕ :=
  if data = [] then ([], 0)
  else ((rotations data).map fun r => r.1.getLastD 0, (rotations data).findIdx fun r => r.2 = 0)

/-- One pass of the decoder: the bytes in front of the rows, sorted. -/
def bwt_pass (data : Bytes) (table : List Bytes) : List Bytes :=
  (data.zipWith List.cons table).mergeSort fun a b => a ≤ b

/-- `_bwt_decode` -/
def bwt_decode (data : Bytes) (primary_index : ℕ) : Except PyError Bytes :=
  if data = [] then if primary_index ≠ 0 then .error .ValueError else .ok []
  else if data.length ≤ primary_index then .error .ValueError
  else
    let table := (bwt_pass data)^[data.length] (List.replicate data.length [])
    .ok (table.getD primary_index [])

/-! ## The transforms -/

def apply_transform_with_param (transform : Transform) (data : Bytes) : Bytes × ℕ :=
  match transform with
  | .identity => (data, 0)
  | .xor_previous => (with_previous (fun b previous => b ^^^ previous) data, 0)
  | .delta_previous => (with_previous (fun b previous => b - previous) data, 0)
  | .nibble_split => (data.map swap_nibbles, 0)
  | .mtf => (mtf_encode data, 0)
  | .bwt => bwt_encode data
  | .bwt_mtf => (mtf_encode (bwt_encode data).1, (bwt_encode data).2)

def apply_transform (transform : Transform) (data : Bytes) : Bytes :=
  (apply_transform_with_param transform data).1

def invert_transform (transform : Transform) (data : Bytes) (param : ℕ) : Except PyError Bytes :=
  match transform with
  | .identity => .ok data
  | .xor_previous => .ok (from_previous (fun b previous => b ^^^ previous) data)
  | .delta_previous => .ok (from_previous (fun b previous => previous + b) data)
  | .nibble_split => .ok (data.map swap_nibbles)
  | .mtf => .ok (mtf_decode data)
  | .bwt => bwt_decode data param
  | .bwt_mtf => bwt_decode (mtf_decode data) param

section Lemmas

variable {transform : Transform} {data : Bytes} {param : ℕ} {e : PyError}

theorem bwt_decode_error (h : bwt_decode data param = .error e) : e = .ValueError := by
  unfold bwt_decode at h
  split_ifs at h
  · exact (Except.error.inj h).symm
  · exact (Except.error.inj h).symm

/-- An inversion raises `ValueError` only. -/
theorem invert_transform_error (h : invert_transform transform data param = .error e) :
    e = .ValueError := by
  cases transform
  case bwt => exact bwt_decode_error h
  case bwt_mtf => exact bwt_decode_error h
  all_goals cases h

/-- Only the Burrows-Wheeler transforms look at the parameter. -/
theorem invert_transform_of_not_bwt (h : transform.is_bwt = false) (param' : ℕ) :
    invert_transform transform data param = invert_transform transform data param' := by
  cases transform
  case bwt => cases h
  case bwt_mtf => cases h
  all_goals rfl

end Lemmas

end Bogbin.Container
