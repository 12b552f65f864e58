import Bogbin.Container.Validate
import Bogbin.Library.Leb128
import Bogbin.Library.StateExcept

/-!
# The packed container

`encode_bogpk_container` and `decode_bogpk_container`.  A `_ByteReader` is the bytes that it has not
read yet.
-/

namespace Bogbin.Container

open Bogvm Vm

def BOGPK_MAGIC : Bytes := [0x42, 0x4f, 0x47, 0x50, 0x4b, 0x31]

def BOGPK_VERSION : UInt8 := 1

def BOGPK_FLAG_ZERO_RESIDUAL_RUNS : UInt8 := 4

def BOGPK_DESCRIPTOR_SENTINEL : UInt8 := 0xff

/-- The digits of a hash. -/
def hex (data : Bytes) : String :=
  String.ofList (data.flatMap fun b => [hex_digit (b.toNat / 16), hex_digit (b.toNat % 16)])

/-- The value of a lower-case digit. -/
def hex_value (c : Char) : ℕ := "0123456789abcdef".toList.idxOf c

/-- `bytes.fromhex(text)`, for lower-case digits. -/
def fromhex : List Char → Bytes
  | high :: low :: rest => UInt8.ofNat (16 * hex_value high + hex_value low) :: fromhex rest
  | _ => []

/-! ## Encoding -/

/-- `_encode_varuint` -/
def encode_varuint (value : ℕ) : Bytes := Leb128.encode value

/-- `_encode_descriptor` -/
def encode_descriptor (transform : Transform) (basis : Basis) (bitmask : Bool) : UInt8 :=
  UInt8.ofNat ((TRANSFORM_ORDER.idxOf transform <<< 5) ||| (BASIS_ORDER.idxOf basis <<< 1) |||
    if bitmask then 1 else 0)

/-- `_append_transform_param` -/
def transform_param_bytes (transform : Transform) (transform_param : ℕ) : Bytes :=
  if transform.is_bwt then encode_varuint transform_param else []

/-- The start of a descriptor record. -/
def descriptor_bytes (chunk : Chunk) (bitmask : Bool) : Bytes :=
  encode_descriptor chunk.transform chunk.basis bitmask :: chunk.start_byte :: chunk.delta ::
    transform_param_bytes chunk.transform chunk.transform_param

/-- `_append_residuals` -/
def delta_residuals (previous : Option ℕ) : List Patch → Bytes
  | [] => []
  | patch :: rest =>
    encode_varuint (match previous with
      | none => patch.offset
      | some offset => patch.offset - offset - 1) ++
      patch.byte :: delta_residuals (some patch.offset) rest

/-- `mask[offset // 8] |= 1 << (offset % 8)` -/
def mark (mask : Bytes) (offset : ℕ) : Bytes :=
  mask.modify (offset / 8) fun b => UInt8.ofNat (b.toNat ||| 1 <<< (offset % 8))

/-- `_append_bitmask_residuals`; the offsets of the residuals are increasing. -/
def bitmask_residuals (length : ℕ) (residuals : List Patch) : Bytes :=
  (residuals.map Patch.offset).foldl mark (List.replicate ((length + 7) / 8) 0) ++
    residuals.map Patch.byte

/-- `_best_residual_encoding`, whether it is the bitmask. -/
def best_residual_encoding (chunk : Chunk) : Bool :=
  chunk.residual_count ≠ 0 ∧
    (chunk.length + 7) / 8 + chunk.residual_count < (delta_residuals none chunk.residuals).length

/-- The residual bytes of a chunk. -/
def residual_bytes (length : ℕ) (residuals : List Patch) (bitmask : Bool) : Bytes :=
  if bitmask then bitmask_residuals length residuals else delta_residuals none residuals

/-- The chunk can follow in the run of the first one. -/
def same_run (first candidate : Chunk) : Bool :=
  candidate.residual_count = 0 ∧ candidate.transform = first.transform ∧
    candidate.transform_param = first.transform_param ∧ candidate.basis = first.basis ∧
    candidate.start_byte = first.start_byte ∧ candidate.delta = first.delta

/-- `_zero_residual_run_length` -/
def zero_residual_run_length : List Chunk → ℕ
  | [] => 0
  | first :: rest =>
    if first.residual_count ≠ 0 then 0 else 1 + (rest.takeWhile (same_run first)).length

/-- The descriptor and the residual stream, and whether there is a run. -/
structure Streams where
  runs : Bool
  descriptors : Bytes
  residuals : Bytes

/-- The loop over the chunks; every step takes at least one. -/
def encode_loop : ℕ → List Chunk → Streams
  | 0, _ => ⟨false, [], []⟩
  | _ + 1, [] => ⟨false, [], []⟩
  | fuel + 1, chunk :: rest =>
    let run_length := zero_residual_run_length (chunk :: rest)
    if 2 ≤ run_length then
      let streams := encode_loop fuel ((chunk :: rest).drop run_length)
      ⟨true, BOGPK_DESCRIPTOR_SENTINEL :: encode_varuint run_length ++ descriptor_bytes chunk false ++
        streams.descriptors, streams.residuals⟩
    else
      let bitmask := best_residual_encoding chunk
      let streams := encode_loop fuel rest
      ⟨streams.runs, descriptor_bytes chunk bitmask ++ encode_varuint chunk.residual_count ++
        streams.descriptors, residual_bytes chunk.length chunk.residuals bitmask ++ streams.residuals⟩

def encode_contents (contents : Contents) : Except PyError Bytes :=
  if contents.chunk_size ∉ CANDIDATE_CHUNK_SIZES then .error .ContainerError
  else
    let streams := encode_loop contents.chunks.length contents.chunks
    let original_length := (contents.chunks.map Chunk.length).sum
    .ok (BOGPK_MAGIC ++ [BOGPK_VERSION, if streams.runs then BOGPK_FLAG_ZERO_RESIDUAL_RUNS else 0,
        UInt8.ofNat (CANDIDATE_CHUNK_SIZES.idxOf contents.chunk_size)] ++
      encode_varuint original_length ++ encode_varuint contents.chunks.length ++
      encode_varuint contents.total_residual_count ++ fromhex contents.whole_sha256.toList ++
      streams.descriptors ++ streams.residuals)

def encode_bogpk_container (floats : FloatOps) (container : Json) : Except PyError Bytes := do
  let contents ← validate_bog_container floats container
  validate_schema container
  encode_contents contents

/-! ## Reading -/

abbrev Reader := EStateM PyError Bytes

/-- Raise if this does not hold. -/
def expect (c : Prop) [Decidable c] : Reader Unit := if c then pure () else throw .ContainerError

def read_byte : Reader UInt8 := do
  match ← get with
  | [] => throw .ContainerError
  | b :: rest => do
    set rest
    pure b

def read_bytes (length : ℕ) : Reader Bytes := do
  let data ← get
  expect (length ≤ data.length)
  set (data.drop length)
  pure (data.take length)

/-- The loop of `_decode_varuint`, for as many bytes; the shift stays below 64. -/
def decode_varuint_loop : ℕ → ℕ → ℕ → Bytes → Reader ℕ
  | 0, _, _, _ => throw .ContainerError
  | n + 1, shift, value, raw => do
    let byte ← read_byte
    let raw := raw ++ [byte]
    let value := value ||| (byte.toNat % 128) <<< shift
    if byte.toNat < 128 then do
      expect (encode_varuint value = raw)
      pure value
    else decode_varuint_loop n (shift + 7) value raw

/-- `_decode_varuint` -/
def decode_varuint : Reader ℕ := decode_varuint_loop 10 0 0 []

/-! ## Decoding -/

structure Header where
  runs : Bool
  chunk_size : ℕ
  original_length : ℕ
  chunk_count : ℕ
  total_residual_count : ℕ
  whole_sha256 : String

def read_header : Reader Header := do
  let magic ← read_bytes BOGPK_MAGIC.length
  expect (magic = BOGPK_MAGIC)
  let version ← read_byte
  expect (version = BOGPK_VERSION)
  let flags ← read_byte
  -- the two flags of the hash streams are refused, too
  expect (flags = 0 ∨ flags = BOGPK_FLAG_ZERO_RESIDUAL_RUNS)
  let chunk_size_code ← read_byte
  match CANDIDATE_CHUNK_SIZES[chunk_size_code.toNat]? with
  | none => throw .ContainerError
  | some chunk_size => do
    let original_length ← decode_varuint
    let chunk_count ← decode_varuint
    let total_residual_count ← decode_varuint
    let whole_sha256 ← read_bytes 32
    expect (original_length = 0 → chunk_count = 0)
    expect (0 < original_length → chunk_count ≠ 0)
    expect (chunk_count = if original_length = 0 then 0 else (original_length + chunk_size - 1) / chunk_size)
    expect (total_residual_count ≤ original_length)
    pure ⟨flags = BOGPK_FLAG_ZERO_RESIDUAL_RUNS, chunk_size, original_length, chunk_count,
      total_residual_count, hex whole_sha256⟩

/-- What a descriptor record says of a chunk. -/
structure Descriptor where
  transform : Transform
  basis : Basis
  start_byte : UInt8
  delta : UInt8
  transform_param : ℕ
  residual_count : ℕ
  bitmask : Bool
  deriving DecidableEq, Repr

/-- The transform of a descriptor byte. -/
def descriptor_transform (value : UInt8) : Reader Transform :=
  match TRANSFORM_ORDER[value.toNat >>> 5]? with
  | some transform => pure transform
  | none => throw .ContainerError

/-- `_decode_descriptor` -/
def decode_descriptor (value start_byte delta : UInt8) (transform_param residual_count : ℕ) :
    Reader Descriptor := do
  let transform ← descriptor_transform value
  match BASIS_ORDER[(value.toNat >>> 1) % 16]? with
  | some basis =>
    pure ⟨transform, basis, start_byte, delta, transform_param, residual_count, value.toNat.testBit 0⟩
  | none => throw .ContainerError

/-- `_read_transform_param` -/
def read_transform_param (descriptor : UInt8) : Reader ℕ := do
  let transform ← descriptor_transform descriptor
  if transform.is_bwt then decode_varuint else pure 0

/-- One pass of the loop over the descriptors, after so many of them. -/
def read_record (header : Header) (found : ℕ) : Reader (List Descriptor) := do
  let marker ← read_byte
  if marker = BOGPK_DESCRIPTOR_SENTINEL then do
    expect (header.runs = true)
    let run_length ← decode_varuint
    expect (2 ≤ run_length)
    let descriptor ← read_byte
    let start_byte ← read_byte
    let delta ← read_byte
    let transform_param ← read_transform_param descriptor
    expect (found + run_length ≤ header.chunk_count)
    let decoded ← decode_descriptor descriptor start_byte delta transform_param 0
    pure (List.replicate run_length decoded)
  else do
    let start_byte ← read_byte
    let delta ← read_byte
    let transform_param ← read_transform_param marker
    let residual_count ← decode_varuint
    let decoded ← decode_descriptor marker start_byte delta transform_param residual_count
    pure [decoded]

/-- The loop over the descriptors; every pass finds at least one. -/
def read_descriptors (header : Header) : ℕ → ℕ → Reader (List Descriptor)
  | 0, _ => pure []
  | fuel + 1, found =>
    if header.chunk_count ≤ found then pure []
    else do
      let record ← read_record header found
      let rest ← read_descriptors header fuel (found + record.length)
      pure (record ++ rest)

/-- `_decoded_chunk_length` -/
def decoded_chunk_length (header : Header) (index : ℕ) : Reader ℕ :=
  if index + 1 < header.chunk_count then pure header.chunk_size
  else do
    let final_length := header.original_length - (header.chunk_count - 1) * header.chunk_size
    expect (1 ≤ final_length ∧ final_length ≤ header.chunk_size)
    pure final_length

/-- The loop of `_read_residuals`. -/
def read_residuals_loop (length : ℕ) : ℕ → Option ℕ → Reader (List Patch)
  | 0, _ => pure []
  | n + 1, previous => do
    let offset_delta ← decode_varuint
    let offset := match previous with
      | none => offset_delta
      | some offset => offset + 1 + offset_delta
    expect (offset < length)
    let byte ← read_byte
    let rest ← read_residuals_loop length n (some offset)
    pure (⟨offset, byte⟩ :: rest)

/-- `_read_residuals` -/
def read_residuals (residual_count length : ℕ) : Reader (List Patch) := do
  expect (residual_count ≤ length)
  read_residuals_loop length residual_count none

/-- `mask[offset // 8] & (1 << (offset % 8))` -/
def marked (mask : Bytes) (offset : ℕ) : Bool := (mask.getD (offset / 8) 0).toNat.testBit (offset % 8)

/-- The bytes at these offsets. -/
def read_patches : List ℕ → Reader (List Patch)
  | [] => pure []
  | offset :: rest => do
    let byte ← read_byte
    let patches ← read_patches rest
    pure (⟨offset, byte⟩ :: patches)

/-- `_read_bitmask_residuals` -/
def read_bitmask_residuals (residual_count length : ℕ) : Reader (List Patch) := do
  expect (residual_count ≤ length)
  let mask ← read_bytes ((length + 7) / 8)
  -- the bits of the last byte beyond the length
  expect (length % 8 ≠ 0 → (mask.getLastD 0).toNat >>> (length % 8) = 0)
  let offsets := (List.range length).filter (marked mask)
  expect (offsets.length = residual_count)
  read_patches offsets

/-- The chunk of a descriptor, with its original bytes. -/
def decode_chunk (header : Header) (index : ℕ) (descriptor : Descriptor) : Reader (Chunk × Bytes) := do
  let length ← decoded_chunk_length header index
  let residuals ← if descriptor.bitmask then read_bitmask_residuals descriptor.residual_count length
    else read_residuals descriptor.residual_count length
  let generated ← MonadExcept.ofExcept (synthesize_basis descriptor.basis descriptor.start_byte.toNat
    length descriptor.delta.toNat)
  let transformed := residuals.foldl (fun data patch => data.set patch.offset patch.byte) generated
  match invert_transform descriptor.transform transformed descriptor.transform_param with
  | .error .ValueError => throw .ContainerError
  | .error e => throw e
  | .ok original =>
    pure (⟨index, index * header.chunk_size, length, descriptor.basis, descriptor.start_byte,
      descriptor.delta, descriptor.transform, descriptor.transform_param, residuals,
      hexdigest transformed, hexdigest transformed, hexdigest original⟩, original)

/-- The loop over the chunks. -/
def decode_chunks (header : Header) : ℕ → List Descriptor → Reader (List (Chunk × Bytes))
  | _, [] => pure []
  | index, descriptor :: rest => do
    let chunk ← decode_chunk header index descriptor
    let chunks ← decode_chunks header (index + 1) rest
    pure (chunk :: chunks)

/-- The header and the chunks with their original bytes. -/
def read_container : Reader (Header × List (Chunk × Bytes)) := do
  let header ← read_header
  let descriptors ← read_descriptors header header.chunk_count 0
  let chunks ← decode_chunks header 0 descriptors
  expect ((chunks.map fun chunk => chunk.1.residual_count).sum = header.total_residual_count)
  expect ((← get) = [])
  let reconstructed := (chunks.map Prod.snd).flatten
  expect (reconstructed.length = header.original_length)
  expect (hexdigest reconstructed = header.whole_sha256)
  pure (header, chunks)

/-! ### The decoded container -/

def patch_json (patch : Patch) : Json :=
  .obj (Dict.of [("offset", .int patch.offset), ("byte", .int patch.byte.toNat)])

def chunk_json (chunk : Chunk) : Json :=
  .obj (Dict.of [("index", .int chunk.index), ("name", .str (chunk_name chunk.index)),
    ("offset", .int chunk.offset), ("length", .int chunk.length), ("basis", .str chunk.basis.name),
    ("start_byte", .int chunk.start_byte.toNat), ("delta", .int chunk.delta.toNat),
    ("transform", .str chunk.transform.name), ("transform_param", .int chunk.transform_param),
    ("residual_count", .int chunk.residual_count),
    ("residuals", .arr (chunk.residuals.map patch_json)), ("chunk_sha256", .str chunk.chunk_sha256),
    ("transformed_sha256", .str chunk.transformed_sha256),
    ("original_chunk_sha256", .str chunk.original_chunk_sha256)])

/-- The number of the chunks with each transform. -/
def transform_counts (chunks : List Chunk) : Dict :=
  Dict.of (TRANSFORM_ORDER.map fun transform =>
    (transform.name, .int (chunks.countP fun chunk => chunk.transform = transform)))

/-- `_residual_density` -/
def residual_density (floats : FloatOps) (total_residual_count length : ℕ) : Json :=
  .float (if length = 0 then "0.0" else floats.quotient total_residual_count length)

def container_json (floats : FloatOps) (header : Header) (chunks : List Chunk) : Json :=
  .obj (Dict.of [("format", .str BOG_FORMAT), ("vm_format", .str BOGBIN_FORMAT),
    ("pack_mode", .str "chunked"), ("chunk_size", .int header.chunk_size),
    ("chunk_count", .int header.chunk_count), ("whole_sha256", .str header.whole_sha256),
    ("total_residual_count", .int header.total_residual_count), ("chunks", .arr (chunks.map chunk_json)),
    ("chunk_tournament_enabled", .bool false),
    ("candidate_chunk_sizes", .arr [.int header.chunk_size]),
    ("selected_chunk_size", .int header.chunk_size),
    ("selected_total_residual_count", .int header.total_residual_count),
    ("selected_residual_density",
      residual_density floats header.total_residual_count header.original_length),
    ("chunk_tournament_results", .arr []), ("transform_tournament_enabled", .bool true),
    ("candidate_transforms", .arr (TRANSFORM_ORDER.map fun transform => .str transform.name)),
    ("selected_transform_counts", .obj (transform_counts chunks))])

/-- The result of a computation, whatever it leaves. -/
def result {α : Type} (x : Reader α) (data : Bytes) : Except PyError α :=
  match x data with
  | .ok a _ => .ok a
  | .error e _ => .error e

def decode_bogpk_container (floats : FloatOps) (data : Bytes) : Except PyError Json := do
  let (header, chunks) ← result read_container data
  let container := container_json floats header (chunks.map Prod.fst)
  let _ ← validate_bog_container floats container
  validate_schema container
  .ok container

end Bogbin.Container
