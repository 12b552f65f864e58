import Bogbin.Bogvm.Archive
import Bogbin.Container.Transforms
import Bogbin.Library.ZeroPadding
import Bogbin.Vm.Bases

/-!
# Containers

A `.bog` container is a JSON object.  `validate_bog_container` gives the values that it has checked,
as the later code reads them again: a truth value counts as a number, and `!=` is the inequality of
Python.  The schema `bogpk-metadata.schema.json` looks at the top-level fields only.
-/

namespace Bogbin.Container

open Bogvm Vm ZeroPadding

def BOG_FORMAT : String := "BOG-2.0"

def BOGBIN_FORMAT : String := "BOGBIN-2.0"

def CANDIDATE_CHUNK_SIZES : List ℕ := [16, 32, 64, 128]

/-- The float arithmetic of a container. -/
structure FloatOps where
  /-- The float of this text equals the number. -/
  int_eq : String → ℤ → Bool
  /-- The sum of these numbers, one of them a float, equals the count. -/
  sum_eq : List Json → ℤ → Except PyError Bool
  /-- `round(total_residual_count / length, 6)` -/
  quotient : ℕ → ℕ → String

structure Patch where
  offset : ℕ
  byte : UInt8
  deriving DecidableEq, Repr

/-- The values of a chunk; the hashes are the ones that are compared, defaults included. -/
structure Chunk where
  index : ℕ
  offset : ℕ
  length : ℕ
  basis : Basis
  start_byte : UInt8
  delta : UInt8
  transform : Transform
  transform_param : ℕ
  residuals : List Patch
  chunk_sha256 : String
  transformed_sha256 : String
  original_chunk_sha256 : String
  deriving DecidableEq, Repr

def Chunk.residual_count (chunk : Chunk) : ℕ := chunk.residuals.length

/-- The values of a container. -/
structure Contents where
  chunk_size : ℕ
  whole_sha256 : String
  total_residual_count : ℕ
  chunks : List Chunk
  deriving DecidableEq, Repr

/-! ## Checked values -/

/-- The value of a field that is there. -/
def field (d : Dict) (key : String) : Json := (Dict.get d key).getD .null

/-- A value that has passed its check. -/
def checked {α : Type} : Option α → Except PyError α
  | some a => .ok a
  | none => .error .ContainerError

/-- A number from 0 on. -/
def natural (v : Json) : Option ℕ :=
  match int_value v with
  | some n => if 0 ≤ n then some n.toNat else none
  | none => none

/-- A number that a byte holds. -/
def byte_value (v : Json) : Option UInt8 :=
  match natural v with
  | some n => if n ≤ 255 then some (UInt8.ofNat n) else none
  | none => none

/-- `_is_sha256`, with the text. -/
def sha256_text : Json → Option String
  | .str s => if s.toList.length = 64 ∧ is_hex s.toList then some s else none
  | _ => none

/-- `value == n` -/
def equals (floats : FloatOps) (v : Json) (n : ℤ) : Bool :=
  match v with
  | .float r => floats.int_eq r n
  | v => int_value v = some n

def basis_value : Json → Option Basis
  | .str s => Basis.of_name s
  | _ => none

def transform_value : Json → Option Transform
  | .str s => Transform.of_name s
  | _ => none

/-- Raise if this does not hold. -/
def require (c : Prop) [Decidable c] : Except PyError Unit := reject_if (¬c) .ContainerError

def REQUIRED_TOP_LEVEL_FIELDS : List String :=
  ["format", "vm_format", "pack_mode", "chunk_size", "chunk_count", "whole_sha256",
    "total_residual_count", "chunks"]

def REQUIRED_CHUNK_FIELDS : List String :=
  ["index", "name", "offset", "length", "basis", "start_byte", "residual_count", "residuals",
    "chunk_sha256"]

/-- `f"payload_chunk_{index:04d}"` -/
def chunk_name (index : ℕ) : String :=
  String.ofList ("payload_chunk_".toList ++ zero_padded 4 index)

/-! ## Chunks -/

def validate_patch (length : ℕ) (previous_offset : ℤ) (patch : Json) : Except PyError Patch :=
  match patch with
  | .obj patch => do
    require (only_keys patch ["offset", "byte"] = true ∧ (Dict.get patch "offset").isSome ∧
      (Dict.get patch "byte").isSome)
    let offset ← checked (natural (field patch "offset"))
    require (offset < length)
    require (previous_offset < offset)
    let byte ← checked (byte_value (field patch "byte"))
    .ok ⟨offset, byte⟩
  | _ => .error .ContainerError

/-- The loop over the residuals of a chunk. -/
def validate_patches (length : ℕ) : ℤ → List Json → Except PyError (List Patch)
  | _, [] => .ok []
  | previous_offset, patch :: rest => do
    let patch ← validate_patch length previous_offset patch
    let patches ← validate_patches length patch.offset rest
    .ok (patch :: patches)

/-- A hash that may be missing. -/
def optional_sha256 (chunk : Dict) (key default : String) : Except PyError String :=
  match Dict.get chunk key with
  | none => .ok default
  | some v => checked (sha256_text v)

/-- `_validate_chunk` -/
def validate_chunk (floats : FloatOps) (expected_index expected_offset chunk_size : ℕ)
    (chunk : Json) : Except PyError Chunk :=
  match chunk with
  | .obj chunk => do
    require (∀ key ∈ REQUIRED_CHUNK_FIELDS, (Dict.get chunk key).isSome)
    require (equals floats (field chunk "index") expected_index = true)
    require (field chunk "name" = .str (chunk_name expected_index))
    require (equals floats (field chunk "offset") expected_offset = true)
    let length ← checked (natural (field chunk "length"))
    require (length ≤ chunk_size)
    require (length ≠ 0)
    let basis ← checked (basis_value (field chunk "basis"))
    let transform ← checked (transform_value ((Dict.get chunk "transform").getD (.str "identity")))
    let transform_param ← checked (natural ((Dict.get chunk "transform_param").getD (.int 0)))
    let start_byte ← checked (byte_value (field chunk "start_byte"))
    let delta ← checked (byte_value ((Dict.get chunk "delta").getD (.int 0)))
    let residual_count ← checked (natural (field chunk "residual_count"))
    match field chunk "residuals" with
    | .arr residuals => do
      require (residuals.length = residual_count)
      let chunk_sha256 ← checked (sha256_text (field chunk "chunk_sha256"))
      let transformed_sha256 ← optional_sha256 chunk "transformed_sha256" chunk_sha256
      let original_chunk_sha256 ← optional_sha256 chunk "original_chunk_sha256" chunk_sha256
      let residuals ← validate_patches length (-1) residuals
      .ok ⟨expected_index, expected_offset, length, basis, start_byte, delta, transform,
        transform_param, residuals, chunk_sha256, transformed_sha256, original_chunk_sha256⟩
    | _ => .error .ContainerError
  | _ => .error .ContainerError

/-- The loop over the chunks. -/
def validate_chunks (floats : FloatOps) (chunk_size : ℕ) : ℕ → ℕ → List Json → Except PyError (List Chunk)
  | _, _, [] => .ok []
  | expected_index, expected_offset, chunk :: rest => do
    let chunk ← validate_chunk floats expected_index expected_offset chunk_size chunk
    let chunks ←
      validate_chunks floats chunk_size (expected_index + 1) (expected_offset + chunk.length) rest
    .ok (chunk :: chunks)

/-! ## The metadata -/

section Metadata

variable (floats : FloatOps)

/-- `_validate_tournament_metadata` -/
def validate_tournament_metadata (container : Dict) (chunk_size total_residual_count : ℕ) :
    Except PyError Unit :=
  match (Dict.get container "chunk_tournament_enabled").getD (.bool false),
      (Dict.get container "candidate_chunk_sizes").getD (.arr [field container "chunk_size"]) with
  | .bool enabled, .arr sizes => do
    require (∀ size ∈ sizes, ∃ n ∈ int_value size, 0 < n)
    require (equals floats ((Dict.get container "selected_chunk_size").getD
      (field container "chunk_size")) chunk_size = true)
    require (equals floats ((Dict.get container "selected_total_residual_count").getD
      (field container "total_residual_count")) total_residual_count = true)
    match Dict.get container "selected_residual_density" with
    | none | some (.float _) => do
      match (Dict.get container "chunk_tournament_results").getD (.arr []) with
      | .arr _ => require (enabled = true → sizes = CANDIDATE_CHUNK_SIZES.map fun size => .int size)
      | _ => .error .ContainerError
    | _ => .error .ContainerError
  | _, _ => .error .ContainerError

def is_number : Json → Bool
  | .int _ | .bool _ | .float _ => true
  | _ => false

/-- `sum(values) == count` -/
def sum_equals (values : List Json) (count : ℤ) : Except PyError Bool :=
  match values.mapM int_value with
  | some ns => .ok (ns.sum = count)
  | none => if values.all is_number then floats.sum_eq values count else .error .TypeError

/-- `_validate_transform_metadata` -/
def validate_transform_metadata (container : Dict) (chunk_count : ℕ) : Except PyError Unit :=
  match (Dict.get container "transform_tournament_enabled").getD (.bool false),
      (Dict.get container "candidate_transforms").getD (.arr [.str "identity"]) with
  | .bool enabled, .arr transforms => do
    require (∀ transform ∈ transforms, (transform_value transform).isSome)
    require (enabled = true → transforms = TRANSFORM_ORDER.map fun transform => .str transform.name)
    match (Dict.get container "selected_transform_counts").getD
        (.obj [("identity", field container "chunk_count")]) with
    | .obj counts => do
      let equal ← sum_equals floats (counts.map Prod.snd) chunk_count
      require (equal = true)
    | _ => .error .ContainerError
  | _, _ => .error .ContainerError

def validate_bog_container (container : Json) : Except PyError Contents :=
  match container with
  | .obj container => do
    require (∀ key ∈ REQUIRED_TOP_LEVEL_FIELDS, (Dict.get container key).isSome)
    require (field container "format" = .str BOG_FORMAT)
    require (field container "vm_format" = .str BOGBIN_FORMAT)
    require (field container "pack_mode" = .str "chunked")
    let chunk_size ← checked (natural (field container "chunk_size"))
    require (chunk_size ≠ 0)
    let chunk_count ← checked (natural (field container "chunk_count"))
    let total_residual_count ← checked (natural (field container "total_residual_count"))
    let whole_sha256 ← checked (sha256_text (field container "whole_sha256"))
    match field container "chunks" with
    | .arr chunks => do
      require (chunks.length = chunk_count)
      let chunks ← validate_chunks floats chunk_size 0 0 chunks
      require ((chunks.map Chunk.residual_count).sum = total_residual_count)
      validate_tournament_metadata floats container chunk_size total_residual_count
      validate_transform_metadata floats container chunk_count
      .ok ⟨chunk_size, whole_sha256, total_residual_count, chunks⟩
    | _ => .error .ContainerError
  | _ => .error .ContainerError

end Metadata

/-- An integer of the schema; a float never comes here, as it has been refused before. -/
def schema_integer (v : Json) (minimum : ℤ) : Bool :=
  match v with
  | .int n => minimum ≤ n
  | _ => false

/-- `bogpk-metadata.schema.json` -/
def valid_metadata (container : Json) : Bool :=
  match container with
  | .obj container =>
    REQUIRED_TOP_LEVEL_FIELDS.all (fun key => (Dict.get container key).isSome) &&
      field container "format" = .str BOG_FORMAT && field container "vm_format" = .str BOGBIN_FORMAT &&
      field container "pack_mode" = .str "chunked" && schema_integer (field container "chunk_size") 1 &&
      schema_integer (field container "chunk_count") 0 &&
      str_field container "whole_sha256" (hex_pattern 64) &&
      schema_integer (field container "total_residual_count") 0 &&
      match field container "chunks" with
      | .arr _ => true
      | _ => false
  | _ => false

/-- `validate_schema(container, "bogpk-metadata.schema.json")` -/
def validate_schema (container : Json) : Except PyError Unit :=
  reject_if (valid_metadata container = false) .SchemaError

/-! ## Reconstruction -/

/-- Write the residual bytes into the generated ones. -/
def apply_patches : Bytes → List Patch → Except PyError Bytes
  | data, [] => .ok data
  | data, patch :: rest => do
    require (patch.offset < data.length)
    apply_patches (data.set patch.offset patch.byte) rest

/-- The original bytes of a chunk. -/
def reconstruct_chunk (chunk : Chunk) : Except PyError Bytes := do
  let generated ← synthesize_basis chunk.basis chunk.start_byte.toNat chunk.length chunk.delta.toNat
  let chunk_bytes ← apply_patches generated chunk.residuals
  require (hexdigest chunk_bytes = chunk.chunk_sha256)
  require (hexdigest chunk_bytes = chunk.transformed_sha256)
  let original ← invert_transform chunk.transform chunk_bytes chunk.transform_param
  require (hexdigest original = chunk.original_chunk_sha256)
  .ok original

/-- `chunks_by_index[index]` -/
def chunk_at (chunks : List Chunk) (index : ℕ) : Except PyError Chunk :=
  match chunks.find? fun chunk => chunk.index = index with
  | some chunk => .ok chunk
  | none => .error .KeyError

def reconstruct_contents (contents : Contents) : Except PyError Bytes := do
  let chunks := contents.chunks
  require (chunks.map Chunk.index).Nodup
  require (∀ index < chunks.length, index ∈ chunks.map Chunk.index)
  let originals ← (List.range chunks.length).mapM fun index => do
    let chunk ← chunk_at chunks index
    reconstruct_chunk chunk
  require (hexdigest originals.flatten = contents.whole_sha256)
  .ok originals.flatten

def reconstruct_bog_container_bytes (floats : FloatOps) (container : Json) : Except PyError Bytes := do
  let contents ← validate_bog_container floats container
  reconstruct_contents contents

end Bogbin.Container
