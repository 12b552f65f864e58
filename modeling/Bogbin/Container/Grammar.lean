import Bogbin.Container.Decoder

/-!
# The grammar of BOGPK-0.1

`spec/BOGPK_0_1.md`: a stream is a header, the descriptor records and the residual data.  A record is
a chunk, or a run of equal chunks without residuals.  What a stream describes is its plan, and
`Stream.Legal` says which plans the grammar admits; the choice of the residual encoding and of the
runs is free.
-/

namespace Bogbin.Container

open Bogvm Vm

/-- A chunk of a plan, with the choice of its residual encoding. -/
structure ChunkPlan where
  transform : Transform
  basis : Basis
  start_byte : UInt8
  delta : UInt8
  transform_param : ℕ
  residuals : List Patch
  bitmask : Bool
  deriving DecidableEq, Repr

namespace ChunkPlan

/-- The bytes of a chunk before the inversion of its transform. -/
def transformed (plan : ChunkPlan) (length : ℕ) : Bytes :=
  transformed_bytes plan.basis plan.start_byte plan.delta length plan.residuals

/-- The bytes of a chunk; the inversion of a legal chunk gives bytes (`ChunkPlan.Legal.invert`). -/
def original (plan : ChunkPlan) (length : ℕ) : Bytes :=
  match invert_transform plan.transform (plan.transformed length) plan.transform_param with
  | .ok data => data
  | .error _ => []

/-- Rising offsets inside of the chunk, and a primary index for the Burrows-Wheeler transforms. -/
structure Legal (length : ℕ) (plan : ChunkPlan) : Prop where
  rising : Rising length 0 plan.residuals
  transform_param : if plan.transform.is_bwt then plan.transform_param < length
    else plan.transform_param = 0

/-- What the descriptor stream says of the chunk. -/
def descriptor (plan : ChunkPlan) : Descriptor :=
  ⟨plan.transform, plan.basis, plan.start_byte, plan.delta, plan.transform_param, plan.residuals.length,
    plan.bitmask⟩

/-- The start of a record. -/
def head (plan : ChunkPlan) : Bytes :=
  encode_descriptor plan.transform plan.basis plan.bitmask :: plan.start_byte :: plan.delta ::
    transform_param_bytes plan.transform plan.transform_param

/-- The residual data; there is none without residuals, whatever the encoding is. -/
def residual_data (plan : ChunkPlan) (length : ℕ) : Bytes :=
  if plan.residuals = [] then [] else residual_bytes length plan.residuals plan.bitmask

end ChunkPlan

inductive Record
  | chunk (plan : ChunkPlan)
  | run (run_length : ℕ) (plan : ChunkPlan)
  deriving DecidableEq, Repr

namespace Record

def plans : Record → List ChunkPlan
  | chunk plan => [plan]
  | run run_length plan => List.replicate run_length plan

/-- A run has at least two chunks, without residuals, and the flag of the header allows it. -/
def Legal (runs : Bool) : Record → Prop
  | chunk _ => True
  | run run_length plan => runs = true ∧ 2 ≤ run_length ∧ plan.residuals = []

def bytes : Record → Bytes
  | chunk plan => plan.head ++ encode_varuint plan.residuals.length
  | run run_length plan => BOGPK_DESCRIPTOR_SENTINEL :: encode_varuint run_length ++ plan.head

end Record

structure Stream where
  runs : Bool
  chunk_size : ℕ
  original_length : ℕ
  records : List Record
  deriving DecidableEq, Repr

namespace Stream

def plans (stream : Stream) : List ChunkPlan := stream.records.flatMap Record.plans

def total_residual_count (stream : Stream) : ℕ :=
  (stream.plans.map fun plan => plan.residuals.length).sum

end Stream

/-- `ceil(original_length / chunk_size)` -/
def chunk_count_of (chunk_size original_length : ℕ) : ℕ :=
  if original_length = 0 then 0 else (original_length + chunk_size - 1) / chunk_size

/-- The implied length of a chunk. -/
def chunk_length (chunk_size original_length chunk_count index : ℕ) : ℕ :=
  if index + 1 < chunk_count then chunk_size else original_length - (chunk_count - 1) * chunk_size

namespace Stream

def chunk_count (stream : Stream) : ℕ := chunk_count_of stream.chunk_size stream.original_length

def length_at (stream : Stream) (index : ℕ) : ℕ :=
  chunk_length stream.chunk_size stream.original_length stream.chunk_count index

/-- What the grammar admits. -/
structure Legal (stream : Stream) : Prop where
  chunk_size : stream.chunk_size ∈ CANDIDATE_CHUNK_SIZES
  chunk_count : stream.plans.length = stream.chunk_count
  records : ∀ record ∈ stream.records, record.Legal stream.runs
  plans : ∀ (index : ℕ) (plan : ChunkPlan), stream.plans[index]? = some plan → plan.Legal (stream.length_at index)

/-- The bytes of the chunks. -/
def payload (stream : Stream) : Bytes :=
  (stream.plans.mapIdx fun index plan => plan.original (stream.length_at index)).flatten

/-- The stream in bytes, with the hash of the payload. -/
def bytes (stream : Stream) : Bytes :=
  BOGPK_MAGIC ++ [BOGPK_VERSION, if stream.runs then BOGPK_FLAG_ZERO_RESIDUAL_RUNS else 0,
      UInt8.ofNat (CANDIDATE_CHUNK_SIZES.idxOf stream.chunk_size)] ++
    encode_varuint stream.original_length ++ encode_varuint stream.chunk_count ++
    encode_varuint stream.total_residual_count ++ (Core.sha256_standard stream.payload).val ++
    stream.records.flatMap Record.bytes ++
    (stream.plans.mapIdx fun index plan => plan.residual_data (stream.length_at index)).flatten

/-- The header of the stream. -/
def header (stream : Stream) : Header :=
  ⟨stream.runs, stream.chunk_size, stream.original_length, stream.chunk_count,
    stream.total_residual_count, hexdigest stream.payload⟩

/-- The chunk of the plan at an index. -/
def chunk_at (stream : Stream) (index : ℕ) (plan : ChunkPlan) : Chunk :=
  let length := stream.length_at index
  chunk_of stream.header index plan.descriptor length plan.residuals (plan.transformed length)
    (plan.original length)

/-- The plan of the stream, as the chunks of a container. -/
def chunks (stream : Stream) : List Chunk := stream.plans.mapIdx stream.chunk_at

end Stream

end Bogbin.Container
