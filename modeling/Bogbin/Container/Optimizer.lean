import Bogbin.Container.Grammar

/-!
# The builder of containers

`optimize_residual_plan` picks the basis that leaves the fewest residuals, the tournament of the
transforms the cheapest of their plans, and `build_bog_container_v1` writes the chunks of a plan as a
container.  The keys of the candidates are compared from the left; the fields behind the index of a
candidate never decide, and are left out.
-/

namespace Bogbin.Container

open Bogvm Vm

namespace Transform

/-- `TRANSFORM_COSTS` -/
def cost : Transform → ℕ
  | identity => 0
  | xor_previous => 1
  | delta_previous => 1
  | nibble_split => 1
  | mtf => 8
  | bwt => 16
  | bwt_mtf => 24

end Transform

/-- `BASIS_COSTS` -/
def basis_cost : Basis → ℕ
  | .zero_block => 0
  | .repeat_byte => 1
  | .delta_u8 => 2
  | .dictionary_u8 => 3
  | .rle_u8 => 3
  | .ramp_u8 => 2
  | .triangle_u8 => 4
  | .sine8_u8 => 5
  | .fourier8_u8 => 6

/-- Raise if this does not hold. -/
def ensure (c : Prop) [Decidable c] : Except PyError Unit := reject_if (¬c) .OptimizerError

/-- The first item with the least key; `best` is `None` for no items, which the callers never have. -/
def least {α : Type} (key : α → List ℕ) : List α → Except PyError α
  | [] => .error .OptimizerError
  | first :: rest =>
    .ok (rest.foldl (fun best candidate => if key candidate < key best then candidate else best) first)

/-! ## Residual plans -/

/-- `min(range(256), key=lambda value: (-counts[value], value))` -/
def most_counted (counts : ℕ → ℕ) : UInt8 :=
  UInt8.ofNat ((List.range 256).foldl (fun best value => if counts best < counts value then value else best) 0)

/-- `_most_common_byte` -/
def most_common_byte (data : Bytes) : UInt8 :=
  if data = [] then 0 else most_counted fun value => data.count (UInt8.ofNat value)

/-- The count of the offsets at which a line with this slope starts at a value. -/
def start_count (data : Bytes) (delta value : ℕ) : ℕ :=
  data.zipIdx.countP fun item => ((item.1.toNat : ℤ) - item.2 * delta) % 256 = value

/-- `_coefficient_tuples_for_basis` -/
def coefficient_tuples_for_basis (basis : Basis) (data : Bytes) : List (UInt8 × UInt8) :=
  match basis with
  | .zero_block => [(0, 0)]
  | .delta_u8 =>
    (List.range 256).map fun delta => (most_counted (start_count data delta), UInt8.ofNat delta)
  | .dictionary_u8 | .rle_u8 => [(most_common_byte data, 0)]
  | _ => all_bytes.map fun start_byte => (start_byte, 0)

/-- A basis with its coefficients. -/
structure Candidate where
  basis : Basis
  start_byte : UInt8
  delta : UInt8
  deriving DecidableEq, Repr

/-- The bytes of a candidate; its coefficients are bytes, so that `synthesize_basis` does not raise. -/
def Candidate.generated (candidate : Candidate) (length : ℕ) : Bytes :=
  candidate.basis.bytes candidate.start_byte.toNat length candidate.delta.toNat

/-- The bytes that differ, from an offset on. -/
def residuals_from (offset : ℕ) : Bytes → Bytes → List Patch
  | actual :: data, expected :: generated =>
    if actual ≠ expected then ⟨offset, actual⟩ :: residuals_from (offset + 1) data generated
    else residuals_from (offset + 1) data generated
  | _, _ => []

/-- The number of the bytes that differ. -/
def residual_count_of (data generated : Bytes) : ℕ :=
  (data.zip generated).countP fun pair => pair.1 ≠ pair.2

def candidates (data : Bytes) : List Candidate :=
  BASIS_ORDER.flatMap fun basis =>
    (coefficient_tuples_for_basis basis data).map fun pair => ⟨basis, pair.1, pair.2⟩

def candidate_key (data : Bytes) (candidate : Candidate) : List ℕ :=
  [residual_count_of data (candidate.generated data.length), BASIS_ORDER.idxOf candidate.basis,
    candidate.start_byte.toNat, candidate.delta.toNat]

structure ResidualPlan where
  basis : Basis
  start_byte : UInt8
  delta : UInt8
  length : ℕ
  sha256 : String
  residual_count : ℕ
  residuals : List Patch
  reconstructed_hash : String

/-- `_apply_residuals` -/
def apply_residuals : ℤ → Bytes → List Patch → Except PyError Bytes
  | _, reconstructed, [] => .ok reconstructed
  | previous_offset, reconstructed, patch :: rest => do
    ensure (previous_offset < patch.offset)
    ensure (patch.offset < reconstructed.length)
    apply_residuals patch.offset (reconstructed.set patch.offset patch.byte) rest

/-- `_assert_exact_reconstruction` -/
def assert_exact_reconstruction (plan : ResidualPlan) (data : Bytes) : Except PyError Unit := do
  let generated ← synthesize_basis plan.basis plan.start_byte.toNat plan.length plan.delta.toNat
  let reconstructed ← apply_residuals (-1) generated plan.residuals
  ensure (plan.length = data.length)
  ensure (plan.sha256 = hexdigest data)
  ensure (plan.residual_count = plan.residuals.length)
  ensure (hexdigest reconstructed = hexdigest data)
  ensure (plan.reconstructed_hash = hexdigest reconstructed)

def optimize_residual_plan (data : Bytes) : Except PyError ResidualPlan := do
  let best ← least (candidate_key data) (candidates data)
  let generated := best.generated data.length
  let residuals := residuals_from 0 data generated
  let reconstructed ← apply_residuals (-1) generated residuals
  let plan : ResidualPlan := ⟨best.basis, best.start_byte, best.delta, data.length, hexdigest data,
    residual_count_of data generated, residuals, hexdigest reconstructed⟩
  assert_exact_reconstruction plan data
  .ok plan

/-! ## The tournament of the transforms -/

def varuint_size_loop : ℕ → ℕ → ℕ
  | 0, _ => 0
  | fuel + 1, value => if value = 0 then 0 else 1 + varuint_size_loop fuel (value / 128)

/-- `_varuint_size` -/
def varuint_size (value : ℕ) : ℕ := 1 + varuint_size_loop value (value / 128)

/-- `_estimate_delta_residual_size` -/
def estimate_delta_residual_size (previous : Option ℕ) : List Patch → ℕ
  | [] => 0
  | patch :: rest =>
    varuint_size (match previous with
      | none => patch.offset
      | some offset => patch.offset - offset - 1) + 1 +
      estimate_delta_residual_size (some patch.offset) rest

/-- A residual plan of the transformed bytes. -/
structure TransformedPlan where
  plan : ResidualPlan
  transform : Transform
  transform_param : ℕ
  original_sha256 : String

structure Score where
  container_size : ℕ
  transform_cost : ℕ
  decode_cost : ℕ
  total_cost : ℕ

def score_reconstruction_plan (candidate : TransformedPlan) : Score :=
  let plan := candidate.plan
  let descriptor_size := 3 + if candidate.transform.is_bwt then 1 else 0
  let residual_delta_size := estimate_delta_residual_size none plan.residuals
  let residual_bitmask_size := (plan.length + 7) / 8 + plan.residual_count
  let residual_size := if plan.residual_count = 0 then residual_delta_size
    else min residual_delta_size residual_bitmask_size
  let container_size := descriptor_size + varuint_size plan.residual_count + residual_size
  let transform_cost := candidate.transform.cost
  let decode_cost := plan.length + plan.residual_count + transform_cost + basis_cost plan.basis
  ⟨container_size, transform_cost, decode_cost,
    container_size * 16 + plan.residual_count + transform_cost + decode_cost⟩

def transformed_key (candidate : TransformedPlan) : List ℕ :=
  let score := score_reconstruction_plan candidate
  [score.total_cost, score.container_size, candidate.plan.residual_count, score.decode_cost,
    score.transform_cost, TRANSFORM_ORDER.idxOf candidate.transform]

/-- The plan of one transform. -/
def transformed_plan (data : Bytes) (transform : Transform) : Except PyError TransformedPlan := do
  let (transformed, transform_param) := apply_transform_with_param transform data
  let plan ← optimize_residual_plan transformed
  let restored ← invert_transform transform transformed transform_param
  ensure (restored = data)
  .ok ⟨plan, transform, transform_param, hexdigest data⟩

def optimize_transformed_residual_plan (data : Bytes) : Except PyError TransformedPlan := do
  let plans ← TRANSFORM_ORDER.mapM (transformed_plan data)
  let best ← least transformed_key plans
  let transformed := apply_transform best.transform data
  assert_exact_reconstruction best.plan transformed
  let restored ← invert_transform best.transform transformed best.transform_param
  ensure (hexdigest restored = best.original_sha256)
  .ok best

/-! ## Chunked plans -/

/-- `data[offset:offset + chunk_size]`, for the offsets in `range(0, len(data), chunk_size)` -/
def slice (chunk_size : ℕ) (data : Bytes) (index : ℕ) : Bytes :=
  (data.drop (index * chunk_size)).take chunk_size

/-- The chunk of an index in the plan of the identity. -/
def plain_chunk (chunk_size index : ℕ) (chunk : Bytes) : Except PyError Chunk := do
  let plan ← optimize_residual_plan chunk
  assert_exact_reconstruction plan chunk
  let sha256 := hexdigest chunk
  .ok ⟨index, index * chunk_size, plan.length, plan.basis, plan.start_byte, plan.delta, .identity, 0,
    plan.residuals, sha256, sha256, sha256⟩

/-- The chunk of an index in the plan of the tournament. -/
def transformed_chunk (chunk_size index : ℕ) (chunk : Bytes) : Except PyError Chunk := do
  let best ← optimize_transformed_residual_plan chunk
  let plan := best.plan
  .ok ⟨index, index * chunk_size, plan.length, plan.basis, plan.start_byte, plan.delta, best.transform,
    best.transform_param, plan.residuals, plan.sha256, plan.sha256, best.original_sha256⟩

structure ChunkedPlan where
  chunk_size : ℕ
  chunks : List Chunk
  total_residual_count : ℕ
  whole_sha256 : String
  length : ℕ

/-- `_optimize_chunked_plan` -/
def optimize_chunked_plan (data : Bytes) (chunk_size : ℕ) (transform_tournament : Bool) :
    Except PyError ChunkedPlan := do
  reject_if (chunk_size = 0) .ValueError
  reject_if (65535 < chunk_size) .ValueError
  let chunk_plan := if transform_tournament then transformed_chunk else plain_chunk
  let chunks ← (List.range (chunk_count_of chunk_size data.length)).mapM fun index =>
    chunk_plan chunk_size index (slice chunk_size data index)
  .ok ⟨chunk_size, chunks, (chunks.map Chunk.residual_count).sum, hexdigest data, data.length⟩

/-! ## Containers -/

/-- `transform_counts` -/
def plan_transform_counts (plan : ChunkedPlan) (transform_tournament : Bool) : Dict :=
  if transform_tournament then transform_counts plan.chunks
  else Dict.of [("identity", .int plan.chunks.length)]

/-- The result of a chunk size. -/
def tournament_result (floats : FloatOps) (transform_tournament : Bool) (plan : ChunkedPlan) : Json :=
  let result := Dict.of [("chunk_size", .int plan.chunk_size), ("chunk_count", .int plan.chunks.length),
    ("total_residual_count", .int plan.total_residual_count),
    ("residual_density", residual_density floats plan.total_residual_count plan.length)]
  .obj (if transform_tournament then
    Dict.set result "transform_counts" (.obj (plan_transform_counts plan true)) else result)

/-- Plans with one total have one density. -/
def chunked_key (plan : ChunkedPlan) : List ℕ :=
  [plan.total_residual_count, plan.chunks.length, plan.chunk_size]

def optimize_adaptive_chunked_residual_plan (floats : FloatOps) (data : Bytes)
    (transform_tournament : Bool) : Except PyError (ChunkedPlan × List Json) := do
  let plans ← CANDIDATE_CHUNK_SIZES.mapM fun chunk_size =>
    optimize_chunked_plan data chunk_size transform_tournament
  let best ← least chunked_key plans
  .ok (best, plans.map (tournament_result floats transform_tournament))

/-- `build_bog_container_from_plan` -/
def build_bog_container_from_plan (floats : FloatOps) (plan : ChunkedPlan) (auto_chunk : Bool)
    (tournament_results : List Json) (transform_tournament : Bool) : Json :=
  .obj (Dict.of [("format", .str BOG_FORMAT), ("vm_format", .str BOGBIN_FORMAT),
    ("pack_mode", .str "chunked"), ("chunk_size", .int plan.chunk_size),
    ("chunk_count", .int plan.chunks.length), ("whole_sha256", .str plan.whole_sha256),
    ("total_residual_count", .int plan.total_residual_count),
    ("chunks", .arr (plan.chunks.map chunk_json)), ("chunk_tournament_enabled", .bool auto_chunk),
    ("candidate_chunk_sizes", .arr (if auto_chunk then CANDIDATE_CHUNK_SIZES.map fun size : ℕ => .int size
      else [.int plan.chunk_size])),
    ("selected_chunk_size", .int plan.chunk_size),
    ("selected_total_residual_count", .int plan.total_residual_count),
    ("selected_residual_density", residual_density floats plan.total_residual_count plan.length),
    ("chunk_tournament_results", .arr tournament_results),
    ("transform_tournament_enabled", .bool transform_tournament),
    ("candidate_transforms", .arr (if transform_tournament then
      TRANSFORM_ORDER.map fun transform => .str transform.name else [.str "identity"])),
    ("selected_transform_counts", .obj (plan_transform_counts plan transform_tournament))])

def build_bog_container_v1 (floats : FloatOps) (data : Bytes) (chunk_size : ℕ) (auto_chunk : Bool)
    (transform_tournament : Bool) : Except PyError Json :=
  if auto_chunk then do
    let (plan, tournament_results) ←
      optimize_adaptive_chunked_residual_plan floats data transform_tournament
    .ok (build_bog_container_from_plan floats plan auto_chunk tournament_results transform_tournament)
  else do
    let plan ← optimize_chunked_plan data chunk_size transform_tournament
    .ok (build_bog_container_from_plan floats plan auto_chunk [] transform_tournament)

end Bogbin.Container
