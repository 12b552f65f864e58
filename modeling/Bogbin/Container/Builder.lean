import Bogbin.Container.Inversion
import Bogbin.Container.Optimizer
import Bogbin.Container.Tracks

/-!
# Round trips of built containers

Every plan of the optimizer is exact (`optimize_residual_plan_ok`), whatever it picks, and its chunks
are the slices of the data.  A built container is encoded and decoded to the same chunks and the same
data, as long as the length fits into ten digits (`container_round_trip`).
-/

namespace Bogbin.Container

open Bogvm Vm StateExcept

/-! ## Residual plans -/

section Residuals

variable {data generated front : Bytes} {offset : ℕ} {previous : ℤ} {length : ℕ} {patches : List Patch}

theorem ensure_eq_ok {c : Prop} [Decidable c] {u : Unit} : ensure c = .ok u ↔ c := by
  unfold ensure
  rw [reject_if_eq_ok, not_not]

theorem ensure_of {c : Prop} [Decidable c] (h : c) : ensure c = .ok () := ensure_eq_ok.mpr h

/-- The first item with the least key is one of the items. -/
theorem least_ok {α : Type} {key : α → List ℕ} {items : List α} (h : items ≠ []) :
    ∃ best ∈ items, least key items = .ok best := by
  cases items with
  | nil => exact absurd rfl h
  | cons first rest =>
    refine ⟨_, ?_, rfl⟩
    clear h
    induction rest generalizing first with
    | nil => exact List.mem_singleton.mpr rfl
    | cons next rest ih =>
      rw [List.foldl_cons]
      split_ifs
      · exact List.mem_cons_of_mem _ (ih next)
      · rcases List.mem_cons.mp (ih first) with hmem | hmem
        · rw [hmem]
          exact List.mem_cons_self
        · exact List.mem_cons_of_mem _ (List.mem_cons_of_mem _ hmem)

theorem length_residuals_from (hlength : data.length = generated.length) :
    (residuals_from offset data generated).length = residual_count_of data generated := by
  induction data generalizing generated offset with
  | nil => rfl
  | cons actual data ih =>
    cases generated with
    | nil => cases hlength
    | cons expected generated =>
      have hrest := @ih generated (offset + 1) (Nat.succ.inj hlength)
      unfold residual_count_of at hrest ⊢
      rw [residuals_from, List.zip_cons_cons, List.countP_cons]
      by_cases hne : actual = expected
      · simp [hne, hrest]
      · simp [hne, hrest]

theorem rising_residuals_from {next : ℕ} (hlength : data.length = generated.length)
    (hend : offset + data.length = length) (hnext : next ≤ offset) :
    Rising length next (residuals_from offset data generated) := by
  induction data generalizing generated offset next with
  | nil => trivial
  | cons actual data ih =>
    cases generated with
    | nil => cases hlength
    | cons expected generated =>
      rw [List.length_cons] at hend
      rw [residuals_from]
      split_ifs
      · exact ⟨hnext, show offset < length by omega, ih (Nat.succ.inj hlength) (by omega) le_rfl⟩
      · exact ih (Nat.succ.inj hlength) (by omega) (by omega)

/-- Applying the residuals gives the data, behind a part that agrees. -/
theorem apply_residuals_from (hlength : data.length = generated.length) (hprevious : previous < front.length) :
    apply_residuals previous (front ++ generated) (residuals_from front.length data generated) =
      .ok (front ++ data) := by
  induction data generalizing generated front previous with
  | nil =>
    rw [List.length_eq_zero_iff.mp hlength.symm]
    rfl
  | cons actual data ih =>
    cases generated with
    | nil => cases hlength
    | cons expected generated =>
      have hrest (b : UInt8) {previous : ℤ} (h : previous < (front ++ [b]).length) :=
        @ih generated (front ++ [b]) previous (Nat.succ.inj hlength) h
      simp only [List.append_assoc, List.singleton_append, List.length_append, List.length_singleton] at hrest
      rw [residuals_from]
      split_ifs with hne
      · have hset : (front ++ expected :: generated).set front.length actual =
            front ++ actual :: generated := by simp
        rw [apply_residuals, ensure_of hprevious, StateExcept.ok_bind, ensure_of (by simp),
          StateExcept.ok_bind, hset]
        exact hrest actual (by push_cast; omega)
      · rw [not_not.mp hne]
        exact hrest expected (by push_cast; omega)

theorem apply_residuals_ok {result : Bytes} (h : apply_residuals previous data patches = .ok result) :
    result = patches.foldl (fun data patch => data.set patch.offset patch.byte) data := by
  induction patches generalizing previous data with
  | nil => exact (Except.ok.inj h).symm
  | cons patch rest ih =>
    obtain ⟨-, -, h⟩ := Bogbin.bind_eq_ok.mp h
    obtain ⟨-, -, h⟩ := Bogbin.bind_eq_ok.mp h
    exact ih h

/-- A plan that gives exactly these bytes. -/
structure ExactPlan (data : Bytes) (plan : ResidualPlan) : Prop where
  length : plan.length = data.length
  sha256 : plan.sha256 = hexdigest data
  rising : Rising data.length 0 plan.residuals
  transformed : transformed_bytes plan.basis plan.start_byte plan.delta data.length plan.residuals = data
  exact : assert_exact_reconstruction plan data = .ok ()

theorem candidates_ne_nil : candidates data ≠ [] := List.cons_ne_nil _ _

/-- The plan of a candidate. -/
def candidate_plan (data : Bytes) (best : Candidate) : ResidualPlan :=
  ⟨best.basis, best.start_byte, best.delta, data.length, hexdigest data,
    residual_count_of data (best.generated data.length),
    residuals_from 0 data (best.generated data.length), hexdigest data⟩

theorem apply_candidate_plan (data : Bytes) (best : Candidate) :
    apply_residuals (-1) (best.generated data.length) (candidate_plan data best).residuals = .ok data := by
  have hlength : data.length = (best.generated data.length).length := (Basis.length_bytes ..).symm
  have happly := @apply_residuals_from data (best.generated data.length) [] (-1) hlength (by simp)
  rwa [List.nil_append, List.nil_append, List.length_nil] at happly

theorem exact_candidate_plan (data : Bytes) (best : Candidate) :
    assert_exact_reconstruction (candidate_plan data best) data = .ok () := by
  have hlength : data.length = (best.generated data.length).length := (Basis.length_bytes ..).symm
  have hcount : (candidate_plan data best).residual_count =
      (candidate_plan data best).residuals.length := (length_residuals_from hlength).symm
  have hsynthesize : synthesize_basis (candidate_plan data best).basis
      (candidate_plan data best).start_byte.toNat (candidate_plan data best).length
      (candidate_plan data best).delta.toNat = .ok (best.generated data.length) :=
    synthesize_basis_ok (Nat.le_of_lt_succ (UInt8.toNat_lt _)) (Nat.le_of_lt_succ (UInt8.toNat_lt _))
  have hlength' : (candidate_plan data best).length = data.length := rfl
  have hsha256 : (candidate_plan data best).sha256 = hexdigest data := by rw [candidate_plan]
  have hreconstructed : (candidate_plan data best).reconstructed_hash = hexdigest data := by
    rw [candidate_plan]
  unfold assert_exact_reconstruction
  rw [hsynthesize, StateExcept.ok_bind, apply_candidate_plan, StateExcept.ok_bind, ensure_of hlength',
    StateExcept.ok_bind, ensure_of hsha256, StateExcept.ok_bind, ensure_of hcount, StateExcept.ok_bind,
    ensure_of rfl, StateExcept.ok_bind, ensure_of hreconstructed]

/-- The plan of the optimizer is that of the candidate it picks. -/
theorem optimize_residual_plan_of_least {best : Candidate}
    (h : least (candidate_key data) (candidates data) = .ok best) :
    optimize_residual_plan data = .ok (candidate_plan data best) := by
  have happly := apply_candidate_plan data best
  have hexact := exact_candidate_plan data best
  unfold candidate_plan at happly hexact ⊢
  unfold optimize_residual_plan
  rw [h, StateExcept.ok_bind]
  dsimp only at happly ⊢
  rw [happly, StateExcept.ok_bind, hexact, StateExcept.ok_bind]

/-- The optimizer finds an exact plan for any bytes. -/
theorem optimize_residual_plan_ok (data : Bytes) :
    ∃ plan, optimize_residual_plan data = .ok plan ∧ ExactPlan data plan := by
  obtain ⟨best, -, hbest⟩ := @least_ok _ (candidate_key data) _ (@candidates_ne_nil data)
  have hlength : data.length = (best.generated data.length).length := (Basis.length_bytes ..).symm
  refine ⟨candidate_plan data best, optimize_residual_plan_of_least hbest, rfl, ?_,
    rising_residuals_from hlength (Nat.zero_add _) le_rfl,
    (apply_residuals_ok (apply_candidate_plan data best)).symm, exact_candidate_plan data best⟩
  rw [candidate_plan]

end Residuals

/-! ## Chunks -/

section Chunks

variable {data bytes : Bytes} {chunk_size index : ℕ} {transform : Transform} {plan : TransformedPlan}
  {chunk : Chunk} {transform_tournament : Bool}

/-- A plan of the tournament for these bytes. -/
structure ExactTransformedPlan (data : Bytes) (plan : TransformedPlan) : Prop where
  exact : ExactPlan (apply_transform plan.transform data) plan.plan
  transform_param : plan.transform_param = (apply_transform_with_param plan.transform data).2
  original_sha256 : plan.original_sha256 = hexdigest data

theorem ExactTransformedPlan.invert (h : ExactTransformedPlan data plan) :
    invert_transform plan.transform (apply_transform plan.transform data) plan.transform_param =
      .ok data := by
  rw [h.transform_param]
  exact invert_apply_transform plan.transform data

theorem transformed_plan_ok (data : Bytes) (transform : Transform) :
    ∃ plan, transformed_plan data transform = .ok plan ∧ ExactTransformedPlan data plan := by
  obtain ⟨plan, hplan, hexact⟩ := optimize_residual_plan_ok (apply_transform transform data)
  unfold apply_transform at hplan
  refine ⟨⟨plan, transform, (apply_transform_with_param transform data).2, hexdigest data⟩, ?_, hexact,
    rfl, by with_reducible rfl⟩
  unfold transformed_plan
  dsimp only
  rw [hplan, StateExcept.ok_bind, invert_apply_transform, StateExcept.ok_bind, ensure_of rfl,
    StateExcept.ok_bind]

theorem optimize_transformed_residual_plan_ok (data : Bytes) :
    ∃ plan, optimize_transformed_residual_plan data = .ok plan ∧ ExactTransformedPlan data plan := by
  obtain ⟨plans, hplans, hexact⟩ := exists_mapM_forall₂ fun transform
    (_ : transform ∈ TRANSFORM_ORDER) => transformed_plan_ok data transform
  have hne : plans ≠ [] := by
    rintro rfl
    exact absurd hexact.length_eq (by decide)
  obtain ⟨best, hmem, hbest⟩ := @least_ok _ transformed_key plans hne
  obtain ⟨-, -, hplan⟩ := forall₂_mem hexact best hmem
  refine ⟨best, ?_, hplan⟩
  unfold optimize_transformed_residual_plan
  rw [hplans, StateExcept.ok_bind, hbest, StateExcept.ok_bind]
  dsimp only
  rw [hplan.exact.exact, StateExcept.ok_bind, hplan.invert, StateExcept.ok_bind,
    ensure_of hplan.original_sha256.symm, StateExcept.ok_bind]

/-- A chunk that is built for these bytes. -/
structure BuiltChunk (chunk_size index : ℕ) (bytes : Bytes) (chunk : Chunk) : Prop where
  index_eq : chunk.index = index
  offset_eq : chunk.offset = index * chunk_size
  length_eq : chunk.length = bytes.length
  rising : Rising bytes.length 0 chunk.residuals
  transform_param : chunk.transform.is_bwt = false → chunk.transform_param = 0
  invert : ∃ transformed, transformed = transformed_bytes chunk.basis chunk.start_byte chunk.delta
      bytes.length chunk.residuals ∧ invert_transform chunk.transform transformed chunk.transform_param =
        .ok bytes ∧ chunk.chunk_sha256 = hexdigest transformed ∧
      chunk.transformed_sha256 = hexdigest transformed
  original_chunk_sha256 : chunk.original_chunk_sha256 = hexdigest bytes

theorem plain_chunk_ok (chunk_size index : ℕ) (bytes : Bytes) :
    ∃ chunk, plain_chunk chunk_size index bytes = .ok chunk ∧
      BuiltChunk chunk_size index bytes chunk := by
  obtain ⟨plan, hplan, hexact⟩ := optimize_residual_plan_ok bytes
  refine ⟨⟨index, index * chunk_size, plan.length, plan.basis, plan.start_byte, plan.delta, .identity, 0,
    plan.residuals, hexdigest bytes, hexdigest bytes, hexdigest bytes⟩, ?_, rfl, rfl, hexact.length,
    hexact.rising, fun _ => rfl, ⟨bytes, hexact.transformed.symm, rfl, ?_, ?_⟩, ?_⟩
  · unfold plain_chunk
    rw [hplan, StateExcept.ok_bind, hexact.exact, StateExcept.ok_bind]
  all_goals with_reducible rfl

theorem transform_param_of_not_bwt (h : transform.is_bwt = false) :
    (apply_transform_with_param transform data).2 = 0 := by
  cases transform with
  | bwt => cases h
  | bwt_mtf => cases h
  | _ => rfl

/-- An inversion keeps the length. -/
theorem length_of_invert {param : ℕ} {original : Bytes}
    (h : invert_transform transform data param = .ok original) : original.length = data.length := by
  by_cases hempty : data = []
  · subst hempty
    cases transform
    case bwt | bwt_mtf =>
      have hdecode : bwt_decode [] param = .ok original := h
      unfold bwt_decode at hdecode
      rw [if_pos rfl] at hdecode
      split_ifs at hdecode
      obtain rfl := Except.ok.inj hdecode
      rfl
    all_goals
      obtain rfl := Except.ok.inj h
      rfl
  · obtain ⟨original', hinvert, hlength⟩ := @invert_transform_ok data transform param fun hbwt =>
      invert_transform_param h hbwt hempty
    obtain rfl := Except.ok.inj (h.symm.trans hinvert)
    exact hlength

theorem transformed_chunk_ok (chunk_size index : ℕ) (bytes : Bytes) :
    ∃ chunk, transformed_chunk chunk_size index bytes = .ok chunk ∧
      BuiltChunk chunk_size index bytes chunk := by
  obtain ⟨best, hbest, h⟩ := optimize_transformed_residual_plan_ok bytes
  have hlength := length_of_invert h.invert
  have hrising := h.exact.rising
  have htransformed := h.exact.transformed
  rw [← hlength] at hrising htransformed
  refine ⟨⟨index, index * chunk_size, best.plan.length, best.plan.basis, best.plan.start_byte,
    best.plan.delta, best.transform, best.transform_param, best.plan.residuals, best.plan.sha256,
    best.plan.sha256, best.original_sha256⟩, ?_, rfl, rfl, h.exact.length.trans hlength.symm, hrising,
    fun hbwt => ?_, ⟨_, htransformed.symm, h.invert, h.exact.sha256, h.exact.sha256⟩, h.original_sha256⟩
  · unfold transformed_chunk
    rw [hbest, StateExcept.ok_bind]
  · exact h.transform_param.trans (transform_param_of_not_bwt hbwt)

theorem BuiltChunk.valid (h : BuiltChunk chunk_size index bytes chunk) (hpos : 0 < bytes.length)
    (hle : bytes.length ≤ chunk_size) : ValidChunk chunk_size chunk := by
  obtain ⟨transformed, -, -, hsha256, htransformed⟩ := h.invert
  refine ⟨by rwa [h.length_eq], by rwa [h.length_eq], by rw [h.length_eq]; exact h.rising, ?_, ?_, ?_⟩
  · rw [hsha256]
    exact isSha256_hexdigest _
  · rw [htransformed]
    exact isSha256_hexdigest _
  · rw [h.original_chunk_sha256]
    exact isSha256_hexdigest _

theorem BuiltChunk.reconstruct (h : BuiltChunk chunk_size index bytes chunk) :
    reconstruct_chunk chunk = .ok bytes := by
  obtain ⟨transformed, htransformed, hinvert, hsha256, htransformed_sha256⟩ := h.invert
  have hpatches : apply_patches (chunk.basis.bytes chunk.start_byte.toNat chunk.length
      chunk.delta.toNat) chunk.residuals = .ok transformed := by
    rw [htransformed, transformed_bytes, ← h.length_eq]
    have hrising : Rising (chunk.basis.bytes chunk.start_byte.toNat chunk.length
        chunk.delta.toNat).length 0 chunk.residuals := by
      rw [Basis.length_bytes, h.length_eq]
      exact h.rising
    exact apply_patches_eq hrising
  unfold reconstruct_chunk
  rw [synthesize_basis_ok (Nat.le_of_lt_succ (UInt8.toNat_lt _)) (Nat.le_of_lt_succ (UInt8.toNat_lt _)),
    StateExcept.ok_bind, hpatches, StateExcept.ok_bind, require_of hsha256.symm, StateExcept.ok_bind,
    require_of htransformed_sha256.symm, StateExcept.ok_bind, hinvert, StateExcept.ok_bind,
    require_of h.original_chunk_sha256.symm, StateExcept.ok_bind]

/-- The chunk of an index, with or without the tournament of the transforms. -/
theorem chunk_plan_ok (transform_tournament : Bool) (chunk_size index : ℕ) (bytes : Bytes) :
    ∃ chunk, (if transform_tournament then transformed_chunk else plain_chunk) chunk_size index bytes =
        .ok chunk ∧ BuiltChunk chunk_size index bytes chunk := by
  cases transform_tournament with
  | true => exact transformed_chunk_ok chunk_size index bytes
  | false => exact plain_chunk_ok chunk_size index bytes

end Chunks

/-! ## Chunked plans -/

section Plans

variable {data : Bytes} {chunk_size index n : ℕ} {chunks : List Chunk} {plan : ChunkedPlan}
  {transform_tournament : Bool}

theorem flatten_take (n : ℕ) :
    ((List.range n).map (slice chunk_size data)).flatten = data.take (n * chunk_size) := by
  induction n with
  | zero => simp
  | succ n ih =>
    rw [List.range_succ, List.map_append, List.flatten_append, ih, Nat.succ_mul, List.take_add]
    simp [slice]

/-- The slices make up the data. -/
theorem flatten_slices (hsize : 0 < chunk_size) : ((List.range (chunk_count_of chunk_size
    data.length)).map (slice chunk_size data)).flatten = data := by
  rw [flatten_take]
  refine List.take_of_length_le ?_
  by_cases hpos : 0 < chunk_count_of chunk_size data.length
  · exact (chunk_count_bounds hsize hpos).2
  · have hsum := @sum_chunk_length chunk_size data.length hsize
    rw [Nat.eq_zero_of_not_pos hpos] at hsum
    exact hsum ▸ Nat.zero_le _

theorem length_slice (hsize : 0 < chunk_size) (hindex : index < chunk_count_of chunk_size data.length) :
    (slice chunk_size data index).length =
      chunk_length chunk_size data.length (chunk_count_of chunk_size data.length) index := by
  obtain ⟨hlast, hall⟩ := chunk_count_bounds hsize (Nat.zero_lt_of_lt hindex)
  rw [slice, List.length_take, List.length_drop, chunk_length]
  split_ifs with hfull
  · have hmul : (index + 1) * chunk_size ≤ (chunk_count_of chunk_size data.length - 1) * chunk_size :=
      Nat.mul_le_mul_right _ (by omega)
    rw [Nat.succ_mul] at hmul
    omega
  · have heq : index = chunk_count_of chunk_size data.length - 1 := by omega
    rw [heq]
    rw [Nat.sub_one_mul] at hlast ⊢
    omega

/-- A plan whose chunks are built for the slices of the data. -/
structure BuiltPlan (data : Bytes) (chunk_size : ℕ) (plan : ChunkedPlan) : Prop where
  chunk_size_eq : plan.chunk_size = chunk_size
  chunks : List.Forall₂ (fun index chunk => BuiltChunk chunk_size index (slice chunk_size data index) chunk)
    (List.range (chunk_count_of chunk_size data.length)) plan.chunks
  total : plan.total_residual_count = (plan.chunks.map Chunk.residual_count).sum
  whole_sha256 : plan.whole_sha256 = hexdigest data
  length_eq : plan.length = data.length

theorem optimize_chunked_plan_ok (data : Bytes) (transform_tournament : Bool) (hsize : 0 < chunk_size)
    (hlarge : chunk_size ≤ 65535) : ∃ plan,
      optimize_chunked_plan data chunk_size transform_tournament = .ok plan ∧
        BuiltPlan data chunk_size plan := by
  obtain ⟨chunks, hmap, hchunks⟩ := exists_mapM_forall₂ fun index
    (_ : index ∈ List.range (chunk_count_of chunk_size data.length)) =>
      chunk_plan_ok transform_tournament chunk_size index (slice chunk_size data index)
  have hzero : reject_if (chunk_size = 0) PyError.ValueError = .ok () := reject_if_eq_ok.mpr hsize.ne'
  have hbound : reject_if (65535 < chunk_size) PyError.ValueError = .ok () :=
    reject_if_eq_ok.mpr (not_lt.mpr hlarge)
  refine ⟨⟨chunk_size, chunks, (chunks.map Chunk.residual_count).sum, hexdigest data, data.length⟩, ?_,
    rfl, hchunks, rfl, by with_reducible rfl, rfl⟩
  unfold optimize_chunked_plan
  rw [hzero, StateExcept.ok_bind, hbound, StateExcept.ok_bind]
  dsimp only
  rw [hmap, StateExcept.ok_bind]

/-- The contents of the container of a plan. -/
def ChunkedPlan.contents (plan : ChunkedPlan) : Contents :=
  ⟨plan.chunk_size, plan.whole_sha256, plan.total_residual_count, plan.chunks⟩

theorem validChunks_of_built (hsize : 0 < chunk_size)
    (h : List.Forall₂ (fun index chunk => BuiltChunk chunk_size index (slice chunk_size data index) chunk)
      (List.range' index n) chunks) (hcount : index + n = chunk_count_of chunk_size data.length) :
    ValidChunks chunk_size index (index * chunk_size) chunks := by
  induction n generalizing index chunks with
  | zero =>
    obtain rfl := List.forall₂_nil_left_iff.mp h
    trivial
  | succ n ih =>
    rw [List.range'_succ] at h
    obtain ⟨chunk, rest, hchunk, hrest, rfl⟩ := List.forall₂_cons_left_iff.mp h
    have hindex : index < chunk_count_of chunk_size data.length := by omega
    obtain ⟨hpos, hle⟩ := @chunk_length_bounds chunk_size data.length index hsize hindex
    rw [← length_slice hsize hindex] at hpos hle
    refine ⟨hchunk.index_eq, hchunk.offset_eq, hchunk.valid hpos hle, ?_⟩
    cases n with
    | zero =>
      obtain rfl := List.forall₂_nil_left_iff.mp hrest
      trivial
    | succ n =>
      have hfull : chunk.length = chunk_size := by
        rw [hchunk.length_eq, length_slice hsize hindex, chunk_length, if_pos (by omega)]
      rw [hfull, ← Nat.succ_mul]
      exact ih hrest (by omega)

theorem BuiltPlan.valid (h : BuiltPlan data chunk_size plan) (hsize : 0 < chunk_size) :
    ValidContents plan.contents := by
  have hchunks := h.chunks
  rw [List.range_eq_range'] at hchunks
  have hvalid := validChunks_of_built hsize hchunks (Nat.zero_add _)
  rw [Nat.zero_mul] at hvalid
  rw [← h.chunk_size_eq] at hsize hvalid
  refine ⟨hsize, ?_, h.total.symm, hvalid⟩
  show IsSha256 plan.whole_sha256
  rw [h.whole_sha256]
  exact isSha256_hexdigest _

theorem BuiltPlan.originals (h : BuiltPlan data chunk_size plan) :
    List.Forall₂ (fun chunk original => reconstruct_chunk chunk = .ok original) plan.chunks
      ((List.range (chunk_count_of chunk_size data.length)).map (slice chunk_size data)) := by
  rw [List.forall₂_map_right_iff]
  exact h.chunks.flip.imp fun _ _ hchunk => hchunk.reconstruct

theorem reconstruct_of_forall₂ {contents : Contents} {originals : List Bytes}
    (hvalid : ValidContents contents)
    (h : List.Forall₂ (fun chunk original => reconstruct_chunk chunk = .ok original) contents.chunks
      originals) (hwhole : hexdigest originals.flatten = contents.whole_sha256) :
    reconstruct_contents contents = .ok originals.flatten := by
  have hlength := h.length_eq
  have hfst : (contents.chunks.zip originals).map Prod.fst = contents.chunks :=
    List.map_fst_zip hlength.le
  have hsnd : (contents.chunks.zip originals).map Prod.snd = originals :=
    List.map_snd_zip hlength.ge
  have hchunks := hvalid.chunks
  rw [← hfst] at hchunks
  have hreconstruct := @reconstruct_decoded contents.chunk_size contents.whole_sha256
    contents.total_residual_count (contents.chunks.zip originals) hchunks
    (fun c hc => (List.forall₂_iff_zip.mp h).2 hc) (by rw [hsnd, hwhole])
  rw [hfst, hsnd] at hreconstruct
  exact hreconstruct

theorem BuiltPlan.reconstruct (h : BuiltPlan data chunk_size plan) (hsize : 0 < chunk_size) :
    reconstruct_contents plan.contents = .ok data := by
  have hdata := @flatten_slices data chunk_size hsize
  have hreconstruct := reconstruct_of_forall₂ (h.valid hsize) h.originals (by
    rw [hdata]
    exact h.whole_sha256.symm)
  rwa [hdata] at hreconstruct

theorem BuiltPlan.chunk_length (h : BuiltPlan data chunk_size plan) (hsize : 0 < chunk_size) {i : ℕ}
    {chunk : Chunk} (hchunk : plan.chunks[i]? = some chunk) :
    chunk.length = Container.chunk_length chunk_size data.length
      (chunk_count_of chunk_size data.length) i := by
  obtain ⟨hlength, hall⟩ := List.forall₂_iff_get.mp h.chunks
  obtain ⟨hi, hget⟩ := List.getElem?_eq_some_iff.mp hchunk
  have hbuilt := hall i (hlength ▸ hi) hi
  rw [List.length_range] at hlength
  simp only [List.get_eq_getElem, List.getElem_range] at hbuilt
  rw [← hget, hbuilt.length_eq, length_slice hsize (hlength ▸ hi)]

theorem BuiltPlan.count (h : BuiltPlan data chunk_size plan) :
    plan.chunks.length = chunk_count_of chunk_size data.length := by
  rw [← h.chunks.length_eq, List.length_range]

theorem BuiltPlan.regular (h : BuiltPlan data chunk_size plan) (hsize : 0 < chunk_size) :
    plan.contents.Regular := by
  intro chunk hmem
  obtain ⟨i, hi, rfl⟩ := List.mem_iff_getElem.mp hmem
  rw [List.length_dropLast] at hi
  have hcount : plan.contents.chunks.length = chunk_count_of chunk_size data.length := h.count
  have hget : plan.contents.chunks[i]? = some plan.contents.chunks[i] := List.getElem?_eq_getElem _
  have hlength := h.chunk_length hsize hget
  rw [Container.chunk_length, if_pos (by omega)] at hlength
  rw [List.getElem_dropLast, hlength]
  exact h.chunk_size_eq.symm

theorem BuiltPlan.length (h : BuiltPlan data chunk_size plan) (hsize : 0 < chunk_size) :
    plan.contents.length = data.length := by
  have hlengths : plan.chunks.map Chunk.length = (List.range (chunk_count_of chunk_size
      data.length)).map (Container.chunk_length chunk_size data.length
        (chunk_count_of chunk_size data.length)) := by
    refine List.ext_getElem (by simp [h.count]) fun i hi _ => ?_
    rw [List.length_map] at hi
    rw [List.getElem_map, List.getElem_map, List.getElem_range]
    exact h.chunk_length hsize (List.getElem?_eq_getElem hi)
  show (plan.chunks.map Chunk.length).sum = data.length
  rw [hlengths, sum_chunk_length hsize]

end Plans

/-! ## Containers -/

section Containers

variable {floats : FloatOps} {data : Bytes} {chunk_size index n : ℕ} {plan : ChunkedPlan}
  {auto_chunk transform_tournament : Bool} {results : List Json} {chunks : List Chunk} {chunk : Chunk}
  {stream : Stream}

/-- The fields of a built container. -/
theorem get_built_json : ∃ fields,
    build_bog_container_from_plan floats plan auto_chunk results transform_tournament = .obj fields ∧
    HasFields fields plan.contents ∧
    Dict.get fields "chunk_tournament_enabled" = some (.bool auto_chunk) ∧
    Dict.get fields "candidate_chunk_sizes" = some (.arr (if auto_chunk then
      CANDIDATE_CHUNK_SIZES.map fun size : ℕ => .int size else [.int plan.chunk_size])) ∧
    Dict.get fields "selected_chunk_size" = some (.int plan.chunk_size) ∧
    Dict.get fields "selected_total_residual_count" = some (.int plan.total_residual_count) ∧
    Dict.get fields "selected_residual_density" =
      some (residual_density floats plan.total_residual_count plan.length) ∧
    Dict.get fields "chunk_tournament_results" = some (.arr results) ∧
    Dict.get fields "transform_tournament_enabled" = some (.bool transform_tournament) ∧
    Dict.get fields "candidate_transforms" = some (.arr (if transform_tournament then
      TRANSFORM_ORDER.map fun transform => .str transform.name else [.str "identity"])) ∧
    Dict.get fields "selected_transform_counts" =
      some (.obj (plan_transform_counts plan transform_tournament)) := by
  refine ⟨_, rfl, ⟨?_, ?_, ?_, ?_, ?_, ?_, ?_, ?_⟩, ?_, ?_, ?_, ?_, ?_, ?_, ?_, ?_, ?_⟩
  all_goals simp [Dict.of, Dict.get_set, ChunkedPlan.contents]

theorem sum_plan_transform_counts : sum_equals floats
    ((plan_transform_counts plan transform_tournament).map Prod.snd) plan.chunks.length = .ok true := by
  cases transform_tournament with
  | true => exact sum_equals_transform_counts plan.chunks
  | false =>
    show sum_equals floats [.int plan.chunks.length] plan.chunks.length = .ok true
    have hsum : [Json.int plan.chunks.length].mapM int_value = some [(plan.chunks.length : ℤ)] := rfl
    rw [sum_equals, hsum]
    simp

/-- A built container passes the validation and the schema. -/
theorem BuiltPlan.check (h : BuiltPlan data chunk_size plan) (hsize : 0 < chunk_size) :
    validate_bog_container floats
        (build_bog_container_from_plan floats plan auto_chunk results transform_tournament) =
      .ok plan.contents ∧
    validate_schema
        (build_bog_container_from_plan floats plan auto_chunk results transform_tournament) = .ok () := by
  obtain ⟨fields, hfields, hhas, h₁, h₂, h₃, h₄, h₅, h₆, h₇, h₈, h₉⟩ :=
    @get_built_json floats plan auto_chunk transform_tournament results
  have hvalid := h.valid hsize
  rw [hfields]
  exact ⟨hhas.validate hvalid (hhas.validate_tournament hvalid.chunk_size_pos h₁ h₂ h₃ h₄ h₅ h₆)
    (validate_transform h₇ h₈ h₉ sum_plan_transform_counts), hhas.validate_schema hvalid⟩

theorem optimize_adaptive_ok (floats : FloatOps) (data : Bytes) (transform_tournament : Bool) :
    ∃ plan results, optimize_adaptive_chunked_residual_plan floats data transform_tournament =
      .ok (plan, results) ∧ ∃ chunk_size ∈ CANDIDATE_CHUNK_SIZES, BuiltPlan data chunk_size plan := by
  have hsmall : ∀ chunk_size ∈ CANDIDATE_CHUNK_SIZES, 0 < chunk_size ∧ chunk_size ≤ 65535 := by decide
  obtain ⟨plans, hplans, hbuilt⟩ := exists_mapM_forall₂ fun chunk_size hmem =>
    optimize_chunked_plan_ok data transform_tournament (hsmall chunk_size hmem).1 (hsmall chunk_size hmem).2
  have hne : plans ≠ [] := by
    rintro rfl
    exact absurd hbuilt.length_eq (by decide)
  obtain ⟨best, hmem, hbest⟩ := @least_ok _ chunked_key plans hne
  refine ⟨best, plans.map (tournament_result floats transform_tournament), ?_, forall₂_mem hbuilt best hmem⟩
  unfold optimize_adaptive_chunked_residual_plan
  rw [hplans, StateExcept.ok_bind, hbest, StateExcept.ok_bind]

/-- The builder gives the container of a plan for the data. -/
theorem build_bog_container_v1_ok (floats : FloatOps) (data : Bytes) (transform_tournament : Bool)
    (hsize : chunk_size ∈ CANDIDATE_CHUNK_SIZES ∨ auto_chunk = true) : ∃ plan results,
      build_bog_container_v1 floats data chunk_size auto_chunk transform_tournament =
        .ok (build_bog_container_from_plan floats plan auto_chunk results transform_tournament) ∧
      ∃ size ∈ CANDIDATE_CHUNK_SIZES, BuiltPlan data size plan := by
  unfold build_bog_container_v1
  cases auto_chunk with
  | true =>
    obtain ⟨plan, results, hplan, hbuilt⟩ := optimize_adaptive_ok floats data transform_tournament
    refine ⟨plan, results, ?_, hbuilt⟩
    rw [if_pos rfl, hplan, StateExcept.ok_bind]
  | false =>
    have hmem := hsize.resolve_right Bool.false_ne_true
    have hsmall : ∀ chunk_size ∈ CANDIDATE_CHUNK_SIZES, 0 < chunk_size ∧ chunk_size ≤ 65535 := by decide
    obtain ⟨plan, hplan, hbuilt⟩ := optimize_chunked_plan_ok data transform_tournament
      (hsmall chunk_size hmem).1 (hsmall chunk_size hmem).2
    refine ⟨plan, [], ?_, chunk_size, hmem, hbuilt⟩
    rw [if_neg Bool.false_ne_true, hplan, StateExcept.ok_bind]

/-! ### The decoded chunks -/

theorem BuiltChunk.plan_eq {bytes : Bytes} (h : BuiltChunk chunk_size index bytes chunk)
    (hpos : 0 < bytes.length) (hle : bytes.length ≤ chunk_size)
    (hstream : stream.chunk_size = chunk_size) (hlength : chunk.length = stream.length_at index) :
    stream.chunk_at index (plan_of chunk) = chunk := by
  have horiginal := (plan_of_reconstructed (h.valid hpos hle) h.reconstruct).2
  obtain ⟨transformed, htransformed, -, hsha256, htransformed_sha256⟩ := h.invert
  have hplan : (plan_of chunk).transformed chunk.length = transformed := by
    rw [htransformed, ← h.length_eq]
    rfl
  have hparam : (plan_of chunk).transform_param = chunk.transform_param := by
    show (if chunk.transform.is_bwt = true then _ else 0) = _
    split_ifs with hbwt
    · rfl
    · exact (h.transform_param (Bool.eq_false_iff.mpr hbwt)).symm
  have hheader : stream.header.chunk_size = chunk_size := hstream
  have hchunk : stream.chunk_at index (plan_of chunk) = ⟨index, index * stream.header.chunk_size,
      stream.length_at index, chunk.basis, chunk.start_byte, chunk.delta, chunk.transform,
      (plan_of chunk).transform_param, chunk.residuals,
      hexdigest ((plan_of chunk).transformed (stream.length_at index)),
      hexdigest ((plan_of chunk).transformed (stream.length_at index)),
      hexdigest ((plan_of chunk).original (stream.length_at index))⟩ := by
    unfold Stream.chunk_at chunk_of ChunkPlan.descriptor
    rfl
  rw [hchunk, hheader, ← hlength, hplan, horiginal, hparam, ← h.offset_eq, ← h.original_chunk_sha256,
    ← h.index_eq]
  nth_rewrite 1 [← hsha256]
  rw [← htransformed_sha256]

theorem decoded_built (hsize : 0 < chunk_size) (hstream : stream.chunk_size = chunk_size)
    (hlengths : LengthsFrom stream index chunks)
    (h : List.Forall₂ (fun index chunk => BuiltChunk chunk_size index (slice chunk_size data index) chunk)
      (List.range' index n) chunks) (hcount : index + n = chunk_count_of chunk_size data.length) :
    (stream.decoded index (chunks.map plan_of)).map Prod.fst = chunks := by
  induction n generalizing index chunks with
  | zero =>
    obtain rfl := List.forall₂_nil_left_iff.mp h
    rfl
  | succ n ih =>
    rw [List.range'_succ] at h
    obtain ⟨chunk, rest, hchunk, hrest, rfl⟩ := List.forall₂_cons_left_iff.mp h
    have hindex : index < chunk_count_of chunk_size data.length := by omega
    obtain ⟨hpos, hle⟩ := @chunk_length_bounds chunk_size data.length index hsize hindex
    rw [← length_slice hsize hindex] at hpos hle
    rw [List.map_cons, Stream.decoded, List.map_cons, ih hlengths.2 hrest (by omega),
      hchunk.plan_eq hpos hle hstream hlengths.1]

/-- The decoded chunks are the built ones. -/
theorem BuiltPlan.chunks_eq (h : BuiltPlan data chunk_size plan) (hsize : 0 < chunk_size) :
    (stream_of plan.contents).chunks = plan.chunks := by
  have hchunks := h.chunks
  rw [List.range_eq_range'] at hchunks
  rw [Container.chunks_eq, plans_stream_of]
  exact decoded_built hsize h.chunk_size_eq (lengths_stream_of (h.valid hsize) (h.regular hsize)) hchunks
    (Nat.zero_add _)

/-- The encoder accepts a built container. -/
theorem BuiltPlan.encode (h : BuiltPlan data chunk_size plan) (hsize : 0 < chunk_size) : encode_bogpk_container floats
      (build_bog_container_from_plan floats plan auto_chunk results transform_tournament) =
        encode_contents plan.contents := by
  obtain ⟨hvalidate, hschema⟩ :=
    @BuiltPlan.check floats _ _ _ auto_chunk transform_tournament results h hsize
  unfold encode_bogpk_container
  rw [hvalidate, StateExcept.ok_bind, hschema, StateExcept.ok_bind]

theorem BuiltPlan.size_mem (h : BuiltPlan data chunk_size plan)
    (hmem : chunk_size ∈ CANDIDATE_CHUNK_SIZES) : plan.contents.chunk_size ∈ CANDIDATE_CHUNK_SIZES := by
  rw [← h.chunk_size_eq] at hmem
  exact hmem

theorem candidate_size_pos (h : chunk_size ∈ CANDIDATE_CHUNK_SIZES) : 0 < chunk_size := by
  simp only [CANDIDATE_CHUNK_SIZES, List.mem_cons, List.not_mem_nil, or_false] at h
  omega

end Containers

end Bogbin.Container
