import Bogbin.Container.Reading
import Bogbin.Container.Sound

/-!
# Streams that conform to the grammar

The decoder accepts a stream of the grammar, and yields its plan, exactly when no chunk without
residuals is marked as a bitmask and the length fits into ten digits (`decode_conforming_iff`): for a
chunk that is marked so, the decoder takes a mask that the grammar does not write.
-/

namespace Bogbin.Container

open Bogvm Vm StateExcept

/-! ## The inversions -/

section Inversions

variable {data : Bytes} {transform : Transform} {param length : ℕ} {plan : ChunkPlan}

theorem length_follow (f : UInt8 → UInt8 → UInt8) (previous : UInt8) :
    (follow f previous data).length = data.length := by
  induction data generalizing previous with
  | nil => rfl
  | cons b rest ih => rw [follow, List.length_cons, ih, List.length_cons]

theorem length_from_previous (f : UInt8 → UInt8 → UInt8) :
    (from_previous f data).length = data.length := by
  cases data with
  | nil => rfl
  | cons first rest => rw [from_previous, List.length_cons, length_follow, List.length_cons]

theorem length_mtf_decode_loop {alphabet : Bytes} :
    (mtf_decode_loop alphabet data).length = data.length := by
  induction data generalizing alphabet with
  | nil => rfl
  | cons index rest ih => rw [mtf_decode_loop, List.length_cons, ih, List.length_cons]

theorem length_mtf_decode : (mtf_decode data).length = data.length := length_mtf_decode_loop

theorem bwt_pass_rows {n : ℕ} {table : List Bytes} (hcount : table.length = data.length)
    (hrows : ∀ row ∈ table, row.length = n) :
    (bwt_pass data table).length = data.length ∧ ∀ row ∈ bwt_pass data table, row.length = n + 1 := by
  unfold bwt_pass
  constructor
  · rw [List.length_mergeSort, List.length_zipWith, hcount, min_self]
  · intro row hrow
    rw [List.mem_mergeSort, List.zipWith_eq_zipWith_take_min, List.mem_iff_getElem] at hrow
    obtain ⟨i, hi, rfl⟩ := hrow
    rw [List.getElem_zipWith, List.length_cons, List.getElem_take]
    rw [hrows _ (List.getElem_mem _)]

theorem bwt_table_rows (n : ℕ) : ((bwt_pass data)^[n] (List.replicate data.length [])).length = data.length ∧
    ∀ row ∈ (bwt_pass data)^[n] (List.replicate data.length []), row.length = n := by
  induction n with
  | zero => exact ⟨List.length_replicate, fun row hrow => by rw [List.eq_of_mem_replicate hrow]; rfl⟩
  | succ n ih =>
    rw [Function.iterate_succ_apply']
    exact bwt_pass_rows ih.1 ih.2

theorem bwt_decode_ok (h : param < data.length) :
    ∃ original, bwt_decode data param = .ok original ∧ original.length = data.length := by
  obtain ⟨hcount, hrows⟩ := @bwt_table_rows data data.length
  unfold bwt_decode
  rw [if_neg (List.ne_nil_of_length_pos (Nat.zero_lt_of_lt h)), if_neg (not_le.mpr h)]
  refine ⟨_, rfl, hrows _ ?_⟩
  rw [List.getD_eq_getElem _ _ (by rwa [hcount])]
  exact List.getElem_mem _

/-- A legal parameter gives bytes, and as many. -/
theorem invert_transform_ok (h : transform.is_bwt = true → param < data.length) :
    ∃ original, invert_transform transform data param = .ok original ∧ original.length = data.length := by
  cases transform with
  | identity => exact ⟨_, rfl, rfl⟩
  | xor_previous => exact ⟨_, rfl, length_from_previous _⟩
  | delta_previous => exact ⟨_, rfl, length_from_previous _⟩
  | nibble_split => exact ⟨_, rfl, List.length_map _⟩
  | mtf => exact ⟨_, rfl, length_mtf_decode⟩
  | bwt => exact bwt_decode_ok (h rfl)
  | bwt_mtf =>
    have hlength := @length_mtf_decode data
    obtain ⟨original, hdecode, horiginal⟩ := @bwt_decode_ok (mtf_decode data) param (by
      rw [hlength]
      exact h rfl)
    exact ⟨original, hdecode, horiginal.trans hlength⟩

theorem length_foldl_set {patches : List Patch} :
    (patches.foldl (fun data patch => data.set patch.offset patch.byte) data).length = data.length := by
  induction patches generalizing data with
  | nil => rfl
  | cons patch rest ih => rw [List.foldl_cons, ih, List.length_set]

theorem ChunkPlan.length_transformed : (plan.transformed length).length = length := by
  rw [transformed, transformed_bytes, length_foldl_set, Basis.length_bytes]

theorem ChunkPlan.Legal.invert (h : plan.Legal length) :
    invert_transform plan.transform (plan.transformed length) plan.transform_param =
      .ok (plan.original length) ∧ (plan.original length).length = length := by
  have hparam := h.transform_param
  obtain ⟨original, hinvert, hlength⟩ := @invert_transform_ok (plan.transformed length) plan.transform
    plan.transform_param fun hbwt => by
      rw [if_pos hbwt] at hparam
      rwa [plan.length_transformed]
  rw [plan.length_transformed] at hlength
  rw [ChunkPlan.original, hinvert]
  exact ⟨rfl, hlength⟩

theorem ChunkPlan.Legal.readable (h : plan.Legal length) (hlength : length ≤ 128) : plan.Readable := by
  have hroom := length_of_rising h.rising (Nat.zero_le _)
  have hparam := h.transform_param
  refine ⟨?_, by omega⟩
  split_ifs at hparam ⊢
  · omega
  · exact hparam

end Inversions

/-! ## The lengths of the chunks -/

section Lengths

variable {chunk_size original_length index : ℕ}

theorem chunk_count_le (hsize : 0 < chunk_size) :
    chunk_count_of chunk_size original_length ≤ original_length := by
  unfold chunk_count_of
  split_ifs with hzero
  · exact Nat.zero_le _
  · rw [Nat.div_le_iff_le_mul_add_pred hsize]
    have hmul : original_length ≤ chunk_size * original_length := Nat.le_mul_of_pos_left _ hsize
    omega

/-- All chunks but the last fit, and the last one is not empty. -/
theorem chunk_count_bounds (hsize : 0 < chunk_size)
    (hpos : 0 < chunk_count_of chunk_size original_length) :
    (chunk_count_of chunk_size original_length - 1) * chunk_size < original_length ∧
      original_length ≤ chunk_count_of chunk_size original_length * chunk_size := by
  have hzero : original_length ≠ 0 := by
    rintro rfl
    exact absurd hpos (lt_irrefl _)
  unfold chunk_count_of at hpos ⊢
  rw [if_neg hzero] at hpos ⊢
  have hdiv := Nat.div_add_mod (original_length + chunk_size - 1) chunk_size
  have hmod := Nat.mod_lt (original_length + chunk_size - 1) hsize
  set count := (original_length + chunk_size - 1) / chunk_size
  rw [Nat.mul_comm] at hdiv
  rw [Nat.sub_one_mul]
  have hle : chunk_size ≤ count * chunk_size := Nat.le_mul_of_pos_left _ hpos
  omega

theorem chunk_length_bounds (hsize : 0 < chunk_size)
    (hindex : index < chunk_count_of chunk_size original_length) :
    1 ≤ chunk_length chunk_size original_length (chunk_count_of chunk_size original_length) index ∧
      chunk_length chunk_size original_length (chunk_count_of chunk_size original_length) index ≤
        chunk_size := by
  obtain ⟨hlast, hall⟩ := chunk_count_bounds hsize (Nat.zero_lt_of_lt hindex)
  unfold chunk_length
  split_ifs
  · exact ⟨hsize, le_rfl⟩
  · rw [Nat.sub_one_mul] at hlast ⊢
    omega

theorem sum_chunk_length (hsize : 0 < chunk_size) :
    ((List.range (chunk_count_of chunk_size original_length)).map (chunk_length chunk_size
      original_length (chunk_count_of chunk_size original_length))).sum = original_length := by
  cases hcount : chunk_count_of chunk_size original_length with
  | zero =>
    unfold chunk_count_of at hcount
    split_ifs at hcount with hzero
    · rw [hzero]
      rfl
    · have hle : chunk_size ≤ original_length + chunk_size - 1 := by omega
      have hpos := Nat.div_pos hle hsize
      omega
  | succ count =>
    have hlast := (@chunk_count_bounds chunk_size original_length hsize (by omega)).1
    rw [hcount, Nat.add_sub_cancel] at hlast
    have hfull : (List.range count).map (chunk_length chunk_size original_length (count + 1)) =
        List.replicate count chunk_size := by
      refine List.eq_replicate_iff.mpr ⟨by simp, fun n hn => ?_⟩
      obtain ⟨i, hi, rfl⟩ := List.mem_map.mp hn
      rw [chunk_length, if_pos (Nat.succ_lt_succ (List.mem_range.mp hi))]
    rw [List.range_succ, List.map_append, List.sum_append, hfull, List.sum_replicate, List.map_singleton,
      List.sum_singleton, chunk_length, if_neg (lt_irrefl _), Nat.add_sub_cancel, smul_eq_mul]
    omega

end Lengths

/-! ## The chunks -/

/-- The residual data of some chunks. -/
def Stream.residual_stream (stream : Stream) (index : ℕ) : List ChunkPlan → Bytes
  | [] => []
  | plan :: rest => plan.residual_data (stream.length_at index) ++ stream.residual_stream (index + 1) rest

/-- The chunks from an index on, with their bytes. -/
def Stream.decoded (stream : Stream) (index : ℕ) : List ChunkPlan → List (Chunk × Bytes)
  | [] => []
  | plan :: rest => (stream.chunk_at index plan, plan.original (stream.length_at index)) ::
    stream.decoded (index + 1) rest

/-- Legal chunks from an index on. -/
def Stream.LegalFrom (stream : Stream) : ℕ → List ChunkPlan → Prop
  | _, [] => True
  | index, plan :: rest => plan.Legal (stream.length_at index) ∧ stream.LegalFrom (index + 1) rest

/-- The bytes that the decoder takes for the residuals. -/
def Stream.residual_size (stream : Stream) (index : ℕ) : List ChunkPlan → ℕ
  | [] => 0
  | plan :: rest => Container.residual_size plan.descriptor (stream.length_at index) +
    stream.residual_size (index + 1) rest

section Chunks

variable {stream : Stream} {plans : List ChunkPlan} {index : ℕ} {s s' : Bytes}
  {read : List (Chunk × Bytes)}

theorem Stream.Legal.size_pos (h : stream.Legal) : 0 < stream.chunk_size ∧ stream.chunk_size ≤ 128 := by
  have hmem := h.chunk_size
  simp only [CANDIDATE_CHUNK_SIZES, List.mem_cons, List.not_mem_nil, or_false] at hmem
  omega

theorem Stream.Legal.length_at_bounds (h : stream.Legal) (hindex : index < stream.chunk_count) :
    1 ≤ stream.length_at index ∧ stream.length_at index ≤ stream.chunk_size :=
  chunk_length_bounds h.size_pos.1 hindex

theorem decoded_chunk_length_at (h : stream.Legal) (hindex : index < stream.chunk_count) :
    decoded_chunk_length stream.header index s = .ok (stream.length_at index) s := by
  have hbounds := h.length_at_bounds hindex
  unfold Stream.length_at chunk_length at hbounds
  unfold decoded_chunk_length Stream.length_at chunk_length
  show (if index + 1 < stream.chunk_count then _ else _ : Reader ℕ) s = _
  split_ifs at hbounds ⊢
  · rfl
  · exact bind_of_ok (@expect_eq_ok _ _ _ _ ()|>.mpr ⟨hbounds, rfl⟩)

theorem legalFrom_of (h : ∀ (i : ℕ) (plan : ChunkPlan), plans[i]? = some plan →
    plan.Legal (stream.length_at (index + i))) : stream.LegalFrom index plans := by
  induction plans generalizing index with
  | nil => trivial
  | cons plan rest ih =>
    refine ⟨h 0 plan rfl, ih fun i p hp => ?_⟩
    have hlegal := h (i + 1) p hp
    rwa [Nat.add_comm i 1, ← Nat.add_assoc] at hlegal

theorem mapIdx_residual_data : (plans.mapIdx fun i plan =>
    plan.residual_data (stream.length_at (index + i))).flatten = stream.residual_stream index plans := by
  induction plans generalizing index with
  | nil => rfl
  | cons plan rest ih =>
    rw [List.mapIdx_cons, List.flatten_cons, Stream.residual_stream, ← ih]
    simp only [Nat.add_zero, Nat.add_assoc, Nat.add_comm 1]

theorem mapIdx_original : (plans.mapIdx fun i plan => plan.original (stream.length_at (index + i))) =
    (stream.decoded index plans).map Prod.snd := by
  induction plans generalizing index with
  | nil => rfl
  | cons plan rest ih =>
    rw [List.mapIdx_cons, Stream.decoded, List.map_cons, ← ih]
    simp only [Nat.add_zero, Nat.add_assoc, Nat.add_comm 1]

theorem mapIdx_chunk_at : (plans.mapIdx fun i plan => stream.chunk_at (index + i) plan) =
    (stream.decoded index plans).map Prod.fst := by
  induction plans generalizing index with
  | nil => rfl
  | cons plan rest ih =>
    rw [List.mapIdx_cons, Stream.decoded, List.map_cons, ← ih]
    simp only [Nat.add_zero, Nat.add_assoc, Nat.add_comm 1]

theorem invert_chunk_plan {plan : ChunkPlan} (h : plan.Legal (stream.length_at index)) :
    invert_chunk stream.header index plan.descriptor (stream.length_at index) plan.residuals s =
      .ok (stream.chunk_at index plan, plan.original (stream.length_at index)) s := by
  have hinvert : invert_transform plan.descriptor.transform (transformed_bytes plan.descriptor.basis
      plan.descriptor.start_byte plan.descriptor.delta (stream.length_at index) plan.residuals)
      plan.descriptor.transform_param = .ok (plan.original (stream.length_at index)) := h.invert.1
  unfold invert_chunk
  rw [hinvert]
  rfl

/-- The loop reads the chunks, if a chunk without residuals is not in a bitmask. -/
theorem decode_chunks_bytes (hstream : stream.Legal) (hlegal : stream.LegalFrom index plans)
    (hplain : ∀ plan ∈ plans, plan.residuals = [] → plan.bitmask = false)
    (hcount : index + plans.length = stream.chunk_count) :
    decode_chunks stream.header index (plans.map ChunkPlan.descriptor)
      (stream.residual_stream index plans ++ s) = .ok (stream.decoded index plans) s := by
  induction plans generalizing index with
  | nil => rfl
  | cons plan rest ih =>
    obtain ⟨hplan, hrest⟩ := hlegal
    obtain ⟨hplain, hplains⟩ := List.forall_mem_cons.mp hplain
    rw [List.length_cons] at hcount
    have hindex : index < stream.chunk_count := by omega
    have hlength := (hstream.length_at_bounds hindex).2.trans hstream.size_pos.2
    have hchunk {s : Bytes} : decode_chunk stream.header index plan.descriptor
        (plan.residual_data (stream.length_at index) ++ s) =
          .ok (stream.chunk_at index plan, plan.original (stream.length_at index)) s := by
      rw [decode_chunk_eq, bind_of_ok (decoded_chunk_length_at hstream hindex),
        bind_of_ok (chunk_residuals_bytes hplan hlength hplain)]
      exact invert_chunk_plan hplan
    rw [List.map_cons, decode_chunks, Stream.residual_stream, List.append_assoc, bind_of_ok hchunk,
      bind_of_ok (ih hrest hplains (by omega))]
    rfl

/-! ### The size of the data -/

theorem size_decode_chunks (hstream : stream.Legal)
    (hcount : index + plans.length = stream.chunk_count)
    (h : decode_chunks stream.header index (plans.map ChunkPlan.descriptor) s = .ok read s') :
    s.length = s'.length + stream.residual_size index plans := by
  induction plans generalizing index s s' read with
  | nil =>
    obtain ⟨-, rfl⟩ := EStateM.Result.ok.inj h
    rfl
  | cons plan rest ih =>
    rw [List.length_cons] at hcount
    have hindex : index < stream.chunk_count := by omega
    have hlength := (hstream.length_at_bounds hindex).2.trans hstream.size_pos.2
    obtain ⟨chunk, s₁, hchunk, h⟩ := StateExcept.bind_eq_ok.mp h
    obtain ⟨rest', s₂, hrest, h⟩ := StateExcept.bind_eq_ok.mp h
    obtain ⟨-, rfl⟩ := EStateM.Result.ok.inj h
    rw [decode_chunk_eq, bind_of_ok (decoded_chunk_length_at hstream hindex)] at hchunk
    obtain ⟨residuals, s₃, hresiduals, hchunk⟩ := StateExcept.bind_eq_ok.mp hchunk
    have hsize := size_chunk_residuals hlength hresiduals
    have hkeep : s₁ = s₃ := invert_chunk_keeps hchunk
    have hrest' := ih (by omega) hrest
    rw [hkeep] at hrest'
    rw [Stream.residual_size]
    omega

/-- The data has at most this size, and this size only if no bitmask is missing. -/
theorem residual_stream_size (hstream : stream.Legal) (hlegal : stream.LegalFrom index plans)
    (hcount : index + plans.length = stream.chunk_count) :
    (stream.residual_stream index plans).length ≤ stream.residual_size index plans ∧
      (stream.residual_size index plans ≤ (stream.residual_stream index plans).length →
        ∀ plan ∈ plans, plan.residuals = [] → plan.bitmask = false) := by
  induction plans generalizing index with
  | nil => exact ⟨le_rfl, fun _ => nofun⟩
  | cons plan rest ih =>
    obtain ⟨hplan, hrest⟩ := hlegal
    rw [List.length_cons] at hcount
    have hbounds := hstream.length_at_bounds (show index < stream.chunk_count by omega)
    obtain ⟨hle, hplain⟩ := ih hrest (by omega)
    have hdata := length_residual_data hplan (hbounds.2.trans hstream.size_pos.2)
    rw [Stream.residual_stream, Stream.residual_size, List.length_append, hdata]
    refine ⟨by split_ifs <;> omega, fun hsize => List.forall_mem_cons.mpr ⟨fun hempty => ?_, ?_⟩⟩
    · rw [if_pos hempty] at hsize
      by_contra hbitmask
      rw [Bool.not_eq_false] at hbitmask
      have hmask : Container.residual_size plan.descriptor (stream.length_at index) =
          (stream.length_at index + 7) / 8 + plan.residuals.length := if_pos hbitmask
      omega
    · exact hplain (by split_ifs at hsize <;> omega)

theorem length_decoded (hlegal : stream.LegalFrom index plans) :
    ((stream.decoded index plans).map Prod.snd).flatten.length =
      ((List.range' index plans.length).map stream.length_at).sum := by
  induction plans generalizing index with
  | nil => rfl
  | cons plan rest ih =>
    rw [Stream.decoded, List.map_cons, List.flatten_cons, List.length_append, ih hlegal.2,
      List.length_cons, List.range'_succ, List.map_cons, List.sum_cons, hlegal.1.invert.2]

theorem residuals_le_length (hlegal : stream.LegalFrom index plans) :
    (plans.map fun plan => plan.residuals.length).sum ≤
      ((List.range' index plans.length).map stream.length_at).sum := by
  induction plans generalizing index with
  | nil => exact le_rfl
  | cons plan rest ih =>
    have hroom := length_of_rising hlegal.1.rising (Nat.zero_le _)
    have hrest := ih hlegal.2
    rw [List.map_cons, List.sum_cons, List.length_cons, List.range'_succ, List.map_cons, List.sum_cons]
    omega

theorem residual_count_decoded :
    ((stream.decoded index plans).map fun chunk => chunk.1.residual_count).sum =
      (plans.map fun plan => plan.residuals.length).sum := by
  induction plans generalizing index with
  | nil => rfl
  | cons plan rest ih =>
    rw [Stream.decoded, List.map_cons, List.sum_cons, ih, List.map_cons, List.sum_cons]
    rfl

theorem readable_of_legalFrom (hstream : stream.Legal) (hlegal : stream.LegalFrom index plans)
    (hcount : index + plans.length = stream.chunk_count) : ∀ plan ∈ plans, plan.Readable := by
  induction plans generalizing index with
  | nil => exact nofun
  | cons plan rest ih =>
    rw [List.length_cons] at hcount
    have hbounds := hstream.length_at_bounds (show index < stream.chunk_count by omega)
    exact List.forall_mem_cons.mpr ⟨hlegal.1.readable (hbounds.2.trans hstream.size_pos.2),
      ih hlegal.2 (by omega)⟩

end Chunks

/-! ## The stream -/

section Streams

variable {floats : FloatOps} {stream : Stream}

theorem Stream.Legal.from_zero (h : stream.Legal) : stream.LegalFrom 0 stream.plans := by
  refine legalFrom_of fun i plan hplan => ?_
  rw [Nat.zero_add]
  exact h.plans i plan hplan

theorem payload_eq : stream.payload = ((stream.decoded 0 stream.plans).map Prod.snd).flatten := by
  rw [← mapIdx_original]
  simp only [Nat.zero_add]
  rfl

theorem chunks_eq : stream.chunks = (stream.decoded 0 stream.plans).map Prod.fst := by
  rw [← mapIdx_chunk_at]
  simp only [Nat.zero_add]
  rfl

theorem Stream.Legal.sum_length (h : stream.Legal) :
    ((List.range' 0 stream.plans.length).map stream.length_at).sum = stream.original_length := by
  rw [← List.range_eq_range', h.chunk_count]
  exact sum_chunk_length h.size_pos.1

theorem Stream.Legal.length_payload (h : stream.Legal) :
    stream.payload.length = stream.original_length := by
  rw [payload_eq, length_decoded h.from_zero, h.sum_length]

theorem Stream.Legal.total_le (h : stream.Legal) :
    stream.total_residual_count ≤ stream.original_length := by
  have hle := residuals_le_length h.from_zero
  rwa [h.sum_length] at hle

/-- The stream after the header. -/
def Stream.body (stream : Stream) : Bytes :=
  stream.records.flatMap Record.bytes ++ stream.residual_stream 0 stream.plans

theorem bytes_eq : stream.bytes = BOGPK_MAGIC ++ (BOGPK_VERSION ::
    (if stream.runs then BOGPK_FLAG_ZERO_RESIDUAL_RUNS else 0) ::
    UInt8.ofNat (CANDIDATE_CHUNK_SIZES.idxOf stream.chunk_size) ::
    (encode_varuint stream.original_length ++ (encode_varuint stream.chunk_count ++
      (encode_varuint stream.total_residual_count ++
        ((Core.sha256_standard stream.payload).val ++ stream.body))))) := by
  have hdata := @mapIdx_residual_data stream stream.plans 0
  simp only [Nat.zero_add] at hdata
  unfold Stream.bytes Stream.body
  rw [hdata]
  simp only [List.append_assoc, List.cons_append, List.nil_append]

theorem hex_sha256 (data : Bytes) : hex (Core.sha256_standard data).val = hexdigest data := by
  unfold hex
  rw [hexdigest]

theorem read_bytes_append {data rest : Bytes} {n : ℕ} (h : data.length = n) :
    read_bytes n (data ++ rest) = .ok data rest := by
  subst h
  rw [read_bytes_eq_ok]
  exact ⟨by rw [List.length_append]; exact Nat.le_add_right _ _, List.take_left.symm,
    List.drop_left.symm⟩

theorem chunk_size_of_code {size : ℕ} (h : size ∈ CANDIDATE_CHUNK_SIZES) :
    CANDIDATE_CHUNK_SIZES[(UInt8.ofNat (CANDIDATE_CHUNK_SIZES.idxOf size)).toNat]? = some size := by
  simp only [CANDIDATE_CHUNK_SIZES, List.mem_cons, List.not_mem_nil, or_false] at h
  rcases h with rfl | rfl | rfl | rfl <;> decide

/-- The part of `read_header` after the chunk size. -/
def read_counts (flags : UInt8) (chunk_size : ℕ) : Reader Header := do
  let original_length ← decode_varuint
  let chunk_count ← decode_varuint
  let total_residual_count ← decode_varuint
  let whole_sha256 ← read_bytes 32
  expect (original_length = 0 → chunk_count = 0)
  expect (0 < original_length → chunk_count ≠ 0)
  expect (chunk_count = chunk_count_of chunk_size original_length)
  expect (total_residual_count ≤ original_length)
  pure ⟨flags = BOGPK_FLAG_ZERO_RESIDUAL_RUNS, chunk_size, original_length, chunk_count,
    total_residual_count, hex whole_sha256⟩

theorem read_header_start {flags : UInt8} {size : ℕ} {rest : Bytes}
    (hflags : flags = 0 ∨ flags = BOGPK_FLAG_ZERO_RESIDUAL_RUNS) (hsize : size ∈ CANDIDATE_CHUNK_SIZES) :
    read_header (BOGPK_MAGIC ++ (BOGPK_VERSION :: flags ::
      UInt8.ofNat (CANDIDATE_CHUNK_SIZES.idxOf size) :: rest)) = read_counts flags size rest := by
  have hexpect {c : Prop} [Decidable c] (hc : c) {s : Bytes} : expect c s = .ok () s :=
    expect_eq_ok.mpr ⟨hc, rfl⟩
  unfold read_header
  rw [bind_of_ok (read_bytes_append rfl), bind_of_ok (hexpect rfl), bind_of_ok read_byte_cons,
    bind_of_ok (hexpect rfl), bind_of_ok read_byte_cons, bind_of_ok (hexpect hflags),
    bind_of_ok read_byte_cons, chunk_size_of_code hsize]
  rfl

theorem flags_of_runs (runs : Bool) : (if runs then BOGPK_FLAG_ZERO_RESIDUAL_RUNS else 0) = 0 ∨
    (if runs then BOGPK_FLAG_ZERO_RESIDUAL_RUNS else 0) = BOGPK_FLAG_ZERO_RESIDUAL_RUNS := by
  cases runs <;> decide

theorem read_header_bytes (h : stream.Legal) (hlength : stream.original_length < 128 ^ 10) :
    read_header stream.bytes = .ok stream.header stream.body := by
  have hexpect {c : Prop} [Decidable c] (hc : c) {s : Bytes} : expect c s = .ok () s :=
    expect_eq_ok.mpr ⟨hc, rfl⟩
  have hcount : stream.chunk_count ≤ stream.original_length := chunk_count_le h.size_pos.1
  have htotal := h.total_le
  have hceil : stream.chunk_count = chunk_count_of stream.chunk_size stream.original_length := rfl
  have hzero : stream.original_length = 0 → stream.chunk_count = 0 := by omega
  have hpos : 0 < stream.original_length → stream.chunk_count ≠ 0 := by
    intro hpos hnone
    have hsum := h.sum_length
    rw [h.chunk_count, hnone] at hsum
    exact absurd hsum.symm (Nat.ne_of_gt hpos)
  rw [bytes_eq, read_header_start (flags_of_runs stream.runs) h.chunk_size]
  unfold read_counts
  rw [bind_of_ok (decode_varuint_encode hlength), bind_of_ok (decode_varuint_encode (by omega)),
    bind_of_ok (decode_varuint_encode (by omega)),
    bind_of_ok (read_bytes_append (Core.sha256_standard stream.payload).2), bind_of_ok (hexpect hzero),
    bind_of_ok (hexpect hpos), bind_of_ok (hexpect hceil), bind_of_ok (hexpect htotal), hex_sha256]
  cases hruns : stream.runs
  all_goals
    unfold Stream.header
    rw [hruns]
    rfl

theorem read_descriptors_stream (h : stream.Legal) (hlength : stream.original_length < 128 ^ 10) :
    read_descriptors stream.header stream.header.chunk_count 0 stream.body =
      .ok (stream.plans.map ChunkPlan.descriptor) (stream.residual_stream 0 stream.plans) := by
  have hcount : stream.chunk_count ≤ stream.original_length := chunk_count_le h.size_pos.1
  have hplans : 0 + stream.plans.length = stream.chunk_count := by rw [Nat.zero_add, h.chunk_count]
  refine read_descriptors_bytes h.records (readable_of_legalFrom h h.from_zero hplans) ?_ hplans
    h.chunk_count.le
  exact Nat.lt_of_le_of_lt hcount hlength

/-- The decoder reads the plan of a stream. -/
theorem read_container_bytes (h : stream.Legal)
    (hplain : ∀ plan ∈ stream.plans, plan.residuals = [] → plan.bitmask = false)
    (hlength : stream.original_length < 128 ^ 10) :
    read_container stream.bytes = .ok (stream.header, stream.decoded 0 stream.plans) [] := by
  have hexpect {c : Prop} [Decidable c] (hc : c) {s : Bytes} : expect c s = .ok () s :=
    expect_eq_ok.mpr ⟨hc, rfl⟩
  have hplans : 0 + stream.plans.length = stream.chunk_count := by rw [Nat.zero_add, h.chunk_count]
  have hchunks := @decode_chunks_bytes _ _ 0 [] h h.from_zero hplain hplans
  rw [List.append_nil] at hchunks
  have htotal : ((stream.decoded 0 stream.plans).map fun chunk => chunk.1.residual_count).sum =
      stream.header.total_residual_count := residual_count_decoded
  have hpayload : stream.payload.length = stream.header.original_length := h.length_payload
  have hwhole : hexdigest stream.payload = stream.header.whole_sha256 := by rw [Stream.header]
  rw [payload_eq] at hpayload
  unfold read_container
  rw [bind_of_ok (read_header_bytes h hlength), bind_of_ok (read_descriptors_stream h hlength),
    bind_of_ok hchunks, bind_of_ok (hexpect htotal), bind_of_ok get_apply, bind_of_ok (hexpect rfl),
    bind_of_ok (hexpect hpayload), ← payload_eq, bind_of_ok (hexpect hwhole)]
  rfl

theorem decode_of_conforming (h : stream.Legal)
    (hplain : ∀ plan ∈ stream.plans, plan.residuals = [] → plan.bitmask = false)
    (hlength : stream.original_length < 128 ^ 10) :
    decode_bogpk_container floats stream.bytes =
      .ok (container_json floats stream.header stream.chunks) := by
  rw [decode_bogpk_container_eq, result_eq_ok.mpr ⟨_, read_container_bytes h hplain hlength⟩,
    StateExcept.ok_bind, ← chunks_eq]

/-- What the decoder accepts has no missing mask and no number that is too long. -/
theorem conforming_of_decode (h : stream.Legal) {container : Json}
    (hdecode : decode_bogpk_container floats stream.bytes = .ok container) :
    (∀ plan ∈ stream.plans, plan.residuals = [] → plan.bitmask = false) ∧
      stream.original_length < 128 ^ 10 := by
  rw [decode_bogpk_container_eq] at hdecode
  obtain ⟨read, hread, -⟩ := Bogbin.bind_eq_ok.mp hdecode
  obtain ⟨s, hread⟩ := result_eq_ok.mp hread
  have hlength : stream.original_length < 128 ^ 10 := by
    by_contra hlarge
    obtain ⟨s', herror⟩ := @decode_varuint_large (encode_varuint stream.chunk_count ++
      (encode_varuint stream.total_residual_count ++ ((Core.sha256_standard stream.payload).val ++
        stream.body))) stream.original_length (Nat.le_of_not_lt hlarge)
    obtain ⟨header, s₁, hheader, -⟩ := StateExcept.bind_eq_ok.mp hread
    rw [bytes_eq, read_header_start (flags_of_runs stream.runs) h.chunk_size] at hheader
    unfold read_counts at hheader
    rw [bind_of_error herror] at hheader
    cases hheader
  have hplans : 0 + stream.plans.length = stream.chunk_count := by rw [Nat.zero_add, h.chunk_count]
  obtain ⟨header, s₁, hheader, hread⟩ := StateExcept.bind_eq_ok.mp hread
  rw [read_header_bytes h hlength] at hheader
  obtain ⟨rfl, rfl⟩ := EStateM.Result.ok.inj hheader
  obtain ⟨descriptors, s₂, hdescriptors, hread⟩ := StateExcept.bind_eq_ok.mp hread
  rw [read_descriptors_stream h hlength] at hdescriptors
  obtain ⟨rfl, rfl⟩ := EStateM.Result.ok.inj hdescriptors
  obtain ⟨chunks, s₃, hchunks, -⟩ := StateExcept.bind_eq_ok.mp hread
  have hsize := size_decode_chunks h hplans hchunks
  obtain ⟨-, hplain⟩ := residual_stream_size h h.from_zero hplans
  exact ⟨hplain (by omega), hlength⟩

/-- The decoder accepts a conforming stream and yields its plan exactly when a chunk without residuals
is not marked as a bitmask and the length fits into ten digits. -/
theorem decode_conforming_iff (floats : FloatOps) (stream : Stream) (h : stream.Legal) :
    decode_bogpk_container floats stream.bytes =
        .ok (container_json floats stream.header stream.chunks) ↔
      (∀ plan ∈ stream.plans, plan.residuals = [] → plan.bitmask = false) ∧
        stream.original_length < 2 ^ 70 := by
  have hpow : 2 ^ 70 = 128 ^ 10 := by norm_num
  rw [hpow]
  exact ⟨conforming_of_decode h, fun ⟨hplain, hlength⟩ => decode_of_conforming h hplain hlength⟩

/-- One chunk of zeros, in a stream without residuals. -/
def zero_stream (bitmask : Bool) : Stream :=
  ⟨false, 16, 16, [.chunk ⟨.identity, .zero_block, 0, 0, 0, [], bitmask⟩]⟩

theorem legal_zero_stream (bitmask : Bool) : (zero_stream bitmask).Legal := by
  refine ⟨List.mem_cons_self, ?_, fun record hrecord => ?_, fun index plan hplan => ?_⟩
  · simp [zero_stream, Stream.plans, Record.plans, Stream.chunk_count, chunk_count_of]
  · obtain rfl := List.mem_singleton.mp hrecord
    trivial
  · cases index with
    | zero =>
      obtain rfl := Option.some.inj hplan
      exact ⟨trivial, rfl⟩
    | succ index => cases hplan

/-- Floats for containers without residuals. -/
def zero_floats : FloatOps :=
  ⟨fun r n => r = toString n ++ ".0", fun _ _ => .error .TypeError, fun _ _ => "0.0"⟩

theorem decode_zero_stream : decode_bogpk_container zero_floats (zero_stream false).bytes =
    .ok (container_json zero_floats (zero_stream false).header (zero_stream false).chunks) :=
  (decode_conforming_iff zero_floats (zero_stream false) (legal_zero_stream false)).mpr
    ⟨by decide, by decide⟩

/-- The decoder refuses a chunk without residuals that is marked as a bitmask. -/
theorem bitmask_stream_refused : (zero_stream true).Legal ∧
    ∀ floats container, decode_bogpk_container floats (zero_stream true).bytes ≠ .ok container := by
  refine ⟨legal_zero_stream true, fun floats container hdecode => ?_⟩
  have hplain := (conforming_of_decode (legal_zero_stream true) hdecode).1
  exact absurd (hplain _ List.mem_cons_self rfl) (by decide)

end Streams

end Bogbin.Container
