import Bogbin.Container.Encoder

/-!
# The two tracks

A JSON container and its packed stream give the same bytes when every chunk but the last is full
(`container_tracks_agree`); the packed format has no place for other lengths, and the encoder does not
look for them (`short_chunks_refused`).
-/

namespace Bogbin.Container

open Bogvm Vm StateExcept

section Tracks

variable {floats : FloatOps} {container : Json} {contents : Contents} {d b : Bytes}

theorem encode_bogpk_container_ok (hvalid : validate_bog_container floats container = .ok contents)
    (h : encode_bogpk_container floats container = .ok b) :
    contents.chunk_size ∈ CANDIDATE_CHUNK_SIZES ∧ encode_contents contents = .ok b := by
  unfold encode_bogpk_container at h
  rw [hvalid, StateExcept.ok_bind] at h
  obtain ⟨-, -, hencode⟩ := Bogbin.bind_eq_ok.mp h
  refine ⟨?_, hencode⟩
  by_contra hsize
  rw [encode_contents, if_pos hsize] at hencode
  cases hencode

/-- The decoded stream of a regular container gives its bytes. -/
theorem decode_encoded (hvalid : ValidContents contents) (hregular : contents.Regular)
    (hlength : contents.length < 2 ^ 70) (hsize : contents.chunk_size ∈ CANDIDATE_CHUNK_SIZES)
    (h : reconstruct_contents contents = .ok d) : ∃ b, encode_contents contents = .ok b ∧
      decode_bogpk_container floats b = .ok (container_json floats (stream_of contents).header
        (stream_of contents).chunks) ∧
      validate_bog_container floats (container_json floats (stream_of contents).header
        (stream_of contents).chunks) =
          .ok (decoded_contents (stream_of contents).header (stream_of contents).chunks) ∧
      reconstruct_bog_container_bytes floats (container_json floats (stream_of contents).header
        (stream_of contents).chunks) = .ok d := by
  obtain ⟨hlegal, hpayload, hencode⟩ := encode_contents_eq hvalid hregular hsize h
  have hplain : ∀ plan ∈ (stream_of contents).plans, plan.residuals = [] → plan.bitmask = false := by
    rw [plans_stream_of]
    intro plan hplan
    obtain ⟨chunk, -, rfl⟩ := List.mem_map.mp hplan
    exact plan_of_plain
  have hsmall : (stream_of contents).original_length < 128 ^ 10 := lt_of_lt_of_eq hlength (by norm_num)
  have hread := readContainer_of_ok (read_container_bytes hlegal hplain hsmall)
  have hbytes := @ReadContainer.reconstruct_bytes floats _ _ _ hread
  have hcheck := @ReadContainer.check floats _ _ _ hread
  rw [← chunks_eq] at hbytes hcheck
  rw [← payload_eq, hpayload] at hbytes
  exact ⟨_, hencode, decode_of_conforming hlegal hplain hsmall, hcheck.1, hbytes⟩

end Tracks

/-- Both tracks give the same bytes, if every chunk but the last is full. -/
theorem container_tracks_agree (floats : FloatOps) (container : Json) (contents : Contents) (d b : Bytes)
    (hvalid : validate_bog_container floats container = .ok contents)
    (hreconstruct : reconstruct_bog_container_bytes floats container = .ok d)
    (hencode : encode_bogpk_container floats container = .ok b)
    (hregular : contents.Regular) (hlength : contents.length < 2 ^ 70) :
    ∃ decoded, decode_bogpk_container floats b = .ok decoded ∧
      reconstruct_bog_container_bytes floats decoded = .ok d := by
  obtain ⟨hsize, hencode⟩ := encode_bogpk_container_ok hvalid hencode
  unfold reconstruct_bog_container_bytes at hreconstruct
  rw [hvalid, StateExcept.ok_bind] at hreconstruct
  obtain ⟨b', hencode', hdecode, -, hbytes⟩ := @decode_encoded floats _ _
    (validate_bog_container_ok hvalid) hregular hlength hsize hreconstruct
  obtain rfl := Except.ok.inj (hencode.symm.trans hencode')
  exact ⟨_, hdecode, hbytes⟩

/-! ## Chunks that are not full -/

section Short

/-- A chunk of one zero byte. -/
def zero_chunk (index : ℕ) : Chunk :=
  ⟨index, index, 1, .zero_block, 0, 0, .identity, 0, [], hexdigest [0], hexdigest [0], hexdigest [0]⟩

/-- The first chunks of one zero byte, in a container for chunks of 16 bytes. -/
def zero_contents (count : ℕ) : Contents :=
  ⟨16, hexdigest (List.replicate count 0), 0, (List.range count).map zero_chunk⟩

/-- The header with which the container is written as JSON. -/
def zero_header (count : ℕ) : Header :=
  ⟨false, 16, count, count, 0, hexdigest (List.replicate count 0)⟩

variable {count index : ℕ} {floats : FloatOps}

theorem reconstruct_zero_chunk : reconstruct_chunk (zero_chunk index) = .ok [0] := by
  have hrequire (text : String) : require (text = text) = .ok () := require_of rfl
  have hbytes : Basis.bytes .zero_block (0 : UInt8).toNat 1 (0 : UInt8).toNat = [0] := rfl
  have hpatches : apply_patches [0] [] = .ok [0] := rfl
  have hinvert : invert_transform .identity [0] 0 = .ok [0] := rfl
  unfold reconstruct_chunk zero_chunk
  dsimp only
  rw [synthesize_basis_ok (Nat.le_of_lt_succ (UInt8.toNat_lt _)) (Nat.le_of_lt_succ (UInt8.toNat_lt _)),
    StateExcept.ok_bind, hbytes, hpatches, StateExcept.ok_bind, hrequire, StateExcept.ok_bind,
    StateExcept.ok_bind, hinvert, StateExcept.ok_bind, hrequire, StateExcept.ok_bind]

theorem validChunk_zero_chunk : ValidChunk 16 (zero_chunk index) := by
  unfold zero_chunk
  constructor
  · exact Nat.one_pos
  · show 1 ≤ 16
    omega
  · trivial
  · exact isSha256_hexdigest _
  · exact isSha256_hexdigest _
  · exact isSha256_hexdigest _

theorem validChunks_zero_chunk :
    ValidChunks 16 index index ((List.range' index count).map zero_chunk) := by
  induction count generalizing index with
  | zero => trivial
  | succ count ih => exact ⟨rfl, rfl, validChunk_zero_chunk, ih⟩

theorem check_zero_json : validate_bog_container floats
      (container_json floats (zero_header count) (zero_contents count).chunks) =
        .ok (zero_contents count) ∧
    validate_schema (container_json floats (zero_header count) (zero_contents count).chunks) =
      .ok () := by
  have hchunks := @validChunks_zero_chunk count 0
  rw [← List.range_eq_range'] at hchunks
  refine check_container_json ⟨show 0 < 16 by omega, isSha256_hexdigest _, ?_, hchunks⟩ (by
    simp [zero_contents, zero_header])
  refine List.sum_eq_zero fun n hn => ?_
  obtain ⟨chunk, hchunk, rfl⟩ := List.mem_map.mp hn
  obtain ⟨i, -, rfl⟩ := List.mem_map.mp hchunk
  rfl

theorem reconstruct_zero_contents :
    reconstruct_contents (zero_contents count) = .ok (List.replicate count 0) := by
  have hchunks := @validChunks_zero_chunk count 0
  have hall : ∀ c ∈ ((List.range count).map zero_chunk).map fun chunk => (chunk, ([0] : Bytes)),
      reconstruct_chunk c.1 = .ok c.2 := by
    intro c hc
    obtain ⟨chunk, hchunk, rfl⟩ := List.mem_map.mp hc
    obtain ⟨i, -, rfl⟩ := List.mem_map.mp hchunk
    exact reconstruct_zero_chunk
  have hfirst : (((List.range count).map zero_chunk).map fun chunk => (chunk, ([0] : Bytes))).map
      Prod.fst = (List.range count).map zero_chunk := by
    rw [List.map_map]
    exact List.map_id _
  have hsecond : ((((List.range count).map zero_chunk).map fun chunk =>
      (chunk, ([0] : Bytes))).map Prod.snd).flatten = List.replicate count 0 := by
    rw [List.map_map, List.map_map]
    show ((List.range count).map fun _ => ([0] : Bytes)).flatten = _
    rw [List.map_const', List.length_range, List.flatten_replicate_singleton]
  rw [← List.range_eq_range', ← hfirst] at hchunks
  have hreconstruct := @reconstruct_decoded 16 (hexdigest (List.replicate count 0)) 0 _ hchunks hall
    (by rw [hsecond])
  rw [hfirst, hsecond] at hreconstruct
  exact hreconstruct

theorem reconstruct_zero_json : reconstruct_bog_container_bytes floats
    (container_json floats (zero_header count) (zero_contents count).chunks) =
      .ok (List.replicate count 0) := by
  unfold reconstruct_bog_container_bytes
  rw [check_zero_json.1, StateExcept.ok_bind, reconstruct_zero_contents]

/-- The stream of the encoder, with the hash and what comes after it. -/
theorem encode_zero_json : ∃ flags rest, (flags = 0 ∨ flags = BOGPK_FLAG_ZERO_RESIDUAL_RUNS) ∧
    encode_bogpk_container floats
      (container_json floats (zero_header count) (zero_contents count).chunks) =
    .ok (BOGPK_MAGIC ++ (BOGPK_VERSION :: flags :: UInt8.ofNat (CANDIDATE_CHUNK_SIZES.idxOf 16) ::
      (encode_varuint count ++ (encode_varuint count ++ (encode_varuint 0 ++
        ((Core.sha256_standard (List.replicate count 0)).val ++ rest)))))) := by
  have hsize : (zero_contents count).chunk_size ∈ CANDIDATE_CHUNK_SIZES := List.mem_cons_self
  have hlength : ((zero_contents count).chunks.map Chunk.length).sum = count := by
    show (((List.range count).map zero_chunk).map Chunk.length).sum = count
    rw [List.map_map]
    show ((List.range count).map fun _ => 1).sum = count
    rw [List.map_const', List.length_range, List.sum_replicate, smul_eq_mul, Nat.mul_one]
  have hcount : (zero_contents count).chunks.length = count := by simp [zero_contents]
  have hwhole : fromhex (zero_contents count).whole_sha256.toList =
      (Core.sha256_standard (List.replicate count 0)).val := by
    unfold zero_contents
    rw [← hex_sha256, fromhex_hex]
  let streams := encode_loop count (zero_contents count).chunks
  refine ⟨_, streams.descriptors ++ streams.residuals, flags_of_runs streams.runs, ?_⟩
  unfold encode_bogpk_container
  rw [check_zero_json.1, StateExcept.ok_bind, check_zero_json.2, StateExcept.ok_bind, encode_contents,
    if_neg (not_not.mpr hsize)]
  dsimp only
  rw [hlength, hwhole, hcount]
  simp only [List.append_assoc, List.cons_append, List.nil_append]
  rfl

end Short

/-- One chunk of one byte. -/
theorem zero_byte_tracks_agree : ∃ b decoded,
    encode_bogpk_container zero_floats (container_json zero_floats (zero_header 1)
      (zero_contents 1).chunks) = .ok b ∧
    decode_bogpk_container zero_floats b = .ok decoded ∧
    reconstruct_bog_container_bytes zero_floats decoded = .ok [0] := by
  obtain ⟨flags, rest, -, hencode⟩ := @encode_zero_json 1 zero_floats
  obtain ⟨decoded, hdecode, hbytes⟩ := container_tracks_agree zero_floats _ (zero_contents 1) _ _
    check_zero_json.1 reconstruct_zero_json hencode (fun chunk hchunk => absurd hchunk List.not_mem_nil)
    (show 1 < 2 ^ 70 by norm_num)
  exact ⟨_, decoded, hencode, hdecode, hbytes⟩

/-- Two chunks of one byte: the encoder writes them, and the decoder refuses the stream. -/
theorem short_chunks_refused : ∃ b,
    reconstruct_bog_container_bytes zero_floats (container_json zero_floats (zero_header 2)
      (zero_contents 2).chunks) = .ok [0, 0] ∧
    encode_bogpk_container zero_floats (container_json zero_floats (zero_header 2)
      (zero_contents 2).chunks) = .ok b ∧
    ∀ decoded, decode_bogpk_container zero_floats b ≠ .ok decoded := by
  obtain ⟨flags, rest, hflags, hencode⟩ := @encode_zero_json 2 zero_floats
  refine ⟨_, reconstruct_zero_json, hencode, fun decoded hdecode => ?_⟩
  rw [decode_bogpk_container_eq] at hdecode
  obtain ⟨read, hread, -⟩ := Bogbin.bind_eq_ok.mp hdecode
  obtain ⟨s, hread⟩ := result_eq_ok.mp hread
  obtain ⟨header, s₁, hheader, -⟩ := StateExcept.bind_eq_ok.mp hread
  rw [read_header_start hflags List.mem_cons_self] at hheader
  unfold read_counts at hheader
  rw [bind_of_ok (decode_varuint_encode (by norm_num)), bind_of_ok (decode_varuint_encode (by norm_num)),
    bind_of_ok (decode_varuint_encode (by norm_num)),
    bind_of_ok (read_bytes_append (Core.sha256_standard _).2)] at hheader
  obtain ⟨-, s₂, -, hheader⟩ := StateExcept.bind_eq_ok.mp hheader
  obtain ⟨-, s₃, -, hheader⟩ := StateExcept.bind_eq_ok.mp hheader
  obtain ⟨⟨⟩, s₄, hcount, -⟩ := StateExcept.bind_eq_ok.mp hheader
  -- two bytes are one chunk of the packed format
  exact absurd (expect_eq_ok.mp hcount).1 (by decide)

end Bogbin.Container
