import Bogbin.Container.Conforming

/-!
# The encoder writes a stream of the grammar

The records of the encoder are those of a stream (`records_of`), whose plan is that of the chunks
(`plan_of`).  When every chunk but the last is full, the lengths that the grammar implies are the
lengths of the chunks, and the encoder writes a conforming stream (`encode_contents_eq`).
-/

namespace Bogbin.Container

open Bogvm Vm StateExcept

/-- The plan of a chunk, with the encoding that `_best_residual_encoding` chooses. -/
def plan_of (chunk : Chunk) : ChunkPlan :=
  ⟨chunk.transform, chunk.basis, chunk.start_byte, chunk.delta,
    if chunk.transform.is_bwt then chunk.transform_param else 0, chunk.residuals,
    best_residual_encoding chunk⟩

/-- The records that the loop of the encoder writes. -/
def records_of : ℕ → List Chunk → List Record
  | 0, _ => []
  | _ + 1, [] => []
  | fuel + 1, chunk :: rest =>
    let run_length := zero_residual_run_length (chunk :: rest)
    if 2 ≤ run_length then
      .run run_length (plan_of chunk) :: records_of fuel ((chunk :: rest).drop run_length)
    else .chunk (plan_of chunk) :: records_of fuel rest

/-! ## The records -/

section Records

variable {chunk first candidate : Chunk} {rest chunks : List Chunk} {fuel : ℕ} {runs : Bool}
  {record : Record}

theorem plan_of_plain (h : (plan_of chunk).residuals = []) : (plan_of chunk).bitmask = false := by
  have hcount : chunk.residual_count = 0 := List.length_eq_zero_iff.mpr h
  simp [plan_of, best_residual_encoding, hcount]

theorem transform_param_bytes_plan_of : transform_param_bytes (plan_of chunk).transform
    (plan_of chunk).transform_param = transform_param_bytes chunk.transform chunk.transform_param := by
  unfold transform_param_bytes plan_of
  cases hbwt : chunk.transform.is_bwt with
  | false => rfl
  | true => rfl

theorem descriptor_bytes_eq {bitmask : Bool} (h : (plan_of chunk).bitmask = bitmask) :
    descriptor_bytes chunk bitmask = (plan_of chunk).head := by
  rw [descriptor_bytes, ChunkPlan.head, transform_param_bytes_plan_of, h]
  rfl

/-- The data of a chunk without residuals is empty in both ways. -/
theorem residual_data_plan_of (length : ℕ) : (plan_of chunk).residual_data length =
    residual_bytes length chunk.residuals (best_residual_encoding chunk) := by
  unfold ChunkPlan.residual_data
  split_ifs with hempty
  · have hplain : best_residual_encoding chunk = false := plan_of_plain hempty
    have hresiduals : chunk.residuals = [] := hempty
    rw [hplain, hresiduals]
    rfl
  · rfl

theorem plan_of_same_run (h : same_run first candidate = true) (hfirst : first.residual_count = 0) :
    plan_of candidate = plan_of first := by
  unfold same_run at h
  obtain ⟨hcount, htransform, hparam, hbasis, hstart, hdelta⟩ := of_decide_eq_true h
  have hresiduals : candidate.residuals = first.residuals :=
    (List.length_eq_zero_iff.mp hcount).trans (List.length_eq_zero_iff.mp hfirst).symm
  have hencoding : best_residual_encoding candidate = best_residual_encoding first := by
    simp [best_residual_encoding, hcount, hfirst]
  rw [plan_of, htransform, hparam, hbasis, hstart, hdelta, hresiduals, hencoding]
  rfl

theorem run_length_of_ne (h : first.residual_count ≠ 0) :
    zero_residual_run_length (first :: rest) = 0 := if_pos h

theorem run_length_of_zero (h : first.residual_count = 0) : zero_residual_run_length (first :: rest) =
    1 + (rest.takeWhile (same_run first)).length := if_neg (not_not.mpr h)

/-- The chunks of a run are alike. -/
theorem take_run (h : 2 ≤ zero_residual_run_length (first :: rest)) : first.residual_count = 0 ∧
    ((first :: rest).take (zero_residual_run_length (first :: rest))).map plan_of =
      List.replicate (zero_residual_run_length (first :: rest)) (plan_of first) ∧
    ∀ c ∈ (first :: rest).take (zero_residual_run_length (first :: rest)), c.residuals = [] := by
  have hzero : first.residual_count = 0 := by
    by_contra hne
    rw [run_length_of_ne hne] at h
    omega
  have htake : (first :: rest).take (zero_residual_run_length (first :: rest)) =
      first :: rest.takeWhile (same_run first) := by
    rw [run_length_of_zero hzero, Nat.add_comm, List.take_succ_cons]
    congr 1
    exact (List.prefix_iff_eq_take.mp (List.takeWhile_prefix _)).symm
  have hall : ∀ c ∈ first :: rest.takeWhile (same_run first), plan_of c = plan_of first := by
    refine List.forall_mem_cons.mpr ⟨rfl, fun c hc => plan_of_same_run ?_ hzero⟩
    exact (List.mem_takeWhile_imp hc)
  refine ⟨hzero, ?_, fun c hc => ?_⟩
  · refine List.eq_replicate_iff.mpr ⟨?_, fun plan hplan => ?_⟩
    · rw [List.length_map, htake, List.length_cons, run_length_of_zero hzero, Nat.add_comm]
    · obtain ⟨c, hc, rfl⟩ := List.mem_map.mp hplan
      rw [htake] at hc
      exact hall c hc
  · rw [htake] at hc
    have hresiduals : (plan_of c).residuals = (plan_of first).residuals := by rw [hall c hc]
    exact hresiduals.trans (List.length_eq_zero_iff.mp hzero)

theorem plans_records_of (h : chunks.length ≤ fuel) :
    (records_of fuel chunks).flatMap Record.plans = chunks.map plan_of := by
  induction fuel generalizing chunks with
  | zero =>
    rw [List.length_eq_zero_iff.mp (Nat.le_zero.mp h)]
    rfl
  | succ fuel ih =>
    cases chunks with
    | nil => rfl
    | cons first rest =>
      rw [List.length_cons] at h
      rw [records_of]
      split_ifs with hrun
      · have hdrop := @ih ((first :: rest).drop (zero_residual_run_length (first :: rest))) (by
          rw [List.length_drop, List.length_cons]
          omega)
        obtain ⟨-, htake, -⟩ := take_run hrun
        rw [List.flatMap_cons, hdrop, Record.plans, ← htake, ← List.map_append, List.take_append_drop]
      · rw [List.flatMap_cons, ih (by omega)]
        rfl

theorem Record.Legal.mono {runs' : Bool} (h : record.Legal runs) (hruns : runs = true → runs' = true) :
    record.Legal runs' := by
  cases record with
  | chunk plan => trivial
  | run run_length plan => exact ⟨hruns h.1, h.2⟩

theorem legal_records_of :
    ∀ record ∈ records_of fuel chunks, record.Legal (encode_loop fuel chunks).runs := by
  induction fuel generalizing chunks with
  | zero => exact nofun
  | succ fuel ih =>
    cases chunks with
    | nil => exact nofun
    | cons first rest =>
      rw [records_of, encode_loop]
      dsimp only
      split_ifs with hrun
      · refine List.forall_mem_cons.mpr ⟨⟨rfl, hrun, ?_⟩, fun record hrecord => ?_⟩
        · exact List.length_eq_zero_iff.mp (take_run hrun).1
        · exact (ih record hrecord).mono fun _ => rfl
      · exact List.forall_mem_cons.mpr ⟨trivial, fun record hrecord => ih record hrecord⟩

theorem descriptors_encode_loop :
    (encode_loop fuel chunks).descriptors = (records_of fuel chunks).flatMap Record.bytes := by
  induction fuel generalizing chunks with
  | zero => rfl
  | succ fuel ih =>
    cases chunks with
    | nil => rfl
    | cons first rest =>
      rw [records_of, encode_loop]
      dsimp only
      split_ifs with hrun
      · have hplain := plan_of_plain (List.length_eq_zero_iff.mp (take_run hrun).1 : first.residuals = [])
        rw [List.flatMap_cons, ← ih, Record.bytes, descriptor_bytes_eq hplain]
      · have hhead : descriptor_bytes first (best_residual_encoding first) = (plan_of first).head :=
          descriptor_bytes_eq rfl
        rw [List.flatMap_cons, ← ih, Record.bytes, ← hhead]
        rfl

/-- The residual data of the chunks. -/
def residual_data_of (chunks : List Chunk) : Bytes :=
  chunks.flatMap fun chunk => (plan_of chunk).residual_data chunk.length

theorem residuals_encode_loop (h : chunks.length ≤ fuel) :
    (encode_loop fuel chunks).residuals = residual_data_of chunks := by
  induction fuel generalizing chunks with
  | zero =>
    rw [List.length_eq_zero_iff.mp (Nat.le_zero.mp h)]
    rfl
  | succ fuel ih =>
    cases chunks with
    | nil => rfl
    | cons first rest =>
      rw [List.length_cons] at h
      rw [encode_loop]
      dsimp only
      split_ifs with hrun
      · have hdrop := @ih ((first :: rest).drop (zero_residual_run_length (first :: rest))) (by
          rw [List.length_drop, List.length_cons]
          omega)
        have hnone : residual_data_of ((first :: rest).take (zero_residual_run_length (first :: rest))) =
            [] := by
          refine List.flatMap_eq_nil_iff.mpr fun c hc => ?_
          exact if_pos ((take_run hrun).2.2 c hc)
        rw [hdrop]
        conv_rhs => rw [← List.take_append_drop (zero_residual_run_length (first :: rest)) (first :: rest)]
        rw [residual_data_of, residual_data_of, List.flatMap_append]
        unfold residual_data_of at hnone
        rw [hnone, List.nil_append]
      · rw [ih (by omega), residual_data_of, residual_data_of, List.flatMap_cons, residual_data_plan_of]

end Records

/-! ## The stream of a container -/

/-- The bytes of all chunks. -/
def Contents.length (contents : Contents) : ℕ := (contents.chunks.map Chunk.length).sum

/-- Every chunk but the last is full. -/
def Contents.Regular (contents : Contents) : Prop :=
  ∀ chunk ∈ contents.chunks.dropLast, chunk.length = contents.chunk_size

def stream_of (contents : Contents) : Stream :=
  ⟨(encode_loop contents.chunks.length contents.chunks).runs, contents.chunk_size, contents.length,
    records_of contents.chunks.length contents.chunks⟩

section Contents

variable {chunk : Chunk} {chunks : List Chunk} {contents : Contents} {chunk_size index offset : ℕ}
  {d original : Bytes}

/-- The lengths that are implied by the position. -/
def LengthsFrom (stream : Stream) : ℕ → List Chunk → Prop
  | _, [] => True
  | index, chunk :: rest => chunk.length = stream.length_at index ∧ LengthsFrom stream (index + 1) rest

theorem plans_stream_of : (stream_of contents).plans = contents.chunks.map plan_of :=
  plans_records_of le_rfl

/-- The length of some regular chunks, all but the last of them full. -/
theorem sum_regular (hle : ∀ chunk ∈ chunks, 0 < chunk.length ∧ chunk.length ≤ chunk_size)
    (hregular : ∀ chunk ∈ chunks.dropLast, chunk.length = chunk_size) (hne : chunks ≠ []) :
    (chunks.map Chunk.length).sum = (chunks.length - 1) * chunk_size + (chunks.getLast hne).length := by
  obtain ⟨front, last, rfl⟩ := (List.eq_nil_or_concat' chunks).resolve_left hne
  rw [List.dropLast_concat] at hregular
  have hfront : (front.map Chunk.length).sum = front.length * chunk_size := by
    rw [List.map_congr_left hregular, List.map_const', List.sum_replicate, smul_eq_mul]
  rw [List.map_append, List.sum_append, hfront, List.length_append, List.getLast_append_singleton]
  simp

theorem chunk_count_regular (hle : ∀ chunk ∈ chunks, 0 < chunk.length ∧ chunk.length ≤ chunk_size)
    (hregular : ∀ chunk ∈ chunks.dropLast, chunk.length = chunk_size) :
    chunk_count_of chunk_size (chunks.map Chunk.length).sum = chunks.length := by
  by_cases hne : chunks = []
  · rw [hne]
    rfl
  · have hsum := sum_regular hle hregular hne
    obtain ⟨hpos, hlast⟩ := hle _ (List.getLast_mem hne)
    have hcount := List.length_pos_of_ne_nil hne
    obtain ⟨n, hn⟩ := Nat.exists_eq_succ_of_ne_zero hcount.ne'
    rw [hn, Nat.succ_sub_one] at hsum
    unfold chunk_count_of
    rw [if_neg (by omega), hsum, hn]
    refine Nat.div_eq_of_lt_le ?_ ?_
    · rw [Nat.succ_mul]
      omega
    · rw [Nat.succ_mul, Nat.succ_mul]
      omega

theorem lengthsFrom_of {stream : Stream}
    (h : ∀ (i : ℕ) (chunk : Chunk), chunks[i]? = some chunk →
      chunk.length = stream.length_at (index + i)) : LengthsFrom stream index chunks := by
  induction chunks generalizing index with
  | nil => trivial
  | cons chunk rest ih =>
    refine ⟨h 0 chunk rfl, ih fun i c hc => ?_⟩
    have hlength := h (i + 1) c hc
    rwa [Nat.add_comm i 1, ← Nat.add_assoc] at hlength

theorem ValidChunks.forall_mem (h : ValidChunks chunk_size index offset chunks) :
    ∀ chunk ∈ chunks, ValidChunk chunk_size chunk := by
  induction chunks generalizing index offset with
  | nil => exact nofun
  | cons chunk rest ih => exact List.forall_mem_cons.mpr ⟨h.2.2.1, ih h.2.2.2⟩

theorem ValidContents.bounds (h : ValidContents contents) :
    ∀ chunk ∈ contents.chunks, 0 < chunk.length ∧ chunk.length ≤ contents.chunk_size := by
  intro chunk hchunk
  have hvalid := h.chunks.forall_mem chunk hchunk
  exact ⟨hvalid.length_pos, hvalid.length_le⟩

theorem chunk_count_stream_of (h : ValidContents contents) (hregular : contents.Regular) :
    (stream_of contents).chunk_count = contents.chunks.length :=
  chunk_count_regular h.bounds hregular

/-- The implied lengths of regular chunks are their lengths. -/
theorem lengths_stream_of (h : ValidContents contents) (hregular : contents.Regular) :
    LengthsFrom (stream_of contents) 0 contents.chunks := by
  refine lengthsFrom_of fun i chunk hchunk => ?_
  have hcount := chunk_count_stream_of h hregular
  obtain ⟨hi, hget⟩ := List.getElem?_eq_some_iff.mp hchunk
  have hne := List.ne_nil_of_length_pos (Nat.zero_lt_of_lt hi)
  rw [Nat.zero_add, Stream.length_at, hcount, chunk_length]
  split_ifs with hlast
  · refine hregular chunk (List.mem_iff_getElem.mpr ⟨i, by rw [List.length_dropLast]; omega, ?_⟩)
    rw [List.getElem_dropLast, hget]
  · have hsum := sum_regular h.bounds hregular hne
    have hi' : i = contents.chunks.length - 1 := by omega
    have hgetLast : contents.chunks.getLast hne = chunk := by
      rw [List.getLast_eq_getElem, ← hget]
      simp only [hi']
    show chunk.length = (contents.chunks.map Chunk.length).sum -
      (contents.chunks.length - 1) * contents.chunk_size
    rw [hsum, hgetLast, Nat.add_sub_cancel_left]

end Contents

/-! ## What a reconstruction says -/

section Reconstructed

variable {chunk : Chunk} {chunks : List Chunk} {contents : Contents} {chunk_size index : ℕ}
  {data d original : Bytes} {param : ℕ} {stream : Stream} {originals : List Bytes} {transform : Transform}

theorem bwt_decode_param (h : bwt_decode data param = .ok original) (hne : data ≠ []) :
    param < data.length := by
  unfold bwt_decode at h
  rw [if_neg hne] at h
  split_ifs at h with hlarge
  exact Nat.lt_of_not_le hlarge

theorem invert_transform_param (h : invert_transform transform data param = .ok original)
    (hbwt : transform.is_bwt = true) (hne : data ≠ []) : param < data.length := by
  cases transform with
  | bwt => exact bwt_decode_param h hne
  | bwt_mtf =>
    have hlength := @length_mtf_decode data
    have hparam := bwt_decode_param h (List.ne_nil_of_length_pos (by
      rw [hlength]
      exact List.length_pos_of_ne_nil hne))
    rwa [hlength] at hparam
  | _ => cases hbwt

/-- A chunk that has been reconstructed has a legal plan, for the same bytes. -/
theorem plan_of_reconstructed (hvalid : ValidChunk chunk_size chunk)
    (h : reconstruct_chunk chunk = .ok original) :
    (plan_of chunk).Legal chunk.length ∧ (plan_of chunk).original chunk.length = original := by
  have hpatches : apply_patches (chunk.basis.bytes chunk.start_byte.toNat chunk.length
      chunk.delta.toNat) chunk.residuals = .ok ((plan_of chunk).transformed chunk.length) := by
    have hrising : Rising (chunk.basis.bytes chunk.start_byte.toNat chunk.length
        chunk.delta.toNat).length 0 chunk.residuals := by
      rw [Basis.length_bytes]
      exact hvalid.rising
    exact apply_patches_eq hrising
  unfold reconstruct_chunk at h
  rw [synthesize_basis_ok (Nat.le_of_lt_succ (UInt8.toNat_lt _)) (Nat.le_of_lt_succ (UInt8.toNat_lt _)),
    StateExcept.ok_bind, hpatches, StateExcept.ok_bind] at h
  simp only [Bogbin.bind_eq_ok] at h
  obtain ⟨-, -, -, -, original', hinvert, -, -, heq⟩ := h
  obtain rfl := Except.ok.inj heq
  have hlength := @ChunkPlan.length_transformed chunk.length (plan_of chunk)
  have hne : (plan_of chunk).transformed chunk.length ≠ [] := by
    refine List.ne_nil_of_length_pos ?_
    rw [hlength]
    exact hvalid.length_pos
  have hparam : invert_transform (plan_of chunk).transform ((plan_of chunk).transformed chunk.length)
      (plan_of chunk).transform_param = .ok original' := by
    show invert_transform chunk.transform _ (if chunk.transform.is_bwt = true then _ else _) = _
    split_ifs with hbwt
    · exact hinvert
    · rwa [invert_transform_of_not_bwt (Bool.eq_false_iff.mpr hbwt) chunk.transform_param]
  refine ⟨⟨hvalid.rising, ?_⟩, by rw [ChunkPlan.original, hparam]⟩
  show if chunk.transform.is_bwt = true then (if chunk.transform.is_bwt = true then _ else _) < _
    else (if chunk.transform.is_bwt = true then _ else _) = 0
  split_ifs with hbwt
  · have hlt := invert_transform_param hinvert hbwt hne
    rwa [hlength] at hlt
  · rfl

theorem reconstruct_contents_ok (hvalid : ValidContents contents)
    (h : reconstruct_contents contents = .ok d) : hexdigest d = contents.whole_sha256 ∧
      ∃ originals, List.Forall₂ (fun chunk original => reconstruct_chunk chunk = .ok original)
        contents.chunks originals ∧ d = originals.flatten := by
  unfold reconstruct_contents at h
  simp only [Bogbin.bind_eq_ok, require_eq_ok] at h
  obtain ⟨-, -, -, -, originals, hmap, -, hwhole, heq⟩ := h
  obtain rfl := Except.ok.inj heq
  have hsteps := List.forall₂_iff_get.mp (forall_of_mapM_eq_ok hmap)
  obtain ⟨hlength, hsteps⟩ := hsteps
  rw [List.length_range] at hlength
  refine ⟨hwhole, originals, List.forall₂_iff_get.mpr ⟨hlength, fun i hi hi' => ?_⟩, rfl⟩
  have hstep := hsteps i (by rwa [List.length_range]) hi'
  have hat := @ValidChunks.chunk_at _ _ _ _ hvalid.chunks i contents.chunks[i] (by simp [hi])
  rw [Nat.zero_add] at hat
  rw [List.get_eq_getElem, List.getElem_range] at hstep
  rw [hat] at hstep
  exact hstep

theorem legalFrom_stream_of (hlengths : LengthsFrom stream index chunks)
    (h : ∀ chunk ∈ chunks, (plan_of chunk).Legal chunk.length) :
    stream.LegalFrom index (chunks.map plan_of) := by
  induction chunks generalizing index with
  | nil => trivial
  | cons chunk rest ih =>
    obtain ⟨hchunk, hrest⟩ := List.forall_mem_cons.mp h
    obtain ⟨hlength, hlengths⟩ := hlengths
    exact ⟨hlength ▸ hchunk, ih hlengths hrest⟩

theorem residual_stream_eq (hlengths : LengthsFrom stream index chunks) :
    stream.residual_stream index (chunks.map plan_of) = residual_data_of chunks := by
  induction chunks generalizing index with
  | nil => rfl
  | cons chunk rest ih =>
    rw [List.map_cons, Stream.residual_stream, ih hlengths.2, ← hlengths.1]
    rfl

theorem decoded_originals (hlengths : LengthsFrom stream index chunks)
    (h : List.Forall₂ (fun chunk original => (plan_of chunk).original chunk.length = original) chunks
      originals) : (stream.decoded index (chunks.map plan_of)).map Prod.snd = originals := by
  induction h generalizing index with
  | nil => rfl
  | cons hchunk _ ih => rw [List.map_cons, Stream.decoded, List.map_cons, ih hlengths.2, ← hlengths.1, hchunk]

theorem legal_of_legalFrom {stream : Stream} {plans : List ChunkPlan}
    (h : stream.LegalFrom index plans) {i : ℕ} {plan : ChunkPlan} (hplan : plans[i]? = some plan) :
    plan.Legal (stream.length_at (index + i)) := by
  induction plans generalizing index i with
  | nil => cases hplan
  | cons first rest ih =>
    obtain ⟨hfirst, hrest⟩ := h
    cases i with
    | zero =>
      obtain rfl := Option.some.inj hplan
      exact hfirst
    | succ i =>
      have hlegal := ih hrest hplan
      rwa [Nat.add_assoc, Nat.add_comm 1] at hlegal

end Reconstructed

/-! ## The encoder -/

section Encode

variable {contents : Contents} {d : Bytes}

theorem fromhex_hex (data : Bytes) : fromhex (hex data).toList = data := by
  have hvalue {n : ℕ} (h : n < 16) : hex_value (hex_digit n) = n := by
    interval_cases n <;> decide
  rw [hex, String.toList_ofList]
  induction data with
  | nil => rfl
  | cons b rest ih =>
    have hb := b.toNat_lt
    rw [List.flatMap_cons, List.cons_append, List.cons_append, List.nil_append, fromhex, ih,
      hvalue (by omega), hvalue (by omega), Nat.div_add_mod, UInt8.ofNat_toNat]

/-- A container whose chunks have been reconstructed is regular: the encoder writes a legal stream. -/
theorem encode_contents_eq (hvalid : ValidContents contents) (hregular : contents.Regular)
    (hsize : contents.chunk_size ∈ CANDIDATE_CHUNK_SIZES) (h : reconstruct_contents contents = .ok d) :
    (stream_of contents).Legal ∧ (stream_of contents).payload = d ∧
      encode_contents contents = .ok (stream_of contents).bytes := by
  obtain ⟨hwhole, originals, hchunks, rfl⟩ := reconstruct_contents_ok hvalid h
  have hlengths := lengths_stream_of hvalid hregular
  have hcount := chunk_count_stream_of hvalid hregular
  have hplan : ∀ chunk ∈ contents.chunks, ∀ original, reconstruct_chunk chunk = .ok original →
      (plan_of chunk).Legal chunk.length ∧ (plan_of chunk).original chunk.length = original :=
    fun chunk hchunk original => plan_of_reconstructed (hvalid.chunks.forall_mem chunk hchunk)
  have hlegal : ∀ chunk ∈ contents.chunks, (plan_of chunk).Legal chunk.length := by
    intro chunk hchunk
    obtain ⟨i, hi, rfl⟩ := List.mem_iff_getElem.mp hchunk
    obtain ⟨hlength, hsteps⟩ := List.forall₂_iff_get.mp hchunks
    exact (hplan _ hchunk _ (hsteps i hi (hlength ▸ hi))).1
  have hfrom := legalFrom_stream_of hlengths hlegal
  have horiginals : List.Forall₂ (fun chunk original => (plan_of chunk).original chunk.length = original)
      contents.chunks originals := by
    obtain ⟨hlength, hsteps⟩ := List.forall₂_iff_get.mp hchunks
    exact List.forall₂_iff_get.mpr ⟨hlength, fun i hi hi' =>
      (hplan _ (List.getElem_mem hi) _ (hsteps i hi hi')).2⟩
  have hpayload : (stream_of contents).payload = originals.flatten := by
    rw [payload_eq, plans_stream_of, decoded_originals hlengths horiginals]
  refine ⟨⟨hsize, ?_, legal_records_of, fun i plan hplan => ?_⟩, hpayload, ?_⟩
  · rw [plans_stream_of, List.length_map, hcount]
  · rw [plans_stream_of] at hplan
    have hlegal := legal_of_legalFrom hfrom hplan
    rwa [Nat.zero_add] at hlegal
  · have hhash : fromhex contents.whole_sha256.toList =
        (Core.sha256_standard (stream_of contents).payload).val := by
      rw [← hwhole, ← hpayload, ← hex_sha256, fromhex_hex]
    have htotal : contents.total_residual_count = (stream_of contents).total_residual_count := by
      rw [Stream.total_residual_count, plans_stream_of, List.map_map, ← hvalid.total]
      rfl
    rw [encode_contents, if_neg (not_not.mpr hsize), bytes_eq, Stream.body, plans_stream_of,
      residual_stream_eq hlengths, hcount, ← htotal, ← hhash]
    dsimp only
    rw [residuals_encode_loop le_rfl, descriptors_encode_loop]
    simp only [List.append_assoc, List.cons_append, List.nil_append]
    rfl

end Encode

end Bogbin.Container
