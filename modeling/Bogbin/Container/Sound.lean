import Bogbin.Container.Decoder

/-!
# The decoder is sound

The container that the decoder writes for valid chunks passes the validation and the schema, and its
reconstruction joins the bytes of the chunks.
-/

namespace Bogbin.Container

open Bogvm Vm StateExcept

section Decoded

variable {floats : FloatOps} {header : Header} {chunks : List Chunk} {chunk_size index offset : ℕ}

/-- The fields of a decoded container. -/
theorem get_container_json : ∃ fields, container_json floats header chunks = .obj fields ∧
    Dict.get fields "format" = some (.str BOG_FORMAT) ∧
    Dict.get fields "vm_format" = some (.str BOGBIN_FORMAT) ∧
    Dict.get fields "pack_mode" = some (.str "chunked") ∧
    Dict.get fields "chunk_size" = some (.int header.chunk_size) ∧
    Dict.get fields "chunk_count" = some (.int header.chunk_count) ∧
    Dict.get fields "whole_sha256" = some (.str header.whole_sha256) ∧
    Dict.get fields "total_residual_count" = some (.int header.total_residual_count) ∧
    Dict.get fields "chunks" = some (.arr (chunks.map chunk_json)) ∧
    Dict.get fields "chunk_tournament_enabled" = some (.bool false) ∧
    Dict.get fields "candidate_chunk_sizes" = some (.arr [.int header.chunk_size]) ∧
    Dict.get fields "selected_chunk_size" = some (.int header.chunk_size) ∧
    Dict.get fields "selected_total_residual_count" = some (.int header.total_residual_count) ∧
    Dict.get fields "selected_residual_density" =
      some (residual_density floats header.total_residual_count header.original_length) ∧
    Dict.get fields "chunk_tournament_results" = some (.arr []) ∧
    Dict.get fields "transform_tournament_enabled" = some (.bool true) ∧
    Dict.get fields "candidate_transforms" =
      some (.arr (TRANSFORM_ORDER.map fun transform => .str transform.name)) ∧
    Dict.get fields "selected_transform_counts" = some (.obj (transform_counts chunks)) := by
  refine ⟨_, rfl, ?_, ?_, ?_, ?_, ?_, ?_, ?_, ?_, ?_, ?_, ?_, ?_, ?_, ?_, ?_, ?_, ?_⟩
  all_goals simp [Dict.of, Dict.get_set]

/-- The values of a decoded container. -/
def decoded_contents (header : Header) (chunks : List Chunk) : Contents :=
  ⟨header.chunk_size, header.whole_sha256, header.total_residual_count, chunks⟩

/-- The fields that every container has, with the values of its contents. -/
structure HasFields (fields : Dict) (contents : Contents) : Prop where
  format : Dict.get fields "format" = some (.str BOG_FORMAT)
  vm_format : Dict.get fields "vm_format" = some (.str BOGBIN_FORMAT)
  pack_mode : Dict.get fields "pack_mode" = some (.str "chunked")
  chunk_size : Dict.get fields "chunk_size" = some (.int contents.chunk_size)
  chunk_count : Dict.get fields "chunk_count" = some (.int contents.chunks.length)
  whole_sha256 : Dict.get fields "whole_sha256" = some (.str contents.whole_sha256)
  total_residual_count :
    Dict.get fields "total_residual_count" = some (.int contents.total_residual_count)
  chunks : Dict.get fields "chunks" = some (.arr (contents.chunks.map chunk_json))

theorem HasFields.required {fields : Dict} {contents : Contents} (h : HasFields fields contents) :
    ∀ key ∈ REQUIRED_TOP_LEVEL_FIELDS, (Dict.get fields key).isSome := by
  simp [REQUIRED_TOP_LEVEL_FIELDS, h.format, h.vm_format, h.pack_mode, h.chunk_size, h.chunk_count,
    h.whole_sha256, h.total_residual_count, h.chunks]

theorem HasFields.validate {fields : Dict} {contents : Contents} (h : HasFields fields contents)
    (hvalid : ValidContents contents) (htournament : validate_tournament_metadata floats fields
      contents.chunk_size contents.total_residual_count = .ok ())
    (htransform : validate_transform_metadata floats fields contents.chunks.length = .ok ()) :
    validate_bog_container floats (.obj fields) = .ok contents := by
  simp only [validate_bog_container, field, h.format, h.vm_format, h.pack_mode, h.chunk_size,
    h.chunk_count, h.whole_sha256, h.total_residual_count, h.chunks, Option.getD_some]
  simp only [bind_eq_ok, require_eq_ok, checked_eq_ok]
  exact ⟨(), h.required, (), trivial, (), trivial, (), trivial, _, natural_int _, (),
    Nat.pos_iff_ne_zero.mp hvalid.chunk_size_pos, _, natural_int _, _, natural_int _, _,
    sha256_text_eq_some.mpr ⟨rfl, hvalid.whole_sha256⟩, (), List.length_map _, contents.chunks,
    validate_chunks_json hvalid.chunks, (), hvalid.total, (), htournament, (), htransform, rfl⟩

theorem HasFields.validate_schema {fields : Dict} {contents : Contents} (h : HasFields fields contents)
    (hvalid : ValidContents contents) : Container.validate_schema (.obj fields) = .ok () := by
  have hpattern : hex_pattern 64 contents.whole_sha256 = true :=
    hex_pattern_of_hex hvalid.whole_sha256.1 hvalid.whole_sha256.2
  have hle : (1 : ℤ) ≤ contents.chunk_size := by exact_mod_cast hvalid.chunk_size_pos
  unfold Container.validate_schema
  rw [reject_if_eq_ok]
  simp [valid_metadata, REQUIRED_TOP_LEVEL_FIELDS, field, str_field, schema_integer, h.format,
    h.vm_format, h.pack_mode, h.chunk_size, h.chunk_count, h.whole_sha256, h.total_residual_count,
    h.chunks, hpattern, hle]

theorem HasFields.validate_tournament {fields : Dict} {contents : Contents} (h : HasFields fields contents)
    (hsize : 0 < contents.chunk_size) {enabled : Bool} {density : String} {results : List Json}
    (henabled : Dict.get fields "chunk_tournament_enabled" = some (.bool enabled))
    (hsizes : Dict.get fields "candidate_chunk_sizes" = some (.arr (if enabled then
      CANDIDATE_CHUNK_SIZES.map fun size : ℕ => .int size else [.int contents.chunk_size])))
    (hselected : Dict.get fields "selected_chunk_size" = some (.int contents.chunk_size))
    (htotal : Dict.get fields "selected_total_residual_count" =
      some (.int contents.total_residual_count))
    (hdensity : Dict.get fields "selected_residual_density" = some (.float density))
    (hresults : Dict.get fields "chunk_tournament_results" = some (.arr results)) :
    validate_tournament_metadata floats fields contents.chunk_size contents.total_residual_count =
      .ok () := by
  simp only [validate_tournament_metadata, field, h.chunk_size, h.total_residual_count, henabled, hsizes,
    hselected, htotal, hdensity, hresults, Option.getD_some]
  simp only [bind_eq_ok, require_eq_ok, equals_int]
  refine ⟨(), ?_, (), trivial, (), trivial, fun htrue => by rw [if_pos htrue]⟩
  cases enabled with
  | true =>
    rw [if_pos rfl]
    decide
  | false =>
    intro size hmem
    obtain rfl := List.mem_singleton.mp hmem
    exact ⟨_, rfl, by exact_mod_cast hsize⟩

theorem validate_transform {fields counts : Dict} {enabled : Bool} {count : ℕ}
    (henabled : Dict.get fields "transform_tournament_enabled" = some (.bool enabled))
    (hcandidates : Dict.get fields "candidate_transforms" = some (.arr (if enabled then
      TRANSFORM_ORDER.map fun transform => .str transform.name else [.str "identity"])))
    (hcounts : Dict.get fields "selected_transform_counts" = some (.obj counts))
    (hsum : sum_equals floats (counts.map Prod.snd) count = .ok true) :
    validate_transform_metadata floats fields count = .ok () := by
  simp only [validate_transform_metadata, field, henabled, hcandidates, hcounts, Option.getD_some]
  simp only [bind_eq_ok, require_eq_ok]
  refine ⟨(), ?_, (), fun htrue => by rw [if_pos htrue], true, hsum, rfl⟩
  cases enabled with
  | true => decide
  | false => decide

/-- A decoded container passes the validation and the schema. -/
theorem check_container_json (hvalid : ValidContents (decoded_contents header chunks))
    (hcount : chunks.length = header.chunk_count) :
    validate_bog_container floats (container_json floats header chunks) =
        .ok (decoded_contents header chunks) ∧
      validate_schema (container_json floats header chunks) = .ok () := by
  obtain ⟨fields, hfields, h₁, h₂, h₃, h₄, h₅, h₆, h₇, h₈, h₉, h₁₀, h₁₁, h₁₂, h₁₃, h₁₄, h₁₅, h₁₆, h₁₇⟩ :=
    @get_container_json floats header chunks
  rw [← hcount] at h₅
  have hhas : HasFields fields (decoded_contents header chunks) := ⟨h₁, h₂, h₃, h₄, h₅, h₆, h₇, h₈⟩
  rw [hfields]
  exact ⟨hhas.validate hvalid (hhas.validate_tournament hvalid.chunk_size_pos h₉ h₁₀ h₁₁ h₁₂ h₁₃ h₁₄)
    (validate_transform h₁₅ h₁₆ h₁₇ (sum_equals_transform_counts chunks)), hhas.validate_schema hvalid⟩

/-! ## The reconstruction -/

theorem ValidChunks.index_eq (h : ValidChunks chunk_size index offset chunks) :
    chunks.map Chunk.index = List.range' index chunks.length := by
  induction chunks generalizing index offset with
  | nil => rfl
  | cons chunk rest ih =>
    obtain ⟨hindex, -, -, hrest⟩ := h
    rw [List.map_cons, List.length_cons, List.range'_succ, ih hrest, hindex]

/-- The chunk of an index. -/
theorem ValidChunks.chunk_at (h : ValidChunks chunk_size index offset chunks) {n : ℕ} {chunk : Chunk}
    (hn : chunks[n]? = some chunk) : chunk_at chunks (index + n) = .ok chunk := by
  induction chunks generalizing index offset n with
  | nil => cases hn
  | cons first rest ih =>
    obtain ⟨hindex, -, -, hrest⟩ := h
    unfold Container.chunk_at
    cases n with
    | zero =>
      obtain rfl := Option.some.inj hn
      rw [List.find?_cons_of_pos (by simp [hindex])]
    | succ n =>
      have hne : first.index ≠ index + (n + 1) := by omega
      rw [List.find?_cons_of_neg (by simpa using hne)]
      have hat := ih hrest hn
      unfold Container.chunk_at at hat
      rwa [Nat.add_right_comm] at hat

theorem reconstruct_decoded {whole_sha256 : String} {total : ℕ} {decoded : List (Chunk × Bytes)}
    (hchunks : ValidChunks chunk_size 0 0 (decoded.map Prod.fst))
    (hall : ∀ c ∈ decoded, reconstruct_chunk c.1 = .ok c.2)
    (hwhole : hexdigest (decoded.map Prod.snd).flatten = whole_sha256) :
    reconstruct_contents ⟨chunk_size, whole_sha256, total, decoded.map Prod.fst⟩ =
      .ok (decoded.map Prod.snd).flatten := by
  have hindex := hchunks.index_eq
  rw [← List.range_eq_range'] at hindex
  have hmap : (List.range (decoded.map Prod.fst).length).mapM (fun index => do
      let chunk ← chunk_at (decoded.map Prod.fst) index
      reconstruct_chunk chunk) = .ok (decoded.map Prod.snd) := by
    refine mapM_eq_ok (List.forall₂_iff_get.mpr ⟨by simp, fun i hi hi' => ?_⟩)
    rw [List.length_map] at hi'
    have hat := @ValidChunks.chunk_at _ _ _ _ hchunks i decoded[i].1 (by simp [hi'])
    rw [Nat.zero_add] at hat
    simp only [List.get_eq_getElem, List.getElem_range, List.getElem_map]
    rw [hat, StateExcept.ok_bind]
    exact hall _ (List.getElem_mem hi')
  unfold reconstruct_contents
  dsimp only
  rw [hindex, require_of List.nodup_range, StateExcept.ok_bind,
    require_of (fun index hlt => List.mem_range.mpr hlt), StateExcept.ok_bind, hmap, StateExcept.ok_bind,
    require_of hwhole, StateExcept.ok_bind]

end Decoded

/-! ## The decoder -/

section Decoder

variable {floats : FloatOps} {data s s' : Bytes} {header : Header} {decoded : List (Chunk × Bytes)}

theorem result_eq_ok {α : Type} {x : Reader α} {a : α} :
    result x data = .ok a ↔ ∃ s, x data = .ok a s := by
  unfold result
  cases x data with
  | ok b s => simp
  | error e s => simp

theorem result_error {α : Type} {x : Reader α} {e : PyError} (hx : Clean x)
    (h : result x data = .error e) : e = .ContainerError := by
  unfold result at h
  cases hr : x data with
  | ok b s =>
    rw [hr] at h
    cases h
  | error e' s =>
    rw [hr] at h
    obtain rfl := Except.error.inj h
    exact hx data e' s hr

/-- What the decoder has read before it writes the container. -/
structure ReadContainer (data : Bytes) (header : Header) (decoded : List (Chunk × Bytes)) : Prop where
  header_eq : result read_header data = .ok header
  header_ok : ReadHeader header
  count : decoded.length = header.chunk_count
  total : ((decoded.map Prod.fst).map Chunk.residual_count).sum = header.total_residual_count
  chunks : ValidChunks header.chunk_size 0 0 (decoded.map Prod.fst)
  reconstruct : ∀ c ∈ decoded, reconstruct_chunk c.1 = .ok c.2
  length : (decoded.map Prod.snd).flatten.length = header.original_length
  whole_sha256 : hexdigest (decoded.map Prod.snd).flatten = header.whole_sha256

theorem readContainer_of_ok (h : read_container data = .ok (header, decoded) s) :
    ReadContainer data header decoded := by
  obtain ⟨header', s₁, hheader, h⟩ := StateExcept.bind_eq_ok.mp h
  obtain ⟨descriptors, s₂, hdescriptors, h⟩ := StateExcept.bind_eq_ok.mp h
  obtain ⟨decoded', s₃, hdecoded, h⟩ := StateExcept.bind_eq_ok.mp h
  obtain ⟨⟨⟩, s₄, htotal, h⟩ := StateExcept.bind_eq_ok.mp h
  obtain ⟨rest, s₅, -, h⟩ := StateExcept.bind_eq_ok.mp h
  obtain ⟨-, s₆, -, h⟩ := StateExcept.bind_eq_ok.mp h
  obtain ⟨⟨⟩, s₇, hlength, h⟩ := StateExcept.bind_eq_ok.mp h
  obtain ⟨⟨⟩, s₈, hwhole, h⟩ := StateExcept.bind_eq_ok.mp h
  obtain ⟨heq, -⟩ := EStateM.Result.ok.inj h
  obtain ⟨rfl, rfl⟩ := Prod.mk.inj heq
  have hread := readHeader_of_ok hheader
  have hcount := length_read_descriptors (Nat.zero_le _) (by rw [Nat.zero_add]) hdescriptors
  obtain ⟨hvalid, hdecoded_length, hall⟩ := decodedChunks_of_ok hread.size_pos hcount hdecoded
  rw [Nat.zero_mul] at hvalid
  rw [Nat.zero_add] at hcount
  have hsum := (expect_eq_ok.mp htotal).1
  refine ⟨result_eq_ok.mpr ⟨s₁, hheader⟩, hread, hdecoded_length.trans hcount, ?_, hvalid, hall,
    (expect_eq_ok.mp hlength).1, (expect_eq_ok.mp hwhole).1⟩
  rw [List.map_map]
  exact hsum

theorem ReadContainer.check (h : ReadContainer data header decoded) :
    validate_bog_container floats (container_json floats header (decoded.map Prod.fst)) =
        .ok (decoded_contents header (decoded.map Prod.fst)) ∧
      validate_schema (container_json floats header (decoded.map Prod.fst)) = .ok () :=
  check_container_json ⟨h.header_ok.size_pos, h.header_ok.whole_sha256, h.total, h.chunks⟩
    (by rw [List.length_map, h.count])

theorem ReadContainer.reconstruct_bytes (h : ReadContainer data header decoded) :
    reconstruct_bog_container_bytes floats (container_json floats header (decoded.map Prod.fst)) =
      .ok (decoded.map Prod.snd).flatten := by
  unfold reconstruct_bog_container_bytes
  rw [h.check.1, StateExcept.ok_bind]
  exact reconstruct_decoded h.chunks h.reconstruct h.whole_sha256

/-- The result of the decoder is the container of what it has read. -/
theorem decode_bogpk_container_eq : decode_bogpk_container floats data =
    result read_container data >>= fun read =>
      .ok (container_json floats read.1 (read.2.map Prod.fst)) := by
  unfold decode_bogpk_container
  refine except_bind_congr fun read hread => ?_
  obtain ⟨s, hok⟩ := result_eq_ok.mp hread
  have h := @readContainer_of_ok data s read.1 read.2 hok
  dsimp only
  rw [h.check.1, StateExcept.ok_bind, h.check.2, StateExcept.ok_bind]

/-- The decoder raises `ContainerError`, or its container is valid and gives the bytes of the header. -/
theorem decode_bogpk_container_sound (floats : FloatOps) (data : Bytes) :
    match decode_bogpk_container floats data with
    | .error e => e = .ContainerError
    | .ok container =>
      (∃ contents, validate_bog_container floats container = .ok contents) ∧
        ∃ header payload, result read_header data = .ok header ∧
          reconstruct_bog_container_bytes floats container = .ok payload ∧
          payload.length = header.original_length ∧ hexdigest payload = header.whole_sha256 := by
  rw [decode_bogpk_container_eq]
  cases hread : result read_container data with
  | error e => exact result_error clean_read_container hread
  | ok read =>
    obtain ⟨s, hok⟩ := result_eq_ok.mp hread
    have h := @readContainer_of_ok data s read.1 read.2 hok
    exact ⟨⟨_, h.check.1⟩, read.1, _, h.header_eq, h.reconstruct_bytes, h.length, h.whole_sha256⟩

end Decoder

end Bogbin.Container
