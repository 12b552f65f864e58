import Bogbin.Container.Valid

/-!
# What the decoder accepts

Each reader raises `ContainerError` only, and what it reads satisfies the check that is made later: a
decoded container is validated, and its reconstruction gives the bytes that the decoder has hashed
(`decode_bogpk_container_sound`).
-/

namespace Bogbin.Container

open Bogvm Vm StateExcept

/-! ## Readers that fail -/

section Raises

variable {α : Type} {header : Header} {s : Bytes} {index length n : ℕ}

/-- A reader that raises `ContainerError` only, whatever it reads. -/
def Clean (x : Reader α) : Prop := ∀ s, RaisesOnly .ContainerError x s

theorem Clean.bind {β : Type} {x : Reader α} {f : α → Reader β} (hx : Clean x) (hf : ∀ a, Clean (f a)) :
    Clean (x >>= f) :=
  fun s => raisesOnly_bind (hx s) fun a s₁ _ => hf a s₁

theorem clean_pure {a : α} : Clean (pure a : Reader α) := fun _ => raisesOnly_of_ends ⟨_, _, rfl⟩

theorem clean_get : Clean (get : Reader Bytes) := fun _ => raisesOnly_of_ends ⟨_, _, rfl⟩

theorem clean_set : Clean (set s : Reader PUnit) := fun _ => raisesOnly_of_ends ⟨_, _, rfl⟩

theorem clean_throw : Clean (throw .ContainerError : Reader α) := fun _ => raisesOnly_throw

theorem clean_expect {c : Prop} [Decidable c] : Clean (expect c) := by
  unfold expect
  split_ifs
  · exact clean_pure
  · exact clean_throw

theorem clean_read_byte : Clean read_byte := by
  refine clean_get.bind fun data => ?_
  cases data with
  | nil => exact clean_throw
  | cons b rest => exact clean_set.bind fun _ => clean_pure

theorem clean_read_bytes : Clean (read_bytes n) :=
  clean_get.bind fun _ => clean_expect.bind fun _ => clean_set.bind fun _ => clean_pure

theorem clean_decode_varuint_loop {shift value : ℕ} {raw : Bytes} :
    Clean (decode_varuint_loop n shift value raw) := by
  induction n generalizing shift value raw with
  | zero => exact clean_throw
  | succ n ih =>
    refine clean_read_byte.bind fun byte => ?_
    dsimp only
    split_ifs
    · exact clean_expect.bind fun _ => clean_pure
    · exact ih

theorem clean_decode_varuint : Clean decode_varuint := clean_decode_varuint_loop

theorem clean_read_header : Clean read_header := by
  refine clean_read_bytes.bind fun _ => clean_expect.bind fun _ => clean_read_byte.bind fun _ =>
    clean_expect.bind fun _ => clean_read_byte.bind fun _ => clean_expect.bind fun _ =>
    clean_read_byte.bind fun code => ?_
  cases CANDIDATE_CHUNK_SIZES[code.toNat]? with
  | none => exact clean_throw
  | some _ =>
    exact clean_decode_varuint.bind fun _ => clean_decode_varuint.bind fun _ =>
      clean_decode_varuint.bind fun _ => clean_read_bytes.bind fun _ => clean_expect.bind fun _ =>
      clean_expect.bind fun _ => clean_expect.bind fun _ => clean_expect.bind fun _ => clean_pure

theorem clean_descriptor_transform {value : UInt8} : Clean (descriptor_transform value) := by
  unfold descriptor_transform
  split
  · exact clean_pure
  · exact clean_throw

theorem clean_decode_descriptor {value start_byte delta : UInt8} {param count : ℕ} :
    Clean (decode_descriptor value start_byte delta param count) := by
  refine clean_descriptor_transform.bind fun _ => ?_
  split
  · exact clean_pure
  · exact clean_throw

theorem clean_read_transform_param {descriptor : UInt8} : Clean (read_transform_param descriptor) := by
  refine clean_descriptor_transform.bind fun transform => ?_
  split_ifs
  · exact clean_decode_varuint
  · exact clean_pure

theorem clean_read_record {found : ℕ} : Clean (read_record header found) := by
  refine clean_read_byte.bind fun marker => ?_
  split_ifs
  · exact clean_expect.bind fun _ => clean_decode_varuint.bind fun _ => clean_expect.bind fun _ =>
      clean_read_byte.bind fun _ => clean_read_byte.bind fun _ => clean_read_byte.bind fun _ =>
      clean_read_transform_param.bind fun _ => clean_expect.bind fun _ =>
      clean_decode_descriptor.bind fun _ => clean_pure
  · exact clean_read_byte.bind fun _ => clean_read_byte.bind fun _ =>
      clean_read_transform_param.bind fun _ => clean_decode_varuint.bind fun _ =>
      clean_decode_descriptor.bind fun _ => clean_pure

theorem clean_read_descriptors {fuel found : ℕ} : Clean (read_descriptors header fuel found) := by
  induction fuel generalizing found with
  | zero => exact clean_pure
  | succ fuel ih =>
    unfold read_descriptors
    split_ifs
    · exact clean_pure
    · exact clean_read_record.bind fun _ => ih.bind fun _ => clean_pure

theorem clean_decoded_chunk_length : Clean (decoded_chunk_length header index) := by
  unfold decoded_chunk_length
  split_ifs
  · exact clean_pure
  · exact clean_expect.bind fun _ => clean_pure

theorem clean_read_residuals_loop {previous : Option ℕ} :
    Clean (read_residuals_loop length n previous) := by
  induction n generalizing previous with
  | zero => exact clean_pure
  | succ n ih =>
    exact clean_decode_varuint.bind fun _ => clean_expect.bind fun _ => clean_read_byte.bind fun _ =>
      ih.bind fun _ => clean_pure

theorem clean_read_patches {offsets : List ℕ} : Clean (read_patches offsets) := by
  induction offsets with
  | nil => exact clean_pure
  | cons offset rest ih => exact clean_read_byte.bind fun _ => ih.bind fun _ => clean_pure

theorem clean_read_bitmask_residuals : Clean (read_bitmask_residuals n length) :=
  clean_expect.bind fun _ => clean_read_bytes.bind fun _ => clean_expect.bind fun _ =>
    clean_expect.bind fun _ => clean_read_patches

/-- The residuals of a chunk, in the encoding of its descriptor. -/
def chunk_residuals (descriptor : Descriptor) (length : ℕ) : Reader (List Patch) :=
  if descriptor.bitmask then read_bitmask_residuals descriptor.residual_count length
  else read_residuals descriptor.residual_count length

/-- The bytes before the inversion of the transform. -/
def transformed_bytes (basis : Basis) (start_byte delta : UInt8) (length : ℕ) (residuals : List Patch) :
    Bytes :=
  residuals.foldl (fun data patch => data.set patch.offset patch.byte)
    (basis.bytes start_byte.toNat length delta.toNat)

/-- The chunk of a descriptor with these bytes. -/
def chunk_of (header : Header) (index : ℕ) (descriptor : Descriptor) (length : ℕ)
    (residuals : List Patch) (transformed original : Bytes) : Chunk :=
  ⟨index, index * header.chunk_size, length, descriptor.basis, descriptor.start_byte, descriptor.delta,
    descriptor.transform, descriptor.transform_param, residuals, hexdigest transformed,
    hexdigest transformed, hexdigest original⟩

/-- The part of `decode_chunk` after the residuals. -/
def invert_chunk (header : Header) (index : ℕ) (descriptor : Descriptor) (length : ℕ)
    (residuals : List Patch) : Reader (Chunk × Bytes) :=
  let transformed :=
    transformed_bytes descriptor.basis descriptor.start_byte descriptor.delta length residuals
  match invert_transform descriptor.transform transformed descriptor.transform_param with
  | .error .ValueError => throw .ContainerError
  | .error e => throw e
  | .ok original =>
    pure (chunk_of header index descriptor length residuals transformed original, original)

theorem decode_chunk_eq {descriptor : Descriptor} : decode_chunk header index descriptor =
    decoded_chunk_length header index >>= fun length => chunk_residuals descriptor length >>=
      fun residuals => invert_chunk header index descriptor length residuals := by
  have hbasis (length : ℕ) := @synthesize_basis_ok descriptor.basis descriptor.start_byte.toNat length
    descriptor.delta.toNat (Nat.le_of_lt_succ (UInt8.toNat_lt _)) (Nat.le_of_lt_succ (UInt8.toNat_lt _))
  unfold decode_chunk chunk_residuals invert_chunk
  simp only [hbasis]
  cases descriptor.bitmask <;> rfl

theorem clean_chunk_residuals {descriptor : Descriptor} : Clean (chunk_residuals descriptor length) := by
  unfold chunk_residuals
  split_ifs
  · exact clean_read_bitmask_residuals
  · exact clean_expect.bind fun _ => clean_read_residuals_loop

theorem clean_decode_chunk {descriptor : Descriptor} : Clean (decode_chunk header index descriptor) := by
  rw [decode_chunk_eq]
  refine clean_decoded_chunk_length.bind fun length => clean_chunk_residuals.bind fun residuals => ?_
  unfold invert_chunk
  dsimp only
  split
  · exact clean_throw
  · next e hne hinvert => exact absurd (invert_transform_error hinvert) hne
  · exact clean_pure

theorem clean_decode_chunks {descriptors : List Descriptor} :
    Clean (decode_chunks header index descriptors) := by
  induction descriptors generalizing index with
  | nil => exact clean_pure
  | cons descriptor rest ih => exact clean_decode_chunk.bind fun _ => ih.bind fun _ => clean_pure

theorem clean_read_container : Clean read_container :=
  clean_read_header.bind fun _ => clean_read_descriptors.bind fun _ => clean_decode_chunks.bind fun _ =>
    clean_expect.bind fun _ => clean_get.bind fun _ => clean_expect.bind fun _ =>
    clean_expect.bind fun _ => clean_expect.bind fun _ => clean_pure

end Raises

/-! ## What is read -/

section Reads

variable {s s' : Bytes} {header : Header} {length n index next : ℕ} {patches : List Patch}
  {descriptor : Descriptor} {chunk : Chunk} {original : Bytes}

theorem expect_eq_ok {c : Prop} [Decidable c] {u : Unit} : expect c s = .ok u s' ↔ c ∧ s' = s := by
  unfold expect
  by_cases h : c
  · simp [h, eq_comm]
  · simp [h]

/-! ### Residuals -/

/-- The first offset that can come next. -/
def next_offset : Option ℕ → ℕ
  | none => 0
  | some offset => offset + 1

theorem rising_read_residuals_loop {previous : Option ℕ}
    (h : read_residuals_loop length n previous s = .ok patches s') :
    Rising length (next_offset previous) patches ∧ patches.length = n := by
  induction n generalizing previous s s' patches with
  | zero =>
    obtain ⟨rfl, -⟩ := EStateM.Result.ok.inj h
    exact ⟨trivial, rfl⟩
  | succ n ih =>
    obtain ⟨delta, s₁, -, h⟩ := StateExcept.bind_eq_ok.mp h
    obtain ⟨⟨⟩, s₂, hexpect, h⟩ := StateExcept.bind_eq_ok.mp h
    obtain ⟨byte, s₃, -, h⟩ := StateExcept.bind_eq_ok.mp h
    obtain ⟨rest, s₄, hrest, h⟩ := StateExcept.bind_eq_ok.mp h
    obtain ⟨rfl, -⟩ := EStateM.Result.ok.inj h
    obtain ⟨hrising, hlength⟩ := ih hrest
    refine ⟨⟨?_, (expect_eq_ok.mp hexpect).1, hrising⟩, by rw [List.length_cons, hlength]⟩
    cases previous with
    | none => exact Nat.zero_le _
    | some offset => exact Nat.le_add_right _ _

theorem rising_of_pairwise (h : (patches.map Patch.offset).Pairwise (· < ·))
    (hlength : ∀ patch ∈ patches, patch.offset < length) (hnext : ∀ patch ∈ patches, next ≤ patch.offset) :
    Rising length next patches := by
  induction patches generalizing next with
  | nil => trivial
  | cons patch rest ih =>
    rw [List.map_cons, List.pairwise_cons] at h
    obtain ⟨hfirst, hrest⟩ := h
    refine ⟨hnext patch List.mem_cons_self, hlength patch List.mem_cons_self, ih hrest (fun p hp =>
      hlength p (List.mem_cons_of_mem _ hp)) fun p hp => ?_⟩
    exact hfirst p.offset (List.mem_map_of_mem hp)

theorem offsets_read_patches {offsets : List ℕ} (h : read_patches offsets s = .ok patches s') :
    patches.map Patch.offset = offsets := by
  induction offsets generalizing s s' patches with
  | nil =>
    obtain ⟨rfl, -⟩ := EStateM.Result.ok.inj h
    rfl
  | cons offset rest ih =>
    obtain ⟨byte, s₁, -, h⟩ := StateExcept.bind_eq_ok.mp h
    obtain ⟨patches', s₂, hrest, h⟩ := StateExcept.bind_eq_ok.mp h
    obtain ⟨rfl, -⟩ := EStateM.Result.ok.inj h
    rw [List.map_cons, ih hrest]

theorem rising_read_bitmask_residuals (h : read_bitmask_residuals n length s = .ok patches s') :
    Rising length 0 patches := by
  obtain ⟨-, s₁, -, h⟩ := StateExcept.bind_eq_ok.mp h
  obtain ⟨mask, s₂, -, h⟩ := StateExcept.bind_eq_ok.mp h
  obtain ⟨-, s₃, -, h⟩ := StateExcept.bind_eq_ok.mp h
  obtain ⟨-, s₄, -, h⟩ := StateExcept.bind_eq_ok.mp h
  have hoffsets := offsets_read_patches h
  refine rising_of_pairwise ?_ (fun patch hpatch => ?_) fun _ _ => Nat.zero_le _
  · rw [hoffsets]
    exact List.pairwise_lt_range.filter _
  · have hmem : patch.offset ∈ patches.map Patch.offset := List.mem_map_of_mem hpatch
    rw [hoffsets] at hmem
    exact List.mem_range.mp (List.mem_of_mem_filter hmem)

theorem rising_chunk_residuals (h : chunk_residuals descriptor length s = .ok patches s') :
    Rising length 0 patches := by
  unfold chunk_residuals at h
  split_ifs at h
  · exact rising_read_bitmask_residuals h
  · obtain ⟨-, s₁, -, h⟩ := StateExcept.bind_eq_ok.mp h
    exact (rising_read_residuals_loop h).1

/-! ### Chunks -/

theorem apply_patches_eq {data : Bytes} (h : Rising data.length next patches) : apply_patches data patches =
    .ok (patches.foldl (fun data patch => data.set patch.offset patch.byte) data) := by
  induction patches generalizing data next with
  | nil => rfl
  | cons patch rest ih =>
    obtain ⟨-, hlt, hrest⟩ := h
    rw [apply_patches, require_of hlt, ok_bind, List.foldl_cons]
    have hnext : Rising (data.set patch.offset patch.byte).length (patch.offset + 1) rest := by
      rwa [List.length_set]
    exact ih hnext

/-- A decoded chunk, and what it is decoded to. -/
structure DecodedChunk (header : Header) (index : ℕ) (chunk : Chunk) (original : Bytes) : Prop where
  valid : ValidChunk header.chunk_size chunk
  index_eq : chunk.index = index
  offset_eq : chunk.offset = index * header.chunk_size
  full : index + 1 < header.chunk_count → chunk.length = header.chunk_size
  reconstruct : reconstruct_chunk chunk = .ok original

theorem decoded_chunk_length_ok (hsize : 0 < header.chunk_size)
    (h : decoded_chunk_length header index s = .ok length s') :
    (0 < length ∧ length ≤ header.chunk_size) ∧
      (index + 1 < header.chunk_count → length = header.chunk_size) := by
  unfold decoded_chunk_length at h
  split_ifs at h with hindex
  · obtain ⟨rfl, -⟩ := EStateM.Result.ok.inj h
    exact ⟨⟨hsize, le_rfl⟩, fun _ => rfl⟩
  · obtain ⟨⟨⟩, s₁, hexpect, h⟩ := StateExcept.bind_eq_ok.mp h
    obtain ⟨rfl, -⟩ := EStateM.Result.ok.inj h
    exact ⟨(expect_eq_ok.mp hexpect).1, fun hlt => absurd hlt hindex⟩

theorem reconstruct_chunk_of {transformed : Bytes} (h : Rising length 0 patches)
    (htransformed : transformed =
      transformed_bytes descriptor.basis descriptor.start_byte descriptor.delta length patches)
    (hinvert : invert_transform descriptor.transform transformed descriptor.transform_param =
      .ok original) :
    reconstruct_chunk (chunk_of header index descriptor length patches transformed original) =
      .ok original := by
  have hpatches : apply_patches (descriptor.basis.bytes descriptor.start_byte.toNat length
      descriptor.delta.toNat) patches = .ok transformed := by
    rw [htransformed]
    have hrising : Rising (descriptor.basis.bytes descriptor.start_byte.toNat length
        descriptor.delta.toNat).length 0 patches := by
      rwa [Basis.length_bytes]
    exact apply_patches_eq hrising
  have hrequire (text : String) : require (text = text) = .ok () := require_of rfl
  unfold reconstruct_chunk chunk_of
  dsimp only
  rw [synthesize_basis_ok (Nat.le_of_lt_succ (UInt8.toNat_lt _)) (Nat.le_of_lt_succ (UInt8.toNat_lt _)),
    ok_bind, hpatches, ok_bind, hrequire, ok_bind, ok_bind, hinvert, ok_bind, hrequire, ok_bind]

theorem validChunk_of {chunk_size : ℕ} {transformed : Bytes}
    (hpos : 0 < length) (hle : length ≤ chunk_size) (h : Rising length 0 patches) :
    ValidChunk chunk_size (chunk_of header index descriptor length patches transformed original) := by
  unfold chunk_of
  constructor
  · exact hpos
  · exact hle
  · exact h
  · exact isSha256_hexdigest _
  · exact isSha256_hexdigest _
  · exact isSha256_hexdigest _

theorem invert_chunk_ok {residuals : List Patch} {decoded : Chunk × Bytes}
    (h : invert_chunk header index descriptor length residuals s = .ok decoded s') :
    invert_transform descriptor.transform (transformed_bytes descriptor.basis descriptor.start_byte
      descriptor.delta length residuals) descriptor.transform_param = .ok decoded.2 ∧
    decoded.1 = chunk_of header index descriptor length residuals (transformed_bytes descriptor.basis
      descriptor.start_byte descriptor.delta length residuals) decoded.2 := by
  unfold invert_chunk at h
  cases hinvert : invert_transform descriptor.transform (transformed_bytes descriptor.basis
    descriptor.start_byte descriptor.delta length residuals) descriptor.transform_param with
  | error e =>
    rw [hinvert] at h
    cases e <;> cases h
  | ok original =>
    rw [hinvert] at h
    obtain ⟨rfl, -⟩ := EStateM.Result.ok.inj h
    exact ⟨rfl, rfl⟩

theorem invert_chunk_keeps {residuals : List Patch} {decoded : Chunk × Bytes}
    (h : invert_chunk header index descriptor length residuals s = .ok decoded s') : s' = s := by
  unfold invert_chunk at h
  cases hinvert : invert_transform descriptor.transform (transformed_bytes descriptor.basis
    descriptor.start_byte descriptor.delta length residuals) descriptor.transform_param with
  | error e =>
    rw [hinvert] at h
    cases e <;> cases h
  | ok original =>
    rw [hinvert] at h
    exact (EStateM.Result.ok.inj h).2.symm

theorem decodedChunk_of_ok (hsize : 0 < header.chunk_size)
    (h : decode_chunk header index descriptor s = .ok (chunk, original) s') :
    DecodedChunk header index chunk original := by
  rw [decode_chunk_eq] at h
  obtain ⟨length, s₁, hlength, h⟩ := StateExcept.bind_eq_ok.mp h
  obtain ⟨residuals, s₂, hresiduals, h⟩ := StateExcept.bind_eq_ok.mp h
  obtain ⟨⟨hpos, hle⟩, hfull⟩ := decoded_chunk_length_ok hsize hlength
  have hrising := rising_chunk_residuals hresiduals
  obtain ⟨hinvert, hchunk⟩ := invert_chunk_ok h
  dsimp only at hinvert hchunk
  subst hchunk
  exact ⟨validChunk_of hpos hle hrising, rfl, rfl, hfull, reconstruct_chunk_of hrising rfl hinvert⟩

/-- The chunks that the loop decodes, up to the last one. -/
theorem decodedChunks_of_ok {descriptors : List Descriptor} {decoded : List (Chunk × Bytes)}
    (hsize : 0 < header.chunk_size) (hcount : index + descriptors.length = header.chunk_count)
    (h : decode_chunks header index descriptors s = .ok decoded s') :
    ValidChunks header.chunk_size index (index * header.chunk_size) (decoded.map Prod.fst) ∧
      decoded.length = descriptors.length ∧ ∀ c ∈ decoded, reconstruct_chunk c.1 = .ok c.2 := by
  induction descriptors generalizing index s s' decoded with
  | nil =>
    obtain ⟨rfl, -⟩ := EStateM.Result.ok.inj h
    exact ⟨trivial, rfl, nofun⟩
  | cons descriptor rest ih =>
    obtain ⟨⟨chunk, original⟩, s₁, hchunk, h⟩ := StateExcept.bind_eq_ok.mp h
    obtain ⟨decoded', s₂, hrest, h⟩ := StateExcept.bind_eq_ok.mp h
    obtain ⟨rfl, -⟩ := EStateM.Result.ok.inj h
    have hfirst := decodedChunk_of_ok hsize hchunk
    rw [List.length_cons] at hcount
    obtain ⟨hvalid, hlength, hall⟩ := ih (by omega) hrest
    refine ⟨⟨hfirst.index_eq, hfirst.offset_eq, hfirst.valid, ?_⟩, by rw [List.length_cons,
      List.length_cons, hlength], List.forall_mem_cons.mpr ⟨hfirst.reconstruct, hall⟩⟩
    -- the offset of the next chunk matters only when there is one
    cases decoded' with
    | nil => trivial
    | cons next rest' =>
      rw [List.length_cons] at hlength
      show ValidChunks _ (index + 1) (index * header.chunk_size + chunk.length) _
      rwa [hfirst.full (by omega), ← Nat.succ_mul]

/-! ### Descriptors -/

theorem length_read_record {found : ℕ} {record : List Descriptor}
    (hfound : found < header.chunk_count) (h : read_record header found s = .ok record s') :
    0 < record.length ∧ found + record.length ≤ header.chunk_count := by
  obtain ⟨marker, s₁, -, h⟩ := StateExcept.bind_eq_ok.mp h
  split_ifs at h
  · obtain ⟨-, s₂, -, h⟩ := StateExcept.bind_eq_ok.mp h
    obtain ⟨run_length, s₃, -, h⟩ := StateExcept.bind_eq_ok.mp h
    obtain ⟨⟨⟩, s₄, hrun, h⟩ := StateExcept.bind_eq_ok.mp h
    obtain ⟨descriptor, s₅, -, h⟩ := StateExcept.bind_eq_ok.mp h
    obtain ⟨start_byte, s₆, -, h⟩ := StateExcept.bind_eq_ok.mp h
    obtain ⟨delta, s₇, -, h⟩ := StateExcept.bind_eq_ok.mp h
    obtain ⟨transform_param, s₈, -, h⟩ := StateExcept.bind_eq_ok.mp h
    obtain ⟨⟨⟩, s₉, hcount, h⟩ := StateExcept.bind_eq_ok.mp h
    obtain ⟨decoded, s₁₀, -, h⟩ := StateExcept.bind_eq_ok.mp h
    obtain ⟨rfl, -⟩ := EStateM.Result.ok.inj h
    have hpos := (expect_eq_ok.mp hrun).1
    rw [List.length_replicate]
    exact ⟨by omega, (expect_eq_ok.mp hcount).1⟩
  · obtain ⟨start_byte, s₂, -, h⟩ := StateExcept.bind_eq_ok.mp h
    obtain ⟨delta, s₃, -, h⟩ := StateExcept.bind_eq_ok.mp h
    obtain ⟨transform_param, s₄, -, h⟩ := StateExcept.bind_eq_ok.mp h
    obtain ⟨residual_count, s₅, -, h⟩ := StateExcept.bind_eq_ok.mp h
    obtain ⟨decoded, s₆, -, h⟩ := StateExcept.bind_eq_ok.mp h
    obtain ⟨rfl, -⟩ := EStateM.Result.ok.inj h
    exact ⟨Nat.one_pos, hfound⟩

theorem length_read_descriptors {fuel found : ℕ} {descriptors : List Descriptor}
    (hfound : found ≤ header.chunk_count) (hfuel : header.chunk_count ≤ found + fuel)
    (h : read_descriptors header fuel found s = .ok descriptors s') :
    found + descriptors.length = header.chunk_count := by
  induction fuel generalizing found s s' descriptors with
  | zero =>
    obtain ⟨rfl, -⟩ := EStateM.Result.ok.inj h
    exact le_antisymm hfound hfuel
  | succ fuel ih =>
    unfold read_descriptors at h
    split_ifs at h with hdone
    · obtain ⟨rfl, -⟩ := EStateM.Result.ok.inj h
      exact le_antisymm hfound hdone
    · obtain ⟨record, s₁, hrecord, h⟩ := StateExcept.bind_eq_ok.mp h
      obtain ⟨rest, s₂, hrest, h⟩ := StateExcept.bind_eq_ok.mp h
      obtain ⟨rfl, -⟩ := EStateM.Result.ok.inj h
      obtain ⟨hpos, hle⟩ := length_read_record (Nat.lt_of_not_le hdone) hrecord
      have hlength := ih hle (by omega) hrest
      rw [List.length_append, ← Nat.add_assoc, hlength]

/-! ### The header -/

theorem isSha256_hex {data : Bytes} (h : data.length = 32) : IsSha256 (hex data) := by
  unfold hex IsSha256
  rw [String.toList_ofList]
  refine ⟨by simp [h], List.all_eq_true.mpr fun c hc => ?_⟩
  obtain ⟨b, -, hb⟩ := List.mem_flatMap.mp hc
  have hlt := b.toNat_lt
  simp only [List.mem_cons, List.not_mem_nil, or_false] at hb
  rcases hb with rfl | rfl
  · exact decide_eq_true (hex_digit_mem (Nat.div_lt_of_lt_mul hlt))
  · exact decide_eq_true (hex_digit_mem (Nat.mod_lt _ (by decide)))

theorem read_bytes_eq_ok {data : Bytes} :
    read_bytes n s = .ok data s' ↔ n ≤ s.length ∧ data = s.take n ∧ s' = s.drop n := by
  unfold read_bytes
  simp only [StateExcept.bind_eq_ok, get_apply, set_apply, expect_eq_ok, pure_apply,
    EStateM.Result.ok.injEq]
  constructor
  · rintro ⟨_, _, ⟨rfl, rfl⟩, ⟨⟩, _, ⟨hle, rfl⟩, ⟨⟩, _, ⟨-, rfl⟩, rfl, rfl⟩
    exact ⟨hle, rfl, rfl⟩
  · rintro ⟨hle, rfl, rfl⟩
    exact ⟨_, _, ⟨rfl, rfl⟩, (), _, ⟨hle, rfl⟩, ⟨⟩, _, ⟨trivial, rfl⟩, rfl, rfl⟩

/-- What a header that has been read keeps. -/
structure ReadHeader (header : Header) : Prop where
  chunk_size : header.chunk_size ∈ CANDIDATE_CHUNK_SIZES
  whole_sha256 : IsSha256 header.whole_sha256

theorem ReadHeader.size_pos (h : ReadHeader header) : 0 < header.chunk_size := by
  have hmem := h.chunk_size
  simp only [CANDIDATE_CHUNK_SIZES, List.mem_cons, List.not_mem_nil, or_false] at hmem
  omega

theorem readHeader_of_ok (h : read_header s = .ok header s') : ReadHeader header := by
  obtain ⟨magic, s₁, -, h⟩ := StateExcept.bind_eq_ok.mp h
  obtain ⟨-, s₂, -, h⟩ := StateExcept.bind_eq_ok.mp h
  obtain ⟨version, s₃, -, h⟩ := StateExcept.bind_eq_ok.mp h
  obtain ⟨-, s₄, -, h⟩ := StateExcept.bind_eq_ok.mp h
  obtain ⟨flags, s₅, -, h⟩ := StateExcept.bind_eq_ok.mp h
  obtain ⟨-, s₆, -, h⟩ := StateExcept.bind_eq_ok.mp h
  obtain ⟨code, s₇, -, h⟩ := StateExcept.bind_eq_ok.mp h
  cases hsize : CANDIDATE_CHUNK_SIZES[code.toNat]? with
  | none =>
    rw [hsize] at h
    cases h
  | some chunk_size =>
    rw [hsize] at h
    obtain ⟨original_length, s₈, -, h⟩ := StateExcept.bind_eq_ok.mp h
    obtain ⟨chunk_count, s₉, -, h⟩ := StateExcept.bind_eq_ok.mp h
    obtain ⟨total_residual_count, s₁₀, -, h⟩ := StateExcept.bind_eq_ok.mp h
    obtain ⟨whole_sha256, s₁₁, hwhole, h⟩ := StateExcept.bind_eq_ok.mp h
    obtain ⟨-, s₁₂, -, h⟩ := StateExcept.bind_eq_ok.mp h
    obtain ⟨-, s₁₃, -, h⟩ := StateExcept.bind_eq_ok.mp h
    obtain ⟨-, s₁₄, -, h⟩ := StateExcept.bind_eq_ok.mp h
    obtain ⟨-, s₁₅, -, h⟩ := StateExcept.bind_eq_ok.mp h
    obtain ⟨rfl, -⟩ := EStateM.Result.ok.inj h
    obtain ⟨hle, hdata, -⟩ := read_bytes_eq_ok.mp hwhole
    refine ⟨List.mem_of_getElem? hsize, isSha256_hex ?_⟩
    rw [hdata, List.length_take, min_eq_left hle]

end Reads

end Bogbin.Container
