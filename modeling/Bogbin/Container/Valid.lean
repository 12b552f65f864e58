import Bogbin.Bogvm.ArchiveProof
import Bogbin.Container.Bogpk
import Bogbin.Bogvm.Ledger
import Bogbin.Bogvm.DictSorted

/-!
# What the validation of a container says

The values that `validate_bog_container` gives are those of a valid container (`ValidContents`), and
the chunks that the decoder writes are validated with these values (`validate_chunks_json`).
-/

namespace Bogbin.Container

open Bogvm Vm

/-- Rising offsets from a bound on, below a length. -/
def Rising (length : ℕ) : ℕ → List Patch → Prop
  | _, [] => True
  | next, patch :: rest =>
    next ≤ patch.offset ∧ patch.offset < length ∧ Rising length (patch.offset + 1) rest

/-- The text of a hash. -/
def IsSha256 (s : String) : Prop := s.toList.length = 64 ∧ is_hex s.toList = true

structure ValidChunk (chunk_size : ℕ) (chunk : Chunk) : Prop where
  length_pos : 0 < chunk.length
  length_le : chunk.length ≤ chunk_size
  rising : Rising chunk.length 0 chunk.residuals
  chunk_sha256 : IsSha256 chunk.chunk_sha256
  transformed_sha256 : IsSha256 chunk.transformed_sha256
  original_chunk_sha256 : IsSha256 chunk.original_chunk_sha256

/-- Chunks from an index and an offset on. -/
def ValidChunks (chunk_size : ℕ) : ℕ → ℕ → List Chunk → Prop
  | _, _, [] => True
  | index, offset, chunk :: rest =>
    chunk.index = index ∧ chunk.offset = offset ∧ ValidChunk chunk_size chunk ∧
      ValidChunks chunk_size (index + 1) (offset + chunk.length) rest

structure ValidContents (contents : Contents) : Prop where
  chunk_size_pos : 0 < contents.chunk_size
  whole_sha256 : IsSha256 contents.whole_sha256
  total : (contents.chunks.map Chunk.residual_count).sum = contents.total_residual_count
  chunks : ValidChunks contents.chunk_size 0 0 contents.chunks

section Checks

variable {α : Type} {o : Option α} {a : α} {c : Prop} [Decidable c] {d : Dict} {key s : String}
  {v : Json} {n : ℕ} {b : UInt8}

@[simp] theorem require_eq_ok {u : Unit} : require c = .ok u ↔ c := by
  unfold require
  rw [reject_if_eq_ok, not_not]

theorem require_of (h : c) : require c = .ok () := require_eq_ok.mpr h

@[simp] theorem checked_eq_ok : checked o = .ok a ↔ o = some a := by
  cases o with
  | none => exact ⟨fun h => (nomatch h), fun h => (nomatch h)⟩
  | some b => exact ⟨fun h => congrArg some (Except.ok.inj h), fun h => congrArg Except.ok (Option.some.inj h)⟩

theorem natural_int (n : ℕ) : natural (.int n) = some n := by
  simp [natural, int_value]

theorem byte_value_int (b : UInt8) : byte_value (.int b.toNat) = some b := by
  have hb := b.toNat_lt
  rw [byte_value, natural_int]
  dsimp only
  rw [if_pos (by omega), UInt8.ofNat_toNat]

theorem sha256_text_eq_some : sha256_text v = some s ↔ v = .str s ∧ IsSha256 s := by
  unfold sha256_text IsSha256
  cases v
  case str t =>
    dsimp only
    by_cases ht : t.toList.length = 64 ∧ is_hex t.toList = true
    · rw [if_pos ht, Option.some.injEq, Json.str.injEq]
      exact ⟨fun h => ⟨h, h ▸ ht⟩, And.left⟩
    · rw [if_neg ht, Json.str.injEq]
      exact ⟨fun h => (nomatch h), fun ⟨h, ht'⟩ => absurd (h ▸ ht') ht⟩
  all_goals simp

theorem equals_int {floats : FloatOps} (n : ℤ) : equals floats (.int n) n = true := by
  simp [equals, int_value]

theorem isSha256_hexdigest (data : Bytes) : IsSha256 (hexdigest data) := by
  obtain ⟨hlength, hhex⟩ := toList_hexdigest data
  exact ⟨hlength, hhex⟩

end Checks

/-! ## From the validation -/

section Sound

variable {floats : FloatOps} {chunk_size index offset length next : ℕ} {previous : ℤ} {json : Json}
  {patch : Patch} {patches : List Patch} {chunk : Chunk} {chunks : List Chunk} {contents : Contents}
  {items : List Json}

theorem validate_patch_ok (h : validate_patch length previous json = .ok patch) :
    previous < patch.offset ∧ patch.offset < length := by
  unfold validate_patch at h
  split at h
  · simp only [bind_eq_ok, require_eq_ok, checked_eq_ok] at h
    obtain ⟨-, -, o, -, -, hlength, -, hprevious, b, -, heq⟩ := h
    obtain rfl := Except.ok.inj heq
    exact ⟨hprevious, hlength⟩
  · cases h

theorem validate_patches_ok (h : validate_patches length previous items = .ok patches)
    (hnext : (next : ℤ) = previous + 1) :
    Rising length next patches ∧ patches.length = items.length := by
  induction items generalizing previous next patches with
  | nil =>
    obtain rfl := Except.ok.inj h
    exact ⟨trivial, rfl⟩
  | cons item rest ih =>
    obtain ⟨patch, hpatch, h⟩ := bind_eq_ok.mp h
    obtain ⟨rest', hrest, heq⟩ := bind_eq_ok.mp h
    obtain rfl := Except.ok.inj heq
    obtain ⟨hprevious, hlength⟩ := validate_patch_ok hpatch
    obtain ⟨hrising, hcount⟩ := @ih (patch.offset + 1) _ _ hrest (by push_cast; rfl)
    exact ⟨⟨by omega, hlength, hrising⟩, by rw [List.length_cons, List.length_cons, hcount]⟩

theorem optional_sha256_ok {d : Dict} {key default s : String}
    (h : optional_sha256 d key default = .ok s) (hdefault : IsSha256 default) : IsSha256 s := by
  unfold optional_sha256 at h
  split at h
  · obtain rfl := Except.ok.inj h
    exact hdefault
  · exact (sha256_text_eq_some.mp (checked_eq_ok.mp h)).2

theorem validate_chunk_ok (h : validate_chunk floats index offset chunk_size json = .ok chunk) :
    chunk.index = index ∧ chunk.offset = offset ∧ ValidChunk chunk_size chunk := by
  unfold validate_chunk at h
  split at h
  · simp only [bind_eq_ok, require_eq_ok, checked_eq_ok] at h
    obtain ⟨-, -, -, -, -, -, -, -, length, -, -, hle, -, hpos, basis, -, transform, -, param, -,
      start, -, delta, -, count, -, h⟩ := h
    split at h
    · simp only [bind_eq_ok, require_eq_ok, checked_eq_ok] at h
      obtain ⟨-, -, sha, hsha, transformed, htransformed, original, horiginal, residuals, hresiduals,
        heq⟩ := h
      obtain rfl := Except.ok.inj heq
      have hsha' := (sha256_text_eq_some.mp hsha).2
      exact ⟨rfl, rfl, ⟨Nat.pos_of_ne_zero hpos, hle, (validate_patches_ok hresiduals rfl).1, hsha',
        optional_sha256_ok htransformed hsha', optional_sha256_ok horiginal hsha'⟩⟩
    · cases h
  · cases h

theorem validate_chunks_ok
    (h : validate_chunks floats chunk_size index offset items = .ok chunks) :
    ValidChunks chunk_size index offset chunks := by
  induction items generalizing index offset chunks with
  | nil =>
    obtain rfl := Except.ok.inj h
    trivial
  | cons item rest ih =>
    obtain ⟨chunk, hchunk, h⟩ := bind_eq_ok.mp h
    obtain ⟨rest', hrest, heq⟩ := bind_eq_ok.mp h
    obtain rfl := Except.ok.inj heq
    obtain ⟨hindex, hoffset, hvalid⟩ := validate_chunk_ok hchunk
    exact ⟨hindex, hoffset, hvalid, ih hrest⟩

/-- A validated container has valid contents. -/
theorem validate_bog_container_ok (h : validate_bog_container floats json = .ok contents) :
    ValidContents contents := by
  unfold validate_bog_container at h
  split at h
  · simp only [bind_eq_ok, require_eq_ok, checked_eq_ok] at h
    obtain ⟨-, -, -, -, -, -, -, -, size, -, -, hsize, count, -, total, -, sha, hsha, h⟩ := h
    split at h
    · simp only [bind_eq_ok, require_eq_ok] at h
      obtain ⟨-, -, chunks, hchunks, -, htotal, -, -, -, -, heq⟩ := h
      obtain rfl := Except.ok.inj heq
      exact ⟨Nat.pos_of_ne_zero hsize, (sha256_text_eq_some.mp hsha).2, htotal,
        validate_chunks_ok hchunks⟩
    · cases h
  · cases h

end Sound

/-! ## Of a decoded container -/

section Decoded

variable {floats : FloatOps} {chunk_size index offset length next : ℕ} {previous : ℤ} {patch : Patch}
  {patches : List Patch} {chunk : Chunk} {chunks : List Chunk} {header : Header}

theorem get_patch_json {key : String} : Dict.get (Dict.of [("offset", .int patch.offset),
    ("byte", .int patch.byte.toNat)]) key =
      if "byte" = key then some (.int patch.byte.toNat)
      else if "offset" = key then some (.int patch.offset) else none := by
  simp only [Dict.of, List.foldl_cons, List.foldl_nil, Dict.get_set]
  rfl

theorem field_patch_json (patch : Patch) :
    field (Dict.of [("offset", .int patch.offset), ("byte", .int patch.byte.toNat)]) "offset" =
        .int patch.offset ∧
      field (Dict.of [("offset", .int patch.offset), ("byte", .int patch.byte.toNat)]) "byte" =
        .int patch.byte.toNat := by
  constructor
  · rw [field, get_patch_json]
    rfl
  · rw [field, get_patch_json]
    rfl

theorem validate_patch_json (hprevious : previous < patch.offset) (hlength : patch.offset < length) :
    validate_patch length previous (patch_json patch) = .ok patch := by
  obtain ⟨hoffset, hbyte⟩ := field_patch_json patch
  have hkeys : only_keys (Dict.of [("offset", Json.int patch.offset), ("byte", .int patch.byte.toNat)])
      ["offset", "byte"] = true := only_keys_of (by simp)
  unfold validate_patch patch_json
  dsimp only
  rw [hoffset, hbyte, natural_int, byte_value_int, require_of ⟨hkeys, by rw [get_patch_json]; rfl,
    by rw [get_patch_json]; rfl⟩]
  show (do
    require (patch.offset < length)
    require (previous < patch.offset)
    .ok (⟨patch.offset, patch.byte⟩ : Patch)) = _
  rw [require_of hlength, require_of hprevious]
  rfl

theorem validate_patches_json (h : Rising length next patches) (hnext : (next : ℤ) = previous + 1) :
    validate_patches length previous (patches.map patch_json) = .ok patches := by
  induction patches generalizing previous next with
  | nil => rfl
  | cons patch rest ih =>
    obtain ⟨hle, hlt, hrest⟩ := h
    rw [List.map_cons, validate_patches, validate_patch_json (by omega) hlt, StateExcept.ok_bind,
      ih hrest (by push_cast; rfl), StateExcept.ok_bind]

/-- A field of a decoded chunk. -/
theorem get_chunk_json (chunk : Chunk) : ∃ fields, chunk_json chunk = .obj fields ∧
    Dict.get fields "index" = some (.int chunk.index) ∧
    Dict.get fields "name" = some (.str (chunk_name chunk.index)) ∧
    Dict.get fields "offset" = some (.int chunk.offset) ∧
    Dict.get fields "length" = some (.int chunk.length) ∧
    Dict.get fields "basis" = some (.str chunk.basis.name) ∧
    Dict.get fields "start_byte" = some (.int chunk.start_byte.toNat) ∧
    Dict.get fields "delta" = some (.int chunk.delta.toNat) ∧
    Dict.get fields "transform" = some (.str chunk.transform.name) ∧
    Dict.get fields "transform_param" = some (.int chunk.transform_param) ∧
    Dict.get fields "residual_count" = some (.int chunk.residual_count) ∧
    Dict.get fields "residuals" = some (.arr (chunk.residuals.map patch_json)) ∧
    Dict.get fields "chunk_sha256" = some (.str chunk.chunk_sha256) ∧
    Dict.get fields "transformed_sha256" = some (.str chunk.transformed_sha256) ∧
    Dict.get fields "original_chunk_sha256" = some (.str chunk.original_chunk_sha256) := by
  refine ⟨_, rfl, ?_, ?_, ?_, ?_, ?_, ?_, ?_, ?_, ?_, ?_, ?_, ?_, ?_, ?_⟩
  all_goals simp [Dict.of, Dict.get_set]

theorem validate_chunk_json (h : ValidChunk chunk_size chunk) (hindex : chunk.index = index)
    (hoffset : chunk.offset = offset) :
    validate_chunk floats index offset chunk_size (chunk_json chunk) = .ok chunk := by
  subst hindex hoffset
  obtain ⟨fields, hfields, h₁, h₂, h₃, h₄, h₅, h₆, h₇, h₈, h₉, h₁₀, h₁₁, h₁₂, h₁₃, h₁₄⟩ :=
    get_chunk_json chunk
  have hrequired : ∀ key ∈ REQUIRED_CHUNK_FIELDS, (Dict.get fields key).isSome := by
    simp [REQUIRED_CHUNK_FIELDS, h₁, h₂, h₃, h₄, h₅, h₆, h₁₀, h₁₁, h₁₂]
  have hsha {key s : String} (hget : Dict.get fields key = some (.str s)) (hs : IsSha256 s) :
      optional_sha256 fields key chunk.chunk_sha256 = .ok s := by
    rw [optional_sha256, hget]
    exact checked_eq_ok.mpr (sha256_text_eq_some.mpr ⟨rfl, hs⟩)
  rw [hfields]
  simp only [validate_chunk, field, h₁, h₂, h₃, h₄, h₅, h₆, h₇, h₈, h₉, h₁₀, h₁₁, h₁₂, Option.getD_some]
  simp only [bind_eq_ok, require_eq_ok, checked_eq_ok]
  refine ⟨(), hrequired, (), equals_int _, (), trivial, (), equals_int _, chunk.length, natural_int _, (),
    h.length_le, (), Nat.pos_iff_ne_zero.mp h.length_pos, chunk.basis, Basis.of_name_name _,
    chunk.transform, Transform.of_name_name _, chunk.transform_param, natural_int _, chunk.start_byte,
    byte_value_int _, chunk.delta, byte_value_int _, chunk.residual_count, natural_int _, (),
    List.length_map _, chunk.chunk_sha256, sha256_text_eq_some.mpr ⟨rfl, h.chunk_sha256⟩,
    _, hsha h₁₃ h.transformed_sha256, _, hsha h₁₄ h.original_chunk_sha256,
    chunk.residuals, validate_patches_json h.rising rfl, rfl⟩

theorem validate_chunks_json (h : ValidChunks chunk_size index offset chunks) :
    validate_chunks floats chunk_size index offset (chunks.map chunk_json) = .ok chunks := by
  induction chunks generalizing index offset with
  | nil => rfl
  | cons chunk rest ih =>
    obtain ⟨hindex, hoffset, hvalid, hrest⟩ := h
    rw [List.map_cons, validate_chunks, validate_chunk_json hvalid hindex hoffset, StateExcept.ok_bind,
      ih hrest, StateExcept.ok_bind]

/-- Every chunk has one transform. -/
theorem sum_countP_transform (chunks : List Chunk) :
    (TRANSFORM_ORDER.map fun transform => chunks.countP fun chunk => chunk.transform = transform).sum =
      chunks.length := by
  induction chunks with
  | nil => rfl
  | cons chunk rest ih =>
    simp only [TRANSFORM_ORDER, List.map_cons, List.map_nil, List.sum_cons, List.sum_nil,
      List.countP_cons, List.length_cons] at ih ⊢
    cases chunk.transform <;> simp <;> omega

theorem mapM_eq_some {α β : Type} {f : α → Option β} {g : α → β} {l : List α}
    (h : ∀ a ∈ l, f a = some (g a)) : l.mapM f = some (l.map g) := by
  induction l with
  | nil => rfl
  | cons a rest ih =>
    obtain ⟨ha, hrest⟩ := List.forall_mem_cons.mp h
    rw [List.mapM_cons, ha, ih hrest]
    rfl

theorem sum_equals_transform_counts (chunks : List Chunk) :
    sum_equals floats ((transform_counts chunks).map Prod.snd) chunks.length = .ok true := by
  let counts : List (String × Json) := TRANSFORM_ORDER.map fun transform =>
    (transform.name, .int (chunks.countP fun chunk => chunk.transform = transform))
  let number (v : Json) : ℤ := (int_value v).getD 0
  have hnodup : (counts.map Prod.fst).Nodup :=
    show (TRANSFORM_ORDER.map Transform.name).Nodup by decide
  have hperm : ((transform_counts chunks).map Prod.snd).Perm (counts.map Prod.snd) :=
    (Dict.perm_of hnodup).map Prod.snd
  have hmap : ((transform_counts chunks).map Prod.snd).mapM int_value =
      some (((transform_counts chunks).map Prod.snd).map number) := by
    have hall : ∀ v ∈ (transform_counts chunks).map Prod.snd, int_value v = some (number v) := by
      intro v hv
      obtain ⟨entry, hentry, rfl⟩ := List.mem_map.mp (hperm.mem_iff.mp hv)
      obtain ⟨transform, -, rfl⟩ := List.mem_map.mp hentry
      rfl
    exact mapM_eq_some hall
  have hsum : (((transform_counts chunks).map Prod.snd).map number).sum = (chunks.length : ℤ) := by
    rw [(hperm.map number).sum_eq, ← sum_countP_transform chunks]
    simp [counts, number, int_value, TRANSFORM_ORDER]
  rw [sum_equals, hmap]
  dsimp only
  rw [hsum, decide_eq_true rfl]

end Decoded

end Bogbin.Container
