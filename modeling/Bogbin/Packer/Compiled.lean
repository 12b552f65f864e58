import Bogbin.Container.Sound
import Bogbin.Packer.RoundTrip

/-!
# Compiled containers

The program of a valid container verifies the chunks of the container in turn: it accepts their blocks up to
the first chunk without its hash, and that one blocks it (`compile_verdict`).  The program of a built
container completes, and inverting the transforms of the accepted blocks gives the data
(`compile_round_trip`).
-/

namespace Bogbin.Packer

open Bogvm Vm StateExcept JsonReader

/-- A number that is no truth value; a truth value is printed as a word. -/
def IsPlain (v : Json) : Prop := ∀ b, v ≠ .bool b

/-- The numbers of a chunk in its program are no truth values. -/
structure PlainChunk (chunk : Dict) : Prop where
  start_byte : IsPlain (Container.field chunk "start_byte")
  length : IsPlain (Container.field chunk "length")
  delta : IsPlain ((Dict.get chunk "delta").getD (.int 0))
  residuals : ∀ patch ∈ items (Container.field chunk "residuals"),
    IsPlain (Container.field (fields patch) "offset") ∧ IsPlain (Container.field (fields patch) "byte")

def PlainContainer (container : Json) : Prop :=
  ∀ chunk ∈ items (Container.field (fields container) "chunks"), PlainChunk (fields chunk)

/-- The name of the block of a chunk. -/
def block_name (chunk : Container.Chunk) : Text := (Container.chunk_name chunk.index).toList

section Texts

variable {floats : Container.FloatOps} {v json : Json} {n length index offset chunk_size : ℕ} {b : UInt8}
  {previous : ℤ} {patch : Container.Patch} {patches : List Container.Patch} {basis : Basis} {s : String}
  {chunk : Container.Chunk} {chunks : List Container.Chunk} {contents : Container.Contents}

theorem plain_int (n : ℤ) : IsPlain (.int n) := by
  intro b hb
  cases hb

theorem format_natural (h : Container.natural v = some n) (hplain : IsPlain v) :
    format_value v = digits n := by
  cases v
  case int k =>
    unfold Container.natural int_value at h
    dsimp only at h
    split_ifs at h with hle
    obtain rfl := Option.some.inj h
    obtain ⟨m, rfl⟩ := Int.eq_ofNat_of_zero_le hle
    exact toList_toString_ofNat m
  case bool b => exact absurd rfl (hplain b)
  all_goals cases h

theorem natural_of_byte_value (h : Container.byte_value v = some b) :
    Container.natural v = some b.toNat := by
  unfold Container.byte_value at h
  split at h
  · rename_i n hnatural
    split_ifs at h with hle
    obtain rfl := Option.some.inj h
    rw [hnatural, UInt8.toNat_ofNat_of_lt' (Nat.lt_succ_of_le hle)]
  · cases h

theorem solid_natural (h : Container.natural v = some n) : Solid (format_value v) := by
  cases v
  case int k =>
    rw [format_natural h (plain_int k)]
    exact (isToken_digits n).solid
  case bool b =>
    cases b
    · exact (isToken_of_all (by simp) rfl : IsToken "False".toList).solid
    · exact (isToken_of_all (by simp) rfl : IsToken "True".toList).solid
  all_goals cases h

theorem format_basis (h : Container.basis_value v = some basis) : format_value v = basis.name.toList := by
  cases v
  case str s => exact congrArg String.toList (Basis.name_of_of_name h).symm
  all_goals cases h

theorem format_sha256 (h : Container.sha256_text v = some s) : format_value v = s.toList := by
  rw [(Container.sha256_text_eq_some.mp h).1]
  rfl

/-- What a patch that has been checked is printed as. -/
theorem patch_text (h : Container.validate_patch length previous json = .ok patch)
    (hplain : IsPlain (Container.field (fields json) "offset") ∧
      IsPlain (Container.field (fields json) "byte")) :
    (format_value (Container.field (fields json) "offset"),
        format_value (Container.field (fields json) "byte")) =
      (digits patch.offset, digits patch.byte.toNat) := by
  unfold Container.validate_patch at h
  split at h
  · simp only [Bogbin.bind_eq_ok, Container.require_eq_ok, Container.checked_eq_ok] at h
    obtain ⟨_, -, o, hoffset, _, -, _, -, b, hbyte, heq⟩ := h
    obtain rfl := Except.ok.inj heq
    exact Prod.ext (format_natural hoffset hplain.1) (format_natural (natural_of_byte_value hbyte) hplain.2)
  · cases h

theorem patch_texts {items : List Json} (h : Container.validate_patches length previous items = .ok patches)
    (hplain : ∀ item ∈ items, IsPlain (Container.field (fields item) "offset") ∧
      IsPlain (Container.field (fields item) "byte")) :
    items.map (fun patch => (format_value (Container.field (fields patch) "offset"),
        format_value (Container.field (fields patch) "byte"))) = residual_texts patches := by
  induction items generalizing previous patches with
  | nil =>
    obtain rfl := Except.ok.inj h
    rfl
  | cons item rest ih =>
    obtain ⟨patch, hpatch, hrest⟩ := Bogbin.bind_eq_ok.mp h
    obtain ⟨patches', hpatches, heq⟩ := Bogbin.bind_eq_ok.mp hrest
    obtain rfl := Except.ok.inj heq
    obtain ⟨hitem, hitems⟩ := List.forall_mem_cons.mp hplain
    rw [List.map_cons, patch_text hpatch hitem, ih hpatches hitems]
    rfl

theorem toList_chunk_name (index : ℕ) :
    (Container.chunk_name index).toList = chunk_name "payload".toList index := by
  have hfront : "payload_chunk_".toList = "payload".toList ++ "_chunk_".toList := rfl
  unfold Container.chunk_name chunk_name
  rw [String.toList_ofList]
  exact congrArg (· ++ ZeroPadding.zero_padded 4 index) hfront

/-- The lines of a chunk that has been checked. -/
theorem container_block_eq (h : Container.validate_chunk floats index offset chunk_size json = .ok chunk)
    (hplain : PlainChunk (fields json)) : container_block json = chunk_block "payload".toList chunk := by
  unfold Container.validate_chunk at h
  split at h
  · rename_i d
    simp only [Bogbin.bind_eq_ok, Container.require_eq_ok, Container.checked_eq_ok] at h
    obtain ⟨_, -, _, -, _, hname, _, -, length, hlength, _, -, _, -, basis, hbasis, transform, -, param, -,
      start, hstart, delta, hdelta, count, -, h⟩ := h
    split at h
    · rename_i residuals hresiduals
      simp only [Bogbin.bind_eq_ok, Container.require_eq_ok, Container.checked_eq_ok] at h
      obtain ⟨_, -, sha256, hsha256, transformed, -, original, -, patches, hpatches, heq⟩ := h
      obtain rfl := Except.ok.inj heq
      have hitems := hplain.residuals
      have hfields : fields (.obj d) = d := rfl
      rw [hfields, hresiduals] at hitems
      unfold container_block chunk_block
      dsimp only
      rw [hfields, hname, format_basis hbasis, format_natural (natural_of_byte_value hstart) hplain.start_byte,
        format_natural hlength hplain.length, format_natural (natural_of_byte_value hdelta) hplain.delta,
        hresiduals, format_sha256 hsha256, ← patch_texts hpatches hitems, ← toList_chunk_name]
      rfl
    · cases h
  · cases h

theorem container_blocks {items : List Json}
    (h : Container.validate_chunks floats chunk_size index offset items = .ok chunks)
    (hplain : ∀ item ∈ items, PlainChunk (fields item)) :
    items.map container_block = chunks.map (chunk_block "payload".toList) := by
  induction items generalizing index offset chunks with
  | nil =>
    obtain rfl := Except.ok.inj h
    rfl
  | cons item rest ih =>
    obtain ⟨chunk, hchunk, hrest⟩ := Bogbin.bind_eq_ok.mp h
    obtain ⟨chunks', hchunks, heq⟩ := Bogbin.bind_eq_ok.mp hrest
    obtain rfl := Except.ok.inj heq
    obtain ⟨hitem, hitems⟩ := List.forall_mem_cons.mp hplain
    rw [List.map_cons, List.map_cons, container_block_eq hchunk hitem, ih hchunks hitems]

/-- The text of a valid container. -/
theorem compile_ok (h : Container.validate_bog_container floats json = .ok contents)
    (hplain : PlainContainer json) : ∃ comments, Comments comments ∧
      compile_bog_container_to_bogasm floats json =
        .ok (program_text comments (contents.chunks.map (chunk_block "payload".toList))) := by
  have hcompile : compile_bog_container_to_bogasm floats json = .ok (program_text
      (container_comments (fields json))
      ((items (Container.field (fields json) "chunks")).map container_block)) := by
    rw [compile_bog_container_to_bogasm, h, ok_bind]
  unfold Container.validate_bog_container at h
  split at h
  · rename_i d
    simp only [Bogbin.bind_eq_ok, Container.require_eq_ok, Container.checked_eq_ok] at h
    obtain ⟨_, -, _, hformat, _, hvm_format, _, -, size, hsize, _, -, count, hcount, total, htotal, sha256,
      hsha256, h⟩ := h
    split at h
    · rename_i chunks hchunks
      simp only [Bogbin.bind_eq_ok, Container.require_eq_ok] at h
      obtain ⟨_, -, valid, hvalid, _, -, _, -, _, -, heq⟩ := h
      obtain rfl := Except.ok.inj heq
      have hfields : fields (.obj d) = d := rfl
      have hitems : ∀ item ∈ chunks, PlainChunk (fields item) := by
        have hall := hplain
        unfold PlainContainer at hall
        rwa [hfields, hchunks] at hall
      rw [hfields, hchunks] at hcompile
      refine ⟨_, ?_, hcompile.trans (congrArg (fun blocks => Except.ok (program_text _ blocks))
        (container_blocks hvalid hitems))⟩
      intro comment hcomment
      simp only [container_comments, List.mem_cons, List.not_mem_nil, or_false] at hcomment
      rcases hcomment with rfl | rfl | rfl | rfl | rfl | rfl
      · rw [hformat]
        have htoken : IsToken Container.BOG_FORMAT.toList := isToken_of_all (by simp [Container.BOG_FORMAT]) rfl
        exact comment_of (by simp) rfl htoken.solid
      · rw [hvm_format]
        have htoken : IsToken Container.BOGBIN_FORMAT.toList :=
          isToken_of_all (by simp [Container.BOGBIN_FORMAT]) rfl
        exact comment_of (by simp) rfl htoken.solid
      · rw [format_sha256 hsha256]
        exact comment_of (by simp) rfl
          (isToken_of_isSha256 (Container.sha256_text_eq_some.mp hsha256).2).solid
      · exact comment_of (by simp) rfl (solid_natural hsize)
      · exact comment_of (by simp) rfl (solid_natural hcount)
      · exact comment_of (by simp) rfl (solid_natural htotal)
    · cases h
  · cases h

end Texts

section Runs

variable {floats : Container.FloatOps} {json : Json} {chunk_size : ℕ}
  {contents : Container.Contents} {plan : Container.ChunkedPlan} {data : Bytes}

theorem payload_names (h : Container.ValidContents contents) :
    (List.range contents.chunks.length).map (chunk_name "payload".toList) =
      contents.chunks.map block_name := by
  rw [List.range_eq_range', ← h.chunks.index_eq, List.map_map]
  exact List.map_congr_left fun chunk _ => (toList_chunk_name chunk.index).symm

theorem isToken_payload : IsToken "payload".toList := isToken_of_all (by simp) rfl

/-! ### Built containers -/

theorem plain_patch_json (patch : Container.Patch) :
    IsPlain (Container.field (fields (Container.patch_json patch)) "offset") ∧
      IsPlain (Container.field (fields (Container.patch_json patch)) "byte") := by
  obtain ⟨hoffset, hbyte⟩ := Container.field_patch_json patch
  have hfields : fields (Container.patch_json patch) =
      Dict.of [("offset", .int patch.offset), ("byte", .int patch.byte.toNat)] := rfl
  rw [hfields, hoffset, hbyte]
  exact ⟨plain_int _, plain_int _⟩

theorem plain_chunk_json (chunk : Container.Chunk) : PlainChunk (fields (Container.chunk_json chunk)) := by
  obtain ⟨d, hd, -, -, -, hlength, -, hstart, hdelta, -, -, -, hresiduals, -⟩ :=
    Container.get_chunk_json chunk
  have hfields : fields (Container.chunk_json chunk) = d := by rw [hd]; rfl
  rw [hfields]
  refine ⟨?_, ?_, ?_, ?_⟩
  · rw [Container.field, hstart]
    exact plain_int _
  · rw [Container.field, hlength]
    exact plain_int _
  · rw [hdelta]
    exact plain_int _
  · rw [Container.field, hresiduals]
    intro item hitem
    obtain ⟨patch, -, rfl⟩ := List.mem_map.mp hitem
    exact plain_patch_json patch

theorem plain_built (floats : Container.FloatOps) (plan : Container.ChunkedPlan) (auto_chunk : Bool)
    (results : List Json) (transform_tournament : Bool) : PlainContainer
      (Container.build_bog_container_from_plan floats plan auto_chunk results transform_tournament) := by
  obtain ⟨d, hd, hhas, -⟩ :=
    @Container.get_built_json floats plan auto_chunk transform_tournament results
  unfold PlainContainer
  have hfields : fields (Container.build_bog_container_from_plan floats plan auto_chunk results
      transform_tournament) = d := by rw [hd]; rfl
  rw [hfields, Container.field, hhas.chunks]
  intro item hitem
  obtain ⟨chunk, -, rfl⟩ := List.mem_map.mp hitem
  exact plain_chunk_json chunk

theorem chunk_count_le (h : Container.BuiltPlan data chunk_size plan) (hsize : 16 ≤ chunk_size)
    (hlength : data.length ≤ 16 * 65527) : plan.chunks.length ≤ 65527 := by
  rw [h.count, Container.chunk_count_of]
  split_ifs
  · exact Nat.zero_le _
  · have hmul : 65527 * 16 ≤ 65527 * chunk_size := Nat.mul_le_mul_left _ hsize
    have hlt : data.length + chunk_size - 1 < chunk_size * 65528 := by omega
    exact Nat.le_of_lt_succ (Nat.div_lt_of_lt_mul hlt)

theorem candidate_size_le (h : chunk_size ∈ Container.CANDIDATE_CHUNK_SIZES) :
    16 ≤ chunk_size ∧ chunk_size ≤ 65535 := by
  have hall : ∀ size ∈ Container.CANDIDATE_CHUNK_SIZES, 16 ≤ size ∧ size ≤ 65535 := by decide
  exact hall chunk_size h

/-! ### Programs -/

/-- The program of a valid container completes, or is blocked at the first chunk without its hash. -/
theorem compile_verdict (float_repr : Text → String)
    (hvalid : Container.validate_bog_container floats json = .ok contents) (hplain : PlainContainer json)
    (hlength : ∀ chunk ∈ contents.chunks, chunk.length ≤ 65535)
    (hcount : contents.chunks.length ≤ 65527) :
    ∃ text, compile_bog_container_to_bogasm floats json = .ok text ∧
      if ∀ chunk ∈ contents.chunks, Intact chunk then
        RunsTo float_repr text (contents.chunks.map block_name) (contents.chunks.map chunk_bytes)
      else BlocksAfter float_repr text (contents.chunks.takeWhile (Intact ·)).length := by
  obtain ⟨comments, hcomments, hcompile⟩ := compile_ok hvalid hplain
  have hcontents := Container.validate_bog_container_ok hvalid
  refine ⟨_, hcompile, ?_⟩
  split_ifs with hintact
  · rw [← payload_names hcontents]
    exact runsTo_of_intact hcontents hlength hcount (fun _ _ => isToken_payload) float_repr hcomments hintact
  · exact blocksAfter_of_not_intact hcontents hlength hcount (fun _ _ => isToken_payload) float_repr
      hcomments hintact

theorem compile_verdict_built : ∃ container contents text,
    Container.validate_bog_container Container.zero_floats container = .ok contents ∧
      contents.chunks.length = 1 ∧
      compile_bog_container_to_bogasm Container.zero_floats container = .ok text ∧
      if ∀ chunk ∈ contents.chunks, Intact chunk then
        RunsTo String.ofList text (contents.chunks.map block_name) (contents.chunks.map chunk_bytes)
      else BlocksAfter String.ofList text (contents.chunks.takeWhile (Intact ·)).length := by
  obtain ⟨plan, hplan, hbuilt⟩ := Container.optimize_chunked_plan_ok [7] false
    (by decide : 0 < 16) (by decide)
  have hcount := chunk_count_le hbuilt le_rfl (by decide)
  obtain ⟨text, hcompile, hverdict⟩ := compile_verdict String.ofList
    (@Container.BuiltPlan.check Container.zero_floats [7] 16 plan false false [] hbuilt (by decide)).1
    (plain_built _ _ _ _ _) (chunk_length_le hbuilt (by decide) (by decide)) hcount
  exact ⟨_, _, text, (hbuilt.check (by decide)).1, hbuilt.count, hcompile, hverdict⟩

/-- Data is built into a container, compiled, run and reconstructed. -/
theorem compile_round_trip (float_repr : Text → String) (floats : Container.FloatOps) (data : Bytes)
    (chunk_size : ℕ) (auto_chunk transform_tournament : Bool)
    (hsize : chunk_size ∈ Container.CANDIDATE_CHUNK_SIZES ∨ auto_chunk = true)
    (hlength : data.length ≤ 16 * 65527) : ∃ container contents text originals,
      Container.build_bog_container_v1 floats data chunk_size auto_chunk transform_tournament =
        .ok container ∧
      Container.validate_bog_container floats container = .ok contents ∧
      compile_bog_container_to_bogasm floats container = .ok text ∧
      RunsTo float_repr text (contents.chunks.map block_name) (contents.chunks.map chunk_bytes) ∧
      (contents.chunks.mapM fun chunk => Container.invert_transform chunk.transform (chunk_bytes chunk)
        chunk.transform_param) = .ok originals ∧ originals.flatten = data := by
  obtain ⟨plan, results, hbuild, size, hmem, hplan⟩ :=
    Container.build_bog_container_v1_ok floats data transform_tournament hsize
  obtain ⟨hsmall, hlarge⟩ := candidate_size_le hmem
  have hpos := Container.candidate_size_pos hmem
  have hvalid := hplan.valid hpos
  have hcheck := (@Container.BuiltPlan.check floats data size plan auto_chunk transform_tournament results
    hplan hpos).1
  obtain ⟨comments, hcomments, hcompile⟩ := compile_ok hcheck (plain_built _ _ _ _ _)
  have hruns := runsTo_of_intact hvalid (chunk_length_le hplan hpos hlarge)
    (chunk_count_le hplan hsmall hlength) (fun _ _ => isToken_payload) float_repr hcomments
    (intact_of_built hplan hpos)
  rw [payload_names hvalid] at hruns
  have hinverts := (inverts_of_built hplan hpos).imp fun _ _ hboth => hboth.2
  exact ⟨_, plan.contents, _, _, hbuild, hcheck, hcompile, hruns, mapM_eq_ok hinverts,
    Container.flatten_slices hpos⟩

theorem compile_round_trip_byte : ∃ container contents text originals,
    Container.build_bog_container_v1 Container.zero_floats [7] 64 false true = .ok container ∧
    Container.validate_bog_container Container.zero_floats container = .ok contents ∧
    compile_bog_container_to_bogasm Container.zero_floats container = .ok text ∧
    RunsTo String.ofList text (contents.chunks.map block_name) (contents.chunks.map chunk_bytes) ∧
    (contents.chunks.mapM fun chunk => Container.invert_transform chunk.transform (chunk_bytes chunk)
      chunk.transform_param) = .ok originals ∧ originals.flatten = [7] :=
  compile_round_trip String.ofList Container.zero_floats [7] 64 false true (Or.inl (by decide)) (by decide)

end Runs

end Bogbin.Packer
