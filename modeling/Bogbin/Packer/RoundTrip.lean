import Bogbin.Packer.Chunks

/-!
# Round trips of packed data

The text of the packer assembles, and the run of the program accepts exactly the packed data
(`pack_bytes_round_trip`, `pack_chunked_round_trip`), unless the name of the data holds a `#`: then the
rest of every line with the name is a comment, and the text does not assemble.
-/

namespace Bogbin.Packer

open Bogvm Vm StateExcept

/-! ## Names with a comment -/

section Comments

variable {a : Assembler} {name text : Text} {words : List Text} {op : Op} {rest : List Text}

theorem takeWhile_line (hname : '#' ∈ name) (hop : '#' ∉ text) :
    (line (text :: name :: words)).takeWhile (· ≠ '#') = text ++ ' ' :: name.takeWhile (· ≠ '#') := by
  have hstop (tail : Text) : (name ++ tail).takeWhile (· ≠ '#') = name.takeWhile (· ≠ '#') := by
    rw [List.takeWhile_append, if_neg]
    intro hall
    have hinitial : name.takeWhile (· ≠ '#') = name := ( List.takeWhile_prefix _).eq_of_length hall
    have hhash := List.mem_takeWhile_imp (hinitial ▸ hname)
    simp at hhash
  have hline : ∃ tail, line (text :: name :: words) = text ++ ' ' :: (name ++ tail) := by
    rw [line, List.intercalate_cons_cons]
    cases words with
    | nil => exact ⟨[], by simp⟩
    | cons word words =>
      rw [List.intercalate_cons_cons]
      exact ⟨' ' :: List.intercalate [' '] (word :: words), by simp⟩
  obtain ⟨tail, htail⟩ := hline
  have hfront : ∀ c ∈ text, (c ≠ '#' : Bool) = true := by
    intro c hc
    rw [decide_eq_true_eq]
    rintro rfl
    exact hop hc
  rw [htail, List.takeWhile_append_of_pos hfront, List.takeWhile_cons_of_pos (by decide), hstop]

/-- The words of a line whose second word holds a `#`. -/
theorem split_hash_line (hspace : Solid name) (hname : '#' ∈ name)
    (hop : IsToken text) : split (strip_comment (line (text :: name :: words))) =
      text :: Tokens.flush (name.takeWhile (· ≠ '#')) := by
  have hwords : Tokens.words is_space (name.takeWhile (· ≠ '#')) =
      Tokens.flush (name.takeWhile (· ≠ '#')) := by
    have hscan := @Tokens.scan_append _ is_space [] (name.takeWhile (· ≠ '#')) []
      fun c hc => hspace c (( List.takeWhile_prefix _).subset hc)
    rw [List.append_nil, List.nil_append] at hscan
    rw [Tokens.words, hscan]
    rfl
  rw [strip_comment, takeWhile_line hname hop.2, split, strip, Tokens.words_strip,
    Tokens.words_append hop.1 (by decide), hwords]

theorem length_with_name_le (names : List Text) (name : Text) :
    (with_name names name).length ≤ names.length + 1 := by
  unfold with_name
  split_ifs
  · exact Nat.le_succ _
  · exact List.length_append.le

theorem parse_lines_of_error {e : PyError} {a' : Assembler} (h : parse_line text a = .error e a') :
    parse_lines (text :: rest) a = .error e a' := by
  rw [parse_lines, bind_of_error h]

/-- The lines of a block whose name holds a `#` are not assembled. -/
theorem parse_hash_block {block : Block} (hspace : Solid block.name)
    (hname : '#' ∈ block.name) :
    ∃ a, parse_lines (block.text.lines ++ rest) .new = .error .AssemblerError a := by
  have hlines : ∃ tail, block.text.lines ++ rest = line ["DATA_BLOCK".toList, block.name] ::
      line [Op.DECLARE_BASIS.name.toList, block.basis.name.toList] ::
      line [Op.LOAD_COEFFICIENTS.name.toList, block.name, digits block.start_byte.toNat,
        digits block.length, digits block.delta.toNat] :: tail := ⟨_, rfl⟩
  obtain ⟨tail, htail⟩ := hlines
  have htoken : IsToken "DATA_BLOCK".toList := isToken_of_all (by simp) rfl
  have hdirective : directive (upper "DATA_BLOCK".toList) = some .DATA_BLOCK := by decide +kernel
  have hdata (a : Assembler) : parse_line (line ["DATA_BLOCK".toList, block.name]) a =
      parse_data_block (Tokens.flush (block.name.takeWhile (· ≠ '#'))) a := by
    unfold parse_line
    rw [split_hash_line hspace hname htoken]
    dsimp only
    rw [hdirective]
    rfl
  rw [htail]
  by_cases hempty : block.name.takeWhile (· ≠ '#') = []
  · -- the name is a comment, and the block has no name
    rw [hempty] at hdata
    exact ⟨_, parse_lines_of_error (hdata _)⟩
  · -- the name is cut off, and the coefficients are a comment
    rw [Tokens.flush_of_ne_nil hempty] at hdata
    have hload (a : Assembler) : parse_line (line [Op.LOAD_COEFFICIENTS.name.toList, block.name,
        digits block.start_byte.toNat, digits block.length, digits block.delta.toNat]) a =
          .error .AssemblerError a := by
      unfold parse_line
      rw [split_hash_line hspace hname (isToken_name _), Tokens.flush_of_ne_nil hempty]
      dsimp only
      rw [directive_name]
      rfl
    refine ⟨_, (parse_lines_of (hdata _)).trans ((parse_lines_of (parse_declare_basis_of
      (isToken_basis block.basis) ?_)).trans (parse_lines_of_error (hload _)))⟩
    exact (length_with_name_le _ _).trans (Nat.le_of_ble_eq_true rfl)

end Comments

/-! ## The packer -/

section Packer

variable {data : Bytes} {data_name text : Text} {chunk_size index : ℕ} {plan : Container.ResidualPlan}
  {chunk : Container.Chunk} {chunked : Container.ChunkedPlan} {blocks : List Block} {comments : List Text}

/-- The block of a plan in numbers. -/
def plan_packed (data_name : Text) (plan : Container.ResidualPlan) : Block :=
  ⟨data_name, plan.basis, plan.start_byte, plan.delta, plan.length, plan.residuals, plan.sha256⟩

theorem validate_data_name_eq (data_name : Text) : validate_data_name data_name =
    if data_name = [] ∨ data_name.any is_space = true then .error .PackerError else .ok () := rfl

theorem solid_of_not_any (h : ¬data_name.any is_space = true) : Solid data_name := by
  intro c hc
  by_contra hspace
  exact h (List.any_eq_true.mpr ⟨c, hc, Bool.not_eq_false _ ▸ hspace⟩)

theorem isToken_of_valid (hne : data_name ≠ []) (hspace : Solid data_name) (hhash : '#' ∉ data_name) :
    IsToken data_name :=
  ⟨⟨hne, hspace⟩, hhash⟩

/-- A text of comments and blocks, the first of which has a name with a `#`. -/
theorem assemble_hash_text {block : Block} (hcomments : Comments comments)
    (hbreaks : ∀ text ∈ (block :: blocks).map Block.text, ∀ line ∈ text.lines, ∀ c ∈ line,
      is_break c = false) (hspace : Solid block.name) (hname : '#' ∈ block.name) :
    assemble_text (program_text comments ((block :: blocks).map Block.text)) = .error .AssemblerError := by
  have hsplit := splitlines_program_text hcomments hbreaks
  rw [List.map_cons, List.flatMap_cons, ← List.map_cons, List.append_assoc, List.append_assoc] at hsplit
  obtain ⟨a, hparse⟩ := @parse_hash_block ((blocks.map Block.text).flatMap BlockText.lines ++
    [line [Op.EMIT_RECEIPT.name.toList], line [Op.HALT.name.toList]]) block hspace hname
  unfold assemble_text
  rw [hsplit, parse_comments fun comment hcomment => (hcomments comment hcomment).1, hparse]

theorem fits_plan {bytes : Bytes} (h : Container.ExactPlan bytes plan) (hname : IsToken data_name)
    (hlength : bytes.length ≤ 65535) : (plan_packed data_name plan).Fits where
  name := hname
  sha256 := by
    show IsToken plan.sha256.toList
    rw [h.sha256]
    exact isToken_of_isSha256 (Container.isSha256_hexdigest _)
  length := h.length.trans_le hlength
  rising := by
    show Container.Rising plan.length 0 plan.residuals
    rw [h.length]
    exact h.rising

theorem bytes_plan {bytes : Bytes} (h : Container.ExactPlan bytes plan) :
    (plan_packed data_name plan).bytes = bytes := by
  unfold Block.bytes plan_packed
  dsimp only
  rw [h.length]
  exact h.transformed

theorem comments_nil : Comments [] := fun _ h => absurd h List.not_mem_nil

/-- The text of one block is refused for a `#` in the name and otherwise runs to the data. -/
theorem pack_bytes_round_trip (float_repr : Text → String) (data : Bytes) (data_name : Text) :
    if data_name = [] ∨ data_name.any is_space = true ∨ 65535 < data.length then
      pack_bytes_to_bogasm data data_name = .error .PackerError
    else ∃ text, pack_bytes_to_bogasm data data_name = .ok text ∧
      if '#' ∈ data_name then assemble_text text = .error .AssemblerError
      else RunsTo float_repr text [data_name] [data] := by
  have hvalid := validate_data_name_eq data_name
  by_cases hbad : data_name = [] ∨ data_name.any is_space = true ∨ 65535 < data.length
  · rw [if_pos hbad, pack_bytes_to_bogasm, hvalid]
    by_cases hname : data_name = [] ∨ data_name.any is_space = true
    · rw [if_pos hname, error_bind]
    · have hlong := hbad.resolve_left fun hnil => hname (.inl hnil)
      rw [if_neg hname, ok_bind, if_pos (hlong.resolve_left fun hany => hname (.inr hany))]
  · obtain ⟨hne, hrest⟩ := not_or.mp hbad
    obtain ⟨hany, hlong⟩ := not_or.mp hrest
    obtain ⟨plan, hplan, hexact⟩ := Container.optimize_residual_plan_ok data
    have hspace := solid_of_not_any hany
    have htexts : [plan_block data_name plan] = [plan_packed data_name plan].map Block.text := rfl
    rw [if_neg hbad]
    refine ⟨program_text [] [plan_block data_name plan], ?_, ?_⟩
    · rw [pack_bytes_to_bogasm, hvalid, if_neg (not_or.mpr ⟨hne, hany⟩), ok_bind, if_neg hlong, hplan,
        ok_bind]
    · rw [htexts]
      split_ifs with hhash
      · refine assemble_hash_text comments_nil (fun text htext => ?_) hspace hhash
        obtain rfl := List.mem_singleton.mp htext
        refine not_break_of_block hspace (isToken_of_isSha256 ?_).solid
        show Container.IsSha256 plan.sha256
        rw [hexact.sha256]
        exact Container.isSha256_hexdigest _
      · have hfits := fits_plan hexact (isToken_of_valid hne hspace hhash) (not_lt.mp hlong)
        have htogether : FitTogether [plan_packed data_name plan] :=
          ⟨List.forall_mem_singleton.mpr hfits, List.nodup_singleton _, Nat.le_of_ble_eq_true rfl,
            length_constants_le (Nat.le_of_ble_eq_true rfl)⟩
        have hruns := runsTo_of_hashes float_repr comments_nil htogether
          (List.forall_mem_singleton.mpr (by rw [bytes_plan hexact]; exact hexact.sha256.symm))
        have hbytes : [plan_packed data_name plan].map Block.bytes = [data] := by
          rw [List.map_singleton, bytes_plan hexact]
        rwa [hbytes] at hruns

/-! ### Chunks -/

theorem plain_chunk_identity {bytes : Bytes} (h : Container.plain_chunk chunk_size index bytes = .ok chunk) :
    chunk.transform = .identity := by
  unfold Container.plain_chunk at h
  obtain ⟨plan, -, hplan⟩ := Bogbin.bind_eq_ok.mp h
  obtain ⟨_, -, hchunk⟩ := Bogbin.bind_eq_ok.mp hplan
  obtain rfl := Except.ok.inj hchunk
  rfl

/-- The chunks of a plan without the tournament of the transforms. -/
theorem optimize_plain_ok (data : Bytes) (hsize : 0 < chunk_size) (hlarge : chunk_size ≤ 65535) :
    ∃ plan, Container.optimize_chunked_plan data chunk_size false = .ok plan ∧
      Container.BuiltPlan data chunk_size plan ∧ ∀ chunk ∈ plan.chunks, chunk.transform = .identity := by
  obtain ⟨plan, hplan, hbuilt⟩ := Container.optimize_chunked_plan_ok data false hsize hlarge
  refine ⟨plan, hplan, hbuilt, ?_⟩
  unfold Container.optimize_chunked_plan at hplan
  obtain ⟨_, -, h₁⟩ := Bogbin.bind_eq_ok.mp hplan
  obtain ⟨_, -, h₂⟩ := Bogbin.bind_eq_ok.mp h₁
  obtain ⟨chunks, hchunks, h₃⟩ := Bogbin.bind_eq_ok.mp h₂
  obtain rfl := Except.ok.inj h₃
  intro chunk hchunk
  obtain ⟨i, -, hplain⟩ := forall₂_mem (forall_of_mapM_eq_ok hchunks) chunk hchunk
  exact plain_chunk_identity hplain

theorem comment_of {front value : Text} (hfront : front.head? = some '#')
    (hbreaks : front.all (fun c => !is_break c) = true) (hvalue : Solid value) :
    (front ++ value).head? = some '#' ∧ ∀ c ∈ front ++ value, is_break c = false := by
  constructor
  · rw [List.head?_append, hfront]
    rfl
  · intro c hc
    rcases List.mem_append.mp hc with hc | hc
    · have hnot := List.all_eq_true.mp hbreaks c hc
      rwa [Bool.not_eq_true'] at hnot
    · by_contra hbreak
      have hspace := is_space_of_is_break (Bool.not_eq_false _ ▸ hbreak)
      rw [hvalue c hc] at hspace
      cases hspace

theorem comments_chunked {data : Bytes} (h : chunked.whole_sha256 = hexdigest data) :
    Comments (chunked_comments chunked) := by
  have hsha256 : Solid chunked.whole_sha256.toList := by
    rw [h]
    exact (isToken_of_isSha256 (Container.isSha256_hexdigest _)).solid
  have hdigits (n : ℕ) : Solid (digits n) := (isToken_digits n).solid
  intro comment hcomment
  simp only [chunked_comments, List.mem_cons, List.not_mem_nil, or_false] at hcomment
  rcases hcomment with rfl | rfl | rfl | rfl
  · exact comment_of (by simp) rfl hsha256
  · exact comment_of (by simp) rfl (hdigits _)
  · exact comment_of (by simp) rfl (hdigits _)
  · exact comment_of (by simp) rfl (hdigits _)

theorem runsTo_chunks (float_repr : Text → String) (h : Container.BuiltPlan data chunk_size chunked)
    (hidentity : ∀ chunk ∈ chunked.chunks, chunk.transform = .identity) (hsize : 0 < chunk_size)
    (hlarge : chunk_size ≤ 65535) (hcount : Container.chunk_count_of chunk_size data.length ≤ 65527)
    (hname : ∀ chunk ∈ chunked.chunks, IsToken data_name) :
    RunsTo float_repr (program_text (chunked_comments chunked) (chunked.chunks.map (chunk_block data_name)))
      ((List.range (Container.chunk_count_of chunk_size data.length)).map (chunk_name data_name))
      ((List.range (Container.chunk_count_of chunk_size data.length)).map
        (Container.slice chunk_size data)) := by
  have hbytes : chunked.chunks.map chunk_bytes =
      (List.range (Container.chunk_count_of chunk_size data.length)).map
        (Container.slice chunk_size data) := by
    have hboth := (List.forall₂_and_left _ _).mpr ⟨hidentity, inverts_of_built h hsize⟩
    have hsame : List.Forall₂ (fun chunk original => chunk_bytes chunk = original) chunked.chunks _ :=
      hboth.imp fun chunk original hchunk => by
        rw [hchunk.1] at hchunk
        exact Except.ok.inj hchunk.2.2
    have hmap := List.forall₂_map_left_iff.mpr hsame
    rwa [List.forall₂_eq_eq_eq] at hmap
  rw [← h.count] at hcount
  have hruns := runsTo_of_intact (h.valid hsize) (chunk_length_le h hsize hlarge) hcount hname float_repr
    (comments_chunked h.whole_sha256) (intact_of_built h hsize)
  rw [← hbytes, ← h.count]
  exact hruns

theorem data_eq_nil (h : Container.BuiltPlan data chunk_size chunked) (hsize : 0 < chunk_size)
    (hchunks : chunked.chunks = []) : data = [] := by
  have hcount := h.count
  rw [hchunks, List.length_nil] at hcount
  have hslices := @Container.flatten_slices data chunk_size hsize
  rwa [← hcount, List.range_zero, List.map_nil, List.flatten_nil, eq_comm] at hslices

/-- No data, no chunks. -/
theorem chunks_nil (h : Container.BuiltPlan [] chunk_size chunked) : chunked.chunks = [] := by
  rw [← List.length_eq_zero_iff, h.count]
  exact if_pos rfl

/-- The text of the chunks is refused for a `#` in the name. -/
theorem assemble_hash_chunks (h : Container.BuiltPlan data chunk_size chunked) (hsize : 0 < chunk_size)
    (hspace : Solid data_name) (hhash : '#' ∈ data_name) (hchunks : chunked.chunks ≠ []) :
    assemble_text (program_text (chunked_comments chunked) (chunked.chunks.map (chunk_block data_name))) =
      .error .AssemblerError := by
  have hbreaks : ∀ text ∈ (chunked.chunks.map (chunk_packed data_name)).map Block.text, ∀ line ∈ text.lines,
      ∀ c ∈ line, is_break c = false := not_break_of_chunks (h.valid hsize) hspace
  rw [chunk_texts]
  obtain ⟨chunk, chunks, hcons⟩ := List.exists_cons_of_ne_nil hchunks
  rw [hcons, List.map_cons] at hbreaks ⊢
  refine assemble_hash_text (comments_chunked h.whole_sha256) hbreaks (solid_chunk_name hspace _) ?_
  exact List.mem_append_left _ (List.mem_append_left _ hhash)

/-- The text of the chunks of the data is refused for a `#` in the name, unless there are no chunks, and
otherwise runs to the chunks, which make up the data. -/
theorem pack_chunked_round_trip (float_repr : Text → String) (data : Bytes) (data_name : Text)
    (chunk_size : ℕ) (hcount : Container.chunk_count_of chunk_size data.length ≤ 65527) :
    if data_name = [] ∨ data_name.any is_space = true then
      pack_chunked_bytes_to_bogasm data data_name chunk_size = .error .PackerError
    else if chunk_size = 0 ∨ 65535 < chunk_size then
      pack_chunked_bytes_to_bogasm data data_name chunk_size = .error .ValueError
    else ∃ text, pack_chunked_bytes_to_bogasm data data_name chunk_size = .ok text ∧
      if data ≠ [] ∧ '#' ∈ data_name then assemble_text text = .error .AssemblerError
      else ∃ contents, RunsTo float_repr text ((List.range contents.length).map (chunk_name data_name))
        contents ∧ contents.flatten = data := by
  have hvalid := validate_data_name_eq data_name
  by_cases hname : data_name = [] ∨ data_name.any is_space = true
  · rw [if_pos hname, pack_chunked_bytes_to_bogasm, hvalid, if_pos hname, error_bind]
  rw [if_neg hname]
  by_cases hbad : chunk_size = 0 ∨ 65535 < chunk_size
  · rw [if_pos hbad, pack_chunked_bytes_to_bogasm, hvalid, if_neg hname, ok_bind]
    unfold Container.optimize_chunked_plan reject_if
    by_cases hzero : chunk_size = 0
    · rw [if_pos hzero]
      rfl
    · rw [if_neg hzero, if_pos (hbad.resolve_left hzero)]
      rfl
  rw [if_neg hbad]
  obtain ⟨hzero, hlarge⟩ := not_or.mp hbad
  have hsize := Nat.pos_of_ne_zero hzero
  obtain ⟨plan, hplan, hbuilt, hidentity⟩ := optimize_plain_ok data hsize (not_lt.mp hlarge)
  have hany := (not_or.mp hname).2
  have hspace := solid_of_not_any hany
  refine ⟨program_text (chunked_comments plan) (plan.chunks.map (chunk_block data_name)), ?_, ?_⟩
  · rw [pack_chunked_bytes_to_bogasm, hvalid, if_neg hname, ok_bind, hplan, ok_bind]
  split_ifs with hhash
  · exact assemble_hash_chunks hbuilt hsize hspace hhash.2 fun hchunks =>
      hhash.1 (data_eq_nil hbuilt hsize hchunks)
  · refine ⟨_, ?_, Container.flatten_slices hsize⟩
    rw [List.length_map, List.length_range]
    refine runsTo_chunks float_repr hbuilt hidentity hsize (not_lt.mp hlarge) hcount fun chunk hchunk => ?_
    have hdata : data ≠ [] := by
      rintro rfl
      rw [chunks_nil hbuilt] at hchunk
      exact absurd hchunk List.not_mem_nil
    exact isToken_of_valid (not_or.mp hname).1 hspace fun hmem => hhash ⟨hdata, hmem⟩

theorem pack_chunked_round_trip_three : ∃ text contents,
    pack_chunked_bytes_to_bogasm [1, 2, 3] "a".toList 2 = .ok text ∧
      RunsTo String.ofList text ((List.range contents.length).map (chunk_name "a".toList)) contents ∧
      contents.flatten = [1, 2, 3] := by
  have hround := pack_chunked_round_trip String.ofList [1, 2, 3] "a".toList 2 (by decide)
  rw [if_neg (by decide), if_neg (by decide)] at hround
  obtain ⟨text, hpack, hrun⟩ := hround
  rw [if_neg (by decide)] at hrun
  obtain ⟨contents, hruns, hflatten⟩ := hrun
  exact ⟨text, contents, hpack, hruns, hflatten⟩

end Packer

end Bogbin.Packer
