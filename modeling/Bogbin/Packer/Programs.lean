import Bogbin.Container.Builder
import Bogbin.Packer.Executed
import Bogbin.Vm.Loader

/-!
# Runs of packed programs

The text of a program of blocks assembles, unless its manifest is too long, loads as the assembler has left
it, and runs to the bytes of the blocks (`runsTo_of_hashes`) or up to the first block with a wrong hash
(`blocksAfter_of_hashes`).
-/

namespace Bogbin.Packer

open Bogvm Vm StateExcept

/-- The bytes of the accepted blocks. -/
def accepted_bytes (s : VMState) : List Bytes :=
  s.accepted_data_blocks.map fun id => ((s.data_blocks[id]?).map (·.bytes)).getD []

/-- The text assembles, unless its manifest has 4 GiB or more, and the run of the loaded program
accepts blocks with these names and bytes. -/
def RunsTo (float_repr : Text → String) (text : Text) (names : List Text) (contents : List Bytes) : Prop :=
  ∃ a, parse_lines (splitlines text) .new = .ok () a ∧
    if 2 ^ 32 ≤ a.manifest_bytes.length then assemble_text text = .error .StructError
    else ∃ bytes receipt s, assemble_text text = .ok bytes ∧
      load_bogbin float_repr bytes = .ok (.obj a.manifest, a.instructions, hexdigest bytes) ∧
      run a.manifest (hexdigest bytes) a.instructions .initial = .ok receipt s ∧
      Dict.get receipt "accepted_data_block_names" = some (.arr (names.map text_json)) ∧
      accepted_bytes s = contents ∧ s.rejected_data_blocks = []

/-- The text assembles, unless its manifest has 4 GiB or more, and the run of the loaded program is
blocked after it has accepted this many blocks. -/
def BlocksAfter (float_repr : Text → String) (text : Text) (count : ℕ) : Prop :=
  ∃ a, parse_lines (splitlines text) .new = .ok () a ∧
    if 2 ^ 32 ≤ a.manifest_bytes.length then assemble_text text = .error .StructError
    else ∃ bytes s, assemble_text text = .ok bytes ∧
      load_bogbin float_repr bytes = .ok (.obj a.manifest, a.instructions, hexdigest bytes) ∧
      run a.manifest (hexdigest bytes) a.instructions .initial = .error .VMError s ∧
      s.accepted_data_blocks = List.range count ∧ s.rejected_data_blocks = []

section Programs

variable {float_repr : Text → String} {block : Block} {blocks : List Block} {comments : List Text}
  {names : List Text} {name : Text} {front back : List Block} {bad : Block}

theorem nodup_with_name (h : names.Nodup) : (with_name names name).Nodup := by
  unfold with_name
  split_ifs with hmem
  · exact h
  · exact List.nodup_append.mpr ⟨h, List.nodup_singleton _, fun a ha b hb heq => hmem (by
      rwa [← List.mem_singleton.mp hb, ← heq])⟩

theorem subset_with_name {l : List Text} (h : names ⊆ l) (hname : name ∈ l) : with_name names name ⊆ l := by
  unfold with_name
  split_ifs
  · exact h
  · exact List.append_subset.mpr ⟨h, List.cons_subset.mpr ⟨hname, List.nil_subset _⟩⟩

/-- The constants of a program are names of bases and hashes of blocks, each once. -/
theorem constants_add_blocks {a : Assembler} {l : List Text} (ha : a.constants.Nodup)
    (hl : a.constants ⊆ l) (hbasis : ∀ basis : Basis, basis.name.toList ∈ l)
    (hsha256 : ∀ block ∈ blocks, block.sha256.toList ∈ l) :
    (add_blocks a blocks).constants.Nodup ∧ (add_blocks a blocks).constants ⊆ l := by
  induction blocks generalizing a with
  | nil => exact ⟨ha, hl⟩
  | cons block blocks ih =>
    obtain ⟨hblock, hblocks⟩ := List.forall_mem_cons.mp hsha256
    exact @ih (block.add a) (nodup_with_name (nodup_with_name ha))
      (subset_with_name (subset_with_name hl (hbasis _)) hblock) hblocks

/-- A program with few blocks has room for their constants. -/
theorem length_constants_le (h : blocks.length ≤ 65527) : (assembled blocks).constants.length ≤ 65536 := by
  obtain ⟨hnodup, hsubset⟩ := @constants_add_blocks blocks .new
    (BASIS_ORDER.map (fun basis => basis.name.toList) ++ blocks.map fun block => block.sha256.toList)
    List.nodup_nil (List.nil_subset _)
    (fun basis => List.mem_append_left _ (List.mem_map.mpr ⟨basis, basis.mem_BASIS_ORDER, rfl⟩))
    fun block hblock => List.mem_append_right _ (List.mem_map.mpr ⟨block, hblock, rfl⟩)
  have hle := (hnodup.subperm hsubset).length_le
  rw [List.length_append, List.length_map, List.length_map] at hle
  have hbases : BASIS_ORDER.length = 9 := rfl
  exact hle.trans (by omega)

theorem accepted_bytes_of_ran {s : VMState} (h : Ran blocks s) :
    accepted_bytes s = blocks.map Block.bytes := by
  unfold accepted_bytes
  rw [h.accepted]
  refine List.ext_getElem (by simp) fun i hi hi' => ?_
  rw [List.length_map] at hi'
  rw [List.getElem_map, List.getElem_map, List.getElem_range,
    h.block i blocks[i] (List.getElem?_eq_getElem hi')]
  rfl

/-! ### The size of a program -/

theorem length_rising {length next : ℕ} {residuals : List Container.Patch}
    (h : Container.Rising length next residuals) (hnext : next ≤ length) :
    next + residuals.length ≤ length := by
  induction residuals generalizing next with
  | nil => exact hnext
  | cons patch residuals ih =>
    obtain ⟨hle, hlt, hrest⟩ := h
    have hnext := ih hrest hlt
    rw [List.length_cons]
    omega

theorem length_instructions_le (h : block.Fits) (data_id basis_id hash_id : ℕ) :
    (block.instructions data_id basis_id hash_id).length ≤ 65541 := by
  have hrising := length_rising h.rising (Nat.zero_le _)
  have hlength := h.length
  rw [Block.instructions, List.length_append, List.length_append, List.length_map]
  simp only [List.length_cons, List.length_nil]
  omega

theorem length_code_le {a : Assembler} (h : ∀ block ∈ blocks, block.Fits) :
    (code a blocks).length ≤ 65541 * blocks.length := by
  induction blocks generalizing a with
  | nil => exact le_rfl
  | cons block blocks ih =>
    obtain ⟨hblock, hblocks⟩ := List.forall_mem_cons.mp h
    have hle := length_instructions_le hblock a.data_names.length
      ((block.constants a.constants).idxOf block.basis.name.toList)
      ((block.constants a.constants).idxOf block.sha256.toList)
    have hrest := @ih (block.add a) hblocks
    rw [code, List.length_append, List.length_cons]
    omega

/-- A program whose lines have been read is written, unless its manifest is too long. -/
theorem program_of_declares {a : Assembler} (hfits : ∀ i ∈ a.instructions, ∃ part, i.pack = .ok part) :
    (2 ^ 32 ≤ a.manifest_bytes.length ∧ a.program = .error .StructError) ∨
      a.manifest_bytes.length < 2 ^ 32 ∧ ∃ bytes, a.program = .ok bytes ∧
        bytes.length = 12 + a.manifest_bytes.length + 8 * a.instructions.length := by
  obtain ⟨parts, hparts⟩ := exists_mapM_eq_ok hfits
  have hforall := forall_of_mapM_eq_ok hparts
  have hlength : ∀ part ∈ parts, part.length = 8 := by
    intro part hpart
    obtain ⟨i, -, hpack⟩ := forall₂_mem hforall part hpart
    exact length_of_pack hpack
  have hsum : parts.flatten.length = 8 * a.instructions.length := by
    rw [List.length_flatten, List.map_congr_left hlength, List.map_const', List.sum_replicate,
      smul_eq_mul, hforall.length_eq, Nat.mul_comm]
  unfold Assembler.program
  rw [hparts, ok_bind]
  by_cases hlong : 2 ^ 32 ≤ a.manifest_bytes.length
  · exact .inl ⟨hlong, if_pos hlong⟩
  · refine .inr ⟨not_le.mp hlong, _, if_neg hlong, ?_⟩
    have hmagic : MAGIC.length = 8 := rfl
    rw [List.length_append, List.length_append, List.length_append, hsum, Buffer.length_beBytes, hmagic]

/-- The instruction has a packed form. -/
def Packs (i : Instruction) : Prop := ∃ part, i.pack = .ok part

theorem packs (op : Op) {flags target source param : ℕ} (hflags : flags ≤ 255) (htarget : target ≤ 65535)
    (hsource : source ≤ 65535) (hparam : param ≤ 65535) : Packs ⟨op.code, flags, target, source, param⟩ := by
  have hop : op.code ≤ 255 := by
    cases op <;> decide
  exact ⟨_, if_pos ⟨hop, hflags, htarget, hsource, hparam⟩⟩

theorem packs_instructions (h : block.Fits) {data_id basis_id hash_id : ℕ} (hdata : data_id ≤ 65535)
    (hbasis : basis_id ≤ 65535) (hhash : hash_id ≤ 65535) :
    ∀ i ∈ block.instructions data_id basis_id hash_id, Packs i := by
  have hstart := toNat_le block.start_byte
  intro i hi
  simp only [Block.instructions, List.mem_append, List.mem_cons, List.mem_map, List.not_mem_nil,
    or_false] at hi
  rcases hi with ((rfl | rfl | rfl) | ⟨patch, hpatch, rfl⟩) | rfl | rfl | rfl
  · exact packs _ (by omega) hbasis (by omega) (by omega)
  · exact packs _ (toNat_le _) hdata (by omega) h.length
  · exact packs _ (by omega) hdata (by omega) (by omega)
  · have hlt := offset_lt_of_rising h.rising patch hpatch
    have hlength := h.length
    have hbyte := toNat_le patch.byte
    exact packs _ (by omega) hdata (by omega) (by omega)
  · exact packs _ (by omega) hdata (by omega) (by omega)
  · exact packs _ (by omega) hdata hhash (by omega)
  · exact packs _ (by omega) hdata (by omega) (by omega)

theorem packs_code {a : Assembler} (h : ∀ block ∈ blocks, block.Fits)
    (hcount : a.data_names.length + blocks.length ≤ 65536)
    (hconstants : (add_blocks a blocks).constants.length ≤ 65536) : ∀ i ∈ code a blocks, Packs i := by
  induction blocks generalizing a with
  | nil => exact fun _ hi => absurd hi List.not_mem_nil
  | cons block blocks ih =>
    obtain ⟨hblock, hblocks⟩ := List.forall_mem_cons.mp h
    rw [List.length_cons] at hcount
    have hinitial := (prefix_add_blocks (block.add a) blocks).length_le
    have hfull : (block.constants a.constants).length ≤ 65536 := hinitial.trans hconstants
    have hbasis : block.basis.name.toList ∈ block.constants a.constants :=
      (prefix_with_name _ _).subset mem_with_name
    have hhash : block.sha256.toList ∈ block.constants a.constants := mem_with_name
    intro i hi
    rcases List.mem_append.mp hi with hi | hi
    · exact packs_instructions hblock (by omega) (idxOf_le hbasis hfull) (idxOf_le hhash hfull) i hi
    · refine ih hblocks ?_ hconstants i hi
      show (a.data_names ++ [block.name]).length + blocks.length ≤ 65536
      rw [List.length_append, List.length_singleton]
      omega

theorem packs_assembled (h : FitTogether blocks) : ∀ i ∈ (assembled blocks).instructions, Packs i := by
  rw [instructions_assembled]
  intro i hi
  rcases List.mem_append.mp hi with hi | hi
  · refine packs_code h.fits ?_ h.constants i hi
    exact (Nat.zero_add _).trans_le h.count
  · rcases List.mem_pair.mp hi with rfl | rfl
    · exact packs _ (by omega) (by omega) (by omega) (by omega)
    · exact packs _ (by omega) (by omega) (by omega) (by omega)

theorem length_instructions_assembled (h : FitTogether blocks) :
    (assembled blocks).instructions.length ≤ 2 ^ 33 := by
  have hcode := @length_code_le blocks .new h.fits
  have hcount := h.count
  rw [instructions_assembled, List.length_append]
  simp only [List.length_cons, List.length_nil]
  omega

/-- What the text of a program of blocks is assembled and loaded as. -/
theorem assemble_program (hcomments : Comments comments) (h : FitTogether blocks) :
    (2 ^ 32 ≤ (assembled blocks).manifest_bytes.length ∧
      assemble_text (program_text comments (blocks.map Block.text)) = .error .StructError) ∨
    (assembled blocks).manifest_bytes.length < 2 ^ 32 ∧
      ∃ bytes, assemble_text (program_text comments (blocks.map Block.text)) = .ok bytes ∧
        load_bogbin float_repr bytes =
          .ok (.obj (assembled blocks).manifest, (assembled blocks).instructions, hexdigest bytes) := by
  have hparse := parse_program hcomments h
  have hdeclares := parse_lines_declares declares_new _ _ hparse
  have hassemble : assemble_text (program_text comments (blocks.map Block.text)) =
      (assembled blocks).program := by
    unfold assemble_text
    rw [hparse]
  rw [hassemble]
  rcases program_of_declares (packs_assembled h) with hlong | ⟨hshort, bytes, hbytes, hlength⟩
  · exact .inl hlong
  · have hcount := length_instructions_assembled h
    have hsize : bytes.length < 10 ^ 4300 := by
      have hlt : bytes.length < 10 ^ 12 := by omega
      exact hlt.trans (Nat.pow_lt_pow_right (by decide) (by decide))
    exact .inr ⟨hshort, bytes, hbytes, load_program hdeclares hbytes hsize⟩

/-- Blocks with their hashes run to their bytes. -/
theorem runsTo_of_hashes (float_repr : Text → String) (hcomments : Comments comments)
    (h : FitTogether blocks) (hhashes : ∀ block ∈ blocks, hexdigest block.bytes = block.sha256) :
    RunsTo float_repr (program_text comments (blocks.map Block.text)) (blocks.map Block.name)
      (blocks.map Block.bytes) := by
  rcases @assemble_program float_repr blocks comments hcomments h with
    ⟨hlong, herror⟩ | ⟨hshort, bytes, hbytes, hload⟩
  · refine ⟨assembled blocks, parse_program hcomments h, ?_⟩
    rwa [if_pos hlong]
  · obtain ⟨receipt, s, hrun, hran, hnames⟩ := run_packed h hhashes (hexdigest bytes)
    refine ⟨assembled blocks, parse_program hcomments h, ?_⟩
    rw [if_neg (not_le.mpr hshort)]
    refine ⟨bytes, receipt, s, hbytes, hload, hrun, ?_, accepted_bytes_of_ran hran, hran.rejected⟩
    rw [hnames, List.map_map]
    rfl

/-- Blocks behind which one has a wrong hash run up to that one. -/
theorem blocksAfter_of_hashes (float_repr : Text → String) (hcomments : Comments comments)
    (h : FitTogether (front ++ bad :: back))
    (hhashes : ∀ block ∈ front, hexdigest block.bytes = block.sha256)
    (hbad : hexdigest bad.bytes ≠ bad.sha256) :
    BlocksAfter float_repr (program_text comments ((front ++ bad :: back).map Block.text))
      front.length := by
  rcases @assemble_program float_repr _ comments hcomments h with
    ⟨hlong, herror⟩ | ⟨hshort, bytes, hbytes, hload⟩
  · refine ⟨assembled (front ++ bad :: back), parse_program hcomments h, ?_⟩
    rwa [if_pos hlong]
  · obtain ⟨s, hrun, haccepted, hrejected⟩ := blocked_packed h hhashes hbad (hexdigest bytes)
    refine ⟨assembled (front ++ bad :: back), parse_program hcomments h, ?_⟩
    rw [if_neg (not_le.mpr hshort)]
    exact ⟨bytes, s, hbytes, hload, hrun, haccepted, hrejected⟩

end Programs

end Bogbin.Packer
