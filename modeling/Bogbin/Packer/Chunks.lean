import Bogbin.Packer.Programs

/-!
# Programs of chunks

The chunks of valid contents make a program.  It completes when every chunk has its hash
(`runsTo_of_intact`) and is blocked at the first chunk without (`blocksAfter_of_not_intact`); the chunks
that the builder writes have their hashes (`intact_of_built`).
-/

namespace Bogbin.Packer

open Bogvm Vm StateExcept

/-- The block of a chunk in numbers. -/
def chunk_packed (data_name : Text) (chunk : Container.Chunk) : Block :=
  ⟨chunk_name data_name chunk.index, chunk.basis, chunk.start_byte, chunk.delta, chunk.length,
    chunk.residuals, chunk.chunk_sha256⟩

/-- The bytes of a chunk before its transform is inverted. -/
def chunk_bytes (chunk : Container.Chunk) : Bytes :=
  Container.transformed_bytes chunk.basis chunk.start_byte chunk.delta chunk.length chunk.residuals

/-- The chunk has its hash. -/
def Intact (chunk : Container.Chunk) : Prop := hexdigest (chunk_bytes chunk) = chunk.chunk_sha256

instance : DecidablePred Intact := fun chunk =>
  inferInstanceAs (Decidable (hexdigest (chunk_bytes chunk) = chunk.chunk_sha256))

/-! ## Names -/

section Names

variable {data_name : Text}

theorem Solid.append {front back : Text} (h : Solid front) (h' : Solid back) : Solid (front ++ back) :=
  fun c hc => (List.mem_append.mp hc).elim (h c) (h' c)

theorem IsToken.append {front back : Text} (h : IsToken front) (h' : IsToken back) :
    IsToken (front ++ back) :=
  ⟨⟨List.append_ne_nil_of_left_ne_nil h.1.1 _, h.solid.append h'.solid⟩,
    fun hmem => (List.mem_append.mp hmem).elim h.2 h'.2⟩

theorem isToken_of_isSha256 {s : String} (h : Container.IsSha256 s) : IsToken s.toList := by
  have hne : s.toList ≠ [] := by
    intro hnil
    have hlength := h.1
    rw [hnil] at hlength
    cases hlength
  refine isToken_of_all hne (List.all_eq_true.mpr fun c hc => ?_)
  have hall : "0123456789abcdef".toList.all (fun c => !is_space c && c != '#') = true := rfl
  exact List.all_eq_true.mp hall c (of_decide_eq_true (List.all_eq_true.mp h.2 c hc))

theorem isToken_chunk : IsToken "_chunk_".toList := isToken_of_all (by simp) rfl

theorem isToken_zero_padded (index : ℕ) : IsToken (ZeroPadding.zero_padded 4 index) := by
  refine isToken_of_isDigit ?_ fun _ => ZeroPadding.isDigit_of_mem_zero_padded
  rw [ZeroPadding.zero_padded, List.leftpad]
  exact List.append_ne_nil_of_right_ne_nil _ digits_ne_nil

theorem solid_chunk_name (h : Solid data_name) (index : ℕ) : Solid (chunk_name data_name index) :=
  (h.append isToken_chunk.solid).append (isToken_zero_padded index).solid

theorem isToken_chunk_name (h : IsToken data_name) (index : ℕ) : IsToken (chunk_name data_name index) :=
  (h.append isToken_chunk).append (isToken_zero_padded index)

theorem chunk_name_injective : Function.Injective (chunk_name data_name) := fun _ _ h =>
  ZeroPadding.zero_padded_injective (List.append_cancel_left h)

end Names

/-! ## Valid contents -/

section Valid

variable {contents : Container.Contents} {chunks : List Container.Chunk} {chunk : Container.Chunk}
  {chunk_size : ℕ} {data_name : Text} {comments : List Text}

theorem chunk_texts (data_name : Text) (chunks : List Container.Chunk) : chunks.map (chunk_block data_name) =
    (chunks.map (chunk_packed data_name)).map Block.text := by
  rw [List.map_map]
  rfl

theorem hashes_of_intact (h : ∀ chunk ∈ chunks, Intact chunk) :
    ∀ block ∈ chunks.map (chunk_packed data_name), hexdigest block.bytes = block.sha256 := by
  intro block hblock
  obtain ⟨chunk, hchunk, rfl⟩ := List.mem_map.mp hblock
  exact h chunk hchunk

theorem fits_valid (h : Container.ValidChunk chunk_size chunk) (hname : IsToken data_name)
    (hlength : chunk.length ≤ 65535) : (chunk_packed data_name chunk).Fits where
  name := isToken_chunk_name hname _
  sha256 := isToken_of_isSha256 h.chunk_sha256
  length := hlength
  rising := h.rising

theorem names_valid (h : Container.ValidContents contents) (data_name : Text) :
    (contents.chunks.map (chunk_packed data_name)).map Block.name =
      (List.range contents.chunks.length).map (chunk_name data_name) := by
  rw [List.range_eq_range', ← h.chunks.index_eq, List.map_map, List.map_map]
  rfl

theorem not_break_of_chunks (h : Container.ValidContents contents) (hspace : Solid data_name) :
    ∀ text ∈ (contents.chunks.map (chunk_packed data_name)).map Block.text, ∀ line ∈ text.lines,
      ∀ c ∈ line, is_break c = false := by
  intro text htext
  obtain ⟨block, hblock, rfl⟩ := List.mem_map.mp htext
  obtain ⟨chunk, hchunk, rfl⟩ := List.mem_map.mp hblock
  have hsha256 := (h.chunks.forall_mem chunk hchunk).chunk_sha256
  exact not_break_of_block (solid_chunk_name hspace _) (isToken_of_isSha256 hsha256).solid

section Program

variable (h : Container.ValidContents contents) (hlength : ∀ chunk ∈ contents.chunks, chunk.length ≤ 65535)
  (hcount : contents.chunks.length ≤ 65527) (hname : ∀ chunk ∈ contents.chunks, IsToken data_name)

include h hlength hcount hname

/-- The blocks of valid contents make a program. -/
theorem fitTogether_valid : FitTogether (contents.chunks.map (chunk_packed data_name)) := by
  have hblocks : (contents.chunks.map (chunk_packed data_name)).length ≤ 65527 := by
    rwa [List.length_map]
  refine ⟨fun block hblock => ?_, ?_, hblocks.trans (by omega), length_constants_le hblocks⟩
  · obtain ⟨chunk, hchunk, rfl⟩ := List.mem_map.mp hblock
    exact fits_valid (h.chunks.forall_mem chunk hchunk) (hname chunk hchunk) (hlength chunk hchunk)
  · rw [names_valid h]
    exact List.nodup_range.map chunk_name_injective

theorem runsTo_of_intact (float_repr : Text → String) (hcomments : Comments comments)
    (hintact : ∀ chunk ∈ contents.chunks, Intact chunk) :
    RunsTo float_repr (program_text comments (contents.chunks.map (chunk_block data_name)))
      ((List.range contents.chunks.length).map (chunk_name data_name))
      (contents.chunks.map chunk_bytes) := by
  have hruns := runsTo_of_hashes float_repr hcomments (fitTogether_valid h hlength hcount hname)
    (hashes_of_intact hintact)
  rw [names_valid h, ← chunk_texts, List.map_map] at hruns
  exact hruns

theorem blocksAfter_of_not_intact (float_repr : Text → String) (hcomments : Comments comments)
    (hintact : ¬∀ chunk ∈ contents.chunks, Intact chunk) :
    BlocksAfter float_repr (program_text comments (contents.chunks.map (chunk_block data_name)))
      (contents.chunks.takeWhile (Intact ·)).length := by
  have htogether := fitTogether_valid h hlength hcount hname
  have hsplit := @List.takeWhile_append_dropWhile _ (fun chunk => decide (Intact chunk)) contents.chunks
  have hfront : ∀ chunk ∈ contents.chunks.takeWhile (Intact ·), Intact chunk := fun chunk hchunk =>
    of_decide_eq_true (List.mem_takeWhile_imp (p := fun chunk => decide (Intact chunk)) hchunk)
  cases hrest : contents.chunks.dropWhile (Intact ·) with
  | nil =>
    rw [hrest, List.append_nil] at hsplit
    rw [hsplit] at hfront
    exact absurd hfront hintact
  | cons bad back =>
    have hne : contents.chunks.dropWhile (Intact ·) ≠ [] := by
      rw [hrest]
      exact List.cons_ne_nil _ _
    have hbad := List.head_dropWhile_not (fun chunk => decide (Intact chunk)) hne
    simp only [hrest, List.head_cons, decide_eq_false_iff_not] at hbad
    rw [hrest] at hsplit
    rw [← hsplit, List.map_append, List.map_cons] at htogether
    have hblocks := blocksAfter_of_hashes float_repr hcomments htogether (hashes_of_intact hfront) hbad
    rwa [← List.map_cons, ← List.map_append, hsplit, List.length_map, ← chunk_texts] at hblocks

end Program

end Valid

/-! ## Built chunks -/

section Built

variable {data original : Bytes} {chunk_size : ℕ} {chunk : Container.Chunk} {plan : Container.ChunkedPlan}

/-- A chunk that can be reconstructed has its hash. -/
theorem intact_of_reconstruct (h : Container.ValidChunk chunk_size chunk)
    (hok : Container.reconstruct_chunk chunk = .ok original) : Intact chunk ∧
      Container.invert_transform chunk.transform (chunk_bytes chunk) chunk.transform_param =
        .ok original := by
  have hpatches : Container.apply_patches (chunk.basis.bytes chunk.start_byte.toNat chunk.length
      chunk.delta.toNat) chunk.residuals = .ok (chunk_bytes chunk) := by
    have hrising : Container.Rising (chunk.basis.bytes chunk.start_byte.toNat chunk.length
        chunk.delta.toNat).length 0 chunk.residuals := by
      rw [Basis.length_bytes]
      exact h.rising
    exact Container.apply_patches_eq hrising
  unfold Container.reconstruct_chunk at hok
  rw [synthesize_basis_ok (Nat.le_of_lt_succ (UInt8.toNat_lt _)) (Nat.le_of_lt_succ (UInt8.toNat_lt _)),
    ok_bind, hpatches, ok_bind] at hok
  simp only [Bogbin.bind_eq_ok, Container.require_eq_ok] at hok
  obtain ⟨_, hsha256, _, -, original', hinvert, _, -, heq⟩ := hok
  obtain rfl := Except.ok.inj heq
  exact ⟨hsha256, hinvert⟩

/-- The transforms of built chunks invert to the data. -/
theorem inverts_of_built (h : Container.BuiltPlan data chunk_size plan) (hsize : 0 < chunk_size) :
    List.Forall₂ (fun chunk original => Intact chunk ∧ Container.invert_transform chunk.transform
      (chunk_bytes chunk) chunk.transform_param = .ok original) plan.chunks
      ((List.range (Container.chunk_count_of chunk_size data.length)).map
        (Container.slice chunk_size data)) :=
  ((List.forall₂_and_left _ _).mpr ⟨(h.valid hsize).chunks.forall_mem, h.originals⟩).imp
    fun _ _ hboth => intact_of_reconstruct hboth.1 hboth.2

theorem intact_of_built (h : Container.BuiltPlan data chunk_size plan) (hsize : 0 < chunk_size) :
    ∀ chunk ∈ plan.contents.chunks, Intact chunk := by
  intro chunk hchunk
  obtain ⟨original, -, hintact, -⟩ := forall₂_mem (inverts_of_built h hsize).flip chunk hchunk
  exact hintact

theorem chunk_length_le (h : Container.BuiltPlan data chunk_size plan) (hsize : 0 < chunk_size)
    (hlarge : chunk_size ≤ 65535) : ∀ chunk ∈ plan.contents.chunks, chunk.length ≤ 65535 := by
  intro chunk hchunk
  have hle := ((h.valid hsize).chunks.forall_mem chunk hchunk).length_le
  have heq : plan.contents.chunk_size = chunk_size := h.chunk_size_eq
  rw [heq] at hle
  exact hle.trans hlarge

end Built

end Bogbin.Packer
