import Bogbin.Container.Valid
import Bogbin.Packer.Bogasm
import Bogbin.Vm.Declared

/-!
# Packed programs assemble

A block in numbers has a text, and the lines of this text add its name, its constants and its
instructions to the assembler (`parse_block`).  The text of a program of such blocks assembles
(`parse_program`).
-/

namespace Bogbin.Packer

open Bogvm Vm StateExcept

/-- A block of a program. -/
structure Block where
  name : Text
  basis : Basis
  start_byte : UInt8
  delta : UInt8
  length : ℕ
  residuals : List Container.Patch
  sha256 : String

/-- A word without a comment. -/
def IsToken (text : Text) : Prop := Tokens.IsWord is_space text ∧ '#' ∉ text

/-- A constant and the constants in front of it. -/
def with_name (names : List Text) (name : Text) : List Text :=
  if name ∈ names then names else names ++ [name]

namespace Block

variable (block : Block)

def text : BlockText :=
  ⟨block.name, block.basis.name.toList, digits block.start_byte.toNat, digits block.length,
    digits block.delta.toNat, residual_texts block.residuals, block.sha256.toList⟩

/-- The bytes that a block synthesizes and patches. -/
def bytes : Bytes :=
  Container.transformed_bytes block.basis block.start_byte block.delta block.length block.residuals

/-- Names and numbers that fit into a line and into an instruction. -/
structure Fits : Prop where
  name : IsToken block.name
  sha256 : IsToken block.sha256.toList
  length : block.length ≤ 65535
  rising : Container.Rising block.length 0 block.residuals

def constants (constants : List Text) : List Text :=
  with_name (with_name constants block.basis.name.toList) block.sha256.toList

def store_residual (data_id : ℕ) (patch : Container.Patch) : Instruction :=
  ⟨Op.STORE_RESIDUAL.code, 0, data_id, patch.offset, patch.byte.toNat⟩

def instructions (data_id basis_id hash_id : ℕ) : List Instruction :=
  [⟨Op.DECLARE_BASIS.code, 0, basis_id, 0, 0⟩,
    ⟨Op.LOAD_COEFFICIENTS.code, block.delta.toNat, data_id, block.start_byte.toNat, block.length⟩,
    ⟨Op.SYNTHESIZE.code, 0, data_id, 0, 0⟩] ++
  block.residuals.map (store_residual data_id) ++
  [⟨Op.APPLY_RESIDUAL.code, 0, data_id, 0, 0⟩, ⟨Op.VERIFY_HASH.code, 0, data_id, hash_id, 0⟩,
    ⟨Op.ACCEPT_DATA.code, 0, data_id, 0, 0⟩]

/-- The assembler after the lines of a block. -/
def add (a : Assembler) : Assembler :=
  let constants := block.constants a.constants
  { a with
    data_names := a.data_names ++ [block.name]
    constants := constants
    instructions := a.instructions ++ block.instructions a.data_names.length
      (constants.idxOf block.basis.name.toList) (constants.idxOf block.sha256.toList) }

end Block

/-! ## Lines -/

section Lines

variable {a a' : Assembler} {words rest : List Text} {name : Text} {text : Text} {d : Directive}

theorem not_mem_line {c : Char} (h : ∀ word ∈ words, c ∉ word) (hc : c ≠ ' ') : c ∉ line words := by
  induction words with
  | nil => exact List.not_mem_nil
  | cons word words ih =>
    obtain ⟨hword, hwords⟩ := List.forall_mem_cons.mp h
    cases words with
    | nil => rwa [line, List.intercalate_singleton]
    | cons next words =>
      rw [line, List.intercalate_cons_cons, List.append_assoc, List.mem_append, List.singleton_append,
        List.mem_cons]
      rintro (hmem | rfl | hmem)
      · exact hword hmem
      · exact hc rfl
      · exact ih hwords hmem

/-- The words of a line without a comment. -/
theorem split_strip_comment (h : '#' ∉ text) : split (strip_comment text) = split text := by
  have hall : text.takeWhile (· ≠ '#') = text := by
    refine List.takeWhile_eq_self_iff.mpr fun c hc => ?_
    rw [decide_eq_true_eq]
    rintro rfl
    exact h hc
  rw [strip_comment, hall, split, strip, Tokens.words_strip, ← split]

theorem split_line (h : ∀ word ∈ words, IsToken word) : split (strip_comment (line words)) = words := by
  rw [split_strip_comment (not_mem_line (fun word hword => (h word hword).2) (by decide)), split, line,
    Tokens.words_intercalate (fun word hword => (h word hword).1) (by decide)]

theorem parse_line_of (hdirective : directive (upper name) = some d) (hname : IsToken name)
    (h : ∀ word ∈ words, IsToken word) : parse_line (line (name :: words)) a = parse_directive words d a := by
  have hsplit := split_line (List.forall_mem_cons.mpr ⟨hname, h⟩)
  unfold parse_line
  rw [hsplit]
  dsimp only
  rw [hdirective]

deriving instance DecidableEq for Directive

theorem directive_name (op : Op) : directive (upper op.name.toList) = some (.op op) := by
  cases op <;> decide +kernel

theorem isToken_of_all (hne : text ≠ []) (h : text.all (fun c => !is_space c && c != '#') = true) :
    IsToken text := by
  have hc (c : Char) (hc : c ∈ text) : is_space c = false ∧ c ≠ '#' := by
    simpa using List.all_eq_true.mp h c hc
  exact ⟨⟨hne, fun c hmem => (hc c hmem).1⟩, fun hmem => (hc '#' hmem).2 rfl⟩

theorem isToken_name (op : Op) : IsToken op.name.toList := by
  have hne : op.name.toList ≠ [] := by
    cases op <;> simp [Op.name]
  have hall : op.name.toList.all (fun c => !is_space c && c != '#') = true := by
    cases op <;> rfl
  exact isToken_of_all hne hall

theorem parse_lines_of {line : Text} (h : parse_line line a = .ok () a') :
    parse_lines (line :: rest) a = parse_lines rest a' := by
  rw [parse_lines, bind_of_ok h]

/-- A comment. -/
theorem parse_comment {comment : Text} (h : comment.head? = some '#') :
    parse_line comment a = .ok () a := by
  obtain ⟨tail, rfl⟩ := List.head?_eq_some_iff.mp h
  rfl

theorem parse_comments {comments : List Text} (h : ∀ comment ∈ comments, comment.head? = some '#') :
    parse_lines (comments ++ rest) a = parse_lines rest a := by
  induction comments with
  | nil => rfl
  | cons comment comments ih =>
    obtain ⟨hcomment, hcomments⟩ := List.forall_mem_cons.mp h
    rw [List.cons_append, parse_lines_of (parse_comment hcomment), ih hcomments]

end Lines

/-! ## Tables -/

section Tables

variable {a : Assembler} {names : List Text} {name : Text}

theorem mem_with_name : name ∈ with_name names name := by
  unfold with_name
  split_ifs with hmem
  · exact hmem
  · exact List.mem_append_right _ (List.mem_singleton.mpr rfl)

theorem prefix_with_name (names : List Text) (name : Text) : names <+: with_name names name := by
  unfold with_name
  split_ifs
  · exact List.prefix_refl _
  · exact List.prefix_append _ _

theorem idxOf_initial {longer : List Text} (h : names <+: longer) (hmem : name ∈ names) :
    longer.idxOf name = names.idxOf name := by
  obtain ⟨back, rfl⟩ := h
  exact List.idxOf_append_of_mem hmem

theorem add_constant_of (h : (with_name a.constants name).length ≤ 65536) :
    add_constant name a = .ok ((with_name a.constants name).idxOf name)
      { a with constants := with_name a.constants name } := by
  unfold add_constant
  rw [bind_of_ok get_apply]
  unfold with_name at h ⊢
  unfold add_id
  split_ifs at h ⊢ with hmem hfull
  · rfl
  · rw [List.length_append, List.length_singleton] at h
    omega
  · rw [bind_of_ok ofExcept_ok, List.idxOf_append_of_notMem hmem, List.idxOf_cons_self, Nat.add_zero]
    rfl

theorem require_data_of (h : name ∈ a.data_names) :
    require_data name a = .ok (a.data_names.idxOf name) a := by
  unfold require_data
  rw [bind_of_ok get_apply, require_id, if_pos h, ofExcept_ok]

theorem add_data_of (h : name ∉ a.data_names) (hfull : a.data_names.length ≤ 65535) :
    add_data name a = .ok a.data_names.length { a with data_names := a.data_names ++ [name] } := by
  unfold add_data
  rw [bind_of_ok get_apply, add_id, if_neg h, if_neg (not_lt.mpr hfull), bind_of_ok ofExcept_ok]
  rfl

theorem emit_of (op : Op) (flags target source param : ℕ) (hflags : flags ≤ 65535)
    (htarget : target ≤ 65535) (hsource : source ≤ 65535) (hparam : param ≤ 65535) :
    emit op flags target source param a =
      .ok () (a.with_instruction ⟨op.code, flags, target, source, param⟩) := by
  have hfits {n : ℕ} (h : n ≤ 65535) : is_u16 n := by
    unfold is_u16
    omega
  unfold emit
  rw [if_pos ⟨hfits hflags, hfits htarget, hfits hsource, hfits hparam⟩]
  rfl

theorem int_of_u16 {n : ℕ} (h : n ≤ 65535) : int (digits n) = .ok n := by
  refine int_of_digits ?_
  have hlength : (digits n).length ≤ 5 :=
    (Nat.length_toDigits_le_iff (by decide) (by decide)).mpr (by omega)
  omega

theorem isToken_of_isDigit {text : Text} (hne : text ≠ []) (h : ∀ c ∈ text, c.isDigit) :
    IsToken text := by
  refine ⟨isWord_of_isDigit hne h, fun hmem => ?_⟩
  exact absurd (h '#' hmem) (by decide)

theorem isToken_digits (n : ℕ) : IsToken (digits n) :=
  isToken_of_isDigit digits_ne_nil fun _ => isDigit_of_mem_digits

theorem isToken_basis (basis : Basis) : IsToken basis.name.toList := by
  have hne : basis.name.toList ≠ [] := by
    cases basis <;> simp [Basis.name]
  have hall : basis.name.toList.all (fun c => !is_space c && c != '#') = true := by
    cases basis <;> rfl
  exact isToken_of_all hne hall

end Tables

/-! ## Blocks -/

section Blocks

variable {a : Assembler} {block : Block} {rest : List Text}

/-- The assembler with more instructions. -/
def with_instructions (a : Assembler) (instructions : List Instruction) : Assembler :=
  { a with instructions := a.instructions ++ instructions }

theorem toNat_le (b : UInt8) : b.toNat ≤ 255 := Nat.le_of_lt_succ (UInt8.toNat_lt b)

/-- The line of a directive with the name of a block alone. -/
theorem parse_data_of {op : Op} {name : Text} (hname : IsToken name) (hmem : name ∈ a.data_names)
    (hid : a.data_names.idxOf name ≤ 65535)
    (hop : ∀ args, parse_directive args (.op op) = parse_data args op) :
    parse_line (line [op.name.toList, name]) a =
      .ok () (a.with_instruction ⟨op.code, 0, a.data_names.idxOf name, 0, 0⟩) := by
  rw [parse_line_of (directive_name op) (isToken_name op) (List.forall_mem_singleton.mpr hname), hop,
    parse_data, bind_of_ok (require_data_of hmem)]
  exact emit_of op 0 _ 0 0 (by omega) hid (by omega) (by omega)

theorem parse_store_residual_of {name : Text} {patch : Container.Patch} (hname : IsToken name)
    (hmem : name ∈ a.data_names) (hid : a.data_names.idxOf name ≤ 65535) (hoffset : patch.offset ≤ 65535) :
    parse_line (line [Op.STORE_RESIDUAL.name.toList, name, digits patch.offset, digits patch.byte.toNat]) a =
      .ok () (a.with_instruction (Block.store_residual (a.data_names.idxOf name) patch)) := by
  have hbyte := toNat_le patch.byte
  have hargs : ∀ word ∈ [name, digits patch.offset, digits patch.byte.toNat], IsToken word := by
    simp [hname, isToken_digits]
  have hu8 : is_u8 (patch.byte.toNat : ℤ) := by
    unfold is_u8
    omega
  have hdirective (args : List Text) :
      parse_directive args (.op .STORE_RESIDUAL) = parse_store_residual args := rfl
  rw [parse_line_of (directive_name _) (isToken_name _) hargs, hdirective, parse_store_residual,
    bind_of_ok (require_data_of hmem), int_of_u16 hoffset, bind_of_ok ofExcept_ok,
    int_of_u16 (by omega), bind_of_ok ofExcept_ok, if_neg (not_not_intro hu8)]
  exact emit_of _ 0 _ _ _ (by omega) hid hoffset (by omega)

theorem parse_residuals_of {name : Text} {residuals : List Container.Patch} (hname : IsToken name)
    (hmem : name ∈ a.data_names) (hid : a.data_names.idxOf name ≤ 65535)
    (hoffset : ∀ patch ∈ residuals, patch.offset ≤ 65535) :
    parse_lines ((residual_texts residuals).map (fun patch =>
        line [Op.STORE_RESIDUAL.name.toList, name, patch.1, patch.2]) ++ rest) a =
      parse_lines rest
        (with_instructions a (residuals.map (Block.store_residual (a.data_names.idxOf name)))) := by
  induction residuals generalizing a with
  | nil => rw [List.map_nil, with_instructions, List.append_nil]; rfl
  | cons patch residuals ih =>
    obtain ⟨hpatch, hrest⟩ := List.forall_mem_cons.mp hoffset
    have hline := parse_store_residual_of hname hmem hid hpatch
    have hnext := @ih (a.with_instruction (Block.store_residual (a.data_names.idxOf name) patch))
      hmem hid hrest
    rw [residual_texts, List.map_cons, List.map_cons, List.cons_append, parse_lines_of hline,
      ← residual_texts, hnext, List.map_cons]
    simp [with_instructions, Assembler.with_instruction]

theorem parse_data_block_of {name : Text} (hname : IsToken name) (h : name ∉ a.data_names)
    (hfull : a.data_names.length ≤ 65535) : parse_line (line ["DATA_BLOCK".toList, name]) a =
      .ok () { a with data_names := a.data_names ++ [name] } := by
  have hdirective : directive (upper "DATA_BLOCK".toList) = some .DATA_BLOCK := by decide +kernel
  have htoken : IsToken "DATA_BLOCK".toList := isToken_of_all (by simp) rfl
  have hparse (args : List Text) : parse_directive args .DATA_BLOCK = parse_data_block args := rfl
  rw [parse_line_of hdirective htoken (List.forall_mem_singleton.mpr hname), hparse, parse_data_block,
    bind_of_ok (add_data_of h hfull)]
  rfl

theorem idxOf_le {names : List Text} {name : Text} (hmem : name ∈ names) (h : names.length ≤ 65536) :
    names.idxOf name ≤ 65535 := by
  have hlt := List.idxOf_lt_length_of_mem hmem
  omega

theorem parse_declare_basis_of {basis : Text} (hbasis : IsToken basis)
    (hfull : (with_name a.constants basis).length ≤ 65536) :
    parse_line (line [Op.DECLARE_BASIS.name.toList, basis]) a =
      .ok () (Assembler.with_instruction { a with constants := with_name a.constants basis }
        ⟨Op.DECLARE_BASIS.code, 0, (with_name a.constants basis).idxOf basis, 0, 0⟩) := by
  have hparse (args : List Text) :
      parse_directive args (.op .DECLARE_BASIS) = parse_declare_basis args := rfl
  rw [parse_line_of (directive_name _) (isToken_name _) (List.forall_mem_singleton.mpr hbasis), hparse,
    parse_declare_basis, bind_of_ok (add_constant_of hfull)]
  exact emit_of _ 0 _ 0 0 (by omega) (idxOf_le mem_with_name hfull) (by omega) (by omega)

theorem parse_verify_hash_of {name hash : Text} (hname : IsToken name) (hhash : IsToken hash)
    (hmem : name ∈ a.data_names) (hid : a.data_names.idxOf name ≤ 65535)
    (hfull : (with_name a.constants hash).length ≤ 65536) :
    parse_line (line [Op.VERIFY_HASH.name.toList, name, hash]) a =
      .ok () (Assembler.with_instruction { a with constants := with_name a.constants hash }
        ⟨Op.VERIFY_HASH.code, 0, a.data_names.idxOf name, (with_name a.constants hash).idxOf hash, 0⟩) := by
  have hargs : ∀ word ∈ [name, hash], IsToken word := by
    simp [hname, hhash]
  have hparse (args : List Text) : parse_directive args (.op .VERIFY_HASH) = parse_verify_hash args := rfl
  rw [parse_line_of (directive_name _) (isToken_name _) hargs, hparse, parse_verify_hash,
    bind_of_ok (require_data_of hmem), bind_of_ok (add_constant_of hfull)]
  exact emit_of _ 0 _ _ 0 (by omega) hid (idxOf_le mem_with_name hfull) (by omega)

theorem parse_load_coefficients_of {name : Text} {start_byte delta : UInt8} {length : ℕ}
    (hname : IsToken name) (hmem : name ∈ a.data_names) (hid : a.data_names.idxOf name ≤ 65535)
    (hlength : length ≤ 65535) :
    parse_line (line [Op.LOAD_COEFFICIENTS.name.toList, name, digits start_byte.toNat, digits length,
        digits delta.toNat]) a =
      .ok () (a.with_instruction ⟨Op.LOAD_COEFFICIENTS.code, delta.toNat, a.data_names.idxOf name,
        start_byte.toNat, length⟩) := by
  have hstart := toNat_le start_byte
  have hdelta := toNat_le delta
  have hu8 {n : ℕ} (h : n ≤ 255) : is_u8 (n : ℤ) := by
    unfold is_u8
    omega
  have hargs : ∀ word ∈ [name, digits start_byte.toNat, digits length, digits delta.toNat],
      IsToken word := by
    simp [hname, isToken_digits]
  have hparse (args : List Text) :
      parse_directive args (.op .LOAD_COEFFICIENTS) = parse_load_coefficients args := rfl
  rw [parse_line_of (directive_name _) (isToken_name _) hargs, hparse, parse_load_coefficients, load_block,
    bind_of_ok (require_data_of hmem), int_of_u16 (by omega), bind_of_ok ofExcept_ok,
    int_of_u16 hlength, bind_of_ok ofExcept_ok, int_of_u16 (by omega), bind_of_ok ofExcept_ok,
    if_neg (not_not_intro (hu8 hstart)), if_neg (not_not_intro (hu8 hdelta))]
  exact emit_of _ _ _ _ _ (by omega) hid (by omega) hlength

theorem offset_lt_of_rising {length next : ℕ} {residuals : List Container.Patch}
    (h : Container.Rising length next residuals) : ∀ patch ∈ residuals, patch.offset < length := by
  induction residuals generalizing next with
  | nil => exact fun _ hmem => absurd hmem List.not_mem_nil
  | cons patch residuals ih => exact List.forall_mem_cons.mpr ⟨h.2.1, ih h.2.2⟩

/-- The lines of a block. -/
theorem parse_block (hfits : block.Fits) (hfresh : block.name ∉ a.data_names)
    (hnames : a.data_names.length ≤ 65535) (hconstants : (block.constants a.constants).length ≤ 65536) :
    parse_lines (block.text.lines ++ rest) a = parse_lines rest (block.add a) := by
  have hname := hfits.name
  have hbasis := isToken_basis block.basis
  have hinitial := prefix_with_name (with_name a.constants block.basis.name.toList) block.sha256.toList
  have hbasis_full := hinitial.length_le.trans hconstants
  have hidx : (a.data_names ++ [block.name]).idxOf block.name = a.data_names.length := by
    rw [List.idxOf_append_of_notMem hfresh, List.idxOf_cons_self, Nat.add_zero]
  have hmem : block.name ∈ a.data_names ++ [block.name] :=
    List.mem_append_right _ (List.mem_singleton.mpr rfl)
  have hid : (a.data_names ++ [block.name]).idxOf block.name ≤ 65535 := hidx.trans_le hnames
  have hoffset : ∀ patch ∈ block.residuals, patch.offset ≤ 65535 := by
    intro patch hpatch
    have hlt := offset_lt_of_rising hfits.rising patch hpatch
    have hlength := hfits.length
    omega
  have hbasis_id := idxOf_initial hinitial (@mem_with_name a.constants block.basis.name.toList)
  have hlines : block.text.lines ++ rest = line ["DATA_BLOCK".toList, block.name] ::
      line [Op.DECLARE_BASIS.name.toList, block.basis.name.toList] ::
      line [Op.LOAD_COEFFICIENTS.name.toList, block.name, digits block.start_byte.toNat,
        digits block.length, digits block.delta.toNat] ::
      line [Op.SYNTHESIZE.name.toList, block.name] ::
      ((residual_texts block.residuals).map (fun patch =>
          line [Op.STORE_RESIDUAL.name.toList, block.name, patch.1, patch.2]) ++
        line [Op.APPLY_RESIDUAL.name.toList, block.name] ::
        line [Op.VERIFY_HASH.name.toList, block.name, block.sha256.toList] ::
        line [Op.ACCEPT_DATA.name.toList, block.name] :: rest) := by
    simp [BlockText.lines, Block.text]
  rw [hlines]
  -- the facts about the tables are checked after the state of the assembler is known
  refine (parse_lines_of (parse_data_block_of hname hfresh hnames)).trans ?_
  refine (parse_lines_of (parse_declare_basis_of hbasis (by exact hbasis_full))).trans ?_
  refine (parse_lines_of (parse_load_coefficients_of hname hmem hid hfits.length)).trans ?_
  refine (parse_lines_of (parse_data_of hname hmem hid fun _ => rfl)).trans ?_
  refine (parse_residuals_of hname hmem hid hoffset).trans ?_
  refine (parse_lines_of (parse_data_of hname hmem hid fun _ => rfl)).trans ?_
  refine (parse_lines_of (parse_verify_hash_of hname hfits.sha256 hmem hid (by exact hconstants))).trans ?_
  refine (parse_lines_of (parse_data_of hname hmem hid fun _ => rfl)).trans ?_
  congr 1
  simp [Block.add, Block.constants, Block.instructions, Assembler.with_instruction, with_instructions,
    hidx, hbasis_id]

end Blocks

/-! ## Programs -/

/-- The assembler after the lines of these blocks. -/
def add_blocks (a : Assembler) (blocks : List Block) : Assembler :=
  blocks.foldl (fun a block => block.add a) a

/-- The assembler at the end of a packed program. -/
def assembled (blocks : List Block) : Assembler :=
  with_instructions (add_blocks .new blocks)
    [⟨Op.EMIT_RECEIPT.code, 0, 0, 0, 0⟩, ⟨Op.HALT.code, 0, 0, 0, 0⟩]

/-- Blocks that fit into one program. -/
structure FitTogether (blocks : List Block) : Prop where
  fits : ∀ block ∈ blocks, block.Fits
  names : (blocks.map Block.name).Nodup
  count : blocks.length ≤ 65536
  constants : (assembled blocks).constants.length ≤ 65536

section Programs

variable {a : Assembler} {block : Block} {blocks : List Block} {rest comments : List Text} {text : Text}

theorem add_blocks_cons : add_blocks a (block :: blocks) = add_blocks (block.add a) blocks := rfl

theorem data_names_add_blocks (a : Assembler) (blocks : List Block) :
    (add_blocks a blocks).data_names = a.data_names ++ blocks.map Block.name := by
  induction blocks generalizing a with
  | nil => exact (List.append_nil _).symm
  | cons block blocks ih => rw [add_blocks_cons, ih]; simp [Block.add]

theorem prefix_constants (block : Block) (constants : List Text) :
    constants <+: block.constants constants :=
  (prefix_with_name _ _).trans (prefix_with_name _ _)

theorem prefix_add_blocks (a : Assembler) (blocks : List Block) :
    a.constants <+: (add_blocks a blocks).constants := by
  induction blocks generalizing a with
  | nil => exact List.prefix_refl _
  | cons block blocks ih => exact (prefix_constants block a.constants).trans (ih (block.add a))

theorem parse_blocks (hfits : ∀ block ∈ blocks, block.Fits)
    (hnames : (a.data_names ++ blocks.map Block.name).Nodup)
    (hcount : a.data_names.length + blocks.length ≤ 65536)
    (hconstants : (add_blocks a blocks).constants.length ≤ 65536) :
    parse_lines ((blocks.map Block.text).flatMap BlockText.lines ++ rest) a =
      parse_lines rest (add_blocks a blocks) := by
  induction blocks generalizing a with
  | nil => rfl
  | cons block blocks ih =>
    obtain ⟨hblock, hblocks⟩ := List.forall_mem_cons.mp hfits
    rw [List.map_cons, List.append_cons] at hnames
    have hfresh : block.name ∉ a.data_names := fun hmem =>
      (List.nodup_append.mp (List.nodup_append.mp hnames).1).2.2 _ hmem _ (List.mem_singleton.mpr rfl) rfl
    rw [List.length_cons] at hcount
    rw [add_blocks_cons] at hconstants
    have hinitial := (prefix_add_blocks (block.add a) blocks).length_le
    have hblock_constants : (block.constants a.constants).length ≤ 65536 := hinitial.trans hconstants
    rw [List.map_cons, List.flatMap_cons, List.append_assoc,
      parse_block hblock hfresh (by omega) hblock_constants, add_blocks_cons]
    refine ih hblocks hnames ?_ hconstants
    show (a.data_names ++ [block.name]).length + blocks.length ≤ 65536
    rw [List.length_append, List.length_singleton]
    omega

theorem parse_emit_of {op : Op} (hop : ∀ args, parse_directive args (.op op) = emit op 0 0 0 0) :
    parse_line (line [op.name.toList]) a = .ok () (a.with_instruction ⟨op.code, 0, 0, 0, 0⟩) := by
  rw [parse_line_of (directive_name op) (isToken_name op) (List.forall_mem_nil _), hop]
  exact emit_of op 0 0 0 0 (by omega) (by omega) (by omega) (by omega)

/-! ### The text -/

/-- A text without white space. -/
def Solid (text : Text) : Prop := ∀ c ∈ text, is_space c = false

theorem IsToken.solid (h : IsToken text) : Solid text := h.1.2

theorem not_break_of_line {words : List Text} (h : ∀ word ∈ words, Solid word) :
    ∀ c ∈ line words, is_break c = false := by
  intro c hc
  by_contra hbreak
  rw [Bool.not_eq_false] at hbreak
  refine not_mem_line (fun word hword hmem => ?_) ?_ hc
  · have hspace := h word hword c hmem
    rw [is_space_of_is_break hbreak] at hspace
    cases hspace
  · rintro rfl
    exact absurd hbreak (by decide)

theorem not_break_of_block (hname : Solid block.name) (hsha256 : Solid block.sha256.toList) :
    ∀ text ∈ block.text.lines, ∀ c ∈ text, is_break c = false := by
  have hblock : Solid "DATA_BLOCK".toList := (isToken_of_all (by simp) rfl : IsToken _).solid
  have hop (op : Op) : Solid op.name.toList := (isToken_name op).solid
  have hbasis : Solid block.basis.name.toList := (isToken_basis block.basis).solid
  have hdigits (n : ℕ) : Solid (digits n) := (isToken_digits n).solid
  intro text htext
  simp only [BlockText.lines, Block.text, residual_texts, List.map_map, List.mem_append, List.mem_cons,
    List.mem_map, List.not_mem_nil, or_false] at htext
  rcases htext with ((rfl | rfl | rfl | rfl) | ⟨patch, -, rfl⟩) | rfl | rfl | rfl
  · exact not_break_of_line (List.forall_mem_cons.mpr ⟨hblock, List.forall_mem_singleton.mpr hname⟩)
  all_goals
    refine not_break_of_line ?_
    simp [hname, hsha256, hop, hbasis, hdigits]

theorem join_lines_eq {lines : List Text} (h : lines ≠ []) :
    join_lines lines = lines.flatMap (· ++ ['\n']) := by
  unfold join_lines
  induction lines with
  | nil => exact absurd rfl h
  | cons text lines ih =>
    cases lines with
    | nil => rw [List.intercalate_singleton, List.flatMap_singleton]
    | cons next lines =>
      rw [List.intercalate_cons_cons, List.append_assoc, ih (List.cons_ne_nil _ _)]
      rfl

/-- Comments, each in a line. -/
def Comments (comments : List Text) : Prop :=
  ∀ comment ∈ comments, comment.head? = some '#' ∧ ∀ c ∈ comment, is_break c = false

theorem splitlines_program_text {texts : List BlockText} (hcomments : Comments comments)
    (h : ∀ block ∈ texts, ∀ text ∈ block.lines, ∀ c ∈ text, is_break c = false) :
    splitlines (program_text comments texts) = comments ++ texts.flatMap BlockText.lines ++
      [line [Op.EMIT_RECEIPT.name.toList], line [Op.HALT.name.toList]] := by
  unfold program_text
  rw [join_lines_eq (by simp), splitlines_flatMap]
  intro text htext
  rw [List.mem_append, List.mem_append, List.mem_flatMap] at htext
  rcases htext with (hcomment | ⟨block, hblock, hmem⟩) | hend
  · exact (hcomments text hcomment).2
  · exact h block hblock text hmem
  · have hword (op : Op) : ∀ word ∈ [op.name.toList], Solid word :=
      List.forall_mem_singleton.mpr (isToken_name op).solid
    rcases List.mem_pair.mp hend with rfl | rfl
    · exact not_break_of_line (hword _)
    · exact not_break_of_line (hword _)

theorem not_break_of_fits (hfits : ∀ block ∈ blocks, block.Fits) :
    ∀ text ∈ blocks.map Block.text, ∀ line ∈ text.lines, ∀ c ∈ line, is_break c = false := by
  intro text htext
  obtain ⟨block, hblock, rfl⟩ := List.mem_map.mp htext
  exact not_break_of_block (hfits block hblock).name.solid (hfits block hblock).sha256.solid

/-- The text of blocks that fit together is assembled. -/
theorem parse_program (hcomments : Comments comments) (h : FitTogether blocks) :
    parse_lines (splitlines (program_text comments (blocks.map Block.text))) .new =
      .ok () (assembled blocks) := by
  rw [splitlines_program_text hcomments (not_break_of_fits h.fits), List.append_assoc,
    parse_comments fun comment hcomment => (hcomments comment hcomment).1,
    parse_blocks h.fits (by simpa [Assembler.new] using h.names) (by simpa [Assembler.new] using h.count)
      h.constants,
    parse_lines_of (parse_emit_of fun _ => rfl), parse_lines_of (parse_emit_of fun _ => rfl), parse_lines]
  simp [assembled, with_instructions, Assembler.with_instruction]

end Programs

end Bogbin.Packer
