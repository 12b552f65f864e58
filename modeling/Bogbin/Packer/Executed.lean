import Bogbin.Bogvm.JsonReader
import Bogbin.Container.Decoder
import Bogbin.Packer.Assembled

/-!
# Packed programs run

The instructions of a block load it, patch it and accept it when its hash is that of its bytes
(`leads_block`), and raise `VMError` when it is not (`fails_block`).  A program of blocks ends with all
of its blocks accepted, or with those in front of the first block with a wrong hash.
-/

namespace Bogbin.Packer

open Bogvm Vm StateExcept JsonReader
open Std (TreeMap)

/-! ## Parts of a run -/

section Parts

variable {manifest : Dict} {front back instructions : List Instruction}
  {flags target source param : ℕ} {s : VMState} {P Q : VMState → Prop}

/-- The instructions are executed, and `P` holds behind them. -/
def Leads (manifest : Dict) (instructions : List Instruction) (s : VMState) (P : VMState → Prop) : Prop :=
  ∀ pc rest, ∃ s', loop manifest pc (instructions ++ rest) s =
    loop manifest (pc + instructions.length) rest s' ∧ P s'

/-- One of the instructions raises `VMError`, and `P` holds there. -/
def Fails (manifest : Dict) (instructions : List Instruction) (s : VMState) (P : VMState → Prop) : Prop :=
  ∀ pc rest, ∃ s', loop manifest pc (instructions ++ rest) s = .error .VMError s' ∧ P s'

theorem leads_nil (h : P s) : Leads manifest [] s P := fun _ _ => ⟨s, rfl, h⟩

theorem leads_append (hfront : Leads manifest front s P) (hback : ∀ s', P s' → Leads manifest back s' Q) :
    Leads manifest (front ++ back) s Q := by
  intro pc rest
  obtain ⟨s₁, hloop₁, h₁⟩ := hfront pc (back ++ rest)
  obtain ⟨s₂, hloop₂, h₂⟩ := hback s₁ h₁ (pc + front.length) rest
  refine ⟨s₂, ?_, h₂⟩
  rw [List.append_assoc, hloop₁, hloop₂, List.length_append, Nat.add_assoc]

theorem Leads.imp (h : Leads manifest instructions s P) (himp : ∀ s', P s' → Q s') :
    Leads manifest instructions s Q := by
  intro pc rest
  obtain ⟨s', hloop, hs'⟩ := h pc rest
  exact ⟨s', hloop, himp s' hs'⟩

theorem fails_append (hfront : Leads manifest front s P) (hback : ∀ s', P s' → Fails manifest back s' Q) :
    Fails manifest (front ++ back) s Q := by
  intro pc rest
  obtain ⟨s₁, hloop₁, h₁⟩ := hfront pc (back ++ rest)
  obtain ⟨s₂, hloop₂, h₂⟩ := hback s₁ h₁ (pc + front.length) rest
  refine ⟨s₂, ?_, h₂⟩
  rw [List.append_assoc, hloop₁, hloop₂]

theorem Fails.append (h : Fails manifest front s P) (back : List Instruction) :
    Fails manifest (front ++ back) s P := by
  intro pc rest
  obtain ⟨s', hloop, hs'⟩ := h pc (back ++ rest)
  refine ⟨s', ?_, hs'⟩
  rw [List.append_assoc, hloop]

/-- One instruction. -/
theorem leads_instr (op : Op) (hop : op ≠ .HALT)
    (h : ∀ pc, ∃ s', execute manifest pc ⟨op.code, flags, target, source, param⟩ op s = .ok () s' ∧
      P s') : Leads manifest [⟨op.code, flags, target, source, param⟩] s P := by
  intro pc rest
  obtain ⟨s', hcall, hs'⟩ := h pc
  refine ⟨s', ?_, hs'⟩
  rw [List.singleton_append, loop, require_eq_ok.mpr (OP_NAMES_code op), bind_of_ok ofExcept_ok,
    bind_of_ok hcall, if_neg hop]
  rfl

theorem fails_instr (op : Op) (hs : P s)
    (h : ∀ pc, execute manifest pc ⟨op.code, flags, target, source, param⟩ op s = .error .VMError s) :
    Fails manifest [⟨op.code, flags, target, source, param⟩] s P := by
  intro pc rest
  refine ⟨s, ?_, hs⟩
  rw [List.singleton_append, loop, require_eq_ok.mpr (OP_NAMES_code op), bind_of_ok ofExcept_ok,
    bind_of_error (h pc)]

end Parts

/-! ## The instructions of a block -/

/-- The ids stand for the name, the basis and the hash of the block. -/
structure Resolves (manifest : Dict) (block : Block) (data_id basis_id hash_id : ℕ) : Prop where
  name : require_symbol manifest "data_blocks" data_id = .ok (text_json block.name)
  basis : require_symbol manifest "constants" basis_id = .ok (.str block.basis.name)
  sha256 : require_symbol manifest "constants" hash_id = .ok (.str block.sha256)

/-- The state holds this data block, and otherwise the blocks and decisions that it held before. -/
structure Holds (before : VMState) (id : ℕ) (block : DataBlock) (s : VMState) : Prop where
  block : s.data_blocks[id]? = some block
  others : ∀ other, other ≠ id → s.data_blocks[other]? = before.data_blocks[other]?
  accepted : s.accepted_data_blocks = before.accepted_data_blocks
  rejected : s.rejected_data_blocks = before.rejected_data_blocks

section Opcodes

variable {manifest : Dict} {before s : VMState} {id : ℕ} {block block' : DataBlock} {instr : Instruction}
  {packed : Block} {data_id basis_id hash_id : ℕ}

theorem Holds.set (h : Holds before id block s) (block' : DataBlock) :
    Holds before id block' { s with data_blocks := s.data_blocks.insert id block' } where
  block := TreeMap.getElem?_insert_self
  others other hother := by
    dsimp only
    rw [TreeMap.getElem?_insert, if_neg (mt Nat.compare_eq_eq.mp hother.symm)]
    exact h.others other hother
  accepted := h.accepted
  rejected := h.rejected

theorem Holds.logged (h : Holds before id block s) (n : ℤ) (opcode : String)
    (details : List (String × Json)) : Holds before id block (s.logged n opcode details) :=
  ⟨h.block, h.others, h.accepted, h.rejected⟩

theorem block_of_bind {α : Type} {g : DataBlock → VM α}
    (h : s.data_blocks[instr.target]? = some block) : (block_of instr >>= g) s = g block s := by
  have hfound : block_of instr s = .ok block s := reading_eq_ok.mpr ⟨require_eq_ok.mpr h, rfl⟩
  exact bind_of_ok hfound

/-- The block before its coefficients are loaded has its basis only. -/
theorem leads_declare_basis (h : Resolves manifest packed data_id basis_id hash_id) :
    Leads manifest [⟨Op.DECLARE_BASIS.code, 0, basis_id, 0, 0⟩] s
      fun s' => s'.active_basis = some packed.basis ∧ s'.data_blocks = s.data_blocks ∧
        s'.accepted_data_blocks = s.accepted_data_blocks ∧
        s'.rejected_data_blocks = s.rejected_data_blocks := by
  refine leads_instr _ (by decide) fun pc => ?_
  refine ⟨({ s with active_basis := some packed.basis } : VMState).logged pc "DECLARE_BASIS"
    [("basis", .str packed.basis.name)], ?_, rfl, rfl, rfl, rfl⟩
  show declare_basis manifest pc _ s = _
  unfold declare_basis
  rw [h.basis, bind_of_ok ofExcept_ok]
  dsimp only
  rw [Basis.of_name_name, Vm.require, bind_of_ok ofExcept_ok]
  rfl

/-- The block of a name with the coefficients of a packed one. -/
def loaded (packed : Block) (id : ℕ) (bytes : Bytes) (residuals : List Vm.Patch) : DataBlock :=
  ⟨id, text_json packed.name, some packed.basis, packed.start_byte.toNat, packed.delta.toNat,
    packed.length, bytes, residuals⟩

theorem leads_load_coefficients (h : Resolves manifest packed data_id basis_id hash_id)
    (hbasis : s.active_basis = some packed.basis) :
    Leads manifest [⟨Op.LOAD_COEFFICIENTS.code, packed.delta.toNat, data_id, packed.start_byte.toNat,
      packed.length⟩] s (Holds s data_id (loaded packed data_id [] [])) := by
  refine leads_instr _ (by decide) fun pc => ?_
  refine ⟨({ s with data_blocks := s.data_blocks.insert data_id (loaded packed data_id [] []) } :
    VMState).logged pc "LOAD_COEFFICIENTS" [("data_block", text_json packed.name),
      ("byte", .int packed.start_byte.toNat), ("delta", .int packed.delta.toNat),
      ("length", .int packed.length)], ?_, ⟨TreeMap.getElem?_insert_self, fun other hother => ?_, rfl, rfl⟩⟩
  · show load_coefficients manifest pc _ s = _
    unfold load_coefficients
    rw [h.name, bind_of_ok ofExcept_ok]
    dsimp only
    rw [if_neg (not_lt.mpr (toNat_le _)), if_neg (not_lt.mpr (toNat_le _)), bind_of_ok (modify_apply _),
      hbasis]
    rfl
  · show (s.data_blocks.insert data_id _)[other]? = _
    rw [TreeMap.getElem?_insert, if_neg (mt Nat.compare_eq_eq.mp hother.symm)]

theorem leads_synthesize (h : Holds before data_id (loaded packed data_id [] []) s) :
    Leads manifest [⟨Op.SYNTHESIZE.code, 0, data_id, 0, 0⟩] s (Holds before data_id (loaded packed data_id
      (packed.basis.bytes packed.start_byte.toNat packed.length packed.delta.toNat) [])) := by
  refine leads_instr _ (by decide) fun pc => ⟨_, ?_, (h.set _).logged pc "SYNTHESIZE"
    [("data_block", text_json packed.name), ("byte_length", .int (packed.basis.bytes
      packed.start_byte.toNat packed.length packed.delta.toNat).length)]⟩
  have hbytes : synthesized (loaded packed data_id [] []) =
      .ok (packed.basis.bytes packed.start_byte.toNat packed.length packed.delta.toNat) := by
    unfold synthesized loaded
    dsimp only
    rw [synthesize_basis_ok (toNat_le _) (toNat_le _)]
  show synthesize pc _ s = _
  unfold synthesize
  rw [block_of_bind h.block, hbytes, bind_of_ok ofExcept_ok]
  rfl

/-- The patches of a packed block as the machine stores them. -/
def stored (patches : List Container.Patch) : List Vm.Patch :=
  patches.map fun patch => ⟨patch.offset, patch.byte.toNat⟩

theorem pairwise_stored {patches : List Vm.Patch} {patch : Container.Patch}
    (hsorted : patches.Pairwise (patch_le · ·)) (hlast : ∀ q ∈ patches, q.offset < patch.offset) :
    (patches ++ stored [patch]).Pairwise (patch_le · ·) := by
  refine List.pairwise_append.mpr ⟨hsorted, List.pairwise_singleton _ _, fun q hq r hr => ?_⟩
  obtain rfl := List.mem_singleton.mp hr
  simp [patch_le, hlast q hq]

theorem leads_store_residual {patches : List Vm.Patch} {bytes : Bytes} (patch : Container.Patch)
    (h : Holds before data_id (loaded packed data_id bytes patches) s) (hoffset : patch.offset < packed.length)
    (hlast : ∀ q ∈ patches, q.offset < patch.offset) (hsorted : patches.Pairwise (patch_le · ·)) :
    Leads manifest [Block.store_residual data_id patch] s (Holds before data_id
      (loaded packed data_id bytes (patches ++ stored [patch]))) := by
  have hblock : loaded packed data_id bytes (patches ++ stored [patch]) =
      loaded packed data_id bytes ((patches ++ stored [patch]).mergeSort patch_le) := by
    rw [List.mergeSort_of_pairwise (pairwise_stored hsorted hlast)]
  have hlength : ¬(loaded packed data_id bytes patches).length ≤ patch.offset := not_le.mpr hoffset
  rw [hblock]
  refine leads_instr _ (by decide) fun pc => ⟨_, ?_, (h.set _).logged pc "STORE_RESIDUAL"
    [("data_block", text_json packed.name), ("offset", .int patch.offset), ("byte", .int patch.byte.toNat)]⟩
  show store_residual pc _ s = _
  unfold store_residual
  rw [block_of_bind h.block]
  dsimp only
  rw [if_neg hlength, if_neg (not_lt.mpr (toNat_le _))]
  rfl

theorem leads_store_residuals {patches : List Vm.Patch} {bytes : Bytes} {next : ℕ}
    (residuals : List Container.Patch) (h : Holds before data_id (loaded packed data_id bytes patches) s)
    (hrising : Container.Rising packed.length next residuals) (hlast : ∀ q ∈ patches, q.offset < next)
    (hsorted : patches.Pairwise (patch_le · ·)) :
    Leads manifest (residuals.map (Block.store_residual data_id)) s (Holds before data_id
      (loaded packed data_id bytes (patches ++ stored residuals))) := by
  induction residuals generalizing patches next s with
  | nil =>
    refine leads_nil ?_
    rwa [stored, List.map_nil, List.append_nil]
  | cons patch residuals ih =>
    obtain ⟨hnext, hoffset, hrest⟩ := hrising
    have hbefore : ∀ q ∈ patches, q.offset < patch.offset := fun q hq => (hlast q hq).trans_le hnext
    have hstep := @leads_store_residual manifest _ _ _ _ _ _ patch h hoffset hbefore hsorted
    rw [List.map_cons, ← List.singleton_append]
    refine leads_append hstep fun s' hs' => ?_
    have happend : patches ++ stored (patch :: residuals) = (patches ++ stored [patch]) ++ stored residuals := by
      rw [List.append_assoc]
      rfl
    rw [happend]
    refine ih hs' hrest (fun q hq => ?_) (pairwise_stored hsorted hbefore)
    rcases List.mem_append.mp hq with hq | hq
    · exact (hbefore q hq).trans (Nat.lt_succ_self _)
    · obtain rfl := List.mem_singleton.mp hq
      exact Nat.lt_succ_self _

theorem foldlM_apply_patch {residuals : List Container.Patch} {bytes : Bytes}
    (h : ∀ patch ∈ residuals, patch.offset < bytes.length) :
    (stored residuals).foldlM apply_patch bytes =
      .ok (residuals.foldl (fun data patch => data.set patch.offset patch.byte) bytes) := by
  induction residuals generalizing bytes with
  | nil => rfl
  | cons patch residuals ih =>
    obtain ⟨hpatch, hrest⟩ := List.forall_mem_cons.mp h
    have hset : apply_patch bytes ⟨patch.offset, patch.byte.toNat⟩ =
        .ok (bytes.set patch.offset patch.byte) := by
      rw [apply_patch, if_neg (not_le.mpr hpatch), UInt8.ofNat_toNat]
    rw [stored, List.map_cons, List.foldlM_cons, hset, ok_bind, List.foldl_cons, ← stored]
    exact ih (by rwa [List.length_set])

theorem leads_apply_residual (hfits : packed.Fits) (h : Holds before data_id (loaded packed data_id
      (packed.basis.bytes packed.start_byte.toNat packed.length packed.delta.toNat)
      (stored packed.residuals)) s) :
    Leads manifest [⟨Op.APPLY_RESIDUAL.code, 0, data_id, 0, 0⟩] s
      (Holds before data_id (loaded packed data_id packed.bytes (stored packed.residuals))) := by
  have happly := @foldlM_apply_patch packed.residuals
    (packed.basis.bytes packed.start_byte.toNat packed.length packed.delta.toNat)
    (by rw [Basis.length_bytes]; exact offset_lt_of_rising hfits.rising)
  refine leads_instr _ (by decide) fun pc => ⟨_, ?_, (h.set _).logged pc "APPLY_RESIDUAL"
    [("data_block", text_json packed.name), ("residual_count", .int (stored packed.residuals).length),
      ("byte_length", .int packed.bytes.length)]⟩
  show apply_residual pc _ s = _
  unfold apply_residual
  rw [block_of_bind h.block]
  dsimp only [loaded]
  rw [happly, bind_of_ok ofExcept_ok]
  rfl

/-- The result of the verification of a packed block. -/
def hash_result (packed : Block) : Status :=
  if hexdigest packed.bytes = packed.sha256 then .verified else .rejected

theorem leads_verify_hash (hresolves : Resolves manifest packed data_id basis_id hash_id)
    (h : Holds before data_id (loaded packed data_id packed.bytes (stored packed.residuals)) s) :
    Leads manifest [⟨Op.VERIFY_HASH.code, 0, data_id, hash_id, 0⟩] s fun s' =>
      Holds before data_id (loaded packed data_id packed.bytes (stored packed.residuals)) s' ∧
        s'.data_hash_results[data_id]? = some (hash_result packed) := by
  have hresult : (if Json.str (hexdigest packed.bytes) = .str packed.sha256 then Status.verified
      else .rejected) = hash_result packed := by
    unfold hash_result
    simp only [Json.str.injEq]
  rw [← hresult]
  refine leads_instr _ (by decide) fun pc => ⟨({ s with
    data_hash_results := s.data_hash_results.insert data_id (if Json.str (hexdigest packed.bytes) =
      .str packed.sha256 then .verified else .rejected) } : VMState).logged pc
      "VERIFY_HASH" [("data_block", text_json packed.name), ("expected_hash", .str packed.sha256),
        ("actual_hash", .str (hexdigest packed.bytes)),
        ("result", .str (if Json.str (hexdigest packed.bytes) = .str packed.sha256 then Status.verified
          else .rejected).name)], ?_,
    ⟨h.block, h.others, h.accepted, h.rejected⟩, TreeMap.getElem?_insert_self⟩
  show verify_hash manifest pc _ s = _
  unfold verify_hash
  rw [block_of_bind h.block, hresolves.sha256, bind_of_ok ofExcept_ok]
  rfl

/-- The block is accepted, and its bytes are those of the packed block. -/
structure Accepts (before : VMState) (id : ℕ) (packed : Block) (s : VMState) : Prop where
  block : s.data_blocks[id]? = some (loaded packed id packed.bytes (stored packed.residuals))
  others : ∀ other, other ≠ id → s.data_blocks[other]? = before.data_blocks[other]?
  accepted : s.accepted_data_blocks = add_sorted before.accepted_data_blocks id
  rejected : s.rejected_data_blocks = before.rejected_data_blocks

theorem leads_accept_data (h : Holds before data_id (loaded packed data_id packed.bytes
      (stored packed.residuals)) s) (hverified : s.data_hash_results[data_id]? = some .verified) :
    Leads manifest [⟨Op.ACCEPT_DATA.code, 0, data_id, 0, 0⟩] s (Accepts before data_id packed) := by
  refine leads_instr _ (by decide) fun pc => ⟨({ s with
    accepted_data_blocks := add_sorted s.accepted_data_blocks data_id } : VMState).logged pc
      "ACCEPT_DATA" [("data_block", text_json packed.name), ("result", .str "accepted")], ?_,
    h.block, h.others, ?_, h.rejected⟩
  · show accept_data pc _ s = _
    unfold accept_data
    rw [block_of_bind h.block, bind_of_ok get_apply, if_neg (not_not_intro hverified)]
    rfl
  · rw [← h.accepted]
    rfl

theorem fails_accept_data {block : DataBlock} (h : Holds before data_id block s)
    (hrejected : s.data_hash_results[data_id]? = some .rejected) :
    Fails manifest [⟨Op.ACCEPT_DATA.code, 0, data_id, 0, 0⟩] s fun s' =>
      s'.accepted_data_blocks = before.accepted_data_blocks ∧
        s'.rejected_data_blocks = before.rejected_data_blocks := by
  refine fails_instr _ ⟨h.accepted, h.rejected⟩ fun pc => ?_
  have hne : s.data_hash_results[data_id]? ≠ some .verified := by
    rw [hrejected]
    exact fun heq => Status.noConfusion (Option.some.inj heq)
  show accept_data pc _ s = _
  unfold accept_data
  rw [block_of_bind h.block, bind_of_ok get_apply, if_pos hne]
  rfl

/-- The instructions of a block up to the verification of its hash. -/
def verified_instructions (packed : Block) (data_id basis_id hash_id : ℕ) : List Instruction :=
  [⟨Op.DECLARE_BASIS.code, 0, basis_id, 0, 0⟩] ++
    ([⟨Op.LOAD_COEFFICIENTS.code, packed.delta.toNat, data_id, packed.start_byte.toNat, packed.length⟩] ++
    ([⟨Op.SYNTHESIZE.code, 0, data_id, 0, 0⟩] ++
    (packed.residuals.map (Block.store_residual data_id) ++
    ([⟨Op.APPLY_RESIDUAL.code, 0, data_id, 0, 0⟩] ++
      [⟨Op.VERIFY_HASH.code, 0, data_id, hash_id, 0⟩]))))

theorem leads_verified (hfits : packed.Fits) (h : Resolves manifest packed data_id basis_id hash_id) :
    Leads manifest (verified_instructions packed data_id basis_id hash_id) s fun s' =>
      Holds s data_id (loaded packed data_id packed.bytes (stored packed.residuals)) s' ∧
        s'.data_hash_results[data_id]? = some (hash_result packed) := by
  refine leads_append (leads_declare_basis h) ?_
  rintro s₁ ⟨hbasis, hblocks, haccepted, hrejected⟩
  have hload : Leads manifest [⟨Op.LOAD_COEFFICIENTS.code, packed.delta.toNat, data_id,
      packed.start_byte.toNat, packed.length⟩] s₁ (Holds s data_id (loaded packed data_id [] [])) := by
    refine (leads_load_coefficients h hbasis).imp fun s₂ h₂ => ?_
    exact ⟨h₂.block, fun other hother => (h₂.others other hother).trans (by rw [hblocks]),
      h₂.accepted.trans haccepted, h₂.rejected.trans hrejected⟩
  refine leads_append hload fun s₂ h₂ => ?_
  refine leads_append (leads_synthesize h₂) fun s₃ h₃ => ?_
  refine leads_append (leads_store_residuals packed.residuals h₃ hfits.rising
    (fun _ hq => absurd hq List.not_mem_nil) List.Pairwise.nil) fun s₄ h₄ => ?_
  exact leads_append (leads_apply_residual hfits h₄) fun s₅ h₅ => leads_verify_hash h h₅

theorem instructions_eq (packed : Block) (data_id basis_id hash_id : ℕ) :
    packed.instructions data_id basis_id hash_id =
      verified_instructions packed data_id basis_id hash_id ++
        [⟨Op.ACCEPT_DATA.code, 0, data_id, 0, 0⟩] := by
  simp [Block.instructions, verified_instructions]

/-- A block with the hash of its bytes is accepted. -/
theorem leads_block (hfits : packed.Fits) (h : Resolves manifest packed data_id basis_id hash_id)
    (hhash : hexdigest packed.bytes = packed.sha256) :
    Leads manifest (packed.instructions data_id basis_id hash_id) s (Accepts s data_id packed) := by
  rw [instructions_eq]
  refine leads_append (leads_verified hfits h) ?_
  rintro s' ⟨hholds, hresult⟩
  rw [hash_result, if_pos hhash] at hresult
  exact leads_accept_data hholds hresult

/-- A block with another hash is not. -/
theorem fails_block (hfits : packed.Fits) (h : Resolves manifest packed data_id basis_id hash_id)
    (hhash : hexdigest packed.bytes ≠ packed.sha256) :
    Fails manifest (packed.instructions data_id basis_id hash_id) s fun s' =>
      s'.accepted_data_blocks = s.accepted_data_blocks ∧
        s'.rejected_data_blocks = s.rejected_data_blocks := by
  rw [instructions_eq]
  refine fails_append (leads_verified hfits h) ?_
  rintro s' ⟨hholds, hresult⟩
  rw [hash_result, if_neg hhash] at hresult
  exact fails_accept_data hholds hresult

end Opcodes

/-! ## The symbols of a program -/

section Symbols

variable {final a : Assembler} {values : List Json} {names : List Text} {name : Text} {id : ℕ} {v : Json}
  {block : Block}

theorem toString_injective : Function.Injective fun n : ℕ => toString n := by
  intro n m h
  have hdigits : digits n = digits m := by
    rw [← toList_toString_ofNat, ← toList_toString_ofNat]
    exact congrArg String.toList h
  rw [← @Nat.ofDigitChars_ten_toDigits n, ← @Nat.ofDigitChars_ten_toDigits m]
  exact congrArg (Nat.ofDigitChars 10 · 0) hdigits

/-- The value of an id. -/
theorem get_id_table (h : values[id]? = some v) : Dict.get (id_table values) (toString id) = some v := by
  have hkeys : ((values.zipIdx.map fun entry => (toString entry.2, entry.1)).map Prod.fst).Nodup := by
    rw [List.map_map]
    have hsnd : values.zipIdx.map (Prod.fst ∘ fun entry : Json × ℕ => (toString entry.2, entry.1)) =
        (List.range values.length).map fun n => toString n := by
      rw [List.range_eq_range', ← List.zipIdx_map_snd, List.map_map]
      rfl
    rw [hsnd]
    exact List.nodup_range.map toString_injective
  have hmem : (toString id, v) ∈ values.zipIdx.map fun entry => (toString entry.2, entry.1) :=
    List.mem_map.mpr ⟨(v, id), List.mem_zipIdx_iff_getElem?.mpr h, rfl⟩
  exact Dict.get_of_mem (Dict.sorted_of _) ((Dict.perm_of hkeys).mem_iff.mpr hmem)

theorem symbol_of {manifest : Dict} {table : String}
    (htable : Dict.get manifest table = some (.obj (id_table (names.map text_json))))
    (h : names[id]? = some name) : require_symbol manifest table id = .ok (text_json name) := by
  have hget : Dict.get (id_table (names.map text_json)) (toString id) = some (text_json name) :=
    get_id_table (by rw [List.getElem?_map, h]; rfl)
  have hsymbol : symbol manifest table id = .ok (text_json name) := by
    unfold symbol
    rw [table_ok htable, ok_bind, hget]
    rfl
  unfold require_symbol
  rw [hsymbol, ok_bind, if_neg (fun hnull => Json.noConfusion hnull)]

theorem getElem?_idxOf_initial {longer : List Text} (h : names <+: longer) (hmem : name ∈ names) :
    longer[names.idxOf name]? = some name := by
  rw [← idxOf_initial h hmem]
  exact List.getElem?_idxOf (h.subset hmem)

theorem text_json_toList (s : String) : text_json s.toList = .str s := by
  rw [text_json, String.ofList_toList]

/-- A program resolves the ids of the blocks that it adds. -/
theorem resolves_add (hnames : (block.add a).data_names <+: final.data_names)
    (hconstants : (block.add a).constants <+: final.constants) :
    Resolves final.manifest block a.data_names.length
      ((block.constants a.constants).idxOf block.basis.name.toList)
      ((block.constants a.constants).idxOf block.sha256.toList) where
  name := by
    refine symbol_of (get_manifest_data_blocks final) ?_
    obtain ⟨back, hback⟩ := hnames
    have hadd : (block.add a).data_names = a.data_names ++ [block.name] := rfl
    rw [← hback, hadd, List.append_assoc, List.getElem?_append_right le_rfl, Nat.sub_self]
    rfl
  basis := by
    rw [← text_json_toList]
    refine symbol_of (get_manifest_constants final) (getElem?_idxOf_initial hconstants ?_)
    exact (prefix_with_name _ _).subset mem_with_name
  sha256 := by
    rw [← text_json_toList]
    exact symbol_of (get_manifest_constants final) (getElem?_idxOf_initial hconstants mem_with_name)

end Symbols

/-! ## Programs -/

/-- The instructions of the blocks that are added to an assembler. -/
def code (a : Assembler) : List Block → List Instruction
  | [] => []
  | block :: blocks =>
    block.instructions a.data_names.length
      ((block.constants a.constants).idxOf block.basis.name.toList)
      ((block.constants a.constants).idxOf block.sha256.toList) ++ code (block.add a) blocks

/-- The blocks that a program has accepted so far. -/
structure Ran (blocks : List Block) (s : VMState) : Prop where
  block : ∀ i packed, blocks[i]? = some packed →
    s.data_blocks[i]? = some (loaded packed i packed.bytes (stored packed.residuals))
  accepted : s.accepted_data_blocks = List.range blocks.length
  rejected : s.rejected_data_blocks = []

section Programs

variable {a final : Assembler} {block bad : Block} {blocks front back : List Block} {s : VMState}

theorem instructions_add_blocks (a : Assembler) (blocks : List Block) :
    (add_blocks a blocks).instructions = a.instructions ++ code a blocks := by
  induction blocks generalizing a with
  | nil => exact (List.append_nil _).symm
  | cons block blocks ih => rw [add_blocks_cons, ih, code, ← List.append_assoc]; rfl

theorem code_append : code a (front ++ back) = code a front ++ code (add_blocks a front) back := by
  induction front generalizing a with
  | nil => rfl
  | cons block front ih => rw [List.cons_append, code, ih, code, List.append_assoc, add_blocks_cons]

theorem add_blocks_append : add_blocks a (front ++ back) = add_blocks (add_blocks a front) back :=
  List.foldl_append

theorem add_sorted_range (n : ℕ) : add_sorted (List.range n) n = List.range (n + 1) := by
  have hsorted : (List.range n ++ [n]).Pairwise (fun a b => decide (a ≤ b) = true) := by
    rw [← List.range_succ]
    exact List.pairwise_le_range.imp fun h => decide_eq_true h
  rw [add_sorted, if_neg (by simp), List.mergeSort_of_pairwise hsorted, List.range_succ]

theorem ran_append (h : Ran front s) {s' : VMState} (haccepts : Accepts s front.length block s') :
    Ran (front ++ [block]) s' where
  block i packed hi := by
    by_cases hlast : i = front.length
    · subst hlast
      rw [List.getElem?_append_right le_rfl, Nat.sub_self] at hi
      obtain rfl := Option.some.inj hi
      exact haccepts.block
    · have hlt : i < front.length := by
        have hle := (List.getElem?_eq_some_iff.mp hi).1
        rw [List.length_append, List.length_singleton] at hle
        omega
      rw [List.getElem?_append_left hlt] at hi
      rw [haccepts.others i hlast, h.block i packed hi]
  accepted := by
    rw [haccepts.accepted, h.accepted, add_sorted_range, List.length_append, List.length_singleton]
  rejected := haccepts.rejected.trans h.rejected

theorem prefix_data_names (a : Assembler) (front back : List Block) :
    (add_blocks a front).data_names <+: (add_blocks a (front ++ back)).data_names := by
  rw [data_names_add_blocks, data_names_add_blocks, List.map_append, ← List.append_assoc]
  exact List.prefix_append _ _

theorem prefix_append_blocks (a : Assembler) (front back : List Block) :
    (add_blocks a front).constants <+: (add_blocks a (front ++ back)).constants := by
  rw [add_blocks_append]
  exact prefix_add_blocks _ _

theorem length_data_names (blocks : List Block) :
    (add_blocks .new blocks).data_names.length = blocks.length := by
  rw [data_names_add_blocks, List.length_append, List.length_map]
  exact Nat.zero_add _

/-- The blocks with their hashes are accepted one after the other. -/
theorem leads_blocks (hfits : ∀ block ∈ blocks, block.Fits)
    (hhashes : ∀ block ∈ blocks, hexdigest block.bytes = block.sha256)
    (hnames : (add_blocks .new (front ++ blocks)).data_names <+: final.data_names)
    (hconstants : (add_blocks .new (front ++ blocks)).constants <+: final.constants) (h : Ran front s) :
    Leads final.manifest (code (add_blocks .new front) blocks) s (Ran (front ++ blocks)) := by
  induction blocks generalizing front s with
  | nil =>
    rw [List.append_nil]
    exact leads_nil h
  | cons block blocks ih =>
    obtain ⟨hblock, hblocks⟩ := List.forall_mem_cons.mp hfits
    obtain ⟨hhash, hrest⟩ := List.forall_mem_cons.mp hhashes
    rw [List.append_cons] at hnames hconstants ⊢
    have hadd : block.add (add_blocks .new front) = add_blocks .new (front ++ [block]) := by
      rw [add_blocks_append]
      rfl
    have hresolves : Resolves final.manifest block _ _ _ := @resolves_add final (add_blocks .new front) block
      (by rw [hadd]; exact (prefix_data_names _ _ _).trans hnames)
      (by rw [hadd]; exact (prefix_append_blocks _ _ _).trans hconstants)
    rw [code, hadd]
    refine leads_append (leads_block hblock hresolves hhash) fun s' hs' => ?_
    rw [length_data_names] at hs'
    exact ih hblocks hrest hnames hconstants (ran_append h hs')

/-- The blocks in front of the first one with a wrong hash are accepted. -/
theorem fails_blocks (hfits : ∀ block ∈ front ++ bad :: back, block.Fits)
    (hhashes : ∀ block ∈ front, hexdigest block.bytes = block.sha256)
    (hbad : hexdigest bad.bytes ≠ bad.sha256)
    (hnames : (add_blocks .new (front ++ bad :: back)).data_names <+: final.data_names)
    (hconstants : (add_blocks .new (front ++ bad :: back)).constants <+: final.constants)
    (h : Ran [] s) :
    Fails final.manifest (code .new (front ++ bad :: back)) s fun s' =>
      s'.accepted_data_blocks = List.range front.length ∧ s'.rejected_data_blocks = [] := by
  have hfront := @leads_blocks final front [] s
    (fun block hblock => hfits block (List.mem_append_left _ hblock)) hhashes
    ((prefix_data_names _ _ _).trans hnames) ((prefix_append_blocks _ _ _).trans hconstants) h
  rw [List.nil_append] at hfront
  rw [List.append_cons] at hnames hconstants
  have hadd : bad.add (add_blocks .new front) = add_blocks .new (front ++ [bad]) := by
    rw [add_blocks_append]
    rfl
  have hresolves := @resolves_add final (add_blocks .new front) bad
    (by rw [hadd]; exact (prefix_data_names _ _ _).trans hnames)
    (by rw [hadd]; exact (prefix_append_blocks _ _ _).trans hconstants)
  rw [code_append, code]
  refine fails_append hfront fun s' hs' => ?_
  rw [← hs'.accepted, ← hs'.rejected]
  exact (fails_block (hfits bad (by simp)) hresolves hbad).append _

theorem ran_nil : Ran [] .initial where
  block i packed hi := absurd hi (by simp)
  accepted := rfl
  rejected := rfl

theorem Ran.logged (h : Ran blocks s) (n : ℤ) (opcode : String) (details : List (String × Json)) :
    Ran blocks (s.logged n opcode details) :=
  ⟨h.block, h.accepted, h.rejected⟩

theorem instructions_assembled (blocks : List Block) : (assembled blocks).instructions =
    code .new blocks ++ [⟨Op.EMIT_RECEIPT.code, 0, 0, 0, 0⟩, ⟨Op.HALT.code, 0, 0, 0, 0⟩] := by
  unfold assembled with_instructions
  rw [instructions_add_blocks]
  rfl

/-- The end of a packed program. -/
theorem loop_end {manifest : Dict} {pc : ℕ} (h : Ran blocks s) :
    ∃ n s', loop manifest pc [⟨Op.EMIT_RECEIPT.code, 0, 0, 0, 0⟩, ⟨Op.HALT.code, 0, 0, 0, 0⟩] s =
      .ok n s' ∧ Ran blocks s' := by
  refine ⟨pc + 1, _, rfl, ?_⟩
  refine Ran.logged (Ran.logged ?_ _ _ _) _ _ _
  exact ⟨h.block, h.accepted, h.rejected⟩

/-- The receipt of a run is that of its last state. -/
theorem receipt_of_run {manifest : Dict} {program_hash : String} {instructions : List Instruction}
    {receipt : Dict} {s' : VMState} (h : run manifest program_hash instructions s = .ok receipt s') :
    s'.receipt manifest program_hash = .ok receipt := by
  unfold run at h
  obtain ⟨n, s₁, -, h⟩ := StateExcept.bind_eq_ok.mp h
  rw [bind_of_ok get_apply] at h
  split_ifs at h
  · rw [bind_of_ok log_apply] at h
    obtain ⟨hreceipt, rfl⟩ := reading_eq_ok.mp h
    exact hreceipt
  · obtain ⟨hreceipt, rfl⟩ := reading_eq_ok.mp h
    exact hreceipt

theorem accepted_names_of_receipt {manifest : Dict} {program_hash : String} {receipt : Dict}
    (h : s.receipt manifest program_hash = .ok receipt) :
    ∃ names, s.accepted_data_blocks.mapM (VMState.block_name manifest) = .ok names ∧
      Dict.get receipt "accepted_data_block_names" = some (.arr names) := by
  unfold VMState.receipt at h
  obtain ⟨_, -, h₁⟩ := Bogbin.bind_eq_ok.mp h
  obtain ⟨_, -, h₂⟩ := Bogbin.bind_eq_ok.mp h₁
  obtain ⟨_, -, h₃⟩ := Bogbin.bind_eq_ok.mp h₂
  obtain ⟨names, hnames, h₄⟩ := Bogbin.bind_eq_ok.mp h₃
  obtain ⟨_, -, h₅⟩ := Bogbin.bind_eq_ok.mp h₄
  obtain rfl := Except.ok.inj h₅
  exact ⟨names, hnames, by simp [Dict.of, Dict.get_set]⟩

theorem block_names_assembled (blocks : List Block) :
    (List.range blocks.length).mapM (VMState.block_name (assembled blocks).manifest) =
      .ok (blocks.map fun block => text_json block.name) := by
  have hnames : (assembled blocks).data_names = blocks.map Block.name :=
    (data_names_add_blocks .new blocks).trans (List.nil_append _)
  refine mapM_eq_ok (List.forall₂_iff_get.mpr ⟨by simp, fun i hi hi' => ?_⟩)
  have hlt : i < blocks.length := by rwa [List.length_range] at hi
  have hget : Dict.get (id_table ((assembled blocks).data_names.map text_json)) (toString i) =
      some (text_json blocks[i].name) := get_id_table (by simp [hnames, hlt])
  simp only [List.get_eq_getElem, List.getElem_range, List.getElem_map]
  unfold VMState.block_name
  rw [table_ok (get_manifest_data_blocks _), ok_bind, hget]
  rfl

/-- A program of blocks with their hashes ends with a receipt of all of them. -/
theorem run_packed (h : FitTogether blocks)
    (hhashes : ∀ block ∈ blocks, hexdigest block.bytes = block.sha256) (program_hash : String) :
    ∃ receipt s, run (assembled blocks).manifest program_hash (assembled blocks).instructions .initial =
        .ok receipt s ∧ Ran blocks s ∧ Dict.get receipt "accepted_data_block_names" =
          some (.arr (blocks.map fun block => text_json block.name)) := by
  obtain ⟨s₁, hloop₁, hran₁⟩ := @leads_blocks (assembled blocks) blocks [] .initial h.fits hhashes
    (List.prefix_refl _) (List.prefix_refl _) ran_nil 0
    [⟨Op.EMIT_RECEIPT.code, 0, 0, 0, 0⟩, ⟨Op.HALT.code, 0, 0, 0, 0⟩]
  obtain ⟨n, s₂, hloop₂, hran₂⟩ := @loop_end blocks s₁ (assembled blocks).manifest
    (0 + (code .new blocks).length) hran₁
  have hloop : loop (assembled blocks).manifest 0 (assembled blocks).instructions .initial = .ok n s₂ := by
    rw [instructions_assembled]
    exact hloop₁.trans hloop₂
  obtain ⟨receipt, s, hrun, hs⟩ := run_of_loop program_hash (tables_manifest _).data_blocks hloop
  have hran : Ran blocks s := by
    rcases hs with rfl | ⟨m, opcode, details, rfl⟩
    · exact hran₂
    · exact hran₂.logged _ _ _
  obtain ⟨names, hnames, hget⟩ := accepted_names_of_receipt (receipt_of_run hrun)
  rw [hran.accepted, block_names_assembled] at hnames
  obtain rfl := Except.ok.inj hnames
  exact ⟨receipt, s, hrun, hran, hget⟩

/-- A program with a wrong hash is blocked, with the blocks in front of it accepted. -/
theorem blocked_packed (h : FitTogether (front ++ bad :: back))
    (hhashes : ∀ block ∈ front, hexdigest block.bytes = block.sha256)
    (hbad : hexdigest bad.bytes ≠ bad.sha256) (program_hash : String) :
    ∃ s, run (assembled (front ++ bad :: back)).manifest program_hash
        (assembled (front ++ bad :: back)).instructions .initial = .error .VMError s ∧
      s.accepted_data_blocks = List.range front.length ∧ s.rejected_data_blocks = [] := by
  obtain ⟨s, hloop, hs⟩ := @fails_blocks (assembled (front ++ bad :: back)) bad front back .initial h.fits
    hhashes hbad (List.prefix_refl _) (List.prefix_refl _) ran_nil 0
    [⟨Op.EMIT_RECEIPT.code, 0, 0, 0, 0⟩, ⟨Op.HALT.code, 0, 0, 0, 0⟩]
  rw [← instructions_assembled] at hloop
  exact ⟨s, bind_of_error hloop, hs⟩

end Programs

end Bogbin.Packer
