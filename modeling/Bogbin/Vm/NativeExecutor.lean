import Bogbin.Core.Executor
import Bogbin.Core.Sha256Proof
import Bogbin.Vm.Assembler
import Bogbin.Vm.Run

/-!
# The native executor and the machine

Both run a program that verifies and decides about one data block.  The executor skips a decision that
its last comparison does not allow (`lenient`), the machine blocks there (`strict`).  So the executor
repeats every decision of the machine, and makes others only where the machine has blocked
(`native_decisions`).
-/

namespace Bogbin.Vm

open Bogvm Buffer StateExcept
open Std (TreeMap)

/-! ## Two machines for one block -/

/-- The last comparison of the hash and the decisions. -/
structure Verdict where
  checked : Option Bool
  accepted : Bool
  rejected : Bool

def Verdict.open_block : Verdict := ⟨none, false, false⟩

/-- The run that skips a decision; `found` is the result of a comparison. -/
def lenient (found : Bool) : List Op → Verdict → Verdict
  | [], v => v
  | .HALT :: _, v => v
  | .VERIFY_HASH :: ops, v => lenient found ops { v with checked := some found }
  | .ACCEPT_DATA :: ops, v =>
    lenient found ops (if v.checked = some true then { v with accepted := true } else v)
  | .REJECT_DATA :: ops, v =>
    lenient found ops (if v.checked ≠ some true then { v with rejected := true } else v)
  | _ :: ops, v => lenient found ops v

/-- The run that blocks at a decision, and whether it has. -/
def strict (found : Bool) : List Op → Verdict → Verdict × Bool
  | [], v => (v, false)
  | .HALT :: _, v => (v, false)
  | .VERIFY_HASH :: ops, v => strict found ops { v with checked := some found }
  | .ACCEPT_DATA :: ops, v =>
    if v.checked = some true then strict found ops { v with accepted := true } else (v, true)
  | .REJECT_DATA :: ops, v =>
    if v.checked = some false then strict found ops { v with rejected := true } else (v, true)
  | _ :: ops, v => strict found ops v

/-- The instructions in front of the first `HALT`. -/
def reached_ops (ops : List Op) : List Op := ops.takeWhile (· ≠ .HALT)

/-- Those in front of the first `VERIFY_HASH`. -/
def unverified_ops (ops : List Op) : List Op := (reached_ops ops).takeWhile (· ≠ .VERIFY_HASH)

/-- Those from the first `VERIFY_HASH` on. -/
def verified_ops (ops : List Op) : List Op := (reached_ops ops).dropWhile (· ≠ .VERIFY_HASH)

section Machines

variable {found : Bool} {ops : List Op} {v : Verdict}

theorem lenient_mono :
    (v.accepted = true → (lenient found ops v).accepted = true) ∧
      (v.rejected = true → (lenient found ops v).rejected = true) := by
  induction ops generalizing v with
  | nil => exact ⟨id, id⟩
  | cons op ops ih =>
    unfold lenient
    cases op with
    | HALT => exact ⟨id, id⟩
    | ACCEPT_DATA =>
      dsimp only
      split_ifs
      · exact ⟨fun _ => ih.1 rfl, fun h => ih.2 h⟩
      · exact ih
    | REJECT_DATA =>
      dsimp only
      split_ifs
      · exact ⟨fun h => ih.1 h, fun _ => ih.2 rfl⟩
      · exact ih
    | VERIFY_HASH => exact ⟨fun h => ih.1 h, fun h => ih.2 h⟩
    | _ => exact ih

/-- The strict run makes no decision that the lenient one does not make, and the same ones when it does
not block. -/
theorem strict_le_lenient :
    ((strict found ops v).1.accepted = true → (lenient found ops v).accepted = true) ∧
      ((strict found ops v).1.rejected = true → (lenient found ops v).rejected = true) ∧
      ((strict found ops v).2 = false → (strict found ops v).1 = lenient found ops v) := by
  induction ops generalizing v with
  | nil => exact ⟨id, id, fun _ => rfl⟩
  | cons op ops ih =>
    cases op with
    | HALT => exact ⟨id, id, fun _ => rfl⟩
    | ACCEPT_DATA =>
      unfold strict lenient
      by_cases hchecked : v.checked = some true
      · rw [if_pos hchecked, if_pos hchecked]
        exact ih
      · rw [if_neg hchecked, if_neg hchecked]
        exact ⟨lenient_mono.1, lenient_mono.2, nofun⟩
    | REJECT_DATA =>
      by_cases hchecked : v.checked = some false
      · have hne : v.checked ≠ some true := by simp [hchecked]
        unfold strict lenient
        rw [if_pos hchecked, if_pos hne]
        exact ih
      · have hmono := @lenient_mono found (.REJECT_DATA :: ops) v
        unfold strict
        rw [if_neg hchecked]
        exact ⟨hmono.1, hmono.2, nofun⟩
    | _ => exact ih

theorem reached_cons {op : Op} (h : op ≠ .HALT) : reached_ops (op :: ops) = op :: reached_ops ops :=
  List.takeWhile_cons_of_pos (by simpa using h)

/-- After a comparison, only the allowed decision counts. -/
theorem lenient_of_checked (h : v.checked = some found) :
    ((lenient found ops v).accepted = true ↔
      v.accepted = true ∨ found = true ∧ .ACCEPT_DATA ∈ reached_ops ops) ∧
    ((lenient found ops v).rejected = true ↔
      v.rejected = true ∨ found = false ∧ .REJECT_DATA ∈ reached_ops ops) := by
  obtain ⟨checked, accepted, rejected⟩ := v
  obtain rfl : checked = some found := h
  induction ops generalizing accepted rejected with
  | nil => simp [lenient, reached_ops]
  | cons op ops ih =>
    by_cases hhalt : op = .HALT
    · subst hhalt
      simp [lenient, reached_ops]
    · rw [reached_cons hhalt, List.mem_cons, List.mem_cons]
      cases op with
      | HALT => exact absurd rfl hhalt
      | ACCEPT_DATA =>
        cases found with
        | true => simp [lenient, ih true rejected]
        | false => simp [lenient, ih accepted rejected]
      | REJECT_DATA =>
        cases found with
        | true => simp [lenient, ih accepted rejected]
        | false => simp [lenient, ih accepted true]
      | _ => simpa [lenient] using ih accepted rejected

/-- Without a comparison, every reached `REJECT_DATA` counts as well. -/
theorem lenient_of_unchecked (h : v.checked = none) :
    ((lenient found ops v).accepted = true ↔
      v.accepted = true ∨ found = true ∧ .ACCEPT_DATA ∈ verified_ops ops) ∧
    ((lenient found ops v).rejected = true ↔ v.rejected = true ∨ .REJECT_DATA ∈ unverified_ops ops ∨
      found = false ∧ .REJECT_DATA ∈ verified_ops ops) := by
  obtain ⟨checked, accepted, rejected⟩ := v
  obtain rfl : checked = none := h
  unfold verified_ops unverified_ops
  induction ops generalizing accepted rejected with
  | nil => simp [lenient, reached_ops]
  | cons op ops ih =>
    by_cases hhalt : op = .HALT
    · subst hhalt
      simp [lenient, reached_ops]
    · rw [reached_cons hhalt]
      cases op with
      | HALT => exact absurd rfl hhalt
      | REJECT_DATA => simp [lenient, ih accepted true]
      | VERIFY_HASH =>
        simpa [lenient] using @lenient_of_checked found ops ⟨some found, accepted, rejected⟩ rfl
      | _ => simpa [lenient] using ih accepted rejected

end Machines

/-! ## Programs on a block -/

/-- An instruction on the block `id`; the constant of a comparison is the expected hash. -/
inductive OnBlock (manifest : Dict) (id : ℕ) (expected_hash : Digest) (instr : Instruction) : Op → Prop
  | noop (code : instr.opcode = 0x00) : OnBlock manifest id expected_hash instr .NOOP
  | halt (code : instr.opcode = 0x01) : OnBlock manifest id expected_hash instr .HALT
  | verify_hash (code : instr.opcode = 0x13) (target : instr.target = id)
      (constant : require_symbol manifest "constants" instr.source =
        .ok (.str (to_hex expected_hash.val))) :
      OnBlock manifest id expected_hash instr .VERIFY_HASH
  | accept_data (code : instr.opcode = 0x14) (target : instr.target = id) :
      OnBlock manifest id expected_hash instr .ACCEPT_DATA
  | reject_data (code : instr.opcode = 0x17) (target : instr.target = id) :
      OnBlock manifest id expected_hash instr .REJECT_DATA

/-- A program on the block whose fields fit an instruction. -/
structure BlockProgram (manifest : Dict) (id : ℕ) (expected_hash : Digest)
    (program : List Instruction) : Prop where
  packs : ∀ instr ∈ program, ∃ bytes, instr.pack = .ok bytes
  on_block : ∀ instr ∈ program, ∃ op, OnBlock manifest id expected_hash instr op

def program_bytes (program : List Instruction) : Bytes :=
  program.flatMap fun instr => instr.pack.toOption.getD []

def op_of (instr : Instruction) : Op := (OP_NAMES instr.opcode).getD .NOOP

section Programs

variable {manifest : Dict} {id : ℕ} {expected_hash : Digest} {instr : Instruction} {op : Op}
  {program rest : List Instruction} {payload : Bytes}

theorem OnBlock.named (h : OnBlock manifest id expected_hash instr op) :
    OP_NAMES instr.opcode = some op := by
  cases h with
  | noop code => rw [code]; rfl
  | halt code => rw [code]; rfl
  | verify_hash code => rw [code]; rfl
  | accept_data code => rw [code]; rfl
  | reject_data code => rw [code]; rfl

theorem OnBlock.op_of_eq (h : OnBlock manifest id expected_hash instr op) : op_of instr = op := by
  rw [op_of, h.named, Option.getD_some]

theorem BlockProgram.tail (h : BlockProgram manifest id expected_hash (instr :: rest)) :
    BlockProgram manifest id expected_hash rest :=
  ⟨fun i hi => h.packs i (List.mem_cons_of_mem _ hi), fun i hi => h.on_block i (List.mem_cons_of_mem _ hi)⟩

theorem beValue_two {n : ℕ} (h : n ≤ 65535) : beValue (beBytes 2 n) = n := by
  rw [beValue_beBytes, Nat.mod_eq_of_lt (by omega)]

theorem toNat_of_le {n : ℕ} (h : n ≤ 255) : (UInt8.ofNat (n % 256)).toNat = n := by
  rw [UInt8.toNat_ofNat']
  omega

/-- The executor decodes what the assembler packs. -/
theorem decode_pack {bytes : Bytes} (h : instr.pack = .ok bytes) :
    bytes.length = 8 ∧ ∃ decoded, Core.Instruction.decode bytes = some decoded ∧
      decoded.opcode_raw = UInt8.ofNat instr.opcode ∧
      decoded.opcode = Core.Opcode.of_u8 (UInt8.ofNat instr.opcode) ∧
      decoded.flags.toNat = instr.flags ∧ decoded.target = instr.target ∧
      decoded.source = instr.source ∧ decoded.param = instr.param := by
  unfold Instruction.pack at h
  split_ifs at h with hfits
  obtain ⟨hopcode, hflags, htarget, hsource, hparam⟩ := hfits
  obtain rfl := Except.ok.inj h
  have hraw : UInt8.ofNat (instr.opcode % 256) = UInt8.ofNat instr.opcode := by
    rw [Nat.mod_eq_of_lt (by omega)]
  have hlength : (beBytes 1 instr.opcode ++ beBytes 1 instr.flags ++ beBytes 2 instr.target ++
      beBytes 2 instr.source ++ beBytes 2 instr.param).length = 8 := by simp
  refine ⟨hlength, _, if_neg (by rw [hlength]; decide), hraw, congrArg Core.Opcode.of_u8 hraw,
    toNat_of_le hflags, beValue_two htarget, beValue_two hsource, beValue_two hparam⟩

theorem program_bytes_cons {bytes : Bytes} (h : instr.pack = .ok bytes) :
    program_bytes (instr :: rest) = bytes ++ program_bytes rest := by
  rw [program_bytes, List.flatMap_cons, h]
  rfl

theorem length_program_bytes (h : BlockProgram manifest id expected_hash program) :
    (program_bytes program).length = 8 * program.length := by
  induction program with
  | nil => rfl
  | cons instr rest ih =>
    obtain ⟨bytes, hbytes⟩ := h.packs instr List.mem_cons_self
    rw [program_bytes_cons hbytes, List.length_append, (decode_pack hbytes).1, ih h.tail,
      List.length_cons]
    omega

/-! ## The executor -/

/-- The variables of the loop that decide. -/
structure Follows (w : Core.Verifying) (v : Verdict) : Prop where
  checked : w.hash_match = decide (v.checked = some true)
  accepted : w.data_accepted = v.accepted
  rejected : w.data_rejected = v.rejected

/-- The loop of the executor is the lenient run. -/
theorem verify_loop_lenient {front : Bytes} {w : Core.Verifying} {v : Verdict}
    (hprogram : BlockProgram manifest id expected_hash rest) (hpc : w.pc = front.length)
    (hfollows : Follows w v) :
    Follows (Core.verify_loop (front ++ program_bytes rest) payload expected_hash rest.length w)
      (lenient (Core.sha256 payload = expected_hash) (rest.map op_of) v) := by
  induction rest generalizing front w v with
  | nil => exact hfollows
  | cons instr rest ih =>
    obtain ⟨bytes, hbytes⟩ := hprogram.packs instr List.mem_cons_self
    obtain ⟨op, hop⟩ := hprogram.on_block instr List.mem_cons_self
    obtain ⟨hlength, decoded, hdecode, hraw, hcode, -⟩ := decode_pack hbytes
    have hwidth : Core.INSTRUCTION_WIDTH = 8 := rfl
    have hlast : ¬ (front ++ (bytes ++ program_bytes rest)).length < w.pc + Core.INSTRUCTION_WIDTH := by
      rw [List.length_append, List.length_append]
      omega
    have hslice : slice (front ++ (bytes ++ program_bytes rest)) w.pc Core.INSTRUCTION_WIDTH = bytes := by
      rw [slice_append_right _ _ hpc.ge, hpc, Nat.sub_self, slice_append_left _ _ (by omega),
        slice_eq_self _ (by omega)]
    have hrest {w' : Core.Verifying} {v' : Verdict} (hpc' : w'.pc = w.pc + Core.INSTRUCTION_WIDTH)
        (hfollows' : Follows w' v') := @ih (front ++ bytes) w' v' hprogram.tail
      (by rw [List.length_append]; omega) hfollows'
    rw [List.append_assoc] at hrest
    rw [program_bytes_cons hbytes, List.length_cons, Core.verify_loop, if_neg hlast, hslice, hdecode,
      List.map_cons, hop.op_of_eq]
    dsimp only
    rw [hcode, hraw]
    cases hop with
    | noop code =>
      rw [code]
      exact hrest rfl ⟨hfollows.checked, hfollows.accepted, hfollows.rejected⟩
    | halt code =>
      rw [code]
      exact ⟨hfollows.checked, hfollows.accepted, hfollows.rejected⟩
    | verify_hash code =>
      rw [code]
      exact hrest rfl ⟨by simp, hfollows.accepted, hfollows.rejected⟩
    | accept_data code =>
      rw [code]
      refine hrest (by split_ifs <;> rfl) ?_
      by_cases hchecked : v.checked = some true
      · have hmatch : w.hash_match = true := by simp [hfollows.checked, hchecked]
        rw [if_pos hmatch, if_pos hchecked]
        exact ⟨hfollows.checked, rfl, hfollows.rejected⟩
      · have hmatch : ¬ w.hash_match = true := by simp [hfollows.checked, hchecked]
        rw [if_neg hmatch, if_neg hchecked]
        exact ⟨hfollows.checked, hfollows.accepted, hfollows.rejected⟩
    | reject_data code =>
      rw [code]
      refine hrest (by split_ifs <;> rfl) ?_
      by_cases hchecked : v.checked = some true
      · have hmatch : ¬ (!w.hash_match) = true := by simp [hfollows.checked, hchecked]
        rw [if_neg hmatch, if_neg (not_not.mpr hchecked)]
        exact ⟨hfollows.checked, hfollows.accepted, hfollows.rejected⟩
      · have hmatch : (!w.hash_match) = true := by simp [hfollows.checked, hchecked]
        rw [if_pos hmatch, if_pos hchecked]
        exact ⟨hfollows.checked, hfollows.accepted, rfl⟩

theorem execute_verify_lenient (hprogram : BlockProgram manifest id expected_hash program) :
    (Core.execute_verify (program_bytes program) payload expected_hash).data_accepted =
      (lenient (Core.sha256 payload = expected_hash) (program.map op_of) .open_block).accepted ∧
    (Core.execute_verify (program_bytes program) payload expected_hash).data_rejected =
      (lenient (Core.sha256 payload = expected_hash) (program.map op_of) .open_block).rejected := by
  have hturns : (program_bytes program).length / Core.INSTRUCTION_WIDTH = program.length := by
    rw [length_program_bytes hprogram]
    exact Nat.mul_div_cancel_left _ (by decide)
  have hloop := @verify_loop_lenient _ _ _ _ payload [] ⟨0, 0, false, false, false, false, false, Digest.zero⟩
    .open_block hprogram rfl ⟨rfl, rfl, rfl⟩
  rw [← hturns] at hloop
  exact ⟨hloop.accepted, hloop.rejected⟩

/-! ## The machine -/

/-- The state holds the block with these bytes and this verdict. -/
structure Holds (s : VMState) (id : ℕ) (payload : Bytes) (v : Verdict) : Prop where
  block : ∃ block, s.data_blocks[id]? = some block ∧ block.bytes = payload
  checked : s.data_hash_results[id]? = v.checked.map fun found =>
    if found then Status.verified else .rejected
  accepted : id ∈ s.accepted_data_blocks ↔ v.accepted = true
  rejected : id ∈ s.rejected_data_blocks ↔ v.rejected = true

/-- A run ends by raising at `ACCEPT_DATA` or `REJECT_DATA`. -/
def blocks_decision (manifest : Dict) : ℕ → List Instruction → VMState → Bool
  | _, [], _ => false
  | pc, instr :: rest, s =>
    match OP_NAMES instr.opcode with
    | none => false
    | some op =>
      match execute manifest pc instr op s with
      | .error _ _ => op = .ACCEPT_DATA ∨ op = .REJECT_DATA
      | .ok _ s' => if op = .HALT then false else blocks_decision manifest (pc + 1) rest s'

variable {s s' : VMState} {pc : ℕ} {v : Verdict}

theorem loop_cons (named : OP_NAMES instr.opcode = some op) :
    loop manifest pc (instr :: rest) s =
      (execute manifest pc instr op >>= fun _ =>
        if op = .HALT then pure pc else loop manifest (pc + 1) rest) s := by
  have hname : require .VMError (OP_NAMES instr.opcode) = .ok op := require_eq_ok.mpr named
  rw [loop, hname, bind_of_ok ofExcept_ok]

/-- What follows an instruction that does not raise. -/
theorem after_loop_of_ok (named : OP_NAMES instr.opcode = some op) (hop : op ≠ .HALT)
    (call : execute manifest pc instr op s = .ok () s') :
    loop manifest pc (instr :: rest) s = loop manifest (pc + 1) rest s' ∧
      blocks_decision manifest pc (instr :: rest) s = blocks_decision manifest (pc + 1) rest s' := by
  rw [loop_cons named, bind_of_ok call, if_neg hop, blocks_decision, named]
  dsimp only
  rw [call]
  exact ⟨rfl, if_neg hop⟩

/-- An instruction that raises ends the run. -/
theorem after_loop_of_error {e : PyError} (named : OP_NAMES instr.opcode = some op)
    (call : execute manifest pc instr op s = .error e s') :
    loop manifest pc (instr :: rest) s = .error e s' ∧
      blocks_decision manifest pc (instr :: rest) s =
        decide (op = .ACCEPT_DATA ∨ op = .REJECT_DATA) := by
  rw [loop_cons named, bind_of_error call, blocks_decision, named]
  dsimp only
  rw [call]
  exact ⟨rfl, rfl⟩

theorem block_of_ok {α : Type} {block : DataBlock} {g : DataBlock → VM α}
    (h : s.data_blocks[instr.target]? = some block) : (block_of instr >>= g) s = g block s := by
  have hreading : block_of instr s = .ok block s :=
    reading_eq_ok.mpr ⟨require_eq_ok.mpr h, rfl⟩
  rw [bind_of_ok hreading]

theorem verify_hash_holds (hs : Holds s id payload v) (target : instr.target = id)
    (constant : require_symbol manifest "constants" instr.source =
      .ok (.str (to_hex expected_hash.val))) :
    ∃ s', verify_hash manifest pc instr s = .ok () s' ∧
      Holds s' id payload { v with checked := some (hexdigest payload = to_hex expected_hash.val) } := by
  subst target
  obtain ⟨block, hblock, rfl⟩ := hs.block
  unfold verify_hash
  rw [block_of_ok hblock, constant, bind_of_ok ofExcept_ok, bind_of_ok (modify_apply _)]
  refine ⟨_, log_apply, ⟨block, hblock, rfl⟩, ?_, hs.accepted, hs.rejected⟩
  simp [Json.str.injEq]

/-- The result of the block is that of the last verification. -/
theorem Holds.result_eq_iff (hs : Holds s id payload v) (found : Bool) :
    s.data_hash_results[id]? = some (if found then .verified else .rejected) ↔
      v.checked = some found := by
  rw [hs.checked]
  cases v.checked with
  | none => simp
  | some checked => cases checked <;> cases found <;> simp

theorem accept_data_holds (hs : Holds s id payload v) (target : instr.target = id)
    (hchecked : v.checked = some true) :
    ∃ s', accept_data pc instr s = .ok () s' ∧ Holds s' id payload { v with accepted := true } := by
  subst target
  obtain ⟨block, hblock, hbytes⟩ := hs.block
  have hresult : s.data_hash_results[instr.target]? = some .verified :=
    (hs.result_eq_iff true).mpr hchecked
  unfold accept_data
  rw [block_of_ok hblock, bind_of_ok get_apply, if_neg (not_not.mpr hresult),
    bind_of_ok (modify_apply _)]
  refine ⟨_, log_apply, ⟨block, hblock, hbytes⟩, hs.checked, ?_, hs.rejected⟩
  simp

theorem accept_data_blocks (hs : Holds s id payload v) (target : instr.target = id)
    (hchecked : v.checked ≠ some true) : accept_data pc instr s = .error .VMError s := by
  subst target
  obtain ⟨block, hblock, -⟩ := hs.block
  have hresult : s.data_hash_results[instr.target]? ≠ some .verified :=
    mt (hs.result_eq_iff true).mp hchecked
  unfold accept_data
  rw [block_of_ok hblock, bind_of_ok get_apply, if_pos hresult]
  rfl

theorem reject_data_holds (hs : Holds s id payload v) (target : instr.target = id)
    (hchecked : v.checked = some false) :
    ∃ s', reject_data pc instr s = .ok () s' ∧ Holds s' id payload { v with rejected := true } := by
  subst target
  obtain ⟨block, hblock, hbytes⟩ := hs.block
  have hresult : s.data_hash_results[instr.target]? = some .rejected :=
    (hs.result_eq_iff false).mpr hchecked
  unfold reject_data
  rw [block_of_ok hblock, bind_of_ok get_apply, if_neg (not_not.mpr hresult),
    bind_of_ok (modify_apply _)]
  refine ⟨_, log_apply, ⟨block, hblock, hbytes⟩, hs.checked, hs.accepted, ?_⟩
  simp

theorem reject_data_blocks (hs : Holds s id payload v) (target : instr.target = id)
    (hchecked : v.checked ≠ some false) : reject_data pc instr s = .error .VMError s := by
  subst target
  obtain ⟨block, hblock, -⟩ := hs.block
  have hresult : s.data_hash_results[instr.target]? ≠ some .rejected :=
    mt (hs.result_eq_iff false).mp hchecked
  unfold reject_data
  rw [block_of_ok hblock, bind_of_ok get_apply, if_pos hresult]
  rfl

/-- The loop of the machine is the strict run. -/
theorem loop_strict (hprogram : BlockProgram manifest id expected_hash program)
    (hs : Holds s id payload v) :
    Holds (after (loop manifest pc program s)) id payload
        (strict (hexdigest payload = to_hex expected_hash.val) (program.map op_of) v).1 ∧
      blocks_decision manifest pc program s =
        (strict (hexdigest payload = to_hex expected_hash.val) (program.map op_of) v).2 := by
  induction program generalizing pc s v with
  | nil => exact ⟨hs, rfl⟩
  | cons instr rest ih =>
    obtain ⟨op, hop⟩ := hprogram.on_block instr List.mem_cons_self
    have named := hop.named
    have hgo {s₁ : VMState} {v₁ : Verdict} (hne : op ≠ .HALT)
        (call : execute manifest pc instr op s = .ok () s₁) (hs₁ : Holds s₁ id payload v₁) :
        Holds (after (loop manifest pc (instr :: rest) s)) id payload
            (strict (hexdigest payload = to_hex expected_hash.val) (rest.map op_of) v₁).1 ∧
          blocks_decision manifest pc (instr :: rest) s =
            (strict (hexdigest payload = to_hex expected_hash.val) (rest.map op_of) v₁).2 := by
      obtain ⟨hloop, hblocks⟩ := @after_loop_of_ok _ _ _ rest _ _ pc named hne call
      rw [hloop, hblocks]
      exact ih hprogram.tail hs₁
    have hstop (call : execute manifest pc instr op s = .error .VMError s)
        (hdecision : op = .ACCEPT_DATA ∨ op = .REJECT_DATA) :
        Holds (after (loop manifest pc (instr :: rest) s)) id payload v ∧
          blocks_decision manifest pc (instr :: rest) s = true := by
      obtain ⟨hloop, hblocks⟩ := @after_loop_of_error _ _ _ rest _ _ pc _ named call
      rw [hloop, hblocks]
      exact ⟨hs, decide_eq_true hdecision⟩
    rw [List.map_cons, hop.op_of_eq]
    cases hop with
    | noop _ => exact hgo (by decide) rfl ⟨hs.block, hs.checked, hs.accepted, hs.rejected⟩
    | halt _ =>
      have hcall : execute manifest pc instr .HALT s = .ok () (s.logged pc "HALT" []) := rfl
      rw [loop_cons named, bind_of_ok hcall, if_pos rfl, blocks_decision, named]
      dsimp only
      rw [hcall]
      exact ⟨⟨hs.block, hs.checked, hs.accepted, hs.rejected⟩, if_pos rfl⟩
    | verify_hash _ target constant =>
      obtain ⟨s₁, call, hs₁⟩ := @verify_hash_holds _ _ _ _ _ _ pc _ hs target constant
      exact hgo (by decide) call hs₁
    | accept_data _ target =>
      unfold strict
      by_cases hchecked : v.checked = some true
      · obtain ⟨s₁, call, hs₁⟩ := @accept_data_holds _ _ _ _ pc _ hs target hchecked
        rw [if_pos hchecked]
        exact hgo (by decide) call hs₁
      · rw [if_neg hchecked]
        exact hstop (accept_data_blocks hs target hchecked) (.inl rfl)
    | reject_data _ target =>
      unfold strict
      by_cases hchecked : v.checked = some false
      · obtain ⟨s₁, call, hs₁⟩ := @reject_data_holds _ _ _ _ pc _ hs target hchecked
        rw [if_pos hchecked]
        exact hgo (by decide) call hs₁
      · rw [if_neg hchecked]
        exact hstop (reject_data_blocks hs target hchecked) (.inr rfl)

/-! ## The decisions -/

theorem hex_digit_inj {n k : ℕ} (hn : n < 16) (hk : k < 16) (h : hex_digit n = hex_digit k) : n = k := by
  have hall : ∀ n < 16, ∀ k < 16, hex_digit n = hex_digit k → n = k := by decide
  exact hall n hn k hk h

theorem to_hex_injective : Function.Injective to_hex := by
  intro data data' h
  have hchars := String.ofList_injective h
  induction data generalizing data' with
  | nil =>
    cases data' with
    | nil => rfl
    | cons b' data' => cases hchars
  | cons b data ih =>
    cases data' with
    | nil => cases hchars
    | cons b' data' =>
      simp only [List.flatMap_cons, List.cons_append, List.nil_append, List.cons.injEq] at hchars
      obtain ⟨hhigh, hlow, hrest⟩ := hchars
      have hb := b.toNat_lt
      have hb' := b'.toNat_lt
      have hdiv := hex_digit_inj (by omega) (by omega) hhigh
      have hmod := hex_digit_inj (by omega) (by omega) hlow
      have hbyte : b = b' := UInt8.toNat_inj.mp (by omega)
      rw [hbyte, ih (congrArg String.ofList hrest) hrest]

theorem hexdigest_eq_to_hex : hexdigest payload = to_hex expected_hash.val ↔
    Core.sha256_standard payload = expected_hash := by
  have hdigest : hexdigest payload = to_hex (Core.sha256_standard payload).val := by
    unfold hexdigest to_hex
    rfl
  rw [hdigest, to_hex_injective.eq_iff, Subtype.ext_iff]

/-- The executor accepts a payload with the expected hash at every `ACCEPT_DATA` behind a comparison and
rejects another one at every `REJECT_DATA` behind a comparison.  These are the decisions of the machine
unless the machine blocks at a decision. -/
theorem native_decisions (hprogram : BlockProgram manifest id expected_hash program)
    (hs : Holds s id payload .open_block) (pc : ℕ) :
    let native := Core.execute_verify (program_bytes program) payload expected_hash
    let machine := after (loop manifest pc program s)
    let ops := program.map op_of
    (native.data_accepted = true ↔
      Core.sha256 payload = expected_hash ∧ .ACCEPT_DATA ∈ verified_ops ops) ∧
    (.REJECT_DATA ∉ unverified_ops ops →
      (native.data_rejected = true ↔
        Core.sha256 payload ≠ expected_hash ∧ .REJECT_DATA ∈ verified_ops ops) ∧
      ¬ (native.data_accepted = true ∧ native.data_rejected = true)) ∧
    ((Core.sha256 payload = expected_hash ↔ Core.sha256_standard payload = expected_hash) →
      (id ∈ machine.accepted_data_blocks → native.data_accepted = true) ∧
      (id ∈ machine.rejected_data_blocks → native.data_rejected = true) ∧
      (blocks_decision manifest pc program s = false →
        (native.data_accepted = true → id ∈ machine.accepted_data_blocks) ∧
        (native.data_rejected = true → id ∈ machine.rejected_data_blocks))) := by
  intro native machine ops
  obtain ⟨hnative_accepted, hnative_rejected⟩ := @execute_verify_lenient _ _ _ _ payload hprogram
  obtain ⟨haccepted, hrejected⟩ :=
    @lenient_of_unchecked (decide (Core.sha256 payload = expected_hash)) ops .open_block rfl
  rw [← hnative_accepted] at haccepted
  rw [← hnative_rejected] at hrejected
  have haccepts : native.data_accepted = true ↔
      Core.sha256 payload = expected_hash ∧ .ACCEPT_DATA ∈ verified_ops ops := by
    simpa [Verdict.open_block] using haccepted
  have hrejects (hfirst : .REJECT_DATA ∉ unverified_ops ops) : native.data_rejected = true ↔
      Core.sha256 payload ≠ expected_hash ∧ .REJECT_DATA ∈ verified_ops ops := by
    simpa [Verdict.open_block, hfirst] using hrejected
  refine ⟨haccepts, fun hfirst => ⟨hrejects hfirst, fun hboth => ?_⟩, fun hagree => ?_⟩
  · exact ((hrejects hfirst).mp hboth.2).1 (haccepts.mp hboth.1).1
  · obtain ⟨hmachine, hblocks⟩ := @loop_strict _ _ _ _ payload _ pc _ hprogram hs
    have hsame : decide (hexdigest payload = to_hex expected_hash.val) =
        decide (Core.sha256 payload = expected_hash) := by
      rw [decide_eq_decide, hexdigest_eq_to_hex, hagree]
    rw [hsame] at hmachine hblocks
    obtain ⟨hle_accepted, hle_rejected, heq⟩ :=
      @strict_le_lenient (decide (Core.sha256 payload = expected_hash)) ops .open_block
    rw [← hnative_accepted] at hle_accepted
    rw [← hnative_rejected] at hle_rejected
    refine ⟨fun h => hle_accepted (hmachine.accepted.mp h),
      fun h => hle_rejected (hmachine.rejected.mp h), fun hfree => ?_⟩
    rw [hblocks] at hfree
    have hverdict := heq hfree
    constructor
    · intro h
      rw [hmachine.accepted, hverdict, ← hnative_accepted]
      exact h
    · intro h
      rw [hmachine.rejected, hverdict, ← hnative_rejected]
      exact h

end Programs

/-- The program that the kernel runs on its payload. -/
def VERIFY_PROGRAM : List Instruction :=
  [⟨0x13, 0, 1, 1, 0⟩, ⟨0x14, 0, 1, 0, 0⟩, ⟨0x17, 0, 1, 0, 0⟩, ⟨0x01, 0, 0, 0, 0⟩]

def PAYLOAD : Bytes := ascii "BOGBIN-v18-payload"

/-- A manifest with the hash of zeros as constant 1. -/
def zero_hash_manifest : Dict :=
  [("constants", .obj [("1", .str (to_hex Digest.zero.val))])]

/-- The payload as block 1. -/
def payload_block : DataBlock := ⟨1, .null, none, 0, 0, 18, PAYLOAD, []⟩

def payload_state : VMState :=
  { VMState.initial with data_blocks := (∅ : TreeMap ℕ DataBlock).insert 1 payload_block }

theorem verify_program_on_block : BlockProgram zero_hash_manifest 1 Digest.zero VERIFY_PROGRAM where
  packs instr hmem := by
    simp only [VERIFY_PROGRAM, List.mem_cons, List.not_mem_nil, or_false] at hmem
    rcases hmem with rfl | rfl | rfl | rfl <;> exact ⟨_, rfl⟩
  on_block instr hmem := by
    simp only [VERIFY_PROGRAM, List.mem_cons, List.not_mem_nil, or_false] at hmem
    rcases hmem with rfl | rfl | rfl | rfl
    · exact ⟨_, .verify_hash rfl rfl rfl⟩
    · exact ⟨_, .accept_data rfl rfl⟩
    · exact ⟨_, .reject_data rfl rfl⟩
    · exact ⟨_, .halt rfl⟩

theorem payload_state_holds : Holds payload_state 1 PAYLOAD .open_block where
  block := ⟨payload_block, rfl, rfl⟩
  checked := rfl
  accepted := by decide
  rejected := by decide

/-- The kernel rejects the payload for the hash of zeros. -/
theorem native_decisions_verify_program :
    (Core.execute_verify (program_bytes VERIFY_PROGRAM) PAYLOAD Digest.zero).data_rejected = true := by
  have hrejected := (native_decisions verify_program_on_block payload_state_holds 0).2.1 (by decide)
  exact hrejected.1.mpr ⟨by decide +kernel, by decide⟩

/-- The machine does not: it blocks at the `ACCEPT_DATA` in front. -/
theorem verify_program_not_refined :
    BlockProgram zero_hash_manifest 1 Digest.zero VERIFY_PROGRAM ∧
      Holds payload_state 1 PAYLOAD .open_block ∧
      (Core.execute_verify (program_bytes VERIFY_PROGRAM) PAYLOAD Digest.zero).data_rejected = true ∧
      1 ∉ (after (loop zero_hash_manifest 0 VERIFY_PROGRAM payload_state)).rejected_data_blocks :=
  ⟨verify_program_on_block, payload_state_holds, by decide +kernel, by decide +kernel⟩

end Bogbin.Vm
