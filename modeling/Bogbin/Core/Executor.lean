import Bogbin.Core.Sha256

/-!
# The native executor

`MinimalExecutor::execute_verify` runs a program of eight-byte instructions on one payload.  A decision
that the last comparison of the hash does not allow is skipped.
-/

namespace Bogbin.Core

open Buffer

def INSTRUCTION_WIDTH : ℕ := 8

inductive Opcode
  | Noop
  | Halt
  | CreateNode
  | CreateEdge
  | CreateClaim
  | Activate
  | Propagate
  | Decay
  | Interfere
  | ComputeTension
  | Verify
  | Accept
  | Reject
  | Quarantine
  | LogReceipt
  | EmitReceipt
  | DeclareBasis
  | LoadCoefficients
  | Synthesize
  | VerifyHash
  | AcceptData
  | StoreResidual
  | ApplyResidual
  | RejectData
  deriving DecidableEq

/-- `Opcode::from`; an unknown code is a `Noop`. -/
def Opcode.of_u8 (value : UInt8) : Opcode :=
  match value.toNat with
  | 0x00 => .Noop
  | 0x01 => .Halt
  | 0x02 => .CreateNode
  | 0x03 => .CreateEdge
  | 0x04 => .CreateClaim
  | 0x05 => .Activate
  | 0x06 => .Propagate
  | 0x07 => .Decay
  | 0x08 => .Interfere
  | 0x09 => .ComputeTension
  | 0x0A => .Verify
  | 0x0B => .Accept
  | 0x0C => .Reject
  | 0x0D => .Quarantine
  | 0x0E => .LogReceipt
  | 0x0F => .EmitReceipt
  | 0x10 => .DeclareBasis
  | 0x11 => .LoadCoefficients
  | 0x12 => .Synthesize
  | 0x13 => .VerifyHash
  | 0x14 => .AcceptData
  | 0x15 => .StoreResidual
  | 0x16 => .ApplyResidual
  | 0x17 => .RejectData
  | _ => .Noop

structure Instruction where
  opcode : Opcode
  opcode_raw : UInt8
  flags : UInt8
  target : ℕ
  source : ℕ
  param : ℕ

/-- `Instruction::decode` -/
def Instruction.decode (data : Bytes) : Option Instruction :=
  if data.length < INSTRUCTION_WIDTH then none
  else some {
    opcode := Opcode.of_u8 (data.getD 0 0)
    opcode_raw := data.getD 0 0
    flags := data.getD 1 0
    target := beValue (slice data 2 2)
    source := beValue (slice data 4 2)
    param := beValue (slice data 6 2) }

/-- The variables of the loop. -/
structure Verifying where
  pc : ℕ
  instruction_count : ℕ
  halted : Bool
  unsupported_opcode_seen : Bool
  hash_match : Bool
  data_accepted : Bool
  data_rejected : Bool
  actual_hash : Digest

structure VerificationResult where
  instruction_count : ℕ
  pc_final : ℕ
  halted : Bool
  unsupported_opcode_seen : Bool
  execution_status : String
  expected_hash : Digest
  actual_hash : Digest
  hash_match : Bool
  data_accepted : Bool
  data_rejected : Bool

section Verify

variable (program payload : Bytes) (expected_hash : Digest)

/-- The loop, for at most so many instructions. -/
def verify_loop : ℕ → Verifying → Verifying
  | 0, v => v
  | turns + 1, v =>
    if program.length < v.pc + INSTRUCTION_WIDTH then v
    else
      match Instruction.decode (slice program v.pc INSTRUCTION_WIDTH) with
      | none => v
      | some instr =>
        let v := { v with
          instruction_count := v.instruction_count + 1
          pc := v.pc + INSTRUCTION_WIDTH }
        match instr.opcode with
        | .Noop =>
          if instr.opcode_raw ≠ 0x00 then { v with unsupported_opcode_seen := true }
          else verify_loop turns v
        | .Halt => { v with halted := true }
        | .VerifyHash =>
          verify_loop turns { v with
            actual_hash := sha256 payload
            hash_match := sha256 payload = expected_hash }
        | .AcceptData => verify_loop turns (if v.hash_match then { v with data_accepted := true } else v)
        | .RejectData => verify_loop turns (if !v.hash_match then { v with data_rejected := true } else v)
        | _ => { v with unsupported_opcode_seen := true }

/-- `MinimalExecutor::execute_verify`; every turn takes eight bytes of the program. -/
def execute_verify : VerificationResult :=
  let v := verify_loop program payload expected_hash (program.length / INSTRUCTION_WIDTH)
    ⟨0, 0, false, false, false, false, false, Digest.zero⟩
  { instruction_count := v.instruction_count
    pc_final := v.pc
    halted := v.halted
    unsupported_opcode_seen := v.unsupported_opcode_seen
    execution_status := if v.halted && !v.unsupported_opcode_seen then "completed" else "failed"
    expected_hash := expected_hash
    actual_hash := v.actual_hash
    hash_match := v.hash_match
    data_accepted := v.data_accepted
    data_rejected := v.data_rejected }

end Verify

/-- More turns than the program has instructions change nothing. -/
theorem verify_loop_of_le {program payload : Bytes} {expected_hash : Digest} {turns : ℕ} {v : Verifying}
    (h : program.length < v.pc + INSTRUCTION_WIDTH * (turns + 1)) :
    verify_loop program payload expected_hash (turns + 1) v =
      verify_loop program payload expected_hash turns v := by
  induction turns generalizing v with
  | zero =>
    unfold verify_loop
    exact if_pos (by omega)
  | succ turns ih =>
    unfold verify_loop
    split_ifs with hend
    · rfl
    · rw [Nat.mul_succ] at h
      have hrest {w : Verifying} (hpc : w.pc = v.pc + INSTRUCTION_WIDTH) :
          verify_loop program payload expected_hash (turns + 1) w =
            verify_loop program payload expected_hash turns w := ih (by omega)
      cases Instruction.decode (slice program v.pc INSTRUCTION_WIDTH) with
      | none => rfl
      | some instr =>
        dsimp only
        cases instr.opcode <;> dsimp only
        · split_ifs
          · rfl
          · exact hrest rfl
        · exact hrest rfl
        · exact hrest (by split_ifs <;> rfl)
        · exact hrest (by split_ifs <;> rfl)

end Bogbin.Core
