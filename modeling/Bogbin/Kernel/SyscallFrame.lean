import Bogbin.Kernel.HandleSyscall

/-!
# What a system call leaves alone

The state after a call, and the calls that leave the channels or the writable files as they are.
-/

namespace Bogbin.Kernel

open Buffer Bogbin.Core KernelState

/-- The state after a call; a panic has none. -/
def SyscallOutcome.next : SyscallOutcome → Option KernelState
  | .returned _ _ k => some k
  | .left _ _ k => some k
  | .panicked => none

/-- A part of the state is the same after the call. -/
def SyscallOutcome.Keeps {α : Type} (part : KernelState → α) (k : KernelState) (o : SyscallOutcome) : Prop :=
  ∀ k', o.next = some k' → part k' = part k

/-- The channels and the writable files. -/
def KernelState.stores (k : KernelState) : Ipc × WritableBogfs := (k.ipc, k.writable_bogfs_files)

namespace KernelState

variable {k k' : KernelState} {regs : SyscallRegisters} {α : Type} {part : KernelState → α}

theorem keeps_of_eq {eax : UInt32} {receipts : List Receipt} (h : part k' = part k) :
    (SyscallOutcome.returned eax receipts k').Keeps part k :=
  fun _ hnext => Option.some.inj hnext ▸ h

theorem left_keeps {code : UInt32} {receipts : List Receipt} (h : part k' = part k) :
    (SyscallOutcome.left code receipts k').Keeps part k :=
  fun _ hnext => Option.some.inj hnext ▸ h

theorem panicked_keeps : SyscallOutcome.panicked.Keeps part k := fun _ h => nomatch h

theorem reject_keeps (r : Rejection) : (k.reject regs r).Keeps part k := keeps_of_eq rfl

theorem accept_keeps {receipts : List Receipt} {result : UInt32} (h : part k' = part k) :
    (k'.accept regs receipts result).Keeps part k := keeps_of_eq h

theorem attempt_keeps {β : Type} {checks : Except Rejection β} {call : β → SyscallOutcome}
    (h : ∀ a, checks = .ok a → (call a).Keeps part k) :
    (k.attempt regs checks call).Keeps part k := by
  cases hc : checks with
  | ok a => exact h a hc
  | error r => exact reject_keeps r

theorem ite_keeps {c : Prop} [Decidable c] {o o' : SyscallOutcome} (h : c → o.Keeps part k)
    (h' : ¬ c → o'.Keeps part k) : (if c then o else o').Keeps part k := by
  by_cases hc : c
  · rw [if_pos hc]
    exact h hc
  · rw [if_neg hc]
    exact h' hc

theorem sys_verify_keeps : (k.sys_verify regs).Keeps part k :=
  ite_keeps (fun _ => keeps_of_eq rfl) fun _ => keeps_of_eq rfl

theorem sys_accept_keeps (overflow_checks : Bool) : (k.sys_accept overflow_checks).Keeps stores k := by
  unfold sys_accept
  cases increment overflow_checks k.verified_app_count with
  | none => exact panicked_keeps
  | some n => exact keeps_of_eq rfl

theorem sys_reject_keeps (overflow_checks : Bool) : (k.sys_reject overflow_checks).Keeps stores k := by
  unfold sys_reject
  cases increment overflow_checks k.rejected_app_count with
  | none => exact panicked_keeps
  | some n => exact keeps_of_eq rfl

theorem sys_read_file_keeps : (k.sys_read_file regs).Keeps stores k := by
  refine ite_keeps (fun _ => keeps_of_eq rfl) fun _ => ?_
  dsimp only
  split
  · exact keeps_of_eq rfl
  · exact keeps_of_eq rfl

theorem sys_emit_receipt_keeps : (k.sys_emit_receipt regs).Keeps stores k := by
  refine ite_keeps (fun _ => keeps_of_eq rfl) fun _ => ?_
  exact ite_keeps (fun _ => keeps_of_eq rfl) fun _ => keeps_of_eq rfl

theorem sys_yield_keeps : (k.sys_yield regs).Keeps stores k := by
  refine ite_keeps (fun _ => reject_keeps _) fun _ => ?_
  split
  · exact panicked_keeps
  · exact left_keeps rfl

theorem sys_process_info_keeps : (k.sys_process_info regs).Keeps stores k := by
  refine attempt_keeps fun pid _ => ?_
  dsimp only
  split
  · exact panicked_keeps
  · exact accept_keeps rfl

theorem sys_bogfs_read_keeps : (k.sys_bogfs_read regs).Keeps stores k := by
  refine attempt_keeps fun a _ => ?_
  dsimp only
  split
  · exact panicked_keeps
  · exact attempt_keeps fun _ _ => accept_keeps rfl

theorem sys_bogfs_stat_keeps : (k.sys_bogfs_stat regs).Keeps stores k := by
  refine attempt_keeps fun a _ => ?_
  dsimp only
  split
  · exact panicked_keeps
  · exact attempt_keeps fun _ _ => accept_keeps rfl

/-! ## The calls that change the channels or the files -/

theorem sys_bogfs_write_keeps_ipc (overflow_checks : Bool) :
    (k.sys_bogfs_write overflow_checks regs).Keeps (·.ipc) k := by
  refine attempt_keeps fun a _ => ?_
  dsimp only
  split
  · exact panicked_keeps
  · exact ite_keeps (fun _ => reject_keeps _) fun _ => accept_keeps rfl

theorem ipc_register_keeps_files : (k.ipc_register regs).Keeps (·.writable_bogfs_files) k :=
  attempt_keeps fun _ _ => accept_keeps rfl

theorem ipc_send_keeps_files : (k.ipc_send regs).Keeps (·.writable_bogfs_files) k := by
  refine attempt_keeps fun a _ => ?_
  dsimp only
  split_ifs
  · exact accept_keeps rfl
  · exact panicked_keeps

theorem ipc_recv_keeps_files : (k.ipc_recv regs).Keeps (·.writable_bogfs_files) k :=
  attempt_keeps fun _ _ => ite_keeps (fun _ => accept_keeps rfl) fun _ => panicked_keeps

end KernelState

theorem SyscallOutcome.Keeps.of_stores {β : Type} {part : Ipc × WritableBogfs → β} {k : KernelState}
    {o : SyscallOutcome} (h : o.Keeps KernelState.stores k) : o.Keeps (fun k => part k.stores) k :=
  fun k' hnext => congrArg part (h k' hnext)

/-- A part of the channels and files is the same after every call, when it is after the four calls
that change them. -/
theorem handle_keeps {β : Type} {part : Ipc × WritableBogfs → β} {overflow_checks : Bool}
    {k : KernelState} {regs : SyscallRegisters}
    (hregister : regs.eax = SYSCALL_V2_IPC_REGISTER_CHANNEL →
      (k.ipc_register regs).Keeps (fun k => part k.stores) k)
    (hsend : regs.eax = SYSCALL_V2_IPC_SEND → (k.ipc_send regs).Keeps (fun k => part k.stores) k)
    (hrecv : regs.eax = SYSCALL_V2_IPC_RECV → (k.ipc_recv regs).Keeps (fun k => part k.stores) k)
    (hwrite : regs.eax = SYSCALL_V2_BOGFS_WRITE →
      (k.sys_bogfs_write overflow_checks regs).Keeps (fun k => part k.stores) k) :
    (handle_syscall overflow_checks k regs).Keeps (fun k => part k.stores) k := by
  unfold handle_syscall
  refine ite_keeps (fun _ => reject_keeps _) fun _ => ?_
  refine ite_keeps (fun _ => sys_verify_keeps) fun _ => ?_
  refine ite_keeps (fun _ => (sys_accept_keeps _).of_stores) fun _ => ?_
  refine ite_keeps (fun _ => (sys_reject_keeps _).of_stores) fun _ => ?_
  refine ite_keeps (fun _ => sys_read_file_keeps.of_stores) fun _ => ?_
  refine ite_keeps (fun _ => sys_emit_receipt_keeps.of_stores) fun _ => ?_
  refine ite_keeps (fun _ => left_keeps rfl) fun _ => ?_
  refine ite_keeps (fun _ => sys_yield_keeps.of_stores) fun _ => ?_
  refine ite_keeps (fun _ => attempt_keeps fun _ _ => accept_keeps rfl) fun _ => ?_
  refine ite_keeps (fun _ => ite_keeps (fun _ => reject_keeps _) fun _ => accept_keeps rfl)
    fun _ => ?_
  refine ite_keeps (fun _ => sys_process_info_keeps.of_stores) fun _ => ?_
  refine ite_keeps (fun _ => attempt_keeps fun _ _ =>
    ite_keeps (fun _ => accept_keeps rfl) fun _ => reject_keeps _) fun _ => ?_
  refine ite_keeps (fun _ => attempt_keeps fun _ _ => accept_keeps rfl) fun _ => ?_
  refine ite_keeps hregister fun _ => ?_
  refine ite_keeps hsend fun _ => ?_
  refine ite_keeps hrecv fun _ => ?_
  refine ite_keeps (fun _ => attempt_keeps fun _ _ => accept_keeps rfl) fun _ => ?_
  refine ite_keeps hwrite fun _ => ?_
  refine ite_keeps (fun _ => sys_bogfs_read_keeps.of_stores) fun _ => ?_
  refine ite_keeps (fun _ => sys_bogfs_stat_keeps.of_stores) fun _ => ?_
  exact reject_keeps _

/-! ## Accepted calls -/

/-- The syscall receipt, the last one of a call, says that the call was accepted. -/
def SyscallOutcome.accepted : SyscallOutcome → Bool
  | .returned _ receipts _ =>
    match receipts.getLast? with
    | some (.syscall _ _ _ _ _ status _) => status = "accepted"
    | _ => false
  | .left .. => false
  | .panicked => false

theorem KernelState.reject_accepted (k : KernelState) (regs : SyscallRegisters) (r : Rejection) :
    (k.reject regs r).accepted = false := by
  simp only [KernelState.reject, SyscallOutcome.accepted, List.getLast?_concat]
  rfl

theorem KernelState.accept_accepted (k : KernelState) (regs : SyscallRegisters)
    (receipts : List Receipt) (result : UInt32) :
    (k.accept regs receipts result).accepted = true := by
  simp only [KernelState.accept, SyscallOutcome.accepted, List.getLast?_concat]
  rfl

end Bogbin.Kernel
