import Bogbin.Kernel.HandleSyscall

/-!
# Rejected system calls

A call that returns a negative result leaves the shared state of the kernel alone, with three
exceptions: `sys_emit_receipt` stores a text before it refuses it, and registering a channel and
sending a message return ids, which are negative from `2 ^ 31` on.
-/

namespace Bogbin.Kernel

open Buffer Bogbin.Core ArrayQueue KernelState

/-- The shared state of the kernel is the same. -/
structure SharedUnchanged (k k' : KernelState) : Prop where
  channels : k'.ipc.channels = k.ipc.channels
  next_channel_id : k'.ipc.next_channel_id = k.ipc.next_channel_id
  next_message_id : k'.ipc.next_message_id = k.ipc.next_message_id
  writable_bogfs_files : k'.writable_bogfs_files = k.writable_bogfs_files
  process_table : k'.process_table = k.process_table
  verified_app_count : k'.verified_app_count = k.verified_app_count
  rejected_app_count : k'.rejected_app_count = k.rejected_app_count
  last_receipt : k'.last_receipt = k.last_receipt

/-- When the call returns a negative result, the shared state is the same. -/
def SyscallOutcome.RejectsUnchanged (k : KernelState) : SyscallOutcome → Prop
  | .returned eax _ k' => eax.toInt32 < 0 → SharedUnchanged k k'
  | .left .. => True
  | .panicked => True

theorem SharedUnchanged.refl (k : KernelState) : SharedUnchanged k k := by
  constructor <;> rfl

theorem SharedUnchanged.write_memory (k : KernelState) (address : UInt32) (bytes : Bytes) :
    SharedUnchanged k (k.write_memory address bytes) := by
  constructor <;> rfl

theorem toInt32_neg_iff (x : UInt32) : x.toInt32 < 0 ↔ 2 ^ 31 ≤ x.toNat := by
  have hlt := x.toNat_lt
  rw [Int32.lt_iff_toInt_lt]
  have hint : x.toInt32.toInt = x.toBitVec.toInt := rfl
  have hnat : x.toBitVec.toNat = x.toNat := rfl
  have hzero : (0 : Int32).toInt = 0 := rfl
  rw [hint, hzero, BitVec.toInt_eq_toNat_cond, hnat]
  split_ifs with h <;> omega

theorem not_neg_ofNat {n : ℕ} (h : n < 2 ^ 31) : ¬ (UInt32.ofNat n).toInt32 < 0 := by
  rw [toInt32_neg_iff, UInt32.toNat_ofNat_of_lt' (by unfold UInt32.size; omega)]
  omega

namespace KernelState

variable {k k' : KernelState} {regs : SyscallRegisters}

theorem reject_unchanged (r : Rejection) : (k.reject regs r).RejectsUnchanged k :=
  fun _ => .refl k

theorem attempt_unchanged {α : Type} {checks : Except Rejection α} {call : α → SyscallOutcome}
    (h : ∀ a, checks = .ok a → (call a).RejectsUnchanged k) :
    (k.attempt regs checks call).RejectsUnchanged k := by
  cases hc : checks with
  | ok a => exact h a hc
  | error r => exact reject_unchanged r

theorem accept_unchanged {receipts : List Receipt} {result : UInt32} (h : SharedUnchanged k k') :
    (k'.accept regs receipts result).RejectsUnchanged k :=
  fun _ => h

theorem accept_of_not_neg {receipts : List Receipt} {result : UInt32} (h : ¬ result.toInt32 < 0) :
    (k'.accept regs receipts result).RejectsUnchanged k :=
  fun hneg => absurd hneg h

/-! ## The calls that change nothing shared -/

theorem sys_verify_unchanged : (k.sys_verify regs).RejectsUnchanged k := by
  unfold sys_verify
  split_ifs <;> exact fun _ => .refl k

theorem sys_accept_unchanged (overflow_checks : Bool) :
    (k.sys_accept overflow_checks).RejectsUnchanged k := by
  unfold sys_accept
  cases increment overflow_checks k.verified_app_count with
  | none => trivial
  | some n => exact fun hneg => absurd hneg (by decide)

theorem sys_reject_unchanged (overflow_checks : Bool) :
    (k.sys_reject overflow_checks).RejectsUnchanged k := by
  unfold sys_reject
  cases increment overflow_checks k.rejected_app_count with
  | none => trivial
  | some n => exact fun hneg => absurd hneg (by decide)

theorem sys_read_file_unchanged : (k.sys_read_file regs).RejectsUnchanged k := by
  unfold sys_read_file
  split_ifs
  · exact fun _ => .refl k
  dsimp only
  split
  · exact fun _ => .write_memory ..
  · exact fun _ => .refl k

theorem sys_yield_unchanged : (k.sys_yield regs).RejectsUnchanged k := by
  unfold sys_yield
  dsimp only
  split_ifs
  · exact reject_unchanged _
  · split <;> trivial

theorem sys_write_console_unchanged : (k.sys_write_console regs).RejectsUnchanged k :=
  attempt_unchanged fun _ _ => accept_unchanged (.refl k)

theorem sys_getpid_unchanged : (k.sys_getpid regs).RejectsUnchanged k := by
  unfold sys_getpid
  split_ifs
  · exact reject_unchanged _
  · exact accept_unchanged (.refl k)

theorem sys_process_info_unchanged : (k.sys_process_info regs).RejectsUnchanged k := by
  refine attempt_unchanged fun pid _ => ?_
  dsimp only
  split
  · trivial
  · exact accept_unchanged (.write_memory ..)

theorem sys_verify_hash_unchanged : (k.sys_verify_hash regs).RejectsUnchanged k := by
  refine attempt_unchanged fun pid _ => ?_
  dsimp only
  split_ifs
  · exact accept_unchanged (.refl k)
  · exact reject_unchanged _

theorem sys_claim_unchanged : (k.sys_claim regs).RejectsUnchanged k :=
  attempt_unchanged fun _ _ => accept_unchanged (.refl k)

theorem ipc_poll_unchanged : (k.ipc_poll regs).RejectsUnchanged k :=
  attempt_unchanged fun _ _ => accept_unchanged (.refl k)

theorem sys_bogfs_read_unchanged : (k.sys_bogfs_read regs).RejectsUnchanged k := by
  refine attempt_unchanged fun a _ => ?_
  dsimp only
  split
  · trivial
  · exact attempt_unchanged fun _ _ => accept_unchanged (.write_memory ..)

theorem sys_bogfs_stat_unchanged : (k.sys_bogfs_stat regs).RejectsUnchanged k := by
  refine attempt_unchanged fun a _ => ?_
  dsimp only
  split
  · trivial
  · exact attempt_unchanged fun _ _ => accept_unchanged (.write_memory ..)

/-! ## The calls that change something and return a length -/

theorem ipc_recv_unchanged : (k.ipc_recv regs).RejectsUnchanged k := by
  refine attempt_unchanged fun a _ => ?_
  dsimp only
  split_ifs with h
  · refine accept_of_not_neg (not_neg_ofNat ?_)
    have hmax : IPC_MAX_MESSAGE_SIZE = 64 := rfl
    omega
  · trivial

/-- What the checks of a write say about its length. -/
theorem length_of_write_checks {a : ProcessId × Fin WRITABLE_BOGFS_MAX_FILES}
    (h : k.bogfs_write_checks regs = .ok a) : regs.esi.toNat ≤ WRITABLE_BOGFS_MAX_FILE_SIZE := by
  simp only [bogfs_write_checks, bind_eq_ok, reject_if_eq_ok] at h
  obtain ⟨_, -, _, hlength, -⟩ := h
  omega

theorem sys_bogfs_write_unchanged (overflow_checks : Bool) :
    (k.sys_bogfs_write overflow_checks regs).RejectsUnchanged k := by
  refine attempt_unchanged fun a ha => ?_
  have hmax : WRITABLE_BOGFS_MAX_FILE_SIZE = 64 := rfl
  have hlength := length_of_write_checks ha
  dsimp only
  split
  · trivial
  · split_ifs
    · exact reject_unchanged _
    · refine accept_of_not_neg ?_
      rw [toInt32_neg_iff]
      omega

/-! ## The three exceptions -/

/-- `sys_emit_receipt` stores a text that it then refuses, and the text is a new one. -/
def StoresRefusedText (k : KernelState) (regs : SyscallRegisters) : Prop :=
  let text := k.read_memory regs.ebx regs.ecx.toNat
  regs.ebx ≠ 0 ∧ regs.ecx.toNat ≤ 1024 ∧ contains_forbidden_sentinel text = true ∧
    ¬ (k.last_receipt.len = regs.ecx.toNat ∧
      k.last_receipt.buf.val.take regs.ecx.toNat = text)

/-- A channel is registered whose id is negative. -/
def RegistersNegativeId (k : KernelState) (regs : SyscallRegisters) : Prop :=
  (k.ipc_register_checks regs).isOk = true ∧ 2 ^ 31 ≤ k.ipc.next_channel_id.toNat

/-- A message is sent whose id is negative. -/
def SendsNegativeId (k : KernelState) (regs : SyscallRegisters) : Prop :=
  ∃ pid index, k.ipc_send_checks regs = .ok (pid, index) ∧
    regs.edx.toNat ≤ IPC_MAX_MESSAGE_SIZE ∧
    (k.ipc.channels index).queue_depth < IPC_MAX_QUEUE_DEPTH ∧
    2 ^ 31 ≤ k.ipc.next_message_id.toNat

theorem add_one_ne (x : UInt32) : x + 1 ≠ x := by
  intro h
  simp at h

theorem copy_to_front_eq_iff {buf : {b : Bytes // b.length = 1024}} {bytes : Bytes}
    (h : bytes.length ≤ 1024) : copy_to_front buf bytes = buf ↔ buf.val.take bytes.length = bytes := by
  have hbuf := buf.2
  rw [copy_to_front, dif_pos (by omega), Subtype.ext_iff]
  dsimp only
  constructor
  · intro heq
    rw [← heq]
    simp [patch]
  · intro htake
    conv_rhs => rw [← List.take_append_drop bytes.length buf.val]
    rw [htake]
    simp [patch]

theorem sys_emit_receipt_unchanged_iff :
    (k.sys_emit_receipt regs).RejectsUnchanged k ↔ ¬ k.StoresRefusedText regs := by
  have hread : (k.read_memory regs.ebx regs.ecx.toNat).length = regs.ecx.toNat := by
    simp [read_memory]
  unfold sys_emit_receipt StoresRefusedText
  dsimp only
  by_cases hargs : regs.ebx = 0 ∨ 1024 < regs.ecx.toNat
  · rw [if_pos hargs]
    refine iff_of_true (fun _ => .refl k) fun h => ?_
    exact hargs.elim h.1 fun hlen => absurd h.2.1 (by omega)
  rw [if_neg hargs]
  obtain ⟨hptr, hlen⟩ := not_or.mp hargs
  cases hs : contains_forbidden_sentinel (k.read_memory regs.ebx regs.ecx.toNat) with
  | false =>
    rw [if_neg Bool.false_ne_true]
    exact iff_of_true (fun hneg => absurd hneg (by decide)) fun h => Bool.false_ne_true h.2.2.1
  | true =>
    rw [if_pos rfl]
    -- the refusal has stored the text
    have hcopy := @copy_to_front_eq_iff k.last_receipt.buf
      (k.read_memory regs.ebx regs.ecx.toNat) (by omega)
    rw [hread] at hcopy
    constructor
    · intro h hstores
      have hsame := (h (by decide)).last_receipt
      refine hstores.2.2.2 ⟨?_, hcopy.mp (congrArg LastReceipt.buf hsame)⟩
      have hsamelen := congrArg LastReceipt.len hsame
      dsimp only at hsamelen
      omega
    · intro hstores _
      by_cases hsame : k.last_receipt.len = regs.ecx.toNat ∧
          k.last_receipt.buf.val.take regs.ecx.toNat = k.read_memory regs.ebx regs.ecx.toNat
      · have hmin : min regs.ecx.toNat 1024 = k.last_receipt.len := by omega
        rw [hcopy.mpr hsame.2, hmin]
        exact .refl k
      · exact absurd ⟨hptr, by omega, rfl, hsame⟩ hstores

theorem ipc_register_unchanged_iff :
    (k.ipc_register regs).RejectsUnchanged k ↔ ¬ k.RegistersNegativeId regs := by
  unfold ipc_register RegistersNegativeId
  cases hc : k.ipc_register_checks regs with
  | error r => simpa [attempt, Except.isOk, Except.toBool] using reject_unchanged r
  | ok a =>
    simp only [attempt, Except.isOk, Except.toBool, true_and, ← toInt32_neg_iff]
    constructor
    · intro h hneg
      exact add_one_ne _ (h hneg).next_channel_id
    · intro h hneg
      exact absurd hneg h

theorem ipc_send_unchanged_iff :
    (k.ipc_send regs).RejectsUnchanged k ↔ ¬ k.SendsNegativeId regs := by
  unfold ipc_send SendsNegativeId
  cases hc : k.ipc_send_checks regs with
  | error r => simpa [attempt] using reject_unchanged r
  | ok a =>
    obtain ⟨pid, index⟩ := a
    simp only [attempt, ← toInt32_neg_iff]
    by_cases hroom : regs.edx.toNat ≤ IPC_MAX_MESSAGE_SIZE ∧
        (k.ipc.channels index).queue_depth < IPC_MAX_QUEUE_DEPTH
    · rw [dif_pos hroom]
      constructor
      · rintro h ⟨_, _, -, -, -, hneg⟩
        exact add_one_ne _ (h hneg).next_message_id
      · intro h hneg
        exact absurd ⟨pid, index, rfl, hroom.1, hroom.2, hneg⟩ h
    · rw [dif_neg hroom]
      refine iff_of_true trivial ?_
      rintro ⟨_, _, heq, hlength, hdepth, -⟩
      obtain ⟨rfl, rfl⟩ := Prod.mk.inj (Except.ok.inj heq)
      exact hroom ⟨hlength, hdepth⟩

end KernelState

/-- The calls that change the shared state and return a negative result. -/
def Clobbers (k : KernelState) (regs : SyscallRegisters) : Prop :=
  (regs.eax = 5 ∧ k.dynamic_loader_admitted = false ∧ k.StoresRefusedText regs) ∨
    (regs.eax = SYSCALL_V2_IPC_REGISTER_CHANNEL ∧ k.RegistersNegativeId regs) ∨
    (regs.eax = SYSCALL_V2_IPC_SEND ∧ k.SendsNegativeId regs)

theorem ite_unchanged {c : Prop} [Decidable c] {k : KernelState} {o o' : SyscallOutcome}
    (h : c → o.RejectsUnchanged k) (h' : o'.RejectsUnchanged k) :
    (if c then o else o').RejectsUnchanged k := by
  by_cases hc : c
  · rw [if_pos hc]
    exact h hc
  · rwa [if_neg hc]

theorem other_syscall_unchanged {overflow_checks : Bool} {k : KernelState} {regs : SyscallRegisters}
    (hemit : regs.eax ≠ 5) (hregister : regs.eax ≠ SYSCALL_V2_IPC_REGISTER_CHANNEL)
    (hsend : regs.eax ≠ SYSCALL_V2_IPC_SEND) :
    (handle_syscall overflow_checks k regs).RejectsUnchanged k := by
  unfold handle_syscall
  refine ite_unchanged (fun _ => reject_unchanged _) ?_
  refine ite_unchanged (fun _ => sys_verify_unchanged) ?_
  refine ite_unchanged (fun _ => sys_accept_unchanged _) ?_
  refine ite_unchanged (fun _ => sys_reject_unchanged _) ?_
  refine ite_unchanged (fun _ => sys_read_file_unchanged) ?_
  refine ite_unchanged (fun h => absurd h hemit) ?_
  refine ite_unchanged (fun _ => trivial) ?_
  refine ite_unchanged (fun _ => sys_yield_unchanged) ?_
  refine ite_unchanged (fun _ => sys_write_console_unchanged) ?_
  refine ite_unchanged (fun _ => sys_getpid_unchanged) ?_
  refine ite_unchanged (fun _ => sys_process_info_unchanged) ?_
  refine ite_unchanged (fun _ => sys_verify_hash_unchanged) ?_
  refine ite_unchanged (fun _ => sys_claim_unchanged) ?_
  refine ite_unchanged (fun h => absurd h hregister) ?_
  refine ite_unchanged (fun h => absurd h hsend) ?_
  refine ite_unchanged (fun _ => ipc_recv_unchanged) ?_
  refine ite_unchanged (fun _ => ipc_poll_unchanged) ?_
  refine ite_unchanged (fun _ => sys_bogfs_write_unchanged _) ?_
  refine ite_unchanged (fun _ => sys_bogfs_read_unchanged) ?_
  refine ite_unchanged (fun _ => sys_bogfs_stat_unchanged) ?_
  exact reject_unchanged _

theorem emit_receipt_unchanged_iff {overflow_checks : Bool} {k : KernelState}
    {regs : SyscallRegisters} (hemit : regs.eax = 5) :
    (handle_syscall overflow_checks k regs).RejectsUnchanged k ↔
      ¬ (k.dynamic_loader_admitted = false ∧ k.StoresRefusedText regs) := by
  rw [handle_emit_receipt hemit]
  cases k.dynamic_loader_admitted with
  | true => simpa using reject_unchanged _
  | false => simpa using sys_emit_receipt_unchanged_iff

/-- A call that returns a negative result leaves the shared state as it was exactly when it is none
of the three exceptions. -/
theorem rejected_syscall_unchanged_iff (overflow_checks : Bool) (k : KernelState)
    (regs : SyscallRegisters) :
    (handle_syscall overflow_checks k regs).RejectsUnchanged k ↔ ¬ Clobbers k regs := by
  have hregister_num : SYSCALL_V2_IPC_REGISTER_CHANNEL = 13 := rfl
  have hsend_num : SYSCALL_V2_IPC_SEND = 14 := rfl
  unfold Clobbers
  by_cases hemit : regs.eax = 5
  · rw [emit_receipt_unchanged_iff hemit]
    simp [hemit, hregister_num, hsend_num]
  by_cases hregister : regs.eax = SYSCALL_V2_IPC_REGISTER_CHANNEL
  · rw [handle_ipc_register hregister, ipc_register_unchanged_iff]
    simp [hregister, hregister_num, hsend_num]
  by_cases hsend : regs.eax = SYSCALL_V2_IPC_SEND
  · rw [handle_ipc_send hsend, ipc_send_unchanged_iff]
    simp [hsend, hregister_num, hsend_num]
  · exact iff_of_true (other_syscall_unchanged hemit hregister hsend) (by tauto)

/-! ## A refused text -/

/-- A kernel without processes whose memory starts with a forbidden text. -/
def forging_kernel : KernelState where
  active_scheduled_pid := 0
  active_cr3 := 0
  active_block_reason := "none"
  process_table := .new
  paging := .initial
  memory := fun a => (ascii "-BOGOS_PANIC_END").getD a.toNat 0
  bogfs_entries := none
  verified_app_count := 1
  rejected_app_count := 1
  last_receipt := ⟨false, ⟨zeros 1024, length_zero_buffer⟩, 0⟩
  ipc := .initial
  writable_bogfs_files := .initial

/-- `sys_emit_receipt` of the 15 bytes at address 1. -/
def forging_registers : SyscallRegisters where
  edi := 0
  esi := 0
  ebp := 0
  esp := 0
  ebx := 1
  edx := 0
  ecx := 15
  eax := 5
  eip := 0
  cs := 0
  eflags := 0
  user_esp := 0
  user_ss := 0

/-- The refused text is in the buffer of the last receipt. -/
theorem refused_text_stored : ¬ ∀ (overflow_checks : Bool) (k : KernelState)
    (regs : SyscallRegisters), (handle_syscall overflow_checks k regs).RejectsUnchanged k := by
  intro hclaim
  have hunchanged := hclaim true forging_kernel forging_registers
  have htext : forging_kernel.read_memory 1 15 = ascii "BOGOS_PANIC_END" := by decide
  refine (emit_receipt_unchanged_iff rfl).mp hunchanged ⟨rfl, by decide, by decide, ?_, ?_⟩
  · change contains_forbidden_sentinel (forging_kernel.read_memory 1 15) = true
    rw [htext]
    decide
  · rintro ⟨hlen, -⟩
    exact absurd hlen (by decide)

end Bogbin.Kernel
