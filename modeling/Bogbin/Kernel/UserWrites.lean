import Bogbin.Kernel.SyscallFrame

/-!
# Where a system call writes

A call of the second version writes through a pointer of its caller only where the page tables let the
caller itself write, and apart from `exit` and `yield` no call touches the processes, the page tables or
what is active (`handle_syscall_confined`).  The legacy `sys_read_file` is the one call that writes to an
address it has not checked.
-/

namespace Bogbin.Kernel

open Buffer Bogbin.Core KernelState

namespace KernelState

variable (k : KernelState)

/-- What the scheduler and the page tables know of the processes. -/
def processes : ProcessTable × Paging × ProcessId × ℕ × Option (List BogFsEntry) × String :=
  (k.process_table, k.paging, k.active_scheduled_pid, k.active_cr3, k.bogfs_entries,
    k.active_block_reason)

/-- The active process is isolated under the page directory that is loaded. -/
def ActiveIsolated : Prop :=
  k.active_scheduled_pid ≠ 0 ∧ k.active_scheduled_pid - 1 < MAX_PROCESSES ∧
    ∃ record, k.process_table.get k.active_scheduled_pid = some record ∧
      record.address_space.cr3 ≠ 0 ∧ record.address_space.cr3 = k.active_cr3 ∧
      record.address_space.process_isolation_enforced = true

/-- The page tables let the active process write at an address. -/
def UserWritable (a : UInt32) : Prop :=
  k.ActiveIsolated ∧
    let entry := k.user_table_entry (k.active_scheduled_pid - 1) (a.toNat / PAGE_SIZE)
    has_flag entry PAGE_PRESENT = true ∧ has_flag entry PAGE_USER = true ∧
      has_flag entry PAGE_WRITABLE = true

/-- A legacy `sys_read_file` of a process that no dynamic loader has admitted. -/
def ReadsFileUnchecked (regs : SyscallRegisters) : Prop :=
  regs.eax = 4 ∧ k.dynamic_loader_admitted = false

end KernelState

/-- A call that returns, leaves the processes alone and writes only at addresses with a property. -/
def SyscallOutcome.Confined (k : KernelState) (allowed : UInt32 → Prop) : SyscallOutcome → Prop
  | .returned _ _ k' => k'.processes = k.processes ∧ ∀ a, k'.memory a ≠ k.memory a → allowed a
  | .left .. => False
  | .panicked => True

namespace KernelState

variable {k k' : KernelState} {regs : SyscallRegisters} {allowed : UInt32 → Prop}

/-! ## Checked ranges -/

theorem write_memory_ne {address a : UInt32} {bytes : Bytes}
    (h : (k.write_memory address bytes).memory a ≠ k.memory a) : (a - address).toNat < bytes.length := by
  by_contra hle
  refine h ?_
  unfold write_memory
  exact List.getD_eq_default _ _ (Nat.not_lt.mp hle)

/-- A byte of a range that was checked for writing is one that the caller may write. -/
theorem writable_of_validate {address a : UInt32} {length : ℕ} {pid : ProcessId}
    (h : k.validate_active_user_range address length true = .ok pid) (ha : (a - address).toNat < length) :
    k.UserWritable a := by
  unfold validate_active_user_range at h
  simp only [bind_eq_ok, reject_if_eq_ok] at h
  obtain ⟨-, hpid, -, -, -, hlast, -, hslot, record, hrecord, -, hspace, u, hpages, -⟩ := h
  have hsome : k.process_table.get k.active_scheduled_pid = some record := by
    cases hget : k.process_table.get k.active_scheduled_pid with
    | none => simp [hget, ok_or] at hrecord
    | some r => simpa [hget, ok_or] using hrecord
  simp only [not_or, Bool.not_eq_true', Bool.not_eq_false] at hspace
  obtain ⟨hcr3, hactive, hisolated⟩ := hspace
  -- the range does not wrap around
  have hat : a.toNat = address.toNat + (a - address).toNat := by
    have haddr := address.toNat_lt
    have ha' := a.toNat_lt
    rw [UInt32.toNat_sub] at ha ⊢
    omega
  have hpage : a.toNat / PAGE_SIZE ∈ List.range' (address.toNat / PAGE_SIZE)
      ((address.toNat + (length - 1)) / PAGE_SIZE + 1 - address.toNat / PAGE_SIZE) := by
    rw [List.mem_range'_1]
    have hle := Nat.div_le_div_right (c := PAGE_SIZE)
      (show address.toNat ≤ a.toNat by omega)
    have hle' := Nat.div_le_div_right (c := PAGE_SIZE)
      (show a.toNat ≤ address.toNat + (length - 1) by omega)
    omega
  have hentry := (forM_eq_ok _ _).mp hpages _ hpage
  simp only [bind_eq_ok, reject_if_eq_ok, Bool.true_and, Bool.or_eq_true, Bool.not_eq_true', not_or,
    Bool.not_eq_false] at hentry
  obtain ⟨-, ⟨hpresent, huser⟩, hwritable⟩ := hentry
  exact ⟨⟨hpid, Nat.not_le.mp hslot, record, hsome, hcr3, not_not.mp hactive, hisolated⟩, hpresent, huser, hwritable⟩

theorem validate_of_user_range {address : UInt32} {length : ℕ} {writable : Bool}
    {receipts : String → List Receipt} {pid : ProcessId}
    (h : k.user_range address length writable receipts = .ok pid) :
    k.validate_active_user_range address length writable = .ok pid := by
  unfold user_range at h
  cases hrange : k.validate_active_user_range address length writable with
  | ok pid' =>
    rw [hrange] at h
    exact congrArg Except.ok (Except.ok.inj h)
  | error reason =>
    rw [hrange] at h
    cases h

/-- A copy into a range that was checked for at least its length. -/
theorem writable_of_copy {address a : UInt32} {length : ℕ} {pid : ProcessId} {bytes : Bytes}
    (h : k.validate_active_user_range address length true = .ok pid) (hlength : bytes.length ≤ length)
    (hne : (k.write_memory address bytes).memory a ≠ k.memory a) : k.UserWritable a :=
  writable_of_validate h (lt_of_lt_of_le (write_memory_ne hne) hlength)

/-! ## One lemma for each call -/

theorem confined_of_eq {eax : UInt32} {receipts : List Receipt} (h : k'.processes = k.processes)
    (hmemory : k'.memory = k.memory) : (SyscallOutcome.returned eax receipts k').Confined k allowed :=
  ⟨h, fun a hne => absurd (congrFun hmemory a) hne⟩

theorem reject_confined (r : Rejection) : (k.reject regs r).Confined k allowed := confined_of_eq rfl rfl

theorem accept_confined {receipts : List Receipt} {result : UInt32} (h : k'.processes = k.processes)
    (hmemory : ∀ a, k'.memory a ≠ k.memory a → allowed a) :
    (k'.accept regs receipts result).Confined k allowed := ⟨h, hmemory⟩

theorem attempt_confined {α : Type} {checks : Except Rejection α} {call : α → SyscallOutcome}
    (h : ∀ a, checks = .ok a → (call a).Confined k allowed) :
    (k.attempt regs checks call).Confined k allowed := by
  cases hc : checks with
  | ok a => exact h a hc
  | error r => exact reject_confined r

theorem ite_confined {c : Prop} [Decidable c] {o o' : SyscallOutcome} (h : c → o.Confined k allowed)
    (h' : ¬ c → o'.Confined k allowed) : (if c then o else o').Confined k allowed := by
  by_cases hc : c
  · rw [if_pos hc]
    exact h hc
  · rw [if_neg hc]
    exact h' hc

theorem accept_silent {receipts : List Receipt} {result : UInt32} (h : k'.processes = k.processes)
    (hmemory : k'.memory = k.memory) : (k'.accept regs receipts result).Confined k allowed :=
  accept_confined h fun a hne => absurd (congrFun hmemory a) hne

theorem sys_verify_confined : (k.sys_verify regs).Confined k allowed :=
  ite_confined (fun _ => confined_of_eq rfl rfl) fun _ => confined_of_eq rfl rfl

theorem sys_accept_confined (overflow_checks : Bool) : (k.sys_accept overflow_checks).Confined k allowed := by
  unfold sys_accept
  cases increment overflow_checks k.verified_app_count with
  | none => trivial
  | some n => exact confined_of_eq rfl rfl

theorem sys_reject_confined (overflow_checks : Bool) : (k.sys_reject overflow_checks).Confined k allowed := by
  unfold sys_reject
  cases increment overflow_checks k.rejected_app_count with
  | none => trivial
  | some n => exact confined_of_eq rfl rfl

theorem sys_read_file_confined : (k.sys_read_file regs).Confined k fun _ => True := by
  refine ite_confined (fun _ => confined_of_eq rfl rfl) fun _ => ?_
  dsimp only
  split
  · exact ⟨rfl, fun _ _ => trivial⟩
  · exact confined_of_eq rfl rfl

theorem sys_emit_receipt_confined : (k.sys_emit_receipt regs).Confined k allowed := by
  refine ite_confined (fun _ => confined_of_eq rfl rfl) fun _ => ?_
  exact ite_confined (fun _ => confined_of_eq rfl rfl) fun _ => confined_of_eq rfl rfl

theorem sys_process_info_confined : (k.sys_process_info regs).Confined k k.UserWritable := by
  refine attempt_confined fun pid hchecks => ?_
  dsimp only
  split
  · trivial
  · simp only [bind_eq_ok] at hchecks
    obtain ⟨-, -, hrange⟩ := hchecks
    exact accept_confined rfl fun a hne => writable_of_copy (validate_of_user_range hrange) le_rfl hne

theorem ipc_send_confined : (k.ipc_send regs).Confined k allowed := by
  refine attempt_confined fun a _ => ?_
  dsimp only
  split_ifs
  · exact accept_silent rfl rfl
  · trivial

theorem ipc_recv_confined : (k.ipc_recv regs).Confined k k.UserWritable := by
  refine attempt_confined fun a hchecks => ?_
  obtain ⟨pid, index⟩ := a
  refine ite_confined (fun _ => accept_confined rfl fun a hne => ?_) fun _ => trivial
  unfold ipc_recv_checks at hchecks
  simp only [bind_eq_ok] at hchecks
  obtain ⟨caller, -, hchecks⟩ := hchecks
  split at hchecks
  · cases hchecks
  · rename_i found hfound
    simp only [bind_eq_ok, reject_if_eq_ok] at hchecks
    obtain ⟨-, -, -, -, -, -, -, -, pid', hrange, heq⟩ := hchecks
    obtain ⟨rfl, rfl⟩ := Prod.mk.inj (Except.ok.inj heq)
    cases hvalid : k.validate_active_user_range regs.ecx
        (k.first_message found).payload_length true with
    | error reason =>
      rw [hvalid] at hrange
      cases hrange
    | ok pid'' => exact writable_of_copy hvalid (List.length_take_le _ _) hne

theorem sys_bogfs_write_confined (overflow_checks : Bool) :
    (k.sys_bogfs_write overflow_checks regs).Confined k allowed := by
  refine attempt_confined fun a _ => ?_
  dsimp only
  split
  · trivial
  · exact ite_confined (fun _ => reject_confined _) fun _ => accept_silent rfl rfl

theorem sys_bogfs_read_confined : (k.sys_bogfs_read regs).Confined k k.UserWritable := by
  refine attempt_confined fun a _ => ?_
  dsimp only
  split
  · trivial
  · refine attempt_confined fun _ hchecks => accept_confined rfl fun a' hne => ?_
    unfold bogfs_read_checks at hchecks
    simp only [bind_eq_ok] at hchecks
    obtain ⟨-, -, -, -, hchecks⟩ := hchecks
    split_ifs at hchecks with hpos
    · simp only [bind_eq_ok] at hchecks
      obtain ⟨pid, hrange, -⟩ := hchecks
      exact writable_of_copy (validate_of_user_range hrange) (List.length_take_le _ _) hne
    · have hlt := write_memory_ne hne
      have hle := List.length_take_le (k.writable_bogfs_files a.2).length
        (k.writable_bogfs_files a.2).data.val
      omega

theorem sys_bogfs_stat_confined : (k.sys_bogfs_stat regs).Confined k k.UserWritable := by
  refine attempt_confined fun a _ => ?_
  dsimp only
  split
  · trivial
  · refine attempt_confined fun _ hchecks => accept_confined rfl fun a' hne => ?_
    unfold bogfs_stat_checks at hchecks
    simp only [bind_eq_ok] at hchecks
    obtain ⟨-, -, pid, hrange, -⟩ := hchecks
    refine writable_of_copy (validate_of_user_range hrange) ?_ hne
    simp only [stat_bytes, List.length_append, length_leBytes, (k.writable_bogfs_files a.2).hash.2]
    decide

/-! ## The dispatch -/

/-- The context that `sys_yield` saves. -/
def yield_context (regs : SyscallRegisters) : SavedContext :=
  { eip := regs.eip, esp := regs.user_esp, eflags := regs.eflags, eax := 0, ebx := regs.ebx,
    ecx := regs.ecx, edx := regs.edx, esi := regs.esi, edi := regs.edi, ebp := regs.ebp, valid := true }

/-- The kernel behind an accepted `yield`. -/
def yielded (k : KernelState) (regs : SyscallRegisters) : KernelState :=
  { k with
    process_table := k.process_table.modify k.active_scheduled_pid fun record =>
      (record.save_context (yield_context regs)).1.mark_yielded.1.mark_ready.1
    active_block_reason := "yield" }

/-- How a call ends: it returns, it exits, or it yields the slice of a scheduled process. -/
inductive Ends (k : KernelState) (regs : SyscallRegisters) : SyscallOutcome → Prop
  | confined {o : SyscallOutcome}
      (h : o.Confined k fun a => k.UserWritable a ∨ k.ReadsFileUnchecked regs) : Ends k regs o
  | exited (receipt : Receipt) (silent : ∀ pid context, receipt ≠ .context_save pid context) :
      Ends k regs (.left regs.ebx [receipt] { k with active_block_reason := "exit" })
  | yielded (receipt : Receipt) (active : k.active_scheduled_pid ≠ 0)
      (found : (k.process_table.get k.active_scheduled_pid).isSome) :
      Ends k regs (.left YIELD_EXIT_CODE
        [.context_save k.active_scheduled_pid (yield_context regs), receipt] (k.yielded regs))

theorem Confined.mono {o : SyscallOutcome} {allowed' : UInt32 → Prop} (h : o.Confined k allowed)
    (himp : ∀ a, allowed a → allowed' a) : o.Confined k allowed' := by
  cases o with
  | returned eax receipts k' => exact ⟨h.1, fun a hne => himp a (h.2 a hne)⟩
  | left code receipts k' => exact h
  | panicked => trivial

theorem ends_ite {c : Prop} [Decidable c] {o o' : SyscallOutcome} (h : c → Ends k regs o)
    (h' : ¬ c → Ends k regs o') : Ends k regs (if c then o else o') := by
  by_cases hc : c
  · rw [if_pos hc]
    exact h hc
  · rw [if_neg hc]
    exact h' hc

theorem ends_of_writable {o : SyscallOutcome} (h : o.Confined k k.UserWritable) : Ends k regs o :=
  .confined (Confined.mono h fun _ => .inl)

theorem sys_yield_ends : Ends k regs (k.sys_yield regs) := by
  refine ends_ite (fun _ => .confined (reject_confined _)) fun hactive => ?_
  split
  · exact .confined trivial
  · rename_i record hget
    exact .yielded _ hactive (by rw [hget]; rfl)

theorem handle_syscall_ends (k : KernelState) (regs : SyscallRegisters) (overflow_checks : Bool) :
    Ends k regs (handle_syscall overflow_checks k regs) := by
  unfold handle_syscall
  refine ends_ite (fun _ => .confined (reject_confined _)) fun hlegacy => ?_
  refine ends_ite (fun _ => .confined sys_verify_confined) fun _ => ?_
  refine ends_ite (fun _ => .confined (sys_accept_confined _)) fun _ => ?_
  refine ends_ite (fun _ => .confined (sys_reject_confined _)) fun _ => ?_
  refine ends_ite (fun hread => ?_) fun _ => ?_
  · -- the legacy read is denied to an admitted process
    have hnot : k.dynamic_loader_admitted = false := by
      rw [← Bool.not_eq_true]
      exact fun hadmitted => hlegacy ⟨hadmitted, by rw [hread]; decide⟩
    exact .confined (Confined.mono sys_read_file_confined fun _ _ => .inr ⟨hread, hnot⟩)
  refine ends_ite (fun _ => .confined sys_emit_receipt_confined) fun _ => ?_
  refine ends_ite (fun _ => .exited _ (by intro pid context h; cases h)) fun _ => ?_
  refine ends_ite (fun _ => sys_yield_ends) fun _ => ?_
  refine ends_ite (fun _ => .confined (attempt_confined fun _ _ => accept_silent rfl rfl)) fun _ => ?_
  refine ends_ite (fun _ => .confined (ite_confined (fun _ => reject_confined _) fun _ =>
    accept_silent rfl rfl)) fun _ => ?_
  refine ends_ite (fun _ => ends_of_writable sys_process_info_confined) fun _ => ?_
  refine ends_ite (fun _ => .confined (attempt_confined fun _ _ =>
    ite_confined (fun _ => accept_silent rfl rfl) fun _ => reject_confined _)) fun _ => ?_
  refine ends_ite (fun _ => .confined (attempt_confined fun _ _ => accept_silent rfl rfl)) fun _ => ?_
  refine ends_ite (fun _ => .confined (attempt_confined fun _ _ => accept_silent rfl rfl)) fun _ => ?_
  refine ends_ite (fun _ => .confined ipc_send_confined) fun _ => ?_
  refine ends_ite (fun _ => ends_of_writable ipc_recv_confined) fun _ => ?_
  refine ends_ite (fun _ => .confined (attempt_confined fun _ _ => accept_silent rfl rfl)) fun _ => ?_
  refine ends_ite (fun _ => .confined (sys_bogfs_write_confined _)) fun _ => ?_
  refine ends_ite (fun _ => ends_of_writable sys_bogfs_read_confined) fun _ => ?_
  refine ends_ite (fun _ => ends_of_writable sys_bogfs_stat_confined) fun _ => ?_
  exact .confined (reject_confined _)

/-- A call that returns has changed neither the processes nor the page tables nor what is active, and it
has written only where the page tables let its caller write; a file that a process of the legacy loader
reads may go anywhere. -/
theorem call_writes_own_memory {overflow_checks : Bool} {eax : UInt32} {receipts : List Receipt}
    (h : handle_syscall overflow_checks k regs = .returned eax receipts k') :
    k'.processes = k.processes ∧
      ∀ a, k'.memory a ≠ k.memory a → k.UserWritable a ∨ k.ReadsFileUnchecked regs := by
  have hends := handle_syscall_ends k regs overflow_checks
  rw [h] at hends
  cases hends with
  | confined hconfined => exact hconfined

/-- A kernel whose process may write its page 1. -/
def demo_kernel : KernelState where
  active_scheduled_pid := 1
  active_cr3 := 4096
  active_block_reason := "none"
  process_table := ⟨[{ ProcessRecord.new 1 (ascii "/apps/a.bogapp") with
    state := .Running
    address_space := { AddressSpaceMetadata.unassigned with
      cr3 := 4096
      process_isolation_enforced := true } }], 2⟩
  paging := { Paging.initial with low_page_tables := fun _ page => if page = 1 then 4103 else 0 }
  memory := fun _ => 0
  bogfs_entries := none
  verified_app_count := 1
  rejected_app_count := 1
  last_receipt := ⟨false, ⟨zeros 1024, length_zero_buffer⟩, 0⟩
  ipc := .initial
  writable_bogfs_files := .initial

/-- The registers of `process_info` for a buffer in this page. -/
def demo_registers : SyscallRegisters := ⟨0, 0, 0, 0, 4096, 0, 16, 10, 0, 0, 0, 0, 0⟩

theorem call_writes_own_memory_info : ∃ eax receipts k',
    handle_syscall true demo_kernel demo_registers = .returned eax receipts k' ∧ k'.memory 4096 = 2 ∧
      demo_kernel.UserWritable 4096 := by
  have hwritten : (handle_syscall true demo_kernel demo_registers).next.map (·.memory 4096) = some 2 := by
    decide +kernel
  have haccepted : demo_kernel.ReadsFileUnchecked demo_registers → False := by
    rintro ⟨hnumber, -⟩
    exact absurd hnumber (by decide)
  cases hcall : handle_syscall true demo_kernel demo_registers with
  | returned eax receipts k' =>
    rw [hcall] at hwritten
    have htwo : k'.memory 4096 = 2 := Option.some.inj hwritten
    have hne : k'.memory 4096 ≠ demo_kernel.memory 4096 := by
      rw [htwo]
      decide
    exact ⟨eax, receipts, k', rfl, htwo,
      ((call_writes_own_memory hcall).2 4096 hne).resolve_right haccepted⟩
  | left code receipts k' =>
    have hreturns : (match handle_syscall true demo_kernel demo_registers with
      | .left .. => false
      | _ => true) = true := by
      decide +kernel
    rw [hcall] at hreturns
    cases hreturns
  | panicked =>
    rw [hcall] at hwritten
    cases hwritten

end KernelState

end Bogbin.Kernel
