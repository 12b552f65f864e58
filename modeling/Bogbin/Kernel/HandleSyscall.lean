import Bogbin.Kernel.Ipc
import Bogbin.Kernel.WritableBogfs

/-!
# The system calls

The legacy calls 1 to 5, the calls of version 2 on the process itself, and `handle_syscall`.  The
legacy calls follow their pointers without a check; `sys_read_file` is the one that writes through a
pointer.
-/

namespace Bogbin.Kernel

open Buffer Bogbin.Core

def YIELD_EXIT_CODE : UInt32 := 0x7ffffffe

def forbidden_sentinels : List Bytes :=
  [ascii "BOGOS_APP_RUN_BEGIN", ascii "BOGOS_APP_RUN_END", ascii "BOGOS_PROCESS_BEGIN",
    ascii "BOGOS_PROCESS_END", ascii "BOGOS_SCHED_BEGIN", ascii "BOGOS_SCHED_END",
    ascii "BOGOS_CONTEXT_SAVE_BEGIN", ascii "BOGOS_CONTEXT_SAVE_END",
    ascii "BOGOS_CONTEXT_RESTORE_BEGIN", ascii "BOGOS_CONTEXT_RESTORE_END",
    ascii "BOGOS_SECURITY_BLOCK", ascii "BOGOS_PANIC_BEGIN", ascii "BOGOS_PANIC_END"]

def contains_forbidden_sentinel (buf : Bytes) : Bool :=
  forbidden_sentinels.any fun sentinel =>
    sentinel.length ≤ buf.length &&
      (List.range (buf.length - sentinel.length + 1)).any fun i =>
        slice buf i sentinel.length = sentinel

/-- `a += 1` on `usize`: a panic in a build with overflow checks, else the wrapped sum. -/
def increment (overflow_checks : Bool) (a : ℕ) : Option ℕ :=
  if a + 1 < 2 ^ 32 then some (a + 1)
  else if overflow_checks then none
  else some ((a + 1) % 2 ^ 32)

namespace KernelState

variable (k : KernelState)

/-! ## Legacy calls -/

/-- The result of a call without a receipt. -/
def legacy_result (result : Int32) : SyscallOutcome := .returned result.toUInt32 [] k

def sys_verify (regs : SyscallRegisters) : SyscallOutcome :=
  if regs.ebx = 0 ∨ regs.edx = 0 ∨ 65536 < regs.ecx.toNat then k.legacy_result (-1)
  else
    let expected_hash := k.read_memory regs.edx 32
    let actual_hash := sha256 (k.read_memory regs.ebx regs.ecx.toNat)
    k.legacy_result (if actual_hash.val = expected_hash then 1 else 0)

def sys_accept (overflow_checks : Bool) : SyscallOutcome :=
  match increment overflow_checks k.verified_app_count with
  | some n => { k with verified_app_count := n }.legacy_result 0
  | none => .panicked

def sys_reject (overflow_checks : Bool) : SyscallOutcome :=
  match increment overflow_checks k.rejected_app_count with
  | some n => { k with rejected_app_count := n }.legacy_result 0
  | none => .panicked

def sys_read_file (regs : SyscallRegisters) : SyscallOutcome :=
  if regs.ebx = 0 ∨ regs.ecx = 0 then k.legacy_result (-1)
  else
    let path := (from_utf8 ((k.read_memory regs.ebx 256).takeWhile (· ≠ 0))).getD []
    match bogfs_read k.bogfs_entries path with
    | some content =>
      let copied := content.take regs.edx.toNat
      .returned (UInt32.ofNat copied.length) [] (k.write_memory regs.ecx copied)
    | none => k.legacy_result (-1)

/-- The buffer of the last receipt after a copy to its front. -/
def copy_to_front (buf : {b : Bytes // b.length = 1024}) (bytes : Bytes) :
    {b : Bytes // b.length = 1024} :=
  if h : 0 + bytes.length ≤ buf.val.length then
    ⟨patch buf.val 0 bytes, by rw [length_patch _ h, buf.2]⟩
  else buf

def sys_emit_receipt (regs : SyscallRegisters) : SyscallOutcome :=
  let len := regs.ecx.toNat
  if regs.ebx = 0 ∨ 1024 < len then k.legacy_result (-1)
  else
    -- the text is stored before it is checked
    let bytes := k.read_memory regs.ebx len
    let k := { k with last_receipt := { k.last_receipt with
      len := min len 1024
      buf := copy_to_front k.last_receipt.buf bytes } }
    if contains_forbidden_sentinel bytes then k.legacy_result (-2)
    else
      .returned 0
        (match from_utf8 bytes with
        | some text => [.text (text ++ ascii "\n")]
        | none => [])
        { k with last_receipt := { k.last_receipt with available := true } }

/-! ## Process calls -/

def sys_exit (regs : SyscallRegisters) : SyscallOutcome :=
  .left regs.ebx [k.syscall_receipt regs regs.ebx.toInt32 "accepted" "none"]
    { k with active_block_reason := "exit" }

def sys_yield (regs : SyscallRegisters) : SyscallOutcome :=
  let pid := k.active_scheduled_pid
  if pid = 0 then k.reject regs ⟨[], SYSCALL_ERR_INVALID_POINTER, "no_active_process"⟩
  else
    let context : SavedContext :=
      { eip := regs.eip, esp := regs.user_esp, eflags := regs.eflags, eax := 0, ebx := regs.ebx,
        ecx := regs.ecx, edx := regs.edx, esi := regs.esi, edi := regs.edi, ebp := regs.ebp,
        valid := true }
    match k.process_table.get pid with
    | none => .panicked
    | some _ =>
      .left YIELD_EXIT_CODE
        [.context_save pid context, k.syscall_receipt regs 0 "accepted" "none"]
        { k with
          process_table := k.process_table.modify pid fun record =>
            (record.save_context context).1.mark_yielded.1.mark_ready.1
          active_block_reason := "yield" }

def sys_write_console (regs : SyscallRegisters) : SyscallOutcome :=
  let length := regs.ecx.toNat
  let checks : Except Rejection ProcessId := do
    reject_if (length = 0 ∨ SYSCALL_V2_MAX_OUTPUT < length)
      ⟨[], SYSCALL_ERR_INVALID_LENGTH, "invalid_length"⟩
    k.user_range regs.ebx length false fun _ => []
  k.attempt regs checks fun pid =>
    k.accept regs [.user_output pid (k.app_path pid) (k.read_memory regs.ebx length)] regs.ecx

def sys_getpid (regs : SyscallRegisters) : SyscallOutcome :=
  if k.active_scheduled_pid = 0 then
    k.reject regs ⟨[], SYSCALL_ERR_INVALID_POINTER, "no_active_process"⟩
  else k.accept regs [] (UInt32.ofNat k.active_scheduled_pid)

def sys_process_info (regs : SyscallRegisters) : SyscallOutcome :=
  let length := regs.ecx.toNat
  let checks : Except Rejection ProcessId := do
    reject_if (length < SYSCALL_V2_PROCESS_INFO_SIZE ∨ SYSCALL_V2_MAX_BUFFER < length)
      ⟨[], SYSCALL_ERR_INVALID_LENGTH, "invalid_length"⟩
    k.user_range regs.ebx SYSCALL_V2_PROCESS_INFO_SIZE true fun _ => []
  k.attempt regs checks fun pid =>
    match k.process_table.get pid with
    | none => .panicked
    | some record =>
      let output := [2, pid, record.address_space.cr3, 1].flatMap (leBytes 4)
      (k.write_memory regs.ebx output).accept regs []
        (UInt32.ofNat SYSCALL_V2_PROCESS_INFO_SIZE)

def sys_verify_hash (regs : SyscallRegisters) : SyscallOutcome :=
  let length := regs.ecx.toNat
  let checks : Except Rejection ProcessId := do
    reject_if (length = 0 ∨ SYSCALL_V2_MAX_BUFFER < length)
      ⟨[], SYSCALL_ERR_INVALID_LENGTH, "invalid_length"⟩
    let pid ← k.user_range regs.ebx length false fun _ => []
    let _ ← k.user_range regs.edx 32 false fun _ => []
    .ok pid
  k.attempt regs checks fun pid =>
    let actual := (sha256 (k.read_memory regs.ebx length)).val
    let expected := k.read_memory regs.edx 32
    let receipt : Receipt := .verify_hash pid actual expected (actual = expected)
    if actual = expected then k.accept regs [receipt] 1
    else k.reject regs ⟨[receipt], SYSCALL_ERR_VERIFICATION_FAILED, "verification_failed"⟩

def sys_claim (regs : SyscallRegisters) : SyscallOutcome :=
  let length := regs.ecx.toNat
  let refused (reason : String) : List Receipt := [.claim none Digest.zero length false reason]
  let checks : Except Rejection ProcessId := do
    reject_if (length = 0 ∨ SYSCALL_V2_MAX_OUTPUT < length)
      ⟨refused "invalid_length", SYSCALL_ERR_INVALID_LENGTH, "invalid_length"⟩
    k.user_range regs.ebx length false refused
  k.attempt regs checks fun pid =>
    k.accept regs [.claim (some pid) (sha256 (k.read_memory regs.ebx length)) length true "none"]
      regs.ecx

/-! ## The dispatch -/

def dynamic_loader_admitted : Bool :=
  0 < k.active_scheduled_pid &&
    ((k.process_table.get k.active_scheduled_pid).map (·.dynamic_loader_admitted)).getD false

end KernelState

def handle_syscall (overflow_checks : Bool) (k : KernelState) (regs : SyscallRegisters) : SyscallOutcome :=
  let syscall_num := regs.eax
  if k.dynamic_loader_admitted ∧ 1 ≤ syscall_num ∧ syscall_num ≤ 5 then
    k.reject regs ⟨[], SYSCALL_ERR_INVALID_SYSCALL, "legacy_syscall_denied"⟩
  else if syscall_num = 1 then k.sys_verify regs
  else if syscall_num = 2 then k.sys_accept overflow_checks
  else if syscall_num = 3 then k.sys_reject overflow_checks
  else if syscall_num = 4 then k.sys_read_file regs
  else if syscall_num = 5 then k.sys_emit_receipt regs
  else if syscall_num = SYSCALL_V2_EXIT then k.sys_exit regs
  else if syscall_num = SYSCALL_V2_YIELD then k.sys_yield regs
  else if syscall_num = SYSCALL_V2_WRITE_CONSOLE then k.sys_write_console regs
  else if syscall_num = SYSCALL_V2_GETPID then k.sys_getpid regs
  else if syscall_num = SYSCALL_V2_PROCESS_INFO then k.sys_process_info regs
  else if syscall_num = SYSCALL_V2_VERIFY_HASH then k.sys_verify_hash regs
  else if syscall_num = SYSCALL_V2_CLAIM then k.sys_claim regs
  else if syscall_num = SYSCALL_V2_IPC_REGISTER_CHANNEL then k.ipc_register regs
  else if syscall_num = SYSCALL_V2_IPC_SEND then k.ipc_send regs
  else if syscall_num = SYSCALL_V2_IPC_RECV then k.ipc_recv regs
  else if syscall_num = SYSCALL_V2_IPC_POLL then k.ipc_poll regs
  else if syscall_num = SYSCALL_V2_BOGFS_WRITE then k.sys_bogfs_write overflow_checks regs
  else if syscall_num = SYSCALL_V2_BOGFS_READ then k.sys_bogfs_read regs
  else if syscall_num = SYSCALL_V2_BOGFS_STAT then k.sys_bogfs_stat regs
  else k.reject regs ⟨[], SYSCALL_ERR_INVALID_SYSCALL, "invalid_syscall"⟩

section Dispatch

variable {overflow_checks : Bool} {k : KernelState} {regs : SyscallRegisters}

/-- The calls of version 2 are not among the legacy ones. -/
theorem not_legacy (h : ¬ regs.eax ≤ 5) :
    ¬ (k.dynamic_loader_admitted ∧ 1 ≤ regs.eax ∧ regs.eax ≤ 5) := fun hlegacy => h hlegacy.2.2

theorem handle_emit_receipt (h : regs.eax = 5) :
    handle_syscall overflow_checks k regs =
      if k.dynamic_loader_admitted then
        k.reject regs ⟨[], SYSCALL_ERR_INVALID_SYSCALL, "legacy_syscall_denied"⟩
      else k.sys_emit_receipt regs := by
  have hrange : (1 : UInt32) ≤ 5 ∧ (5 : UInt32) ≤ 5 := by decide
  unfold handle_syscall
  dsimp only
  rw [h]
  cases k.dynamic_loader_admitted with
  | true => rw [if_pos ⟨rfl, hrange⟩, if_pos rfl]
  | false =>
    rw [if_neg fun hlegacy => Bool.false_ne_true hlegacy.1]
    rfl

theorem handle_ipc_register (h : regs.eax = SYSCALL_V2_IPC_REGISTER_CHANNEL) :
    handle_syscall overflow_checks k regs = k.ipc_register regs := by
  unfold handle_syscall
  dsimp only
  rw [if_neg (not_legacy (by rw [h]; decide)), h]
  rfl

theorem handle_ipc_send (h : regs.eax = SYSCALL_V2_IPC_SEND) :
    handle_syscall overflow_checks k regs = k.ipc_send regs := by
  unfold handle_syscall
  dsimp only
  rw [if_neg (not_legacy (by rw [h]; decide)), h]
  rfl

theorem handle_ipc_recv (h : regs.eax = SYSCALL_V2_IPC_RECV) :
    handle_syscall overflow_checks k regs = k.ipc_recv regs := by
  unfold handle_syscall
  dsimp only
  rw [if_neg (not_legacy (by rw [h]; decide)), h]
  rfl

theorem handle_bogfs_write (h : regs.eax = SYSCALL_V2_BOGFS_WRITE) :
    handle_syscall overflow_checks k regs = k.sys_bogfs_write overflow_checks regs := by
  unfold handle_syscall
  dsimp only
  rw [if_neg (not_legacy (by rw [h]; decide)), h]
  rfl

theorem handle_bogfs_read (h : regs.eax = SYSCALL_V2_BOGFS_READ) :
    handle_syscall overflow_checks k regs = k.sys_bogfs_read regs := by
  unfold handle_syscall
  dsimp only
  rw [if_neg (not_legacy (by rw [h]; decide)), h]
  rfl

theorem handle_bogfs_stat (h : regs.eax = SYSCALL_V2_BOGFS_STAT) :
    handle_syscall overflow_checks k regs = k.sys_bogfs_stat regs := by
  unfold handle_syscall
  dsimp only
  rw [if_neg (not_legacy (by rw [h]; decide)), h]
  rfl

end Dispatch

end Bogbin.Kernel
