import Bogbin.Kernel.HandleSyscall
import Bogbin.Kernel.V39

/-!
# The kernel and its processes

The commands of the shell that launch processes, the scheduler's slices and the ways out of them, as
steps on one state (`Machine.Step`).  Between two steps the kernel is in its shell, in the slice of a
scheduled process, or in an application that `run` has entered.  Serial output is left out.

A step of user code may change the registers and every byte that the active page directory lets it
write; a call of the kernel writes where `handle_syscall` writes.  An index out of range and an
`unwrap` of `None` are panics, `none`.
-/

namespace Bogbin.Kernel

open Buffer Bogbin.Core

def PREEMPT_EXIT_CODE : UInt32 := 0x7ffffffd
def SCHEDULER_QUANTUM : ℕ := 2
def V39_APP_PATH : Bytes := ascii "/apps/hello.bogapp"

/-- Where the kernel is between two steps. -/
inductive Phase
  | shell
  | slice (pid : ProcessId)
  | app (pid : ProcessId)
  deriving DecidableEq, Repr

/-- The process that user code runs in. -/
def Phase.pid : Phase → Option ProcessId
  | .shell => none
  | .slice pid => some pid
  | .app pid => some pid

/-- The code that `v39_load_path` has staged, with its hash. -/
structure Staged where
  code : {b : Bytes // b.length ≤ V36_SECTOR_SIZE}
  code_hash : Digest

structure Machine where
  kernel : KernelState
  scheduler : Scheduler
  phase : Phase
  paging_enabled : Bool
  process_code_slots : ℕ → ℕ → UInt8
  kernel_read_protection_faulted : Bool
  kernel_write_protection_faulted : Bool
  cross_process_write_faulted : Bool
  writable_code_faulted : Bool
  process_isolation_receipt_emitted : Bool
  v39_staging : Staged
  v39_execution_pending : Bool
  v39_execution_done : Bool

/-- What a loader copies into a code slot. -/
structure Image where
  code : Bytes
  app_hash : Digest
  dynamic_loader_admitted : Bool
  fits : code.length ≤ PROCESS_CODE_SLOT_SIZE

/-- Where user code starts: at the code of its slot with a fresh stack, or where it was left. -/
inductive Entry
  | enter_ring3 (entrypoint user_esp : ℕ)
  | restore_user_context (context : SavedContext)
  deriving DecidableEq, Repr

/-- The marks of a record whose slot was mapped, in the order of the loaders. -/
def launched_record (record : ProcessRecord) (memory : ProcessExecutionMemory) (image : Image)
    (paging_enabled : Bool) (process_cr3 : ℕ)
    (user_mapped private_test_page_mapped mapping_invariants_verified isolation_proven : Bool) :
    ProcessRecord :=
  let record := if image.dynamic_loader_admitted then record.mark_dynamic_loader_admitted else record
  let record := (record.mark_verified image.app_hash).1
  let record := (record.assign_execution_memory memory).1
  let record := record.assign_scaffolded_address_space.1
  if paging_enabled ∧ process_cr3 ≠ 0 then
    let record := record.mark_per_process_identity process_cr3
    if user_mapped then
      let record := record.mark_kernel_protected_identity process_cr3
      if private_test_page_mapped ∧ mapping_invariants_verified then
        let record := record.mark_private_user_mappings process_cr3
        if isolation_proven then record.mark_process_isolation_proven else record
      else record
    else record
  else record

namespace Machine

variable (m : Machine)

abbrev process_table : ProcessTable := m.kernel.process_table

abbrev paging : Paging := m.kernel.paging

def with_table (table : ProcessTable) : Machine :=
  { m with kernel := { m.kernel with process_table := table } }

/-- A write through `PROCESS_TABLE.get_mut(pid).unwrap()`. -/
def update (pid : ProcessId) (f : ProcessRecord → ProcessRecord) : Option Machine :=
  match m.process_table.get pid with
  | some _ => some (m.with_table (m.process_table.modify pid f))
  | none => none

/-! ## Launching -/

/-- Copy bytes to the front of a code slot. -/
def copy_code (slot_index : ℕ) (code : Bytes) (slot offset : ℕ) : UInt8 :=
  if slot = slot_index then code.getD offset (m.process_code_slots slot offset)
  else m.process_code_slots slot offset

/-- What the three loaders do with the slot and the record of a new process. -/
def launch (L : Layout) (pid : ProcessId) (image : Image) (isolation_proven : Bool) :
    Option Machine :=
  let slot_index := pid - 1
  if MAX_PROCESSES ≤ slot_index then none
  else
    let code_length := image.code.length
    let code_base := L.code_base slot_index
    let stack_base := L.stack_base slot_index
    let (paging, process_cr3, user_mapped, private_test_page_mapped) :=
      m.paging.map_process L slot_index code_length
    let mapping_invariants_verified :=
      paging.verify_process_mapping_invariants L slot_index code_base code_length stack_base process_cr3
    let memory : ProcessExecutionMemory :=
      { code_base := code_base
        code_length := code_length
        stack_base := stack_base
        stack_top := stack_base + PROCESS_STACK_SLOT_SIZE
        slot_index := slot_index
        assigned := true }
    { m with
      process_code_slots := m.copy_code slot_index image.code
      kernel := { m.kernel with paging := paging } }.update pid fun record =>
        launched_record record memory image m.paging_enabled process_cr3 user_mapped
          private_test_page_mapped mapping_invariants_verified isolation_proven

/-- `mark_ready`, then `enqueue`. -/
def make_ready (pid : ProcessId) : Option Machine := do
  let m ← m.update pid fun record => record.mark_ready.1
  some { m with scheduler := (m.scheduler.enqueue pid m.process_table).1 }

/-- A process whose isolation is not proven is rejected; the others are made ready. -/
def admit_isolated (pid : ProcessId) : Option (Machine × Option ProcessId) :=
  match m.process_table.get pid with
  | none => none
  | some record =>
    if record.address_space.process_isolation_enforced then
      (m.make_ready pid).map fun m => (m, some pid)
    else
      (m.update pid fun record => (record.mark_rejected "isolation_not_proven").1).map
        fun m => (m, none)

/-! ## The commands

Each returns the process that it has queued, if any. -/

def spawned_image (content : Bytes) : Image where
  code := content.take PROCESS_CODE_SLOT_SIZE
  app_hash := sha256 content
  dynamic_loader_admitted := false
  fits := List.length_take_le _ _

def spawn_app_command (L : Layout) (app : Bytes) : Option (Machine × Option ProcessId) :=
  let path := format_app_path app
  match m.process_table.create path with
  | none => some (m, none)
  | some (table, pid) =>
    let m := m.with_table table
    match bogfs_read m.kernel.bogfs_entries path with
    | some content => do
      let m ← m.launch L pid (spawned_image content) m.process_isolation_receipt_emitted
      let m ← m.make_ready pid
      some (m, some pid)
    | none =>
      (m.update pid fun record => (record.mark_rejected "not_found_or_unverified").1).map
        fun m => (m, none)

theorem dynamic_code_fits {content : Bytes} {app : DynamicApp} (h : parse_dynamic_app content = .ok app) :
    app.code.length ≤ PROCESS_CODE_SLOT_SIZE := by
  unfold parse_dynamic_app at h
  simp only [bind_eq_ok, reject_if_eq_ok] at h
  obtain ⟨-, -, -, -, -, -, -, -, name, -, version, -, -, -, -, -, -, hlength, -, -, -, -, -, -,
    -, -, -, -, -, -, h⟩ := h
  rw [← Except.ok.inj h]
  exact (List.length_take_le _ _).trans (Nat.not_lt.mp hlength)

def dynamic_image {content : Bytes} {app : DynamicApp} (h : parse_dynamic_app content = .ok app) :
    Image where
  code := app.code
  app_hash := app.actual_code_hash
  dynamic_loader_admitted := true
  fits := dynamic_code_fits h

def load_dynamic_app_command (L : Layout) (app_name : Bytes) : Option (Machine × Option ProcessId) :=
  let path := format_app_path app_name
  match bogfs_read m.kernel.bogfs_entries path with
  | none => some (m, none)
  | some content =>
    match h : parse_dynamic_app content with
    | .error _ => some (m, none)
    | .ok _ =>
      match m.process_table.create path with
      | none => some (m, none)
      | some (table, pid) => do
        let m := m.with_table table
        let m ← m.launch L pid (dynamic_image h) m.process_isolation_receipt_emitted
        m.admit_isolated pid

theorem v39_code_fits {content : Bytes} {app : V39App} (h : v39_parse_app content = .ok app) :
    app.code.length ≤ V36_SECTOR_SIZE := by
  unfold v39_parse_app at h
  simp only [bind_eq_ok, reject_if_eq_ok] at h
  obtain ⟨-, -, -, -, -, -, -, -, -, -, -, -, -, -, -, hlength, -, -, -, -, -, -, -, -, name, -,
    version, -, -, -, -, -, -, -, h⟩ := h
  rw [← Except.ok.inj h]
  have hle := Nat.not_lt.mp hlength
  exact (List.length_take_le _ _).trans (hle.trans (Nat.sub_le _ _))

/-- `v39_load_path` of the staged application: its code is kept for `run_v39_staged_app`. -/
def v39_load_path (d : Disk) (state : V38State) (path : Bytes) : Machine :=
  match v38_find state path with
  | none => m
  | some index =>
    let record := v38_record state.manifest.val index
    if v37_read_u32 record 76 ≠ V38_TYPE_FILE then m
    else
      let content := (d (v37_read_u32 record 72)).val.take (v37_read_u32 record 68)
      if digest content ≠ v38_record_hash record then m
      else
        match h : v39_parse_app content with
        | .error _ => m
        | .ok app =>
          { m with
            v39_staging := ⟨⟨app.code, v39_code_fits h⟩, app.code_hash⟩
            v39_execution_pending := true }

def staged_image : Image where
  code := m.v39_staging.code.val
  app_hash := m.v39_staging.code_hash
  dynamic_loader_admitted := true
  fits := m.v39_staging.code.2.trans (by decide)

/-- `run_v39_staged_app` up to the admission; the steps of the scheduler that follow are steps of
their own. -/
def run_v39_staged_app (L : Layout) : Option (Machine × Option ProcessId) :=
  if !m.v39_execution_pending || m.v39_execution_done then some (m, none)
  else
    let m := { m with v39_execution_done := true }
    match m.process_table.create V39_APP_PATH with
    | none => some (m, none)
    | some (table, pid) => do
      let m := m.with_table table
      let m ← m.launch L pid m.staged_image true
      m.admit_isolated pid

/-- `run_app_command` up to `enter_ring3`; its code is not in a slot. -/
def run_app_command (app : Bytes) : Option Machine :=
  let path := format_app_path app
  match m.process_table.create path with
  | none => some m
  | some (table, pid) =>
    let m := m.with_table table
    match bogfs_read m.kernel.bogfs_entries path with
    | some content => do
      let m ← m.update pid fun record => (record.mark_verified (sha256 content)).1.mark_running.1
      some { m with kernel := { m.kernel with active_block_reason := "none" }, phase := .app pid }
    | none => m.update pid fun record => (record.mark_rejected "not_found_or_unverified").1

/-! ## Slices -/

/-- `execute_scheduled_process` up to user mode. -/
def execute_scheduled_process (pid : ProcessId) : Option (Machine × Option Entry) :=
  match m.process_table.get pid with
  | none => none
  | some record =>
    let memory := record.execution_memory
    if !memory.assigned ∨ record.address_space.cr3 = 0 then
      let reason :=
        if !memory.assigned then "execution_memory_unassigned" else "process_cr3_unassigned"
      (m.update pid fun record => (record.mark_rejected reason).1).map fun m =>
        ({ m with scheduler := m.scheduler.finish_current }, none)
    else do
      let m ← m.update pid fun record => record.mark_running.1
      some ({ m with
        kernel := { m.kernel with
          active_block_reason := "none"
          active_cr3 := record.address_space.cr3
          active_scheduled_pid := pid }
        scheduler := { m.scheduler with quantum_ticks := 0 }
        phase := .slice pid },
        some (if record.restore_eligible then .restore_user_context record.context
          else .enter_ring3 memory.code_base memory.stack_top))

/-- The selected process, and where it entered user mode. -/
def scheduler_step : Option (Machine × Option ProcessId × Option Entry) :=
  let (scheduler, table, selected_pid) := m.scheduler.select_next m.process_table
  let m := { m.with_table table with scheduler := scheduler }
  match selected_pid with
  | none => some (m, none, none)
  | some pid => (m.execute_scheduled_process pid).map fun (m, entry) => (m, some pid, entry)

/-- `longjmp_to_kernel` into `execute_scheduled_process`. -/
def finish_scheduled_process (pid : ProcessId) (exit_code : UInt32) : Option Machine :=
  let m := { m with kernel := { m.kernel with active_scheduled_pid := 0 }, phase := .shell }
  let reason := m.kernel.active_block_reason
  let requeued : Scheduler := (m.scheduler.finish_current.enqueue pid m.process_table).1
  if exit_code = YIELD_EXIT_CODE ∧ reason = "yield" then some { m with scheduler := requeued }
  else if exit_code = PREEMPT_EXIT_CODE ∧ reason = "preempt" then some { m with scheduler := requeued }
  else
    let f (record : ProcessRecord) : ProcessRecord :=
      if reason = "exit" ∨ exit_code = 0 then (record.mark_exited exit_code.toInt32).1
      else
        (record.mark_blocked exit_code.toInt32 (if reason = "none" then "nonzero_exit" else reason)).1
    (m.update pid f).map fun m => { m with scheduler := m.scheduler.finish_current }

/-- `longjmp_to_kernel` into `run_app_command`. -/
def finish_app (pid : ProcessId) (exit_code : UInt32) : Option Machine :=
  let m := { m with phase := .shell }
  let reason := m.kernel.active_block_reason
  m.update pid fun record =>
    if reason = "exit" ∨ exit_code = 0 then (record.mark_exited exit_code.toInt32).1
    else (record.mark_blocked exit_code.toInt32 (if reason = "none" then "nonzero_exit" else reason)).1

def longjmp_to_kernel (exit_code : UInt32) : Option Machine :=
  match m.phase with
  | .shell => none
  | .slice pid => m.finish_scheduled_process pid exit_code
  | .app pid => m.finish_app pid exit_code

/-! ## Interrupts -/

/-- The context of an interrupted process. -/
def preempt_context (regs : SyscallRegisters) : SavedContext :=
  { eip := regs.eip, esp := regs.user_esp, eflags := regs.eflags, eax := regs.eax, ebx := regs.ebx,
    ecx := regs.ecx, edx := regs.edx, esi := regs.esi, edi := regs.edi, ebp := regs.ebp, valid := true }

/-- A tick, and the context that it has saved before it leaves with `PREEMPT_EXIT_CODE`. -/
def handle_timer_interrupt (regs : SyscallRegisters) : Option (Machine × Option SavedContext) :=
  let m := { m with scheduler := { m.scheduler with
    timer_ticks := saturating_succ m.scheduler.timer_ticks } }
  let pid := m.kernel.active_scheduled_pid
  if pid = 0 ∨ regs.cs &&& 3 ≠ 3 then some (m, none)
  else
    let quantum_ticks := saturating_succ m.scheduler.quantum_ticks
    if quantum_ticks < SCHEDULER_QUANTUM then
      some ({ m with scheduler := { m.scheduler with quantum_ticks := quantum_ticks } }, none)
    else
      let context := preempt_context regs
      (m.update pid fun record =>
        (record.save_context context).1.mark_preempted.1.mark_ready.1).map fun m =>
          ({ m with
            kernel := { m.kernel with active_block_reason := "preempt" }
            scheduler := { m.scheduler with
              quantum_ticks := 0
              preemption_count := saturating_succ m.scheduler.preemption_count
              last_preempted_pid := some pid } }, some context)

/-- The flag of a page fault by the path of its application. -/
def record_fault (app_path : Bytes) : Machine :=
  if app_path = ascii "/apps/v31_bad_kernel_read.bogapp" then
    { m with kernel_read_protection_faulted := true }
  else if app_path = ascii "/apps/v31_bad_kernel_write.bogapp" then
    { m with kernel_write_protection_faulted := true }
  else if app_path = ascii "/apps/v31_bad_cross_process_write.bogapp" then
    { m with cross_process_write_faulted := true }
  else if app_path = ascii "/apps/v31_bad_code_write.bogapp" then
    { m with writable_code_faulted := true }
  else m

/-- The isolation of all mapped processes is taken for proven after the four faults. -/
def prove_isolation : Machine :=
  if m.kernel_read_protection_faulted && m.kernel_write_protection_faulted &&
      m.cross_process_write_faulted && m.writable_code_faulted &&
      !m.process_isolation_receipt_emitted then
    { m with
      process_isolation_receipt_emitted := true
      kernel := { m.kernel with
        process_table := (List.range' 1 MAX_PROCESSES).foldl
          (fun table proof_pid => table.modify proof_pid (·.mark_process_isolation_proven))
          m.process_table } }
  else m

def block_reason (vector : UInt32) : String :=
  if vector = 13 then "gpf"
  else if vector = 14 then "page_fault"
  else if vector = 6 then "invalid_opcode"
  else "user_exception"

/-- `common_exception_handler` for an exception of user code, up to its `longjmp_to_kernel(1)`; one of
kernel code is a panic. -/
def common_exception_handler (vector cs : UInt32) : Option Machine :=
  if cs &&& 3 ≠ 3 then none
  else
    let m := { m with kernel := { m.kernel with active_block_reason := block_reason vector } }
    let pid := m.kernel.active_scheduled_pid
    if vector ≠ 14 ∨ pid = 0 then some m
    else
      match m.process_table.get pid with
      | none => none
      | some record =>
        (m.update pid fun record => (record.record_page_fault.mark_blocked 1 "page_fault").1).map
          fun m => (m.record_fault record.app_path).prove_isolation

/-! ## Steps -/

/-- The context that a call has saved, by its receipts. -/
def saved_context (receipts : List Receipt) : Option SavedContext :=
  receipts.findSome? fun
    | .context_save _ context => some context
    | _ => none

/-- What a step does with the processes. -/
inductive Event
  /-- A loader, with the process that it has queued. -/
  | command (queued : Option ProcessId)
  | run_app
  /-- A step of the scheduler: the selected process and its entry into user mode. -/
  | scheduled (selected : Option ProcessId) (entry : Option Entry)
  | user
  /-- A call that returns, of a process that a dynamic loader has admitted or not. -/
  | call (number : UInt32) (dynamic_loader_admitted : Bool)
  /-- A process has left user mode for the kernel, with the context that was saved. -/
  | left (pid : ProcessId) (saved : Option SavedContext)

/-- The physical address of a byte of a code slot. -/
def slot_address (L : Layout) (slot offset : ℕ) : ℕ := L.code_base slot + offset

/-- The code slots that user code can change are those in pages that its directory lets it write;
an application of `run` may be under the kernel's directory, which lets it write all of them. -/
def UserWrites (L : Layout) (slots : ℕ → ℕ → UInt8) : Prop :=
  ∀ slot offset, slots slot offset ≠ m.process_code_slots slot offset →
    match m.phase with
    | .slice _ => ∃ page, m.paging.user_page L m.kernel.active_cr3 page =
        some (slot_address L slot offset / PAGE_SIZE, true)
    | _ => True

/-- The pages of virtual addresses are physical ones in the low table, and the others are read in the
directory. -/
def physical_page (L : Layout) (page : ℕ) : Option ℕ :=
  if page < PAGE_DIRECTORY_ENTRIES then some page
  else (m.paging.user_page L m.kernel.active_cr3 page).map (·.1)

/-- The code slots follow what a call has written to its pointers. -/
def CallWrites (L : Layout) (memory : UInt32 → UInt8) (slots : ℕ → ℕ → UInt8) : Prop :=
  ∀ slot offset, slots slot offset ≠ m.process_code_slots slot offset →
    ∃ a : UInt32, memory a ≠ m.kernel.memory a ∧
      (m.physical_page L (a.toNat / PAGE_SIZE) = none ∨
        m.physical_page L (a.toNat / PAGE_SIZE) = some (slot_address L slot offset / PAGE_SIZE))

inductive Step (overflow_checks : Bool) (L : Layout) : Machine → Event → Machine → Prop
  | spawn {m m' : Machine} {app : Bytes} {queued : Option ProcessId} (idle : m.phase = .shell)
      (call : m.spawn_app_command L app = some (m', queued)) :
      Step overflow_checks L m (.command queued) m'
  | load {m m' : Machine} {app_name : Bytes} {queued : Option ProcessId} (idle : m.phase = .shell)
      (call : m.load_dynamic_app_command L app_name = some (m', queued)) :
      Step overflow_checks L m (.command queued) m'
  | staged {m m' : Machine} {queued : Option ProcessId} (idle : m.phase = .shell)
      (call : m.run_v39_staged_app L = some (m', queued)) :
      Step overflow_checks L m (.command queued) m'
  | run {m m' : Machine} {app : Bytes} (idle : m.phase = .shell)
      (call : m.run_app_command app = some m') : Step overflow_checks L m .run_app m'
  | schedule {m m' : Machine} {selected : Option ProcessId} {entry : Option Entry}
      (idle : m.phase = .shell) (call : m.scheduler_step = some (m', selected, entry))
      (memory : UInt32 → UInt8) :
      Step overflow_checks L m (.scheduled selected entry)
        { m' with kernel := { m'.kernel with memory := memory } }
  | user {m : Machine} (busy : m.phase ≠ .shell) (memory : UInt32 → UInt8) {slots : ℕ → ℕ → UInt8}
      (writes : m.UserWrites L slots) :
      Step overflow_checks L m .user
        { m with kernel := { m.kernel with memory := memory }, process_code_slots := slots }
  | returned {m : Machine} {regs : SyscallRegisters} {eax : UInt32} {receipts : List Receipt}
      {k : KernelState} {slots : ℕ → ℕ → UInt8} (busy : m.phase ≠ .shell)
      (call : handle_syscall overflow_checks m.kernel regs = .returned eax receipts k)
      (writes : m.CallWrites L k.memory slots) :
      Step overflow_checks L m (.call regs.eax m.kernel.dynamic_loader_admitted)
        { m with kernel := k, process_code_slots := slots }
  | left {m m' : Machine} {regs : SyscallRegisters} {exit_code : UInt32} {receipts : List Receipt}
      {k : KernelState} {pid : ProcessId} (busy : m.phase.pid = some pid)
      (call : handle_syscall overflow_checks m.kernel regs = .left exit_code receipts k)
      (jump : ({ m with kernel := k } : Machine).longjmp_to_kernel exit_code = some m') :
      Step overflow_checks L m (.left pid (saved_context receipts)) m'
  | tick {m m' : Machine} {regs : SyscallRegisters}
      (call : m.handle_timer_interrupt regs = some (m', none)) : Step overflow_checks L m .user m'
  | preempted {m m' m'' : Machine} {regs : SyscallRegisters} {context : SavedContext} {pid : ProcessId}
      (busy : m.phase.pid = some pid)
      (call : m.handle_timer_interrupt regs = some (m', some context))
      (jump : m'.longjmp_to_kernel PREEMPT_EXIT_CODE = some m'') :
      Step overflow_checks L m (.left pid (some context)) m''
  | faulted {m m' m'' : Machine} {vector cs : UInt32} {pid : ProcessId}
      (busy : m.phase.pid = some pid)
      (call : m.common_exception_handler vector cs = some m')
      (jump : m'.longjmp_to_kernel 1 = some m'') : Step overflow_checks L m (.left pid none) m''

/-! ## Runs -/

/-- The machine in front of the shell's loop: the mounted boot files, and what `v39_load_path` has
staged from a disk. -/
def boot (entries : Option (List BogFsEntry)) (kernel_cr3 : ℕ) (paging_enabled : Bool)
    (d : Option Disk) : Machine :=
  let m : Machine :=
    { kernel :=
        { active_scheduled_pid := 0
          active_cr3 := kernel_cr3
          active_block_reason := "none"
          process_table := .new
          paging := Paging.initial.init_global_paging
          memory := fun _ => 0
          bogfs_entries := entries
          verified_app_count := 1
          rejected_app_count := 1
          last_receipt := ⟨false, ⟨zeros 1024, length_zero_buffer⟩, 0⟩
          ipc := .initial
          writable_bogfs_files := .initial }
      scheduler := .new
      phase := .shell
      paging_enabled := paging_enabled
      process_code_slots := fun _ _ => 0
      kernel_read_protection_faulted := false
      kernel_write_protection_faulted := false
      cross_process_write_faulted := false
      writable_code_faulted := false
      process_isolation_receipt_emitted := false
      v39_staging := ⟨⟨[], by decide⟩, Digest.zero⟩
      v39_execution_pending := false
      v39_execution_done := false }
  match d with
  | none => m
  | some d =>
    match v39_mount d with
    | .ok state => m.v39_load_path d state V39_APP_PATH
    | .error _ => m

/-- The events of a run and the machine after it. -/
inductive Runs (overflow_checks : Bool) (L : Layout) (start : Machine) : List Event → Machine → Prop
  | nil : Runs overflow_checks L start [] start
  | step {events : List Event} {event : Event} {m m' : Machine}
      (run : Runs overflow_checks L start events m) (step : Step overflow_checks L m event m') :
      Runs overflow_checks L start (events ++ [event]) m'

end Machine

end Bogbin.Kernel
