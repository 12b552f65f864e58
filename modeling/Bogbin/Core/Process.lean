import Bogbin.Core.Sha256

/-!
# Processes and the scheduler of the kernel core

The process record with its `mark_*` transitions, the process table and the run queue.  Each
transition returns the record and whether it was allowed.  Addresses are natural numbers; the kernel
keeps them below `2 ^ 32`.  The arrays of the table and of the queue are the lists of their slots in
use.
-/

namespace Bogbin.Core

open Buffer

abbrev ProcessId := ℕ

def MAX_PROCESSES : ℕ := 38
def MAX_PROCESS_PATH : ℕ := 128
def PAGE_SIZE : ℕ := 4096

/-- `core::str::from_utf8`: the bytes themselves, when they are valid. -/
def from_utf8 (b : Bytes) : Option Bytes :=
  if ByteArray.validateUTF8 ⟨b.toArray⟩ then some b else none

structure SavedContext where
  eip : UInt32
  esp : UInt32
  eflags : UInt32
  eax : UInt32
  ebx : UInt32
  ecx : UInt32
  edx : UInt32
  esi : UInt32
  edi : UInt32
  ebp : UInt32
  valid : Bool
  deriving DecidableEq, Repr

def SavedContext.empty : SavedContext := ⟨0, 0, 0, 0, 0, 0, 0, 0, 0, 0, false⟩

structure ProcessExecutionMemory where
  code_base : ℕ
  code_length : ℕ
  stack_base : ℕ
  stack_top : ℕ
  slot_index : ℕ
  assigned : Bool
  deriving DecidableEq, Repr

def ProcessExecutionMemory.unassigned : ProcessExecutionMemory := ⟨0, 0, 0, 0, 0, false⟩

/-! ## Address spaces -/

inductive AddressSpaceVerificationStatus
  | Unassigned
  | MetadataVerified
  | KernelPagingEnabled
  | PerProcessCr3IdentityMap
  | KernelProtectedProcessIdentity
  | PrivateUserMappings
  | HardwareVerified
  | Faulted
  deriving DecidableEq, Repr

inductive PageDirectoryKind
  | Unassigned
  | GlobalShared
  | PerProcessIdentity
  | PerProcessProtectedKernel
  | PerProcessIsolated
  deriving DecidableEq, Repr

structure AddressSpaceMetadata where
  id : ℕ
  cr3 : ℕ
  page_directory_kind : PageDirectoryKind
  user_code_base : ℕ
  user_code_pages : ℕ
  user_code_phys_base : ℕ
  user_stack_base : ℕ
  user_stack_pages : ℕ
  user_stack_phys_base : ℕ
  kernel_mapping_base : ℕ
  kernel_mapping_pages : ℕ
  kernel_supervisor_only : Bool
  paging_enabled : Bool
  process_isolation_enforced : Bool
  kernel_protection_enforced : Bool
  user_code_user_accessible : Bool
  user_stack_user_accessible : Bool
  private_user_mappings : Bool
  writable_code_blocked : Bool
  cross_process_isolation_enforced : Bool
  address_space_hash : Digest
  verification_status : AddressSpaceVerificationStatus
  fault_count : ℕ
  deriving DecidableEq

/-- The addition saturates at the width of a `usize`. -/
def pages_for (byte_length : ℕ) : ℕ := min (byte_length + (PAGE_SIZE - 1)) (2 ^ 32 - 1) / PAGE_SIZE

/-- A flag as a byte, `flag as u8`. -/
def flag_byte (b : Bool) : UInt8 := if b then 1 else 0

/-- `kind as u32` -/
def PageDirectoryKind.index : PageDirectoryKind → ℕ
  | .Unassigned => 0
  | .GlobalShared => 1
  | .PerProcessIdentity => 2
  | .PerProcessProtectedKernel => 3
  | .PerProcessIsolated => 4

namespace AddressSpaceMetadata

def unassigned : AddressSpaceMetadata where
  id := 0
  cr3 := 0
  page_directory_kind := .Unassigned
  user_code_base := 0
  user_code_pages := 0
  user_code_phys_base := 0
  user_stack_base := 0
  user_stack_pages := 0
  user_stack_phys_base := 0
  kernel_mapping_base := 0
  kernel_mapping_pages := 0
  kernel_supervisor_only := false
  paging_enabled := false
  process_isolation_enforced := false
  kernel_protection_enforced := false
  user_code_user_accessible := false
  user_stack_user_accessible := false
  private_user_mappings := false
  writable_code_blocked := false
  cross_process_isolation_enforced := false
  address_space_hash := Digest.zero
  verification_status := .Unassigned
  fault_count := 0

def compute_hash (m : AddressSpaceMetadata) (app_hash : Digest) : Digest :=
  sha256 <| beBytes 4 m.id ++ beBytes 4 m.cr3 ++ beBytes 4 m.user_code_base ++
    beBytes 4 m.user_code_pages ++ beBytes 4 m.user_stack_base ++ beBytes 4 m.user_stack_pages ++
    beBytes 4 m.kernel_mapping_base ++ beBytes 4 m.kernel_mapping_pages ++
    [flag_byte m.kernel_supervisor_only, flag_byte m.paging_enabled,
      flag_byte m.process_isolation_enforced, flag_byte m.kernel_protection_enforced] ++
    beBytes 4 m.page_directory_kind.index ++
    [flag_byte m.user_code_user_accessible, flag_byte m.user_stack_user_accessible,
      flag_byte m.writable_code_blocked, flag_byte m.cross_process_isolation_enforced,
      flag_byte m.private_user_mappings] ++
    beBytes 4 m.user_code_phys_base ++ beBytes 4 m.user_stack_phys_base ++ app_hash.val

def scaffolded (id : ℕ) (memory : ProcessExecutionMemory) (app_hash : Digest) :
    AddressSpaceMetadata :=
  let metadata : AddressSpaceMetadata := { unassigned with
    id := id
    user_code_base := memory.code_base
    user_code_pages := pages_for memory.code_length
    user_code_phys_base := memory.code_base
    user_stack_base := memory.stack_base
    user_stack_pages := pages_for (memory.stack_top - memory.stack_base)
    user_stack_phys_base := memory.stack_base
    verification_status := .MetadataVerified }
  { metadata with address_space_hash := metadata.compute_hash app_hash }

/-- Recompute the hash after a change. -/
def rehash (m : AddressSpaceMetadata) (app_hash : Digest) : AddressSpaceMetadata :=
  { m with address_space_hash := m.compute_hash app_hash }

def mark_global_paging (m : AddressSpaceMetadata) (kernel_cr3 : ℕ) (app_hash : Digest) :
    AddressSpaceMetadata :=
  if kernel_cr3 = 0 ∨ m.verification_status ≠ .MetadataVerified then m
  else
    rehash { m with
      cr3 := kernel_cr3
      page_directory_kind := .GlobalShared
      paging_enabled := true
      verification_status := .KernelPagingEnabled } app_hash

def mark_per_process_identity (m : AddressSpaceMetadata) (cr3 : ℕ) (app_hash : Digest) :
    AddressSpaceMetadata :=
  if cr3 = 0 ∨ (m.verification_status ≠ .MetadataVerified ∧
      m.verification_status ≠ .KernelPagingEnabled) then m
  else
    rehash { m with
      cr3 := cr3
      page_directory_kind := .PerProcessIdentity
      paging_enabled := true
      process_isolation_enforced := false
      verification_status := .PerProcessCr3IdentityMap } app_hash

def mark_kernel_protected_identity (m : AddressSpaceMetadata) (cr3 : ℕ) (app_hash : Digest) :
    AddressSpaceMetadata :=
  if cr3 = 0 ∨ m.verification_status ≠ .PerProcessCr3IdentityMap then m
  else
    rehash { m with
      cr3 := cr3
      page_directory_kind := .PerProcessProtectedKernel
      kernel_supervisor_only := true
      paging_enabled := true
      process_isolation_enforced := false
      kernel_protection_enforced := true
      user_code_user_accessible := true
      user_stack_user_accessible := true
      private_user_mappings := false
      writable_code_blocked := false
      cross_process_isolation_enforced := false
      verification_status := .KernelProtectedProcessIdentity } app_hash

def mark_private_user_mappings (m : AddressSpaceMetadata) (cr3 : ℕ) (app_hash : Digest) :
    AddressSpaceMetadata :=
  if cr3 = 0 ∨ m.verification_status ≠ .KernelProtectedProcessIdentity then m
  else
    rehash { m with
      cr3 := cr3
      page_directory_kind := .PerProcessIsolated
      kernel_supervisor_only := true
      paging_enabled := true
      process_isolation_enforced := false
      kernel_protection_enforced := true
      user_code_user_accessible := true
      user_stack_user_accessible := true
      private_user_mappings := true
      writable_code_blocked := false
      cross_process_isolation_enforced := false
      verification_status := .PrivateUserMappings } app_hash

def mark_process_isolation_proven (m : AddressSpaceMetadata) (app_hash : Digest) :
    AddressSpaceMetadata :=
  if !m.private_user_mappings || !m.kernel_protection_enforced then m
  else
    rehash { m with
      process_isolation_enforced := true
      writable_code_blocked := true
      cross_process_isolation_enforced := true
      verification_status :=
        if m.verification_status ≠ .Faulted then .HardwareVerified else m.verification_status }
      app_hash

end AddressSpaceMetadata

/-! ## Process records -/

inductive ProcessState
  | Created
  | Verified
  | Ready
  | Scheduled
  | Running
  | Yielded
  | Preempted
  | Exited
  | Blocked
  | Rejected
  | Panicked
  deriving DecidableEq, Repr

inductive ProcessExitStatus
  | None
  | Exited (code : Int32)
  | Blocked (code : Int32) (reason : String)
  | Rejected (reason : String)
  | Panicked (reason : String)
  deriving DecidableEq

structure ProcessRecord where
  pid : ProcessId
  path : Bytes
  app_hash : Option Digest
  state : ProcessState
  exit_status : ProcessExitStatus
  context : SavedContext
  execution_memory : ProcessExecutionMemory
  address_space : AddressSpaceMetadata
  dynamic_loader_admitted : Bool
  state_created : Bool
  state_verified : Bool
  state_ready : Bool
  state_scheduled : Bool
  state_running : Bool
  state_yielded : Bool
  state_preempted : Bool
  state_exited : Bool
  state_blocked : Bool
  state_rejected : Bool
  state_panicked : Bool
  deriving DecidableEq

namespace ProcessRecord

def new (pid : ProcessId) (app_path : Bytes) : ProcessRecord where
  pid := pid
  path := app_path.take MAX_PROCESS_PATH
  app_hash := none
  state := .Created
  exit_status := .None
  context := .empty
  execution_memory := .unassigned
  address_space := .unassigned
  dynamic_loader_admitted := false
  state_created := true
  state_verified := false
  state_ready := false
  state_scheduled := false
  state_running := false
  state_yielded := false
  state_preempted := false
  state_exited := false
  state_blocked := false
  state_rejected := false
  state_panicked := false

def app_path (r : ProcessRecord) : Bytes := (from_utf8 r.path).getD []

def mark_dynamic_loader_admitted (r : ProcessRecord) : ProcessRecord :=
  { r with dynamic_loader_admitted := true }

def mark_verified (r : ProcessRecord) (app_hash : Digest) : ProcessRecord × Bool :=
  if r.state ≠ .Created then (r, false)
  else ({ r with app_hash := some app_hash, state := .Verified, state_verified := true }, true)

def mark_running (r : ProcessRecord) : ProcessRecord × Bool :=
  if r.state ≠ .Verified ∧ r.state ≠ .Scheduled then (r, false)
  else ({ r with state := .Running, state_running := true }, true)

def mark_ready (r : ProcessRecord) : ProcessRecord × Bool :=
  if r.state ≠ .Verified ∧ r.state ≠ .Yielded ∧ r.state ≠ .Preempted then (r, false)
  else ({ r with state := .Ready, state_ready := true }, true)

def mark_scheduled (r : ProcessRecord) : ProcessRecord × Bool :=
  if r.state ≠ .Ready then (r, false)
  else ({ r with state := .Scheduled, state_scheduled := true }, true)

def mark_yielded (r : ProcessRecord) : ProcessRecord × Bool :=
  if r.state ≠ .Running then (r, false)
  else ({ r with state := .Yielded, state_yielded := true }, true)

def mark_preempted (r : ProcessRecord) : ProcessRecord × Bool :=
  if r.state ≠ .Running then (r, false)
  else ({ r with state := .Preempted, state_preempted := true }, true)

def save_context (r : ProcessRecord) (context : SavedContext) : ProcessRecord × Bool :=
  if r.state ≠ .Running ∨ !context.valid then (r, false)
  else ({ r with context := context }, true)

def assign_execution_memory (r : ProcessRecord) (memory : ProcessExecutionMemory) :
    ProcessRecord × Bool :=
  if memory.assigned ∧ !r.execution_memory.assigned then
    ({ r with execution_memory := memory }, true)
  else (r, false)

def assign_scaffolded_address_space (r : ProcessRecord) : ProcessRecord × Bool :=
  if r.address_space.verification_status ≠ .Unassigned ∨ !r.execution_memory.assigned then
    (r, false)
  else
    match r.app_hash with
    | some app_hash =>
      ({ r with address_space := .scaffolded r.pid r.execution_memory app_hash }, true)
    | none => (r, false)

def record_page_fault (r : ProcessRecord) : ProcessRecord :=
  { r with address_space := { r.address_space with
      fault_count := saturating_succ r.address_space.fault_count
      verification_status := .Faulted } }

/-- A transition of the address space of a record whose application hash is known. -/
def mark_address_space (r : ProcessRecord)
    (mark : AddressSpaceMetadata → Digest → AddressSpaceMetadata) : ProcessRecord :=
  match r.app_hash with
  | some app_hash => { r with address_space := mark r.address_space app_hash }
  | none => r

def mark_global_paging (r : ProcessRecord) (kernel_cr3 : ℕ) : ProcessRecord :=
  r.mark_address_space (·.mark_global_paging kernel_cr3 ·)

def mark_per_process_identity (r : ProcessRecord) (cr3 : ℕ) : ProcessRecord :=
  r.mark_address_space (·.mark_per_process_identity cr3 ·)

def mark_kernel_protected_identity (r : ProcessRecord) (cr3 : ℕ) : ProcessRecord :=
  r.mark_address_space (·.mark_kernel_protected_identity cr3 ·)

def mark_private_user_mappings (r : ProcessRecord) (cr3 : ℕ) : ProcessRecord :=
  r.mark_address_space (·.mark_private_user_mappings cr3 ·)

def mark_process_isolation_proven (r : ProcessRecord) : ProcessRecord :=
  r.mark_address_space (·.mark_process_isolation_proven ·)

def restore_eligible (r : ProcessRecord) : Bool :=
  r.state = .Scheduled ∧ r.context.valid ∧ r.execution_memory.assigned

def mark_exited (r : ProcessRecord) (code : Int32) : ProcessRecord × Bool :=
  if r.state ≠ .Running then (r, false)
  else ({ r with state := .Exited, exit_status := .Exited code, state_exited := true }, true)

def mark_blocked (r : ProcessRecord) (code : Int32) (reason : String) : ProcessRecord × Bool :=
  if r.state ≠ .Running then (r, false)
  else
    ({ r with state := .Blocked, exit_status := .Blocked code reason, state_blocked := true },
      true)

def mark_rejected (r : ProcessRecord) (reason : String) : ProcessRecord × Bool :=
  if r.state ≠ .Created ∧ r.state ≠ .Verified then (r, false)
  else ({ r with state := .Rejected, exit_status := .Rejected reason, state_rejected := true }, true)

end ProcessRecord

/-! ## Process table -/

structure ProcessTable where
  records : List ProcessRecord
  next_pid : ProcessId
  deriving DecidableEq

namespace ProcessTable

def new : ProcessTable := ⟨[], 1⟩

def create (t : ProcessTable) (app_path : Bytes) : Option (ProcessTable × ProcessId) :=
  if t.records.length = MAX_PROCESSES then none
  else
    some (⟨t.records ++ [.new t.next_pid app_path], saturating_succ t.next_pid⟩, t.next_pid)

def get (t : ProcessTable) (pid : ProcessId) : Option ProcessRecord :=
  t.records.find? fun record => record.pid = pid

/-- Change the first record of a pid, as a write through `get_mut` does. -/
def modify (t : ProcessTable) (pid : ProcessId) (f : ProcessRecord → ProcessRecord) :
    ProcessTable :=
  match t.records.findIdx? fun record => record.pid = pid with
  | some i => { t with records := t.records.modify i f }
  | none => t

end ProcessTable

/-! ## Scheduler -/

structure Scheduler where
  current_pid : Option ProcessId
  run_queue : List ProcessId
  schedule_step : ℕ
  last_selected_pid : Option ProcessId
  timer_ticks : ℕ
  quantum_ticks : ℕ
  preemption_count : ℕ
  last_preempted_pid : Option ProcessId
  deriving DecidableEq

namespace Scheduler

def new : Scheduler := ⟨none, [], 0, none, 0, 0, 0, none⟩

def enqueue (s : Scheduler) (pid : ProcessId) (table : ProcessTable) : Scheduler × Bool :=
  if s.run_queue.length = MAX_PROCESSES ∨ pid ∈ s.run_queue ∨
      (table.get pid).map (·.state) ≠ some .Ready then (s, false)
  else ({ s with run_queue := s.run_queue ++ [pid] }, true)

/-- The loop of `select_next`: pop pids until one can be scheduled. -/
def pop_ready (table : ProcessTable) : List ProcessId → List ProcessId × ProcessTable × Option ProcessId
  | [] => ([], table, none)
  | pid :: rest =>
    match table.get pid with
    | some record =>
      if record.mark_scheduled.2 then
        (rest, table.modify pid fun r => r.mark_scheduled.1, some pid)
      else pop_ready table rest
    | none => pop_ready table rest

def select_next (s : Scheduler) (table : ProcessTable) :
    Scheduler × ProcessTable × Option ProcessId :=
  let (run_queue, table, selected) := pop_ready table s.run_queue
  ({ s with
      schedule_step := saturating_succ s.schedule_step
      current_pid := selected
      run_queue := run_queue
      last_selected_pid := selected.or s.last_selected_pid }, table, selected)

def finish_current (s : Scheduler) : Scheduler := { s with current_pid := none }

end Scheduler

end Bogbin.Core
