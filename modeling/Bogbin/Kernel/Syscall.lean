import Bogbin.Kernel.App
import Bogbin.Kernel.Paging

/-!
# The kernel under a system call

The registers of a call, the statics that calls read and write, and what a call does: it returns a
result in `eax`, it leaves for the scheduler, or it panics.  The serial receipts of a call are data.
`memory` is what the kernel reads and writes through a pointer under the active page directory; the
statics of the kernel are not part of it.
-/

namespace Bogbin.Kernel

open Buffer Bogbin.Core

structure SyscallRegisters where
  edi : UInt32
  esi : UInt32
  ebp : UInt32
  esp : UInt32
  ebx : UInt32
  edx : UInt32
  ecx : UInt32
  eax : UInt32
  eip : UInt32
  cs : UInt32
  eflags : UInt32
  user_esp : UInt32
  user_ss : UInt32
  deriving DecidableEq, Repr

def SYSCALL_V2_EXIT : UInt32 := 6
def SYSCALL_V2_YIELD : UInt32 := 7
def SYSCALL_V2_WRITE_CONSOLE : UInt32 := 8
def SYSCALL_V2_GETPID : UInt32 := 9
def SYSCALL_V2_PROCESS_INFO : UInt32 := 10
def SYSCALL_V2_VERIFY_HASH : UInt32 := 11
def SYSCALL_V2_CLAIM : UInt32 := 12
def SYSCALL_V2_IPC_REGISTER_CHANNEL : UInt32 := 13
def SYSCALL_V2_IPC_SEND : UInt32 := 14
def SYSCALL_V2_IPC_RECV : UInt32 := 15
def SYSCALL_V2_IPC_POLL : UInt32 := 16
def SYSCALL_V2_BOGFS_WRITE : UInt32 := 17
def SYSCALL_V2_BOGFS_READ : UInt32 := 18
def SYSCALL_V2_BOGFS_STAT : UInt32 := 19
def SYSCALL_V2_MAX_BUFFER : ℕ := 1024
def SYSCALL_V2_MAX_OUTPUT : ℕ := 256
def SYSCALL_V2_PROCESS_INFO_SIZE : ℕ := 16
def SYSCALL_ERR_INVALID_SYSCALL : Int32 := -1
def SYSCALL_ERR_INVALID_POINTER : Int32 := -2
def SYSCALL_ERR_INVALID_LENGTH : Int32 := -3
def SYSCALL_ERR_PERMISSION_DENIED : Int32 := -4
def SYSCALL_ERR_UNAVAILABLE : Int32 := -5
def SYSCALL_ERR_VERIFICATION_FAILED : Int32 := -6

/-! ## Statics -/

abbrev IPC_MAX_CHANNELS : ℕ := 4
def IPC_MAX_MESSAGE_SIZE : ℕ := 64
def IPC_MAX_QUEUE_DEPTH : ℕ := 2

structure IpcMessage where
  message_id : UInt32
  from_pid : ProcessId
  payload_length : ℕ
  payload_hash : Digest
  payload : {b : Bytes // b.length = IPC_MAX_MESSAGE_SIZE}
  deriving DecidableEq

def IpcMessage.empty : IpcMessage :=
  ⟨0, 0, 0, Digest.zero, ⟨zeros IPC_MAX_MESSAGE_SIZE, length_zeros _⟩⟩

structure IpcChannel where
  used : Bool
  channel_id : UInt32
  owner_pid : ProcessId
  peer_pid : ProcessId
  max_message_size : ℕ
  max_queue_depth : ℕ
  queue_depth : ℕ
  messages : {l : List IpcMessage // l.length = IPC_MAX_QUEUE_DEPTH}
  deriving DecidableEq

/-- `[IpcMessage::empty(); IPC_MAX_QUEUE_DEPTH]` -/
def empty_messages : {l : List IpcMessage // l.length = IPC_MAX_QUEUE_DEPTH} :=
  ⟨List.replicate IPC_MAX_QUEUE_DEPTH .empty, List.length_replicate⟩

def IpcChannel.empty : IpcChannel := ⟨false, 0, 0, 0, 0, 0, 0, empty_messages⟩

/-- The channels and the next ids. -/
structure Ipc where
  channels : Fin IPC_MAX_CHANNELS → IpcChannel
  next_channel_id : UInt32
  next_message_id : UInt32

def Ipc.initial : Ipc := ⟨fun _ => .empty, 1, 1⟩

abbrev WRITABLE_BOGFS_MAX_FILES : ℕ := 4
def WRITABLE_BOGFS_MAX_FILE_SIZE : ℕ := 64
def WRITABLE_BOGFS_MAX_PATH_SIZE : ℕ := 32
def WRITABLE_BOGFS_TOTAL_CAPACITY : ℕ := 96
def WRITABLE_BOGFS_STAT_SIZE : ℕ := 40

def SHA256_EMPTY : Digest :=
  ⟨[0xe3, 0xb0, 0xc4, 0x42, 0x98, 0xfc, 0x1c, 0x14, 0x9a, 0xfb, 0xf4, 0xc8, 0x99, 0x6f, 0xb9, 0x24,
    0x27, 0xae, 0x41, 0xe4, 0x64, 0x9b, 0x93, 0x4c, 0xa4, 0x95, 0x99, 0x1b, 0x78, 0x52, 0xb8, 0x55],
    rfl⟩

structure WritableBogFsFile where
  path : Bytes
  writable : Bool
  force_hash_failure : Bool
  length : ℕ
  version : UInt32
  hash : Digest
  data : {b : Bytes // b.length = WRITABLE_BOGFS_MAX_FILE_SIZE}
  deriving DecidableEq

def WritableBogFsFile.empty (path : Bytes) (writable force_hash_failure : Bool) :
    WritableBogFsFile :=
  ⟨path, writable, force_hash_failure, 0, 0, SHA256_EMPTY,
    ⟨zeros WRITABLE_BOGFS_MAX_FILE_SIZE, length_zeros _⟩⟩

abbrev WritableBogfs := Fin WRITABLE_BOGFS_MAX_FILES → WritableBogFsFile

def WritableBogfs.initial : WritableBogfs :=
  ![.empty (ascii "/data/shared.bin") true false, .empty (ascii "/data/fill.bin") true false,
    .empty (ascii "/data/readonly.bin") false false, .empty (ascii "/data/hashfail.bin") true true]

/-- The last receipt that a legacy application emitted. -/
structure LastReceipt where
  available : Bool
  buf : {b : Bytes // b.length = 1024}
  len : ℕ
  deriving DecidableEq

theorem length_zero_buffer : (zeros 1024).length = 1024 := length_zeros 1024

structure KernelState where
  active_scheduled_pid : ProcessId
  active_cr3 : ℕ
  active_block_reason : String
  process_table : ProcessTable
  paging : Paging
  memory : UInt32 → UInt8
  bogfs_entries : Option (List BogFsEntry)
  verified_app_count : ℕ
  rejected_app_count : ℕ
  last_receipt : LastReceipt
  ipc : Ipc
  writable_bogfs_files : WritableBogfs

/-! ## Receipts and outcomes -/

/-- What the `emit_*_receipt` functions write to the serial port, in the order of their
arguments. -/
inductive Receipt
  | syscall (pid : Option ProcessId) (app_path : Option Bytes) (number : UInt32)
      (args : List UInt32) (result : Int32) (status reject_reason : String)
  | context_save (pid : ProcessId) (context : SavedContext)
  | user_output (pid : ProcessId) (app_path : Option Bytes) (payload : Bytes)
  | verify_hash (pid : ProcessId) (payload_hash expected_hash : Bytes) (matches_ : Bool)
  | claim (pid : Option ProcessId) (claim_hash : Digest) (length : ℕ) (accepted : Bool)
      (reject_reason : String)
  | ipc_channel (pid : ProcessId) (app_path : Option Bytes) (channel_id : Option UInt32)
      (peer_pid : Option ProcessId) (max_message_size max_queue_depth : ℕ)
      (status reject_reason : String)
  | ipc_send (from_pid : ProcessId) (to_pid : Option ProcessId) (channel_id : UInt32)
      (message_id : Option UInt32) (payload_length : ℕ) (payload_hash : Option Digest)
      (queue_depth_after : ℕ) (status reject_reason : String)
  | ipc_recv (to_pid : ProcessId) (from_pid : Option ProcessId) (channel_id : UInt32)
      (message_id : Option UInt32) (output_ptr : UInt32) (output_len payload_length : ℕ)
      (payload_hash : Option Digest) (queue_depth_after : ℕ) (status reject_reason : String)
  | ipc_poll (pid : ProcessId) (channel_id : UInt32) (queue_depth : ℕ)
      (status reject_reason : String)
  | writable_bogfs (operation : String) (pid : ProcessId) (path : Bytes) (length : ℕ)
      (content_hash : Option Digest) (old_version : Option UInt32) (old_hash : Option Digest)
      (new_version : Option UInt32) (new_hash : Option Digest) (status reject_reason : String)
  | text (bytes : Bytes)
  deriving DecidableEq

/-- What a call does: it returns with `eax`, it leaves through `longjmp_to_kernel`, or it panics. -/
inductive SyscallOutcome
  | returned (eax : UInt32) (receipts : List Receipt) (kernel : KernelState)
  | left (exit_code : UInt32) (receipts : List Receipt) (kernel : KernelState)
  | panicked

/-- A refusal: the receipts in front of the syscall receipt, its result and its reason. -/
structure Rejection where
  receipts : List Receipt
  result : Int32
  reject_reason : String

namespace KernelState

variable (k : KernelState)

/-- `PROCESS_TABLE.get(pid).map(|record| record.app_path())` -/
def app_path (pid : ProcessId) : Option Bytes :=
  (k.process_table.get pid).map (·.app_path)

def syscall_receipt (regs : SyscallRegisters) (result : Int32) (status reject_reason : String) :
    Receipt :=
  let pid := if k.active_scheduled_pid = 0 then none else some k.active_scheduled_pid
  .syscall pid (pid.bind k.app_path) regs.eax [regs.ebx, regs.ecx, regs.edx, regs.esi] result status
    reject_reason

def reject (regs : SyscallRegisters) (r : Rejection) : SyscallOutcome :=
  .returned r.result.toUInt32
    (r.receipts ++ [k.syscall_receipt regs r.result "rejected" r.reject_reason]) k

/-- Accept a call with a result, after its changes to the kernel. -/
def accept (regs : SyscallRegisters) (receipts : List Receipt) (result : UInt32) : SyscallOutcome :=
  .returned result (receipts ++ [k.syscall_receipt regs result.toInt32 "accepted" "none"]) k

/-- The checks of a call, then the call. -/
def attempt {α : Type} (regs : SyscallRegisters) (checks : Except Rejection α)
    (call : α → SyscallOutcome) : SyscallOutcome :=
  match checks with
  | .ok a => call a
  | .error r => k.reject regs r

/-! ## User memory -/

/-- The entry that maps a user page of a slot. -/
def user_table_entry (slot_index page : ℕ) : ℕ :=
  if page < PAGE_DIRECTORY_ENTRIES then k.paging.low_page_tables slot_index page
  else if page >>> 10 = PRIVATE_USER_TEST_BASE >>> 22 then
    k.paging.private_page_tables slot_index (page &&& 0x3ff)
  else 0

def validate_active_user_range (address : UInt32) (length : ℕ) (writable : Bool) :
    Except String ProcessId := do
  let pid := k.active_scheduled_pid
  reject_if (pid = 0) "no_active_process"
  reject_if (length = 0) "invalid_length"
  let last := address.toNat + (length - 1)
  reject_if (2 ^ 32 ≤ last) "invalid_pointer"
  let slot_index := pid - 1
  reject_if (MAX_PROCESSES ≤ slot_index) "invalid_pointer"
  let record ← ok_or (k.process_table.get pid) "invalid_pointer"
  reject_if (record.address_space.cr3 = 0 ∨ record.address_space.cr3 ≠ k.active_cr3 ∨
    !record.address_space.process_isolation_enforced) "invalid_pointer"
  let first_page := address.toNat / PAGE_SIZE
  let last_page := last / PAGE_SIZE
  (List.range' first_page (last_page + 1 - first_page)).forM fun page => do
    let entry := k.user_table_entry slot_index page
    reject_if (!has_flag entry PAGE_PRESENT || !has_flag entry PAGE_USER) "invalid_pointer"
    reject_if (writable && !has_flag entry PAGE_WRITABLE) "permission_denied"
  .ok pid

/-- `validate_active_user_range` in a call that answers a bad range with an invalid pointer. -/
def user_range (address : UInt32) (length : ℕ) (writable : Bool)
    (receipts : String → List Receipt) : Except Rejection ProcessId :=
  (k.validate_active_user_range address length writable).mapError fun reason =>
    ⟨receipts reason, SYSCALL_ERR_INVALID_POINTER, reason⟩

/-- The bytes at a pointer. -/
def read_memory (address : UInt32) (length : ℕ) : Bytes :=
  (List.range length).map fun i => k.memory (address + UInt32.ofNat i)

/-- Copy bytes to a pointer. -/
def write_memory (address : UInt32) (bytes : Bytes) : KernelState :=
  { k with memory := fun a => bytes.getD (a - address).toNat (k.memory a) }

/-! ## The callers of channels and files -/

/-- The active process, which a dynamic loader must have admitted: `active_ipc_pid` and
`active_writable_bogfs_pid`, which are the same checks. -/
def active_admitted_pid : Except String ProcessId := do
  reject_if (k.active_scheduled_pid = 0) "no_active_process"
  let record ← ok_or (k.process_table.get k.active_scheduled_pid) "no_active_process"
  reject_if (!record.dynamic_loader_admitted || record.address_space.cr3 ≠ k.active_cr3)
    "unauthorized"
  .ok k.active_scheduled_pid

def active_ipc_pid : Except String ProcessId := k.active_admitted_pid

def active_writable_bogfs_pid : Except String ProcessId := k.active_admitted_pid

end KernelState

end Bogbin.Kernel
