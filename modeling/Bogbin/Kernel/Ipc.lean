import Bogbin.Kernel.Syscall
import Bogbin.Library.ArrayQueue

/-!
# The channels between processes

The four calls on channels.  Each is its checks, which read the kernel only, and what it does when
they pass.
-/

namespace Bogbin.Kernel

open Buffer Bogbin.Core ArrayQueue

namespace KernelState

variable (k : KernelState)

def ipc_peer_is_eligible (pid : ProcessId) : Bool :=
  match k.process_table.get pid with
  | some record =>
    record.dynamic_loader_admitted &&
      !(record.state = .Exited ∨ record.state = .Blocked ∨ record.state = .Rejected ∨
        record.state = .Panicked)
  | none => false

def ipc_channel_index (channel_id : UInt32) : Option (Fin IPC_MAX_CHANNELS) :=
  (List.finRange IPC_MAX_CHANNELS).find? fun index =>
    (k.ipc.channels index).used && (k.ipc.channels index).channel_id = channel_id

/-- The first unused channel. -/
def ipc_free_index : Option (Fin IPC_MAX_CHANNELS) :=
  (List.finRange IPC_MAX_CHANNELS).find? fun index => !(k.ipc.channels index).used

/-- `active_ipc_pid` in a call that a failure forbids. -/
def ipc_caller : Except Rejection ProcessId :=
  k.active_ipc_pid.mapError fun reason => ⟨[], SYSCALL_ERR_PERMISSION_DENIED, reason⟩

/-! ## Registering a channel -/

/-- The peer of a new channel; 0 stands for the caller itself. -/
def ipc_peer (pid : ProcessId) (regs : SyscallRegisters) : ProcessId :=
  if regs.ebx = 0 then pid else regs.ebx.toNat

def ipc_register_checks (regs : SyscallRegisters) :
    Except Rejection (ProcessId × Fin IPC_MAX_CHANNELS) := do
  let pid ← k.ipc_caller
  let peer_pid := ipc_peer pid regs
  let max_message_size := regs.ecx.toNat
  let max_queue_depth := regs.edx.toNat
  let refuse (result : Int32) (reason : String) : Rejection :=
    ⟨[.ipc_channel pid (k.app_path pid) none (some peer_pid) max_message_size max_queue_depth
      "rejected" reason], result, reason⟩
  reject_if (regs.esi ≠ 0) (refuse SYSCALL_ERR_PERMISSION_DENIED "unsupported_flags")
  reject_if (max_message_size = 0 ∨ IPC_MAX_MESSAGE_SIZE < max_message_size ∨
    max_queue_depth = 0 ∨ IPC_MAX_QUEUE_DEPTH < max_queue_depth)
    (refuse SYSCALL_ERR_INVALID_LENGTH "invalid_size")
  reject_if (!k.ipc_peer_is_eligible peer_pid)
    (refuse SYSCALL_ERR_PERMISSION_DENIED "invalid_peer")
  match k.ipc_free_index with
  | some index => .ok (pid, index)
  | none => .error (refuse SYSCALL_ERR_UNAVAILABLE "channel_limit")

def ipc_register (regs : SyscallRegisters) : SyscallOutcome :=
  k.attempt regs (k.ipc_register_checks regs) fun (pid, index) =>
    let channel_id := k.ipc.next_channel_id
    let channel : IpcChannel :=
      { used := true
        channel_id := channel_id
        owner_pid := pid
        peer_pid := ipc_peer pid regs
        max_message_size := regs.ecx.toNat
        max_queue_depth := regs.edx.toNat
        queue_depth := 0
        messages := empty_messages }
    let k' := { k with ipc := { k.ipc with
      next_channel_id := channel_id + 1
      channels := Function.update k.ipc.channels index channel } }
    k'.accept regs
      [.ipc_channel pid (k.app_path pid) (some channel_id) (some channel.peer_pid)
        channel.max_message_size channel.max_queue_depth "accepted" "none"] channel_id

/-! ## Sending -/

def ipc_send_checks (regs : SyscallRegisters) :
    Except Rejection (ProcessId × Fin IPC_MAX_CHANNELS) := do
  let pid ← k.ipc_caller
  let length := regs.edx.toNat
  let refuse (to_pid : Option ProcessId) (queue_depth : ℕ) (result : Int32) (reason : String) :
      Rejection :=
    ⟨[.ipc_send pid to_pid regs.ebx none length none queue_depth "rejected" reason], result, reason⟩
  match k.ipc_channel_index regs.ebx with
  | none => .error (refuse none 0 SYSCALL_ERR_UNAVAILABLE "invalid_channel")
  | some index => do
    let channel := k.ipc.channels index
    let refuse := refuse (some channel.peer_pid) channel.queue_depth
    reject_if (channel.owner_pid ≠ pid) (refuse SYSCALL_ERR_PERMISSION_DENIED "unauthorized")
    reject_if (regs.esi ≠ 0) (refuse SYSCALL_ERR_PERMISSION_DENIED "unsupported_flags")
    reject_if (length = 0 ∨ channel.max_message_size < length)
      (refuse SYSCALL_ERR_INVALID_LENGTH "invalid_length")
    reject_if (channel.max_queue_depth ≤ channel.queue_depth)
      (refuse SYSCALL_ERR_UNAVAILABLE "queue_full")
    reject_if (!k.ipc_peer_is_eligible channel.peer_pid)
      (refuse SYSCALL_ERR_UNAVAILABLE "receiver_unavailable")
    let _ ← (k.validate_active_user_range regs.ecx length false).mapError fun _ =>
      refuse SYSCALL_ERR_INVALID_POINTER "invalid_pointer"
    .ok (pid, index)

/-- The message of a send; the copy of a longer one would run over the end of its buffer. -/
def ipc_message (regs : SyscallRegisters) (pid : ProcessId)
    (h : regs.edx.toNat ≤ IPC_MAX_MESSAGE_SIZE) : IpcMessage :=
  let length := regs.edx.toNat
  let payload := patch (zeros IPC_MAX_MESSAGE_SIZE) 0 (k.read_memory regs.ecx length)
  { message_id := k.ipc.next_message_id
    from_pid := pid
    payload_length := length
    payload_hash := sha256 (payload.take length)
    payload := ⟨payload, by rw [length_patch _ (by simpa [read_memory] using h), length_zeros]⟩ }

def ipc_send (regs : SyscallRegisters) : SyscallOutcome :=
  k.attempt regs (k.ipc_send_checks regs) fun (pid, index) =>
    let channel := k.ipc.channels index
    if h : regs.edx.toNat ≤ IPC_MAX_MESSAGE_SIZE ∧ channel.queue_depth < IPC_MAX_QUEUE_DEPTH then
      let message := k.ipc_message regs pid h.1
      let channel' := { channel with
        messages := ⟨push channel.messages.val channel.queue_depth message, by
          rw [length_push, channel.messages.2]⟩
        queue_depth := channel.queue_depth + 1 }
      let k' := { k with ipc := { k.ipc with
        next_message_id := k.ipc.next_message_id + 1
        channels := Function.update k.ipc.channels index channel' } }
      k'.accept regs
        [.ipc_send pid (some channel.peer_pid) regs.ebx (some message.message_id)
          message.payload_length (some message.payload_hash) channel'.queue_depth "accepted" "none"]
        message.message_id
    else .panicked

/-! ## Receiving -/

/-- The first message of a channel. -/
def first_message (index : Fin IPC_MAX_CHANNELS) : IpcMessage :=
  (k.ipc.channels index).messages.val.getD 0 .empty

def ipc_recv_checks (regs : SyscallRegisters) :
    Except Rejection (ProcessId × Fin IPC_MAX_CHANNELS) := do
  let pid ← k.ipc_caller
  let output_len := regs.edx.toNat
  let refuse (from_pid : Option ProcessId) (queue_depth : ℕ) (result : Int32) (reason : String) :
      Rejection :=
    ⟨[.ipc_recv pid from_pid regs.ebx none regs.ecx output_len 0 none queue_depth "rejected" reason],
      result, reason⟩
  match k.ipc_channel_index regs.ebx with
  | none => .error (refuse none 0 SYSCALL_ERR_UNAVAILABLE "invalid_channel")
  | some index => do
    let channel := k.ipc.channels index
    let refuse := refuse (some channel.owner_pid) channel.queue_depth
    reject_if (channel.peer_pid ≠ pid) (refuse SYSCALL_ERR_PERMISSION_DENIED "unauthorized")
    reject_if (regs.esi ≠ 0) (refuse SYSCALL_ERR_PERMISSION_DENIED "unsupported_flags")
    reject_if (channel.queue_depth = 0) (refuse SYSCALL_ERR_UNAVAILABLE "empty")
    let message := k.first_message index
    let refuse (result : Int32) (reason : String) : Rejection :=
      ⟨[.ipc_recv pid (some message.from_pid) regs.ebx (some message.message_id) regs.ecx output_len
        message.payload_length (some message.payload_hash) channel.queue_depth "rejected" reason],
        result, reason⟩
    reject_if (output_len < message.payload_length)
      (refuse SYSCALL_ERR_INVALID_LENGTH "buffer_too_small")
    let _ ← (k.validate_active_user_range regs.ecx message.payload_length true).mapError fun _ =>
      refuse SYSCALL_ERR_INVALID_POINTER "invalid_pointer"
    .ok (pid, index)

def ipc_recv (regs : SyscallRegisters) : SyscallOutcome :=
  k.attempt regs (k.ipc_recv_checks regs) fun (pid, index) =>
    let channel := k.ipc.channels index
    let message := k.first_message index
    if message.payload_length ≤ IPC_MAX_MESSAGE_SIZE ∧ channel.queue_depth ≤ IPC_MAX_QUEUE_DEPTH then
      let k := k.write_memory regs.ecx (message.payload.val.take message.payload_length)
      let channel' := { channel with
        messages := ⟨pop .empty channel.messages.val channel.queue_depth, by
          rw [length_pop, channel.messages.2]⟩
        queue_depth := channel.queue_depth - 1 }
      let k' := { k with ipc := { k.ipc with
        channels := Function.update k.ipc.channels index channel' } }
      k'.accept regs
        [.ipc_recv pid (some message.from_pid) regs.ebx (some message.message_id) regs.ecx
          regs.edx.toNat message.payload_length (some message.payload_hash) channel'.queue_depth
          "accepted" "none"] (UInt32.ofNat message.payload_length)
    else .panicked

/-! ## Polling -/

def ipc_poll_checks (regs : SyscallRegisters) :
    Except Rejection (ProcessId × Fin IPC_MAX_CHANNELS) := do
  let pid ← k.ipc_caller
  let refuse (queue_depth : ℕ) (result : Int32) (reason : String) : Rejection :=
    ⟨[.ipc_poll pid regs.ebx queue_depth "rejected" reason], result, reason⟩
  match k.ipc_channel_index regs.ebx with
  | none => .error (refuse 0 SYSCALL_ERR_UNAVAILABLE "invalid_channel")
  | some index => do
    let channel := k.ipc.channels index
    reject_if (channel.owner_pid ≠ pid ∧ channel.peer_pid ≠ pid)
      (refuse channel.queue_depth SYSCALL_ERR_PERMISSION_DENIED "unauthorized")
    .ok (pid, index)

def ipc_poll (regs : SyscallRegisters) : SyscallOutcome :=
  k.attempt regs (k.ipc_poll_checks regs) fun (pid, index) =>
    let queue_depth := (k.ipc.channels index).queue_depth
    k.accept regs [.ipc_poll pid regs.ebx queue_depth "accepted" "none"] (UInt32.ofNat queue_depth)

end KernelState

end Bogbin.Kernel
