import Bogbin.Library.Occurrence
import Bogbin.Kernel.HandleSyscall

/-!
# The serial line

What the `emit_*_receipt` functions of the system calls write to the serial port, byte by byte, with
the bytes that come from user memory marked as foreign: the preview of an output and an expected hash
in hexadecimal digits, and the text of a legacy receipt as it is.
-/

namespace Bogbin.Kernel

open Buffer Bogbin.Core Occurrence

abbrev Serial := List (Origin × UInt8)

def serial_write (text : String) : Serial := own (ascii text)

def write_usize (n : ℕ) : Serial := serial_write (toString n)

def hex_digit (n : ℕ) : UInt8 := (ascii "0123456789abcdef").getD n 0

/-- `write_hex` and `write_serial_hex_bytes` -/
def hex_bytes (bytes : Bytes) : Bytes :=
  bytes.flatMap fun b : UInt8 => [hex_digit (b.toNat / 16), hex_digit (b.toNat % 16)]

def write_hex (hash : Bytes) : Serial := own (hex_bytes hash)

def serial_write_hex_u32 (value : UInt32) : Serial := own (hex_bytes (beBytes 4 value.toNat))

def write_serial_i32 (value : Int32) : Serial :=
  if value < 0 then serial_write "-" ++ write_usize value.toInt.natAbs
  else write_usize value.toInt.toNat

/-- A number that can be missing: `write_optional_serial_pid` and the like. -/
def write_optional (n : Option ℕ) : Serial :=
  match n with
  | some n => write_usize n
  | none => serial_write "none"

def write_optional_hash (hash : Option Digest) : Serial :=
  match hash with
  | some hash => write_hex hash.val
  | none => serial_write "none"

def write_bool (b : Bool) : Serial := serial_write (if b then "true" else "false")

def write_path (app_path : Option Bytes) : Serial := own (app_path.getD (ascii "none"))

/-! ## Receipts -/

def line_feed : Serial := serial_write "\n"

def serial_field (f : String × Serial) : Serial :=
  serial_write (f.1 ++ "=") ++ f.2 ++ line_feed

/-- A receipt: its delimiters and a line for each field. -/
def serial_receipt (name : String) (fields : List (String × Serial)) : Serial :=
  serial_write "BOGOS_" ++ serial_write name ++ serial_write "_BEGIN" ++ line_feed ++
    fields.flatMap serial_field ++
    (serial_write "BOGOS_" ++ serial_write name ++ serial_write "_END" ++ line_feed)

def syscall_name (number : UInt32) : String :=
  match number.toNat with
  | 1 => "legacy_verify"
  | 2 => "legacy_accept"
  | 3 => "legacy_reject"
  | 4 => "legacy_read_file"
  | 5 => "legacy_emit_receipt"
  | 6 => "exit"
  | 7 => "yield"
  | 8 => "write_console"
  | 9 => "getpid"
  | 10 => "process_info"
  | 11 => "verify_hash"
  | 12 => "claim"
  | 13 => "ipc_register_channel"
  | 14 => "ipc_send"
  | 15 => "ipc_recv"
  | 16 => "ipc_poll"
  | 17 => "bogfs_write"
  | 18 => "bogfs_read"
  | 19 => "bogfs_stat"
  | _ => "unknown"

/-- The calls that an accepted receipt reports as changing trusted state. -/
def mutating_calls : List UInt32 :=
  [SYSCALL_V2_EXIT, SYSCALL_V2_YIELD, SYSCALL_V2_IPC_REGISTER_CHANNEL, SYSCALL_V2_IPC_SEND,
    SYSCALL_V2_IPC_RECV, SYSCALL_V2_BOGFS_WRITE]

/-- What a receipt is on the serial line. -/
def Receipt.emit : Receipt → Serial
  | .syscall pid app_path number args result status reject_reason =>
    let arg (i : ℕ) : UInt32 := args.getD i 0
    serial_receipt "SYSCALL" [("PID", write_optional pid), ("APP_PATH", write_path app_path),
      ("SYSCALL", serial_write (syscall_name number)), ("SYSCALL_NUMBER", write_usize number.toNat),
      ("ARG0", serial_write_hex_u32 (arg 0)), ("ARG1", serial_write_hex_u32 (arg 1)),
      ("ARG2", serial_write_hex_u32 (arg 2)), ("ARG3", serial_write_hex_u32 (arg 3)),
      ("ARGS_HASH", write_hex (sha256 (args.flatMap fun a => beBytes 4 a.toNat)).val),
      ("RESULT", write_serial_i32 result), ("STATUS", serial_write status),
      ("REJECT_REASON", serial_write reject_reason),
      ("MUTATED_TRUSTED_STATE", write_bool (status = "accepted" ∧ number ∈ mutating_calls)),
      ("ABI_VERSION", serial_write "2")]
  | .context_save pid context =>
    serial_receipt "CONTEXT_SAVE" [("PID", write_usize pid),
      ("EIP", serial_write_hex_u32 context.eip), ("ESP", serial_write_hex_u32 context.esp),
      ("STATE_BEFORE", serial_write "RUNNING"), ("STATE_AFTER", serial_write "READY"),
      ("REASON", serial_write "yield")]
  | .user_output pid app_path payload =>
    serial_receipt "USER_OUTPUT" [("PID", write_usize pid), ("APP_PATH", write_path app_path),
      ("OUTPUT_HASH", write_hex (sha256 payload).val), ("OUTPUT_LENGTH", write_usize payload.length),
      ("OUTPUT_PREVIEW", serial_write "hex:" ++ foreign (hex_bytes payload))]
  | .verify_hash pid payload_hash expected_hash matches_ =>
    serial_receipt "VERIFY_HASH" [("PID", write_usize pid),
      ("PAYLOAD_HASH", write_hex payload_hash), ("EXPECTED_HASH", foreign (hex_bytes expected_hash)),
      ("HASH_MATCH", write_bool matches_),
      ("RESULT", serial_write (if matches_ then "accepted" else "rejected"))]
  | .claim pid claim_hash length accepted reject_reason =>
    serial_receipt "CLAIM" [("PID", write_optional pid), ("CLAIM_HASH", write_hex claim_hash.val),
      ("CLAIM_LENGTH", write_usize length), ("CLAIM_ACCEPTED", write_bool accepted),
      ("REJECT_REASON", serial_write reject_reason)]
  | .ipc_channel pid app_path channel_id peer_pid max_message_size max_queue_depth status
      reject_reason =>
    serial_receipt "IPC_CHANNEL" [("PID", write_usize pid), ("APP_PATH", write_path app_path),
      ("CHANNEL_ID", write_optional (channel_id.map UInt32.toNat)),
      ("PEER_PID", write_optional peer_pid), ("MAX_MESSAGE_SIZE", write_usize max_message_size),
      ("MAX_QUEUE_DEPTH", write_usize max_queue_depth),
      ("CREATED_BY_DYNAMIC_LOADER_ADMITTED_PROCESS", serial_write "true"),
      ("STATUS", serial_write status), ("REJECT_REASON", serial_write reject_reason)]
  | .ipc_send from_pid to_pid channel_id message_id payload_length payload_hash queue_depth_after
      status reject_reason =>
    serial_receipt "IPC_SEND" [("FROM_PID", write_usize from_pid), ("TO_PID", write_optional to_pid),
      ("CHANNEL_ID", write_usize channel_id.toNat),
      ("MESSAGE_ID", write_optional (message_id.map UInt32.toNat)),
      ("PAYLOAD_LENGTH", write_usize payload_length),
      ("PAYLOAD_HASH", write_optional_hash payload_hash),
      ("QUEUE_DEPTH_AFTER", write_usize queue_depth_after), ("STATUS", serial_write status),
      ("REJECT_REASON", serial_write reject_reason),
      ("MUTATED_TRUSTED_STATE", write_bool (status = "accepted"))]
  | .ipc_recv to_pid from_pid channel_id message_id output_ptr output_len payload_length
      payload_hash queue_depth_after status reject_reason =>
    serial_receipt "IPC_RECV" [("TO_PID", write_usize to_pid), ("FROM_PID", write_optional from_pid),
      ("CHANNEL_ID", write_usize channel_id.toNat),
      ("MESSAGE_ID", write_optional (message_id.map UInt32.toNat)),
      ("OUTPUT_PTR", serial_write_hex_u32 output_ptr), ("OUTPUT_LEN", write_usize output_len),
      ("PAYLOAD_LENGTH", write_usize payload_length),
      ("PAYLOAD_HASH", write_optional_hash payload_hash),
      ("QUEUE_DEPTH_AFTER", write_usize queue_depth_after), ("STATUS", serial_write status),
      ("REJECT_REASON", serial_write reject_reason),
      ("MUTATED_TRUSTED_STATE", write_bool (status = "accepted"))]
  | .ipc_poll pid channel_id queue_depth status reject_reason =>
    serial_receipt "IPC_POLL" [("PID", write_usize pid), ("CHANNEL_ID", write_usize channel_id.toNat),
      ("QUEUE_DEPTH", write_usize queue_depth), ("STATUS", serial_write status),
      ("REJECT_REASON", serial_write reject_reason)]
  | .writable_bogfs operation pid path length content_hash old_version old_hash new_version new_hash
      status reject_reason =>
    serial_receipt "WRITABLE_BOGFS" [("OPERATION", serial_write operation),
      ("PID", write_usize pid), ("PATH", own path), ("LENGTH", write_usize length),
      ("SHA256", write_optional_hash content_hash),
      ("OLD_VERSION", write_optional (old_version.map UInt32.toNat)),
      ("OLD_HASH", write_optional_hash old_hash),
      ("NEW_VERSION", write_optional (new_version.map UInt32.toNat)),
      ("NEW_HASH", write_optional_hash new_hash), ("STATUS", serial_write status),
      ("REJECT_REASON", serial_write reject_reason),
      ("MUTATED_TRUSTED_STATE", write_bool (status = "accepted" ∧ operation = "write"))]
  | .text bytes => foreign bytes

/-! ## Delimiters -/

/-- The names of the receipts that the kernel emits anywhere. -/
def receipt_names : List String :=
  ["ADDRSPACE", "APP_RUN", "BLOCK_DEVICE", "BLOCK_INVARIANTS", "BLOCK_OPERATION", "BLOCK_READ",
    "BLOCK_WRITE", "BOGFS_COMMIT", "BOGFS_LIFECYCLE", "BOGFS_LIST", "BOGFS_MOUNT", "CLAIM",
    "CONTEXT_RESTORE", "CONTEXT_SAVE", "CR3_SWITCH", "IPC_CHANNEL", "IPC_INVARIANTS", "IPC_POLL",
    "IPC_RECV", "IPC_SEND", "KERNEL_PROTECTION", "LOAD", "MAPPING_INVARIANTS", "PAGE_FAULT",
    "PAGING", "PANIC", "PERSISTENT_BOGFS", "PERSISTENT_BOGFS_INVARIANTS", "PREEMPT", "PROCESS",
    "PROCESS_ADMIT", "PROCESS_ISOLATION", "SCHED", "SYSCALL", "SYSCALL_INVARIANTS", "USER_MAPPING",
    "USER_OUTPUT", "V20", "V38_INVARIANTS", "V38_MOUNT", "V39_ADMIT", "V39_EXECUTION",
    "V39_INVARIANTS", "V39_LOAD", "V40_GENESIS", "VERIFY_HASH", "WRITABLE_BOGFS",
    "WRITABLE_BOGFS_INVARIANTS"]

/-- The strings with which the kernel opens and closes a receipt. -/
def delimiters : List Bytes :=
  receipt_names.flatMap fun name =>
    [ascii "BOGOS_" ++ ascii name ++ ascii "_BEGIN", ascii "BOGOS_" ++ ascii name ++ ascii "_END"]

def delimiter_symbol (c : UInt8) : Bool := (65 ≤ c && c ≤ 90) || (48 ≤ c && c ≤ 57) || c = 95

theorem name_symbols : ∀ name ∈ receipt_names, (ascii name).all delimiter_symbol = true := by
  decide +kernel

end Bogbin.Kernel
