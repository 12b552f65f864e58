import Bogbin.Kernel.Syscall

/-!
# The writable files

The calls that write, read and describe the four writable files.
-/

namespace Bogbin.Kernel

open Buffer Bogbin.Core

/-- A prefix of a path, `starts_with`. -/
def starts_with (path start : Bytes) : Bool := path.take start.length = start

def writable_bogfs_path_error_result (reason : String) : Int32 :=
  if reason = "file_table_full" then SYSCALL_ERR_UNAVAILABLE
  else if reason = "invalid_path" ∨ reason = "protected_path" then SYSCALL_ERR_PERMISSION_DENIED
  else SYSCALL_ERR_INVALID_POINTER

/-- The sum of the file lengths. -/
def writable_bogfs_used_bytes (files : WritableBogfs) : ℕ :=
  ((List.finRange WRITABLE_BOGFS_MAX_FILES).map fun index => (files index).length).sum

/-- `used - file.length + length` on `usize`: a panic in a build with overflow checks, else the
wrapped value. -/
def used_after (overflow_checks : Bool) (files : WritableBogfs)
    (index : Fin WRITABLE_BOGFS_MAX_FILES) (length : ℕ) : Option ℕ :=
  let used := writable_bogfs_used_bytes files
  let after := used - (files index).length + length
  if used < 2 ^ 32 ∧ after < 2 ^ 32 then some after
  else if overflow_checks then none
  else some (after % 2 ^ 32)

namespace KernelState

variable (k : KernelState)

def writable_bogfs_path_index (address : UInt32) (length : ℕ) :
    Except String (Fin WRITABLE_BOGFS_MAX_FILES) := do
  reject_if (length = 0 ∨ WRITABLE_BOGFS_MAX_PATH_SIZE < length) "invalid_path"
  let _ ← k.validate_active_user_range address length false
  let path := k.read_memory address length
  reject_if (path.any fun byte => 128 ≤ byte ∨ byte = 0) "invalid_path"
  match (List.finRange WRITABLE_BOGFS_MAX_FILES).find? fun index =>
      (k.writable_bogfs_files index).path = path with
  | some index => .ok index
  | none => do
    reject_if (starts_with path (ascii "/system/") || starts_with path (ascii "/apps/") ||
      starts_with path (ascii "/receipts/")) "protected_path"
    reject_if (path = ascii "/data/new.bin") "file_table_full"
    .error "invalid_path"

/-- The receipt of an operation on a file that leaves it as it is. -/
def bogfs_receipt (operation : String) (pid : ProcessId) (file : WritableBogFsFile) (length : ℕ)
    (content_hash : Option Digest) (status reject_reason : String) : Receipt :=
  .writable_bogfs operation pid file.path length content_hash (some file.version) (some file.hash)
    (some file.version) (some file.hash) status reject_reason

/-- The receipt of an operation whose file is not known. -/
def unresolved_receipt (operation : String) (pid : ProcessId) (length : ℕ)
    (reject_reason : String) : Receipt :=
  .writable_bogfs operation pid (ascii "unresolved") length none none none none none "rejected"
    reject_reason

/-- `active_writable_bogfs_pid` in a call that a failure forbids. -/
def bogfs_caller (receipts : String → List Receipt) : Except Rejection ProcessId :=
  k.active_writable_bogfs_pid.mapError fun reason =>
    ⟨receipts reason, SYSCALL_ERR_PERMISSION_DENIED, reason⟩

/-- The file that the path of a call names. -/
def bogfs_file (regs : SyscallRegisters) (receipts : String → List Receipt) :
    Except Rejection (Fin WRITABLE_BOGFS_MAX_FILES) :=
  (k.writable_bogfs_path_index regs.ebx regs.ecx.toNat).mapError fun reason =>
    ⟨receipts reason, writable_bogfs_path_error_result reason, reason⟩

/-- `bogk_core::sha256(&file.data[..file.length])`; a slice out of range is a panic. -/
def committed_hash (file : WritableBogFsFile) : Option Digest :=
  if file.length ≤ WRITABLE_BOGFS_MAX_FILE_SIZE then some (sha256 (file.data.val.take file.length))
  else none

/-! ## Writing -/

/-- The staged contents of a write: what the caller passes, filled up with zeros. -/
def staged (regs : SyscallRegisters) : {b : Bytes // b.length = WRITABLE_BOGFS_MAX_FILE_SIZE} :=
  ⟨(k.read_memory regs.edx regs.esi.toNat ++ zeros WRITABLE_BOGFS_MAX_FILE_SIZE).take
    WRITABLE_BOGFS_MAX_FILE_SIZE, by simp⟩

/-- `failed[0] ^= 0xff` -/
def failed_hash (hash : Digest) : Digest :=
  ⟨hash.val.modify 0 (· ^^^ 0xff), by rw [List.length_modify, hash.2]⟩

def bogfs_write_checks (regs : SyscallRegisters) :
    Except Rejection (ProcessId × Fin WRITABLE_BOGFS_MAX_FILES) := do
  let length := regs.esi.toNat
  let pid ← k.bogfs_caller fun reason => [unresolved_receipt "write" 0 length reason]
  reject_if (length = 0 ∨ WRITABLE_BOGFS_MAX_FILE_SIZE < length)
    ⟨[unresolved_receipt "write" pid length "invalid_length"], SYSCALL_ERR_INVALID_LENGTH,
      "invalid_length"⟩
  let index ← k.bogfs_file regs fun reason => [unresolved_receipt "write" pid length reason]
  let file := k.writable_bogfs_files index
  reject_if (!file.writable)
    ⟨[bogfs_receipt "write" pid file length none "rejected" "read_only_path"],
      SYSCALL_ERR_PERMISSION_DENIED, "read_only_path"⟩
  let _ ← k.user_range regs.edx length false fun reason =>
    [bogfs_receipt "write" pid file length none "rejected" reason]
  let candidate_hash := sha256 ((k.staged regs).val.take length)
  let receipt_check_hash :=
    if file.force_hash_failure then failed_hash candidate_hash
    else sha256 ((k.staged regs).val.take length)
  reject_if (receipt_check_hash ≠ candidate_hash)
    ⟨[bogfs_receipt "write" pid file length (some candidate_hash) "rejected"
      "receipt_hash_mismatch"], SYSCALL_ERR_VERIFICATION_FAILED, "receipt_hash_mismatch"⟩
  .ok (pid, index)

def sys_bogfs_write (overflow_checks : Bool) (regs : SyscallRegisters) : SyscallOutcome :=
  k.attempt regs (k.bogfs_write_checks regs) fun (pid, index) =>
    let length := regs.esi.toNat
    let file := k.writable_bogfs_files index
    let staged := k.staged regs
    let candidate_hash := sha256 (staged.val.take length)
    match used_after overflow_checks k.writable_bogfs_files index length with
    | none => .panicked
    | some after =>
      if WRITABLE_BOGFS_TOTAL_CAPACITY < after then
        k.reject regs ⟨[bogfs_receipt "write" pid file length (some candidate_hash) "rejected"
          "storage_full"], SYSCALL_ERR_UNAVAILABLE, "storage_full"⟩
      else
        let file' := { file with
          data := staged
          length := length
          version := file.version + 1
          hash := candidate_hash }
        let k' := { k with
          writable_bogfs_files := Function.update k.writable_bogfs_files index file' }
        k'.accept regs
          [.writable_bogfs "write" pid file.path length (some candidate_hash) (some file.version)
            (some file.hash) (some file'.version) (some candidate_hash) "accepted" "none"] regs.esi

/-! ## Reading -/

/-- The checks of a read before the contents are verified. -/
def bogfs_read_file (regs : SyscallRegisters) :
    Except Rejection (ProcessId × Fin WRITABLE_BOGFS_MAX_FILES) := do
  let pid ← k.bogfs_caller fun _ => []
  let index ← k.bogfs_file regs fun reason =>
    [unresolved_receipt "read" pid regs.esi.toNat reason]
  .ok (pid, index)

/-- The checks of a read whose contents have the hash `actual`. -/
def bogfs_read_checks (regs : SyscallRegisters) (pid : ProcessId) (file : WritableBogFsFile)
    (actual : Digest) : Except Rejection Unit := do
  let refuse (result : Int32) (reason : String) : Rejection :=
    ⟨[bogfs_receipt "read" pid file file.length (some file.hash) "rejected" reason], result, reason⟩
  reject_if (actual ≠ file.hash)
    (refuse SYSCALL_ERR_VERIFICATION_FAILED "committed_hash_mismatch")
  reject_if (regs.esi.toNat < file.length) (refuse SYSCALL_ERR_INVALID_LENGTH "buffer_too_small")
  if 0 < file.length then do
    let _ ← k.user_range regs.edx file.length true fun reason =>
      [bogfs_receipt "read" pid file file.length (some file.hash) "rejected" reason]
    .ok ()
  else .ok ()

def sys_bogfs_read (regs : SyscallRegisters) : SyscallOutcome :=
  k.attempt regs (k.bogfs_read_file regs) fun (pid, index) =>
    let file := k.writable_bogfs_files index
    match committed_hash file with
    | none => .panicked
    | some actual =>
      k.attempt regs (k.bogfs_read_checks regs pid file actual) fun _ =>
        (k.write_memory regs.edx (file.data.val.take file.length)).accept regs
          [bogfs_receipt "read" pid file file.length (some file.hash) "accepted" "none"]
          (UInt32.ofNat file.length)

/-! ## Describing a file -/

def bogfs_stat_file (regs : SyscallRegisters) :
    Except Rejection (ProcessId × Fin WRITABLE_BOGFS_MAX_FILES) := do
  let pid ← k.bogfs_caller fun _ => []
  let index ← k.bogfs_file regs fun _ => []
  reject_if (regs.esi.toNat < WRITABLE_BOGFS_STAT_SIZE)
    ⟨[], SYSCALL_ERR_INVALID_LENGTH, "buffer_too_small"⟩
  .ok (pid, index)

def bogfs_stat_checks (regs : SyscallRegisters) (file : WritableBogFsFile) (actual : Digest) :
    Except Rejection Unit := do
  reject_if (actual ≠ file.hash) ⟨[], SYSCALL_ERR_VERIFICATION_FAILED, "committed_hash_mismatch"⟩
  let _ ← k.user_range regs.edx WRITABLE_BOGFS_STAT_SIZE true fun _ => []
  .ok ()

/-- The version, the length and the hash of a file. -/
def stat_bytes (file : WritableBogFsFile) : Bytes :=
  leBytes 4 file.version.toNat ++ leBytes 4 file.length ++ file.hash.val

def sys_bogfs_stat (regs : SyscallRegisters) : SyscallOutcome :=
  k.attempt regs (k.bogfs_stat_file regs) fun (pid, index) =>
    let file := k.writable_bogfs_files index
    match committed_hash file with
    | none => .panicked
    | some actual =>
      k.attempt regs (k.bogfs_stat_checks regs file actual) fun _ =>
        (k.write_memory regs.edx (stat_bytes file)).accept regs
          [bogfs_receipt "stat" pid file file.length (some file.hash) "accepted" "none"]
          (UInt32.ofNat WRITABLE_BOGFS_STAT_SIZE)

end KernelState

end Bogbin.Kernel
