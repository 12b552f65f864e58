import Bogbin.Kernel.App

/-!
# Mounting the boot file system

`mount_bogfs` reads the table of the first boot module.  An entry keeps its window of the module and
whether its digest is the stored one.
-/

namespace Bogbin.Kernel

open Buffer Bogbin.Core

/-- Path, offset, length and hash of an entry. -/
def BOGFS_ENTRY_SIZE : ℕ := 64 + 4 + 4 + 32

/-- The kernel heap. -/
def HEAP_SIZE : ℕ := 4 * 1024 * 1024

/-- The box of the heap check that precedes the mount; the allocator takes nothing back. -/
def HEAP_CHECK_SIZE : ℕ := 4

/-- `size_of::<BogFsEntry>()`: two pairs of an address and a length, and a flag. -/
def BOGFS_ENTRY_ALLOCATION : ℕ := 20

/-- `a + b` on `usize`; a sum that does not fit is a panic. -/
def add_usize (a b : ℕ) : Except String ℕ := do
  reject_if (2 ^ 32 ≤ a + b) "overflow"
  .ok (a + b)

theorem add_usize_eq_ok {a b n : ℕ} : add_usize a b = .ok n ↔ a + b < 2 ^ 32 ∧ n = a + b := by
  unfold add_usize
  rw [reject_bind_eq_ok, not_le, Except.ok.injEq, eq_comm]

/-- The text in front of the first zero, or the empty text. -/
def bogfs_entry_path (path_bytes : Bytes) : Bytes :=
  (from_utf8 (path_bytes.takeWhile (· ≠ 0))).getD []

/-- The loop over the table; it ends early at the end of the data. -/
def mount_entries (bogfs_data : Bytes) : ℕ → ℕ → Except String (List BogFsEntry)
  | 0, _ => .ok []
  | count + 1, offset => do
    let entry_end ← add_usize offset BOGFS_ENTRY_SIZE
    if bogfs_data.length < entry_end then .ok []
    else
      let path := bogfs_entry_path (slice bogfs_data offset 64)
      let start_off := read_be_u32 bogfs_data (offset + 64)
      let length := read_be_u32 bogfs_data (offset + 68)
      let expected_hash := slice bogfs_data (offset + 72) 32
      let data_end ← add_usize start_off length
      if bogfs_data.length < data_end then mount_entries bogfs_data count entry_end
      else
        let file_data := slice bogfs_data start_off length
        let entries ← mount_entries bogfs_data count entry_end
        .ok (⟨path, file_data, (sha256 file_data).val = expected_hash⟩ :: entries)

/-- The mounted entries: none when the magic does not match. -/
def mount_bogfs (bogfs_data : Bytes) : Except String (Option (List BogFsEntry)) :=
  if bogfs_data.length < 10 ∨ slice bogfs_data 0 6 ≠ ascii "BOGFS" ++ [0] then .ok none
  else do
    let file_count := read_be_u32 bogfs_data 6
    -- `Vec::with_capacity`
    reject_if (HEAP_SIZE < HEAP_CHECK_SIZE + file_count * BOGFS_ENTRY_ALLOCATION) "out of memory"
    let entries ← mount_entries bogfs_data file_count 10
    .ok (some entries)

end Bogbin.Kernel
