import Bogbin.Kernel.V38

/-!
# The v39 file system: an application loaded from the disk

`v39_validate_root` and `v39_mount` read the v38 table under a superblock and a manifest of their
own.  They check less: a record is a file with contents or a directory, and the padding of the table
and of its records is free.
-/

namespace Bogbin.Kernel

open Buffer BlockDevice

def v39_format : RootFormat where
  magic := ascii "BOGFS39" ++ [0]
  version := 3
  root_tag := ascii "BOGROOT39"
  padding_error := "superblock_checksum_mismatch"
  magic_length := by decide
  version_lt := by decide

/-- The checks on a superblock before its manifest is read; the number of manifest sectors is not
one of them. -/
def v39_read_superblock (superblock : Bytes) : Except String Superblock := do
  reject_if (slice superblock 0 8 ≠ v39_format.magic) "bad_superblock_magic"
  reject_if (v37_read_u32 superblock 8 ≠ v39_format.version) "bad_superblock_version"
  reject_if (any_nonzero (superblock.drop 120) ∨
    digest (slice superblock 0 88) ≠ v37_copy_hash superblock 88) "superblock_checksum_mismatch"
  let generation := v37_read_u32 superblock 12
  let manifest_lba := v37_read_u32 superblock 16
  reject_if (manifest_lba ≠ V37_MANIFEST_A ∧ manifest_lba ≠ V37_MANIFEST_B)
    "invalid_manifest_pointer"
  let manifest_hash := v37_copy_hash superblock 24
  let root_hash := v37_copy_hash superblock 56
  reject_if (v39_format.root_hash generation manifest_lba manifest_hash ≠ root_hash)
    "root_hash_mismatch"
  .ok ⟨generation, manifest_lba, manifest_hash, root_hash⟩

/-- The checks on a manifest before its records. -/
def v39_check_header (generation : ℕ) (manifest : Manifest) : Except String Unit := do
  reject_if (slice manifest.val 0 8 ≠ ascii "BOGMAN39" ∨ v37_read_u32 manifest.val 8 ≠ generation)
    "file_table_invalid"
  let record_count := v37_read_u32 manifest.val 12
  let next_free_lba := v37_read_u32 manifest.val 16
  reject_if (record_count = 0 ∨ V38_MAX_RECORDS < record_count ∨ next_free_lba < 64 ∨
    V36_SECTOR_COUNT < next_free_lba ∨
    v38_listing_hash manifest.val record_count ≠ v37_copy_hash manifest.val 24) "file_table_invalid"

/-- The checks on a file record and its data. -/
def v39_check_file (d : Disk) (next_free_lba : ℕ) (record : Bytes) : Except String Unit := do
  let length := v37_read_u32 record 68
  let lba := v37_read_u32 record 72
  reject_if (length = 0 ∨ V36_SECTOR_SIZE < length ∨ lba < 64 ∨ next_free_lba ≤ lba)
    "file_table_invalid"
  let data := (d lba).val
  reject_if (any_nonzero (data.drop length) ∨ digest (data.take length) ≠ v38_record_hash record)
    "file_content_hash_mismatch"

def v39_check_record (d : Disk) (next_free_lba : ℕ) (record : Bytes) : Except String Unit :=
  match v38_path_len record with
  | none => .error "file_table_invalid"
  | some path_len => do
    let entry_type := v37_read_u32 record 76
    reject_if (v38_path_valid (record.take path_len) = false ∨
      (entry_type ≠ V38_TYPE_FILE ∧ entry_type ≠ V38_TYPE_DIRECTORY)) "file_table_invalid"
    if entry_type = V38_TYPE_FILE then v39_check_file d next_free_lba record else .ok ()

def v39_validate_root (d : Disk) (superblock_lba : ℕ) : Except String V38State := do
  let root ← v39_read_superblock (d superblock_lba).val
  let manifest := v37_read_manifest d root.manifest_lba
  reject_if (digest manifest.val ≠ root.manifest_hash) "manifest_hash_mismatch"
  v39_check_header root.generation manifest
  (List.range (v37_read_u32 manifest.val 12)).forM fun index =>
    v39_check_record d (v37_read_u32 manifest.val 16) (v38_record manifest.val index)
  .ok (v38_state superblock_lba root manifest)

/-- The choice between the two roots; roots of equal generation are not compared. -/
def v39_mount (d : Disk) : Except String V38State :=
  match v39_validate_root d V37_SUPERBLOCK_A, v39_validate_root d V37_SUPERBLOCK_B with
  | .ok av, .ok bv => if av.generation < bv.generation then .ok bv else .ok av
  | .ok av, .error _ => .ok av
  | .error _, .ok bv => .ok bv
  | .error _, .error _ => .error "no_valid_root"

end Bogbin.Kernel
