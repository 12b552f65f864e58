import Bogbin.Kernel.Disk

/-!
# The v37 file system: one fixed file

`v37_validate_root` checks a superblock, its manifest, the single file record and the file contents;
`v37_mount` takes the valid root of the greater generation; `v37_commit` writes a new version of the
file under the other superblock.
-/

namespace Bogbin.Kernel

open Buffer BlockDevice

def v37_format : RootFormat where
  magic := ascii "BOGFS37" ++ [0]
  version := 1
  root_tag := ascii "BOGROOT37"
  padding_error := "noncanonical_superblock_padding"
  magic_length := by decide
  version_lt := by decide

def V37_PATH : Bytes := ascii "/data/persist.bin"

structure V37State where
  generation : ℕ
  superblock_lba : ℕ
  manifest_lba : ℕ
  next_free_lba : ℕ
  root_hash : Bytes
  manifest_hash : Bytes
  file_version : ℕ
  file_length : ℕ
  file_lba : ℕ
  file_hash : Bytes
  file_data : Bytes
  deriving DecidableEq

/-- The file record, `&manifest[64..192]`. -/
def v37_record (manifest : Manifest) : Bytes := slice manifest.val 64 128

/-- The checks on a manifest before the file is read. -/
def v37_check_manifest (generation : ℕ) (manifest : Manifest) : Except String Unit := do
  reject_if (slice manifest.val 0 8 ≠ ascii "BOGMAN37") "bad_manifest_magic"
  reject_if (v37_read_u32 manifest.val 8 ≠ generation ∨ v37_read_u32 manifest.val 12 ≠ 1)
    "file_table_invalid"
  let next_free_lba := v37_read_u32 manifest.val 16
  reject_if (next_free_lba < 65 ∨ V36_SECTOR_COUNT < next_free_lba) "next_free_lba_invalid"
  let record := v37_record manifest
  reject_if (slice record 0 17 ≠ V37_PATH ∨ any_nonzero (slice record 17 47) ∨
    any_nonzero (record.drop 116)) "file_table_invalid"
  let file_length := v37_read_u32 record 68
  let file_lba := v37_read_u32 record 72
  reject_if (v37_read_u32 record 64 = 0 ∨ file_length = 0 ∨ V37_MAX_FILE_SIZE < file_length ∨
    v37_read_u32 record 76 ≠ 1 ∨ v37_read_u32 record 112 ≠ 1 ∨ file_lba < 64 ∨
    V36_SECTOR_COUNT ≤ file_lba ∨ next_free_lba ≤ file_lba) "file_table_invalid"

/-- The checks on the file contents, and the state of a valid root. -/
def v37_load (d : Disk) (superblock_lba : ℕ) (root : Superblock) (manifest : Manifest) :
    Except String V37State := do
  let record := v37_record manifest
  let file_length := v37_read_u32 record 68
  let file_lba := v37_read_u32 record 72
  let file_hash := v37_copy_hash record 80
  let data_sector := (d file_lba).val
  reject_if (any_nonzero (data_sector.drop file_length)) "noncanonical_file_padding"
  reject_if (digest (data_sector.take file_length) ≠ file_hash) "file_content_hash_mismatch"
  .ok {
    generation := root.generation
    superblock_lba := superblock_lba
    manifest_lba := root.manifest_lba
    next_free_lba := v37_read_u32 manifest.val 16
    root_hash := root.root_hash
    manifest_hash := digest manifest.val
    file_version := v37_read_u32 record 64
    file_length := file_length
    file_lba := file_lba
    file_hash := file_hash
    file_data := patch (zeros 64) 0 (data_sector.take file_length) }

def v37_validate_root (d : Disk) (superblock_lba : ℕ) : Except String V37State := do
  let root ← v37_format.read_superblock (d superblock_lba).val
  let manifest := v37_read_manifest d root.manifest_lba
  reject_if (digest manifest.val ≠ root.manifest_hash) "manifest_hash_mismatch"
  v37_check_manifest root.generation manifest
  v37_load d superblock_lba root manifest

def v37_mount (d : Disk) : Except String (V37State × String × String × Bool) :=
  mount_roots (·.generation) (·.root_hash) (· ≠ "bad_superblock_magic")
    (v37_validate_root d V37_SUPERBLOCK_A) (v37_validate_root d V37_SUPERBLOCK_B)

/-- The fields of a new manifest. -/
def v37_manifest_fields (generation file_version file_length data_lba : ℕ) (file_hash : Bytes) :
    List (ℕ × Bytes) :=
  [(0, ascii "BOGMAN37"), u32_field 8 generation, u32_field 12 1, u32_field 16 (data_lba + 1),
    (64, V37_PATH), u32_field 128 file_version, u32_field 132 file_length, u32_field 136 data_lba,
    u32_field 140 1, (144, file_hash), u32_field 176 1]

def v37_commit (old : V37State) (content : Bytes) : Dev V37State :=
  if V36_SECTOR_COUNT ≤ old.next_free_lba then Dev.throw "storage_full"
  else do
    let data_lba := old.next_free_lba
    let manifest_lba := other_manifest old.manifest_lba
    let superblock_lba := other_superblock old.superblock_lba
    let generation := (old.generation + 1) % 2 ^ 32
    let file_version := (old.file_version + 1) % 2 ^ 32
    let file_hash := digest content
    let sector ← data_sector content
    let _ ← v37_write_sector_checked data_lba sector false
    let manifest ← write_fields ⟨zeros 4096, length_zeros 4096⟩
      (v37_manifest_fields generation file_version content.length data_lba file_hash)
    v37_format.write_root superblock_lba manifest_lba generation manifest
    let d ← Dev.getDisk
    Dev.ofExcept (v37_validate_root d superblock_lba)

end Bogbin.Kernel
