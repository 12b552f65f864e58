import Bogbin.Kernel.Disk

/-!
# The v38 file system: a table of files, directories and tombstones

`v38_validate_root` checks a superblock, its manifest and every record of its table;
`v38_create`, `v38_write` and `v38_delete` build the next table from the mounted one and commit it
under the other superblock.  Their additions on `u32` panic or wrap around, as the build has it.
-/

namespace Bogbin.Kernel

open Buffer BlockDevice

def v38_format : RootFormat where
  magic := ascii "BOGFS38" ++ [0]
  version := 2
  root_tag := ascii "BOGROOT38"
  padding_error := "superblock_checksum_mismatch"
  magic_length := by decide
  version_lt := by decide

def V38_MAX_RECORDS : ℕ := 8
def V38_RECORD_SIZE : ℕ := 128
def V38_TABLE_SIZE : ℕ := 1088
def V38_TYPE_FILE : ℕ := 1
def V38_TYPE_DIRECTORY : ℕ := 2
def V38_TYPE_TOMBSTONE : ℕ := 3
def V38_NEW_PATH : Bytes := ascii "/data/new.txt"
def V38_DELETE_PATH : Bytes := ascii "/data/delete.txt"
def V38_WRITE_DATA : Bytes := ascii "V38-LIFECYCLE-DATA"

structure V38State where
  generation : ℕ
  superblock_lba : ℕ
  manifest_lba : ℕ
  next_free_lba : ℕ
  next_lifecycle_id : ℕ
  record_count : ℕ
  root_hash : Bytes
  manifest_hash : Bytes
  manifest : {b : Bytes // b.length = V38_TABLE_SIZE}
  deriving DecidableEq

/-! ## Records -/

def v38_record_offset (index : ℕ) : ℕ := 64 + index * V38_RECORD_SIZE

def v38_record (manifest : Bytes) (index : ℕ) : Bytes :=
  slice manifest (v38_record_offset index) V38_RECORD_SIZE

def v38_path_len (record : Bytes) : Option ℕ := (slice record 0 64).findIdx? (· = 0)

def v38_path_eq (record path : Bytes) : Bool :=
  v38_path_len record = some path.length ∧ record.take path.length = path

/-- The loop over the components of a path: the start of the next component, or `none` at an empty
component, `.` or `..`. -/
def v38_components (path : Bytes) : Option ℕ :=
  (List.range' 1 path.length).foldlM
    (fun component_start index =>
      if index = path.length ∨ path[index]? = some 0x2f then
        if index = component_start then none
        else
          let component := slice path component_start (index - component_start)
          if component = ascii "." ∨ component = ascii ".." then none
          else some (index + 1)
      else some component_start) 1

def v38_path_valid (path : Bytes) : Bool :=
  if path = [] ∨ 63 < path.length ∨ path.head? ≠ some 0x2f ∨
      (1 < path.length ∧ path.getLast? = some 0x2f) then false
  else if path.any fun byte => 128 ≤ byte ∨ byte = 0 then false
  else (v38_components path).isSome

def v38_listing_hash (manifest : Bytes) (record_count : ℕ) : Bytes :=
  digest (slice manifest 64 (record_count * V38_RECORD_SIZE))

def v38_record_hash (record : Bytes) : Bytes := v37_copy_hash record 80

def v38_find (state : V38State) (path : Bytes) : Option ℕ :=
  (List.range state.record_count).find? fun index =>
    v38_path_eq (v38_record state.manifest.val index) path

/-! ## Mounting -/

/-- The checks on a manifest before its records. -/
def v38_check_header (generation : ℕ) (manifest : Manifest) : Except String Unit := do
  reject_if (slice manifest.val 0 8 ≠ ascii "BOGMAN38" ∨ v37_read_u32 manifest.val 8 ≠ generation)
    "file_table_invalid"
  let record_count := v37_read_u32 manifest.val 12
  let next_free_lba := v37_read_u32 manifest.val 16
  reject_if (record_count = 0 ∨ V38_MAX_RECORDS < record_count ∨ next_free_lba < 64 ∨
    V36_SECTOR_COUNT < next_free_lba ∨ v37_read_u32 manifest.val 20 = 0) "file_table_invalid"
  reject_if (v38_listing_hash manifest.val record_count ≠ v37_copy_hash manifest.val 24)
    "directory_table_hash_mismatch"
  reject_if (any_nonzero (slice manifest.val 56 8) ∨
    any_nonzero (manifest.val.drop (v38_record_offset record_count))) "file_table_invalid"

/-- The checks on the fields of a record that its type asks for. -/
def v38_check_entry (next_free_lba : ℕ) (record : Bytes) : Except String Unit :=
  let entry_type := v37_read_u32 record 76
  let length := v37_read_u32 record 68
  let lba := v37_read_u32 record 72
  if entry_type = V38_TYPE_DIRECTORY then
    reject_if (length ≠ 0 ∨ lba ≠ 0 ∨ v38_record_hash record ≠ zeros 32) "file_table_invalid"
  else if entry_type = V38_TYPE_FILE then do
    reject_if (V37_MAX_FILE_SIZE < length ∨ (0 < length ∧ (lba < 64 ∨ next_free_lba ≤ lba)))
      "file_table_invalid"
    reject_if (length = 0 ∧ (lba ≠ 0 ∨ v38_record_hash record ≠ digest [])) "file_table_invalid"
  else .ok ()

/-- The checks on a record that do not read its data. -/
def v38_check_record (next_free_lba : ℕ) (manifest : Bytes) (index : ℕ) : Except String Unit :=
  let record := v38_record manifest index
  match v38_path_len record with
  | none => .error "file_table_invalid"
  | some path_len => do
    let path := record.take path_len
    let entry_type := v37_read_u32 record 76
    reject_if (v38_path_valid path = false ∨
      any_nonzero (slice record (path_len + 1) (64 - (path_len + 1))) ∨
      (entry_type ≠ V38_TYPE_FILE ∧ entry_type ≠ V38_TYPE_DIRECTORY ∧
        entry_type ≠ V38_TYPE_TOMBSTONE) ∨
      v37_read_u32 record 64 = 0 ∨ v37_read_u32 record 112 = 0 ∨ v37_read_u32 record 116 ≠ 1 ∨
      any_nonzero (record.drop 120)) "file_table_invalid"
    reject_if ((List.range index).any fun other => v38_path_eq (v38_record manifest other) path)
      "file_table_invalid"
    v38_check_entry next_free_lba record

/-- The checks on the data of a file record. -/
def v38_check_data (d : Disk) (record : Bytes) : Except String Unit :=
  let length := v37_read_u32 record 68
  let data := (d (v37_read_u32 record 72)).val
  reject_if (v37_read_u32 record 76 = V38_TYPE_FILE ∧ length ≠ 0 ∧
    (any_nonzero (data.drop length) ∨ digest (data.take length) ≠ v38_record_hash record))
    "file_content_hash_mismatch"

/-- The state of a valid root. -/
def v38_state (superblock_lba : ℕ) (root : Superblock) (manifest : Manifest) : V38State where
  generation := root.generation
  superblock_lba := superblock_lba
  manifest_lba := root.manifest_lba
  next_free_lba := v37_read_u32 manifest.val 16
  next_lifecycle_id := v37_read_u32 manifest.val 20
  record_count := v37_read_u32 manifest.val 12
  root_hash := root.root_hash
  manifest_hash := digest manifest.val
  manifest := ⟨slice manifest.val 0 V38_TABLE_SIZE, length_slice _ (by rw [manifest.2]; decide)⟩

def v38_validate_root (d : Disk) (superblock_lba : ℕ) : Except String V38State := do
  let root ← v38_format.read_superblock (d superblock_lba).val
  let manifest := v37_read_manifest d root.manifest_lba
  reject_if (digest manifest.val ≠ root.manifest_hash) "manifest_hash_mismatch"
  v38_check_header root.generation manifest
  let next_free_lba := v37_read_u32 manifest.val 16
  (List.range (v37_read_u32 manifest.val 12)).forM fun index => do
    v38_check_record next_free_lba manifest.val index
    v38_check_data d (v38_record manifest.val index)
  .ok (v38_state superblock_lba root manifest)

def v38_mount (d : Disk) : Except String (V38State × String × String × Bool) :=
  mount_roots (·.generation) (·.root_hash) (fun _ => true)
    (v38_validate_root d V37_SUPERBLOCK_A) (v38_validate_root d V37_SUPERBLOCK_B)

/-! ## Mutations -/

/-- Write the data of a commit, when it has any. -/
def v38_write_data (next_free_lba : ℕ) : Option Bytes → Dev Unit
  | none => pure ()
  | some content => do
    let sector ← data_sector content
    let _ ← v37_write_sector_checked next_free_lba sector false

def v38_commit (overflow_checks : Bool) (old : V38State) (manifest : Manifest)
    (data : Option Bytes) : Dev V38State := do
  let generation ← add_u32 overflow_checks old.generation 1
  let manifest_lba := other_manifest old.manifest_lba
  let superblock_lba := other_superblock old.superblock_lba
  v38_write_data old.next_free_lba data
  let manifest ← write_fields manifest [u32_field 8 generation]
  let count := v37_read_u32 manifest.val 12
  if 4096 < v38_record_offset count then Dev.panic
  else
    let manifest ← write_fields manifest [(24, v38_listing_hash manifest.val count)]
    v38_format.write_root superblock_lba manifest_lba generation manifest
    let manifest_hash := digest manifest.val
    let root_hash := v38_format.root_hash generation manifest_lba manifest_hash
    pure (v38_state superblock_lba ⟨generation, manifest_lba, manifest_hash, root_hash⟩ manifest)

/-- The staging manifest: the mounted table, zeros behind it. -/
def v38_staging (old : V38State) : Manifest :=
  ⟨patch (zeros 4096) 0 old.manifest.val, by
    rw [length_patch _ (by rw [old.manifest.2, length_zeros]; decide), length_zeros]⟩

/-- Write fields of a record; a slice out of range is a panic. -/
def v38_write_record (manifest : Manifest) (index : ℕ) (fs : List (ℕ × Bytes)) : Dev Manifest :=
  if h : v38_record_offset index + (write (v38_record manifest.val index) fs).length ≤ 4096 then
    pure ⟨patch manifest.val (v38_record_offset index) (write (v38_record manifest.val index) fs), by
      rw [length_patch _ (by rw [manifest.2]; exact h), manifest.2]⟩
  else Dev.panic

def v38_create (overflow_checks : Bool) (old : V38State) : Dev V38State :=
  if V38_MAX_RECORDS ≤ old.record_count then Dev.throw "file_table_full"
  else do
    let manifest ← v38_write_record (v38_staging old) old.record_count
      [(0, V38_NEW_PATH), u32_field 64 1, u32_field 76 V38_TYPE_FILE, (80, digest []),
        u32_field 112 old.next_lifecycle_id, u32_field 116 1]
    let manifest ← write_fields manifest [u32_field 12 (old.record_count + 1)]
    let next_lifecycle_id ← add_u32 overflow_checks old.next_lifecycle_id 1
    let manifest ← write_fields manifest [u32_field 20 next_lifecycle_id]
    v38_commit overflow_checks old manifest none

def v38_write (overflow_checks : Bool) (old : V38State) : Dev V38State :=
  match v38_find old V38_NEW_PATH with
  | none => Dev.throw "missing_file"
  | some index => do
    let record := v38_record (v38_staging old).val index
    let version ← add_u32 overflow_checks (v37_read_u32 record 64) 1
    let manifest ← v38_write_record (v38_staging old) index
      [u32_field 64 version, u32_field 68 V38_WRITE_DATA.length, u32_field 72 old.next_free_lba,
        (80, digest V38_WRITE_DATA)]
    let next_free_lba ← add_u32 overflow_checks old.next_free_lba 1
    let manifest ← write_fields manifest [u32_field 16 next_free_lba]
    v38_commit overflow_checks old manifest (some V38_WRITE_DATA)

def v38_delete (overflow_checks : Bool) (old : V38State) : Dev V38State :=
  match v38_find old V38_DELETE_PATH with
  | none => Dev.throw "missing_file"
  | some index => do
    let record := v38_record (v38_staging old).val index
    let version ← add_u32 overflow_checks (v37_read_u32 record 64) 1
    let manifest ← v38_write_record (v38_staging old) index
      [u32_field 64 version, u32_field 76 V38_TYPE_TOMBSTONE]
    v38_commit overflow_checks old manifest none

/-- The mutations of the table. -/
inductive V38Op
  | create
  | write
  | delete
  deriving DecidableEq, Repr

def V38Op.run (overflow_checks : Bool) : V38Op → V38State → Dev V38State
  | .create => v38_create overflow_checks
  | .write => v38_write overflow_checks
  | .delete => v38_delete overflow_checks

end Bogbin.Kernel
