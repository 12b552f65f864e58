import Bogbin.Core.Sha256
import Bogbin.Library.BlockDevice

/-!
# The sectors of the persistent file system

The sector operations and the root superblock that the v37 and v38 file systems share.  A disk is
given by its sectors; reads return the last sector written.  The two formats differ in their magic,
version, root tag and in one error text (`RootFormat`).
-/

namespace Bogbin.Kernel

open Buffer BlockDevice Bogbin.Core

/-- A sector, `[u8; V36_SECTOR_SIZE]`. -/
abbrev Sector := {b : Bytes // b.length = 512}

theorem length_zero_sector : (zeros 512).length = 512 := length_zeros 512

/-- A manifest of eight sectors, `[u8; V37_MANIFEST_SIZE]`. -/
abbrev Manifest := {b : Bytes // b.length = 4096}

abbrev Disk := BlockDevice.Disk Sector

abbrev Dev := BlockDevice.Dev Sector String

def V36_SECTOR_SIZE : ℕ := 512
def V36_SECTOR_COUNT : ℕ := 8192
def V37_SUPERBLOCK_A : ℕ := 1
def V37_SUPERBLOCK_B : ℕ := 2
def V37_MANIFEST_A : ℕ := 8
def V37_MANIFEST_B : ℕ := 16
def V37_MANIFEST_SECTORS : ℕ := 8
def V37_MAX_FILE_SIZE : ℕ := 64

/-- `sha256_standard` as bytes. -/
def digest (b : Bytes) : Bytes := (sha256_standard b).val

@[simp] theorem length_digest (b : Bytes) : (digest b).length = 32 := (sha256_standard b).2

/-! ## Fields -/

def v37_read_u32 (bytes : Bytes) (offset : ℕ) : ℕ := leValue (slice bytes offset 4)

def v37_copy_hash (bytes : Bytes) (offset : ℕ) : Bytes := slice bytes offset 32

/-- The field that `v37_write_u32` writes. -/
def u32_field (offset value : ℕ) : ℕ × Bytes := (offset, leBytes 4 value)

/-- `bytes.iter().any(|byte| *byte != 0)` -/
def any_nonzero (bytes : Bytes) : Bool := bytes.any (· ≠ 0)

/-- `a + b` on `u32`: a panic in a build with overflow checks, else the wrapped sum. -/
def add_u32 (overflow_checks : Bool) (a b : ℕ) : Dev ℕ :=
  if a + b < 2 ^ 32 then pure (a + b)
  else if overflow_checks then Dev.panic
  else pure ((a + b) % 2 ^ 32)

instance (n : ℕ) (fs : List (ℕ × Bytes)) : Decidable (Within n fs) :=
  inferInstanceAs (Decidable (∀ f ∈ fs, f.1 + f.2.length ≤ n))

/-- Write fields into a manifest; a slice out of range is a panic. -/
def write_fields (manifest : Manifest) (fs : List (ℕ × Bytes)) : Dev Manifest :=
  if h : Within 4096 fs then
    pure ⟨write manifest.val fs, by
      rw [length_write (by rw [manifest.2]; exact h), manifest.2]⟩
  else Dev.panic

/-- A sector that starts with the content; a slice out of range is a panic. -/
def data_sector (content : Bytes) : Dev Sector :=
  if h : content.length ≤ 512 then
    pure ⟨patch (zeros 512) 0 content, by
      rw [length_patch _ (by simpa using h), length_zeros]⟩
  else Dev.panic

/-! ## Sectors -/

def v37_read_manifest (d : Disk) (lba : ℕ) : Manifest :=
  ⟨(List.finRange 8).flatMap fun index : Fin 8 => (d (lba + index.val)).val, by
    simp [List.length_flatMap, (d _).2]⟩

/-- `manifest[index * 512..(index + 1) * 512]` -/
def manifest_sector (manifest : Manifest) (index : Fin 8) : Sector :=
  ⟨slice manifest.val (index * 512) 512, length_slice _ (by have := manifest.2; omega)⟩

def v37_write_sector_checked (lba : ℕ) (sector : Sector) (inject_readback_mismatch : Bool) :
    Dev Bytes := do
  Dev.write lba sector
  let readback ← Dev.read lba
  let expected := digest sector.val
  let observed := digest readback.val
  if inject_readback_mismatch ∨ observed ≠ expected then Dev.throw "readback_hash_mismatch"
  else pure observed

/-! ## Root superblocks -/

/-- What distinguishes the superblocks of the file systems. -/
structure RootFormat where
  magic : Bytes
  version : ℕ
  root_tag : Bytes
  padding_error : String
  magic_length : magic.length = 8
  version_lt : version < 2 ^ 32

/-- The fields of a superblock that passed its checks. -/
structure Superblock where
  generation : ℕ
  manifest_lba : ℕ
  manifest_hash : Bytes
  root_hash : Bytes
  deriving DecidableEq

namespace RootFormat

variable (format : RootFormat)

def root_hash (generation manifest_lba : ℕ) (manifest_hash : Bytes) : Bytes :=
  digest (format.root_tag ++ leBytes 4 generation ++ leBytes 4 manifest_lba ++ manifest_hash)

/-- The checks on a superblock before its manifest is read. -/
def read_superblock (superblock : Bytes) : Except String Superblock := do
  reject_if (slice superblock 0 8 ≠ format.magic) "bad_superblock_magic"
  reject_if (v37_read_u32 superblock 8 ≠ format.version) "bad_superblock_version"
  reject_if (any_nonzero (superblock.drop 120)) format.padding_error
  reject_if (digest (slice superblock 0 88) ≠ v37_copy_hash superblock 88)
    "superblock_checksum_mismatch"
  let generation := v37_read_u32 superblock 12
  let manifest_lba := v37_read_u32 superblock 16
  reject_if ((manifest_lba ≠ V37_MANIFEST_A ∧ manifest_lba ≠ V37_MANIFEST_B) ∨
    v37_read_u32 superblock 20 ≠ V37_MANIFEST_SECTORS) "invalid_manifest_pointer"
  let manifest_hash := v37_copy_hash superblock 24
  let root_hash := v37_copy_hash superblock 56
  reject_if (format.root_hash generation manifest_lba manifest_hash ≠ root_hash)
    "root_hash_mismatch"
  .ok ⟨generation, manifest_lba, manifest_hash, root_hash⟩

/-- The fields of a new superblock, without its checksum. -/
def superblock_fields (generation manifest_lba : ℕ) (manifest_hash : Bytes) : List (ℕ × Bytes) :=
  [(0, format.magic), u32_field 8 format.version, u32_field 12 generation,
    u32_field 16 manifest_lba, u32_field 20 V37_MANIFEST_SECTORS, (24, manifest_hash),
    (56, format.root_hash generation manifest_lba manifest_hash)]

/-- The bytes of a new superblock: its fields and their checksum. -/
def superblock_bytes (generation manifest_lba : ℕ) (manifest_hash : Bytes) : Bytes :=
  let superblock :=
    write (zeros 512) (format.superblock_fields generation manifest_lba manifest_hash)
  patch superblock 88 (digest (slice superblock 0 88))

/-- A new superblock; a slice out of range is a panic. -/
def new_superblock (generation manifest_lba : ℕ) (manifest_hash : Bytes) : Dev Sector :=
  if h : (format.superblock_bytes generation manifest_lba manifest_hash).length = 512 then
    pure ⟨format.superblock_bytes generation manifest_lba manifest_hash, h⟩
  else Dev.panic

/-- The last writes of a commit: the manifest, then the superblock that makes it a root. -/
def write_root (superblock_lba manifest_lba generation : ℕ) (manifest : Manifest) : Dev Unit := do
  (List.finRange 8).forM fun index => do
    let _ ← v37_write_sector_checked (manifest_lba + index) (manifest_sector manifest index) false
  let superblock ← format.new_superblock generation manifest_lba (digest manifest.val)
  let _ ← v37_write_sector_checked superblock_lba superblock false

end RootFormat

/-! ## Mounting -/

/-- The choice between the two roots of an image: the state, the reasons for both slots and whether
the mount fell back. -/
def mount_roots {S : Type} (generation : S → ℕ) (root_hash : S → Bytes)
    (fallback : String → Bool) (a b : Except String S) :
    Except String (S × String × String × Bool) :=
  let reason (x : Except String S) : String :=
    match x with
    | .ok _ => "none"
    | .error e => e
  match a, b with
  | .ok av, .ok bv =>
    if generation av = generation bv ∧ root_hash av ≠ root_hash bv then
      .error "ambiguous_equal_generation"
    else if generation av < generation bv then .ok (bv, reason a, reason b, false)
    else .ok (av, reason a, reason b, false)
  | .ok av, .error e => .ok (av, reason a, reason b, fallback e)
  | .error _, .ok bv => .ok (bv, reason a, reason b, true)
  | .error _, .error _ => .error "no_valid_root"

/-- The lba of the other manifest. -/
def other_manifest (manifest_lba : ℕ) : ℕ :=
  if manifest_lba = V37_MANIFEST_A then V37_MANIFEST_B else V37_MANIFEST_A

/-- The lba of the other superblock. -/
def other_superblock (superblock_lba : ℕ) : ℕ :=
  if superblock_lba = V37_SUPERBLOCK_A then V37_SUPERBLOCK_B else V37_SUPERBLOCK_A

end Bogbin.Kernel
