import Bogbin.Core.Genesis
import Bogbin.Kernel.FirstImage

/-!
# The genesis root at boot

`v40_try_load_genesis` reads the genesis record of a mounted v38 table.  An image that stores a
genesis root correctly (`StoresGenesis`) is never mounted, and the loader would not take the root
from it either: the canonical bytes have 277 bytes, a v38 file has at most 64, the loader takes at
most 256 and the hash of the root stages 256.
-/

namespace Bogbin.Kernel

open Buffer BlockDevice Bogbin.Core AlternateRoot

def V40_GENESIS_PATH : Bytes := ascii "/system/genesis_root"
def V40_GENESIS_RECORD_TYPE : ℕ := 4
def V40_MAX_GENESIS_BYTES : ℕ := 256

/-- The genesis hash, the workspace root and the ledger root of the genesis record; the outer `none`
is a panic. -/
def v40_try_load_genesis (d : Disk) (state : V38State) :
    Option (Option (Hash32 × Hash32 × Hash32)) :=
  match v38_find state V40_GENESIS_PATH with
  | none => some none
  | some idx =>
    let rec_ := v38_record state.manifest.val idx
    let entry_type := v37_read_u32 rec_ 76
    let len := v37_read_u32 rec_ 68
    if entry_type ≠ V38_TYPE_FILE ∧ entry_type ≠ V40_GENESIS_RECORD_TYPE then some none
    else if len = 0 ∨ V40_MAX_GENESIS_BYTES < len then some none
    else
      let data := (d (v37_read_u32 rec_ 72)).val
      if any_nonzero (data.drop len) then some none
      else if digest (data.take len) ≠ v38_record_hash rec_ then some none
      else
        match parse_genesis_root (data.take len) with
        | .ok gr => gr.compute_hash.map fun gh => some (gh, gr.workspace_root_hash, gr.ledger_root)
        | .error _ => some none

/-- The genesis root is loaded at boot: its slot validates, its hash is computed, and the loader
returns its hash, its workspace root and its ledger root. -/
def LoadsAtBoot (d : Disk) (superblock_lba : ℕ) (g : GenesisRoot) : Prop :=
  ∃ state, v38_validate_root d superblock_lba = .ok state ∧ g.compute_hash.isSome ∧
    v40_try_load_genesis d state =
      some (some (sha256 g.canonical, g.workspace_root_hash, g.ledger_root))

/-- A v38 root stores the canonical bytes of a genesis root in its genesis record, and everything
else about the root is valid. -/
structure StoresGenesis (d : Disk) (superblock_lba : ℕ) (g : GenesisRoot) (root : Superblock)
    (manifest : Manifest) (index : ℕ) : Prop where
  magic : g.magic = GenesisRoot.MAGIC
  superblock : v38_format.read_superblock (d superblock_lba).val = .ok root
  region : v37_read_manifest d root.manifest_lba = manifest
  manifest_hash : digest manifest.val = root.manifest_hash
  header : v38_check_header root.generation manifest = .ok ()
  index_lt : index < v37_read_u32 manifest.val 12
  others : ∀ i < v37_read_u32 manifest.val 12, i ≠ index →
    v38_check_record (v37_read_u32 manifest.val 16) manifest.val i = .ok () ∧
      v38_check_data d (v38_record manifest.val i) = .ok ()
  path : v38_path_eq (v38_record manifest.val index) V40_GENESIS_PATH = true
  fresh : ∀ i < index, v38_path_eq (v38_record manifest.val i) V40_GENESIS_PATH = false
  path_field : PathField (v38_record manifest.val index) V40_GENESIS_PATH.length
  version : v37_read_u32 (v38_record manifest.val index) 64 ≠ 0
  lifecycle_id : v37_read_u32 (v38_record manifest.val index) 112 ≠ 0
  record_version : v37_read_u32 (v38_record manifest.val index) 116 = 1
  padding : any_nonzero ((v38_record manifest.val index).drop 120) = false
  entry_type : v37_read_u32 (v38_record manifest.val index) 76 = V38_TYPE_FILE ∨
    v37_read_u32 (v38_record manifest.val index) 76 = V40_GENESIS_RECORD_TYPE
  lba_min : 64 ≤ v37_read_u32 (v38_record manifest.val index) 72
  lba_lt : v37_read_u32 (v38_record manifest.val index) 72 < v37_read_u32 manifest.val 16
  length : v37_read_u32 (v38_record manifest.val index) 68 = g.canonical.length
  hash : v38_record_hash (v38_record manifest.val index) = digest g.canonical
  sector : (d (v37_read_u32 (v38_record manifest.val index) 72)).val =
    g.canonical ++ zeros (512 - g.canonical.length)

namespace StoresGenesis

variable {d : Disk} {superblock_lba : ℕ} {g : GenesisRoot} {root : Superblock}
  {manifest : Manifest} {index : ℕ} (h : StoresGenesis d superblock_lba g root manifest index)

include h

/-- The record has a type or a length that the table does not allow. -/
theorem check_record_ne_ok :
    v38_check_record (v37_read_u32 manifest.val 16) manifest.val index ≠ .ok () := by
  intro hok
  obtain ⟨-, -, -, hfields, -, hentry⟩ := check_record_eq_ok.mp hok
  have hlength := h.length
  rw [g.length_canonical] at hlength
  rcases h.entry_type with hfile | hmarker
  · have hdir : V38_TYPE_FILE ≠ V38_TYPE_DIRECTORY := by decide
    have hmax : V37_MAX_FILE_SIZE = 64 := rfl
    unfold v38_check_entry at hentry
    simp only [hfile, if_neg hdir, if_pos, reject_bind_eq_ok, hlength] at hentry
    omega
  · have htype := hfields.1
    rw [hmarker] at htype
    exact absurd htype (by decide)

theorem validate_root_ne_ok (state : V38State) :
    v38_validate_root d superblock_lba ≠ .ok state := by
  intro hok
  simp only [v38_validate_root, bind_eq_ok] at hok
  obtain ⟨r, hr, _, -, _, -, _, hrecords, -⟩ := hok
  obtain rfl : root = r := Except.ok.inj (h.superblock.symm.trans hr)
  rw [h.region, forM_eq_ok] at hrecords
  obtain ⟨_, hrecord, -⟩ := bind_eq_ok.mp (hrecords index (List.mem_range.mpr h.index_lt))
  exact h.check_record_ne_ok hrecord

theorem index_lt_eight : index < 8 := by
  have hcount := (v38_header_bounds h.header).2.1
  have := h.index_lt
  omega

/-- The genesis record is the one the loader finds. -/
theorem find_eq : v38_find (v38_state superblock_lba root manifest) V40_GENESIS_PATH = some index := by
  have hrecord (i : ℕ) (hi : i ≤ index) :
      v38_record (v38_state superblock_lba root manifest).manifest.val i =
        v38_record manifest.val i :=
    v38_record_state _ _ _ (hi.trans_lt h.index_lt_eight)
  unfold v38_find
  rw [List.find?_range_eq_some]
  refine ⟨?_, List.mem_range.mpr h.index_lt, fun i hi => ?_⟩
  · rw [hrecord index le_rfl]
    exact h.path
  · rw [hrecord i hi.le, h.fresh i hi]
    rfl

theorem try_load_eq :
    v40_try_load_genesis d (v38_state superblock_lba root manifest) = some none := by
  have hrecord := v38_record_state superblock_lba root manifest h.index_lt_eight
  have hlength := h.length
  rw [g.length_canonical] at hlength
  have hmax : V40_MAX_GENESIS_BYTES = 256 := rfl
  unfold v40_try_load_genesis
  simp only [h.find_eq, hrecord, hlength]
  have htype : ¬ (v37_read_u32 (v38_record manifest.val index) 76 ≠ V38_TYPE_FILE ∧
      v37_read_u32 (v38_record manifest.val index) 76 ≠ V40_GENESIS_RECORD_TYPE) := by
    have := h.entry_type
    tauto
  rw [if_neg htype, if_pos (by omega)]

end StoresGenesis

/-- No genesis root that is stored correctly is loaded at boot: each of the three steps fails. -/
theorem genesis_root_not_loaded {d : Disk} {superblock_lba : ℕ} {g : GenesisRoot}
    {root : Superblock} {manifest : Manifest} {index : ℕ}
    (h : StoresGenesis d superblock_lba g root manifest index) :
    ¬ LoadsAtBoot d superblock_lba g ∧
      (∀ state, v38_validate_root d superblock_lba ≠ .ok state) ∧ g.compute_hash = none ∧
      v40_try_load_genesis d (v38_state superblock_lba root manifest) = some none :=
  ⟨fun ⟨state, hok, _⟩ => h.validate_root_ne_ok state hok, h.validate_root_ne_ok,
    g.compute_hash_eq_none, h.try_load_eq⟩

/-! ## An image that stores a genesis root -/

section Image

variable (g : GenesisRoot)

/-- The fields of a genesis record whose contents are in sector 64. -/
def genesis_record_fields : List (ℕ × Bytes) :=
  [(0, V40_GENESIS_PATH), u32_field 64 1, u32_field 68 g.canonical.length, u32_field 72 64,
    u32_field 76 V38_TYPE_FILE, (80, digest g.canonical), u32_field 112 1, u32_field 116 1]

def genesis_record : Bytes := write (zeros 128) (genesis_record_fields g)

theorem genesis_record_fields_within : Within (zeros 128).length (genesis_record_fields g) := by
  simp [Within, genesis_record_fields, u32_field, V40_GENESIS_PATH, ascii]

theorem length_genesis_record : (genesis_record g).length = 128 := by
  rw [genesis_record, length_write (genesis_record_fields_within g), length_zeros]

theorem genesis_record_field {off len : ℕ} {src : Bytes}
    (h : (off, src) ∈ genesis_record_fields g) (hlen : src.length = len) :
    slice (genesis_record g) off len = src := by
  have hapart : (genesis_record_fields g).Pairwise Apart := by
    simp [Apart, genesis_record_fields, u32_field, V40_GENESIS_PATH, ascii]
  exact slice_write_field (genesis_record_fields_within g) hapart h hlen

theorem genesis_record_number {off value : ℕ}
    (h : u32_field off value ∈ genesis_record_fields g) (hvalue : value < 2 ^ 32) :
    v37_read_u32 (genesis_record g) off = value := by
  rw [v37_read_u32, genesis_record_field g h (length_leBytes 4 value), leValue_u32 hvalue]

theorem genesis_record_gap {off len : ℕ} (hle : off + len ≤ 128)
    (h : ∀ f ∈ genesis_record_fields g, off + len ≤ f.1 ∨ f.1 + f.2.length ≤ off) :
    slice (genesis_record g) off len = zeros len :=
  (slice_write_gap (genesis_record_fields_within g) h).trans (slice_zeros hle)

theorem genesis_record_path :
    slice (genesis_record g) 0 64 = V40_GENESIS_PATH ++ zeros 44 := by
  have hpath : slice (genesis_record g) 0 20 = V40_GENESIS_PATH :=
    genesis_record_field g (by simp [genesis_record_fields]) (by decide)
  have hgap : slice (genesis_record g) 20 44 = zeros 44 :=
    genesis_record_gap g (by norm_num)
      (by simp [genesis_record_fields, u32_field, V40_GENESIS_PATH, ascii])
  rw [show 64 = 20 + 44 from rfl, slice_add, hpath, Nat.zero_add, hgap]

theorem genesis_record_path_len : v38_path_len (genesis_record g) = some 20 := by
  rw [v38_path_len, genesis_record_path]
  decide

theorem genesis_record_take : (genesis_record g).take 20 = V40_GENESIS_PATH := by
  rw [← slice_zero]
  exact genesis_record_field g (by simp [genesis_record_fields]) (by decide)

theorem genesis_path_valid : v38_path_valid V40_GENESIS_PATH = true := by decide

theorem genesis_record_path_field : PathField (genesis_record g) V40_GENESIS_PATH.length := by
  have hlen : V40_GENESIS_PATH.length = 20 := by decide
  have hgap : slice (genesis_record g) 21 43 = zeros 43 := genesis_record_gap g (by norm_num)
    (by simp [genesis_record_fields, u32_field, V40_GENESIS_PATH, ascii])
  rw [hlen, PathField, genesis_record_take, hgap]
  exact ⟨genesis_path_valid, any_nonzero_zeros 43⟩

def genesis_sector : Sector :=
  ⟨g.canonical ++ zeros (512 - g.canonical.length), by simp [g.length_canonical]⟩

def genesis_manifest : Manifest :=
  ⟨write (zeros 4096) (one_record_fields (genesis_record g) 65), by
    rw [length_write (one_record_fields_within (length_genesis_record g)), length_zeros]⟩

/-- An image whose one file is a genesis root. -/
def genesis_image : Disk := first_image v38_format [(64, genesis_sector g)] (genesis_manifest g)

theorem genesis_image_stores (hmagic : g.magic = GenesisRoot.MAGIC) :
    StoresGenesis (genesis_image g) V37_SUPERBLOCK_A g
      (new_root v38_format no_root (genesis_manifest g)) (genesis_manifest g) 0 := by
  have hrecord : v38_record (genesis_manifest g).val 0 = genesis_record g :=
    @one_record_eq _ 65 (length_genesis_record g) (genesis_manifest g) rfl
  have hcount : v37_read_u32 (genesis_manifest g).val 12 = 1 :=
    @one_record_count _ 65 (length_genesis_record g) (genesis_manifest g) rfl
  have hnumber {off value : ℕ} (h : u32_field off value ∈ genesis_record_fields g)
      (hvalue : value < 2 ^ 32) :
      v37_read_u32 (v38_record (genesis_manifest g).val 0) off = value := by
    rw [hrecord]
    exact genesis_record_number g h hvalue
  have hlba := @hnumber 72 64 (by simp [genesis_record_fields]) (by norm_num)
  have hstored := @store_commit_writes v38_format
    (store (fun _ => ⟨zeros 512, length_zeros 512⟩)
      (manifest_writes V37_MANIFEST_B (genesis_manifest g))) true no_root (.inr rfl)
    [(64, genesis_sector g)] (genesis_manifest g)
  have hsector : genesis_image g 64 = genesis_sector g := by
    unfold genesis_image first_image
    exact store_commit_writes_data _ (genesis_sector g) (.inr rfl) le_rfl
  constructor
  case magic => exact hmagic
  case superblock => exact hstored.1
  case region => exact hstored.2
  case manifest_hash => rfl
  case header =>
    exact one_record_header (length_genesis_record g) rfl (by norm_num) (by norm_num)
  case index_lt => omega
  case others =>
    intro i hi hne
    omega
  case path =>
    have hlen : V40_GENESIS_PATH.length = 20 := by decide
    simp only [v38_path_eq, hrecord, genesis_record_path_len, hlen, genesis_record_take, and_self,
      decide_true]
  case fresh => exact fun i hi => absurd hi (Nat.not_lt_zero i)
  case path_field =>
    rw [hrecord]
    exact genesis_record_path_field g
  case version =>
    rw [@hnumber 64 1 (by simp [genesis_record_fields]) (by norm_num)]
    exact one_ne_zero
  case lifecycle_id =>
    rw [@hnumber 112 1 (by simp [genesis_record_fields]) (by norm_num)]
    exact one_ne_zero
  case record_version => exact hnumber (by simp [genesis_record_fields]) (by norm_num)
  case padding =>
    rw [hrecord, @drop_eq_slice _ _ 120 8 (length_genesis_record g), genesis_record_gap g
      (by norm_num) (by simp [genesis_record_fields, u32_field, V40_GENESIS_PATH, ascii]),
      any_nonzero_zeros]
  case entry_type => exact .inl (hnumber (by simp [genesis_record_fields]) (by decide))
  case lba_min => exact hlba.ge
  case lba_lt =>
    have hfree := @one_record_number _ 65 (length_genesis_record g) (genesis_manifest g) rfl 16 65
      (by norm_num) (by simp [one_record_fields])
    omega
  case length =>
    exact hnumber (by simp [genesis_record_fields]) (by rw [g.length_canonical]; norm_num)
  case hash =>
    rw [hrecord]
    exact genesis_record_field g (by simp [genesis_record_fields]) (length_digest _)
  case sector =>
    rw [hlba, hsector]
    rfl

end Image

theorem genesis_root_not_loaded_image :
    StoresGenesis (genesis_image (make_genesis_root Digest.zero)) V37_SUPERBLOCK_A
        (make_genesis_root Digest.zero)
        (new_root v38_format no_root (genesis_manifest (make_genesis_root Digest.zero)))
        (genesis_manifest (make_genesis_root Digest.zero)) 0 ∧
      ∀ state, v38_validate_root (genesis_image (make_genesis_root Digest.zero))
        V37_SUPERBLOCK_A ≠ .ok state :=
  have hstores := genesis_image_stores (make_genesis_root Digest.zero) rfl
  ⟨hstores, (genesis_root_not_loaded hstores).2.1⟩

/-- A root that stores the minimal genesis root is refused. -/
theorem minimal_genesis_root_not_loaded :
    ¬ ∀ (d : Disk) (superblock_lba : ℕ) (g : GenesisRoot) (root : Superblock)
      (manifest : Manifest) (index : ℕ), StoresGenesis d superblock_lba g root manifest index →
        LoadsAtBoot d superblock_lba g := by
  intro hclaim
  have hstores := genesis_image_stores (make_genesis_root Digest.zero) rfl
  obtain ⟨state, hok, -⟩ := hclaim _ _ _ _ _ _ hstores
  exact hstores.validate_root_ne_ok state hok

end Bogbin.Kernel
