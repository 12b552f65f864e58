import Bogbin.Kernel.V37Proof
import Bogbin.Kernel.V38Mutation

/-!
# Images with one root

An image with one valid root in slot A and its manifest in both regions (`first_image`) mounts with
the state of that root.  `v37_first_image` holds a file of one byte, `v38_first_image` an empty file.
-/

namespace Bogbin.Kernel

open Buffer BlockDevice Bogbin.Core AlternateRoot

section FirstImage

variable {S : Type} (format : RootFormat) (data : List (ℕ × Sector)) (m : Manifest)

/-- The root that the first image replaces. -/
def no_root : Superblock := ⟨0, V37_MANIFEST_B, [], []⟩

/-- An image whose first root is in slot A, with its manifest in both regions. -/
def first_image : Disk :=
  store (store (fun _ => ⟨zeros 512, length_zero_sector⟩) (manifest_writes V37_MANIFEST_B m))
    (commit_writes format data true no_root m)

variable {format data m} {table : Superblock → Manifest → Prop}
  {load : Disk → Bool → Superblock → Manifest → Option S} {st : S}

theorem first_image_valid (htable : table (new_root format no_root m) m)
    (hload : load (first_image format data m) false (new_root format no_root m) m = some st) :
    (root_scheme format table load).Valid (first_image format data m) false
      (new_root format no_root m) st :=
  valid_commit_writes (.inr rfl) data htable hload

theorem first_image_other (hdata : ∀ w ∈ data, 64 ≤ w.1) :
    (first_image format data m (slot_lba !false)).val = zeros 512 := by
  unfold first_image
  rw [store_of_notMem, store_of_notMem]
  · intro w hw
    have := mem_manifest_writes hw
    have hslot : slot_lba (!false) = 2 := rfl
    have hregion : V37_MANIFEST_B = 16 := rfl
    omega
  · intro w hw
    have hslot : slot_lba (!false) = 2 := rfl
    have hother : slot_lba (!true) = 1 := rfl
    have hregion : other_manifest no_root.manifest_lba = 8 := rfl
    rcases List.mem_append.mp hw with hw | hw
    · have := hdata w hw
      omega
    rcases List.mem_append.mp hw with hw | hw
    · have := mem_manifest_writes hw
      omega
    · rw [List.mem_singleton.mp hw]
      dsimp only
      omega

theorem first_image_mounts (hmagic : format.magic ≠ zeros 8) (hdata : ∀ w ∈ data, 64 ≤ w.1)
    (htable : table (new_root format no_root m) m)
    (hload : load (first_image format data m) false (new_root format no_root m) m = some st) :
    (root_scheme format table load).Mounts (first_image format data m) false
      (new_root format no_root m) st := by
  refine ⟨first_image_valid htable hload, fun r' st' hv => ?_⟩
  have hroot := hv.root
  change (format.read_superblock _).toOption = _ at hroot
  rw [first_image_other hdata, read_superblock_zeros format hmagic] at hroot
  cases hroot

/-- Both regions hold the manifest, also after writes to data sectors. -/
theorem first_image_region (hdata : ∀ w ∈ data, 64 ≤ w.1) {ws : List (ℕ × Sector)}
    (hws : ∀ w ∈ ws, 64 ≤ w.1) (b : Bool) :
    v37_read_manifest (store (first_image format data m) ws) (region_lba b) = m := by
  have hregion : region_lba b + 8 ≤ 24 := by cases b <;> decide
  rw [read_manifest_store fun w hw => .inr ((by omega : region_lba b + 8 ≤ 64).trans (hws w hw))]
  cases b with
  | false => exact (@store_commit_writes format _ true no_root (.inr rfl) data m).2
  | true =>
    have hother : slot_lba (!true) = 1 := rfl
    have hmanifest : other_manifest no_root.manifest_lba = 8 := rfl
    have hlba : region_lba true = 16 := rfl
    rw [first_image, read_manifest_store]
    · exact read_manifest_writes V37_MANIFEST_B m _
    · intro w hw
      rcases List.mem_append.mp hw with hw | hw
      · have := hdata w hw
        omega
      rcases List.mem_append.mp hw with hw | hw
      · have := mem_manifest_writes hw
        omega
      · rw [List.mem_singleton.mp hw]
        dsimp only
        omega

end FirstImage

/-! ## One v37 file -/

/-- The manifest of a first v37 file, one byte in sector 64. -/
def v37_first_manifest : Manifest :=
  ⟨write (zeros 4096) (v37_manifest_fields 1 1 1 64 (digest (ascii "A"))), by
    rw [length_write (v37_manifest_fields_within (length_digest _)), length_zeros]⟩

def v37_first_sector : Sector := ⟨ascii "A" ++ zeros (512 - (ascii "A").length), by simp [ascii]⟩

def v37_first_image : Disk := first_image v37_format [(64, v37_first_sector)] v37_first_manifest

theorem v37_first_data (w : ℕ × Sector) (hw : w ∈ [(64, v37_first_sector)]) : 64 ≤ w.1 := by
  rw [List.mem_singleton.mp hw]

theorem v37_first_mounts : ∃ r st, r.generation = 1 ∧ st.file_version = 1 ∧ st.next_free_lba = 65 ∧
    v37_scheme.Mounts v37_first_image false r st := by
  obtain ⟨hfree, hversion, hlength, hlba, hhash, hcheck⟩ := @v37_new_manifest_ok 1 1 1 64 _
    v37_first_manifest (length_digest (ascii "A")) (by norm_num) (by norm_num) (by norm_num)
    (by norm_num) rfl
  have htable : v37_table (new_root v37_format no_root v37_first_manifest) v37_first_manifest :=
    hcheck.mpr one_ne_zero
  have hsector : v37_first_image 64 = v37_first_sector := by
    unfold v37_first_image first_image
    exact store_commit_writes_data _ v37_first_sector (.inr rfl) le_rfl
  obtain ⟨st, hst⟩ := @v37_load_new v37_first_image false
    (new_root v37_format no_root v37_first_manifest) v37_first_manifest (ascii "A") 64
    (congrArg Subtype.val hsector) hlength hlba hhash
  obtain ⟨-, -, -, hst_free, -, hst_version⟩ := v37_state_eq hst
  exact ⟨_, st, rfl, hst_version.trans hversion, hst_free.trans hfree,
    first_image_mounts (by decide) v37_first_data htable hst⟩

/-! ## One v38 record -/

section OneRecord

variable (record : Bytes) (next_free_lba : ℕ)

/-- The fields of a first manifest with one record. -/
def one_record_fields : List (ℕ × Bytes) :=
  [(0, ascii "BOGMAN38"), u32_field 8 1, u32_field 12 1, u32_field 16 next_free_lba, u32_field 20 2,
    (24, digest record), (64, record)]

variable {record next_free_lba} (hlen : record.length = 128)

include hlen

theorem one_record_fields_within :
    Within (zeros 4096).length (one_record_fields record next_free_lba) := by
  simp [Within, one_record_fields, u32_field, ascii, hlen]

theorem one_record_fields_apart : (one_record_fields record next_free_lba).Pairwise Apart := by
  simp [Apart, one_record_fields, u32_field, ascii, hlen]

variable {m : Manifest} (hm : m.val = write (zeros 4096) (one_record_fields record next_free_lba))

include hm

theorem one_record_number {offset value : ℕ} (hvalue : value < 2 ^ 32)
    (hmem : u32_field offset value ∈ one_record_fields record next_free_lba) :
    v37_read_u32 m.val offset = value :=
  hm ▸ read_u32_write (one_record_fields_within hlen) (one_record_fields_apart hlen) hmem hvalue

theorem one_record_slice {off len : ℕ} {src : Bytes}
    (h : (off, src) ∈ one_record_fields record next_free_lba) (hsrc : src.length = len) :
    slice m.val off len = src :=
  hm ▸ slice_write_field (one_record_fields_within hlen) (one_record_fields_apart hlen) h hsrc

theorem one_record_count : v37_read_u32 m.val 12 = 1 :=
  one_record_number hlen hm (by norm_num) (by simp [one_record_fields])

theorem one_record_eq : v38_record m.val 0 = record :=
  one_record_slice hlen hm (by simp [one_record_fields, v38_record_offset]) hlen

/-- The manifest of one record passes the checks before its record. -/
theorem one_record_header (hmin : 64 ≤ next_free_lba) (hmax : next_free_lba ≤ 8192) :
    v38_check_header 1 m = .ok () := by
  have h12 := one_record_count hlen hm
  have h16 : v37_read_u32 m.val 16 = next_free_lba :=
    one_record_number hlen hm (by omega) (by simp [one_record_fields])
  have hgap (off len : ℕ) (hle : off + len ≤ 4096)
      (h : ∀ f ∈ one_record_fields record next_free_lba,
        off + len ≤ f.1 ∨ f.1 + f.2.length ≤ off) :
      slice m.val off len = zeros len :=
    hm ▸ (slice_write_gap (one_record_fields_within hlen) h).trans (slice_zeros hle)
  have hmagic : slice m.val 0 8 = ascii "BOGMAN38" :=
    one_record_slice hlen hm (by simp [one_record_fields]) (by decide)
  have h8 := @one_record_number _ _ hlen _ hm 8 1 (by norm_num) (by simp [one_record_fields])
  have h20 := @one_record_number _ _ hlen _ hm 20 2 (by norm_num) (by simp [one_record_fields])
  have hhash : v37_copy_hash m.val 24 = digest record :=
    one_record_slice hlen hm (by simp [one_record_fields]) (length_digest _)
  have hlisting : v38_listing_hash m.val 1 = digest record :=
    congrArg digest (one_record_eq hlen hm)
  have hpad := hgap 56 8 (by norm_num) (by simp [one_record_fields, u32_field, ascii, hlen])
  have hend : m.val.drop (v38_record_offset 1) = zeros 3904 :=
    (@drop_eq_slice _ _ 192 3904 m.2).trans
      (hgap 192 3904 (by norm_num) (by simp [one_record_fields, u32_field, ascii, hlen]))
  have hsectors : V36_SECTOR_COUNT = 8192 := rfl
  simp only [v38_check_header, reject_bind_eq_ok, reject_if_eq_ok, hmagic, h8, h12, h16, h20,
    hhash, hlisting, hpad, hend, any_nonzero_zeros]
  refine ⟨by simp, ?_, by simp, by simp⟩
  have hrecords : V38_MAX_RECORDS = 8 := rfl
  omega

end OneRecord

/-! ## One v38 file -/

/-- The record of an empty file, as its creation writes it. -/
def v38_first_record : Bytes := write (zeros 128) (create_record_fields 1)

theorem length_v38_first_record : v38_first_record.length = 128 := by
  have hin := create_record_fields_within 1
  rw [← length_zeros 128] at hin
  rw [v38_first_record, length_write hin, length_zeros]

/-- The fields of a manifest with the one record. -/
def v38_first_fields : List (ℕ × Bytes) :=
  [(0, ascii "BOGMAN38"), u32_field 8 1, u32_field 12 1, u32_field 16 64, u32_field 20 2,
    (24, digest v38_first_record), (64, v38_first_record)]

theorem v38_first_fields_within : Within (zeros 4096).length v38_first_fields :=
  one_record_fields_within length_v38_first_record

def v38_first_manifest : Manifest :=
  ⟨write (zeros 4096) v38_first_fields, by
    rw [length_write v38_first_fields_within, length_zeros]⟩

def v38_first_image : Disk := first_image v38_format [] v38_first_manifest

theorem v38_first_number {offset value : ℕ} (hvalue : value < 2 ^ 32)
    (hmem : u32_field offset value ∈ v38_first_fields) :
    v37_read_u32 v38_first_manifest.val offset = value :=
  one_record_number length_v38_first_record rfl hvalue hmem

theorem v38_first_record_eq : v38_record v38_first_manifest.val 0 = v38_first_record :=
  @one_record_eq _ 64 length_v38_first_record _ rfl

theorem v38_first_table :
    v38_table (new_root v38_format no_root v38_first_manifest) v38_first_manifest := by
  have h12 := @v38_first_number 12 1 (by norm_num) (by simp [v38_first_fields])
  have h16 := @v38_first_number 16 64 (by norm_num) (by simp [v38_first_fields])
  obtain ⟨hfield, hfields, hentry, -⟩ := @create_record_ok 1 one_ne_zero (by norm_num) 64
  refine ⟨one_record_header length_v38_first_record rfl le_rfl (by norm_num), fun i hi => ?_⟩
  rw [h12] at hi
  obtain rfl : i = 0 := by omega
  rw [h16, check_record_eq_ok, v38_first_record_eq]
  exact ⟨13, create_record_path_len, hfield, hfields, fun _ h => absurd h (Nat.not_lt_zero _),
    hentry⟩

/-- The state of the first image. -/
def v38_first_state : V38State :=
  v38_state (slot_lba false) (new_root v38_format no_root v38_first_manifest) v38_first_manifest

theorem v38_first_mounts : v38_scheme.Mounts v38_first_image false
    (new_root v38_format no_root v38_first_manifest) v38_first_state := by
  have h12 := @v38_first_number 12 1 (by norm_num) (by simp [v38_first_fields])
  obtain ⟨-, -, -, hdata⟩ := @create_record_ok 1 one_ne_zero (by norm_num) 64
  refine first_image_mounts (by decide) (by simp) v38_first_table
    (v38_loads_eq_some.mpr ⟨fun i hi => ?_, rfl⟩)
  rw [h12] at hi
  obtain rfl : i = 0 := by omega
  rw [v38_first_record_eq]
  exact hdata _

/-- The file of the first image. -/
theorem v38_first_find : v38_find v38_first_state V38_NEW_PATH = some 0 := by
  have hcount : v38_first_state.record_count = 1 :=
    @v38_first_number 12 1 (by norm_num) (by simp [v38_first_fields])
  have hrecord : v38_record v38_first_state.manifest.val 0 = v38_first_record :=
    (v38_record_state _ _ _ (by norm_num)).trans v38_first_record_eq
  have hpath : v38_path_eq v38_first_record V38_NEW_PATH = true := by
    rw [v38_path_eq, v38_first_record, create_record_path_len]
    simp only [show V38_NEW_PATH.length = 13 by decide, create_record_take]
    decide
  unfold v38_find
  rw [hcount]
  simp [hrecord, hpath]

/-- Creating or writing the file returns a new state. -/
theorem v38_first_run (op : V38Op) (hop : op ≠ .delete) : ∃ new n,
    (op.run true v38_first_state ⟨v38_first_image, n⟩).1 = .ok new := by
  have hcount : v38_first_state.record_count = 1 :=
    @v38_first_number 12 1 (by norm_num) (by simp [v38_first_fields])
  have hlife : v38_first_state.next_lifecycle_id = 2 :=
    @v38_first_number 20 2 (by norm_num) (by simp [v38_first_fields])
  have hgen : v38_first_state.generation = 1 := rfl
  have hversion : v37_read_u32 (v38_record v38_first_state.manifest.val 0) 64 = 1 := by
    rw [show v38_record v38_first_state.manifest.val 0 = v38_first_record from
      (v38_record_state _ _ _ (by norm_num)).trans v38_first_record_eq]
    exact create_record_number (by simp [create_record_fields]) (by norm_num)
  rcases op.outcome true v38_first_mounts.1 with ⟨hstops, -⟩ | ⟨data, m, hcommits, -⟩
  · exfalso
    cases op with
    | create =>
      rcases hstops with hfull | ⟨-, hmax⟩ | ⟨-, hmax⟩
      · rw [hcount] at hfull
        exact absurd hfull (by decide)
      · omega
      · omega
    | write =>
      rcases hstops with hmax | ⟨-, hmax⟩
      · have := (hmax 0 v38_first_find).2
        omega
      · omega
    | delete => exact hop rfl
  · exact ⟨_, _, (hcommits.writes.result le_rfl).1⟩

end Bogbin.Kernel
