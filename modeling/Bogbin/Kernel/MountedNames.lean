import Bogbin.Kernel.RootSelection
import Bogbin.Kernel.V38Lifecycle
import Bogbin.Kernel.V38Path

/-!
# The names in a mounted table

`v38_validate_root` looks for an earlier record with the same path, `v39_validate_root` does not.  So
every table that v38 mounts has canonical names, each once, and `v38_find` returns the record of a
name.  A table that v39 mounts has them if and only if the check that v39 leaves out would have found
nothing on the disk (`mounted_names`).
-/

namespace Bogbin.Kernel

open Buffer BlockDevice Bogbin.Core AlternateRoot

/-- The name of a record: its path field, up to the first NUL. -/
def record_name (record : Bytes) : Option Bytes := (v38_path_len record).map fun n => record.take n

/-- Every record has a canonical name of its own, and a name finds its record. -/
structure V38State.Named (st : V38State) : Prop where
  canonical : ∀ i < st.record_count, ∃ p, record_name (st.record i) = some p ∧ CanonicalPath p
  distinct : ∀ i < st.record_count, ∀ j < st.record_count,
    record_name (st.record i) = record_name (st.record j) → i = j
  find : ∀ p i, v38_find st p = some i ↔ i < st.record_count ∧ record_name (st.record i) = some p

/-- The check for a repeated name, which `v38_validate_root` makes of every record. -/
def names_repeat (manifest : Bytes) : Bool :=
  (List.range (v37_read_u32 manifest 12)).any fun index =>
    match v38_path_len (v38_record manifest index) with
    | none => false
    | some path_len => (List.range index).any fun other =>
      v38_path_eq (v38_record manifest other) ((v38_record manifest index).take path_len)

/-! ## The superblocks of v39 -/

/-- The manifest that a superblock points to. -/
def v39_manifest (d : Disk) (s : Bool) : Manifest :=
  v37_read_manifest d (v37_read_u32 (d (slot_lba s)).val 16)

def v39_generation (d : Disk) (s : Bool) : ℕ := v37_read_u32 (d (slot_lba s)).val 12

/-- The root in a slot is valid. -/
def v39_valid (d : Disk) (s : Bool) : Bool := (v39_validate_root d (slot_lba s)).isOk

/-- The root in this slot is the one that is mounted: slot A when the generations are equal. -/
def v39_takes (d : Disk) (s : Bool) : Prop :=
  v39_valid d s = true ∧ (v39_valid d (!s) = true →
    if s then v39_generation d false < v39_generation d true
    else v39_generation d true ≤ v39_generation d false)

/-! ## Names -/

section Names

variable {record path p : Bytes} {manifest : Bytes} {st : V38State} {d : Disk} {s : Bool} {i j : ℕ}

theorem path_eq_iff : v38_path_eq record path = true ↔ record_name record = some path := by
  unfold v38_path_eq record_name
  rw [decide_eq_true_eq]
  cases hlen : v38_path_len record with
  | none => simp
  | some n =>
    have hle : n ≤ record.length := by
      have hlt := (List.findIdx?_eq_some_iff_findIdx_eq.mp hlen).1
      rw [slice_zero, List.length_take] at hlt
      omega
    rw [Option.map_some, Option.some.injEq, Option.some.injEq]
    constructor
    · rintro ⟨rfl, htake⟩
      exact htake
    · rintro rfl
      rw [List.length_take, Nat.min_eq_left hle]
      exact ⟨rfl, rfl⟩

theorem record_name_eq_some {n : ℕ} (h : v38_path_len record = some n) :
    record_name record = some (record.take n) := by
  rw [record_name, h, Option.map_some]

theorem names_repeat_eq_false : names_repeat manifest = false ↔
    ∀ j < v37_read_u32 manifest 12, ∀ p, record_name (v38_record manifest j) = some p →
      ∀ i < j, record_name (v38_record manifest i) ≠ some p := by
  unfold names_repeat
  rw [List.any_eq_false]
  refine forall_congr' fun j => ?_
  rw [List.mem_range]
  refine imp_congr_right fun _ => ?_
  cases hlen : v38_path_len (v38_record manifest j) with
  | none => simp [record_name, hlen]
  | some n =>
    rw [record_name_eq_some hlen]
    simp [path_eq_iff]

/-- In a table of canonical names it is enough that no name is that of an earlier record. -/
theorem named_iff
    (hcanonical : ∀ i < st.record_count, ∃ p, record_name (st.record i) = some p ∧ CanonicalPath p) :
    st.Named ↔ ∀ j < st.record_count, ∀ p, record_name (st.record j) = some p →
      ∀ i < j, record_name (st.record i) ≠ some p := by
  constructor
  · intro h j hj p hp i hi heq
    have hsame := h.distinct i (hi.trans hj) j hj (heq.trans hp.symm)
    omega
  · intro h
    have hlt {i j : ℕ} (hj : j < st.record_count)
        (heq : record_name (st.record i) = record_name (st.record j)) : ¬ i < j := by
      intro hi
      obtain ⟨p, hp, -⟩ := hcanonical j hj
      exact h j hj p hp i hi (heq.trans hp)
    refine ⟨hcanonical, fun i hi j hj heq => ?_, fun p i => ?_⟩
    · exact le_antisymm (not_lt.mp (hlt hi heq.symm)) (not_lt.mp (hlt hj heq))
    · unfold v38_find
      rw [List.find?_range_eq_some]
      constructor
      · rintro ⟨hpath, hi, -⟩
        exact ⟨List.mem_range.mp hi, path_eq_iff.mp hpath⟩
      · rintro ⟨hi, hp⟩
        refine ⟨path_eq_iff.mpr hp, List.mem_range.mpr hi, fun j hj => ?_⟩
        rw [Bool.not_eq_true', Bool.eq_false_iff]
        exact fun hpath => h i hi p hp j hj (path_eq_iff.mp hpath)

/-- The names of the state of a manifest. -/
theorem named_state_iff {superblock_lba : ℕ} {r : Superblock} {m : Manifest}
    (hcount : v37_read_u32 m.val 12 ≤ 8)
    (hvalid : ∀ i < v37_read_u32 m.val 12, ∃ n, v38_path_len (v38_record m.val i) = some n ∧
      v38_path_valid ((v38_record m.val i).take n) = true) :
    (v38_state superblock_lba r m).Named ↔ names_repeat m.val = false := by
  have hrecord {i : ℕ} (hi : i < v37_read_u32 m.val 12) :
      (v38_state superblock_lba r m).record i = v38_record m.val i :=
    v38_record_state superblock_lba r m (hi.trans_le hcount)
  have hcanonical : ∀ i < (v38_state superblock_lba r m).record_count, ∃ p,
      record_name ((v38_state superblock_lba r m).record i) = some p ∧ CanonicalPath p := by
    intro i hi
    obtain ⟨n, hn, hpath⟩ := hvalid i hi
    rw [hrecord hi]
    exact ⟨_, record_name_eq_some hn, (path_valid_iff.mp hpath).1⟩
  rw [named_iff hcanonical, names_repeat_eq_false]
  refine forall_congr' fun j => imp_congr_right fun hj => forall_congr' fun p => ?_
  rw [hrecord hj]
  refine imp_congr_right fun _ => forall_congr' fun i => imp_congr_right fun hi => ?_
  rw [hrecord (hi.trans hj)]

end Names

/-! ## The mounted tables -/

section Mounted

variable {d : Disk} {s : Bool} {st : V38State}

/-- The check of a record against the ones before it excludes a repeated name. -/
theorem v38_table_names {r : Superblock} {m : Manifest} (h : v38_table r m) :
    names_repeat m.val = false := by
  rw [names_repeat_eq_false]
  intro j hj p hp i hi heq
  have hfalse := v38_path_unique h hi hj (path_eq_iff.mpr hp)
  rw [path_eq_iff.mpr heq] at hfalse
  cases hfalse

theorem v38_mount_named {a_reason b_reason : String} {fallback : Bool}
    (h : v38_mount d = .ok (st, a_reason, b_reason, fallback)) : st.Named := by
  obtain ⟨s, r, hv⟩ := @v38_mounted_valid false d st (congrArg (fun x => x.toOption.map Prod.fst) h)
  obtain ⟨htable, -, rfl⟩ := v38_valid_state hv
  refine (named_state_iff (v38_header_bounds htable.1).2.1 fun i hi => ?_).mpr (v38_table_names htable)
  obtain ⟨n, hn, hpath, -⟩ := check_record_eq_ok.mp (htable.2 i hi)
  exact ⟨n, hn, hpath.1⟩

theorem v39_read_superblock_fields {b : Bytes} {r : Superblock} (h : v39_read_superblock b = .ok r) :
    r.generation = v37_read_u32 b 12 ∧ r.manifest_lba = v37_read_u32 b 16 := by
  simp only [v39_read_superblock, reject_bind_eq_ok, Except.ok.injEq] at h
  obtain ⟨-, -, -, -, -, rfl⟩ := h
  exact ⟨rfl, rfl⟩

/-- A record that v39 accepts has a valid path. -/
theorem v39_check_record_path {next_free_lba : ℕ} {record : Bytes}
    (h : v39_check_record d next_free_lba record = .ok ()) :
    ∃ n, v38_path_len record = some n ∧ v38_path_valid (record.take n) = true := by
  unfold v39_check_record at h
  cases hlen : v38_path_len record with
  | none =>
    rw [hlen] at h
    cases h
  | some n =>
    rw [hlen] at h
    simp only [reject_bind_eq_ok, not_or, Bool.not_eq_false] at h
    exact ⟨n, rfl, h.1.1⟩

/-- A valid root of v39, and what its names depend on. -/
theorem v39_validate_eq_ok (h : v39_validate_root d (slot_lba s) = .ok st) :
    st.generation = v39_generation d s ∧
      (st.Named ↔ names_repeat (v39_manifest d s).val = false) := by
  simp only [v39_validate_root, bind_eq_ok, reject_if_eq_ok] at h
  obtain ⟨r, hr, _, -, _, hheader, _, hrecords, hst⟩ := h
  obtain ⟨hgeneration, hlba⟩ := v39_read_superblock_fields hr
  obtain rfl := Except.ok.inj hst
  have hmanifest : v37_read_manifest d r.manifest_lba = v39_manifest d s := by
    rw [hlba, v39_manifest]
  rw [hmanifest] at hheader hrecords ⊢
  refine ⟨hgeneration, named_state_iff ?_ fun i hi => ?_⟩
  · simp only [v39_check_header, reject_bind_eq_ok, reject_if_eq_ok] at hheader
    have hmax : V38_MAX_RECORDS = 8 := rfl
    omega
  · exact v39_check_record_path ((forM_eq_ok _ _).mp hrecords i (List.mem_range.mpr hi))

theorem v39_valid_iff : v39_valid d s = true ↔ ∃ st, v39_validate_root d (slot_lba s) = .ok st := by
  unfold v39_valid
  cases v39_validate_root d (slot_lba s) with
  | ok st => simp [Except.isOk, Except.toBool]
  | error e => simp [Except.isOk, Except.toBool]

theorem v39_mount_eq_ok :
    v39_mount d = .ok st ↔ ∃ s, v39_takes d s ∧ v39_validate_root d (slot_lba s) = .ok st := by
  have hslots : V37_SUPERBLOCK_A = slot_lba false ∧ V37_SUPERBLOCK_B = slot_lba true := ⟨rfl, rfl⟩
  unfold v39_mount v39_takes
  rw [hslots.1, hslots.2, Bool.exists_bool]
  simp only [v39_valid_iff, Bool.not_false, Bool.not_true]
  cases ha : v39_validate_root d (slot_lba false) with
  | ok av =>
    have hagen := (v39_validate_eq_ok ha).1
    cases hb : v39_validate_root d (slot_lba true) with
    | ok bv =>
      have hbgen := (v39_validate_eq_ok hb).1
      simp only [hagen, hbgen]
      by_cases hlt : v39_generation d false < v39_generation d true
      · simp [hlt]
      · simp [hlt, not_lt.mp hlt]
    | error e => simp
  | error e =>
    cases hb : v39_validate_root d (slot_lba true) with
    | ok bv => simp
    | error e => simp

/-- Every table that v38 mounts has canonical names, each once.  Those that v39 mounts have them if
and only if no name of the mounted manifest is repeated, which v39 does not check. -/
theorem mounted_names (d : Disk) :
    (∀ st a_reason b_reason fallback, v38_mount d = .ok (st, a_reason, b_reason, fallback) →
      st.Named) ∧
    ((∀ st, v39_mount d = .ok st → st.Named) ↔
      ∀ s, v39_takes d s → names_repeat (v39_manifest d s).val = false) := by
  refine ⟨fun st _ _ _ h => v38_mount_named h, ?_⟩
  constructor
  · intro h s hs
    obtain ⟨st, hst⟩ := v39_valid_iff.mp hs.1
    exact (v39_validate_eq_ok hst).2.mp (h st (v39_mount_eq_ok.mpr ⟨s, hs, hst⟩))
  · intro h st hst
    obtain ⟨s, hs, hvalid⟩ := v39_mount_eq_ok.mp hst
    exact (v39_validate_eq_ok hvalid).2.mpr (h s hs)

end Mounted

/-! ## Two records with one name -/

/-- The fields of a manifest of generation 1 that holds two directories `/a`. -/
def twin_manifest_fields : List (ℕ × Bytes) :=
  [(0, ascii "BOGMAN39"), u32_field 8 1, u32_field 12 2, u32_field 16 64,
    (24, digest (directory_record 1 ++ directory_record 2)), (64, directory_record 1),
    (192, directory_record 2)]

theorem twin_manifest_within : Within (zeros 4096).length twin_manifest_fields := by
  simp [Within, twin_manifest_fields, u32_field, ascii, length_directory_record]

theorem twin_manifest_apart : twin_manifest_fields.Pairwise Apart := by
  simp [Apart, twin_manifest_fields, u32_field, ascii, length_directory_record]

def twin_manifest : Manifest :=
  ⟨write (zeros 4096) twin_manifest_fields, by rw [length_write twin_manifest_within, length_zeros]⟩

def twin_image : Disk := first_image v39_format [] twin_manifest

theorem twin_manifest_number {offset value : ℕ} (hvalue : value < 2 ^ 32)
    (hmem : u32_field offset value ∈ twin_manifest_fields) :
    v37_read_u32 twin_manifest.val offset = value :=
  read_u32_write twin_manifest_within twin_manifest_apart hmem hvalue

theorem twin_manifest_count : v37_read_u32 twin_manifest.val 12 = 2 :=
  twin_manifest_number (by norm_num) (by simp [twin_manifest_fields])

theorem twin_manifest_record {i : ℕ} (hi : i < 2) :
    v38_record twin_manifest.val i = directory_record (i + 1) := by
  refine slice_write_field twin_manifest_within twin_manifest_apart ?_ (length_directory_record _)
  interval_cases i <;> simp [twin_manifest_fields, v38_record_offset, V38_RECORD_SIZE]

theorem twin_manifest_ok : v39_check_header 1 twin_manifest = .ok () := by
  have hmagic : slice twin_manifest.val 0 8 = ascii "BOGMAN39" :=
    slice_write_field twin_manifest_within twin_manifest_apart (by simp [twin_manifest_fields])
      (by decide)
  have h8 := @twin_manifest_number 8 1 (by norm_num) (by simp [twin_manifest_fields])
  have h16 := @twin_manifest_number 16 64 (by norm_num) (by simp [twin_manifest_fields])
  have hhash : v37_copy_hash twin_manifest.val 24 =
      digest (directory_record 1 ++ directory_record 2) :=
    copy_hash_write twin_manifest_within twin_manifest_apart (by simp [twin_manifest_fields])
      (length_digest _)
  have hlisting : v38_listing_hash twin_manifest.val 2 =
      digest (directory_record 1 ++ directory_record 2) := by
    rw [← twin_manifest_record (by norm_num : 0 < 2), ← twin_manifest_record (by norm_num : 1 < 2)]
    exact congrArg digest (slice_add twin_manifest.val 64 128 128)
  have hrecords : V38_MAX_RECORDS = 8 := rfl
  have hsectors : V36_SECTOR_COUNT = 8192 := rfl
  simp only [v39_check_header, reject_bind_eq_ok, reject_if_eq_ok, hmagic, h8, twin_manifest_count,
    h16, hhash, hlisting, hrecords, hsectors]
  simp

theorem twin_root_valid :
    v39_validate_root twin_image (slot_lba false) =
      .ok (v38_state (slot_lba false) (new_root v39_format no_root twin_manifest) twin_manifest) := by
  have hvalid := @first_image_valid Unit v39_format [] twin_manifest (fun _ _ => True)
    (fun _ _ _ _ => some ()) () trivial rfl
  have hread := hvalid.root
  simp only [root_scheme, toOption_eq_some] at hread
  have hroot := v39_read_superblock_of_format hread
  have hnone : ∀ w ∈ ([] : List (ℕ × Sector)), 64 ≤ w.1 := by simp
  have hregion : v37_read_manifest twin_image V37_MANIFEST_A = twin_manifest :=
    first_image_region hnone hnone false
  have hrecords : ((List.range 2).forM fun index =>
      v39_check_record twin_image (v37_read_u32 twin_manifest.val 16)
        (v38_record twin_manifest.val index)) = .ok () := by
    rw [forM_eq_ok]
    intro i hi
    rw [twin_manifest_record (List.mem_range.mp hi)]
    exact directory_record_ok _ _ _
  have hfields (m : Manifest) : (new_root v39_format no_root m).manifest_lba = V37_MANIFEST_A ∧
      (new_root v39_format no_root m).manifest_hash = digest m.val ∧
      (new_root v39_format no_root m).generation = 1 := ⟨rfl, rfl, rfl⟩
  obtain ⟨hlba, hhash, hgen⟩ := hfields twin_manifest
  unfold v39_validate_root
  simp only [twin_image] at hregion hrecords ⊢
  simp only [hroot, bind_eq_ok, Except.ok.injEq, exists_eq_left', hlba, hregion, hhash, hgen,
    reject_if_eq_ok, not_not, twin_manifest_count]
  exact ⟨(), trivial, (), twin_manifest_ok, (), hrecords, trivial⟩

/-- v39 mounts a table with two records of one name. -/
theorem twin_names_mounted : ∃ st, v39_mount twin_image = .ok st ∧ ¬ st.Named := by
  have hother : ∀ st, v39_validate_root twin_image (slot_lba true) ≠ .ok st := by
    intro st hst
    simp only [v39_validate_root, bind_eq_ok] at hst
    obtain ⟨r, hr, -⟩ := hst
    have hzeros : (twin_image (slot_lba true)).val = zeros 512 := first_image_other (by simp)
    rw [hzeros, v39_read_superblock, reject_bind_eq_ok, slice_zeros (by norm_num)] at hr
    exact hr.1 (by decide)
  have hmount := v39_mount_eq_ok.mpr ⟨false, ⟨v39_valid_iff.mpr ⟨_, twin_root_valid⟩, fun hb => ?_⟩,
    twin_root_valid⟩
  · refine ⟨_, hmount, fun hnamed => ?_⟩
    have hname {i : ℕ} (hi : i < 2) :
        record_name (V38State.record (v38_state (slot_lba false)
          (new_root v39_format no_root twin_manifest) twin_manifest) i) = some (ascii "/a") := by
      obtain ⟨hlen, htake⟩ := directory_record_path (i + 1)
      have hrecord := v38_record_state (slot_lba false) (new_root v39_format no_root twin_manifest)
        twin_manifest (hi.trans (by norm_num : 2 < 8))
      rw [V38State.record, hrecord, twin_manifest_record hi, record_name_eq_some hlen, htake]
    have hcount : (v38_state (slot_lba false) (new_root v39_format no_root twin_manifest)
        twin_manifest).record_count = 2 := twin_manifest_count
    have hsame := hnamed.distinct 0 (by omega) 1 (by omega)
      ((hname (by norm_num)).trans (hname (by norm_num)).symm)
    exact absurd hsame (by norm_num)
  · obtain ⟨st, hst⟩ := v39_valid_iff.mp hb
    exact absurd hst (hother st)

end Bogbin.Kernel
