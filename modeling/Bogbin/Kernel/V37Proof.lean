import Bogbin.Kernel.CommitProof

/-!
# The v37 file system follows the alternate-root scheme

Validation is the scheme's validity (`v37_validate_iff`), the manifest of a commit passes the checks
unless the file version wrapped around to zero (`v37_new_manifest_ok`), and a commit does the
scheme's writes (`writes_v37_commit`).
-/

namespace Bogbin.Kernel

open Buffer BlockDevice Bogbin.Core AlternateRoot

def v37_table (r : Superblock) (m : Manifest) : Prop := v37_check_manifest r.generation m = .ok ()

def v37_loads (d : Disk) (s : Bool) (r : Superblock) (m : Manifest) : Option V37State :=
  (v37_load d (slot_lba s) r m).toOption

abbrev v37_scheme : Scheme Disk Superblock Manifest Bytes V37State :=
  root_scheme v37_format v37_table v37_loads

/-! ## Validation -/

theorem v37_validate_iff {d : Disk} {s : Bool} {st : V37State} :
    v37_validate_root d (slot_lba s) = .ok st ↔ ∃ r, v37_scheme.Valid d s r st := by
  simp only [v37_validate_root, bind_eq_ok, reject_if_eq_ok, not_not]
  constructor
  · rintro ⟨r, hr, -, hdigest, u, htable, hload⟩
    have hregion := region_lba_manifest (read_superblock_eq_ok hr).1
    refine ⟨r, toOption_eq_some.mpr hr, ?_, ?_, ?_⟩
    all_goals simp only [root_scheme, hregion]
    · exact hdigest
    · exact htable
    · exact toOption_eq_some.mpr hload
  · rintro ⟨r, hr, hdigest, htable, hload⟩
    have hr := toOption_eq_some.mp hr
    have hregion := region_lba_manifest (read_superblock_eq_ok hr).1
    simp only [root_scheme, hregion] at hdigest htable hload
    exact ⟨r, hr, (), hdigest, (), htable, toOption_eq_some.mp hload⟩

/-- The state of a valid root repeats the root. -/
theorem v37_state_eq {d : Disk} {s : Bool} {r : Superblock} {m : Manifest} {st : V37State}
    (h : v37_loads d s r m = some st) :
    st.generation = r.generation ∧ st.superblock_lba = slot_lba s ∧
      st.manifest_lba = r.manifest_lba ∧ st.next_free_lba = v37_read_u32 m.val 16 ∧
      st.root_hash = r.root_hash ∧ st.file_version = v37_read_u32 (v37_record m) 64 := by
  simp only [v37_loads, toOption_eq_some, v37_load, bind_eq_ok, reject_if_eq_ok,
    Except.ok.injEq] at h
  obtain ⟨-, -, -, -, rfl⟩ := h
  exact ⟨rfl, rfl, rfl, rfl, rfl, rfl⟩

/-- What a manifest that passed its checks says about the file. -/
theorem v37_table_bounds {r : Superblock} {m : Manifest} (h : v37_table r m) :
    65 ≤ v37_read_u32 m.val 16 ∧ v37_read_u32 m.val 16 ≤ 8192 ∧
      64 ≤ v37_read_u32 (v37_record m) 72 ∧
      v37_read_u32 (v37_record m) 72 < v37_read_u32 m.val 16 := by
  simp only [v37_table, v37_check_manifest, bind_eq_ok, reject_if_eq_ok] at h
  obtain ⟨-, -, -, -, -, hfree, -, -, hfile⟩ := h
  rw [V36_SECTOR_COUNT] at hfree hfile
  omega

theorem v37_loads_below_free : LoadsBelowFree v37_table v37_loads := by
  intro d d' s r m htable hsame
  have hbounds := v37_table_bounds htable
  have hfile : d' (v37_read_u32 (v37_record m) 72) = d (v37_read_u32 (v37_record m) 72) :=
    hsame _ hbounds.2.2.1 hbounds.2.2.2
  simp only [v37_loads, v37_load, hfile]

/-! ## Mounting -/

theorem v37_generation_eq {d : Disk} {s : Bool} {r : Superblock} {st : V37State}
    (h : v37_scheme.Valid d s r st) : st.generation = r.generation :=
  (v37_state_eq h.load).1

theorem v37_mounted_valid {d : Disk} {st : V37State} (h : v37.mounted d = some st) :
    ∃ s r, v37_scheme.Valid d s r st :=
  valid_of_mount_roots (fun _ _ _ => v37_validate_iff) h

theorem v37_mounts {d : Disk} {s : Bool} {r : Superblock} {st : V37State}
    (h : v37_scheme.Mounts d s r st) : v37.mounted d = some st :=
  mount_roots_of_mounts (fun _ _ _ => v37_validate_iff) (fun _ _ _ _ => v37_generation_eq) h

/-! ## New manifests -/

section Manifest

variable {generation file_version file_length data_lba : ℕ} {file_hash : Bytes} {m : Manifest}

theorem v37_manifest_fields_within (hhash : file_hash.length = 32) :
    Within (zeros 4096).length
      (v37_manifest_fields generation file_version file_length data_lba file_hash) := by
  simp [Within, v37_manifest_fields, u32_field, hhash, V37_PATH, ascii]

theorem v37_manifest_fields_apart (hhash : file_hash.length = 32) :
    (v37_manifest_fields generation file_version file_length data_lba file_hash).Pairwise
      Apart := by
  simp [Apart, v37_manifest_fields, u32_field, hhash, V37_PATH, ascii]

/-- The manifest of a commit: its fields read back, and it passes the checks unless the file version
is zero. -/
theorem v37_new_manifest_ok (hhash : file_hash.length = 32) (hgen : generation < 2 ^ 32)
    (hver : file_version < 2 ^ 32) (hlen : 1 ≤ file_length ∧ file_length ≤ 64)
    (hlba : 64 ≤ data_lba ∧ data_lba < 8192)
    (hm : m.val = write (zeros 4096)
      (v37_manifest_fields generation file_version file_length data_lba file_hash)) :
    v37_read_u32 m.val 16 = data_lba + 1 ∧ v37_read_u32 (v37_record m) 64 = file_version ∧
      v37_read_u32 (v37_record m) 68 = file_length ∧ v37_read_u32 (v37_record m) 72 = data_lba ∧
      v37_copy_hash (v37_record m) 80 = file_hash ∧
      (v37_check_manifest generation m = .ok () ↔ file_version ≠ 0) := by
  have hin := @v37_manifest_fields_within generation file_version file_length data_lba _ hhash
  have hapart := @v37_manifest_fields_apart generation file_version file_length data_lba _ hhash
  have hu32 (offset value : ℕ) (hvalue : value < 2 ^ 32) (hmem : u32_field offset value ∈
      v37_manifest_fields generation file_version file_length data_lba file_hash) :
      v37_read_u32 m.val offset = value := by
    rw [hm]
    exact read_u32_write hin hapart hmem hvalue
  have hrec (offset value : ℕ) (hoff : offset + 4 ≤ 128) (hvalue : value < 2 ^ 32)
      (hmem : u32_field (64 + offset) value ∈
        v37_manifest_fields generation file_version file_length data_lba file_hash) :
      v37_read_u32 (v37_record m) offset = value := by
    rw [v37_record, read_u32_slice _ hoff]
    exact hu32 _ value hvalue hmem
  have hgap (offset len : ℕ) (hlen : offset + len ≤ 4096) (hgap : ∀ f ∈
      v37_manifest_fields generation file_version file_length data_lba file_hash,
      offset + len ≤ f.1 ∨ f.1 + f.2.length ≤ offset) : slice m.val offset len = zeros len := by
    rw [hm, slice_write_gap hin hgap, slice_zeros hlen]
  have hmagic : slice m.val 0 8 = ascii "BOGMAN37" := by
    rw [hm]
    exact slice_write_field hin hapart (by simp [v37_manifest_fields]) (by decide)
  have hpath : slice (v37_record m) 0 17 = V37_PATH := by
    rw [v37_record, slice_slice _ (by norm_num), hm]
    exact slice_write_field hin hapart (by simp [v37_manifest_fields]) (by decide)
  have hpad : slice (v37_record m) 17 47 = zeros 47 := by
    rw [v37_record, slice_slice _ (by norm_num)]
    refine hgap _ _ (by norm_num) ?_
    simp [v37_manifest_fields, u32_field, hhash, V37_PATH, ascii]
  have hend : (v37_record m).drop 116 = zeros 12 := by
    have hlen : (v37_record m).length = 128 := length_slice _ (by rw [m.2]; norm_num)
    rw [@drop_eq_slice _ _ 116 12 hlen, v37_record, slice_slice _ (by norm_num)]
    refine hgap _ _ (by norm_num) ?_
    simp [v37_manifest_fields, u32_field, hhash, V37_PATH, ascii]
  have hfree := hu32 16 (data_lba + 1) (by omega) (by simp [v37_manifest_fields])
  have hversion := hrec 64 file_version (by norm_num) hver (by simp [v37_manifest_fields])
  have hlength := hrec 68 file_length (by norm_num) (by omega) (by simp [v37_manifest_fields])
  have hdata := hrec 72 data_lba (by norm_num) (by omega) (by simp [v37_manifest_fields])
  have hfile : v37_copy_hash (v37_record m) 80 = file_hash := by
    rw [v37_record, copy_hash_slice _ (by norm_num), hm]
    exact copy_hash_write hin hapart (by simp [v37_manifest_fields]) hhash
  have hone := hrec 76 1 (by norm_num) (by norm_num) (by simp [v37_manifest_fields])
  have hid := hrec 112 1 (by norm_num) (by norm_num) (by simp [v37_manifest_fields])
  have hgeneration := hu32 8 generation hgen (by simp [v37_manifest_fields])
  have hcount := hu32 12 1 (by norm_num) (by simp [v37_manifest_fields])
  refine ⟨hfree, hversion, hlength, hdata, hfile, ?_⟩
  simp only [v37_check_manifest, bind_eq_ok, reject_if_eq_ok, hmagic, hgeneration, hcount, hfree,
    hpath, hpad, hend, hversion, hlength, hdata, hone, hid, any_nonzero_zeros]
  constructor
  · rintro ⟨-, -, -, -, -, -, -, -, h⟩ rfl
    exact h (.inl rfl)
  · intro hne
    have hcount : V36_SECTOR_COUNT = 8192 := rfl
    have hmax : V37_MAX_FILE_SIZE = 64 := rfl
    exact ⟨(), by simp, (), by simp, (), by omega, (), by simp, by omega⟩

end Manifest

/-! ## Commits -/

/-- The data sector of a commit passes the checks of its record. -/
theorem v37_load_new {d : Disk} {s : Bool} {r : Superblock} {m : Manifest} {content : Bytes}
    {data_lba : ℕ} (hdata : (d data_lba).val = content ++ zeros (512 - content.length))
    (hlength : v37_read_u32 (v37_record m) 68 = content.length)
    (hlba : v37_read_u32 (v37_record m) 72 = data_lba)
    (hhash : v37_copy_hash (v37_record m) 80 = digest content) :
    ∃ new, v37_loads d s r m = some new := by
  have hpad : reject_if (any_nonzero ((d data_lba).val.drop content.length) = true)
      "noncanonical_file_padding" = .ok () := by
    rw [hdata, List.drop_left]
    simp [any_nonzero_zeros]
  have hsame : reject_if (digest ((d data_lba).val.take content.length) ≠ digest content)
      "file_content_hash_mismatch" = .ok () := by
    rw [hdata, List.take_left]
    simp
  simp only [v37_loads, v37_load, hlength, hlba, hhash, hpad, hsame]
  exact ⟨_, rfl⟩

/-- A commit from a valid root, when there is a free sector: its new table is well formed unless the
file version wraps around. -/
theorem v37_commits {d : Disk} {s : Bool} {r : Superblock} {old : V37State}
    (hv : v37_scheme.Valid d s r old) {content : Bytes}
    (hcontent : 1 ≤ content.length ∧ content.length ≤ 64)
    (hfull : old.next_free_lba < V36_SECTOR_COUNT) :
    ∃ sector m new, Commits v37_format v37_table v37_loads (v37_commit old content) d s r
        [(old.next_free_lba, sector)] m new
        ((v37_validate_root (store d (commit_writes v37_format [(old.next_free_lba, sector)] s r m))
          (slot_lba !s)).mapError Halt.error) ∧
      (v37_table (new_root v37_format r m) m ↔ (old.file_version + 1) % 2 ^ 32 ≠ 0) := by
  obtain ⟨hgen, hsb, hml, hfree, -⟩ := v37_state_eq hv.load
  have hlba := (read_superblock_eq_ok (toOption_eq_some.mp hv.root)).1
  change old.next_free_lba = v37_read_u32 (v37_read_manifest d
    (region_lba (decide (r.manifest_lba = V37_MANIFEST_B)))).val 16 at hfree
  have hbounds : 65 ≤ old.next_free_lba := hfree ▸ (v37_table_bounds hv.table).1
  rw [region_lba_manifest hlba] at hfree
  have hcount : V36_SECTOR_COUNT = 8192 := rfl
  obtain ⟨sector, hsector, hdata⟩ := writes_data_sector (by omega : content.length ≤ 512)
  have hin := @v37_manifest_fields_within ((r.generation + 1) % 2 ^ 32)
    ((old.file_version + 1) % 2 ^ 32) content.length old.next_free_lba _ (length_digest content)
  rw [length_zeros] at hin
  obtain ⟨m, hm, hfields⟩ := writes_fields ⟨zeros 4096, length_zeros 4096⟩ hin
  obtain ⟨-, -, hlength, hfile, hhash, hcheck⟩ := v37_new_manifest_ok (length_digest content)
    (Nat.mod_lt _ (by norm_num)) (Nat.mod_lt _ (by norm_num)) hcontent
    (by omega : 64 ≤ old.next_free_lba ∧ old.next_free_lba < 8192) hm
  have hstored := @store_commit_writes_data v37_format d s r m old.next_free_lba sector hlba
    (by omega)
  obtain ⟨new, hnew⟩ := @v37_load_new _ (!s) (new_root v37_format r m) m content _
    ((congrArg Subtype.val hstored).trans hsector) hlength hfile hhash
  refine ⟨sector, m, new, ⟨?_, ?_, fun _ => hnew, fun htable => ?_⟩, hcheck⟩
  · intro w hw
    rw [List.mem_singleton.mp hw, ← hfree]
    exact ⟨le_rfl, by dsimp only; omega⟩
  · unfold v37_commit
    rw [if_neg (Nat.not_le.mpr hfull), hsb, hml, hgen, other_superblock_slot]
    refine (hdata d).bind_left ((writes_sector_checked old.next_free_lba sector d).bind ?_)
    refine (hfields _).bind_left ?_
    refine (v37_format.writes_write_root _ _ _ m _).bind_right (Writes.getDisk.bind_left ?_)
    rw [← store_append]
    exact .ofExcept _
  · rw [v37_validate_iff.mpr ⟨_, valid_commit_writes hlba _ htable hnew⟩]
    rfl

/-- Without a free sector a commit writes nothing. -/
theorem writes_v37_commit_full {old : V37State} (h : V36_SECTOR_COUNT ≤ old.next_free_lba)
    (content : Bytes) (d : Disk) :
    Writes (v37_commit old content) d [] (.error (.error "storage_full")) := by
  unfold v37_commit
  rw [if_pos h]
  exact .halt _

theorem v37_follows : Follows v37 v37_format v37_table v37_loads where
  validate h := v37_validate_iff.mp h
  mount h := v37_mounts h
  commit {d s r old} hv content n := by
    by_cases hfull : old.next_free_lba < V36_SECTOR_COUNT
    · obtain ⟨sector, m, new, hcommits, -⟩ := v37_commits hv content.2 hfull
      rcases hcommits.torn_or_committed v37_loads_below_free hv n with htorn | ⟨r', hc, hresult⟩
      · exact .inl htorn
      · exact .inr ⟨r', new, hc, hresult⟩
    · have hwrites := writes_v37_commit_full (not_lt.mp hfull) content.val d
      refine .inl (.of_eq ?_)
      exact (hwrites.disk n).trans (congrArg (store d) (List.take_nil))

end Bogbin.Kernel
