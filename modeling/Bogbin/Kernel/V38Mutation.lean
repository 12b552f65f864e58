import Bogbin.Kernel.V38Proof

/-!
# The mutations of the v38 table

Each mutation of a valid table has an outcome: it stops before its first write, or it commits a
table that is well formed exactly when `V38Op.accepted` holds of the old one (`V38Op.outcome`).
-/

namespace Bogbin.Kernel

open Buffer BlockDevice Bogbin.Core AlternateRoot

/-- The mutation of a valid table that keeps it valid. -/
def V38Op.accepted : V38Op → V38State → Prop
  | .create, old => v38_find old V38_NEW_PATH = none ∧ old.next_lifecycle_id ≠ 2 ^ 32 - 1
  | .write, old => ∀ index, v38_find old V38_NEW_PATH = some index →
      v37_read_u32 (v38_record old.manifest.val index) 76 ≠ V38_TYPE_DIRECTORY ∧
        v37_read_u32 (v38_record old.manifest.val index) 64 ≠ 2 ^ 32 - 1 ∧
        old.next_free_lba ≠ V36_SECTOR_COUNT
  | .delete, old => ∀ index, v38_find old V38_DELETE_PATH = some index →
      v37_read_u32 (v38_record old.manifest.val index) 64 ≠ 2 ^ 32 - 1

/-- The mutation that stops before its first write: there is no room or no file for it, or a number
overflows in a build that checks it. -/
def V38Op.stops (overflow_checks : Bool) : V38Op → V38State → Prop
  | .create, old => V38_MAX_RECORDS ≤ old.record_count ∨
      Overflows overflow_checks old.next_lifecycle_id ∨ Overflows overflow_checks old.generation
  | .write, old => (∀ index, v38_find old V38_NEW_PATH = some index →
      Overflows overflow_checks (v37_read_u32 (v38_record old.manifest.val index) 64)) ∨
        Overflows overflow_checks old.generation
  | .delete, old => (∀ index, v38_find old V38_DELETE_PATH = some index →
      Overflows overflow_checks (v37_read_u32 (v38_record old.manifest.val index) 64)) ∨
        Overflows overflow_checks old.generation

/-- The record of a mounted table. -/
theorem v38_record_state (superblock_lba : ℕ) (r : Superblock) (m : Manifest) {index : ℕ}
    (h : index < 8) :
    v38_record (v38_state superblock_lba r m).manifest.val index = v38_record m.val index := by
  change slice (slice m.val 0 1088) _ _ = _
  rw [slice_slice _ (by unfold v38_record_offset V38_RECORD_SIZE; omega), Nat.zero_add]
  rfl

theorem writes_v38_write_record {m : Manifest} {index : ℕ} {fs : List (ℕ × Bytes)}
    (hindex : index < 8) (hfs : Within 128 fs) :
    ∃ m1 : Manifest,
      m1.val = patch m.val (v38_record_offset index) (write (v38_record m.val index) fs) ∧
      ∀ d, Writes (v38_write_record m index fs) d [] (.ok m1) := by
  have hlen := length_v38_record m hindex
  have hwrite : (write (v38_record m.val index) fs).length = 128 := by
    rw [length_write (by rwa [hlen]), hlen]
  have hin : v38_record_offset index + (write (v38_record m.val index) fs).length ≤ 4096 := by
    unfold v38_record_offset V38_RECORD_SIZE
    omega
  refine ⟨⟨patch m.val (v38_record_offset index) (write (v38_record m.val index) fs), ?_⟩, rfl,
    fun d => ?_⟩
  · rw [length_patch _ (by rwa [m.2]), m.2]
  · rw [v38_write_record, dif_pos hin]
    exact .pure _

/-- The first record with a path. -/
theorem v38_find_eq_some {state : V38State} {path : Bytes} {index : ℕ}
    (h : v38_find state path = some index) : index < state.record_count := by
  unfold v38_find at h
  exact List.mem_range.mp (List.mem_of_find?_eq_some h)

/-- The fields that a write of data changes. -/
def write_record_fields (version next_free_lba : ℕ) : List (ℕ × Bytes) :=
  [u32_field 64 version, u32_field 68 V38_WRITE_DATA.length, u32_field 72 next_free_lba,
    (80, digest V38_WRITE_DATA)]

theorem write_record_fields_between (version next_free_lba : ℕ) :
    ∀ f ∈ write_record_fields version next_free_lba, 64 ≤ f.1 ∧ f.1 + f.2.length ≤ 112 := by
  simp [write_record_fields, u32_field]

section WriteRecord

variable {record : Bytes} (hlen : record.length = 128) {version next_free_lba : ℕ}
  (hversion : version < 2 ^ 32) (hfree : next_free_lba < 2 ^ 32)

include hlen hversion hfree

theorem read_write_record :
    v37_read_u32 (write record (write_record_fields version next_free_lba)) 64 = version ∧
      v37_read_u32 (write record (write_record_fields version next_free_lba)) 68 = 18 ∧
      v37_read_u32 (write record (write_record_fields version next_free_lba)) 72 = next_free_lba ∧
      v37_read_u32 (write record (write_record_fields version next_free_lba)) 76 =
        v37_read_u32 record 76 ∧
      v38_record_hash (write record (write_record_fields version next_free_lba)) =
        digest V38_WRITE_DATA := by
  have hin := within_record hlen (write_record_fields_between version next_free_lba)
  have hapart : (write_record_fields version next_free_lba).Pairwise Apart := by
    simp [Apart, write_record_fields, u32_field]
  refine ⟨?_, ?_, ?_, ?_, ?_⟩
  · exact read_u32_write hin hapart (by simp [write_record_fields]) hversion
  · exact read_u32_write hin hapart (by simp [write_record_fields, V38_WRITE_DATA, ascii])
      (by norm_num)
  · exact read_u32_write hin hapart (by simp [write_record_fields]) hfree
  · exact read_u32_write_gap hin (by simp [write_record_fields, u32_field])
  · exact copy_hash_write hin hapart (by simp [write_record_fields]) (length_digest _)

end WriteRecord

/-- The fields that a deletion changes. -/
def delete_record_fields (version : ℕ) : List (ℕ × Bytes) :=
  [u32_field 64 version, u32_field 76 V38_TYPE_TOMBSTONE]

theorem delete_record_fields_between (version : ℕ) :
    ∀ f ∈ delete_record_fields version, 64 ≤ f.1 ∧ f.1 + f.2.length ≤ 112 := by
  simp [delete_record_fields, u32_field]

theorem read_delete_record {record : Bytes} (hlen : record.length = 128) {version : ℕ}
    (hversion : version < 2 ^ 32) :
    v37_read_u32 (write record (delete_record_fields version)) 64 = version ∧
      v37_read_u32 (write record (delete_record_fields version)) 76 = V38_TYPE_TOMBSTONE := by
  have hin := within_record hlen (delete_record_fields_between version)
  have hapart : (delete_record_fields version).Pairwise Apart := by
    simp [Apart, delete_record_fields, u32_field]
  exact ⟨read_u32_write hin hapart (by simp [delete_record_fields]) hversion,
    read_u32_write hin hapart (by simp [delete_record_fields]) (by decide)⟩

/-- A program on a valid table that writes a new record into the staging manifest and commits it. -/
structure Stages (overflow_checks : Bool) (p : Dev V38State) (d : Disk) (s : Bool) (r : Superblock)
    (m : Manifest) (index : ℕ) (record : Bytes) (content : Option Bytes) (m1 : Manifest) :
    Prop where
  update : TableUpdate m index record m1
  runs : ∀ ws result,
    Writes (v38_commit overflow_checks (v38_state (slot_lba s) r m) m1 content) d ws result →
      Writes p d ws result

section Staged

variable (overflow_checks : Bool) {d : Disk} {s : Bool} {r : Superblock} {m : Manifest} {index : ℕ}
  (htable : v38_table r m)

include htable

/-- A write stops at an overflow of the version, or it stages the record with its new data. -/
theorem v38_write_staged
    (hfind : v38_find (v38_state (slot_lba s) r m) V38_NEW_PATH = some index) :
    (Overflows overflow_checks (v37_read_u32 (v38_record m.val index) 64) ∧
      Writes (v38_write overflow_checks (v38_state (slot_lba s) r m)) d [] (.error .panic)) ∨
    ((v37_read_u32 (v38_record m.val index) 64 + 1 < 2 ^ 32 ∨ overflow_checks = false) ∧
      ∃ m1, Stages overflow_checks (v38_write overflow_checks (v38_state (slot_lba s) r m)) d s r m
        index (write (v38_record m.val index) (write_record_fields
          ((v37_read_u32 (v38_record m.val index) 64 + 1) % 2 ^ 32) (v37_read_u32 m.val 16)))
        (some V38_WRITE_DATA) m1 ∧
      v37_read_u32 m1.val 12 = v37_read_u32 m.val 12 ∧
      v37_read_u32 m1.val 16 = v37_read_u32 m.val 16 + 1 ∧
      v37_read_u32 m1.val 20 = v37_read_u32 m.val 20) := by
  obtain ⟨-, hcount, hfirst, hlast, -⟩ := v38_header_bounds htable.1
  have hlt : index < v37_read_u32 m.val 12 := v38_find_eq_some hfind
  have hlen := length_v38_record m (by omega : index < 8)
  have hversion := read_u32_lt (v38_record m.val index) 64
  have hadd := writes_add_u32 overflow_checks (v37_read_u32 (v38_record m.val index) 64) 1 d
  unfold v38_write
  rw [hfind, v38_staging_eq htable.1]
  split_ifs at hadd with hif
  swap
  · exact .inl ⟨overflows_of_not hversion hif, hadd.bind_error⟩
  refine .inr ⟨hif, ?_⟩
  have hin := within_record hlen (write_record_fields_between
    ((v37_read_u32 (v38_record m.val index) 64 + 1) % 2 ^ 32) (v37_read_u32 m.val 16))
  rw [hlen] at hin
  obtain ⟨m1, hm1, hw1⟩ := @writes_v38_write_record m index _ (by omega) hin
  obtain ⟨m2, hm2, hw2⟩ := @writes_fields m1 [u32_field 16 (v37_read_u32 m.val 16 + 1)] (by
    simp [Within, u32_field])
  obtain ⟨hu1, hheader⟩ := tableUpdate_record (by omega : index < 8) hin hm1
  have hu2 := hu1.header (by simp [HeaderField, u32_field]) hm2
  refine ⟨m2, ⟨hu2, fun ws result hw => ?_⟩, ?_, ?_, ?_⟩
  · have hadd16 := writes_add_u32 overflow_checks (v37_read_u32 m.val 16) 1 d
    rw [if_pos (.inl (by omega)), Nat.mod_eq_of_lt (by omega)] at hadd16
    exact hadd.bind_left ((hw1 d).bind_left (hadd16.bind_left ((hw2 d).bind_left hw)))
  · exact (read_other_number hm2 (by norm_num) (.inl (by norm_num))).trans
      (congrArg leValue (hheader 12 4 (by norm_num)))
  · exact read_number hm2 (by omega) (by norm_num)
  · exact (read_other_number hm2 (by norm_num) (.inr (by norm_num))).trans
      (congrArg leValue (hheader 20 4 (by norm_num)))

/-- A deletion stops at an overflow of the version, or it stages the record as a tombstone. -/
theorem v38_delete_staged
    (hfind : v38_find (v38_state (slot_lba s) r m) V38_DELETE_PATH = some index) :
    (Overflows overflow_checks (v37_read_u32 (v38_record m.val index) 64) ∧
      Writes (v38_delete overflow_checks (v38_state (slot_lba s) r m)) d [] (.error .panic)) ∨
    ((v37_read_u32 (v38_record m.val index) 64 + 1 < 2 ^ 32 ∨ overflow_checks = false) ∧
      ∃ m1, Stages overflow_checks (v38_delete overflow_checks (v38_state (slot_lba s) r m)) d s r m
        index (write (v38_record m.val index) (delete_record_fields
          ((v37_read_u32 (v38_record m.val index) 64 + 1) % 2 ^ 32))) none m1 ∧
      v37_read_u32 m1.val 12 = v37_read_u32 m.val 12 ∧
      v37_read_u32 m1.val 16 = v37_read_u32 m.val 16 ∧
      v37_read_u32 m1.val 20 = v37_read_u32 m.val 20) := by
  obtain ⟨-, hcount, -⟩ := v38_header_bounds htable.1
  have hlt : index < v37_read_u32 m.val 12 := v38_find_eq_some hfind
  have hlen := length_v38_record m (by omega : index < 8)
  have hversion := read_u32_lt (v38_record m.val index) 64
  have hadd := writes_add_u32 overflow_checks (v37_read_u32 (v38_record m.val index) 64) 1 d
  unfold v38_delete
  rw [hfind, v38_staging_eq htable.1]
  split_ifs at hadd with hif
  swap
  · exact .inl ⟨overflows_of_not hversion hif, hadd.bind_error⟩
  refine .inr ⟨hif, ?_⟩
  have hin := within_record hlen (delete_record_fields_between
    ((v37_read_u32 (v38_record m.val index) 64 + 1) % 2 ^ 32))
  rw [hlen] at hin
  obtain ⟨m1, hm1, hw1⟩ := @writes_v38_write_record m index _ (by omega) hin
  obtain ⟨hu1, hheader⟩ := tableUpdate_record (by omega : index < 8) hin hm1
  have hnumber (offset : ℕ) (h : offset + 4 ≤ 64) :
      v37_read_u32 m1.val offset = v37_read_u32 m.val offset :=
    congrArg leValue (hheader offset 4 h)
  refine ⟨m1, ⟨hu1, fun ws result hw => ?_⟩, hnumber 12 (by norm_num), hnumber 16 (by norm_num),
    hnumber 20 (by norm_num)⟩
  exact hadd.bind_left ((hw1 d).bind_left hw)

end Staged

theorem v38_write_outcome (overflow_checks : Bool) {d : Disk} {s : Bool} {r : Superblock}
    {old : V38State} (hv : v38_scheme.Valid d s r old) :
    Outcome (v38_write overflow_checks old) d s r (V38Op.write.stops overflow_checks old)
      (V38Op.write.accepted old) := by
  obtain ⟨hlba, hgenlt, -⟩ := read_superblock_eq_ok (toOption_eq_some.mp hv.root)
  obtain ⟨htable, hdata, rfl⟩ := v38_valid_state hv
  generalize hm : v37_read_manifest d r.manifest_lba = m at htable hdata
  obtain ⟨-, hcount, hfirst, hlast, -⟩ := v38_header_bounds htable.1
  cases hfind : v38_find (v38_state (slot_lba s) r m) V38_NEW_PATH with
  | none =>
    unfold v38_write
    rw [hfind]
    exact .inl ⟨.inl fun index h => (nomatch hfind.symm.trans h), _, .halt _⟩
  | some index =>
    have hlt : index < v37_read_u32 m.val 12 := v38_find_eq_some hfind
    have hlen := length_v38_record m (by omega : index < 8)
    have hstate := v38_record_state (slot_lba s) r m (by omega : index < 8)
    rcases v38_write_staged overflow_checks htable hfind with
      ⟨hover, hpanic⟩ | ⟨-, m1, hstages, hn12, hn16, hn20⟩
    · refine .inl ⟨.inl fun i hi => ?_, _, hpanic⟩
      obtain rfl : index = i := Option.some.inj (hfind.symm.trans hi)
      rwa [hstate]
    obtain ⟨h64, h68, h72, h76, hhash⟩ := @read_write_record _ hlen
      ((v37_read_u32 (v38_record m.val index) 64 + 1) % 2 ^ 32) (v37_read_u32 m.val 16)
      (Nat.mod_lt _ (by norm_num)) (read_u32_lt _ _)
    have hcontent : ∀ c, some V38_WRITE_DATA = some c → c.length ≤ 512 := by
      rintro c ⟨⟩
      decide
    have hnew (d' : Disk) (hstored : ∀ c, some V38_WRITE_DATA = some c →
        (d' (v37_read_u32 m.val 16)).val = c ++ zeros (512 - c.length)) :
        v38_check_data d' (write (v38_record m.val index) (write_record_fields
          ((v37_read_u32 (v38_record m.val index) 64 + 1) % 2 ^ 32) (v37_read_u32 m.val 16))) =
          .ok () := by
      refine v38_check_data_written (h68.trans (by decide)) hhash ?_
      rw [h72]
      exact hstored _ rfl
    have hdone := outcome_of_record hlba hgenlt hm htable hdata hlt
      (write_record_fields_between _ _) hstages.update hn12 hn20 (by omega) hcontent hnew
      hstages.runs
    refine hdone.congr .inr ?_
    obtain ⟨n, -, -, hfields, -⟩ := check_record_eq_ok.mp (htable.2 index hlt)
    rw [check_entry_written (by rw [h68]; decide) (by rw [h72, hn16]; omega), h64, h76, hn16,
      and_iff_right hfields.1]
    have hversion := read_u32_lt (v38_record m.val index) 64
    simp only [V38Op.accepted, hfind, Option.some.injEq, forall_eq', hstate]
    have hsectors : V36_SECTOR_COUNT = 8192 := rfl
    have hlba : (v38_state (slot_lba s) r m).next_free_lba = v37_read_u32 m.val 16 := rfl
    rw [hsectors, hlba]
    constructor
    · rintro ⟨hle, hne, hdir⟩
      exact ⟨hdir, by omega, by omega⟩
    · rintro ⟨hdir, hne, hfull⟩
      exact ⟨by omega, by omega, hdir⟩

theorem v38_delete_outcome (overflow_checks : Bool) {d : Disk} {s : Bool} {r : Superblock}
    {old : V38State} (hv : v38_scheme.Valid d s r old) :
    Outcome (v38_delete overflow_checks old) d s r (V38Op.delete.stops overflow_checks old)
      (V38Op.delete.accepted old) := by
  obtain ⟨hlba, hgenlt, -⟩ := read_superblock_eq_ok (toOption_eq_some.mp hv.root)
  obtain ⟨htable, hdata, rfl⟩ := v38_valid_state hv
  generalize hm : v37_read_manifest d r.manifest_lba = m at htable hdata
  obtain ⟨-, hcount, -, hlast, -⟩ := v38_header_bounds htable.1
  cases hfind : v38_find (v38_state (slot_lba s) r m) V38_DELETE_PATH with
  | none =>
    unfold v38_delete
    rw [hfind]
    exact .inl ⟨.inl fun index h => (nomatch hfind.symm.trans h), _, .halt _⟩
  | some index =>
    have hlt : index < v37_read_u32 m.val 12 := v38_find_eq_some hfind
    have hlen := length_v38_record m (by omega : index < 8)
    have hstate := v38_record_state (slot_lba s) r m (by omega : index < 8)
    rcases v38_delete_staged overflow_checks htable hfind with
      ⟨hover, hpanic⟩ | ⟨-, m1, hstages, hn12, hn16, hn20⟩
    · refine .inl ⟨.inl fun i hi => ?_, _, hpanic⟩
      obtain rfl : index = i := Option.some.inj (hfind.symm.trans hi)
      rwa [hstate]
    obtain ⟨h64, h76⟩ := @read_delete_record _ hlen
      ((v37_read_u32 (v38_record m.val index) 64 + 1) % 2 ^ 32) (Nat.mod_lt _ (by norm_num))
    have hnew (d' : Disk) (_ : ∀ c, (none : Option Bytes) = some c →
        (d' (v37_read_u32 m.val 16)).val = c ++ zeros (512 - c.length)) :
        v38_check_data d' (write (v38_record m.val index) (delete_record_fields
          ((v37_read_u32 (v38_record m.val index) 64 + 1) % 2 ^ 32))) = .ok () := by
      unfold v38_check_data
      rw [reject_if_eq_ok, h76]
      exact fun h => absurd h.1 (by decide)
    have hdone := outcome_of_record hlba hgenlt hm htable hdata hlt
      (delete_record_fields_between _) hstages.update hn12 hn20 hn16.ge
      (fun _ hc => by cases hc) hnew hstages.runs
    refine hdone.congr .inr ?_
    have hentry : v38_check_entry (v37_read_u32 m1.val 16) (write (v38_record m.val index)
        (delete_record_fields ((v37_read_u32 (v38_record m.val index) 64 + 1) % 2 ^ 32))) =
        .ok () := by
      unfold v38_check_entry
      dsimp only
      rw [h76, if_neg (by decide), if_neg (by decide)]
    have hversion := read_u32_lt (v38_record m.val index) 64
    rw [hentry, h64, h76, hn16]
    simp only [V38Op.accepted, hfind, Option.some.injEq, forall_eq', hstate]
    constructor
    · rintro ⟨-, -, hne, -⟩
      omega
    · intro hne
      exact ⟨hlast, .inr (.inr trivial), by omega, trivial⟩

/-! ## Creation -/

/-- The fields of a new record. -/
def create_record_fields (lifecycle_id : ℕ) : List (ℕ × Bytes) :=
  [(0, V38_NEW_PATH), u32_field 64 1, u32_field 76 V38_TYPE_FILE, (80, digest []),
    u32_field 112 lifecycle_id, u32_field 116 1]

theorem create_record_fields_within (lifecycle_id : ℕ) :
    Within 128 (create_record_fields lifecycle_id) := by
  simp [Within, create_record_fields, u32_field, V38_NEW_PATH, ascii]

section CreateRecord

variable {lifecycle_id : ℕ}

theorem create_record_gap {off len : ℕ} (hle : off + len ≤ 128)
    (h : ∀ f ∈ create_record_fields lifecycle_id, off + len ≤ f.1 ∨ f.1 + f.2.length ≤ off) :
    slice (write (zeros 128) (create_record_fields lifecycle_id)) off len = zeros len := by
  have hin := create_record_fields_within lifecycle_id
  rw [← length_zeros 128] at hin
  rw [slice_write_gap hin h, slice_zeros hle]

theorem create_record_field {off len : ℕ} {src : Bytes}
    (h : (off, src) ∈ create_record_fields lifecycle_id) (hlen : src.length = len) :
    slice (write (zeros 128) (create_record_fields lifecycle_id)) off len = src := by
  have hin := create_record_fields_within lifecycle_id
  rw [← length_zeros 128] at hin
  have hapart : (create_record_fields lifecycle_id).Pairwise Apart := by
    simp [Apart, create_record_fields, u32_field, V38_NEW_PATH, ascii]
  exact slice_write_field hin hapart h hlen

/-- The path field of a new record. -/
theorem create_record_path :
    slice (write (zeros 128) (create_record_fields lifecycle_id)) 0 64 =
      V38_NEW_PATH ++ zeros 51 := by
  have hpath : slice (write (zeros 128) (create_record_fields lifecycle_id)) 0 13 = V38_NEW_PATH :=
    create_record_field (by simp [create_record_fields]) (by decide)
  have hgap : slice (write (zeros 128) (create_record_fields lifecycle_id)) 13 51 = zeros 51 :=
    create_record_gap (by norm_num)
      (by simp [create_record_fields, u32_field, V38_NEW_PATH, ascii])
  rw [show (64 : ℕ) = 13 + 51 from rfl, slice_add, hpath, Nat.zero_add, hgap]

theorem create_record_path_len :
    v38_path_len (write (zeros 128) (create_record_fields lifecycle_id)) = some 13 := by
  rw [v38_path_len, create_record_path]
  decide

theorem create_record_take :
    (write (zeros 128) (create_record_fields lifecycle_id)).take 13 = V38_NEW_PATH := by
  rw [← slice_zero]
  exact create_record_field (by simp [create_record_fields]) (by decide)

theorem create_record_number {off value : ℕ}
    (h : u32_field off value ∈ create_record_fields lifecycle_id) (hvalue : value < 2 ^ 32) :
    v37_read_u32 (write (zeros 128) (create_record_fields lifecycle_id)) off = value := by
  rw [v37_read_u32, create_record_field h (length_leBytes 4 value), leValue_u32 hvalue]

/-- A new record passes its checks. -/
theorem create_record_ok (hid : lifecycle_id ≠ 0) (hlt : lifecycle_id < 2 ^ 32)
    (next_free_lba : ℕ) :
    PathField (write (zeros 128) (create_record_fields lifecycle_id)) 13 ∧
      RecordFields (write (zeros 128) (create_record_fields lifecycle_id)) ∧
      v38_check_entry next_free_lba (write (zeros 128) (create_record_fields lifecycle_id)) =
        .ok () ∧
      ∀ d, v38_check_data d (write (zeros 128) (create_record_fields lifecycle_id)) = .ok () := by
  have hzero (off : ℕ) (hle : off + 4 ≤ 128) (h : ∀ f ∈ create_record_fields lifecycle_id,
      off + 4 ≤ f.1 ∨ f.1 + f.2.length ≤ off) :
      v37_read_u32 (write (zeros 128) (create_record_fields lifecycle_id)) off = 0 := by
    rw [v37_read_u32, create_record_gap hle h]
    decide
  have h64 := @create_record_number lifecycle_id 64 1 (by simp [create_record_fields]) (by norm_num)
  have h68 := hzero 68 (by norm_num)
    (by simp [create_record_fields, u32_field, V38_NEW_PATH, ascii])
  have h72 := hzero 72 (by norm_num)
    (by simp [create_record_fields, u32_field, V38_NEW_PATH, ascii])
  have h76 := @create_record_number lifecycle_id 76 V38_TYPE_FILE (by simp [create_record_fields])
    (by decide)
  have h112 := @create_record_number lifecycle_id 112 lifecycle_id (by simp [create_record_fields])
    hlt
  have h116 := @create_record_number lifecycle_id 116 1 (by simp [create_record_fields])
    (by norm_num)
  have hhash : v38_record_hash (write (zeros 128) (create_record_fields lifecycle_id)) =
      digest [] :=
    create_record_field (by simp [create_record_fields]) (length_digest _)
  have hlen : (write (zeros 128) (create_record_fields lifecycle_id)).length = 128 := by
    have hin := create_record_fields_within lifecycle_id
    rw [← length_zeros 128] at hin
    rw [length_write hin, length_zeros]
  refine ⟨⟨?_, ?_⟩, ⟨.inl h76, by rw [h64]; norm_num, by rwa [h112], h116, ?_⟩, ?_, fun d => ?_⟩
  · rw [create_record_take]
    decide
  · rw [create_record_gap (by norm_num)
      (by simp [create_record_fields, u32_field, V38_NEW_PATH, ascii]), any_nonzero_zeros]
  · rw [@drop_eq_slice _ _ 120 8 hlen, create_record_gap (by norm_num)
      (by simp [create_record_fields, u32_field, V38_NEW_PATH, ascii]), any_nonzero_zeros]
  · unfold v38_check_entry
    dsimp only
    rw [h76, h68, h72, hhash, if_neg (by decide), if_pos rfl]
    simp
  · unfold v38_check_data
    rw [reject_if_eq_ok, h68]
    exact fun h => h.2.1 rfl

end CreateRecord

/-- Behind its last record a valid table is zero. -/
theorem v38_free_record {r : Superblock} {m : Manifest} (h : v38_table r m)
    (hcount : v37_read_u32 m.val 12 < 8) :
    v38_record m.val (v37_read_u32 m.val 12) = zeros 128 := by
  obtain ⟨-, -, -, -, -, hend⟩ := v38_header_bounds h.1
  have hzero := eq_zeros_of_any_nonzero hend
  rw [v38_record, slice, hzero, zeros, List.take_replicate, List.length_drop, m.2]
  refine congrArg zeros ?_
  unfold v38_record_offset V38_RECORD_SIZE
  omega

/-- A creation in a table with room stops at an overflow of the next lifecycle id, or it stages a
new record. -/
theorem v38_create_staged (overflow_checks : Bool) {d : Disk} {s : Bool} {r : Superblock}
    {m : Manifest} (htable : v38_table r m) (hroom : v37_read_u32 m.val 12 < 8) :
    (Overflows overflow_checks (v37_read_u32 m.val 20) ∧
      Writes (v38_create overflow_checks (v38_state (slot_lba s) r m)) d [] (.error .panic)) ∨
    ((v37_read_u32 m.val 20 + 1 < 2 ^ 32 ∨ overflow_checks = false) ∧
      ∃ m1, Stages overflow_checks (v38_create overflow_checks (v38_state (slot_lba s) r m)) d s r m
        (v37_read_u32 m.val 12) (write (zeros 128) (create_record_fields (v37_read_u32 m.val 20)))
        none m1 ∧
      v37_read_u32 m1.val 12 = v37_read_u32 m.val 12 + 1 ∧
      v37_read_u32 m1.val 16 = v37_read_u32 m.val 16 ∧
      v37_read_u32 m1.val 20 = (v37_read_u32 m.val 20 + 1) % 2 ^ 32) := by
  have hrecord := v38_free_record htable hroom
  have hin := create_record_fields_within (v37_read_u32 m.val 20)
  obtain ⟨m1, hm1, hw1⟩ := @writes_v38_write_record m (v37_read_u32 m.val 12) _ hroom hin
  obtain ⟨m2, hm2, hw2⟩ := @writes_fields m1 [u32_field 12 (v37_read_u32 m.val 12 + 1)] (by
    simp [Within, u32_field])
  have hadd := writes_add_u32 overflow_checks (v37_read_u32 m.val 20) 1 d
  have hroom' : ¬ V38_MAX_RECORDS ≤ (v38_state (slot_lba s) r m).record_count := not_le.mpr hroom
  unfold v38_create
  rw [if_neg hroom', v38_staging_eq htable.1]
  split_ifs at hadd with hif
  swap
  · refine .inl ⟨overflows_of_not (read_u32_lt _ _) hif, ?_⟩
    exact (hw1 d).bind_left ((hw2 d).bind_left hadd.bind_error)
  refine .inr ⟨hif, ?_⟩
  obtain ⟨m3, hm3, hw3⟩ := @writes_fields m2
    [u32_field 20 ((v37_read_u32 m.val 20 + 1) % 2 ^ 32)] (by simp [Within, u32_field])
  obtain ⟨hu1, hheader⟩ := tableUpdate_record hroom hin hm1
  have hu2 := hu1.header (by simp [HeaderField, u32_field]) hm2
  have hu3 := hu2.header (by simp [HeaderField, u32_field]) hm3
  rw [hrecord] at hu3
  refine ⟨m3, ⟨hu3, fun ws result hw => ?_⟩, ?_, ?_, ?_⟩
  · exact (hw1 d).bind_left ((hw2 d).bind_left (hadd.bind_left ((hw3 d).bind_left hw)))
  · exact (read_other_number hm3 (by norm_num) (.inl (by norm_num))).trans
      (read_number hm2 (by omega) (by norm_num))
  · exact (read_other_number hm3 (by norm_num) (.inl (by norm_num))).trans
      ((read_other_number hm2 (by norm_num) (.inr (by norm_num))).trans
        (congrArg leValue (hheader 16 4 (by norm_num))))
  · exact read_number hm3 (Nat.mod_lt _ (by norm_num)) (by norm_num)

theorem v38_create_outcome (overflow_checks : Bool) {d : Disk} {s : Bool} {r : Superblock}
    {old : V38State} (hv : v38_scheme.Valid d s r old) :
    Outcome (v38_create overflow_checks old) d s r (V38Op.create.stops overflow_checks old)
      (V38Op.create.accepted old) := by
  obtain ⟨hlba, hgenlt, -⟩ := read_superblock_eq_ok (toOption_eq_some.mp hv.root)
  obtain ⟨htable, hdata, rfl⟩ := v38_valid_state hv
  generalize hm : v37_read_manifest d r.manifest_lba = m at htable hdata
  obtain ⟨-, -, -, hlast, hid, -⟩ := v38_header_bounds htable.1
  have hidlt := read_u32_lt m.val 20
  by_cases hfull : 8 ≤ v37_read_u32 m.val 12
  · have hfull' : V38_MAX_RECORDS ≤ (v38_state (slot_lba s) r m).record_count := hfull
    unfold v38_create
    rw [if_pos hfull']
    exact .inl ⟨.inl hfull', _, .halt _⟩
  rcases v38_create_staged overflow_checks htable (not_le.mp hfull) with
    ⟨hover, hpanic⟩ | ⟨-, m1, hstages, hn12, hn16, hn20⟩
  · exact .inl ⟨.inr (.inl hover), _, hpanic⟩
  obtain ⟨hfield, hfields, hentry, hcheck⟩ := create_record_ok hid hidlt (v37_read_u32 m.val 16)
  have hpath : ∀ m' : Manifest, TableUpdate m (v37_read_u32 m.val 12)
      (write (zeros 128) (create_record_fields (v37_read_u32 m.val 20))) m' →
      (v38_check_record (v37_read_u32 m1.val 16) m'.val (v37_read_u32 m.val 12) = .ok () ↔
        ∀ other < v37_read_u32 m.val 12,
          v38_path_eq (v38_record m.val other) V38_NEW_PATH = false) := by
    intro m' hu'
    have hothers (other : ℕ) (h : other < v37_read_u32 m.val 12) :
        v38_record m'.val other = v38_record m.val other := hu'.other other h.ne
    rw [check_record_eq_ok, hu'.record, hn16]
    constructor
    · rintro ⟨n, hn, -, -, hnone, -⟩ other hother
      obtain rfl : 13 = n := Option.some.inj (create_record_path_len.symm.trans hn)
      rw [← hothers other hother, ← @create_record_take (v37_read_u32 m.val 20)]
      exact hnone other hother
    · intro hnone
      refine ⟨13, create_record_path_len, hfield, hfields, fun other hother => ?_, hentry⟩
      rw [create_record_take, hothers other hother]
      exact hnone other hother
  have hdone := outcome_of_update hlba hgenlt hm htable hdata hstages.update (by omega) (by omega)
    (by omega) (fun i hi hne => by omega) hn16.ge (fun path i hlo hhi => by omega)
    (fun _ hc => by cases hc) (fun d' _ => hcheck d') hpath hstages.runs
  refine hdone.congr (.inr ∘ .inr) ?_
  have hfind : v38_find (v38_state (slot_lba s) r m) V38_NEW_PATH = none ↔
      ∀ other < v37_read_u32 m.val 12,
        v38_path_eq (v38_record m.val other) V38_NEW_PATH = false := by
    have hcount : (v38_state (slot_lba s) r m).record_count = v37_read_u32 m.val 12 := rfl
    rw [v38_find, List.find?_eq_none, hcount]
    simp only [List.mem_range, Bool.not_eq_true]
    refine forall₂_congr fun i hi => ?_
    rw [v38_record_state _ r m (by omega : i < 8)]
  have hlife : (v38_state (slot_lba s) r m).next_lifecycle_id = v37_read_u32 m.val 20 := rfl
  rw [V38Op.accepted, hfind, hlife, hn16, hn20]
  constructor
  · rintro ⟨-, hne, hnone⟩
    exact ⟨hnone, by omega⟩
  · rintro ⟨hnone, hne⟩
    exact ⟨hlast, by omega, hnone⟩

/-! ## Outcomes -/

theorem V38Op.outcome (op : V38Op) (overflow_checks : Bool) {d : Disk} {s : Bool} {r : Superblock}
    {old : V38State} (hv : v38_scheme.Valid d s r old) :
    Outcome (op.run overflow_checks old) d s r (op.stops overflow_checks old)
      (op.accepted old) := by
  cases op with
  | create => exact v38_create_outcome overflow_checks hv
  | write => exact v38_write_outcome overflow_checks hv
  | delete => exact v38_delete_outcome overflow_checks hv

theorem v38_follows (overflow_checks : Bool) :
    Follows (v38 overflow_checks) v38_format v38_table v38_loads where
  validate h := v38_validate_iff.mp h
  mount h := v38_mounts h
  commit {d s r old} hv op n := by
    rcases V38Op.outcome op overflow_checks hv with
      ⟨-, e, hwrites⟩ | ⟨data, m, hcommits, -⟩
    · refine .inl (.of_eq ?_)
      exact (hwrites.disk n).trans (congrArg (store d) List.take_nil)
    · rcases hcommits.torn_or_committed v38_loads_below_free hv n with htorn | ⟨r', hc, hresult⟩
      · exact .inl htorn
      · exact .inr ⟨r', _, hc, hresult⟩

end Bogbin.Kernel
