import Bogbin.Kernel.CommitProof

/-!
# Updating one record of the v38 table

A mutation patches one record of the mounted table and some fields of the header.  `TableUpdate`
says what the new manifest has in common with the old one; from it the checks of the header
(`TableUpdate.check_header`) and of the other records (`TableUpdate.check_other`) follow.
-/

namespace Bogbin.Kernel

open Buffer BlockDevice Bogbin.Core AlternateRoot

theorem eq_zeros_of_any_nonzero {b : Bytes} (h : any_nonzero b = false) : b = zeros b.length := by
  refine List.eq_replicate_iff.mpr ⟨rfl, fun x hx => ?_⟩
  have := List.any_eq_false.mp h x hx
  simpa using this

theorem any_nonzero_drop {b : Bytes} {k n : ℕ} (h : any_nonzero (b.drop k) = false) (hkn : k ≤ n) :
    any_nonzero (b.drop n) = false := by
  refine List.any_eq_false.mpr fun x hx => List.any_eq_false.mp h x ?_
  exact (List.drop_subset_drop_left b hkn) hx

theorem drop_congr {b b' : Bytes} (hlen : b.length = b'.length) {k : ℕ}
    (h : ∀ len, k + len ≤ b.length → slice b k len = slice b' k len) : b.drop k = b'.drop k := by
  by_cases hk : k ≤ b.length
  · have hb : b.length = k + (b.length - k) := by omega
    rw [drop_eq_slice hb, drop_eq_slice (hlen ▸ hb), ← hlen]
    exact h _ hb.ge
  · rw [List.drop_eq_nil_of_le (by omega), List.drop_eq_nil_of_le (by omega)]

/-! ## Records -/

/-- Two records with the same path field. -/
def SamePath (record record' : Bytes) : Prop := slice record 0 64 = slice record' 0 64

theorem path_len_lt {record : Bytes} {n : ℕ} (h : v38_path_len record = some n) : n < 64 := by
  have hlt := (List.findIdx?_eq_some_iff_findIdx_eq.mp h).1
  have := length_slice_le record 0 64
  omega

namespace SamePath

variable {record record' : Bytes} (h : SamePath record record')

include h

theorem path_len : v38_path_len record = v38_path_len record' := congrArg (List.findIdx? _) h

theorem take {n : ℕ} (hn : n ≤ 64) : record.take n = record'.take n := by
  have hslice := congrArg (List.take n) h
  rwa [slice_zero, slice_zero, List.take_take, List.take_take, Nat.min_eq_left hn] at hslice

theorem slice {off len : ℕ} (hin : off + len ≤ 64) :
    Buffer.slice record off len = Buffer.slice record' off len := by
  have hslice := congrArg (Buffer.slice · off len) h
  rwa [slice_slice _ hin, slice_slice _ hin, Nat.zero_add] at hslice

theorem path_eq (path : Bytes) : v38_path_eq record path = v38_path_eq record' path := by
  unfold v38_path_eq
  rw [h.path_len]
  cases hn : v38_path_len record' with
  | none => simp
  | some n =>
    by_cases hlen : n = path.length
    · rw [h.take (hlen ▸ (path_len_lt hn).le)]
    · simp [hlen]

end SamePath

/-- What the path field of a record is checked for. -/
def PathField (record : Bytes) (path_len : ℕ) : Prop :=
  v38_path_valid (record.take path_len) = true ∧
    any_nonzero (slice record (path_len + 1) (64 - (path_len + 1))) = false

/-- What the other fields of a record are checked for. -/
def RecordFields (record : Bytes) : Prop :=
  (v37_read_u32 record 76 = V38_TYPE_FILE ∨ v37_read_u32 record 76 = V38_TYPE_DIRECTORY ∨
    v37_read_u32 record 76 = V38_TYPE_TOMBSTONE) ∧
  v37_read_u32 record 64 ≠ 0 ∧ v37_read_u32 record 112 ≠ 0 ∧ v37_read_u32 record 116 = 1 ∧
  any_nonzero (record.drop 120) = false

theorem check_record_eq_ok {next_free_lba : ℕ} {manifest : Bytes} {index : ℕ} :
    v38_check_record next_free_lba manifest index = .ok () ↔
      ∃ n, v38_path_len (v38_record manifest index) = some n ∧
        PathField (v38_record manifest index) n ∧ RecordFields (v38_record manifest index) ∧
        (∀ other < index, v38_path_eq (v38_record manifest other)
          ((v38_record manifest index).take n) = false) ∧
        v38_check_entry next_free_lba (v38_record manifest index) = .ok () := by
  unfold v38_check_record
  dsimp only
  cases v38_path_len (v38_record manifest index) with
  | none => simp
  | some n =>
    simp only [reject_bind_eq_ok, Option.some.injEq, exists_eq_left', List.any_eq_true,
      List.mem_range, not_exists, not_and, Bool.not_eq_true, PathField, RecordFields, not_or,
      ne_eq, not_not, Bool.not_eq_false]
    constructor
    · rintro ⟨⟨hvalid, hpad, htype, hversion, hid, hone, hend⟩, hother, hentry⟩
      refine ⟨⟨hvalid, hpad⟩, ⟨?_, hversion, hid, hone, hend⟩, hother, hentry⟩
      tauto
    · rintro ⟨⟨hvalid, hpad⟩, ⟨htype, hversion, hid, hone, hend⟩, hother, hentry⟩
      refine ⟨⟨hvalid, hpad, ?_, hversion, hid, hone, hend⟩, hother, hentry⟩
      tauto

/-- The checks of an entry allow more data sectors. -/
theorem check_entry_mono {next_free_lba next_free_lba' : ℕ} {record : Bytes}
    (hle : next_free_lba ≤ next_free_lba') (h : v38_check_entry next_free_lba record = .ok ()) :
    v38_check_entry next_free_lba' record = .ok () := by
  unfold v38_check_entry at h ⊢
  dsimp only at h ⊢
  split_ifs at h ⊢ with hdir hfile
  · exact h
  · simp only [reject_bind_eq_ok, reject_if_eq_ok] at h ⊢
    obtain ⟨hrange, hempty⟩ := h
    exact ⟨by omega, hempty⟩
  · rfl

theorem length_v38_record (m : Manifest) {index : ℕ} (h : index < 8) :
    (v38_record m.val index).length = 128 :=
  length_slice _ (by rw [m.2]; unfold v38_record_offset V38_RECORD_SIZE; omega)

/-- A record with contents passes the checks of its entry when it is no directory. -/
theorem check_entry_written {next_free_lba : ℕ} {record : Bytes}
    (hlength : 0 < v37_read_u32 record 68 ∧ v37_read_u32 record 68 ≤ V37_MAX_FILE_SIZE)
    (hlba : 64 ≤ v37_read_u32 record 72 ∧ v37_read_u32 record 72 < next_free_lba) :
    v38_check_entry next_free_lba record = .ok () ↔
      v37_read_u32 record 76 ≠ V38_TYPE_DIRECTORY := by
  unfold v38_check_entry
  dsimp only
  split_ifs with hdir hfile
  · rw [reject_if_eq_ok]
    exact iff_of_false (fun h => h (.inl hlength.1.ne')) (not_not.mpr hdir)
  · rw [reject_bind_eq_ok, reject_if_eq_ok]
    exact iff_of_true ⟨by omega, by omega⟩ hdir
  · exact iff_of_true rfl hdir

/-! ### Updates of a record -/

section Record

variable {record : Bytes} (hlen : record.length = 128) {fs : List (ℕ × Bytes)}
  (hfs : ∀ f ∈ fs, 64 ≤ f.1 ∧ f.1 + f.2.length ≤ 112)

include hlen hfs

theorem within_record : Within record.length fs := fun f hf => by
  have := (hfs f hf).2
  omega

/-- Fields between the path and the lifecycle id leave the rest of a record as it was. -/
theorem samePath_write : SamePath (write record fs) record :=
  slice_write_gap (within_record hlen hfs) fun f hf => .inl (hfs f hf).1

theorem slice_record_tail {off len : ℕ} (h : 112 ≤ off) :
    slice (write record fs) off len = slice record off len :=
  slice_write_gap (within_record hlen hfs) fun f hf => .inr ((hfs f hf).2.trans h)

/-- The other fields of an updated record pass their checks when its type and its version do. -/
theorem recordFields_write (h : RecordFields record) :
    RecordFields (write record fs) ↔
      (v37_read_u32 (write record fs) 76 = V38_TYPE_FILE ∨
        v37_read_u32 (write record fs) 76 = V38_TYPE_DIRECTORY ∨
        v37_read_u32 (write record fs) 76 = V38_TYPE_TOMBSTONE) ∧
      v37_read_u32 (write record fs) 64 ≠ 0 := by
  obtain ⟨-, -, hid, hone, hend⟩ := h
  have hid' : v37_read_u32 (write record fs) 112 = v37_read_u32 record 112 :=
    congrArg leValue (slice_record_tail hlen hfs le_rfl)
  have hone' : v37_read_u32 (write record fs) 116 = v37_read_u32 record 116 :=
    congrArg leValue (slice_record_tail hlen hfs (by norm_num))
  have hend' : (write record fs).drop 120 = record.drop 120 :=
    drop_congr (length_write (within_record hlen hfs)) fun len _ =>
      slice_record_tail hlen hfs (by norm_num)
  unfold RecordFields
  rw [hid', hone', hend']
  tauto

end Record

/-! ## Updates -/

/-- The manifest `m'` is `m` with another record at `index` and other fields in the header. -/
structure TableUpdate (m : Manifest) (index : ℕ) (record : Bytes) (m' : Manifest) : Prop where
  magic : slice m'.val 0 8 = slice m.val 0 8
  padding : slice m'.val 56 8 = slice m.val 56 8
  record : v38_record m'.val index = record
  other : ∀ i, i ≠ index → v38_record m'.val i = v38_record m.val i
  tail : ∀ k, index < k → m'.val.drop (v38_record_offset k) = m.val.drop (v38_record_offset k)

/-- The header holds the hash of the records. -/
def Listed (m : Manifest) : Prop :=
  v37_copy_hash m.val 24 = v38_listing_hash m.val (v37_read_u32 m.val 12)

/-- Writing fields of a record. -/
theorem tableUpdate_record {m m' : Manifest} {index : ℕ} {fs : List (ℕ × Bytes)}
    (hindex : index < 8) (hfs : Within 128 fs)
    (hm' : m'.val = patch m.val (v38_record_offset index) (write (v38_record m.val index) fs)) :
    TableUpdate m index (write (v38_record m.val index) fs) m' ∧
      ∀ off len, off + len ≤ 64 → slice m'.val off len = slice m.val off len := by
  have hlen := m.2
  have hoff : v38_record_offset index + 128 ≤ 1088 ∧ 64 ≤ v38_record_offset index := by
    unfold v38_record_offset V38_RECORD_SIZE
    omega
  have hrecord : (v38_record m.val index).length = 128 :=
    length_slice _ (by unfold V38_RECORD_SIZE; omega)
  have hwrite : (write (v38_record m.val index) fs).length = 128 := by
    rw [length_write (by rwa [hrecord]), hrecord]
  have hbefore (off len : ℕ) (h : off + len ≤ v38_record_offset index) :
      slice m'.val off len = slice m.val off len := by
    rw [hm', slice_patch_of_le _ (by omega) h]
  have hafter (off len : ℕ) (h : v38_record_offset index + 128 ≤ off) :
      slice m'.val off len = slice m.val off len := by
    rw [hm', slice_patch_of_ge _ (by omega) (by omega)]
  refine ⟨⟨hbefore _ _ (by omega), hbefore _ _ (by omega), ?_, fun i hi => ?_, fun k hk => ?_⟩,
    fun off len h => hbefore _ _ (by omega)⟩
  · rw [v38_record, hm']
    have hsame := @slice_patch_same _ m.val (v38_record_offset index)
      (write (v38_record m.val index) fs) (by omega)
    rwa [hwrite] at hsame
  · rcases Nat.lt_or_gt_of_ne hi with hlt | hgt
    · refine hbefore _ _ ?_
      unfold v38_record_offset V38_RECORD_SIZE
      omega
    · refine hafter _ _ ?_
      unfold v38_record_offset V38_RECORD_SIZE
      omega
  · refine drop_congr (m'.2.trans m.2.symm) fun len _ => hafter _ _ ?_
    unfold v38_record_offset V38_RECORD_SIZE
    omega

/-- A field of the header, between the magic and the padding. -/
def HeaderField (f : ℕ × Bytes) : Prop := 8 ≤ f.1 ∧ f.1 + f.2.length ≤ 56

/-- Writing fields of the header. -/
theorem TableUpdate.header {m m1 m' : Manifest} {index : ℕ} {record : Bytes}
    (h : TableUpdate m index record m1) {fs : List (ℕ × Bytes)} (hfs : ∀ f ∈ fs, HeaderField f)
    (hm' : m'.val = write m1.val fs) : TableUpdate m index record m' := by
  have hin : Within m1.val.length fs := fun f hf => by
    have := (hfs f hf).2
    rw [m1.2]
    omega
  have hbefore (off len : ℕ) (h : off + len ≤ 8) : slice m'.val off len = slice m1.val off len := by
    rw [hm', slice_write_gap hin fun f hf => .inl (h.trans (hfs f hf).1)]
  have hafter (off len : ℕ) (h : 56 ≤ off) : slice m'.val off len = slice m1.val off len := by
    rw [hm', slice_write_gap hin fun f hf => .inr ((hfs f hf).2.trans h)]
  refine ⟨(hbefore _ _ le_rfl).trans h.magic, (hafter _ _ le_rfl).trans h.padding,
    (hafter _ _ ?_).trans h.record, fun i hi => (hafter _ _ ?_).trans (h.other i hi),
    fun k hk => (drop_congr (m'.2.trans m1.2.symm) fun len _ => hafter _ _ ?_).trans (h.tail k hk)⟩
  all_goals
    unfold v38_record_offset
    omega

section Number

variable {m m' : Manifest} {offset value : ℕ}

theorem within_u32_field (h : offset + 4 ≤ 4096) : Within m.val.length [u32_field offset value] := by
  rw [m.2]
  intro f hf
  rw [List.mem_singleton.mp hf]
  exact h

theorem read_number (hm' : m'.val = write m.val [u32_field offset value])
    (hvalue : value < 2 ^ 32) (h : offset + 4 ≤ 4096) : v37_read_u32 m'.val offset = value := by
  rw [hm']
  exact read_u32_write (within_u32_field h) (List.pairwise_singleton ..) (List.mem_singleton_self _)
    hvalue

theorem read_other_number (hm' : m'.val = write m.val [u32_field offset value])
    (h : offset + 4 ≤ 4096) {offset' : ℕ} (hne : offset' + 4 ≤ offset ∨ offset + 4 ≤ offset') :
    v37_read_u32 m'.val offset' = v37_read_u32 m.val offset' := by
  rw [hm']
  refine read_u32_write_gap (within_u32_field h) fun f hf => ?_
  rw [List.mem_singleton.mp hf]
  exact hne

end Number

namespace TableUpdate

variable {r r' : Superblock} {m m' : Manifest} {index : ℕ} {record : Bytes}
  (h : TableUpdate m index record m')

include h

/-- The header of the new manifest passes its checks when its numbers are in range. -/
theorem check_header (hm : v38_check_header r.generation m = .ok ())
    (hlisted : Listed m') (hgen : v37_read_u32 m'.val 8 = r'.generation)
    (hcount : v37_read_u32 m.val 12 ≤ v37_read_u32 m'.val 12)
    (hindex : index < v37_read_u32 m'.val 12) (hmax : v37_read_u32 m'.val 12 ≤ 8)
    (hfree : v37_read_u32 m.val 16 ≤ v37_read_u32 m'.val 16) :
    v38_check_header r'.generation m' = .ok () ↔
      v37_read_u32 m'.val 16 ≤ 8192 ∧ v37_read_u32 m'.val 20 ≠ 0 := by
  simp only [v38_check_header, reject_bind_eq_ok, reject_if_eq_ok] at hm ⊢
  obtain ⟨hmagic, hrange, -, hpad⟩ := hm
  rw [h.tail _ hindex, h.magic, h.padding, hlisted, hgen]
  have hsectors : V36_SECTOR_COUNT = 8192 := rfl
  have hrecords : V38_MAX_RECORDS = 8 := rfl
  have htail : any_nonzero (m.val.drop (v38_record_offset (v37_read_u32 m'.val 12))) = false := by
    refine any_nonzero_drop (Bool.eq_false_of_not_eq_true fun hne => hpad (.inr hne)) ?_
    unfold v38_record_offset V38_RECORD_SIZE
    omega
  rw [htail]
  have hmagic : slice m.val 0 8 = ascii "BOGMAN38" := by
    by_contra hne
    exact hmagic (.inl hne)
  have hpad : any_nonzero (slice m.val 56 8) = false := Bool.eq_false_of_not_eq_true fun hne =>
    hpad (.inl hne)
  simp only [hmagic, hpad, hsectors, hrecords]
  constructor
  · rintro ⟨-, hnew, -⟩
    omega
  · rintro ⟨hnew, hid⟩
    exact ⟨by simp, by omega, by simp, by simp⟩

/-- The other records pass their checks when the paths in front of them are the old ones. -/
theorem check_other {next_free_lba next_free_lba' i : ℕ}
    (hle : next_free_lba ≤ next_free_lba') (hi : i ≠ index)
    (hpath : ∀ path, index < i → v38_path_eq record path =
      v38_path_eq (v38_record m.val index) path)
    (hm : v38_check_record next_free_lba m.val i = .ok ()) :
    v38_check_record next_free_lba' m'.val i = .ok () := by
  obtain ⟨n, hlen, hfield, hfields, hother, hentry⟩ := check_record_eq_ok.mp hm
  rw [check_record_eq_ok, h.other i hi]
  refine ⟨n, hlen, hfield, hfields, fun other hlt => ?_, check_entry_mono hle hentry⟩
  by_cases heq : other = index
  · subst heq
    rw [h.record, hpath _ hlt]
    exact hother other hlt
  · rw [h.other other heq]
    exact hother other hlt

/-- A record that keeps its path passes its checks when its other fields do. -/
theorem check_updated {next_free_lba next_free_lba' : ℕ}
    (hpath : SamePath record (v38_record m.val index))
    (hm : v38_check_record next_free_lba m.val index = .ok ()) :
    v38_check_record next_free_lba' m'.val index = .ok () ↔
      RecordFields record ∧ v38_check_entry next_free_lba' record = .ok () := by
  obtain ⟨n, hlen, hfield, -, hother, -⟩ := check_record_eq_ok.mp hm
  have hn := path_len_lt hlen
  have hfield' : PathField record n := by
    unfold PathField
    rwa [hpath.take hn.le, hpath.slice (by omega)]
  have hother' : ∀ other < index,
      v38_path_eq (v38_record m'.val other) (record.take n) = false := fun other hlt => by
    rw [h.other other hlt.ne, hpath.take hn.le]
    exact hother other hlt
  rw [check_record_eq_ok, h.record, hpath.path_len]
  constructor
  · rintro ⟨-, -, -, hfields, -, hentry⟩
    exact ⟨hfields, hentry⟩
  · rintro ⟨hfields, hentry⟩
    exact ⟨n, hlen, hfield', hfields, hother', hentry⟩

end TableUpdate

end Bogbin.Kernel
