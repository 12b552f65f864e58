import Bogbin.Kernel.V38Table

/-!
# Validation and commits of the v38 file system

Validation is the validity of the alternate-root scheme (`v38_validate_iff`).  A program that
updates one record of a valid table and commits it either stops before its first write or does the
writes of a commit, and its new table is well formed when the new record is (`outcome_of_update`).
-/

namespace Bogbin.Kernel

open Buffer BlockDevice Bogbin.Core AlternateRoot

def v38_table (r : Superblock) (m : Manifest) : Prop :=
  v38_check_header r.generation m = .ok () ∧
    ∀ i < v37_read_u32 m.val 12, v38_check_record (v37_read_u32 m.val 16) m.val i = .ok ()

/-- The checks on the data of all records. -/
def v38_check_all_data (d : Disk) (m : Manifest) : Except String Unit :=
  (List.range (v37_read_u32 m.val 12)).forM fun i => v38_check_data d (v38_record m.val i)

def v38_loads (d : Disk) (s : Bool) (r : Superblock) (m : Manifest) : Option V38State :=
  (v38_check_all_data d m).toOption.map fun _ => v38_state (slot_lba s) r m

abbrev v38_scheme : Scheme Disk Superblock Manifest Bytes V38State :=
  root_scheme v38_format v38_table v38_loads

/-! ## Validation -/

theorem v38_loads_eq_some {d : Disk} {s : Bool} {r : Superblock} {m : Manifest} {st : V38State} :
    v38_loads d s r m = some st ↔
      (∀ i < v37_read_u32 m.val 12, v38_check_data d (v38_record m.val i) = .ok ()) ∧
        v38_state (slot_lba s) r m = st := by
  have hall := forM_eq_ok (List.range (v37_read_u32 m.val 12)) fun i =>
    v38_check_data d (v38_record m.val i)
  simp only [List.mem_range] at hall
  rw [← hall, v38_loads, Option.map_eq_some_iff]
  constructor
  · rintro ⟨u, hu, hst⟩
    exact ⟨toOption_eq_some.mp hu, hst⟩
  · rintro ⟨hu, hst⟩
    exact ⟨(), toOption_eq_some.mpr hu, hst⟩

theorem v38_validate_iff {d : Disk} {s : Bool} {st : V38State} :
    v38_validate_root d (slot_lba s) = .ok st ↔ ∃ r, v38_scheme.Valid d s r st := by
  have hrecords (m : Manifest) : ((List.range (v37_read_u32 m.val 12)).forM fun index => do
      v38_check_record (v37_read_u32 m.val 16) m.val index
      v38_check_data d (v38_record m.val index)) = .ok () ↔
      (∀ i < v37_read_u32 m.val 12,
        v38_check_record (v37_read_u32 m.val 16) m.val i = .ok ()) ∧
      ∀ i < v37_read_u32 m.val 12, v38_check_data d (v38_record m.val i) = .ok () := by
    rw [forM_eq_ok]
    simp only [bind_eq_ok, List.mem_range]
    exact ⟨fun h => ⟨fun i hi => (h i hi).choose_spec.1, fun i hi => (h i hi).choose_spec.2⟩,
      fun h i hi => ⟨(), h.1 i hi, h.2 i hi⟩⟩
  simp only [v38_validate_root, bind_eq_ok, reject_if_eq_ok, not_not]
  constructor
  · rintro ⟨r, hr, -, hdigest, u, hheader, u', hall, hst⟩
    have hregion := region_lba_manifest (read_superblock_eq_ok hr).1
    refine ⟨r, toOption_eq_some.mpr hr, ?_, ?_, ?_⟩
    all_goals simp only [root_scheme, hregion]
    · exact hdigest
    · exact ⟨hheader, ((hrecords _).mp hall).1⟩
    · exact v38_loads_eq_some.mpr ⟨((hrecords _).mp hall).2, Except.ok.inj hst⟩
  · rintro ⟨r, hr, hdigest, htable, hload⟩
    have hr := toOption_eq_some.mp hr
    have hregion := region_lba_manifest (read_superblock_eq_ok hr).1
    simp only [root_scheme, hregion] at hdigest htable hload
    obtain ⟨hdata, hst⟩ := v38_loads_eq_some.mp hload
    exact ⟨r, hr, (), hdigest, (), htable.1, (), (hrecords _).mpr ⟨htable.2, hdata⟩,
      congrArg Except.ok hst⟩

/-- What a header that passed its checks says. -/
theorem v38_header_bounds {r : Superblock} {m : Manifest}
    (h : v38_check_header r.generation m = .ok ()) :
    v37_read_u32 m.val 12 ≠ 0 ∧ v37_read_u32 m.val 12 ≤ 8 ∧ 64 ≤ v37_read_u32 m.val 16 ∧
      v37_read_u32 m.val 16 ≤ 8192 ∧ v37_read_u32 m.val 20 ≠ 0 ∧
      any_nonzero (m.val.drop (v38_record_offset (v37_read_u32 m.val 12))) = false := by
  simp only [v38_check_header, reject_bind_eq_ok, reject_if_eq_ok] at h
  obtain ⟨-, hrange, -, hpad⟩ := h
  have hsectors : V36_SECTOR_COUNT = 8192 := rfl
  have hrecords : V38_MAX_RECORDS = 8 := rfl
  have hend : any_nonzero (m.val.drop (v38_record_offset (v37_read_u32 m.val 12))) = false :=
    Bool.eq_false_of_not_eq_true fun hne => hpad (.inr hne)
  rw [hsectors, hrecords] at hrange
  exact ⟨by omega, by omega, by omega, by omega, by omega, hend⟩

/-- The data of a checked record is below the first free sector. -/
theorem v38_check_data_congr {d d' : Disk} {next_free_lba : ℕ} {record : Bytes}
    (h : v38_check_entry next_free_lba record = .ok ())
    (hsame : ∀ a, 64 ≤ a → a < next_free_lba → d' a = d a) :
    v38_check_data d' record = v38_check_data d record := by
  unfold v38_check_data
  dsimp only
  by_cases hfile : v37_read_u32 record 76 = V38_TYPE_FILE ∧ v37_read_u32 record 68 ≠ 0
  · have hdir : v37_read_u32 record 76 ≠ V38_TYPE_DIRECTORY := by
      rw [hfile.1]
      decide
    unfold v38_check_entry at h
    dsimp only at h
    rw [if_neg hdir, if_pos hfile.1] at h
    simp only [reject_bind_eq_ok, reject_if_eq_ok] at h
    rw [hsame _ (by omega) (by omega)]
  · have hnot (p : Prop) : ¬ (v37_read_u32 record 76 = V38_TYPE_FILE ∧
        v37_read_u32 record 68 ≠ 0 ∧ p) := fun hp => hfile ⟨hp.1, hp.2.1⟩
    unfold reject_if
    rw [if_neg (hnot _), if_neg (hnot _)]

/-- A sector that holds the contents a record describes passes the checks. -/
theorem v38_check_data_written {d : Disk} {record content : Bytes}
    (hlength : v37_read_u32 record 68 = content.length)
    (hhash : v38_record_hash record = digest content)
    (hstored : (d (v37_read_u32 record 72)).val = content ++ zeros (512 - content.length)) :
    v38_check_data d record = .ok () := by
  unfold v38_check_data
  dsimp only
  rw [hlength, hhash, hstored, List.drop_left, List.take_left, any_nonzero_zeros]
  simp

theorem v38_loads_below_free : LoadsBelowFree v38_table v38_loads := by
  intro d d' s r m htable hsame
  have hdata : v38_check_all_data d' m = v38_check_all_data d m := by
    unfold v38_check_all_data
    have hforM {f g : ℕ → Except String Unit} (is : List ℕ) (h : ∀ i ∈ is, f i = g i) :
        is.forM f = is.forM g := by
      induction is with
      | nil => rfl
      | cons i is ih =>
        have hi := h i List.mem_cons_self
        have hrest := ih fun j hj => h j (List.mem_cons_of_mem i hj)
        change (f i >>= fun _ => is.forM f) = (g i >>= fun _ => is.forM g)
        rw [hi, hrest]
    refine hforM _ fun i hi => ?_
    obtain ⟨n, -, -, -, -, hentry⟩ := check_record_eq_ok.mp (htable.2 i (List.mem_range.mp hi))
    exact v38_check_data_congr hentry hsame
  rw [v38_loads, v38_loads, hdata]

/-! ## Mounting -/

theorem v38_generation_eq {d : Disk} {s : Bool} {r : Superblock} {st : V38State}
    (h : v38_scheme.Valid d s r st) : st.generation = r.generation :=
  (v38_loads_eq_some.mp h.load).2 ▸ rfl

theorem v38_mounted_valid {overflow_checks : Bool} {d : Disk} {st : V38State}
    (h : (v38 overflow_checks).mounted d = some st) : ∃ s r, v38_scheme.Valid d s r st :=
  valid_of_mount_roots (fun _ _ _ => v38_validate_iff) h

theorem v38_mounts {overflow_checks : Bool} {d : Disk} {s : Bool} {r : Superblock} {st : V38State}
    (h : v38_scheme.Mounts d s r st) : (v38 overflow_checks).mounted d = some st :=
  mount_roots_of_mounts (fun _ _ _ => v38_validate_iff) (fun _ _ _ _ => v38_generation_eq) h

/-! ## Commits -/

/-- The manifest of a valid root. -/
theorem v38_staging_eq {superblock_lba : ℕ} {r : Superblock} {m : Manifest}
    (h : v38_check_header r.generation m = .ok ()) :
    v38_staging (v38_state superblock_lba r m) = m := by
  obtain ⟨-, hcount, -, -, -, hend⟩ := v38_header_bounds h
  have htail : m.val.drop 1088 = zeros 3008 := by
    have hzero := eq_zeros_of_any_nonzero (any_nonzero_drop hend (show v38_record_offset
      (v37_read_u32 m.val 12) ≤ 1088 by unfold v38_record_offset V38_RECORD_SIZE; omega))
    rwa [List.length_drop, m.2] at hzero
  have hlen : (slice m.val 0 1088).length = 1088 := length_slice _ (by rw [m.2]; norm_num)
  apply Subtype.ext
  change patch (zeros 4096) 0 (slice m.val 0 1088) = m.val
  rw [patch, hlen, List.take_zero, List.nil_append, Nat.zero_add, drop_zeros, ← htail, slice_zero,
    List.take_append_drop]

/-- The data sectors that a commit writes. -/
def DataWrites (next_free_lba : ℕ) : Option Bytes → List (ℕ × Sector) → Prop
  | none, data => data = []
  | some content, data => ∃ sector : Sector, sector.val = content ++ zeros (512 - content.length) ∧
      data = [(next_free_lba, sector)]

theorem writes_v38_write_data {next_free_lba : ℕ} {content : Option Bytes}
    (h : ∀ c, content = some c → c.length ≤ 512) :
    ∃ data, DataWrites next_free_lba content data ∧
      ∀ d, Writes (v38_write_data next_free_lba content) d data (.ok ()) := by
  cases content with
  | none => exact ⟨[], rfl, fun d => .pure _⟩
  | some content =>
    obtain ⟨sector, hsector, hwrites⟩ := writes_data_sector (h content rfl)
    refine ⟨_, ⟨sector, hsector, rfl⟩, fun d => ?_⟩
    exact (hwrites d).bind_left ((writes_sector_checked _ _ d).bind_right (.pure _))

/-- The commit of a manifest: it stops at an overflow of the generation, or writes the manifest with
the new generation and the hash of its records. -/
theorem writes_v38_commit (overflow_checks : Bool) {s : Bool} {r : Superblock} {m m1 : Manifest}
    {content : Option Bytes} (hcontent : ∀ c, content = some c → c.length ≤ 512)
    (hcount : v37_read_u32 m1.val 12 ≤ 8) (d : Disk) :
    (¬ (r.generation + 1 < 2 ^ 32 ∨ overflow_checks = false) ∧
        Writes (v38_commit overflow_checks (v38_state (slot_lba s) r m) m1 content) d []
          (.error .panic)) ∨
      (r.generation + 1 < 2 ^ 32 ∨ overflow_checks = false) ∧
      ∃ (m2 m' : Manifest) (data : List (ℕ × Sector)),
        m2.val = write m1.val [u32_field 8 ((r.generation + 1) % 2 ^ 32)] ∧
        m'.val = write m2.val [(24, v38_listing_hash m2.val (v37_read_u32 m2.val 12))] ∧
        DataWrites (v37_read_u32 m.val 16) content data ∧
        Writes (v38_commit overflow_checks (v38_state (slot_lba s) r m) m1 content) d
          (commit_writes v38_format data s r m')
          (.ok (v38_state (slot_lba !s) (new_root v38_format r m') m')) := by
  have hadd := writes_add_u32 overflow_checks r.generation 1 d
  unfold v38_commit
  split_ifs at hadd with hif
  · right
    obtain ⟨data, hdata, hwdata⟩ := writes_v38_write_data hcontent
    obtain ⟨m2, hm2, hw2⟩ := @writes_fields m1 [u32_field 8 ((r.generation + 1) % 2 ^ 32)] (by
      simp [Within, u32_field])
    have hcount2 : v37_read_u32 m2.val 12 = v37_read_u32 m1.val 12 :=
      read_other_number hm2 (by norm_num) (.inr (by norm_num))
    obtain ⟨m', hm', hw'⟩ := @writes_fields m2
      [(24, v38_listing_hash m2.val (v37_read_u32 m2.val 12))] (by
        simp [Within, v38_listing_hash])
    refine ⟨hif, m2, m', data, hm2, hm', hdata, ?_⟩
    refine hadd.bind_left ((hwdata d).bind ((hw2 _).bind_left ?_))
    have hoff : ¬ 4096 < v38_record_offset (v37_read_u32 m2.val 12) := by
      unfold v38_record_offset V38_RECORD_SIZE
      omega
    dsimp only
    rw [if_neg hoff]
    refine (hw' _).bind_left ?_
    change Writes (_ >>= fun _ => pure (v38_state _ _ m')) _ _ _
    rw [show other_superblock (v38_state (slot_lba s) r m).superblock_lba = slot_lba !s from
      other_superblock_slot s]
    exact (v38_format.writes_write_root _ _ _ m' _).bind_right (.pure _)
  · exact .inl ⟨hif, hadd.bind_error⟩

/-- The state of a valid root. -/
theorem v38_valid_state {d : Disk} {s : Bool} {r : Superblock} {old : V38State}
    (hv : v38_scheme.Valid d s r old) :
    v38_table r (v37_read_manifest d r.manifest_lba) ∧
      (∀ i < v37_read_u32 (v37_read_manifest d r.manifest_lba).val 12,
        v38_check_data d (v38_record (v37_read_manifest d r.manifest_lba).val i) = .ok ()) ∧
      v38_state (slot_lba s) r (v37_read_manifest d r.manifest_lba) = old := by
  have hregion := region_lba_manifest (read_superblock_eq_ok (toOption_eq_some.mp hv.root)).1
  have htable := hv.table
  have hload := hv.load
  simp only [root_scheme, hregion] at htable hload
  exact ⟨htable, v38_loads_eq_some.mp hload⟩

/-! ## Outcomes -/

/-- The state of a new root. -/
def v38_new_state (s : Bool) (r : Superblock) (m' : Manifest) : V38State :=
  v38_state (slot_lba !s) (new_root v38_format r m') m'

/-- The outcome of a mutation of a valid table: it stops before its first write, or it commits a
table that is well formed when the mutation was accepted. -/
def Outcome (p : Dev V38State) (d : Disk) (s : Bool) (r : Superblock) (stops accepted : Prop) :
    Prop :=
  (stops ∧ ∃ e, Writes p d [] (.error e)) ∨
    ∃ data m', Commits v38_format v38_table v38_loads p d s r data m' (v38_new_state s r m')
        (.ok (v38_new_state s r m')) ∧
      (v38_table (new_root v38_format r m') m' ↔ accepted)

theorem Outcome.congr {p : Dev V38State} {d : Disk} {s : Bool} {r : Superblock}
    {stops stops' accepted accepted' : Prop} (h : Outcome p d s r stops accepted)
    (hstops : stops → stops') (hiff : accepted ↔ accepted') : Outcome p d s r stops' accepted' :=
  h.imp (And.imp_left hstops)
    fun ⟨data, m', hcommits, hold⟩ => ⟨data, m', hcommits, hold.trans hiff⟩

/-- An addition overflows, in a build that checks it. -/
def Overflows (overflow_checks : Bool) (a : ℕ) : Prop := overflow_checks = true ∧ a = 2 ^ 32 - 1

theorem overflows_of_not {overflow_checks : Bool} {a : ℕ} (ha : a < 2 ^ 32)
    (h : ¬ (a + 1 < 2 ^ 32 ∨ overflow_checks = false)) : Overflows overflow_checks a := by
  obtain ⟨hlt, hchecks⟩ := not_or.mp h
  exact ⟨Bool.eq_true_of_not_eq_false hchecks, by omega⟩

section Mutation

variable {overflow_checks : Bool} {d : Disk} {s : Bool} {r : Superblock} {m m1 : Manifest}
  {index : ℕ} {record : Bytes} {content : Option Bytes} {p : Dev V38State}

/-- A program that updates one record and then commits the table. -/
theorem outcome_of_update
    (hlba : r.manifest_lba = 8 ∨ r.manifest_lba = 16) (hgenlt : r.generation < 2 ^ 32)
    (hm : v37_read_manifest d r.manifest_lba = m) (htable : v38_table r m)
    (hdata : ∀ i < v37_read_u32 m.val 12, v38_check_data d (v38_record m.val i) = .ok ())
    (hu : TableUpdate m index record m1)
    (hcount : v37_read_u32 m.val 12 ≤ v37_read_u32 m1.val 12)
    (hmax : v37_read_u32 m1.val 12 ≤ 8) (hindex : index < v37_read_u32 m1.val 12)
    (hrest : ∀ i < v37_read_u32 m1.val 12, i ≠ index → i < v37_read_u32 m.val 12)
    (hfree : v37_read_u32 m.val 16 ≤ v37_read_u32 m1.val 16)
    (hpath : ∀ path i, index < i → i < v37_read_u32 m1.val 12 →
      v38_path_eq record path = v38_path_eq (v38_record m.val index) path)
    (hcontent : ∀ c, content = some c → c.length ≤ 512)
    (hnew : ∀ d' : Disk, (∀ c, content = some c →
      (d' (v37_read_u32 m.val 16)).val = c ++ zeros (512 - c.length)) →
      v38_check_data d' record = .ok ())
    {checks : Prop}
    (hchecks : ∀ m' : Manifest, TableUpdate m index record m' →
      (v38_check_record (v37_read_u32 m1.val 16) m'.val index = .ok () ↔ checks))
    (hp : ∀ ws result, Writes (v38_commit overflow_checks (v38_state (slot_lba s) r m) m1 content) d
      ws result → Writes p d ws result) :
    Outcome p d s r (Overflows overflow_checks r.generation)
      (v37_read_u32 m1.val 16 ≤ 8192 ∧ v37_read_u32 m1.val 20 ≠ 0 ∧ checks) := by
  rcases @writes_v38_commit overflow_checks s r m m1 content hcontent hmax d with
    ⟨hif, hpanic⟩ | ⟨-, m2, m', data, hm2, hm', hwdata, hwrites⟩
  · exact .inl ⟨overflows_of_not hgenlt hif, _, hp _ _ hpanic⟩
  have hseal : Within m2.val.length
      [(24, v38_listing_hash m2.val (v37_read_u32 m2.val 12))] := by
    simp [Within, m2.2, v38_listing_hash]
  have hu2 : TableUpdate m index record m2 := hu.header (by simp [HeaderField, u32_field]) hm2
  have hu' : TableUpdate m index record m' :=
    hu2.header (by simp [HeaderField, v38_listing_hash]) hm'
  have hkeep (offset : ℕ) (h : offset + 4 ≤ 24) :
      v37_read_u32 m'.val offset = v37_read_u32 m2.val offset := by
    rw [hm']
    refine read_u32_write_gap hseal fun f hf => ?_
    rw [List.mem_singleton.mp hf]
    exact .inl h
  have hgen : v37_read_u32 m'.val 8 = (r.generation + 1) % 2 ^ 32 :=
    (hkeep 8 (by norm_num)).trans (read_number hm2 (Nat.mod_lt _ (by norm_num)) (by norm_num))
  have hnumber (offset : ℕ) (hlo : 12 ≤ offset) (hhi : offset + 4 ≤ 24) :
      v37_read_u32 m'.val offset = v37_read_u32 m1.val offset :=
    (hkeep offset hhi).trans (read_other_number hm2 (by norm_num) (.inr hlo))
  have hn12 := hnumber 12 (by norm_num) (by norm_num)
  have hn16 := hnumber 16 (by norm_num) (by norm_num)
  have hn20 := hnumber 20 (by norm_num) (by norm_num)
  have hlisted : Listed m' := by
    have hrecords : slice m'.val 64 (v37_read_u32 m2.val 12 * V38_RECORD_SIZE) =
        slice m2.val 64 (v37_read_u32 m2.val 12 * V38_RECORD_SIZE) := by
      rw [hm']
      refine slice_write_gap hseal fun f hf => ?_
      rw [List.mem_singleton.mp hf]
      exact .inr (by simp [v38_listing_hash])
    unfold Listed
    rw [hkeep 12 (by norm_num), v38_listing_hash, hrecords, hm']
    exact copy_hash_write hseal (List.pairwise_singleton ..) (List.mem_singleton_self _)
      (length_digest _)
  have hheader := @TableUpdate.check_header r (new_root v38_format r m') m m' index record hu'
    htable.1 hlisted hgen (by rwa [hn12]) (by rwa [hn12]) (by rwa [hn12]) (by rwa [hn16])
  have hiff : v38_table (new_root v38_format r m') m' ↔
      v37_read_u32 m1.val 16 ≤ 8192 ∧ v37_read_u32 m1.val 20 ≠ 0 ∧ checks := by
    unfold v38_table
    rw [hheader, hn12, hn16, hn20, and_assoc]
    refine and_congr_right fun _ => and_congr_right fun _ => ?_
    rw [← hchecks m' hu']
    refine ⟨fun hall => hall index hindex, fun hone i hi => ?_⟩
    by_cases heq : i = index
    · exact heq ▸ hone
    · exact hu'.check_other hfree heq (fun path hlt => hpath path i hlt hi)
        (htable.2 i (hrest i hi heq))
  have hfirst : 64 ≤ v37_read_u32 m.val 16 := (v38_header_bounds htable.1).2.2.1
  have hsectors : ∀ w ∈ data, w.1 = v37_read_u32 m.val 16 := by
    cases content with
    | none =>
      rw [show data = [] from hwdata]
      simp
    | some content =>
      obtain ⟨sector, -, rfl⟩ := hwdata
      simp
  refine .inr ⟨data, m', ⟨?_, hp _ _ hwrites, fun _ => ?_, fun _ => rfl⟩, hiff⟩
  · intro w hw
    rw [hm, hsectors w hw]
    exact ⟨le_rfl, hfirst⟩
  · refine v38_loads_eq_some.mpr ⟨fun i hi => ?_, rfl⟩
    rw [hn12] at hi
    by_cases heq : i = index
    · rw [heq, hu'.record]
      refine hnew _ fun c hc => ?_
      subst hc
      obtain ⟨sector, hsector, rfl⟩ := hwdata
      rw [store_commit_writes_data d sector hlba hfirst, hsector]
    · have hi' := hrest i hi heq
      obtain ⟨n, -, -, -, -, hentry⟩ := check_record_eq_ok.mp (htable.2 i hi')
      rw [hu'.other i heq, v38_check_data_congr hentry fun a hlo hhi => ?_]
      · exact hdata i hi'
      · refine store_commit_writes_of_notMem d hlba hlo fun w hw => ?_
        rw [hsectors w hw]
        exact hhi.ne'

/-- A program that updates a record of the table without its path and its identity. -/
theorem outcome_of_record {fs : List (ℕ × Bytes)}
    (hlba : r.manifest_lba = 8 ∨ r.manifest_lba = 16) (hgenlt : r.generation < 2 ^ 32)
    (hm : v37_read_manifest d r.manifest_lba = m) (htable : v38_table r m)
    (hdata : ∀ i < v37_read_u32 m.val 12, v38_check_data d (v38_record m.val i) = .ok ())
    (hlt : index < v37_read_u32 m.val 12)
    (hfs : ∀ f ∈ fs, 64 ≤ f.1 ∧ f.1 + f.2.length ≤ 112)
    (hu : TableUpdate m index (write (v38_record m.val index) fs) m1)
    (h12 : v37_read_u32 m1.val 12 = v37_read_u32 m.val 12)
    (h20 : v37_read_u32 m1.val 20 = v37_read_u32 m.val 20)
    (h16 : v37_read_u32 m.val 16 ≤ v37_read_u32 m1.val 16)
    (hcontent : ∀ c, content = some c → c.length ≤ 512)
    (hnew : ∀ d' : Disk, (∀ c, content = some c →
      (d' (v37_read_u32 m.val 16)).val = c ++ zeros (512 - c.length)) →
      v38_check_data d' (write (v38_record m.val index) fs) = .ok ())
    (hp : ∀ ws result, Writes (v38_commit overflow_checks (v38_state (slot_lba s) r m) m1 content) d
      ws result → Writes p d ws result) :
    Outcome p d s r (Overflows overflow_checks r.generation) (v37_read_u32 m1.val 16 ≤ 8192 ∧
      (v37_read_u32 (write (v38_record m.val index) fs) 76 = V38_TYPE_FILE ∨
        v37_read_u32 (write (v38_record m.val index) fs) 76 = V38_TYPE_DIRECTORY ∨
        v37_read_u32 (write (v38_record m.val index) fs) 76 = V38_TYPE_TOMBSTONE) ∧
      v37_read_u32 (write (v38_record m.val index) fs) 64 ≠ 0 ∧
      v38_check_entry (v37_read_u32 m1.val 16) (write (v38_record m.val index) fs) = .ok ()) := by
  obtain ⟨-, hcount, -, -, hid, -⟩ := v38_header_bounds htable.1
  have hlen := length_v38_record m (by omega : index < 8)
  have hsame := samePath_write hlen hfs
  obtain ⟨n, -, -, hfields, -⟩ := check_record_eq_ok.mp (htable.2 index hlt)
  have hdone := outcome_of_update hlba hgenlt hm htable hdata hu h12.ge (h12.trans_le hcount)
    (h12 ▸ hlt) (fun i hi _ => h12 ▸ hi) h16 (fun path _ _ _ => hsame.path_eq path) hcontent hnew
    (fun m' hu' => hu'.check_updated hsame (htable.2 index hlt)) hp
  rw [recordFields_write hlen hfs hfields] at hdone
  refine hdone.congr id ?_
  rw [h20, and_iff_right hid, and_assoc]

end Mutation

end Bogbin.Kernel
