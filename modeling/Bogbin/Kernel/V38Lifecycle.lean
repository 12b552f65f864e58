import Bogbin.Kernel.FirstImage

/-!
# The lifecycle law of the v38 table

A mutation that succeeds creates, writes or deletes the record of its path and leaves the others
alone; one that stops has written no sector (`V38Op.Lawful`).  The mutations do not look at what they
replace: the law holds exactly on the states that `V38Op.regular` describes
(`v38_lifecycle_law_iff`).
-/

namespace Bogbin.Kernel

open Buffer BlockDevice Bogbin.Core AlternateRoot

def V38State.record (st : V38State) (index : ℕ) : Bytes := v38_record st.manifest.val index

def v38_version (record : Bytes) : ℕ := v37_read_u32 record 64

def v38_entry_type (record : Bytes) : ℕ := v37_read_u32 record 76

def v38_lifecycle_id (record : Bytes) : ℕ := v37_read_u32 record 112

/-- The path that a mutation is about. -/
def V38Op.path : V38Op → Bytes
  | .create => V38_NEW_PATH
  | .write => V38_NEW_PATH
  | .delete => V38_DELETE_PATH

/-! ## The law -/

/-- The table has no live record at the path. -/
def V38State.Vacant (st : V38State) (path : Bytes) : Prop :=
  ∀ i < st.record_count, v38_path_eq (st.record i) path = true →
    v38_entry_type (st.record i) = V38_TYPE_TOMBSTONE

/-- The other records are as they were. -/
def V38State.SameRecords (old new : V38State) (index : ℕ) : Prop :=
  ∀ i < old.record_count, i ≠ index → new.record i = old.record i

/-- A new record at a vacant path: version 1, and a lifecycle id that no record has and that is
below the next one. -/
def V38State.Created (old new : V38State) (path : Bytes) : Prop :=
  old.Vacant path ∧ new.record_count = old.record_count + 1 ∧
    v38_path_eq (new.record old.record_count) path = true ∧
    v38_version (new.record old.record_count) = 1 ∧
    (∀ i < old.record_count,
      v38_lifecycle_id (old.record i) ≠ v38_lifecycle_id (new.record old.record_count)) ∧
    v38_lifecycle_id (new.record old.record_count) < new.next_lifecycle_id ∧
    old.SameRecords new old.record_count

/-- The live file at the path has the next version and the same lifecycle id. -/
def V38State.Updated (old new : V38State) (path : Bytes) : Prop :=
  new.record_count = old.record_count ∧
    ∃ index < old.record_count, v38_path_eq (old.record index) path = true ∧
      v38_entry_type (old.record index) = V38_TYPE_FILE ∧
      v38_version (new.record index) = v38_version (old.record index) + 1 ∧
      v38_lifecycle_id (new.record index) = v38_lifecycle_id (old.record index) ∧
      old.SameRecords new index

def V38Op.Changes : V38Op → V38State → V38State → Prop
  | .create, old, new => old.Created new V38_NEW_PATH
  | .write, old, new => old.Updated new V38_NEW_PATH
  | .delete, old, new => old.Updated new V38_DELETE_PATH

/-- A success changes the table by the law, in memory and on the disk; anything else has written no
sector. -/
structure V38Op.Lawful (overflow_checks : Bool) (op : V38Op) (old : V38State) (v : Device Sector) :
    Prop where
  accepted : ∀ new after, op.run overflow_checks old v = (.ok new, after) → op.Changes old new ∧
    slice (v37_read_manifest after.disk new.manifest_lba).val 0 V38_TABLE_SIZE = new.manifest.val
  refused : ∀ e after, op.run overflow_checks old v = (.error e, after) → after = v

/-- The states on which a mutation keeps the law: it is refused before its first write, or what it
replaces is what the law says. -/
def V38Op.regular (overflow_checks : Bool) : V38Op → V38State → Prop
  | .create, old => V38_MAX_RECORDS ≤ old.record_count ∨
      Overflows overflow_checks old.next_lifecycle_id ∨ Overflows overflow_checks old.generation ∨
      (old.Vacant V38_NEW_PATH ∧ old.next_lifecycle_id ≠ 2 ^ 32 - 1 ∧
        ∀ i < old.record_count, v38_lifecycle_id (old.record i) ≠ old.next_lifecycle_id)
  | op, old => ∀ index, v38_find old op.path = some index →
      Overflows overflow_checks (v38_version (old.record index)) ∨
      Overflows overflow_checks old.generation ∨
      (v38_entry_type (old.record index) = V38_TYPE_FILE ∧
        v38_version (old.record index) ≠ 2 ^ 32 - 1)

/-! ## The record of a path -/

theorem v38_find_path {st : V38State} {path : Bytes} {index : ℕ}
    (h : v38_find st path = some index) : v38_path_eq (st.record index) path = true := by
  have hpath := List.find?_some h
  exact hpath

/-- In a valid table two records do not have the same path. -/
theorem v38_path_unique {r : Superblock} {m : Manifest} (htable : v38_table r m) {path : Bytes}
    {i j : ℕ} (hlt : i < j) (hj : j < v37_read_u32 m.val 12)
    (hpath : v38_path_eq (v38_record m.val j) path = true) :
    v38_path_eq (v38_record m.val i) path = false := by
  obtain ⟨n, hn, -, -, hother, -⟩ := check_record_eq_ok.mp (htable.2 j hj)
  obtain ⟨hlen, htake⟩ : v38_path_len (v38_record m.val j) = some path.length ∧
      (v38_record m.val j).take path.length = path := by
    simpa only [v38_path_eq, Bool.and_eq_true, decide_eq_true_eq] using hpath
  obtain rfl : n = path.length := Option.some.inj (hn.symm.trans hlen)
  have := hother i hlt
  rwa [htake] at this

theorem v38_find_unique {superblock_lba : ℕ} {r : Superblock} {m : Manifest}
    (htable : v38_table r m) {path : Bytes} {index i : ℕ}
    (hfind : v38_find (v38_state superblock_lba r m) path = some index)
    (hi : i < v37_read_u32 m.val 12) (hpath : v38_path_eq (v38_record m.val i) path = true) :
    i = index := by
  obtain ⟨-, hcount, -⟩ := v38_header_bounds htable.1
  have hlt : index < v37_read_u32 m.val 12 := v38_find_eq_some hfind
  have hindex : v38_path_eq (v38_record m.val index) path = true := by
    have hstate := v38_record_state superblock_lba r m (by omega : index < 8)
    rw [← hstate]
    exact v38_find_path hfind
  rcases Nat.lt_trichotomy i index with hless | heq | hmore
  · exact absurd (hpath.symm.trans (v38_path_unique htable hless hlt hindex)) (by decide)
  · exact heq
  · exact absurd (hindex.symm.trans (v38_path_unique htable hmore hi hpath)) (by decide)

/-! ## Commits of a staged record -/

theorem V38Op.lawful_of_stops {overflow_checks : Bool} {op : V38Op} {old : V38State} {d : Disk}
    {e : Halt String} (h : Writes (op.run overflow_checks old) d [] (.error e)) (n : ℕ) :
    op.Lawful overflow_checks old ⟨d, n⟩ := by
  have hrun : op.run overflow_checks old ⟨d, n⟩ = (.error e, ⟨d, n⟩) := h n
  refine ⟨fun new after hnew => ?_, fun e' after hstop => ?_⟩
  · exact nomatch hrun.symm.trans hnew
  · exact (Prod.mk.inj (hrun.symm.trans hstop)).2.symm

/-- A staged record is committed, unless the generation overflows. -/
theorem Stages.commits {overflow_checks : Bool} {op : V38Op} {d : Disk} {s : Bool}
    {r : Superblock} {m m1 : Manifest} {index : ℕ} {record : Bytes} {content : Option Bytes}
    (h : Stages overflow_checks (op.run overflow_checks (v38_state (slot_lba s) r m)) d s r m index
      record content m1)
    (hlba : r.manifest_lba = 8 ∨ r.manifest_lba = 16) (hgen : r.generation < 2 ^ 32)
    (hcontent : ∀ c, content = some c → c.length ≤ 512) (hcount : v37_read_u32 m1.val 12 ≤ 8)
    (hindex : index < 8) {n : ℕ} (hn : 10 ≤ n) :
    (Overflows overflow_checks r.generation ∧
      op.Lawful overflow_checks (v38_state (slot_lba s) r m) ⟨d, n⟩) ∨
    (¬ Overflows overflow_checks r.generation ∧ ∃ new : V38State,
      (op.Lawful overflow_checks (v38_state (slot_lba s) r m) ⟨d, n⟩ ↔
        op.Changes (v38_state (slot_lba s) r m) new) ∧
      new.record_count = v37_read_u32 m1.val 12 ∧
      new.next_lifecycle_id = v37_read_u32 m1.val 20 ∧ new.record index = record ∧
      ∀ i < 8, i ≠ index → new.record i = v38_record m.val i) := by
  rcases @writes_v38_commit overflow_checks s r m m1 content hcontent hcount d with
    ⟨hif, hpanic⟩ | ⟨hif, m2, m', data, hm2, hm', hdata, hwrites⟩
  · exact .inl ⟨overflows_of_not hgen hif, V38Op.lawful_of_stops (h.runs _ _ hpanic) n⟩
  have hrun := h.runs _ _ hwrites n
  have hlen : (commit_writes v38_format data s r m').length ≤ n := by
    have hle : data.length ≤ 1 := by
      cases content with
      | none =>
        rw [show data = [] from hdata]
        exact Nat.zero_le 1
      | some content =>
        obtain ⟨sector, -, rfl⟩ := hdata
        exact le_rfl
    have hroot : (commit_writes v38_format data s r m').length = data.length + 9 := by
      simp [commit_writes, RootFormat.root_writes, manifest_writes]
    omega
  rw [if_pos hlen] at hrun
  have hseal : Within m2.val.length
      [(24, v38_listing_hash m2.val (v37_read_u32 m2.val 12))] := by
    simp [Within, m2.2, v38_listing_hash]
  have hupdate : TableUpdate m index record m' :=
    (h.update.header (by simp [HeaderField, u32_field]) hm2).header
      (by simp [HeaderField, v38_listing_hash]) hm'
  have hnumber (offset : ℕ) (hlo : 12 ≤ offset) (hhi : offset + 4 ≤ 24) :
      v37_read_u32 m'.val offset = v37_read_u32 m1.val offset := by
    refine Eq.trans ?_ (read_other_number hm2 (by norm_num) (.inr hlo))
    rw [hm']
    refine read_u32_write_gap hseal fun f hf => ?_
    rw [List.mem_singleton.mp hf]
    exact .inl hhi
  have hstate {i : ℕ} (hi : i < 8) :
      (v38_new_state s r m').record i = v38_record m'.val i := v38_record_state _ _ _ hi
  refine .inr ⟨fun hover => ?_, v38_new_state s r m', ?_, hnumber 12 le_rfl (by norm_num),
    hnumber 20 (by norm_num) le_rfl, (hstate hindex).trans hupdate.record,
    fun i hi hne => (hstate hi).trans (hupdate.other i hne)⟩
  · obtain ⟨hchecks, hmax⟩ := hover
    rcases hif with hlt | hfalse
    · omega
    · exact absurd (hchecks.symm.trans hfalse) (by decide)
  · have hother := other_manifest_cases hlba
    have hregion := (@store_commit_writes v38_format d s r hlba data m').2
    rw [region_lba_manifest (by omega)] at hregion
    refine ⟨fun hlaw => (hlaw.accepted _ _ hrun).1, fun hchanges =>
      ⟨fun new after hnew => ?_, fun e after hstop => ?_⟩⟩
    · obtain ⟨hok, rfl⟩ := Prod.mk.inj (hrun.symm.trans hnew)
      obtain rfl := Except.ok.inj hok
      exact ⟨hchanges, congrArg (fun m : Manifest => slice m.val 0 V38_TABLE_SIZE) hregion⟩
    · cases hrun.symm.trans hstop

/-! ## The operations -/

section Operations

variable (overflow_checks : Bool) {d : Disk} {s : Bool} {r : Superblock} {m : Manifest}
  (hlba : r.manifest_lba = 8 ∨ r.manifest_lba = 16) (hgen : r.generation < 2 ^ 32)
  (htable : v38_table r m) {n : ℕ} (hn : 10 ≤ n)

include hlba hgen htable hn

theorem v38_create_lawful_iff :
    V38Op.create.Lawful overflow_checks (v38_state (slot_lba s) r m) ⟨d, n⟩ ↔
      V38Op.create.regular overflow_checks (v38_state (slot_lba s) r m) := by
  have hstate {i : ℕ} (hi : i < 8) :
      (v38_state (slot_lba s) r m).record i = v38_record m.val i := v38_record_state _ _ _ hi
  by_cases hfull : V38_MAX_RECORDS ≤ v37_read_u32 m.val 12
  · refine iff_of_true (V38Op.lawful_of_stops (e := .error "file_table_full") ?_ n) (.inl hfull)
    change Writes (v38_create overflow_checks (v38_state (slot_lba s) r m)) d [] _
    unfold v38_create
    rw [if_pos (show V38_MAX_RECORDS ≤ (v38_state (slot_lba s) r m).record_count from hfull)]
    exact .halt _
  have hroom : v37_read_u32 m.val 12 < 8 := not_le.mp hfull
  obtain ⟨-, -, -, -, hid, -⟩ := v38_header_bounds htable.1
  have hidlt := read_u32_lt m.val 20
  rcases v38_create_staged overflow_checks htable hroom with
    ⟨hover, hpanic⟩ | ⟨hif, m1, hstages, hn12, -, hn20⟩
  · exact iff_of_true (@V38Op.lawful_of_stops _ .create _ _ _ hpanic n) (.inr (.inl hover))
  rcases @Stages.commits _ .create _ _ _ _ _ _ _ _ hstages hlba hgen (fun _ hc => by cases hc)
    (by omega) hroom _ hn with ⟨hover, hlawful⟩ | ⟨hover, new, hiff, hcount, hnext, hrecord, hothers⟩
  · exact iff_of_true hlawful (.inr (.inr (.inl hover)))
  have hcreated : v38_version (new.record (v37_read_u32 m.val 12)) = 1 ∧
      v38_lifecycle_id (new.record (v37_read_u32 m.val 12)) = v37_read_u32 m.val 20 ∧
      v38_path_eq (new.record (v37_read_u32 m.val 12)) V38_NEW_PATH = true := by
    rw [hrecord]
    refine ⟨create_record_number (by simp [create_record_fields]) (by norm_num),
      create_record_number (by simp [create_record_fields]) hidlt, ?_⟩
    rw [v38_path_eq, create_record_path_len, show V38_NEW_PATH.length = 13 by decide,
      create_record_take]
    decide
  obtain ⟨hversion, hlife, hpath⟩ := hcreated
  rw [hiff]
  show V38State.Created _ new V38_NEW_PATH ↔ _
  constructor
  · rintro ⟨hvacant, -, -, -, hfresh, hbelow, -⟩
    change v38_lifecycle_id (new.record (v37_read_u32 m.val 12)) < _ at hbelow
    refine .inr (.inr (.inr ⟨hvacant, fun hmax => ?_, fun i hi => ?_⟩))
    · change v37_read_u32 m.val 20 = _ at hmax
      rw [hlife, hnext, hn20] at hbelow
      omega
    · exact (hfresh i hi).trans_eq hlife
  · rintro (h | h | h | ⟨hvacant, hmax, hfresh⟩)
    · exact absurd h hfull
    · obtain ⟨hchecks, hmax⟩ := h
      change v37_read_u32 m.val 20 = _ at hmax
      rcases hif with hlt | hfalse
      · omega
      · exact absurd (hchecks.symm.trans hfalse) (by decide)
    · exact absurd h hover
    · refine ⟨hvacant, hcount.trans hn12, hpath, hversion, fun i hi => ?_, ?_, fun i hi hne => ?_⟩
      · exact (hfresh i hi).trans_eq hlife.symm
      · change v37_read_u32 m.val 20 ≠ _ at hmax
        show v38_lifecycle_id (new.record (v37_read_u32 m.val 12)) < _
        rw [hlife, hnext, hn20]
        omega
      · have hi' : i < v37_read_u32 m.val 12 := hi
        rw [hstate (by omega)]
        exact hothers i (by omega) hne

/-- A mutation that stages a new version of the record it found. -/
theorem v38_update_lawful_iff {op : V38Op} (hop : op ≠ .create) {index : ℕ}
    {fs : List (ℕ × Bytes)} {content : Option Bytes} {m1 : Manifest}
    (hfind : v38_find (v38_state (slot_lba s) r m) op.path = some index)
    (hif : v37_read_u32 (v38_record m.val index) 64 + 1 < 2 ^ 32 ∨ overflow_checks = false)
    (hstages : Stages overflow_checks (op.run overflow_checks (v38_state (slot_lba s) r m)) d s r m
      index (write (v38_record m.val index) fs) content m1)
    (hbetween : ∀ f ∈ fs, 64 ≤ f.1 ∧ f.1 + f.2.length ≤ 112)
    (hversion : v38_version (write (v38_record m.val index) fs) =
      (v37_read_u32 (v38_record m.val index) 64 + 1) % 2 ^ 32)
    (hcontent : ∀ c, content = some c → c.length ≤ 512)
    (hn12 : v37_read_u32 m1.val 12 = v37_read_u32 m.val 12) :
    op.Lawful overflow_checks (v38_state (slot_lba s) r m) ⟨d, n⟩ ↔
      op.regular overflow_checks (v38_state (slot_lba s) r m) := by
  obtain ⟨-, hcount, -⟩ := v38_header_bounds htable.1
  have hlt : index < v37_read_u32 m.val 12 := v38_find_eq_some hfind
  have hstate {i : ℕ} (hi : i < 8) :
      (v38_state (slot_lba s) r m).record i = v38_record m.val i := v38_record_state _ _ _ hi
  have hindex := hstate (by omega : index < 8)
  have hregular : op.regular overflow_checks (v38_state (slot_lba s) r m) ↔
      Overflows overflow_checks (v37_read_u32 (v38_record m.val index) 64) ∨
      Overflows overflow_checks r.generation ∨
      (v38_entry_type (v38_record m.val index) = V38_TYPE_FILE ∧
        v37_read_u32 (v38_record m.val index) 64 ≠ 2 ^ 32 - 1) := by
    rw [← hindex]
    cases op with
    | create => exact absurd rfl hop
    | write => simp only [V38Op.regular, hfind, Option.some.injEq, forall_eq']; exact Iff.rfl
    | delete => simp only [V38Op.regular, hfind, Option.some.injEq, forall_eq']; exact Iff.rfl
  have hchanges (new : V38State) : op.Changes (v38_state (slot_lba s) r m) new ↔
      (v38_state (slot_lba s) r m).Updated new op.path := by
    cases op with
    | create => exact absurd rfl hop
    | write => exact Iff.rfl
    | delete => exact Iff.rfl
  rw [hregular]
  rcases hstages.commits hlba hgen hcontent (by omega) (by omega) hn with
    ⟨hover, hlawful⟩ | ⟨hover, new, hiff, hcount', -, hrecord, hothers⟩
  · exact iff_of_true hlawful (.inr (.inl hover))
  have hlen := length_v38_record m (by omega : index < 8)
  have hlife : v38_lifecycle_id (new.record index) = v38_lifecycle_id (v38_record m.val index) := by
    rw [hrecord]
    exact congrArg leValue (slice_record_tail hlen hbetween le_rfl)
  have hnew : v38_version (new.record index) =
      (v37_read_u32 (v38_record m.val index) 64 + 1) % 2 ^ 32 := hrecord ▸ hversion
  have hmax := read_u32_lt (v38_record m.val index) 64
  rw [hiff, hchanges]
  constructor
  · rintro ⟨-, i, hi, hpath, hfile, hnext, -⟩
    have hi' : i < v37_read_u32 m.val 12 := hi
    rw [hstate (by omega)] at hpath hfile hnext
    obtain rfl := v38_find_unique htable hfind hi' hpath
    refine .inr (.inr ⟨hfile, fun heq => ?_⟩)
    rw [hnew, heq] at hnext
    change _ = v37_read_u32 (v38_record m.val i) 64 + 1 at hnext
    omega
  · rintro (⟨hchecks, heq⟩ | h | ⟨hfile, hne⟩)
    · rcases hif with hsmall | hfalse
      · omega
      · exact absurd (hchecks.symm.trans hfalse) (by decide)
    · exact absurd h hover
    · refine ⟨hcount'.trans hn12, index, hlt, ?_, ?_, ?_, ?_, fun i hi hne => ?_⟩
      · exact v38_find_path hfind
      · rw [hindex, hfile]
      · rw [hnew, hindex, Nat.mod_eq_of_lt (by omega)]
        rfl
      · rw [hlife, hindex]
      · have hi' : i < v37_read_u32 m.val 12 := hi
        rw [hstate (by omega)]
        exact hothers i (by omega) hne

theorem v38_write_lawful_iff :
    V38Op.write.Lawful overflow_checks (v38_state (slot_lba s) r m) ⟨d, n⟩ ↔
      V38Op.write.regular overflow_checks (v38_state (slot_lba s) r m) := by
  obtain ⟨-, hcount, -⟩ := v38_header_bounds htable.1
  cases hfind : v38_find (v38_state (slot_lba s) r m) V38_NEW_PATH with
  | none =>
    refine iff_of_true (V38Op.lawful_of_stops (e := .error "missing_file") ?_ n) fun i hi => ?_
    · change Writes (v38_write overflow_checks (v38_state (slot_lba s) r m)) d [] _
      unfold v38_write
      rw [hfind]
      exact .halt _
    · exact nomatch hfind.symm.trans hi
  | some index =>
    have hlt : index < v37_read_u32 m.val 12 := v38_find_eq_some hfind
    have hlen := length_v38_record m (by omega : index < 8)
    have hstate := v38_record_state (slot_lba s) r m (by omega : index < 8)
    rcases v38_write_staged overflow_checks htable hfind with
      ⟨hover, hpanic⟩ | ⟨hif, m1, hstages, hn12, -, -⟩
    · refine iff_of_true (@V38Op.lawful_of_stops _ .write _ _ _ hpanic n) fun i hi => .inl ?_
      obtain rfl : index = i := Option.some.inj (hfind.symm.trans hi)
      show Overflows _ (v37_read_u32 (v38_record _ _) 64)
      rwa [hstate]
    · refine v38_update_lawful_iff overflow_checks hlba hgen htable hn (by decide)
        hfind hif hstages (write_record_fields_between _ _) ?_ ?_ hn12
      · exact (read_write_record hlen (Nat.mod_lt _ (by norm_num)) (read_u32_lt _ _)).1
      · rintro c ⟨⟩
        decide

theorem v38_delete_lawful_iff :
    V38Op.delete.Lawful overflow_checks (v38_state (slot_lba s) r m) ⟨d, n⟩ ↔
      V38Op.delete.regular overflow_checks (v38_state (slot_lba s) r m) := by
  obtain ⟨-, hcount, -⟩ := v38_header_bounds htable.1
  cases hfind : v38_find (v38_state (slot_lba s) r m) V38_DELETE_PATH with
  | none =>
    refine iff_of_true (V38Op.lawful_of_stops (e := .error "missing_file") ?_ n) fun i hi => ?_
    · change Writes (v38_delete overflow_checks (v38_state (slot_lba s) r m)) d [] _
      unfold v38_delete
      rw [hfind]
      exact .halt _
    · exact nomatch hfind.symm.trans hi
  | some index =>
    have hlt : index < v37_read_u32 m.val 12 := v38_find_eq_some hfind
    have hlen := length_v38_record m (by omega : index < 8)
    have hstate := v38_record_state (slot_lba s) r m (by omega : index < 8)
    rcases v38_delete_staged overflow_checks htable hfind with
      ⟨hover, hpanic⟩ | ⟨hif, m1, hstages, hn12, -, -⟩
    · refine iff_of_true (@V38Op.lawful_of_stops _ .delete _ _ _ hpanic n) fun i hi => .inl ?_
      obtain rfl : index = i := Option.some.inj (hfind.symm.trans hi)
      show Overflows _ (v37_read_u32 (v38_record _ _) 64)
      rwa [hstate]
    · exact v38_update_lawful_iff overflow_checks hlba hgen htable hn (by decide)
        hfind hif hstages (delete_record_fields_between _)
        (read_delete_record hlen (Nat.mod_lt _ (by norm_num))).1 (fun _ hc => by cases hc) hn12

end Operations

/-- On every state that mounting returns and a device that does its writes, a mutation keeps the
lifecycle law exactly when the state is regular for it. -/
theorem v38_lifecycle_law_iff (overflow_checks : Bool) {d : Disk} {old : V38State}
    {slot_a slot_b : String} {fallback : Bool}
    (hmount : v38_mount d = .ok (old, slot_a, slot_b, fallback)) (op : V38Op) {n : ℕ}
    (hn : 10 ≤ n) :
    op.Lawful overflow_checks old ⟨d, n⟩ ↔ op.regular overflow_checks old := by
  have hmounted : (v38 overflow_checks).mounted d = some old := by
    show (v38_mount d).toOption.map Prod.fst = _
    rw [hmount]
    rfl
  obtain ⟨s, r, hv⟩ := v38_mounted_valid hmounted
  obtain ⟨hlba, hgen, -⟩ := read_superblock_eq_ok (toOption_eq_some.mp hv.root)
  obtain ⟨htable, -, rfl⟩ := v38_valid_state hv
  cases op with
  | create => exact v38_create_lawful_iff overflow_checks hlba hgen htable hn
  | write => exact v38_write_lawful_iff overflow_checks hlba hgen htable hn
  | delete => exact v38_delete_lawful_iff overflow_checks hlba hgen htable hn

/-! ## The first image -/

theorem v38_mount_of_mounted {overflow_checks : Bool} {d : Disk} {st : V38State}
    (h : (v38 overflow_checks).mounted d = some st) :
    ∃ slot_a slot_b fallback, v38_mount d = .ok (st, slot_a, slot_b, fallback) := by
  obtain ⟨⟨st', slot_a, slot_b, fallback⟩, hmount, rfl⟩ := Option.map_eq_some_iff.mp h
  exact ⟨slot_a, slot_b, fallback, toOption_eq_some.mp hmount⟩

/-- The law for a write to the file of the first image. -/
theorem v38_lifecycle_law_first_image :
    V38Op.write.Lawful true v38_first_state ⟨v38_first_image, 10⟩ ↔
      V38Op.write.regular true v38_first_state := by
  obtain ⟨slot_a, slot_b, fallback, hmount⟩ :=
    v38_mount_of_mounted (@v38_mounts true _ _ _ _ v38_first_mounts)
  exact v38_lifecycle_law_iff true hmount .write le_rfl

/-- Creating the file of the first image succeeds, although it is there. -/
theorem created_twice_not_lawful :
    (∃ slot_a slot_b fallback,
      v38_mount v38_first_image = .ok (v38_first_state, slot_a, slot_b, fallback)) ∧
      ¬ V38Op.create.Lawful true v38_first_state ⟨v38_first_image, 10⟩ := by
  refine ⟨v38_mount_of_mounted (@v38_mounts true _ _ _ _ v38_first_mounts), fun hlaw => ?_⟩
  have hgen : (new_root v38_format no_root v38_first_manifest).generation < 2 ^ 32 :=
    show (1 : ℕ) < 2 ^ 32 by norm_num
  have hregular := (v38_create_lawful_iff true (.inl rfl) hgen v38_first_table le_rfl).mp hlaw
  have hcount : v38_first_state.record_count = 1 :=
    @v38_first_number 12 1 (by norm_num) (by simp [v38_first_fields])
  have hlife : v38_first_state.next_lifecycle_id = 2 :=
    @v38_first_number 20 2 (by norm_num) (by simp [v38_first_fields])
  have hrecord : v38_first_state.record 0 = v38_first_record :=
    (v38_record_state _ _ _ (by norm_num)).trans v38_first_record_eq
  have htype : v38_entry_type (v38_first_state.record 0) = V38_TYPE_FILE := by
    rw [hrecord]
    exact create_record_number (by simp [create_record_fields]) (by decide)
  rcases hregular with hfull | ⟨-, hmax⟩ | ⟨-, hmax⟩ | ⟨hvacant, -⟩
  · change V38_MAX_RECORDS ≤ v38_first_state.record_count at hfull
    rw [hcount] at hfull
    exact absurd hfull (by decide)
  · change v38_first_state.next_lifecycle_id = _ at hmax
    omega
  · exact absurd hmax (show (1 : ℕ) ≠ 2 ^ 32 - 1 by norm_num)
  · have htomb := hvacant 0 (hcount ▸ Nat.one_pos) (v38_find_path v38_first_find)
    exact absurd (htype.symm.trans htomb) (by decide)

end Bogbin.Kernel
