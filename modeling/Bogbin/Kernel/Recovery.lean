import Bogbin.Kernel.FirstImage

/-!
# Crash atomicity and durability

Both persistent file systems follow the alternate-root scheme, so every disk of a run mounts and a
commit that is cut off anywhere leaves the old state or the new one.  A commit that returns a new
state is mounted next exactly when its table is well formed and its generation did not wrap around.
-/

namespace Bogbin.Kernel

open Buffer BlockDevice Bogbin.Core AlternateRoot

/-- After any run of commits, each cut off anywhere, the disk mounts; and whatever commit follows and
wherever it is cut off, the next mount returns the state before it or the state it was writing. -/
theorem crash_atomic {fs : FileSystem} (hfs : fs = v37 ∨ ∃ overflow_checks, fs = v38 overflow_checks)
    {ds : List Disk} {d : Disk} (h : fs.Reaches ds d) (hfree : CollisionFree ds) :
    ∃ old, fs.mounted d = some old ∧ ∀ op n, CollisionFree (fs.cut op old d n :: ds) →
      fs.mounted (fs.cut op old d n) = some old ∨
        ∃ new m, (fs.run op old ⟨d, m⟩).1 = .ok new ∧
          fs.mounted (fs.cut op old d n) = some new := by
  rcases hfs with rfl | ⟨overflow_checks, rfl⟩
  · exact v37_follows.old_or_new (by decide) h hfree
  · exact (v38_follows overflow_checks).old_or_new (by decide) h hfree

/-- Crash atomicity after a commit on the first image that lost power after one write. -/
theorem crash_atomic_first_image : ∃ ds d, ds.length = 2 ∧ v37.Reaches ds d ∧ CollisionFree ds ∧
    ∃ old, v37.mounted d = some old ∧ ∀ op n, CollisionFree (v37.cut op old d n :: ds) →
      v37.mounted (v37.cut op old d n) = some old ∨
        ∃ new m, (v37.run op old ⟨d, m⟩).1 = .ok new ∧
          v37.mounted (v37.cut op old d n) = some new := by
  obtain ⟨r, st, -, -, hfree, hmounts⟩ := v37_first_mounts
  have himage : v37.Image v37_first_image :=
    ⟨false, st, v37_validate_iff.mpr ⟨r, hmounts.1⟩, first_image_other v37_first_data⟩
  let op : v37.Op := ⟨ascii "B", by decide⟩
  have hreach := FileSystem.Reaches.commit op 1 (.image himage) (v37_mounts hmounts)
  obtain ⟨sector, m, new, hcommits, -⟩ := v37_commits hmounts.1 op.2 (by rw [hfree]; decide)
  have hcut : v37.cut op st v37_first_image 1 = store v37_first_image [(st.next_free_lba, sector)] :=
    hcommits.writes.disk 1
  have hregions : manifests [v37.cut op st v37_first_image 1, v37_first_image] ⊆
      {v37_first_manifest} := by
    rintro _ ⟨d, hd, b, rfl⟩
    rcases List.mem_pair.mp hd with rfl | rfl
    · rw [hcut]
      refine first_image_region v37_first_data (fun w hw => ?_) b
      rw [List.mem_singleton.mp hw, hfree]
      norm_num
    · exact @first_image_region _ _ _ v37_first_data [] (by simp) b
  have hfree' : CollisionFree [v37.cut op st v37_first_image 1, v37_first_image] :=
    (Set.injOn_singleton _ _).mono hregions
  exact ⟨_, _, rfl, hreach, hfree', crash_atomic (.inl rfl) hreach hfree'⟩

/-! ## Durability -/

/-- The disk mounts, with the generation, the root hash and the file of the state. -/
def V37State.Durable (new : V37State) (d : Disk) : Prop :=
  ∃ st, v37.mounted d = some st ∧ st.generation = new.generation ∧ st.root_hash = new.root_hash ∧
    st.file_version = new.file_version ∧ st.file_length = new.file_length ∧
    st.file_lba = new.file_lba ∧ st.file_hash = new.file_hash ∧ st.file_data = new.file_data

/-- The disk mounts, with the generation, the root hash and the table of the state. -/
def V38State.Durable (overflow_checks : Bool) (new : V38State) (d : Disk) : Prop :=
  ∃ st, (v38 overflow_checks).mounted d = some st ∧ st.generation = new.generation ∧
    st.root_hash = new.root_hash ∧ st.record_count = new.record_count ∧ st.manifest = new.manifest

theorem v37_durable_iff {d : Disk} {old new : V37State} (op : v37.Op) (n : ℕ)
    (hmount : v37.mounted d = some old) (hok : (v37.run op old ⟨d, n⟩).1 = .ok new) :
    new.Durable (v37.cut op old d n) ↔ old.generation ≠ 2 ^ 32 - 1 := by
  obtain ⟨s, r, hv⟩ := v37_mounted_valid hmount
  have hgen := v37_generation_eq hv
  by_cases hfull : old.next_free_lba < V36_SECTOR_COUNT
  swap
  · exact nomatch ((writes_v37_commit_full (not_lt.mp hfull) op.val d).eq_of_ok hok).1
  obtain ⟨sector, m, new', hcommits, -⟩ := v37_commits hv op.2 hfull
  obtain ⟨hresult, hn⟩ := hcommits.writes.eq_of_ok hok
  -- the commit validates its new root before it returns
  have hvalid : v37_validate_root (store d
      (commit_writes v37_format [(old.next_free_lba, sector)] s r m)) (slot_lba !s) =
      .ok new := by
    cases h : v37_validate_root (store d
      (commit_writes v37_format [(old.next_free_lba, sector)] s r m)) (slot_lba !s) with
    | error e => exact nomatch (h ▸ hresult : (Except.error e).mapError Halt.error = .ok new)
    | ok st => exact congrArg _ (Except.ok.inj (h ▸ hresult :
        (Except.ok st).mapError Halt.error = .ok new))
  obtain ⟨r', hv'⟩ := v37_validate_iff.mp hvalid
  have htable := hcommits.table_of_valid v37_loads_below_free hv hv'
  obtain rfl : new' = new := Except.ok.inj ((hcommits.result htable).symm.trans hresult)
  rw [hgen]
  constructor
  · rintro ⟨st, hst, hsame, -⟩ hmax
    have hold := v37_mounts (hcommits.mounts_old v37_loads_below_free hv hn fun h => h.2 hmax)
    obtain rfl := Option.some.inj (hold.symm.trans hst)
    have hnew : new'.generation = (r.generation + 1) % 2 ^ 32 :=
      (v37_state_eq (hcommits.load htable)).1
    omega
  · intro hne
    exact ⟨new', v37_mounts (hcommits.mounts_new v37_loads_below_free hv hn htable hne),
      rfl, rfl, rfl, rfl, rfl, rfl, rfl⟩

theorem v38_durable_iff (overflow_checks : Bool) {d : Disk} {old new : V38State} (op : V38Op) (n : ℕ)
    (hmount : (v38 overflow_checks).mounted d = some old)
    (hok : (op.run overflow_checks old ⟨d, n⟩).1 = .ok new) :
    new.Durable overflow_checks ((v38 overflow_checks).cut op old d n) ↔
      op.accepted old ∧ old.generation ≠ 2 ^ 32 - 1 := by
  obtain ⟨s, r, hv⟩ := v38_mounted_valid hmount
  have hgen := v38_generation_eq hv
  rcases op.outcome overflow_checks hv with ⟨-, e, hwrites⟩ | ⟨data, m, hcommits, hiff⟩
  · exact nomatch (hwrites.eq_of_ok hok).1
  obtain ⟨hresult, hn⟩ := hcommits.writes.eq_of_ok hok
  obtain rfl : v38_new_state s r m = new := Except.ok.inj hresult
  rw [hgen, ← hiff]
  constructor
  · rintro ⟨st, hst, hsame, -⟩
    by_contra hnot
    have hold := @v38_mounts overflow_checks _ _ _ _ (hcommits.mounts_old v38_loads_below_free hv hn hnot)
    obtain rfl := Option.some.inj (hold.symm.trans hst)
    have hnew : (v38_new_state s r m).generation = (r.generation + 1) % 2 ^ 32 := rfl
    omega
  · rintro ⟨htable, hne⟩
    exact ⟨_, v38_mounts (hcommits.mounts_new v38_loads_below_free hv hn htable hne),
      rfl, rfl, rfl, rfl⟩

/-- A commit that returns a new state on a device that does all its writes is mounted next, exactly
when the mutation keeps the table well formed and the generation does not wrap around. -/
theorem commit_durable_iff (overflow_checks : Bool) :
    (∀ {d : Disk} {old new : V37State} (op : v37.Op) (n : ℕ), v37.mounted d = some old →
      (v37.run op old ⟨d, n⟩).1 = .ok new →
      (new.Durable (v37.cut op old d n) ↔ old.generation ≠ 2 ^ 32 - 1)) ∧
    ∀ {d : Disk} {old new : V38State} (op : V38Op) (n : ℕ),
      (v38 overflow_checks).mounted d = some old →
      (op.run overflow_checks old ⟨d, n⟩).1 = .ok new →
      (new.Durable overflow_checks ((v38 overflow_checks).cut op old d n) ↔
        op.accepted old ∧ old.generation ≠ 2 ^ 32 - 1) :=
  ⟨v37_durable_iff, v38_durable_iff overflow_checks⟩

/-- A commit on each of the first images. -/
theorem commit_durable_first_image :
    (∃ old new n op, v37.mounted v37_first_image = some old ∧
      (v37.run op old ⟨v37_first_image, n⟩).1 = .ok new ∧
      (new.Durable (v37.cut op old v37_first_image n) ↔ old.generation ≠ 2 ^ 32 - 1)) ∧
    ∃ new n, (v38 true).mounted v38_first_image = some v38_first_state ∧
      (V38Op.write.run true v38_first_state ⟨v38_first_image, n⟩).1 = .ok new ∧
      (new.Durable true ((v38 true).cut V38Op.write v38_first_state v38_first_image n) ↔
        V38Op.write.accepted v38_first_state ∧ v38_first_state.generation ≠ 2 ^ 32 - 1) := by
  constructor
  · obtain ⟨r, st, -, hversion, hfree, hmounts⟩ := v37_first_mounts
    let op : v37.Op := ⟨ascii "B", by decide⟩
    obtain ⟨sector, m, new, hcommits, htable⟩ := v37_commits hmounts.1 op.2 (by rw [hfree]; decide)
    have hrun := (hcommits.writes.result le_rfl).1
    rw [hcommits.result (htable.mpr (by rw [hversion]; norm_num))] at hrun
    exact ⟨st, new, _, op, v37_mounts hmounts, hrun,
      (commit_durable_iff true).1 op _ (v37_mounts hmounts) hrun⟩
  · obtain ⟨new, n, hrun⟩ := v38_first_run .write (by decide)
    exact ⟨new, n, v38_mounts v38_first_mounts, hrun,
      (commit_durable_iff true).2 V38Op.write n (v38_mounts v38_first_mounts) hrun⟩

/-- Creating the file again returns a new state, and the disk does not mount with it. -/
theorem created_twice_not_durable : ∃ new n,
    (v38 true).mounted v38_first_image = some v38_first_state ∧
      (V38Op.create.run true v38_first_state ⟨v38_first_image, n⟩).1 = .ok new ∧
      ¬ new.Durable true ((v38 true).cut V38Op.create v38_first_state v38_first_image n) := by
  obtain ⟨new, n, hrun⟩ := v38_first_run .create (by decide)
  have hmounts := @v38_mounts true _ _ _ _ v38_first_mounts
  refine ⟨new, n, hmounts, hrun, fun hdurable => ?_⟩
  have haccepted := ((v38_durable_iff true V38Op.create n hmounts hrun).mp hdurable).1
  exact nomatch v38_first_find.symm.trans haccepted.1

end Bogbin.Kernel
