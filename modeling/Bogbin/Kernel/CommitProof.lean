import Bogbin.Kernel.FileSystem

/-!
# A commit on the disk

A commit writes fresh data sectors, the other manifest and the other superblock.  Cut off before the
superblock it is torn; otherwise the other slot holds the new root (`commit_cut`).  Loading a root
reads only data sectors below the first free one, which a commit does not write.
-/

namespace Bogbin.Kernel

open Buffer BlockDevice Bogbin.Core AlternateRoot

theorem read_superblock_eq_ok {format : RootFormat} {b : Bytes} {r : Superblock}
    (h : format.read_superblock b = .ok r) :
    (r.manifest_lba = 8 ∨ r.manifest_lba = 16) ∧ r.generation < 2 ^ 32 ∧
      r.root_hash = format.root_hash r.generation r.manifest_lba r.manifest_hash := by
  simp only [RootFormat.read_superblock, bind_eq_ok, reject_if_eq_ok, Except.ok.injEq] at h
  obtain ⟨-, -, -, -, -, -, -, -, -, hlba, -, hroot, rfl⟩ := h
  refine ⟨?_, read_u32_lt _ _, (not_not.mp hroot).symm⟩
  simp only [not_or, not_and, not_not] at hlba
  by_cases ha : v37_read_u32 b 16 = V37_MANIFEST_A
  · exact .inl ha
  · exact .inr (hlba.1 ha)

theorem other_manifest_cases {lba : ℕ} (h : lba = 8 ∨ lba = 16) :
    (lba = 8 ∧ other_manifest lba = 16) ∨ (lba = 16 ∧ other_manifest lba = 8) := by
  rcases h with rfl | rfl
  · exact .inl ⟨rfl, rfl⟩
  · exact .inr ⟨rfl, rfl⟩

theorem other_superblock_slot (s : Bool) : other_superblock (slot_lba s) = slot_lba (!s) := by
  cases s <;> rfl

theorem slot_lba_cases (s : Bool) :
    (slot_lba s = 1 ∧ slot_lba (!s) = 2) ∨ (slot_lba s = 2 ∧ slot_lba (!s) = 1) := by
  cases s
  · exact .inl ⟨rfl, rfl⟩
  · exact .inr ⟨rfl, rfl⟩

/-- A root names the region of its manifest. -/
theorem region_lba_manifest {lba : ℕ} (h : lba = 8 ∨ lba = 16) :
    region_lba (decide (lba = V37_MANIFEST_B)) = lba := by
  rcases h with rfl | rfl <;> rfl

section Commit

variable {S : Type} {format : RootFormat} {table : Superblock → Manifest → Prop}
  {load : Disk → Bool → Superblock → Manifest → Option S}

/-- The root that a commit writes. -/
def new_root (format : RootFormat) (r : Superblock) (manifest : Manifest) : Superblock where
  generation := (r.generation + 1) % 2 ^ 32
  manifest_lba := other_manifest r.manifest_lba
  manifest_hash := digest manifest.val
  root_hash := format.root_hash ((r.generation + 1) % 2 ^ 32) (other_manifest r.manifest_lba)
    (digest manifest.val)

/-- Loading reads only data sectors below the first free one. -/
def LoadsBelowFree (table : Superblock → Manifest → Prop)
    (load : Disk → Bool → Superblock → Manifest → Option S) : Prop :=
  ∀ (d d' : Disk) (s : Bool) (r : Superblock) (m : Manifest), table r m →
    (∀ a, 64 ≤ a → a < v37_read_u32 m.val 16 → d' a = d a) → load d' s r m = load d s r m

/-- Writes to free data sectors, to the other manifest and to the other superblock keep a root. -/
theorem keeps_of_writes (hload : LoadsBelowFree table load) {d : Disk} {s : Bool} {r : Superblock}
    {st : S} (hv : (root_scheme format table load).Valid d s r st)
    (hlba : r.manifest_lba = 8 ∨ r.manifest_lba = 16) {ws : List (ℕ × Sector)}
    (hws : ∀ w ∈ ws,
      v37_read_u32 (v37_read_manifest d r.manifest_lba).val 16 ≤ w.1 ∧ 64 ≤ w.1 ∨
      other_manifest r.manifest_lba ≤ w.1 ∧ w.1 < other_manifest r.manifest_lba + 8 ∨
      w.1 = slot_lba !s) :
    (root_scheme format table load).Keeps d s r (store d ws) := by
  have hregion : region_lba (decide (r.manifest_lba = V37_MANIFEST_B)) = r.manifest_lba :=
    region_lba_manifest hlba
  have hother := other_manifest_cases hlba
  have hslot := slot_lba_cases s
  have htable : table r (v37_read_manifest d r.manifest_lba) := by
    have := hv.table
    change table r (v37_read_manifest d (region_lba (decide (r.manifest_lba = V37_MANIFEST_B))))
      at this
    rwa [hregion] at this
  refine ⟨?_, ?_, ?_⟩
  · change (format.read_superblock (store d ws (slot_lba s)).val).toOption = _
    rw [store_of_notMem d]
    · rfl
    · intro w hw
      have := hws w hw
      omega
  · change v37_read_manifest (store d ws) (region_lba (decide (r.manifest_lba = V37_MANIFEST_B))) =
      v37_read_manifest d (region_lba (decide (r.manifest_lba = V37_MANIFEST_B)))
    rw [hregion]
    refine read_manifest_store fun w hw => ?_
    have := hws w hw
    omega
  · change load (store d ws) s r
      (v37_read_manifest d (region_lba (decide (r.manifest_lba = V37_MANIFEST_B)))) =
        load d s r (v37_read_manifest d (region_lba (decide (r.manifest_lba = V37_MANIFEST_B))))
    rw [hregion]
    refine hload _ _ _ _ _ htable fun a hlo hhi => store_of_notMem d fun w hw => ?_
    have := hws w hw
    omega

/-- All writes of a commit: data sectors, the other manifest, the other superblock. -/
def commit_writes (format : RootFormat) (data : List (ℕ × Sector)) (s : Bool) (r : Superblock)
    (manifest : Manifest) : List (ℕ × Sector) :=
  data ++ format.root_writes (slot_lba !s) (other_manifest r.manifest_lba)
    ((r.generation + 1) % 2 ^ 32) manifest

/-- A complete commit leaves its root in the other slot, with its manifest. -/
theorem store_commit_writes {d : Disk} {s : Bool} {r : Superblock}
    (hlba : r.manifest_lba = 8 ∨ r.manifest_lba = 16) (data : List (ℕ × Sector))
    (manifest : Manifest) :
    format.read_superblock (store d (commit_writes format data s r manifest) (slot_lba !s)).val =
        .ok (new_root format r manifest) ∧
      v37_read_manifest (store d (commit_writes format data s r manifest))
        (region_lba (other_manifest r.manifest_lba = V37_MANIFEST_B)) = manifest := by
  have hother := other_manifest_cases hlba
  have hslot := slot_lba_cases s
  have hgen : (r.generation + 1) % 2 ^ 32 < 2 ^ 32 := Nat.mod_lt _ (by norm_num)
  rw [region_lba_manifest (by omega), commit_writes, RootFormat.root_writes, ← List.append_assoc,
    store_append]
  refine ⟨?_, ?_⟩
  · rw [show slot_lba (!s) = ((slot_lba (!s), format.superblock_sector
        ((r.generation + 1) % 2 ^ 32) (other_manifest r.manifest_lba) manifest) : ℕ × Sector).1
        from rfl,
      store_of_mem _ (by simp) (List.mem_singleton_self _)]
    exact format.read_superblock_bytes hgen (by omega) (length_digest _)
  · rw [read_manifest_store, store_append, read_manifest_writes]
    intro w hw
    rw [List.mem_singleton.mp hw]
    dsimp only
    omega

/-- A well-formed table whose data is written is a valid root. -/
theorem valid_commit_writes {d : Disk} {s : Bool} {r : Superblock} {new : S}
    (hlba : r.manifest_lba = 8 ∨ r.manifest_lba = 16) (data : List (ℕ × Sector))
    {manifest : Manifest} (htable : table (new_root format r manifest) manifest)
    (hload : load (store d (commit_writes format data s r manifest)) (!s)
      (new_root format r manifest) manifest = some new) :
    (root_scheme format table load).Valid (store d (commit_writes format data s r manifest)) (!s)
      (new_root format r manifest) new := by
  obtain ⟨hroot, hmanifest⟩ := @store_commit_writes format d s r hlba data manifest
  have hread : (root_scheme format table load).region
      (store d (commit_writes format data s r manifest))
      ((root_scheme format table load).loc (new_root format r manifest)) = manifest := hmanifest
  refine ⟨congrArg Except.toOption hroot, ?_, ?_, ?_⟩
  all_goals rw [hread]
  · rfl
  · exact htable
  · exact hload

/-- A commit leaves other data sectors as they were. -/
theorem store_commit_writes_of_notMem (d : Disk) {s : Bool} {r : Superblock}
    {data : List (ℕ × Sector)} {manifest : Manifest} {a : ℕ}
    (hlba : r.manifest_lba = 8 ∨ r.manifest_lba = 16) (ha : 64 ≤ a) (hdata : ∀ w ∈ data, w.1 ≠ a) :
    store d (commit_writes format data s r manifest) a = d a := by
  have hslot := slot_lba_cases s
  have hother := other_manifest_cases hlba
  refine store_of_notMem d fun w hw => ?_
  rcases List.mem_append.mp hw with hw | hw
  · exact hdata w hw
  rcases List.mem_append.mp hw with hw | hw
  · have := mem_manifest_writes hw
    omega
  · rw [List.mem_singleton.mp hw]
    dsimp only
    omega

/-- The data sector of a commit. -/
theorem store_commit_writes_data (d : Disk) {s : Bool} {r : Superblock} {manifest : Manifest}
    {a : ℕ} (sector : Sector) (hlba : r.manifest_lba = 8 ∨ r.manifest_lba = 16) (ha : 64 ≤ a) :
    store d (commit_writes format [(a, sector)] s r manifest) a = sector := by
  have hempty := @store_commit_writes_of_notMem format (store d [(a, sector)]) s r [] manifest a
    hlba ha (by simp)
  rw [commit_writes, store_append]
  exact hempty.trans (Function.update_self ..)

/-- A commit cut off after any number of writes is torn or complete. -/
theorem commit_cut (hload : LoadsBelowFree table load) {d : Disk} {s : Bool} {r : Superblock}
    {st : S} (hv : (root_scheme format table load).Valid d s r st) {data : List (ℕ × Sector)}
    (hdata : ∀ w ∈ data, v37_read_u32 (v37_read_manifest d r.manifest_lba).val 16 ≤ w.1 ∧ 64 ≤ w.1)
    (manifest : Manifest) (n : ℕ) :
    (root_scheme format table load).Keeps d s r
      (store d ((commit_writes format data s r manifest).take n)) ∧
    ((root_scheme format table load).Torn d s r
        (store d ((commit_writes format data s r manifest).take n)) ∨
      (commit_writes format data s r manifest).length ≤ n) := by
  have hlba := (read_superblock_eq_ok (toOption_eq_some.mp hv.root)).1
  have hslot := slot_lba_cases s
  have hother := other_manifest_cases hlba
  have hmem {w : ℕ × Sector} (hw : w ∈ data ++ manifest_writes (other_manifest r.manifest_lba)
      manifest) :
      v37_read_u32 (v37_read_manifest d r.manifest_lba).val 16 ≤ w.1 ∧ 64 ≤ w.1 ∨
      other_manifest r.manifest_lba ≤ w.1 ∧ w.1 < other_manifest r.manifest_lba + 8 :=
    (List.mem_append.mp hw).imp (hdata w) mem_manifest_writes
  have hkeeps : (root_scheme format table load).Keeps d s r
      (store d ((commit_writes format data s r manifest).take n)) := by
    refine keeps_of_writes hload hv hlba fun w hw => ?_
    have hw := List.mem_of_mem_take hw
    rw [commit_writes, RootFormat.root_writes, ← List.append_assoc] at hw
    rcases List.mem_append.mp hw with hw | hw
    · exact (hmem hw).imp_right .inl
    · rw [List.mem_singleton.mp hw]
      exact .inr (.inr rfl)
  refine ⟨hkeeps, ?_⟩
  by_cases hn : (commit_writes format data s r manifest).length ≤ n
  · exact .inr hn
  · refine .inl ⟨hkeeps, ?_⟩
    change (format.read_superblock _).toOption = (format.read_superblock _).toOption
    rw [store_of_notMem d]
    intro w hw
    rw [commit_writes, RootFormat.root_writes, ← List.append_assoc] at hw hn
    rw [List.length_append, List.length_singleton] at hn
    rw [List.take_append_of_le_length (by omega)] at hw
    have := hmem (List.mem_of_mem_take hw)
    omega

/-- From the root `r` in the slot `s` a program commits the manifest: it does all the writes of the
commit, and when the new table is well formed it has the state of the new root as its result. -/
structure Commits (format : RootFormat) (table : Superblock → Manifest → Prop)
    (load : Disk → Bool → Superblock → Manifest → Option S) (p : Dev S) (d : Disk) (s : Bool)
    (r : Superblock) (data : List (ℕ × Sector)) (manifest : Manifest) (new : S)
    (result : Except (Halt String) S) : Prop where
  free : ∀ w ∈ data, v37_read_u32 (v37_read_manifest d r.manifest_lba).val 16 ≤ w.1 ∧ 64 ≤ w.1
  writes : Writes p d (commit_writes format data s r manifest) result
  load : table (new_root format r manifest) manifest →
    load (store d (commit_writes format data s r manifest)) (!s) (new_root format r manifest)
      manifest = some new
  result : table (new_root format r manifest) manifest → result = .ok new

namespace Commits

variable {p : Dev S} {d : Disk} {s : Bool} {r : Superblock} {data : List (ℕ × Sector)}
  {manifest : Manifest} {st new : S} {result : Except (Halt String) S}
  (hload : LoadsBelowFree table load) (hv : (root_scheme format table load).Valid d s r st)
  (h : Commits format table load p d s r data manifest new result)

include hload hv h

/-- All writes of the commit together leave the new root and its table in the other slot. -/
theorem committed :
    (root_scheme format table load).Committed d s r (new_root format r manifest) new
      (store d (commit_writes format data s r manifest)) := by
  have hlba := (read_superblock_eq_ok (toOption_eq_some.mp hv.root)).1
  have hother := other_manifest_cases hlba
  obtain ⟨hroot, hmanifest⟩ := @store_commit_writes format d s r hlba data manifest
  have hread : (root_scheme format table load).region
      (store d (commit_writes format data s r manifest))
      ((root_scheme format table load).loc (new_root format r manifest)) = manifest := hmanifest
  have hkeeps := (commit_cut hload hv h.free manifest
    (commit_writes format data s r manifest).length).1
  rw [List.take_length] at hkeeps
  refine ⟨hkeeps, congrArg Except.toOption hroot, ?_, ?_, ?_, ?_⟩
  · change decide (other_manifest r.manifest_lba = V37_MANIFEST_B) =
      !decide (r.manifest_lba = V37_MANIFEST_B)
    rcases hother with ⟨ha, hb⟩ | ⟨ha, hb⟩
    · rw [hb, ha]
      rfl
    · rw [hb, ha]
      rfl
  · change (r.generation + 1) % 2 ^ 32 ≠ r.generation
    omega
  · rw [hread]
    rfl
  · rw [hread]
    exact h.load

/-- A valid root in the other slot is the new one. -/
theorem table_of_valid {r' : Superblock} {st' : S}
    (hv' : (root_scheme format table load).Valid (store d (commit_writes format data s r manifest))
      (!s) r' st') :
    table (new_root format r manifest) manifest := by
  have hlba := (read_superblock_eq_ok (toOption_eq_some.mp hv.root)).1
  obtain ⟨-, hmanifest⟩ := @store_commit_writes format d s r hlba data manifest
  obtain rfl := Option.some.inj ((h.committed hload hv).other.symm.trans hv'.root)
  have htable := hv'.table
  change table (new_root format r manifest) (v37_read_manifest _
    (region_lba (decide (other_manifest r.manifest_lba = V37_MANIFEST_B)))) at htable
  rwa [hmanifest] at htable

/-- A commit that is cut off is torn or complete. -/
theorem torn_or_committed (n : ℕ) :
    (root_scheme format table load).Torn d s r (p ⟨d, n⟩).2.disk ∨
      ∃ r', (root_scheme format table load).Committed d s r r' new (p ⟨d, n⟩).2.disk ∧
        (table r' (v37_read_manifest (p ⟨d, n⟩).2.disk
          (region_lba (r'.manifest_lba = V37_MANIFEST_B))) → ∃ m, (p ⟨d, m⟩).1 = .ok new) := by
  have hlba := (read_superblock_eq_ok (toOption_eq_some.mp hv.root)).1
  rw [h.writes.disk]
  rcases (commit_cut hload hv h.free manifest n).2 with htorn | hn
  · exact .inl htorn
  · rw [List.take_of_length_le hn]
    refine .inr ⟨_, h.committed hload hv, fun htable =>
      ⟨(commit_writes format data s r manifest).length, ?_⟩⟩
    have hregion := (@store_commit_writes format d s r hlba data manifest).2
    change table (new_root format r manifest) (v37_read_manifest _
      (region_lba (decide (other_manifest r.manifest_lba = V37_MANIFEST_B)))) at htable
    rw [hregion] at htable
    rw [(h.writes.result le_rfl).1, h.result htable]

section Durable

variable {n : ℕ} (hn : (commit_writes format data s r manifest).length ≤ n)

include hn

/-- A complete commit of a well-formed table of a greater generation is mounted next. -/
theorem mounts_new (htable : table (new_root format r manifest) manifest)
    (hgen : r.generation ≠ 2 ^ 32 - 1) :
    (root_scheme format table load).Mounts (p ⟨d, n⟩).2.disk (!s) (new_root format r manifest)
      new := by
  have hroot := read_superblock_eq_ok (toOption_eq_some.mp hv.root)
  have hregion := (@store_commit_writes format d s r hroot.1 data manifest).2
  rw [(h.writes.result hn).2]
  refine (h.committed hload hv).mounts_new hv ?_ ?_
  · change table (new_root format r manifest) (v37_read_manifest _
      (region_lba (decide (other_manifest r.manifest_lba = V37_MANIFEST_B))))
    rwa [hregion]
  · change r.generation < (r.generation + 1) % 2 ^ 32
    omega

/-- After any other complete commit the old root is mounted. -/
theorem mounts_old (hnot : ¬ (table (new_root format r manifest) manifest ∧
    r.generation ≠ 2 ^ 32 - 1)) :
    (root_scheme format table load).Mounts (p ⟨d, n⟩).2.disk s r st := by
  have hroot := read_superblock_eq_ok (toOption_eq_some.mp hv.root)
  have hregion := (@store_commit_writes format d s r hroot.1 data manifest).2
  rw [(h.writes.result hn).2]
  refine (h.committed hload hv).mounts_old hv fun hboth => hnot ⟨?_, ?_⟩
  · have htable := hboth.1
    change table (new_root format r manifest) (v37_read_manifest _
      (region_lba (decide (other_manifest r.manifest_lba = V37_MANIFEST_B)))) at htable
    rwa [hregion] at htable
  · have hlt : r.generation < (r.generation + 1) % 2 ^ 32 := hboth.2
    omega

end Durable

end Commits

end Commit

end Bogbin.Kernel
