import Bogbin.Kernel.DiskProof
import Bogbin.Kernel.V37
import Bogbin.Kernel.V38

/-!
# Runs of the persistent file systems

A run starts from an image with one valid root and an empty other superblock; each step mounts the
disk, commits from the mounted state and may be cut off after any number of sector writes.  A file
system that follows an alternate-root scheme (`Follows`) is crash atomic: the next mount returns the
old state or the state that the commit was writing (`Follows.old_or_new`).
-/

namespace Bogbin.Kernel

open Buffer BlockDevice Bogbin.Core AlternateRoot

/-- The superblock of a slot. -/
def slot_lba (s : Bool) : ℕ := if s then V37_SUPERBLOCK_B else V37_SUPERBLOCK_A

/-- The manifest of a region. -/
def region_lba (b : Bool) : ℕ := if b then V37_MANIFEST_B else V37_MANIFEST_A

/-- A persistent file system: how it validates a root, mounts a disk and commits an operation. -/
structure FileSystem where
  State : Type
  Op : Type
  validate : Disk → ℕ → Except String State
  mount : Disk → Except String (State × String × String × Bool)
  run : Op → State → Dev State

/-- The v37 file system; its operations write 1 to 64 bytes of content. -/
def v37 : FileSystem where
  State := V37State
  Op := {content : Bytes // 1 ≤ content.length ∧ content.length ≤ 64}
  validate := v37_validate_root
  mount := v37_mount
  run content old := v37_commit old content.val

/-- The v38 file system, built with or without overflow checks. -/
def v38 (overflow_checks : Bool) : FileSystem where
  State := V38State
  Op := V38Op
  validate := v38_validate_root
  mount := v38_mount
  run op := op.run overflow_checks

namespace FileSystem

variable (fs : FileSystem)

/-- The state that mounting returns. -/
def mounted (d : Disk) : Option fs.State := (fs.mount d).toOption.map Prod.fst

/-- One valid root and an empty superblock in the other slot. -/
def Image (d : Disk) : Prop :=
  ∃ s st, fs.validate d (slot_lba s) = .ok st ∧ (d (slot_lba !s)).val = zeros 512

/-- The disk after an operation on a mounted state that loses power after `n` writes. -/
def cut (op : fs.Op) (st : fs.State) (d : Disk) (n : ℕ) : Disk := (fs.run op st ⟨d, n⟩).2.disk

/-- The disks of a run, the last one first, and the last disk. -/
inductive Reaches : List Disk → Disk → Prop
  | image {d : Disk} : fs.Image d → Reaches [d] d
  | commit {ds : List Disk} {d : Disk} {st : fs.State} (op : fs.Op) (n : ℕ) :
      Reaches ds d → fs.mounted d = some st → Reaches (fs.cut op st d n :: ds) (fs.cut op st d n)

theorem Reaches.mem {fs : FileSystem} {ds : List Disk} {d : Disk} (h : fs.Reaches ds d) :
    d ∈ ds := by
  cases h <;> exact List.mem_cons_self

end FileSystem

/-- The manifests that the disks hold. -/
def manifests (ds : List Disk) : Set Manifest :=
  {m | ∃ d ∈ ds, ∃ b, m = v37_read_manifest d (region_lba b)}

/-- No two manifests that the disks hold have the same SHA-256 digest. -/
def CollisionFree (ds : List Disk) : Prop :=
  Set.InjOn (fun m : Manifest => sha256_standard m.val) (manifests ds)

theorem manifests_cons (d : Disk) (ds : List Disk) : manifests ds ⊆ manifests (d :: ds) := by
  rintro m ⟨e, he, hm⟩
  exact ⟨e, List.mem_cons_of_mem d he, hm⟩

theorem CollisionFree.tail {d : Disk} {ds : List Disk} (h : CollisionFree (d :: ds)) :
    CollisionFree ds :=
  Set.InjOn.mono (manifests_cons d ds) h

theorem CollisionFree.digest {ds : List Disk} (h : CollisionFree ds) :
    Set.InjOn (fun m : Manifest => digest m.val) (manifests ds) :=
  fun _ hm _ hm' heq => h hm hm' (Subtype.ext heq)

/-! ## Schemes -/

/-- The alternate-root scheme of the superblocks and manifests on a disk. -/
def root_scheme {S : Type} (format : RootFormat) (table : Superblock → Manifest → Prop)
    (load : Disk → Bool → Superblock → Manifest → Option S) :
    Scheme Disk Superblock Manifest Bytes S where
  root d s := (format.read_superblock (d (slot_lba s)).val).toOption
  region d b := v37_read_manifest d (region_lba b)
  digest m := digest m.val
  loc r := r.manifest_lba = V37_MANIFEST_B
  key r := r.manifest_hash
  gen r := r.generation
  table := table
  load := load

/-! ## Mounting -/

section Mount

variable {S : Type} {generation : S → ℕ} {root_hash : S → Bytes} {fallback : String → Bool}

/-- A valid root that outranks the other slot is mounted. -/
theorem mount_roots_greater {validate : ℕ → Except String S} {s : Bool} {st : S}
    (h : validate (slot_lba s) = .ok st)
    (hother : ∀ st', validate (slot_lba !s) = .ok st' → generation st' < generation st) :
    (mount_roots generation root_hash fallback (validate V37_SUPERBLOCK_A)
      (validate V37_SUPERBLOCK_B)).toOption.map Prod.fst = some st := by
  have hslots : validate V37_SUPERBLOCK_A = validate (slot_lba false) ∧
      validate V37_SUPERBLOCK_B = validate (slot_lba true) := ⟨rfl, rfl⟩
  rw [hslots.1, hslots.2]
  cases s with
  | false =>
    cases hb : validate (slot_lba true) with
    | error e => simp [mount_roots, h, Except.toOption]
    | ok st' =>
      have hlt := hother st' hb
      simp [mount_roots, h, Except.toOption, hlt.ne', hlt.not_gt]
  | true =>
    cases ha : validate (slot_lba false) with
    | error e => simp [mount_roots, h, Except.toOption]
    | ok st' =>
      have hlt := hother st' ha
      simp [mount_roots, h, Except.toOption, hlt.ne, hlt]

/-- A mounted state is the state of one of the slots. -/
theorem mount_roots_valid {validate : ℕ → Except String S} {st : S}
    (h : (mount_roots generation root_hash fallback (validate V37_SUPERBLOCK_A)
      (validate V37_SUPERBLOCK_B)).toOption.map Prod.fst = some st) :
    ∃ s, validate (slot_lba s) = .ok st := by
  cases ha : validate V37_SUPERBLOCK_A with
  | ok av =>
    cases hb : validate V37_SUPERBLOCK_B with
    | ok bv =>
      simp only [mount_roots, ha, hb] at h
      split_ifs at h
      · cases h
      · exact ⟨true, hb.trans (congrArg Except.ok (Option.some.inj h))⟩
      · exact ⟨false, ha.trans (congrArg Except.ok (Option.some.inj h))⟩
    | error e =>
      simp only [mount_roots, ha, hb] at h
      exact ⟨false, ha.trans (congrArg Except.ok (Option.some.inj h))⟩
  | error e =>
    cases hb : validate V37_SUPERBLOCK_B with
    | ok bv =>
      simp only [mount_roots, ha, hb] at h
      exact ⟨true, hb.trans (congrArg Except.ok (Option.some.inj h))⟩
    | error e =>
      simp only [mount_roots, ha, hb] at h
      cases h

variable {format : RootFormat} {table : Superblock → Manifest → Prop}
  {load : Disk → Bool → Superblock → Manifest → Option S} {validate : Disk → ℕ → Except String S}
  (hvalid : ∀ d s st, validate d (slot_lba s) = .ok st ↔
    ∃ r, (root_scheme format table load).Valid d s r st)

include hvalid

theorem valid_of_mount_roots {d : Disk} {st : S}
    (h : (mount_roots generation root_hash fallback (validate d V37_SUPERBLOCK_A)
      (validate d V37_SUPERBLOCK_B)).toOption.map Prod.fst = some st) :
    ∃ s r, (root_scheme format table load).Valid d s r st := by
  obtain ⟨s, hs⟩ := mount_roots_valid h
  exact ⟨s, (hvalid d s st).mp hs⟩

theorem mount_roots_of_mounts
    (hgen : ∀ d s r st, (root_scheme format table load).Valid d s r st →
      generation st = r.generation)
    {d : Disk} {s : Bool} {r : Superblock} {st : S}
    (h : (root_scheme format table load).Mounts d s r st) :
    (mount_roots generation root_hash fallback (validate d V37_SUPERBLOCK_A)
      (validate d V37_SUPERBLOCK_B)).toOption.map Prod.fst = some st := by
  refine mount_roots_greater ((hvalid d s st).mpr ⟨r, h.1⟩) fun st' hst' => ?_
  obtain ⟨r', hv⟩ := (hvalid d (!s) st').mp hst'
  rw [hgen _ _ _ _ hv, hgen _ _ _ _ h.1]
  exact h.2 r' st' hv

end Mount

/-! ## Runs -/

/-- The file system reads and commits as the scheme has it. -/
structure Follows (fs : FileSystem) (format : RootFormat)
    (table : Superblock → Manifest → Prop)
    (load : Disk → Bool → Superblock → Manifest → Option fs.State) : Prop where
  validate : ∀ {d s st}, fs.validate d (slot_lba s) = .ok st →
    ∃ r, (root_scheme format table load).Valid d s r st
  mount : ∀ {d s r st}, (root_scheme format table load).Mounts d s r st → fs.mounted d = some st
  commit : ∀ {d s r st}, (root_scheme format table load).Valid d s r st → ∀ op n,
    (root_scheme format table load).Torn d s r (fs.cut op st d n) ∨
      ∃ r' new, (root_scheme format table load).Committed d s r r' new (fs.cut op st d n) ∧
        (table r' (v37_read_manifest (fs.cut op st d n) (region_lba (r'.manifest_lba = 16))) →
          ∃ m, (fs.run op st ⟨d, m⟩).1 = .ok new)

/-- An empty superblock is not a root. -/
theorem read_superblock_zeros (format : RootFormat) (h : format.magic ≠ zeros 8) :
    (format.read_superblock (zeros 512)).toOption = none := by
  have hmagic : slice (zeros 512) 0 8 ≠ format.magic := by
    rw [slice_zeros (by norm_num)]
    exact h.symm
  unfold RootFormat.read_superblock
  simp only [reject_if, if_pos hmagic]
  rfl

section Runs

variable {fs : FileSystem} {format : RootFormat} {table : Superblock → Manifest → Prop}
  {load : Disk → Bool → Superblock → Manifest → Option fs.State}

theorem region_mem {ds : List Disk} {d : Disk} (h : d ∈ ds) (b : Bool) :
    (root_scheme format table load).region d b ∈ manifests ds :=
  ⟨d, h, b, rfl⟩

/-- A live root on a disk of the run is what mounting returns. -/
theorem Follows.mounted_live (F : Follows fs format table load) {ds : List Disk} {d : Disk}
    {s : Bool} {r : Superblock} {st : fs.State} (hd : d ∈ ds) (hfree : CollisionFree ds)
    (h : (root_scheme format table load).Live (manifests ds) d s r st) :
    fs.mounted d = some st :=
  F.mount (h.mount hfree.digest (region_mem hd))

/-- A commit that was cut off anywhere leaves a live root, for the old state or for the one the
commit was writing. -/
theorem Follows.live_cut (F : Follows fs format table load) {ds : List Disk} {d : Disk} {s : Bool}
    {r : Superblock} {st : fs.State}
    (h : (root_scheme format table load).Live (manifests ds) d s r st) (op : fs.Op) (n : ℕ) :
    ∃ s' r' st', (root_scheme format table load).Live (manifests (fs.cut op st d n :: ds))
      (fs.cut op st d n) s' r' st' ∧ (st' = st ∨ ∃ m, (fs.run op st ⟨d, m⟩).1 = .ok st') := by
  have hmono := h.mono (manifests_cons (fs.cut op st d n) ds)
  rcases F.commit h.toValid op n with htorn | ⟨r', new, hc, hnew⟩
  · exact ⟨s, r, st, hmono.torn htorn, .inl rfl⟩
  · rcases hmono.committed hc (region_mem List.mem_cons_self) with hold | ⟨htable, hlive⟩
    · exact ⟨s, r, st, hold, .inl rfl⟩
    · exact ⟨!s, r', new, hlive, .inr (hnew htable)⟩

/-- Every disk of a run holds a live root. -/
theorem Follows.live_of_reaches (F : Follows fs format table load)
    (hmagic : format.magic ≠ zeros 8) {ds : List Disk} {d : Disk} (h : fs.Reaches ds d)
    (hfree : CollisionFree ds) :
    ∃ s r st, (root_scheme format table load).Live (manifests ds) d s r st := by
  induction h with
  | @image d himage =>
    obtain ⟨s, st, hvalid, hempty⟩ := himage
    obtain ⟨r, hvalid⟩ := F.validate hvalid
    refine ⟨s, r, st, hvalid, fun q hq => ?_⟩
    have hroot : (format.read_superblock (d (slot_lba !s)).val).toOption = some q := hq
    rw [hempty, read_superblock_zeros format hmagic] at hroot
    cases hroot
  | @commit ds d st op n hreach hmounted ih =>
    obtain ⟨s, r, st', hlive⟩ := ih hfree.tail
    obtain rfl : st' = st := by
      have heq := F.mounted_live hreach.mem hfree.tail hlive
      exact Option.some.inj (heq.symm.trans hmounted)
    obtain ⟨s', r', st'', hlive', -⟩ := F.live_cut hlive op n
    exact ⟨s', r', st'', hlive'⟩

/-- Every disk of a run mounts, and after a commit that is cut off anywhere the next mount returns
the old state or the one the commit was writing. -/
theorem Follows.old_or_new (F : Follows fs format table load) (hmagic : format.magic ≠ zeros 8)
    {ds : List Disk} {d : Disk} (h : fs.Reaches ds d) (hfree : CollisionFree ds) :
    ∃ old, fs.mounted d = some old ∧ ∀ op n, CollisionFree (fs.cut op old d n :: ds) →
      fs.mounted (fs.cut op old d n) = some old ∨
        ∃ new m, (fs.run op old ⟨d, m⟩).1 = .ok new ∧
          fs.mounted (fs.cut op old d n) = some new := by
  obtain ⟨s, r, old, hlive⟩ := F.live_of_reaches hmagic h hfree
  refine ⟨old, F.mounted_live h.mem hfree hlive, fun op n hfree' => ?_⟩
  obtain ⟨s', r', st', hlive', hst⟩ := F.live_cut hlive op n
  have hmount := F.mounted_live List.mem_cons_self hfree' hlive'
  rcases hst with rfl | ⟨m, hm⟩
  · exact .inl hmount
  · exact .inr ⟨st', m, hm, hmount⟩

end Runs

end Bogbin.Kernel
