import Bogbin.Kernel.V37Proof
import Bogbin.Kernel.V38Proof
import Bogbin.Kernel.V39

/-!
# Which root is mounted

Exchanging the superblocks of a disk moves each root to the other slot and changes nothing else of
it (`validate_exchange`).  A mount selects the root by its generation alone, whatever its slot
(`SelectsRoot`), unless the two slots hold a pair that it treats by slot.
-/

namespace Bogbin.Kernel

open Buffer BlockDevice Bogbin.Core AlternateRoot

/-! ## Exchanging the superblocks -/

/-- The disk with the contents of the two superblock sectors exchanged. -/
def exchange (d : Disk) : Disk := fun lba =>
  if lba = V37_SUPERBLOCK_A then d V37_SUPERBLOCK_B
  else if lba = V37_SUPERBLOCK_B then d V37_SUPERBLOCK_A
  else d lba

theorem exchange_slot (d : Disk) (s : Bool) : exchange d (slot_lba s) = d (slot_lba !s) := by
  cases s <;> rfl

theorem exchange_of_lt {d : Disk} {lba : ℕ} (h : 2 < lba) : exchange d lba = d lba := by
  have ha : V37_SUPERBLOCK_A = 1 := rfl
  have hb : V37_SUPERBLOCK_B = 2 := rfl
  rw [exchange, if_neg (by omega), if_neg (by omega)]

theorem exchange_exchange (d : Disk) : exchange (exchange d) = d := by
  have ha : V37_SUPERBLOCK_A = 1 := rfl
  have hb : V37_SUPERBLOCK_B = 2 := rfl
  funext lba
  by_cases h1 : lba = V37_SUPERBLOCK_A
  · subst h1
    rfl
  by_cases h2 : lba = V37_SUPERBLOCK_B
  · subst h2
    rfl
  rw [exchange, if_neg h1, if_neg h2, exchange, if_neg h1, if_neg h2]

theorem read_manifest_exchange (d : Disk) {lba : ℕ} (h : lba = 8 ∨ lba = 16) :
    v37_read_manifest (exchange d) lba = v37_read_manifest d lba := by
  have hsector (index : Fin 8) : exchange d (lba + index.val) = d (lba + index.val) :=
    exchange_of_lt (by omega)
  unfold v37_read_manifest
  simp only [hsector]

/-- A state as it is found under the other superblock. -/
def V37State.at_lba (st : V37State) (superblock_lba : ℕ) : V37State :=
  { st with superblock_lba := superblock_lba }

def V38State.at_lba (st : V38State) (superblock_lba : ℕ) : V38State :=
  { st with superblock_lba := superblock_lba }

/-- The checks of two programs that continue with related results have related results. -/
theorem bind_map_congr {ε α β : Type} {x : Except ε α} {f g : α → Except ε β} {h : β → β}
    (hfg : ∀ a, x = .ok a → f a = (g a).map h) : (x >>= f) = (x >>= g).map h := by
  cases x with
  | error e => rfl
  | ok a => exact hfg a rfl

theorem bind_congr_ok {ε α β : Type} {x : Except ε α} {f g : α → Except ε β}
    (hfg : ∀ a, x = .ok a → f a = g a) : (x >>= f) = (x >>= g) := by
  cases x with
  | error e => rfl
  | ok a => exact hfg a rfl

theorem forM_congr {ε α : Type} {f g : α → Except ε Unit} {l : List α}
    (h : ∀ a ∈ l, f a = g a) : l.forM f = l.forM g := by
  induction l with
  | nil => rfl
  | cons a l ih =>
    have hrest := ih fun b hb => h b (List.mem_cons_of_mem a hb)
    change (f a >>= fun _ => l.forM f) = (g a >>= fun _ => l.forM g)
    rw [h a List.mem_cons_self, hrest]

theorem v37_validate_exchange (d : Disk) (s : Bool) : v37_validate_root (exchange d) (slot_lba s) =
    (v37_validate_root d (slot_lba !s)).map (·.at_lba (slot_lba s)) := by
  unfold v37_validate_root
  rw [exchange_slot]
  refine bind_map_congr fun r hr => ?_
  dsimp only
  rw [read_manifest_exchange d (read_superblock_eq_ok hr).1]
  refine bind_map_congr fun _ _ => bind_map_congr fun _ htable => ?_
  have hbounds := v37_table_bounds htable
  unfold v37_load
  dsimp only
  rw [exchange_of_lt (by omega)]
  exact bind_map_congr fun _ _ => bind_map_congr fun _ _ => rfl

theorem v38_validate_exchange (d : Disk) (s : Bool) : v38_validate_root (exchange d) (slot_lba s) =
    (v38_validate_root d (slot_lba !s)).map (·.at_lba (slot_lba s)) := by
  unfold v38_validate_root
  rw [exchange_slot]
  refine bind_map_congr fun r hr => ?_
  dsimp only
  rw [read_manifest_exchange d (read_superblock_eq_ok hr).1]
  refine bind_map_congr fun _ _ => bind_map_congr fun _ _ => ?_
  generalize v37_read_manifest d r.manifest_lba = m
  have hrecords : ((List.range (v37_read_u32 m.val 12)).forM fun index =>
        v38_check_record (v37_read_u32 m.val 16) m.val index >>= fun _ =>
          v38_check_data (exchange d) (v38_record m.val index)) =
      (List.range (v37_read_u32 m.val 12)).forM fun index =>
        v38_check_record (v37_read_u32 m.val 16) m.val index >>= fun _ =>
          v38_check_data d (v38_record m.val index) := by
    refine forM_congr fun i _ => bind_congr_ok fun _ hrecord => ?_
    obtain ⟨n, -, -, -, -, hentry⟩ := check_record_eq_ok.mp hrecord
    exact v38_check_data_congr hentry fun a ha _ => exchange_of_lt (by omega)
  rw [hrecords]
  exact bind_map_congr fun _ _ => rfl

theorem v39_read_superblock_eq_ok {b : Bytes} {r : Superblock} (h : v39_read_superblock b = .ok r) :
    r.manifest_lba = 8 ∨ r.manifest_lba = 16 := by
  simp only [v39_read_superblock, reject_bind_eq_ok, Except.ok.injEq] at h
  obtain ⟨-, -, -, hlba, -, rfl⟩ := h
  have ha : V37_MANIFEST_A = 8 := rfl
  have hb : V37_MANIFEST_B = 16 := rfl
  dsimp only
  omega

theorem v39_check_record_exchange (d : Disk) (next_free_lba : ℕ) (record : Bytes) :
    v39_check_record (exchange d) next_free_lba record = v39_check_record d next_free_lba record := by
  have hfile : v39_check_file (exchange d) next_free_lba record =
      v39_check_file d next_free_lba record := by
    unfold v39_check_file
    dsimp only
    refine bind_congr_ok fun _ hbounds => ?_
    rw [reject_if_eq_ok] at hbounds
    rw [exchange_of_lt (by omega)]
  unfold v39_check_record
  rw [hfile]

theorem v39_validate_exchange (d : Disk) (s : Bool) : v39_validate_root (exchange d) (slot_lba s) =
    (v39_validate_root d (slot_lba !s)).map (·.at_lba (slot_lba s)) := by
  unfold v39_validate_root
  rw [exchange_slot]
  refine bind_map_congr fun r hr => ?_
  dsimp only
  rw [read_manifest_exchange d (v39_read_superblock_eq_ok hr)]
  refine bind_map_congr fun _ _ => bind_map_congr fun _ _ => ?_
  generalize v37_read_manifest d r.manifest_lba = m
  have hrecords : ((List.range (v37_read_u32 m.val 12)).forM fun index =>
        v39_check_record (exchange d) (v37_read_u32 m.val 16) (v38_record m.val index)) =
      (List.range (v37_read_u32 m.val 12)).forM fun index =>
        v39_check_record d (v37_read_u32 m.val 16) (v38_record m.val index) :=
    forM_congr fun i _ => v39_check_record_exchange d _ _
  rw [hrecords]
  exact bind_map_congr fun _ _ => rfl

/-! ## Selection -/

/-- A root: what a mount makes available of a slot, wherever the slot is. -/
structure Root (T : Type) where
  generation : ℕ
  root_hash : Bytes
  table : T

section Choose

variable {T : Type}

/-- The choice between two slots, with or without the check for roots of equal generation. -/
def choose (checks : Bool) : Except String (Root T) → Except String (Root T) →
    Except String (Root T)
  | .ok a, .ok b =>
    if checks ∧ a.generation = b.generation ∧ a.root_hash ≠ b.root_hash then
      .error "ambiguous_equal_generation"
    else if a.generation < b.generation then .ok b
    else .ok a
  | .ok a, .error _ => .ok a
  | .error _, .ok b => .ok b
  | .error _, .error _ => .error "no_valid_root"

/-- Two slots hold valid roots of equal generation and different root hash. -/
def Ambiguous (x y : Except String (Root T)) : Prop :=
  ∃ a b, x = .ok a ∧ y = .ok b ∧ a.generation = b.generation ∧ a.root_hash ≠ b.root_hash

/-- Two slots hold valid roots of equal generation and root hash and different tables. -/
def Tied (x y : Except String (Root T)) : Prop :=
  ∃ a b, x = .ok a ∧ y = .ok b ∧ a.generation = b.generation ∧ a.root_hash = b.root_hash ∧
    a.table ≠ b.table

theorem choose_comm_iff (checks : Bool) (x y : Except String (Root T)) :
    choose checks y x = choose checks x y ↔
      ¬ Tied x y ∧ (checks = false → ¬ Ambiguous x y) := by
  match x, y with
  | .error _, .error _ | .ok _, .error _ | .error _, .ok _ =>
    simp [choose, Tied, Ambiguous]
  | .ok a, .ok b =>
    obtain ⟨ga, ha, ta⟩ := a
    obtain ⟨gb, hb, tb⟩ := b
    rcases Nat.lt_trichotomy ga gb with hlt | rfl | hlt
    · simp [choose, Tied, Ambiguous, hlt, hlt.ne, hlt.ne', hlt.not_gt]
    · by_cases hhash : ha = hb
      · subst hhash
        simp [choose, Tied, Ambiguous, eq_comm]
      · cases checks <;> simp [choose, Tied, Ambiguous, hhash, Ne.symm hhash]
    · simp [choose, Tied, Ambiguous, hlt, hlt.ne, hlt.ne', hlt.not_gt]

theorem choose_of_ambiguous {x y : Except String (Root T)} (h : Ambiguous x y) :
    choose true x y = .error "ambiguous_equal_generation" := by
  obtain ⟨a, b, rfl, rfl, hgen, hhash⟩ := h
  exact if_pos ⟨rfl, hgen, hhash⟩

/-- Without ambiguity a root of greatest generation is chosen. -/
theorem choose_greatest (checks : Bool) {x y : Except String (Root T)} (h : ¬ Ambiguous x y)
    (hsome : ∃ r, x = .ok r ∨ y = .ok r) :
    ∃ r, (x = .ok r ∨ y = .ok r) ∧ choose checks x y = .ok r ∧
      ∀ r', x = .ok r' ∨ y = .ok r' → r'.generation ≤ r.generation := by
  match x, y with
  | .error _, .error _ => simp at hsome
  | .ok a, .error _ => exact ⟨a, .inl rfl, rfl, by simp⟩
  | .error _, .ok b => exact ⟨b, .inr rfl, rfl, by simp⟩
  | .ok a, .ok b =>
    have hcheck : ¬ (checks ∧ a.generation = b.generation ∧ a.root_hash ≠ b.root_hash) :=
      fun hc => h ⟨a, b, rfl, rfl, hc.2⟩
    by_cases hlt : a.generation < b.generation
    · refine ⟨b, .inr rfl, by rw [choose, if_neg hcheck, if_pos hlt], ?_⟩
      rintro r' (h' | h')
      · exact Except.ok.inj h' ▸ hlt.le
      · exact Except.ok.inj h' ▸ le_rfl
    · refine ⟨a, .inl rfl, by rw [choose, if_neg hcheck, if_neg hlt], ?_⟩
      rintro r' (h' | h')
      · exact Except.ok.inj h' ▸ le_rfl
      · exact Except.ok.inj h' ▸ Nat.not_lt.mp hlt

end Choose

/-- A mount of a disk with two superblocks, and the root in a state that it mounts. -/
structure RootMount where
  State : Type
  Table : Type
  validate : Disk → ℕ → Except String State
  mount : Disk → Except String State
  root : State → Root Table

namespace RootMount

variable (fs : RootMount)

/-- The root in a slot. -/
def slot (d : Disk) (s : Bool) : Except String (Root fs.Table) :=
  (fs.validate d (slot_lba s)).map fs.root

/-- The root that mounting returns. -/
def mounted (d : Disk) : Except String (Root fs.Table) := (fs.mount d).map fs.root

/-- The mounted root does not depend on the slots: an exchange of the superblocks changes nothing,
roots of equal generation and different root hash are refused, and otherwise a valid root of greatest
generation is mounted. -/
structure SelectsRoot (d : Disk) : Prop where
  exchange : fs.mounted (exchange d) = fs.mounted d
  ambiguous : Ambiguous (fs.slot d false) (fs.slot d true) →
    fs.mounted d = .error "ambiguous_equal_generation"
  greatest : ¬ Ambiguous (fs.slot d false) (fs.slot d true) →
    (∃ s r, fs.slot d s = .ok r) → ∃ s r, fs.slot d s = .ok r ∧ fs.mounted d = .ok r ∧
      ∀ s' r', fs.slot d s' = .ok r' → r'.generation ≤ r.generation

variable {fs}

/-- A mount that chooses between its slots selects the root unless the slots are tied or, without
the check, ambiguous. -/
theorem selectsRoot_iff {checks : Bool}
    (hmount : ∀ d, fs.mounted d = choose checks (fs.slot d false) (fs.slot d true))
    (hexchange : ∀ d s, fs.slot (exchange d) s = fs.slot d (!s)) (d : Disk) :
    fs.SelectsRoot d ↔ ¬ Tied (fs.slot d false) (fs.slot d true) ∧
      (checks = false → ¬ Ambiguous (fs.slot d false) (fs.slot d true)) := by
  have hcomm : fs.mounted (Kernel.exchange d) = fs.mounted d ↔
      choose checks (fs.slot d true) (fs.slot d false) =
        choose checks (fs.slot d false) (fs.slot d true) := by
    rw [hmount, hmount, hexchange, hexchange]
    rfl
  rw [← choose_comm_iff]
  refine ⟨fun h => hcomm.mp h.exchange, fun h => ⟨hcomm.mpr h, fun hamb => ?_, fun hnot hsome => ?_⟩⟩
  · have hchecks : checks = true := by
      by_contra hfalse
      exact ((choose_comm_iff checks _ _).mp h).2 (Bool.eq_false_of_not_eq_true hfalse) hamb
    rw [hmount, hchecks, choose_of_ambiguous hamb]
  · rw [Bool.exists_bool, ← exists_or] at hsome
    obtain ⟨r, hr, hchosen, hmax⟩ := choose_greatest checks hnot hsome
    rw [hmount]
    obtain hr | hr := hr
    · exact ⟨false, r, hr, hchosen, fun s' r' h' => hmax r' (by cases s' <;> simp [h'])⟩
    · exact ⟨true, r, hr, hchosen, fun s' r' h' => hmax r' (by cases s' <;> simp [h'])⟩

end RootMount

/-- The mount of the v37 file system; its table is its one file. -/
def v37_roots : RootMount where
  State := V37State
  Table := ℕ × ℕ × ℕ × ℕ × Bytes × Bytes
  validate := v37_validate_root
  mount d := (v37_mount d).map Prod.fst
  root st := ⟨st.generation, st.root_hash, st.next_free_lba, st.file_version, st.file_length,
    st.file_lba, st.file_hash, st.file_data⟩

/-- The root of a state with a table of records. -/
def V38State.root (st : V38State) : Root (ℕ × {b : Bytes // b.length = V38_TABLE_SIZE}) :=
  ⟨st.generation, st.root_hash, st.record_count, st.manifest⟩

def v38_roots : RootMount where
  State := V38State
  Table := ℕ × {b : Bytes // b.length = V38_TABLE_SIZE}
  validate := v38_validate_root
  mount d := (v38_mount d).map Prod.fst
  root := V38State.root

def v39_roots : RootMount where
  State := V38State
  Table := ℕ × {b : Bytes // b.length = V38_TABLE_SIZE}
  validate := v39_validate_root
  mount := v39_mount
  root := V38State.root

theorem mount_roots_choose {S T : Type} (root : S → Root T) (fallback : String → Bool)
    (a b : Except String S) :
    ((mount_roots (fun st => (root st).generation) (fun st => (root st).root_hash) fallback a
      b).map Prod.fst).map root = choose true (a.map root) (b.map root) := by
  match a, b with
  | .error _, .error _ | .ok _, .error _ | .error _, .ok _ => rfl
  | .ok a, .ok b =>
    simp only [mount_roots, choose, Except.map, true_and]
    split_ifs <;> rfl

theorem v39_mount_choose (d : Disk) :
    v39_roots.mounted d = choose false (v39_roots.slot d false) (v39_roots.slot d true) := by
  have hslots : v39_validate_root d (slot_lba false) = v39_validate_root d V37_SUPERBLOCK_A ∧
      v39_validate_root d (slot_lba true) = v39_validate_root d V37_SUPERBLOCK_B := ⟨rfl, rfl⟩
  simp only [RootMount.mounted, RootMount.slot, v39_roots, v39_mount, hslots.1, hslots.2]
  match v39_validate_root d V37_SUPERBLOCK_A, v39_validate_root d V37_SUPERBLOCK_B with
  | .error _, .error _ | .ok _, .error _ | .error _, .ok _ => rfl
  | .ok a, .ok b =>
    simp only [choose, Except.map, Bool.false_eq_true, false_and, if_false, V38State.root]
    split_ifs <;> rfl

theorem except_map_map {ε α β γ : Type} (x : Except ε α) (f : α → β) (g : β → γ) :
    (x.map f).map g = x.map fun a => g (f a) := by
  cases x <;> rfl

theorem v39_slot_exchange (d : Disk) (s : Bool) :
    v39_roots.slot (exchange d) s = v39_roots.slot d (!s) := by
  simp only [RootMount.slot, v39_roots, v39_validate_exchange, except_map_map]
  rfl

/-- Each mount selects its root by generation, unless its slots hold tied roots, or roots of equal
generation that v39 does not compare. -/
theorem root_selection_iff (d : Disk) :
    (v37_roots.SelectsRoot d ↔ ¬ Tied (v37_roots.slot d false) (v37_roots.slot d true)) ∧
    (v38_roots.SelectsRoot d ↔ ¬ Tied (v38_roots.slot d false) (v38_roots.slot d true)) ∧
    (v39_roots.SelectsRoot d ↔ ¬ Tied (v39_roots.slot d false) (v39_roots.slot d true) ∧
      ¬ Ambiguous (v39_roots.slot d false) (v39_roots.slot d true)) := by
  refine ⟨?_, ?_, ?_⟩
  · rw [RootMount.selectsRoot_iff (fun d => mount_roots_choose v37_roots.root _ _ _) fun d s => ?_]
    · simp
    · simp only [RootMount.slot, v37_roots, v37_validate_exchange, except_map_map]
      rfl
  · rw [RootMount.selectsRoot_iff (fun d => mount_roots_choose v38_roots.root _ _ _) fun d s => ?_]
    · simp
    · simp only [RootMount.slot, v38_roots, v38_validate_exchange, except_map_map]
      rfl
  · rw [RootMount.selectsRoot_iff v39_mount_choose v39_slot_exchange]
    simp

/-! ## Tied roots are a hash collision -/

/-- The bytes whose digest is the root hash of a superblock. -/
def root_preimage (format : RootFormat) (superblock : Bytes) : Bytes :=
  format.root_tag ++ leBytes 4 (v37_read_u32 superblock 12) ++
    leBytes 4 (v37_read_u32 superblock 16) ++ v37_copy_hash superblock 24

theorem lba_of_root_preimage {format : RootFormat} {b b' : Bytes}
    (h : root_preimage format b = root_preimage format b') :
    v37_read_u32 b 16 = v37_read_u32 b' 16 := by
  simp only [root_preimage, List.append_assoc] at h
  have hrest := List.append_cancel_left h
  have htail := (List.append_inj hrest (by simp)).2
  have hlba := (List.append_inj htail (by simp)).1
  rw [← leValue_u32 (read_u32_lt b 16), hlba, leValue_u32 (read_u32_lt b' 16)]

/-- The root in a slot has the hash that its superblock says, and the table that its manifest pointer
leads to. -/
def ReadsRoot (format : RootFormat) (fs : RootMount) (table : Disk → ℕ → fs.Table) : Prop :=
  ∀ d s r, fs.slot d s = .ok r → r.root_hash = digest (root_preimage format (d (slot_lba s)).val) ∧
    r.table = table d (v37_read_u32 (d (slot_lba s)).val 16)

/-- The superblocks of tied roots hold different preimages of one root hash. -/
theorem ReadsRoot.collides {format : RootFormat} {fs : RootMount} {table : Disk → ℕ → fs.Table}
    (h : ReadsRoot format fs table) {d : Disk} (htied : Tied (fs.slot d false) (fs.slot d true)) :
    root_preimage format (d V37_SUPERBLOCK_A).val ≠ root_preimage format (d V37_SUPERBLOCK_B).val ∧
      digest (root_preimage format (d V37_SUPERBLOCK_A).val) =
        digest (root_preimage format (d V37_SUPERBLOCK_B).val) := by
  obtain ⟨a, b, ha, hb, -, hhash, htable⟩ := htied
  obtain ⟨hahash, hatable⟩ := h d false a ha
  obtain ⟨hbhash, hbtable⟩ := h d true b hb
  refine ⟨fun heq => htable ?_, hahash.symm.trans (hhash.trans hbhash)⟩
  rw [hatable, hbtable]
  exact congrArg (table d) (lba_of_root_preimage heq)

theorem read_superblock_reads {format : RootFormat} {b : Bytes} {r : Superblock}
    (h : format.read_superblock b = .ok r) :
    r.root_hash = digest (root_preimage format b) ∧ r.manifest_lba = v37_read_u32 b 16 := by
  simp only [RootFormat.read_superblock, reject_bind_eq_ok, Except.ok.injEq] at h
  obtain ⟨-, -, -, -, -, hroot, rfl⟩ := h
  exact ⟨(not_not.mp hroot).symm, rfl⟩

theorem slot_eq_ok {fs : RootMount} {d : Disk} {s : Bool} {r : Root fs.Table}
    (h : fs.slot d s = .ok r) :
    ∃ st, fs.validate d (slot_lba s) = .ok st ∧ r = fs.root st := by
  unfold RootMount.slot at h
  cases hst : fs.validate d (slot_lba s) with
  | error e => simp [hst, Except.map] at h
  | ok st =>
    rw [hst] at h
    exact ⟨st, rfl, (Except.ok.inj h).symm⟩

theorem v37_reads_root : ∃ table, ReadsRoot v37_format v37_roots table := by
  refine ⟨fun d lba =>
    let manifest := v37_read_manifest d lba
    let record := v37_record manifest
    let content := (d (v37_read_u32 record 72)).val.take (v37_read_u32 record 68)
    (v37_read_u32 manifest.val 16, v37_read_u32 record 64, v37_read_u32 record 68,
      v37_read_u32 record 72, v37_copy_hash record 80, patch (zeros 64) 0 content), ?_⟩
  intro d s r hr
  obtain ⟨st, hst, rfl⟩ : ∃ st : V37State, v37_validate_root d (slot_lba s) = .ok st ∧
      r = v37_roots.root st := slot_eq_ok hr
  simp only [v37_validate_root, bind_eq_ok] at hst
  obtain ⟨root, hroot, -, -, -, -, hload⟩ := hst
  obtain ⟨hhash, hlba⟩ := read_superblock_reads hroot
  simp only [v37_load, reject_bind_eq_ok, Except.ok.injEq] at hload
  obtain ⟨-, -, rfl⟩ := hload
  rw [← hlba]
  exact ⟨hhash, rfl⟩

/-- The count and the records that a manifest pointer leads to. -/
def table_at (d : Disk) (lba : ℕ) : ℕ × {b : Bytes // b.length = V38_TABLE_SIZE} :=
  ((v38_state 0 ⟨0, lba, [], []⟩ (v37_read_manifest d lba)).record_count,
    (v38_state 0 ⟨0, lba, [], []⟩ (v37_read_manifest d lba)).manifest)

theorem v38_reads_root : ReadsRoot v38_format v38_roots table_at := by
  intro d s r hr
  obtain ⟨st, hst, rfl⟩ : ∃ st : V38State, v38_validate_root d (slot_lba s) = .ok st ∧
      r = v38_roots.root st := slot_eq_ok hr
  simp only [v38_validate_root, bind_eq_ok, Except.ok.injEq] at hst
  obtain ⟨root, hroot, -, -, -, -, -, -, rfl⟩ := hst
  obtain ⟨hhash, hlba⟩ := read_superblock_reads hroot
  rw [← hlba]
  exact ⟨hhash, rfl⟩

theorem v39_reads_root : ReadsRoot v39_format v39_roots table_at := by
  intro d s r hr
  obtain ⟨st, hst, rfl⟩ : ∃ st : V38State, v39_validate_root d (slot_lba s) = .ok st ∧
      r = v39_roots.root st := slot_eq_ok hr
  simp only [v39_validate_root, bind_eq_ok, Except.ok.injEq] at hst
  obtain ⟨root, hroot, -, -, -, -, -, -, rfl⟩ := hst
  simp only [v39_read_superblock, reject_bind_eq_ok, Except.ok.injEq] at hroot
  obtain ⟨-, -, -, -, hhash, rfl⟩ := hroot
  exact ⟨(not_not.mp hhash).symm, rfl⟩

/-- Tied roots are a collision of the digest. -/
theorem tied_collides {d : Disk} {format : RootFormat} {fs : RootMount}
    (h : (format, fs) ∈ [(v37_format, v37_roots), (v38_format, v38_roots), (v39_format, v39_roots)])
    (htied : Tied (fs.slot d false) (fs.slot d true)) :
    root_preimage format (d V37_SUPERBLOCK_A).val ≠ root_preimage format (d V37_SUPERBLOCK_B).val ∧
      digest (root_preimage format (d V37_SUPERBLOCK_A).val) =
        digest (root_preimage format (d V37_SUPERBLOCK_B).val) := by
  simp only [List.mem_cons, Prod.mk.injEq, List.not_mem_nil, or_false] at h
  obtain ⟨rfl, rfl⟩ | ⟨rfl, rfl⟩ | ⟨rfl, rfl⟩ := h
  · exact v37_reads_root.choose_spec.collides htied
  · exact v38_reads_root.collides htied
  · exact v39_reads_root.collides htied

/-! ## Two v39 roots of one generation -/

/-- The record of a directory `/a`. -/
def directory_record_fields (version : ℕ) : List (ℕ × Bytes) :=
  [(0, ascii "/a"), u32_field 64 version, u32_field 76 V38_TYPE_DIRECTORY]

def directory_record (version : ℕ) : Bytes := write (zeros 128) (directory_record_fields version)

theorem directory_record_within (version : ℕ) :
    Within (zeros 128).length (directory_record_fields version) := by
  simp [Within, directory_record_fields, u32_field, ascii]

theorem directory_record_apart (version : ℕ) :
    (directory_record_fields version).Pairwise Apart := by
  simp [Apart, directory_record_fields, u32_field, ascii]

theorem length_directory_record (version : ℕ) : (directory_record version).length = 128 := by
  rw [directory_record, length_write (directory_record_within version), length_zeros]

/-- The path field of the record. -/
theorem directory_record_path (version : ℕ) : v38_path_len (directory_record version) = some 2 ∧
    (directory_record version).take 2 = ascii "/a" := by
  have hin := directory_record_within version
  have hpath : slice (directory_record version) 0 2 = ascii "/a" :=
    slice_write_field hin (directory_record_apart version) (by simp [directory_record_fields])
      (by decide)
  have hrest : slice (directory_record version) 2 62 = zeros 62 :=
    (slice_write_gap hin (by simp [directory_record_fields, u32_field, ascii])).trans
      (slice_zeros (by norm_num))
  have hslice : slice (directory_record version) 0 64 = ascii "/a" ++ zeros 62 := by
    rw [← hpath, ← hrest]
    exact slice_add _ 0 2 62
  constructor
  · rw [v38_path_len, hslice]
    decide
  · rw [← slice_zero, hpath]

theorem directory_record_ok (d : Disk) (next_free_lba version : ℕ) :
    v39_check_record d next_free_lba (directory_record version) = .ok () := by
  obtain ⟨hlen, htake⟩ := directory_record_path version
  have htype : v37_read_u32 (directory_record version) 76 = V38_TYPE_DIRECTORY :=
    read_u32_write (directory_record_within version) (directory_record_apart version)
      (by simp [directory_record_fields]) (by decide)
  have hvalid : v38_path_valid (ascii "/a") = true := by decide
  have hne : V38_TYPE_DIRECTORY ≠ V38_TYPE_FILE := by decide
  simp only [v39_check_record, hlen, htake, htype, if_neg hne, reject_bind_eq_ok, hvalid]
  simp

/-- The manifest of generation 1 that holds the directory. -/
def directory_manifest_fields (version : ℕ) : List (ℕ × Bytes) :=
  [(0, ascii "BOGMAN39"), u32_field 8 1, u32_field 12 1, u32_field 16 64,
    (24, digest (directory_record version)), (64, directory_record version)]

theorem directory_manifest_within (version : ℕ) :
    Within (zeros 4096).length (directory_manifest_fields version) := by
  simp [Within, directory_manifest_fields, u32_field, ascii, length_directory_record]

theorem directory_manifest_apart (version : ℕ) :
    (directory_manifest_fields version).Pairwise Apart := by
  simp [Apart, directory_manifest_fields, u32_field, ascii, length_directory_record]

def directory_manifest (version : ℕ) : Manifest :=
  ⟨write (zeros 4096) (directory_manifest_fields version), by
    rw [length_write (directory_manifest_within version), length_zeros]⟩

theorem directory_manifest_number {version offset value : ℕ} (hvalue : value < 2 ^ 32)
    (hmem : u32_field offset value ∈ directory_manifest_fields version) :
    v37_read_u32 (directory_manifest version).val offset = value :=
  read_u32_write (directory_manifest_within version) (directory_manifest_apart version) hmem hvalue

theorem directory_manifest_record (version : ℕ) :
    v38_record (directory_manifest version).val 0 = directory_record version :=
  slice_write_field (directory_manifest_within version) (directory_manifest_apart version)
    (by simp [directory_manifest_fields, v38_record_offset]) (length_directory_record version)

theorem directory_manifest_ok (version : ℕ) :
    v39_check_header 1 (directory_manifest version) = .ok () := by
  have hin := directory_manifest_within version
  have hapart := directory_manifest_apart version
  have hmagic : slice (directory_manifest version).val 0 8 = ascii "BOGMAN39" :=
    slice_write_field hin hapart (by simp [directory_manifest_fields]) (by decide)
  have h8 := @directory_manifest_number version 8 1 (by norm_num)
    (by simp [directory_manifest_fields])
  have h12 := @directory_manifest_number version 12 1 (by norm_num)
    (by simp [directory_manifest_fields])
  have h16 := @directory_manifest_number version 16 64 (by norm_num)
    (by simp [directory_manifest_fields])
  have hhash : v37_copy_hash (directory_manifest version).val 24 =
      digest (directory_record version) :=
    copy_hash_write hin hapart (by simp [directory_manifest_fields]) (length_digest _)
  have hlisting : v38_listing_hash (directory_manifest version).val 1 =
      digest (directory_record version) :=
    congrArg digest (directory_manifest_record version)
  have hrecords : V38_MAX_RECORDS = 8 := rfl
  have hsectors : V36_SECTOR_COUNT = 8192 := rfl
  simp only [v39_check_header, reject_bind_eq_ok, reject_if_eq_ok, hmagic, h8, h12, h16, hhash,
    hlisting, hrecords, hsectors]
  simp

/-- The sectors of the root in a slot; the two directories have different versions. -/
def directory_root_writes (s : Bool) : List (ℕ × Sector) :=
  v39_format.root_writes (slot_lba s) (region_lba s) 1 (directory_manifest (1 + s.toNat))

/-- An image with a root of generation 1 in both slots. -/
def two_roots : Disk :=
  store (store (fun _ => ⟨zeros 512, length_zero_sector⟩) (directory_root_writes false))
    (directory_root_writes true)

/-- The root of a slot lies in its superblock and in its region. -/
theorem directory_root_lba {s : Bool} {w : ℕ × Sector} (h : w ∈ directory_root_writes s) :
    region_lba s ≤ w.1 ∧ w.1 < region_lba s + 8 ∨ w.1 = slot_lba s := by
  obtain h | h := List.mem_append.mp h
  · exact .inl (mem_manifest_writes h)
  · exact .inr (congrArg Prod.fst (List.mem_singleton.mp h))

theorem region_lba_gt (s : Bool) : 8 ≤ region_lba s := by
  cases s <;> decide

/-- Written to its slot, a root reads back. -/
theorem directory_root_same (d : Disk) (s : Bool) :
    store d (directory_root_writes s) (slot_lba s) =
        v39_format.superblock_sector 1 (region_lba s) (directory_manifest (1 + s.toNat)) ∧
      v37_read_manifest (store d (directory_root_writes s)) (region_lba s) =
        directory_manifest (1 + s.toNat) := by
  have hslot : slot_lba s < 8 := by cases s <;> decide
  have hregion := region_lba_gt s
  unfold directory_root_writes RootFormat.root_writes
  rw [store_append]
  refine ⟨Function.update_self .., ?_⟩
  rw [read_manifest_store, read_manifest_writes]
  intro w hw
  rw [List.mem_singleton.mp hw]
  dsimp only
  omega

/-- It leaves the other slot alone. -/
theorem directory_root_other (d : Disk) (s : Bool) :
    store d (directory_root_writes s) (slot_lba !s) = d (slot_lba !s) ∧
      v37_read_manifest (store d (directory_root_writes s)) (region_lba !s) =
        v37_read_manifest d (region_lba !s) := by
  have hslots := slot_lba_cases s
  have hregions : region_lba s = 8 ∧ region_lba (!s) = 16 ∨
      region_lba s = 16 ∧ region_lba (!s) = 8 := by
    cases s
    · exact .inl ⟨rfl, rfl⟩
    · exact .inr ⟨rfl, rfl⟩
  constructor
  · refine store_of_notMem d fun w hw => ?_
    have := directory_root_lba hw
    omega
  · refine read_manifest_store fun w hw => ?_
    have := directory_root_lba hw
    omega

theorem two_roots_holds (s : Bool) :
    two_roots (slot_lba s) =
        v39_format.superblock_sector 1 (region_lba s) (directory_manifest (1 + s.toNat)) ∧
      v37_read_manifest two_roots (region_lba s) = directory_manifest (1 + s.toNat) := by
  cases s with
  | false =>
    have hkept := directory_root_other (store (fun _ => ⟨zeros 512, length_zero_sector⟩)
      (directory_root_writes false)) true
    have hread := directory_root_same (fun _ => ⟨zeros 512, length_zero_sector⟩) false
    exact ⟨hkept.1.trans hread.1, hkept.2.trans hread.2⟩
  | true => exact directory_root_same _ true

theorem v39_read_superblock_of_format {b : Bytes} {r : Superblock}
    (h : v39_format.read_superblock b = .ok r) : v39_read_superblock b = .ok r := by
  simp only [RootFormat.read_superblock, reject_bind_eq_ok, Except.ok.injEq] at h
  obtain ⟨hmagic, hversion, hpad, hsum, hlba, hroot, rfl⟩ := h
  simp only [v39_read_superblock, reject_bind_eq_ok]
  exact ⟨hmagic, hversion, not_or.mpr ⟨hpad, hsum⟩, fun hne => hlba (.inl hne), hroot, trivial⟩

theorem directory_root_valid {d : Disk} {s : Bool} {version : ℕ}
    (hsuper : d (slot_lba s) =
      v39_format.superblock_sector 1 (region_lba s) (directory_manifest version))
    (hmanifest : v37_read_manifest d (region_lba s) = directory_manifest version) :
    ∃ st, v39_validate_root d (slot_lba s) = .ok st ∧ st.generation = 1 ∧
      st.manifest.val = slice (directory_manifest version).val 0 V38_TABLE_SIZE := by
  have hroot := v39_read_superblock_of_format (v39_format.read_superblock_bytes
    (by norm_num : 1 < 2 ^ 32) (by cases s <;> simp [region_lba, V37_MANIFEST_A, V37_MANIFEST_B])
    (length_digest (directory_manifest version).val) :
      v39_format.read_superblock (v39_format.superblock_bytes 1 (region_lba s) _) = _)
  have h12 := @directory_manifest_number version 12 1 (by norm_num)
    (by simp [directory_manifest_fields])
  have hall : ((List.range 1).forM fun index =>
      v39_check_record d (v37_read_u32 (directory_manifest version).val 16)
        (v38_record (directory_manifest version).val index)) = .ok () := by
    rw [forM_eq_ok]
    intro i hi
    obtain rfl : i = 0 := by simpa using hi
    rw [directory_manifest_record]
    exact directory_record_ok d _ version
  refine ⟨v38_state (slot_lba s) ⟨1, region_lba s, digest (directory_manifest version).val,
    v39_format.root_hash 1 (region_lba s) (digest (directory_manifest version).val)⟩
      (directory_manifest version), ?_, rfl, rfl⟩
  have hb : (d (slot_lba s)).val = v39_format.superblock_bytes 1 (region_lba s)
      (digest (directory_manifest version).val) := congrArg Subtype.val hsuper
  unfold v39_validate_root
  simp only [hb, hroot, bind_eq_ok, Except.ok.injEq, exists_eq_left', hmanifest, reject_if_eq_ok,
    not_not, h12]
  exact ⟨(), trivial, (), directory_manifest_ok version, (), hall, trivial⟩

/-- The tables of the two roots differ. -/
theorem directory_tables_ne : slice (directory_manifest 1).val 0 V38_TABLE_SIZE ≠
    slice (directory_manifest 2).val 0 V38_TABLE_SIZE := by
  have hversion (version : ℕ) (hlt : version < 2 ^ 32) :
      v37_read_u32 (slice (directory_manifest version).val 0 V38_TABLE_SIZE) 128 = version := by
    rw [read_u32_slice _ (by decide)]
    have hrecord : v37_read_u32 (v38_record (directory_manifest version).val 0) 64 = version := by
      rw [directory_manifest_record]
      exact read_u32_write (directory_record_within version) (directory_record_apart version)
        (by simp [directory_record_fields]) hlt
    rwa [v38_record, read_u32_slice _ (by decide)] at hrecord
  intro heq
  have h1 := hversion 1 (by norm_num)
  rw [heq, hversion 2 (by norm_num)] at h1
  exact absurd h1 (by norm_num)

/-- Two v39 roots of one generation: which one is mounted depends on the slots. -/
theorem two_roots_not_selected : ¬ v39_roots.SelectsRoot two_roots := by
  obtain ⟨a, ha, hagen, hatable⟩ := directory_root_valid (two_roots_holds false).1
    (two_roots_holds false).2
  obtain ⟨b, hb, hbgen, hbtable⟩ := directory_root_valid (two_roots_holds true).1
    (two_roots_holds true).2
  have hslot_a : v39_roots.slot two_roots false = .ok a.root := congrArg (Except.map _) ha
  have hslot_b : v39_roots.slot two_roots true = .ok b.root := congrArg (Except.map _) hb
  have hgen : a.root.generation = b.root.generation := hagen.trans hbgen.symm
  rw [(RootMount.selectsRoot_iff v39_mount_choose v39_slot_exchange two_roots)]
  rintro ⟨htied, hamb⟩
  by_cases hhash : a.root.root_hash = b.root.root_hash
  · refine htied ⟨_, _, hslot_a, hslot_b, hgen, hhash, fun htable => ?_⟩
    have hmanifest : a.manifest.val = b.manifest.val := congrArg (fun t => t.2.val) htable
    rw [hatable, hbtable] at hmanifest
    exact directory_tables_ne hmanifest
  · exact hamb rfl ⟨_, _, hslot_a, hslot_b, hgen, hhash⟩

end Bogbin.Kernel
