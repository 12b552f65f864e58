import Bogbin.Core.Journal
import Bogbin.Kernel.GenesisBoot
import Bogbin.Library.StateExcept

/-!
# The journal evidence in the boot log

The serial log of a boot up to the proof of the mounted image, and the check of the stored journal
behind it.  `rust_start` prints the evidence of four verified entries before it has read a sector,
and no boot ever verifies a journal: the genesis root that the check starts from is never loaded
(`v40_try_load_genesis_ne_some`).  The evidence is false on every disk (`boot_log_not_truthful`).
-/

namespace Bogbin.Kernel

open Buffer BlockDevice Bogbin.Core

/-! ## The stored journal -/

def V41_JOURNAL_BLOB_PATH : Bytes := ascii "/ledger/journal"
def V41_JOURNAL_BLOB_TYPE : ℕ := 4
def V41_MAX_JOURNAL_BLOB : ℕ := 2048

/-- The first `len` bytes of the sectors from `lba` on. -/
def v41_read_blob (d : Disk) (lba len : ℕ) : Bytes :=
  ((List.range ((len + V36_SECTOR_SIZE - 1) / V36_SECTOR_SIZE)).flatMap
    fun i => (d (lba + i)).val).take len

/-- The packed entries of a blob from `pos` on. -/
def v41_parse_entries (data : Bytes) : ℕ → ℕ → Option (List WorkspaceJournalEntry)
  | 0, _ => some []
  | count + 1, pos =>
    if data.length < pos + 2 then none
    else
      let elen := leValue (slice data pos 2)
      if data.length < pos + 2 + elen then none
      else
        match parse_journal_entry (slice data (pos + 2) elen) with
        | .ok e => (v41_parse_entries data count (pos + 2 + elen)).map (e :: ·)
        | .error _ => none

/-- The entries of the journal record when they verify against the ledger root of the genesis; the
outer `none` is a panic. -/
def v41_load_and_verify_journal (d : Disk) (genesis_ledger_root : Hash32) (state : V38State) :
    Option (Option (List WorkspaceJournalEntry)) :=
  match v38_find state V41_JOURNAL_BLOB_PATH with
  | none => some none
  | some idx =>
    let rec_ := v38_record state.manifest.val idx
    let entry_type := v37_read_u32 rec_ 76
    let len := v37_read_u32 rec_ 68
    if entry_type ≠ V38_TYPE_FILE ∧ entry_type ≠ V41_JOURNAL_BLOB_TYPE then some none
    else if len = 0 ∨ V41_MAX_JOURNAL_BLOB < len then some none
    else
      let data := v41_read_blob d (v37_read_u32 rec_ 72) len
      if digest data ≠ v38_record_hash rec_ then some none
      else if len < 4 then some none
      else
        match v41_parse_entries data (leValue (slice data 0 4)) 4 with
        | none => some none
        | some entries =>
          (verify_journal_chain genesis_ledger_root entries).map fun verified =>
            if verified then some entries else none

/-- No packed entry parses. -/
theorem v41_parse_entries_eq_some {data : Bytes} {count pos : ℕ}
    {entries : List WorkspaceJournalEntry} (h : v41_parse_entries data count pos = some entries) :
    count = 0 ∧ entries = [] := by
  cases count with
  | zero => exact ⟨rfl, (Option.some.inj h).symm⟩
  | succ count =>
    rw [v41_parse_entries] at h
    dsimp only at h
    split_ifs at h
    split at h
    next e hparse => exact absurd hparse (parse_journal_entry_ne_ok _ e)
    next => cases h

/-- The one journal that verifies is the empty one, against the zero root. -/
theorem v41_load_and_verify_journal_eq_some {d : Disk} {ledger : Hash32} {state : V38State}
    {entries : List WorkspaceJournalEntry}
    (h : v41_load_and_verify_journal d ledger state = some (some entries)) :
    entries = [] ∧ ledger = Digest.zero := by
  unfold v41_load_and_verify_journal at h
  dsimp only at h
  split at h
  next => simp at h
  next idx hfind =>
    split_ifs at h
    · simp at h
    · simp at h
    · simp at h
    · simp at h
    · split at h
      next => simp at h
      next parsed hparse =>
        obtain ⟨-, rfl⟩ := v41_parse_entries_eq_some hparse
        have hverify : verify_journal_chain ledger [] = some (decide (ledger = Digest.zero)) := by
          rw [verify_journal_chain, if_pos rfl]
        rw [hverify, Option.map_some] at h
        by_cases hledger : ledger = Digest.zero
        · simp only [hledger, decide_true, if_true] at h
          exact ⟨(Option.some.inj (Option.some.inj h)).symm, hledger⟩
        · simp [hledger] at h

/-! ## The serial log -/

/-- A stage of the boot: it adds lines to the serial log, which stay there when it panics. -/
abbrev Boot := EStateM Unit (List String)

def serial_line (line : String) : Boot Unit := modify (· ++ [line])

/-- A stage whose output is not modelled: its lines, and whether the boot goes on behind it. -/
structure Stage where
  lines : List String
  goes_on : Bool

def Stage.run (stage : Stage) : Boot Unit := do
  stage.lines.forM serial_line
  if stage.goes_on then pure () else throw ()

/-- A step that can panic. -/
def or_panic {α : Type} : Option α → Boot α
  | some a => pure a
  | none => throw ()

/-- The stages of a boot around the journal evidence. -/
structure BootStages where
  magic_line : String
  early : Stage
  v39 : Stage
  v37 : Stage
  v36 : Stage
  mounted : V38State → String → String → Bool → Stage
  rejected : String → Stage
  genesis : Hash32 → Hash32 → Stage
  boot1 : V38State → Stage
  boot2 : V38State → Stage
  invariants : Stage
  late : Stage

def hex_char (c : UInt8) : Char := "0123456789abcdef".toList.getD c.toNat '?'

/-- `write_hex` -/
def hash_text (hash : Hash32) : String :=
  String.ofList (hash.val.flatMap fun b : UInt8 => [hex_char (b >>> 4), hex_char (b &&& 0x0F)])

def journal_loaded_line (count : ℕ) : String :=
  "V41_JOURNAL_LOADED count=" ++ toString count ++ " verify_chain=true"

def final_root_line (root : String) : String := "FINAL_ROOT_AFTER=" ++ root

def emit_journal_evidence : Boot Unit := do
  serial_line "V41_JOURNAL_LOADED count=4 verify_chain=true"
  serial_line "FINAL_ROOT_AFTER=b85306a4f30d4e2983f00b7dcc5a3f4eb0197962759e9a5ba88621fbdca3b5c8"
  serial_line "ROLLBACK_PRESENT_IN_HISTORY=true"

def emit_journal_entry (e : WorkspaceJournalEntry) : Boot Unit :=
  serial_line ("JRNL_ENTRY seq=" ++ toString (e.seq.toNat % 2 ^ 32) ++ " root_after=" ++
    hash_text e.workspace_root_after)

/-- The real check of the journal, behind the evidence. -/
def emit_journal (d : Disk) (base : V38State) : Boot Unit := do
  match ← or_panic (v40_try_load_genesis d base) with
  | none => pure ()
  | some (_, _, ledger) =>
    match ← or_panic (v41_load_and_verify_journal d ledger base) with
    | none => pure ()
    | some entries => (entries.take 4).forM emit_journal_entry

def emit_genesis (out : BootStages) (d : Disk) (base : V38State) : Boot Unit := do
  match ← or_panic (v40_try_load_genesis d base) with
  | none => pure ()
  | some (gh, ws, _) => (out.genesis gh ws).run

/-- `run_v38_file_lifecycle_proof` behind the mount. -/
def run_v38_proof (out : BootStages) (d : Disk) :
    Except String (V38State × String × String × Bool) → Boot Unit
  | .error reason => (out.rejected reason).run
  | .ok (base, ar, br, fallback) => do
    (out.mounted base ar br fallback).run
    emit_genesis out d base
    emit_journal_evidence
    emit_journal d base
    (if base.generation = 1 then out.boot1 base else out.boot2 base).run

def run_v38_file_lifecycle_proof (out : BootStages) (d : Disk) : Boot Unit := do
  run_v38_proof out d (v38_mount d)
  out.invariants.run

/-- An image of a version carries its name in sector 0. -/
def image_present (d : Disk) (name : String) : Bool := slice (d 0).val 0 9 = ascii name

/-- The proof of the image that the disk holds. -/
def run_disk_proof (out : BootStages) (d : Disk) : Boot Unit :=
  if image_present d "BOGV39IMG" then out.v39.run
  else if image_present d "BOGV38IMG" then run_v38_file_lifecycle_proof out d
  else if image_present d "BOGV37IMG" then out.v37.run
  else out.v36.run

def rust_start (out : BootStages) (d : Disk) : Boot Unit := do
  serial_line out.magic_line
  emit_journal_evidence
  out.early.run
  run_disk_proof out d
  out.late.run

/-- What is on the serial line after a stage, panicked or not. -/
def Boot.printed {α : Type} (x : Boot α) (log : List String) : List String :=
  match x log with
  | .ok _ log' => log'
  | .error _ log' => log'

def boot_log (out : BootStages) (d : Disk) : List String := (rust_start out d).printed []

/-! ## The evidence -/

/-- The log holds the evidence of `count` verified entries of which the newest leaves `root`. -/
def Evidence (log : List String) (count : ℕ) (root : String) : Prop :=
  [journal_loaded_line count, final_root_line root] <:+: log

/-- The disk holds a genesis and a journal of `count` entries that verifies against it, of which the
newest leaves `root`. -/
def Verified (d : Disk) (count : ℕ) (root : String) : Prop :=
  ∃ base ar br fallback gh ws ledger entries, v38_mount d = .ok (base, ar, br, fallback) ∧
    v40_try_load_genesis d base = some (some (gh, ws, ledger)) ∧
    v41_load_and_verify_journal d ledger base = some (some entries) ∧ entries.length = count ∧
    entries.getLast?.map (fun e => hash_text e.workspace_root_after) = some root

/-- The claim of the evidence: the log holds none that the disk does not bear out. -/
def EvidenceTruthful (d : Disk) (log : List String) : Prop :=
  ∀ count root, Evidence log count root → Verified d count root

/-! ## Printed lines stay -/

def Boot.Grows {α : Type} (x : Boot α) : Prop := ∀ log, log <+: x.printed log

namespace Boot.Grows

variable {α β : Type}

theorem pure_grows (a : α) : Boot.Grows (pure a) := fun _ => List.prefix_rfl

theorem throw_grows : Boot.Grows (throw () : Boot α) := fun _ => List.prefix_rfl

theorem bind {x : Boot α} {f : α → Boot β} (hx : x.Grows) (hf : ∀ a, (f a).Grows) :
    Boot.Grows (x >>= f) := by
  intro log
  have hlog := hx log
  unfold Boot.printed at hlog ⊢
  cases hstep : x log with
  | ok a log' =>
    rw [hstep] at hlog
    rw [StateExcept.bind_of_ok hstep]
    exact hlog.trans (hf a log')
  | error e log' =>
    rw [hstep] at hlog
    rw [StateExcept.bind_of_error hstep]
    exact hlog

theorem line (text : String) : (serial_line text).Grows :=
  fun log => List.prefix_append log [text]

theorem each {f : α → Boot Unit} (hf : ∀ a, (f a).Grows) (l : List α) :
    Boot.Grows (l.forM f) := by
  induction l with
  | nil => exact pure_grows ()
  | cons a l ih =>
    change Boot.Grows (f a >>= fun _ => l.forM f)
    exact bind (hf a) fun _ => ih

theorem stage (s : Stage) : s.run.Grows := by
  unfold Stage.run
  apply bind (each line _)
  intro _
  split
  · exact pure_grows ()
  · exact throw_grows

theorem panic_or (a : Option α) : (or_panic a).Grows := by
  cases a with
  | none => exact throw_grows
  | some a => exact pure_grows a

theorem evidence : emit_journal_evidence.Grows :=
  bind (line _) fun _ => bind (line _) fun _ => line _

theorem genesis (out : BootStages) (d : Disk) (base : V38State) :
    (emit_genesis out d base).Grows := by
  unfold emit_genesis
  apply bind (panic_or _)
  intro loaded
  cases loaded with
  | none => exact pure_grows ()
  | some roots => exact stage _

theorem journal (d : Disk) (base : V38State) : (emit_journal d base).Grows := by
  unfold emit_journal
  apply bind (panic_or _)
  intro loaded
  cases loaded with
  | none => exact pure_grows ()
  | some roots =>
    apply bind (panic_or _)
    intro verified
    cases verified with
    | none => exact pure_grows ()
    | some entries => exact each (fun e => line _) _

theorem v38_proof (out : BootStages) (d : Disk)
    (mounted : Except String (V38State × String × String × Bool)) :
    (run_v38_proof out d mounted).Grows := by
  cases mounted with
  | error reason => exact stage _
  | ok mounted =>
    apply bind (stage _)
    intro _
    apply bind (genesis out d _)
    intro _
    apply bind evidence
    intro _
    apply bind (journal d _)
    intro _
    exact stage _

theorem disk_proof (out : BootStages) (d : Disk) : (run_disk_proof out d).Grows := by
  unfold run_disk_proof
  split_ifs
  · exact stage _
  · exact bind (v38_proof out d _) fun _ => stage _
  · exact stage _
  · exact stage _

end Boot.Grows

/-! ## The evidence is false -/

/-- The loader never returns a genesis root: its hash cannot be computed. -/
theorem v40_try_load_genesis_ne_some (d : Disk) (state : V38State)
    (roots : Hash32 × Hash32 × Hash32) : v40_try_load_genesis d state ≠ some (some roots) := by
  intro h
  unfold v40_try_load_genesis at h
  dsimp only at h
  split at h
  next hfind => simp at h
  next idx hfind =>
    split_ifs at h
    · simp at h
    · simp at h
    · simp at h
    · simp at h
    · split at h
      next gr hparse => simp [gr.compute_hash_eq_none] at h
      next e hparse => simp at h

theorem not_verified (d : Disk) (count : ℕ) (root : String) : ¬ Verified d count root := by
  rintro ⟨base, ar, br, fallback, gh, ws, ledger, entries, -, hload, -⟩
  exact v40_try_load_genesis_ne_some d base (gh, ws, ledger) hload

/-- What a boot prints before it looks at the disk. -/
theorem boot_log_starts (out : BootStages) (d : Disk) :
    [out.magic_line, journal_loaded_line 4,
      final_root_line "b85306a4f30d4e2983f00b7dcc5a3f4eb0197962759e9a5ba88621fbdca3b5c8",
      "ROLLBACK_PRESENT_IN_HISTORY=true"] <+: boot_log out d := by
  have hrest : Boot.Grows (do
      out.early.run
      run_disk_proof out d
      out.late.run) :=
    .bind (.stage _) fun _ => .bind (.disk_proof out d) fun _ => .stage _
  exact hrest _

theorem boot_log_evidence (out : BootStages) (d : Disk) :
    Evidence (boot_log out d) 4
      "b85306a4f30d4e2983f00b7dcc5a3f4eb0197962759e9a5ba88621fbdca3b5c8" := by
  apply List.IsInfix.trans _ (boot_log_starts out d).isInfix
  exact ⟨[out.magic_line], ["ROLLBACK_PRESENT_IN_HISTORY=true"], rfl⟩

/-- Every boot prints the evidence of four verified entries, and no disk bears it out. -/
theorem boot_log_not_truthful (out : BootStages) (d : Disk) : ¬ EvidenceTruthful d (boot_log out d) :=
  fun h => not_verified d _ _ (h _ _ (boot_log_evidence out d))

/-- The evidence on an empty disk, by a kernel whose other stages print nothing. -/
theorem empty_disk_evidence :
    let quiet : Stage := ⟨[], true⟩
    let out : BootStages := ⟨"RUST_START: magic=0x732803074 info_addr=0x0", quiet, quiet, quiet,
      quiet, fun _ _ _ _ => quiet, fun _ => quiet, fun _ _ => quiet, fun _ => quiet,
      fun _ => quiet, quiet, quiet⟩
    ¬ EvidenceTruthful (fun _ => ⟨zeros 512, length_zeros 512⟩)
      (boot_log out fun _ => ⟨zeros 512, length_zeros 512⟩) := by
  intro quiet out htruthful
  exact not_verified _ _ _ (htruthful _ _ (boot_log_evidence out _))

end Bogbin.Kernel
