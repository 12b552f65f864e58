import Bogbin.Vm.Run

/-!
# The bytes of accepted data blocks

`ACCEPT_DATA` asks for a cached result of `VERIFY_HASH`.  `LOAD_COEFFICIENTS`, `SYNTHESIZE` and
`APPLY_RESIDUAL` replace the bytes of a block and leave its result and the list of accepted blocks.
Accepted blocks hold verified bytes where no step changes an accepted block and no block is accepted
that has changed since its verification.
-/

namespace Bogbin.Vm

open Bogvm StateExcept
open Std (TreeMap)

/-- The step replaces the bytes of its block by others. -/
def Step.Changes (step : Step) : Prop :=
  match step.before.data_blocks[step.instr.target]? with
  | none => False
  | some block =>
    match step.op with
    | .LOAD_COEFFICIENTS => block.bytes ≠ []
    | .SYNTHESIZE => synthesized block ≠ .ok block.bytes
    | .APPLY_RESIDUAL => block.residuals.foldlM apply_patch block.bytes ≠ .ok block.bytes
    | _ => False

instance (step : Step) : Decidable step.Changes := by
  unfold Step.Changes
  split
  · infer_instance
  · split <;> infer_instance

/-- Whether a block has changed since the last `VERIFY_HASH` on it, a step later. -/
def stale_after (id : ℕ) (stale : Bool) (step : Step) : Bool :=
  if step.instr.target ≠ id then stale
  else if step.op = .VERIFY_HASH then false
  else stale || step.Changes

/-- The block has changed since the last `VERIFY_HASH` on it. -/
def stale (past : List Step) (id : ℕ) : Bool := past.foldl (stale_after id) false

/-- The step changes no accepted block and accepts none that has changed since its verification. -/
def Step.Sealed (past : List Step) (step : Step) : Prop :=
  (step.instr.target ∈ step.before.accepted_data_blocks → ¬ step.Changes) ∧
    (step.op = .ACCEPT_DATA → stale past step.instr.target = false)

instance (past : List Step) (step : Step) : Decidable (step.Sealed past) :=
  inferInstanceAs (Decidable (_ ∧ _))

/-- A `VERIFY_HASH` on the block had the digest of these bytes as its constant. -/
def Verified (manifest : Dict) (past : List Step) (id : ℕ) (bytes : Bytes) : Prop :=
  ∃ step ∈ past, step.op = .VERIFY_HASH ∧ step.instr.target = id ∧
    require_symbol manifest "constants" step.instr.source = .ok (.str (hexdigest bytes))

/-- The stored bytes of a block are verified. -/
def Stored (manifest : Dict) (past : List Step) (s : VMState) (id : ℕ) : Prop :=
  ∃ block, s.data_blocks[id]? = some block ∧ Verified manifest past id block.bytes

/-- The blocks with a cached result `verified` that have not changed since and the accepted blocks
hold verified bytes. -/
structure Integrity (manifest : Dict) (past : List Step) (s : VMState) : Prop where
  fresh : ∀ id, s.data_hash_results[id]? = some .verified → stale past id = false →
    Stored manifest past s id
  accepted : ∀ id ∈ s.accepted_data_blocks, Stored manifest past s id

theorem integrity_initial {manifest : Dict} : Integrity manifest [] .initial where
  fresh _ h := (getElem?_empty_ne h).elim
  accepted _ hmem := nomatch hmem

section Steps

variable {manifest : Dict} {past : List Step} {s s' : VMState} {op : Op} {instr : Instruction}
  {step : Step} {id : ℕ}

theorem stale_append : stale (past ++ [step]) id = stale_after id (stale past id) step := by
  unfold stale
  rw [List.foldl_append, List.foldl_cons, List.foldl_nil]

/-- What is fresh after a step other than `VERIFY_HASH` was fresh before it and has not changed. -/
theorem fresh_before (hop : step.op ≠ .VERIFY_HASH) (h : stale (past ++ [step]) id = false) :
    stale past id = false ∧ (step.instr.target = id → ¬ step.Changes) := by
  rw [stale_append, stale_after] at h
  split_ifs at h with htarget
  · exact ⟨h, fun heq => absurd heq htarget⟩
  · rw [Bool.or_eq_false_iff, decide_eq_false_iff_not] at h
    exact ⟨h.1, fun _ => h.2⟩

theorem Verified.later {bytes : Bytes} (h : Verified manifest past id bytes) :
    Verified manifest (past ++ [step]) id bytes := by
  obtain ⟨verifier, hmem, hverifier⟩ := h
  exact ⟨verifier, List.mem_append_left _ hmem, hverifier⟩

theorem Stored.later (hblocks : s'.data_blocks = s.data_blocks) (h : Stored manifest past s id) :
    Stored manifest (past ++ [step]) s' id := by
  obtain ⟨block, hblock, hverified⟩ := h
  exact ⟨block, hblocks ▸ hblock, hverified.later⟩

/-- A step that leaves the blocks and the decisions about them. -/
theorem Integrity.frame (h : Integrity manifest past s) (hop : step.op ≠ .VERIFY_HASH)
    (hblocks : s'.data_blocks = s.data_blocks)
    (hresults : s'.data_hash_results = s.data_hash_results)
    (haccepted : s'.accepted_data_blocks = s.accepted_data_blocks) :
    Integrity manifest (past ++ [step]) s' where
  fresh id hresult hstale := by
    rw [hresults] at hresult
    exact (h.fresh id hresult (fresh_before hop hstale).1).later hblocks
  accepted id hmem := by
    rw [haccepted] at hmem
    exact (h.accepted id hmem).later hblocks

theorem Integrity.logged {n : ℤ} {opcode : String} {details : List (String × Json)}
    (h : Integrity manifest past s) : Integrity manifest past (s.logged n opcode details) :=
  ⟨h.fresh, h.accepted⟩

/-- A step that puts a block in the place of its target, with the same bytes unless it changes them. -/
theorem Integrity.replace {block : DataBlock} (h : Integrity manifest past s)
    (sealed : Step.Sealed past ⟨op, instr, s⟩) (hop : op ≠ .VERIFY_HASH)
    (same : ∀ old, s.data_blocks[instr.target]? = some old → ¬ Step.Changes ⟨op, instr, s⟩ →
      block.bytes = old.bytes) :
    Integrity manifest (past ++ [⟨op, instr, s⟩])
      { s with data_blocks := s.data_blocks.insert instr.target block } := by
  have hstored : ∀ id, (instr.target = id → ¬ Step.Changes ⟨op, instr, s⟩) →
      Stored manifest past s id → Stored manifest (past ++ [⟨op, instr, s⟩])
        { s with data_blocks := s.data_blocks.insert instr.target block } id := by
    rintro id hkept ⟨old, hold, hverified⟩
    by_cases htarget : instr.target = id
    · subst htarget
      refine ⟨block, TreeMap.getElem?_insert_self, ?_⟩
      rw [same old hold (hkept rfl)]
      exact hverified.later
    · refine ⟨old, ?_, hverified.later⟩
      dsimp only
      rw [TreeMap.getElem?_insert, if_neg (mt Nat.compare_eq_eq.mp htarget)]
      exact hold
  constructor
  · intro id hresult hstale
    obtain ⟨hfresh, hkept⟩ := fresh_before hop hstale
    exact hstored id hkept (h.fresh id hresult hfresh)
  · intro id hmem
    exact hstored id (fun heq => sealed.1 (heq ▸ hmem)) (h.accepted id hmem)

theorem integrity_verify_hash {block : DataBlock} {expected_hash : Json}
    (h : Integrity manifest past s) (found : s.data_blocks[instr.target]? = some block)
    (constant : require_symbol manifest "constants" instr.source = .ok expected_hash) :
    Integrity manifest (past ++ [⟨.VERIFY_HASH, instr, s⟩])
      { s with
        data_hash_results := s.data_hash_results.insert instr.target
          (if .str (hexdigest block.bytes) = expected_hash then .verified else .rejected) } where
  fresh id hresult hstale := by
    dsimp only at hresult
    rw [TreeMap.getElem?_insert] at hresult
    by_cases htarget : instr.target = id
    · subst htarget
      rw [if_pos (Nat.compare_eq_eq.mpr rfl)] at hresult
      have hmatch : .str (hexdigest block.bytes) = expected_hash := by
        by_contra hne
        rw [if_neg hne] at hresult
        cases hresult
      rw [← hmatch] at constant
      exact ⟨block, found, _, List.mem_append_right _ (List.mem_singleton_self _), rfl, rfl, constant⟩
    · rw [if_neg (mt Nat.compare_eq_eq.mp htarget)] at hresult
      rw [stale_append, stale_after, if_pos htarget] at hstale
      exact (h.fresh id hresult hstale).later rfl
  accepted id hmem := (h.accepted id hmem).later rfl

theorem integrity_accept_data (h : Integrity manifest past s)
    (sealed : Step.Sealed past ⟨.ACCEPT_DATA, instr, s⟩)
    (verified : s.data_hash_results[instr.target]? = some .verified) :
    Integrity manifest (past ++ [⟨.ACCEPT_DATA, instr, s⟩])
      { s with accepted_data_blocks := add_sorted s.accepted_data_blocks instr.target } where
  fresh id hresult hstale :=
    (h.fresh id hresult (fresh_before (fun hop => Op.noConfusion hop) hstale).1).later rfl
  accepted id hmem := by
    rcases mem_add_sorted.mp hmem with hmem | rfl
    · exact (h.accepted id hmem).later rfl
    · exact (h.fresh _ verified (sealed.2 rfl)).later rfl

theorem not_changes {op : Op} {old : DataBlock} (hold : s.data_blocks[instr.target]? = some old)
    (h : ¬ Step.Changes ⟨op, instr, s⟩) :
    match op with
    | .LOAD_COEFFICIENTS => old.bytes = []
    | .SYNTHESIZE => synthesized old = .ok old.bytes
    | .APPLY_RESIDUAL => old.residuals.foldlM apply_patch old.bytes = .ok old.bytes
    | _ => True := by
  unfold Step.Changes at h
  dsimp only at h
  rw [hold] at h
  cases op with
  | LOAD_COEFFICIENTS => exact not_not.mp h
  | SYNTHESIZE => exact not_not.mp h
  | APPLY_RESIDUAL => exact not_not.mp h
  | _ => trivial

theorem integrity_step (h : Integrity manifest past s) (sealed : Step.Sealed past ⟨op, instr, s⟩)
    (executed : Executed manifest instr op s s') :
    Integrity manifest (past ++ [⟨op, instr, s⟩]) s' := by
  obtain ⟨s₁, n, opcode, details, heffect, rfl⟩ := executed
  apply Integrity.logged
  cases heffect with
  | load_coefficients _ _ _ =>
    exact h.replace sealed (by decide) fun old hold hkept => (not_changes hold hkept).symm
  | synthesize found made =>
    refine h.replace sealed (by decide) fun old hold hkept => ?_
    obtain rfl := Option.some.inj (found.symm.trans hold)
    exact Except.ok.inj (made.symm.trans (not_changes hold hkept))
  | apply_residual found applied =>
    refine h.replace sealed (by decide) fun old hold hkept => ?_
    obtain rfl := Option.some.inj (found.symm.trans hold)
    exact Except.ok.inj (applied.symm.trans (not_changes hold hkept))
  | store_residual found _ _ =>
    refine h.replace sealed (by decide) fun old hold _ => ?_
    obtain rfl := Option.some.inj (found.symm.trans hold)
    rfl
  | verify_hash found constant => exact integrity_verify_hash h found constant
  | accept_data _ verified => exact integrity_accept_data h sealed verified
  | silent silent =>
    refine h.frame ?_ rfl rfl rfl
    rintro rfl
    exact silent
  | _ => exact h.frame (fun hop => Op.noConfusion hop) rfl rfl rfl

end Steps

/-! ## The runs -/

section Runs

variable (manifest : Dict) (instructions : List Instruction)

/-- Every step is sealed, with the steps before it. -/
def AllSealed (past : List Step) : Prop :=
  ∀ n, ∀ h : n < past.length, past[n].Sealed (past.take n)

instance (past : List Step) : Decidable (AllSealed past) :=
  inferInstanceAs (Decidable (∀ n, ∀ h : n < past.length, past[n].Sealed (past.take n)))

theorem AllSealed.sealed {past before : List Step} {step : Step} (h : AllSealed past)
    (hinit : before ++ [step] <+: past) : step.Sealed before := by
  obtain ⟨rest, rfl⟩ := hinit
  simpa using h before.length (by simp)

theorem reached_integrity {past : List Step} {s : VMState} (h : Reached manifest past s)
    (sealed : AllSealed past) : Integrity manifest past s :=
  @Reached.invariant manifest past s (Integrity manifest) (fun before step => step.Sealed before)
    integrity_initial integrity_step h fun _ _ hinit => sealed.sealed hinit

/-- Accepted blocks hold verified bytes in every state of a run of sealed steps, and in the state of
its receipt. -/
theorem accepted_data_verified :
    (∀ past s, Runs manifest instructions past s → AllSealed past →
      ∀ id ∈ s.accepted_data_blocks, Stored manifest past s id) ∧
    ∀ program_hash receipt s, run manifest program_hash instructions .initial = .ok receipt s →
      AllSealed (steps manifest 0 instructions .initial) →
      ∀ id ∈ s.accepted_data_blocks, Stored manifest (steps manifest 0 instructions .initial) s id := by
  constructor
  · intro past s hruns sealed
    exact (reached_integrity manifest hruns.1 sealed).accepted
  · intro program_hash receipt s hrun sealed
    obtain ⟨s₁, hruns, heq⟩ := run_reaches hrun
    have hintegrity := reached_integrity manifest hruns.1 sealed
    rcases heq with rfl | ⟨n, opcode, details, rfl⟩
    · exact hintegrity.accepted
    · exact hintegrity.logged.accepted

end Runs

/-- A block of no bytes with the digest of none, and a basis. -/
def empty_block : Dict :=
  [("constants", .obj [("0", .str "zero_block"), ("1", .str (hexdigest []))]),
    ("data_blocks", .obj [("0", .str "d")])]

/-- The block is accepted before its bytes are synthesized. -/
def accept_empty_block : List Instruction :=
  [⟨0x10, 0, 0, 0, 0⟩, ⟨0x11, 0, 0, 0, 1⟩, ⟨0x13, 0, 0, 1, 0⟩, ⟨0x14, 0, 0, 0, 0⟩]

theorem accept_empty_block_verified :
    ∃ receipt s, run empty_block "" (accept_empty_block ++ [⟨0x01, 0, 0, 0, 0⟩]) .initial =
        .ok receipt s ∧
      0 ∈ s.accepted_data_blocks ∧
      Stored empty_block (steps empty_block 0 (accept_empty_block ++ [⟨0x01, 0, 0, 0, 0⟩]) .initial) s 0 := by
  have hhalts : halts_with empty_block (accept_empty_block ++ [⟨0x01, 0, 0, 0, 0⟩])
      (fun s => 0 ∈ s.accepted_data_blocks) := by
    decide +kernel
  obtain ⟨receipt, s, hrun, haccepted⟩ := run_of_halts "" ⟨_, rfl⟩ hhalts fun _ _ _ _ => rfl
  have hmem := of_decide_eq_true haccepted
  exact ⟨receipt, s, hrun, hmem,
    (accepted_data_verified _ _).2 _ _ _ hrun (by decide +kernel) 0 hmem⟩

/-- The bytes of an accepted block are synthesized afterwards. -/
theorem accepted_data_not_verified :
    ∃ receipt s, run empty_block ""
        (accept_empty_block ++ [⟨0x12, 0, 0, 0, 0⟩, ⟨0x01, 0, 0, 0, 0⟩]) .initial = .ok receipt s ∧
      0 ∈ s.accepted_data_blocks ∧
      ¬ Stored empty_block (steps empty_block 0
        (accept_empty_block ++ [⟨0x12, 0, 0, 0, 0⟩, ⟨0x01, 0, 0, 0, 0⟩]) .initial) s 0 := by
  have hhalts : halts_with empty_block
      (accept_empty_block ++ [⟨0x12, 0, 0, 0, 0⟩, ⟨0x01, 0, 0, 0, 0⟩])
      (fun s => 0 ∈ s.accepted_data_blocks ∧ (s.data_blocks[0]?).map (·.bytes) = some [0]) := by
    decide +kernel
  have hother : ∀ step ∈ steps empty_block 0
      (accept_empty_block ++ [⟨0x12, 0, 0, 0, 0⟩, ⟨0x01, 0, 0, 0, 0⟩]) .initial,
      ¬ (step.op = .VERIFY_HASH ∧
        require_symbol empty_block "constants" step.instr.source = .ok (.str (hexdigest [0]))) := by
    decide +kernel
  obtain ⟨receipt, s, hrun, hfinal⟩ := run_of_halts "" ⟨_, rfl⟩ hhalts fun _ _ _ _ => rfl
  obtain ⟨hmem, hbytes⟩ := of_decide_eq_true hfinal
  refine ⟨receipt, s, hrun, hmem, ?_⟩
  rintro ⟨block, hblock, step, hstep, hop, -, hconstant⟩
  rw [hblock] at hbytes
  have hzero : block.bytes = [0] := Option.some.inj hbytes
  rw [hzero] at hconstant
  exact hother step hstep ⟨hop, hconstant⟩

end Bogbin.Vm
