import Bogbin.Vm.Run

/-!
# The decisions of a run

The lists of accepted, rejected and quarantined claims and of accepted and rejected data blocks.
`REJECT` and `QUARANTINE` do not look at what was accepted, `VERIFY` replaces the result of a claim
that was accepted already, and a block can be verified again after a decision about it.  A run whose
steps are `Clear` of this keeps its decisions consistent.
-/

namespace Bogbin.Vm

open Bogvm StateExcept
open Std (TreeMap)

/-- The most recent `VERIFY` of a claim. -/
def last_verify (past : List Step) (claim : ℕ) : Option Step :=
  past.reverse.find? fun step => step.op = .VERIFY ∧ step.instr.target = claim

theorem last_verify_append {past : List Step} {step : Step} {claim : ℕ} :
    last_verify (past ++ [step]) claim =
      if step.op = .VERIFY ∧ step.instr.target = claim then some step else last_verify past claim := by
  unfold last_verify
  rw [List.reverse_append, List.reverse_singleton, List.singleton_append, List.find?_cons]
  split_ifs with hstep
  · rw [decide_eq_true hstep]
  · rw [decide_eq_false hstep]

/-- The decisions after these steps. -/
structure Consistent (past : List Step) (s : VMState) : Prop where
  claims : ∀ claim ∈ s.accepted_claims, claim ∉ s.rejected_claims ∧ claim ∉ s.quarantined_claims
  verified : ∀ claim ∈ s.accepted_claims,
    ∃ step, last_verify past claim = some step ∧ verify_claim step.before claim = .ok .verified
  data : ∀ block ∈ s.accepted_data_blocks, block ∉ s.rejected_data_blocks

/-- The step takes no decision back: an accepted claim is verified again with the same result and
neither rejected nor quarantined, and what was rejected is not accepted. -/
def Step.Clear (step : Step) : Prop :=
  let s := step.before
  let id := step.instr.target
  match step.op with
  | .VERIFY => id ∈ s.accepted_claims → verify_claim s id = .ok .verified
  | .ACCEPT => s.verifier_results[id]? = some .verified →
      id ∉ s.rejected_claims ∧ id ∉ s.quarantined_claims
  | .REJECT | .QUARANTINE => id ∉ s.accepted_claims
  | .ACCEPT_DATA => id ∉ s.rejected_data_blocks
  | .REJECT_DATA => id ∉ s.accepted_data_blocks
  | _ => True

/-! ## The invariant -/

/-- The cached results are those of the most recent verifications, and every accepted claim has been
verified. -/
structure Decided (past : List Step) (s : VMState) : Prop where
  results : ∀ claim status, s.verifier_results[claim]? = some status →
    ∃ step, last_verify past claim = some step ∧ verify_claim step.before claim = .ok status
  accepted : ∀ claim ∈ s.accepted_claims, s.verifier_results[claim]? = some .verified
  claims : ∀ claim ∈ s.accepted_claims, claim ∉ s.rejected_claims ∧ claim ∉ s.quarantined_claims
  data : ∀ block ∈ s.accepted_data_blocks, block ∉ s.rejected_data_blocks

theorem Decided.consistent {past : List Step} {s : VMState} (h : Decided past s) :
    Consistent past s where
  claims := h.claims
  verified claim hmem := h.results claim .verified (h.accepted claim hmem)
  data := h.data

theorem decided_initial : Decided [] .initial where
  results _ _ h := (getElem?_empty_ne h).elim
  accepted _ hmem := nomatch hmem
  claims _ hmem := nomatch hmem
  data _ hmem := nomatch hmem

section Step

variable {manifest : Dict} {past : List Step} {s s' : VMState} {op : Op} {instr : Instruction}

/-- A step other than `VERIFY` leaves the most recent verifications. -/
theorem Decided.results_append (h : Decided past s) (hop : op ≠ .VERIFY) (claim : ℕ) (status : Status)
    (hresult : s.verifier_results[claim]? = some status) :
    ∃ step, last_verify (past ++ [⟨op, instr, s⟩]) claim = some step ∧
      verify_claim step.before claim = .ok status := by
  rw [last_verify_append, if_neg fun hstep => hop hstep.1]
  exact h.results claim status hresult

/-- A step that changes none of the decisions. -/
theorem Decided.frame (h : Decided past s) (hop : op ≠ .VERIFY)
    (hresults : s'.verifier_results = s.verifier_results)
    (haccepted : s'.accepted_claims = s.accepted_claims)
    (hrejected : s'.rejected_claims = s.rejected_claims)
    (hquarantined : s'.quarantined_claims = s.quarantined_claims)
    (hdata : s'.accepted_data_blocks = s.accepted_data_blocks)
    (hrejected_data : s'.rejected_data_blocks = s.rejected_data_blocks) :
    Decided (past ++ [⟨op, instr, s⟩]) s' where
  results := by
    rw [hresults]
    exact h.results_append hop
  accepted := by
    rw [hresults, haccepted]
    exact h.accepted
  claims := by
    rw [haccepted, hrejected, hquarantined]
    exact h.claims
  data := by
    rw [hdata, hrejected_data]
    exact h.data

theorem Decided.logged {n : ℤ} {opcode : String} {details : List (String × Json)}
    (h : Decided past s) : Decided past (s.logged n opcode details) :=
  ⟨h.results, h.accepted, h.claims, h.data⟩

theorem decided_verify {status : Status} (h : Decided past s)
    (clear : Step.Clear ⟨.VERIFY, instr, s⟩) (verified : verify_claim s instr.target = .ok status) :
    Decided (past ++ [⟨.VERIFY, instr, s⟩])
      { s with verifier_results := s.verifier_results.insert instr.target status } where
  results claim found hfound := by
    dsimp only at hfound
    rw [TreeMap.getElem?_insert] at hfound
    rw [last_verify_append]
    by_cases htarget : instr.target = claim
    · rw [if_pos (Nat.compare_eq_eq.mpr htarget)] at hfound
      obtain rfl := Option.some.inj hfound
      exact ⟨_, if_pos ⟨rfl, htarget⟩, htarget ▸ verified⟩
    · rw [if_neg (mt Nat.compare_eq_eq.mp htarget)] at hfound
      rw [if_neg fun hstep => htarget hstep.2]
      exact h.results claim found hfound
  accepted claim hmem := by
    dsimp only at hmem ⊢
    rw [TreeMap.getElem?_insert]
    by_cases htarget : instr.target = claim
    · rw [if_pos (Nat.compare_eq_eq.mpr htarget)]
      have hagain := clear (show instr.target ∈ s.accepted_claims from htarget ▸ hmem)
      rw [verified] at hagain
      rw [Except.ok.inj hagain]
    · rw [if_neg (mt Nat.compare_eq_eq.mp htarget)]
      exact h.accepted claim hmem
  claims := h.claims
  data := h.data

theorem decided_accept (h : Decided past s) (clear : Step.Clear ⟨.ACCEPT, instr, s⟩)
    (verified : s.verifier_results[instr.target]? = some .verified) :
    Decided (past ++ [⟨.ACCEPT, instr, s⟩])
      { s with accepted_claims := add_sorted s.accepted_claims instr.target } where
  results := h.results_append (by decide)
  accepted claim hmem := by
    rcases mem_add_sorted.mp hmem with hmem | rfl
    · exact h.accepted claim hmem
    · exact verified
  claims claim hmem := by
    rcases mem_add_sorted.mp hmem with hmem | rfl
    · exact h.claims claim hmem
    · exact clear verified
  data := h.data

/-- The repair rejects a claim whose result is not `verified`, so an accepted one it is not. -/
theorem decided_repair (h : Decided past s)
    (rejected : s.verifier_results[instr.target]? = some .rejected) :
    Decided (past ++ [⟨.ACCEPT, instr, s⟩])
      { s with
        rejected_claims := add_sorted s.rejected_claims instr.target
        quarantined_claims := add_sorted s.quarantined_claims instr.target } where
  results := h.results_append (by decide)
  accepted := h.accepted
  claims claim hmem := by
    have hne : claim ≠ instr.target := by
      rintro rfl
      have hverified := h.accepted _ hmem
      rw [rejected] at hverified
      cases hverified
    dsimp only
    rw [mem_add_sorted, mem_add_sorted]
    exact ⟨not_or.mpr ⟨(h.claims claim hmem).1, hne⟩, not_or.mpr ⟨(h.claims claim hmem).2, hne⟩⟩
  data := h.data

theorem decided_reject (h : Decided past s) (clear : Step.Clear ⟨.REJECT, instr, s⟩) :
    Decided (past ++ [⟨.REJECT, instr, s⟩])
      { s with rejected_claims := add_sorted s.rejected_claims instr.target } where
  results := h.results_append (by decide)
  accepted := h.accepted
  claims claim hmem := by
    have hne : claim ≠ instr.target := fun heq => clear (heq ▸ hmem)
    exact ⟨fun hrejected => (mem_add_sorted.mp hrejected).elim (h.claims claim hmem).1 hne,
      (h.claims claim hmem).2⟩
  data := h.data

theorem decided_quarantine (h : Decided past s) (clear : Step.Clear ⟨.QUARANTINE, instr, s⟩) :
    Decided (past ++ [⟨.QUARANTINE, instr, s⟩])
      { s with quarantined_claims := add_sorted s.quarantined_claims instr.target } where
  results := h.results_append (by decide)
  accepted := h.accepted
  claims claim hmem := by
    have hne : claim ≠ instr.target := fun heq => clear (heq ▸ hmem)
    exact ⟨(h.claims claim hmem).1,
      fun hquarantined => (mem_add_sorted.mp hquarantined).elim (h.claims claim hmem).2 hne⟩
  data := h.data

theorem decided_accept_data (h : Decided past s) (clear : Step.Clear ⟨.ACCEPT_DATA, instr, s⟩) :
    Decided (past ++ [⟨.ACCEPT_DATA, instr, s⟩])
      { s with accepted_data_blocks := add_sorted s.accepted_data_blocks instr.target } where
  results := h.results_append (by decide)
  accepted := h.accepted
  claims := h.claims
  data block hmem := by
    rcases mem_add_sorted.mp hmem with hmem | rfl
    · exact h.data block hmem
    · exact clear

theorem decided_reject_data (h : Decided past s) (clear : Step.Clear ⟨.REJECT_DATA, instr, s⟩) :
    Decided (past ++ [⟨.REJECT_DATA, instr, s⟩])
      { s with rejected_data_blocks := add_sorted s.rejected_data_blocks instr.target } where
  results := h.results_append (by decide)
  accepted := h.accepted
  claims := h.claims
  data block hmem := by
    have hne : block ≠ instr.target := fun heq => clear (heq ▸ hmem)
    exact fun hrejected => (mem_add_sorted.mp hrejected).elim (h.data block hmem) hne

theorem decided_step (h : Decided past s) (clear : Step.Clear ⟨op, instr, s⟩)
    (executed : Executed manifest instr op s s') : Decided (past ++ [⟨op, instr, s⟩]) s' := by
  obtain ⟨s₁, n, opcode, details, heffect, rfl⟩ := executed
  apply Decided.logged
  cases heffect with
  | verify verified => exact decided_verify h clear verified
  | accept _ verified => exact decided_accept h clear verified
  | repair _ rejected => exact decided_repair h rejected
  | reject _ => exact decided_reject h clear
  | quarantine _ => exact decided_quarantine h clear
  | accept_data _ _ => exact decided_accept_data h clear
  | reject_data _ _ => exact decided_reject_data h clear
  | silent silent =>
    refine h.frame ?_ rfl rfl rfl rfl rfl rfl
    rintro rfl
    exact silent
  | _ => exact h.frame (by decide) rfl rfl rfl rfl rfl rfl

end Step

/-! ## The runs -/

section Runs

variable (manifest : Dict) (instructions : List Instruction)

theorem reached_decided {past : List Step} {s : VMState} (h : Reached manifest past s)
    (clear : ∀ step ∈ past, step.Clear) : Decided past s :=
  @Reached.invariant manifest past s Decided (fun _ => Step.Clear) decided_initial decided_step h
    fun _ step hinit => clear step (hinit.mem (List.mem_append_right _ (List.mem_singleton_self step)))

/-- A run of clear steps is consistent in every state it reaches, and with its receipt. -/
theorem decisions_consistent :
    (∀ past s, Runs manifest instructions past s → (∀ step ∈ past, step.Clear) → Consistent past s) ∧
    ∀ program_hash receipt s, run manifest program_hash instructions .initial = .ok receipt s →
      (∀ step ∈ steps manifest 0 instructions .initial, step.Clear) →
      Consistent (steps manifest 0 instructions .initial) s := by
  constructor
  · intro past s hruns clear
    exact (reached_decided manifest hruns.1 clear).consistent
  · intro program_hash receipt s hrun clear
    obtain ⟨s₁, hruns, heq⟩ := run_reaches hrun
    have hdecided := reached_decided manifest hruns.1 clear
    rcases heq with rfl | ⟨n, opcode, details, rfl⟩
    · exact hdecided.consistent
    · exact hdecided.logged.consistent

end Runs

instance (step : Step) : Decidable step.Clear := by
  obtain ⟨op, instr, before⟩ := step
  unfold Step.Clear
  cases op <;> infer_instance

/-- A claim that a node supports itself. -/
def self_claim : Dict :=
  [("claims", .obj [("0", .obj [("name", .str "c")])]), ("data_blocks", .obj []),
    ("nodes", .obj [("0", .str "n")])]

def accept_self_claim : List Instruction :=
  [⟨0x02, 0, 0, 0, 0⟩, ⟨0x04, 0, 0, 0, 0⟩, ⟨0x0A, 0, 0, 0, 0⟩, ⟨0x0B, 0, 0, 0, 0⟩]

theorem accept_self_claim_consistent :
    ∃ receipt s, run self_claim "" (accept_self_claim ++ [⟨0x01, 0, 0, 0, 0⟩]) .initial = .ok receipt s ∧
      Consistent (steps self_claim 0 (accept_self_claim ++ [⟨0x01, 0, 0, 0, 0⟩]) .initial) s := by
  have hhalts : halts_with self_claim (accept_self_claim ++ [⟨0x01, 0, 0, 0, 0⟩]) (fun _ => true) := by
    decide +kernel
  obtain ⟨receipt, s, hrun, -⟩ := run_of_halts "" ⟨[], rfl⟩ hhalts fun _ _ _ _ => rfl
  exact ⟨receipt, s, hrun, (decisions_consistent _ _).2 _ _ _ hrun (by decide +kernel)⟩

/-- An accepted claim is rejected afterwards. -/
theorem decisions_not_consistent :
    ∃ receipt s, run self_claim ""
        (accept_self_claim ++ [⟨0x0C, 0, 0, 0, 0⟩, ⟨0x01, 0, 0, 0, 0⟩]) .initial = .ok receipt s ∧
      0 ∈ s.accepted_claims ∧ 0 ∈ s.rejected_claims := by
  have hhalts : halts_with self_claim
      (accept_self_claim ++ [⟨0x0C, 0, 0, 0, 0⟩, ⟨0x01, 0, 0, 0, 0⟩])
      (fun s => 0 ∈ s.accepted_claims ∧ 0 ∈ s.rejected_claims) := by
    decide +kernel
  obtain ⟨receipt, s, hrun, hdecided⟩ := run_of_halts "" ⟨[], rfl⟩ hhalts fun _ _ _ _ => rfl
  exact ⟨receipt, s, hrun, of_decide_eq_true hdecided⟩

end Bogbin.Vm
