import Bogbin.Vm.Effect

/-!
# Runs of the machine

`Reached` are the states of a run, each with the steps before it.  A run that returns a receipt ends
in a reached state (`run_reaches`).
-/

namespace Bogbin.Vm

open Bogvm StateExcept
open Std (TreeMap)

namespace VMState

variable (s : VMState) (n : ℤ) (opcode : String) (details : List (String × Json))

@[simp] theorem logged_verifier_results :
    (s.logged n opcode details).verifier_results = s.verifier_results := rfl

@[simp] theorem logged_accepted_claims :
    (s.logged n opcode details).accepted_claims = s.accepted_claims := rfl

@[simp] theorem logged_rejected_claims :
    (s.logged n opcode details).rejected_claims = s.rejected_claims := rfl

@[simp] theorem logged_quarantined_claims :
    (s.logged n opcode details).quarantined_claims = s.quarantined_claims := rfl

@[simp] theorem logged_claim_table :
    (s.logged n opcode details).claim_table = s.claim_table := rfl

@[simp] theorem logged_node_table :
    (s.logged n opcode details).node_table = s.node_table := rfl

@[simp] theorem logged_edge_table :
    (s.logged n opcode details).edge_table = s.edge_table := rfl

@[simp] theorem logged_adjacency_out :
    (s.logged n opcode details).adjacency_out = s.adjacency_out := rfl

@[simp] theorem logged_adjacency_in :
    (s.logged n opcode details).adjacency_in = s.adjacency_in := rfl

@[simp] theorem logged_data_blocks :
    (s.logged n opcode details).data_blocks = s.data_blocks := rfl

@[simp] theorem logged_data_hash_results :
    (s.logged n opcode details).data_hash_results = s.data_hash_results := rfl

@[simp] theorem logged_accepted_data_blocks :
    (s.logged n opcode details).accepted_data_blocks = s.accepted_data_blocks := rfl

@[simp] theorem logged_rejected_data_blocks :
    (s.logged n opcode details).rejected_data_blocks = s.rejected_data_blocks := rfl

end VMState

/-- An executed instruction with the state before it. -/
structure Step where
  op : Op
  instr : Instruction
  before : VMState

/-- The states of a run, with the steps that lead to them. -/
inductive Reached (manifest : Dict) : List Step → VMState → Prop
  | start : Reached manifest [] .initial
  | step {past : List Step} {s s' : VMState} {op : Op} {instr : Instruction}
      (reached : Reached manifest past s) (running : ∀ step ∈ past, step.op ≠ .HALT)
      (named : OP_NAMES instr.opcode = some op)
      (call : execute manifest past.length instr op s = .ok () s') :
      Reached manifest (past ++ [⟨op, instr, s⟩]) s'

/-- The states of a run of these instructions. -/
def Runs (manifest : Dict) (instructions : List Instruction) (past : List Step) (s : VMState) : Prop :=
  Reached manifest past s ∧ past.map (·.instr) <+: instructions

/-- The steps that a run completes from a state on. -/
def steps (manifest : Dict) : ℕ → List Instruction → VMState → List Step
  | _, [], _ => []
  | pc, instr :: rest, s =>
    match OP_NAMES instr.opcode with
    | none => []
    | some op =>
      match execute manifest pc instr op s with
      | .error _ _ => []
      | .ok _ s' => ⟨op, instr, s⟩ :: (if op = .HALT then [] else steps manifest (pc + 1) rest s')

section Loop

variable {manifest : Dict} {instructions : List Instruction} {past : List Step} {s s' : VMState}

theorem steps_of_call {pc : ℕ} {instr : Instruction} {op : Op} (named : OP_NAMES instr.opcode = some op)
    (call : execute manifest pc instr op s = .ok () s') :
    steps manifest pc (instr :: instructions) s =
      ⟨op, instr, s⟩ :: (if op = .HALT then [] else steps manifest (pc + 1) instructions s') := by
  rw [steps, named]
  dsimp only
  rw [call]

theorem not_halt_append {last : Step} (running : ∀ step ∈ past, step.op ≠ .HALT)
    (h : last.op ≠ .HALT) : ∀ step ∈ past ++ [last], step.op ≠ .HALT := by
  intro step hmem
  rcases List.mem_append.mp hmem with hmem | hmem
  · exact running step hmem
  · rw [List.mem_singleton.mp hmem]
    exact h

theorem loop_reaches {n : ℕ} (h : loop manifest past.length instructions s = .ok n s')
    (hs : Reached manifest past s) (running : ∀ step ∈ past, step.op ≠ .HALT) :
    Reached manifest (past ++ steps manifest past.length instructions s) s' ∧
      (steps manifest past.length instructions s).map (·.instr) <+: instructions := by
  induction instructions generalizing past s with
  | nil => cases h
  | cons instr rest ih =>
    unfold loop at h
    obtain ⟨op, hop, hrest⟩ := ofExcept_bind_eq_ok.mp h
    obtain ⟨u, s₁, hcall, hrest⟩ := StateExcept.bind_eq_ok.mp hrest
    have named := require_eq_ok.mp hop
    have hstep := Reached.step hs running named hcall
    rw [steps_of_call named hcall]
    split_ifs at hrest with hhalt
    · obtain ⟨-, rfl⟩ := EStateM.Result.ok.inj hrest
      rw [if_pos hhalt]
      exact ⟨hstep, List.prefix_append [instr] rest⟩
    · have hlength : past.length + 1 = (past ++ [Step.mk op instr s]).length := by simp
      rw [hlength] at hrest
      obtain ⟨hreached, hinit⟩ := ih hrest hstep (not_halt_append running hhalt)
      rw [if_neg hhalt, hlength]
      constructor
      · rwa [List.append_assoc] at hreached
      · rw [List.map_cons]
        exact List.cons_prefix_cons.mpr ⟨rfl, hinit⟩

/-- A run that returns a receipt ends in a reached state, up to its last event. -/
theorem run_reaches {program_hash : String} {receipt : Dict}
    (h : run manifest program_hash instructions .initial = .ok receipt s') :
    ∃ s, Runs manifest instructions (steps manifest 0 instructions .initial) s ∧
      (s' = s ∨ ∃ n opcode details, s' = s.logged n opcode details) := by
  unfold run at h
  obtain ⟨n, s, hloop, h⟩ := StateExcept.bind_eq_ok.mp h
  have hreached := @loop_reaches _ _ [] _ _ _ hloop .start (by simp)
  rw [bind_of_ok get_apply] at h
  refine ⟨s, hreached, ?_⟩
  split_ifs at h with hemitted
  · rw [bind_of_ok log_apply] at h
    exact .inr ⟨_, _, _, (reading_eq_ok.mp h).2⟩
  · exact .inl (reading_eq_ok.mp h).2

/-- What a step with a property keeps, every run whose steps have the property keeps. -/
theorem Reached.invariant {Inv : List Step → VMState → Prop} {Clear : List Step → Step → Prop}
    (initial : Inv [] .initial)
    (keeps : ∀ {past s s' op instr}, Inv past s → Clear past ⟨op, instr, s⟩ →
      Executed manifest instr op s s' → Inv (past ++ [⟨op, instr, s⟩]) s')
    (h : Reached manifest past s) (clear : ∀ before step, before ++ [step] <+: past → Clear before step) :
    Inv past s := by
  induction h with
  | start => exact initial
  | step reached running named call ih =>
    have hpast := ih fun before step hinit =>
      clear before step (hinit.trans (List.prefix_append _ _))
    exact keeps hpast (clear _ _ (List.prefix_refl _)) (execute_ok call)

end Loop

/-! ## Sorted sets -/

@[simp] theorem mem_add_sorted {ids : List ℕ} {key id : ℕ} :
    id ∈ add_sorted ids key ↔ id ∈ ids ∨ id = key := by
  unfold add_sorted
  split_ifs with hmem
  · constructor
    · exact .inl
    · rintro (h | rfl)
      · exact h
      · exact hmem
  · rw [List.mem_mergeSort, List.mem_append, List.mem_singleton]

/-! ## The receipt -/

section Receipt

variable {manifest : Dict} {instructions : List Instruction} {past : List Step} {s s' : VMState}

/-- Every claim about which there is a decision has been created. -/
structure Named (s : VMState) : Prop where
  accepted : ∀ claim ∈ s.accepted_claims, claim ∈ s.claim_table
  rejected : ∀ claim ∈ s.rejected_claims, claim ∈ s.claim_table
  quarantined : ∀ claim ∈ s.quarantined_claims, claim ∈ s.claim_table

theorem named_initial : Named .initial :=
  ⟨fun _ hmem => (List.not_mem_nil hmem).elim, fun _ hmem => (List.not_mem_nil hmem).elim,
    fun _ hmem => (List.not_mem_nil hmem).elim⟩

theorem named_add {ids : List ℕ} {id : ℕ} (h : ∀ claim ∈ ids, claim ∈ s.claim_table)
    (claimed : id ∈ s.claim_table) : ∀ claim ∈ add_sorted ids id, claim ∈ s.claim_table := by
  intro claim hmem
  rcases mem_add_sorted.mp hmem with hmem | rfl
  · exact h claim hmem
  · exact claimed

theorem named_step {op : Op} {instr : Instruction} (h : Named s)
    (executed : Executed manifest instr op s s') : Named s' := by
  obtain ⟨s₁, n, opcode, details, heffect, rfl⟩ := executed
  cases heffect with
  | @create_claim name _ _ _ =>
    have hgrow : ∀ claim ∈ s.claim_table,
        claim ∈ s.claim_table.insert instr.target ⟨instr.target, name, instr.source, instr.param⟩ :=
      fun claim hmem => TreeMap.mem_insert.mpr (.inr hmem)
    exact ⟨fun claim hmem => hgrow claim (h.accepted claim hmem),
      fun claim hmem => hgrow claim (h.rejected claim hmem),
      fun claim hmem => hgrow claim (h.quarantined claim hmem)⟩
  | accept claimed _ => exact ⟨named_add h.accepted claimed, h.rejected, h.quarantined⟩
  | repair claimed _ =>
    exact ⟨h.accepted, named_add h.rejected claimed, named_add h.quarantined claimed⟩
  | reject claimed => exact ⟨h.accepted, named_add h.rejected claimed, h.quarantined⟩
  | quarantine claimed => exact ⟨h.accepted, h.rejected, named_add h.quarantined claimed⟩
  | _ => exact ⟨h.accepted, h.rejected, h.quarantined⟩

theorem reached_named (h : Reached manifest past s) : Named s :=
  @Reached.invariant manifest past s (fun _ => Named) (fun _ _ => True) named_initial
    (fun h _ => named_step h) h fun _ _ _ => trivial

theorem names_ok {ids : List ℕ} (h : ∀ claim ∈ ids, claim ∈ s.claim_table) :
    ∃ names, ids.mapM s.claim_name = .ok names := by
  apply exists_mapM_eq_ok
  intro claim hmem
  obtain ⟨found, hfound⟩ := mem_iff_getElem?.mp (h claim hmem)
  exact ⟨found.name, claim_name_eq_ok.mpr ⟨found, hfound, rfl⟩⟩

/-- The table of a manifest is an object. -/
def HasTable (manifest : Dict) (table : String) : Prop :=
  ∃ fields, Dict.get manifest table = some (.obj fields)

theorem table_ok {table : String} {fields : Dict} (h : Dict.get manifest table = some (.obj fields)) :
    (Dict.item manifest table >>= as_dict) = .ok fields := by
  rw [Dict.item_eq_ok.mpr h]
  rfl

theorem block_name_ok (h : HasTable manifest "data_blocks") (id : ℕ) :
    ∃ name, VMState.block_name manifest id = .ok name := by
  obtain ⟨fields, hfields⟩ := h
  unfold VMState.block_name
  rw [table_ok hfields]
  exact ⟨_, rfl⟩

/-- A state in which every decided claim was created has a receipt. -/
theorem receipt_exists (program_hash : String) (h : Named s) (htable : HasTable manifest "data_blocks") :
    ∃ receipt, s.receipt manifest program_hash = .ok receipt := by
  obtain ⟨accepted, haccepted⟩ := names_ok h.accepted
  obtain ⟨rejected, hrejected⟩ := names_ok h.rejected
  obtain ⟨quarantined, hquarantined⟩ := names_ok h.quarantined
  obtain ⟨accepted_data, haccepted_data⟩ :=
    exists_mapM_eq_ok (l := s.accepted_data_blocks) fun id _ => block_name_ok htable id
  obtain ⟨rejected_data, hrejected_data⟩ :=
    exists_mapM_eq_ok (l := s.rejected_data_blocks) fun id _ => block_name_ok htable id
  unfold VMState.receipt
  rw [haccepted, hrejected, hquarantined, haccepted_data, hrejected_data]
  exact ⟨_, rfl⟩

/-- A run that halts returns its receipt. -/
theorem run_of_loop {n : ℕ} (program_hash : String) (htable : HasTable manifest "data_blocks")
    (hloop : loop manifest 0 instructions .initial = .ok n s) :
    ∃ receipt s', run manifest program_hash instructions .initial = .ok receipt s' ∧
      (s' = s ∨ ∃ n opcode details, s' = s.logged n opcode details) := by
  have hnamed := reached_named (@loop_reaches _ _ [] _ _ _ hloop .start (by simp)).1
  unfold run
  rw [bind_of_ok hloop, bind_of_ok get_apply]
  split_ifs with hemitted
  · rw [bind_of_ok log_apply]
    obtain ⟨receipt, hreceipt⟩ := receipt_exists (s := s.logged n "AUTO_RECEIPT"
      [("result", .str "receipt_emitted_by_vm")]) program_hash
      ⟨hnamed.accepted, hnamed.rejected, hnamed.quarantined⟩ htable
    exact ⟨receipt, _, reading_eq_ok.mpr ⟨hreceipt, rfl⟩, .inr ⟨_, _, _, rfl⟩⟩
  · obtain ⟨receipt, hreceipt⟩ := receipt_exists program_hash hnamed htable
    exact ⟨receipt, _, reading_eq_ok.mpr ⟨hreceipt, rfl⟩, .inl rfl⟩

/-- The run halts in a state with this property. -/
def halts_with (manifest : Dict) (instructions : List Instruction) (p : VMState → Bool) : Bool :=
  match loop manifest 0 instructions .initial with
  | .ok _ s => p s
  | .error _ _ => false

theorem run_of_halts {p : VMState → Bool} (program_hash : String)
    (htable : HasTable manifest "data_blocks") (hhalts : halts_with manifest instructions p = true)
    (hlog : ∀ s n opcode details, p (s.logged n opcode details) = p s) :
    ∃ receipt s, run manifest program_hash instructions .initial = .ok receipt s ∧ p s = true := by
  unfold halts_with at hhalts
  split at hhalts
  · rename_i n s hloop
    obtain ⟨receipt, s', hrun, heq⟩ := run_of_loop program_hash htable hloop
    refine ⟨receipt, s', hrun, ?_⟩
    rcases heq with rfl | ⟨n, opcode, details, rfl⟩
    · exact hhalts
    · rw [hlog, hhalts]
  · cases hhalts

end Receipt

end Bogbin.Vm
