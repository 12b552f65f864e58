import Bogbin.Bogvm.Swarm
import Bogbin.Bogvm.LedgerAppend
import Bogbin.Library.Ranking

/-!
# The budget of a tournament

What a tournament over well typed proposals does: it keeps to its budget, selects the best cell and
changes the session by one write (`SwarmLaw`).  Two slips break this.  The running total counts
blocked proposals, so a negative cost makes room that later ones use up; and the path check of the
tournament lets absolute paths through, for which the write raises.
-/

namespace Bogbin.Bogvm

open StateExcept

/-! ## The inputs -/

def int_field (proposal : Dict) (key : String) : ℤ :=
  ((Dict.get proposal key).bind int_value).getD 0

def text_field (proposal : Dict) (key : String) : String :=
  match Dict.get proposal key with
  | some (.str s) => s
  | _ => ""

/-- Integer cost, memory and score, and string action, path and data. -/
structure TypedProposal (proposal : Dict) : Prop where
  int : ∀ key ∈ ["cost", "memory", "score"],
    Dict.get proposal key = some (.int (int_field proposal key))
  str : ∀ key ∈ ["action", "path", "data"],
    Dict.get proposal key = some (.str (text_field proposal key))

/-- The limits that a budget sets are non-negative integers. -/
def TypedBudget (budget : Dict) : Prop :=
  ∀ field ∈ budget, field.1 ∈ ["cells", "cost", "memory"] → ∃ n : ℕ, field.2 = .int n

def limit (budget : Dict) (key : String) : ℤ := int_field (swarm_budget budget) key

/-- The path of the proposal passes the check of the tournament. -/
def path_passes (path : String) : Bool := path ≠ "" ∧ ['.', '.'] ∉ path.toList.splitOn '/'

/-- The proposal passes the checks at a running total. -/
structure ProposalPasses (budget : Dict) (total : ℤ) (proposal : Dict) : Prop where
  action : text_field proposal "action" = "write" ∨ text_field proposal "action" = "reject"
  cost : 0 ≤ int_field proposal "cost"
  total : total ≤ limit budget "cost"
  memory : int_field proposal "memory" ≤ limit budget "memory"
  path : text_field proposal "action" = "write" → path_passes (text_field proposal "path") = true

/-- The evaluated proposals. -/
def evaluated (budget : Dict) (proposals : List Dict) : List Dict :=
  proposals.take (limit budget "cells").toNat

/-- The failures of a proposal at a running total. -/
def failures_at (budget : Dict) (index : ℕ) (total : ℤ) (proposal : Dict) : List Failure :=
  let action := text_field proposal "action"
  failure_if (action ≠ "write" ∧ action ≠ "reject")
      (.str action, "candidate action is outside verifier surface") ++
    failure_if (int_field proposal "cost" < 0 ∨ limit budget "cost" < total)
      (.str (toString index), "candidate exceeds swarm cost budget") ++
    failure_if (limit budget "memory" < int_field proposal "memory")
      (.str (toString index), "candidate exceeds swarm memory budget") ++
    failure_if (action = "write" ∧ path_passes (text_field proposal "path") = false)
      (.str (text_field proposal "path"), "candidate write path is unsafe")

def cell_at (budget : Dict) (index : ℕ) (total : ℤ) (proposal : Dict) : Cell :=
  ⟨index, proposal, int_field proposal "score", int_field proposal "cost",
    failures_at budget index total proposal⟩

/-- The cells of the proposals from a running total on. -/
def cells_from (budget : Dict) : ℕ → ℤ → List Dict → List Cell
  | _, _, [] => []
  | index, total, proposal :: rest =>
    let total := total + int_field proposal "cost"
    cell_at budget index total proposal :: cells_from budget (index + 1) total rest

/-- The cells of a tournament. -/
def judged (budget : Dict) (proposals : List Dict) : List Cell :=
  cells_from budget 1 0 (evaluated budget proposals)

section Judged

variable {floats : Floats} {budget proposal : Dict} {proposals : List Dict} {index : ℕ} {total : ℤ}

theorem get_swarm_budget (h : TypedBudget budget) {key : String}
    (hkey : key ∈ ["cells", "cost", "memory"]) :
    ∃ n : ℕ, Dict.get (swarm_budget budget) key = some (.int n) := by
  have hfold (d : Dict) (fields : Dict)
      (hfields : ∀ field ∈ fields, field.1 ∈ ["cells", "cost", "memory"] → ∃ n : ℕ, field.2 = .int n)
      (hd : ∃ n : ℕ, Dict.get d key = some (.int n)) :
      ∃ n : ℕ, Dict.get (fields.foldl (fun d field => Dict.set d field.1 field.2) d) key =
        some (.int n) := by
    induction fields generalizing d with
    | nil => exact hd
    | cons field fields ih =>
      apply ih _ fun f hf => hfields f (List.mem_cons_of_mem _ hf)
      rw [Dict.get_set]
      split_ifs with hsame
      · obtain ⟨n, hn⟩ := hfields field List.mem_cons_self (hsame ▸ hkey)
        exact ⟨n, by rw [hn]⟩
      · exact hd
  apply hfold _ budget h
  simp only [List.mem_cons, List.not_mem_nil, or_false] at hkey
  rcases hkey with rfl | rfl | rfl
  · exact ⟨32, by simp [Dict.of, Dict.get_set]⟩
  · exact ⟨10000, by simp [Dict.of, Dict.get_set]⟩
  · exact ⟨64 * 1024 * 1024, by simp [Dict.of]⟩

theorem get_limit (h : TypedBudget budget) {key : String}
    (hkey : key ∈ ["cells", "cost", "memory"]) :
    Dict.get (swarm_budget budget) key = some (.int (limit budget key)) ∧ 0 ≤ limit budget key := by
  obtain ⟨n, hn⟩ := get_swarm_budget h hkey
  have hlimit : limit budget key = n := by
    rw [limit, int_field, hn]
    rfl
  exact ⟨by rw [hn, hlimit], by rw [hlimit]; exact Int.natCast_nonneg n⟩

theorem over_limit_int (n m : ℤ) : over_limit floats n (.int m) = .ok (decide (m < n)) := by
  have hlt : Number.of_int m < Number.of_int n ↔ m < n := by
    rw [Number.of_int, Number.of_int, WithBot.coe_lt_coe, WithTop.coe_lt_coe, Int.cast_lt]
  rw [over_limit, number, ok_bind, exceeds]
  exact congrArg Except.ok (decide_eq_decide.mpr hlt)

theorem unsafe_write_path_str (path : String) :
    unsafe_write_path (.str path) = .ok (!path_passes path) := by
  unfold unsafe_write_path path_passes
  by_cases hempty : path = ""
  · simp [hempty]
  · by_cases hparts : ['.', '.'] ∈ path.toList.splitOn '/'
    · simp [hempty, hparts]
    · simp [hempty, hparts]

theorem evaluate_typed (hproposal : TypedProposal proposal) (hbudget : TypedBudget budget) :
    evaluate floats (swarm_budget budget) index total proposal =
      .ok (cell_at budget index (total + int_field proposal "cost") proposal,
        total + int_field proposal "cost") := by
  have hcost := hproposal.int "cost" (by simp)
  have hmemory := hproposal.int "memory" (by simp)
  have hscore := hproposal.int "score" (by simp)
  have haction := hproposal.str "action" (by simp)
  have hpath := hproposal.str "path" (by simp)
  have hlimit := (@get_limit _ hbudget "cost" (by simp)).1
  have hlimit' := (@get_limit _ hbudget "memory" (by simp)).1
  have hover : over_cost floats (swarm_budget budget) (int_field proposal "cost")
        (total + int_field proposal "cost") =
      .ok (decide (int_field proposal "cost" < 0 ∨
        limit budget "cost" < total + int_field proposal "cost")) := by
    unfold over_cost
    by_cases hneg : int_field proposal "cost" < 0
    · simp only [hneg, if_true, true_or, decide_true]
    · simp only [hneg, if_false, false_or, Dict.item, hlimit, ok_bind, over_limit_int]
  have hunsafe : unsafe_write (.str (text_field proposal "action"))
        (.str (text_field proposal "path")) =
      .ok (decide (text_field proposal "action" = "write" ∧
        path_passes (text_field proposal "path") = false)) := by
    unfold unsafe_write
    by_cases hwrite : text_field proposal "action" = "write"
    · rw [if_pos (by rw [hwrite]), unsafe_write_path_str]
      cases path_passes (text_field proposal "path") with
      | true => simp
      | false => simp [hwrite]
    · simp only [hwrite, Json.str.injEq, if_false, false_and, decide_false]
  unfold evaluate
  simp only [hcost, hmemory, hscore, haction, hpath, Option.getD_some, py_int, ok_bind, looked_up,
    hashable, if_true, Dict.item, hlimit', over_limit_int, py_str, hover, hunsafe, ne_eq,
    Json.str.injEq, decide_eq_true_eq]
  rfl

theorem evaluate_all_typed (hproposals : ∀ p ∈ proposals, TypedProposal p)
    (hbudget : TypedBudget budget) :
    evaluate_all floats (swarm_budget budget) index total proposals =
      .ok (cells_from budget index total proposals) := by
  induction proposals generalizing index total with
  | nil => rfl
  | cons p proposals ih =>
    rw [evaluate_all, evaluate_typed (hproposals p List.mem_cons_self) hbudget, ok_bind]
    dsimp only
    rw [ih fun q hq => hproposals q (List.mem_cons_of_mem p hq), ok_bind]
    rfl

theorem take_cells_typed (hbudget : TypedBudget budget) :
    take_cells ((Dict.get (swarm_budget budget) "cells").getD .null) proposals =
      .ok (evaluated budget proposals) := by
  obtain ⟨hget, hle⟩ := @get_limit _ hbudget "cells" (by simp)
  rw [hget, Option.getD_some, take_cells]
  · simp only [int_value, if_pos hle]
    rfl
  · nofun

theorem execution_status_completed {failures : List Failure} :
    execution_status failures = "completed" ↔ failures = [] := by
  unfold execution_status
  split_ifs with h
  · simp [h]
  · simp [h]

/-- A cell is completed exactly when its proposal passes at its running total. -/
theorem completed_cell_at :
    (cell_at budget index total proposal).completed = true ↔ ProposalPasses budget total proposal := by
  rw [Cell.completed, decide_eq_true_eq, execution_status_completed]
  simp only [cell_at, failures_at, List.append_eq_nil_iff, failure_if_eq_nil]
  constructor
  · rintro ⟨⟨⟨haction, hcost⟩, hmemory⟩, hpath⟩
    push Not at haction hcost hmemory hpath
    refine ⟨?_, hcost.1, hcost.2, hmemory, fun hwrite => Bool.eq_true_of_not_eq_false (hpath hwrite)⟩
    by_cases hwrite : text_field proposal "action" = "write"
    · exact .inl hwrite
    · exact .inr (haction hwrite)
  · intro h
    refine ⟨⟨⟨?_, ?_⟩, not_lt.mpr h.memory⟩, ?_⟩
    · rintro ⟨hwrite, hreject⟩
      rcases h.action with haction | haction
      · exact hwrite haction
      · exact hreject haction
    · rintro (hcost | htotal)
      · exact absurd h.cost (not_le.mpr hcost)
      · exact absurd h.total (not_le.mpr htotal)
    · rintro ⟨hwrite, hfalse⟩
      rw [h.path hwrite] at hfalse
      cases hfalse

theorem exists_cell_at {c : Cell} (h : c ∈ cells_from budget index total proposals) :
    ∃ index total, ∃ p ∈ proposals, c = cell_at budget index total p := by
  induction proposals generalizing index total with
  | nil => cases h
  | cons p proposals ih =>
    rcases List.mem_cons.mp h with rfl | h
    · exact ⟨_, _, p, List.mem_cons_self, rfl⟩
    · obtain ⟨i, t, q, hq, hc⟩ := ih h
      exact ⟨i, t, q, List.mem_cons_of_mem p hq, hc⟩

theorem length_cells_from : (cells_from budget index total proposals).length = proposals.length := by
  induction proposals generalizing index total with
  | nil => rfl
  | cons p proposals ih => rw [cells_from, List.length_cons, ih, List.length_cons]

theorem length_judged (hbudget : TypedBudget budget) :
    ((judged budget proposals).length : ℤ) ≤ limit budget "cells" := by
  have hle := (@get_limit _ hbudget "cells" (by simp)).2
  have htake := List.length_take_le (limit budget "cells").toNat proposals
  rw [judged, length_cells_from, evaluated]
  omega

/-- The costs of the cells that are completed. -/
def spent (cells : List Cell) : ℤ := ((cells.filter Cell.completed).map Cell.cost).sum

/-- Without negative costs, the completed cells cost no more than what a total leaves. -/
theorem spent_cells_from (hcost : ∀ p ∈ proposals, 0 ≤ int_field p "cost") :
    spent (cells_from budget index total proposals) ≤ max 0 (limit budget "cost" - total) := by
  induction proposals generalizing index total with
  | nil => exact le_max_left _ _
  | cons p proposals ih =>
    have hp := hcost p List.mem_cons_self
    have hrest := @ih (index + 1) (total + int_field p "cost") fun q hq =>
      hcost q (List.mem_cons_of_mem p hq)
    unfold spent at hrest ⊢
    rw [cells_from, List.filter_cons]
    split_ifs with hcompleted
    · have htotal := (completed_cell_at.mp hcompleted).total
      rw [List.map_cons, List.sum_cons]
      have hsame : (cell_at budget index (total + int_field p "cost") p).cost =
        int_field p "cost" := rfl
      omega
    · omega

end Judged

/-! ## A write -/

/-- A ledger of entries that name their hashes, and a state that can be read. -/
structure SoundSession (g : Genesis) : Prop where
  ledger : Ledgered g.ledger
  state : ∃ root files, g.opened.current_state = .ok (root, files)

/-- The sessions have the same objects and the same state. -/
structure SameStore (g g' : Genesis) : Prop where
  objects : g'.objects = g.objects
  states : g'.states = g.states
  current_root : g'.current_root = g.current_root

section Write

variable {keys : Keys} {g : Genesis} {path capability : String} {data : Bytes} {event : String}
  {receipt : Dict}

theorem opened_ledger (g : Genesis) : g.opened.ledger = g.ledger := by
  unfold Genesis.opened
  cases g.current_root with
  | none => rfl
  | some root => rfl

theorem put_object_ledger (g : Genesis) (data : Bytes) : (g.put_object data).ledger = g.ledger := by
  unfold Genesis.put_object
  split_ifs
  · rfl
  · rfl

theorem record_entry_eq_ok {entry : Dict} {g' : Genesis} :
    record_entry keys event receipt g = .ok entry g' ↔
      record keys g event receipt = .ok (entry, g') := by
  unfold record_entry
  rw [bind_of_ok get_apply]
  constructor
  · intro h
    obtain ⟨⟨signed, recorded⟩, hrecord, h⟩ := ofExcept_bind_eq_ok.mp h
    dsimp only at h
    rw [bind_of_ok set_apply] at h
    obtain ⟨rfl, rfl⟩ := EStateM.Result.ok.inj h
    exact hrecord
  · intro h
    refine ofExcept_bind_eq_ok.mpr ⟨_, h, ?_⟩
    dsimp only
    rw [bind_of_ok set_apply]
    rfl

theorem record_entry_returns (hkeys : keys.Lawful) (hledger : Ledgered g.ledger)
    (hreceipt : Recordable receipt) (hevent : event ≠ "") :
    ∃ entry ledger', record_entry keys event receipt g = .ok entry { g with ledger := ledger' } ∧
      Ledgered ledger' ∧ record keys g event receipt = .ok (entry, { g with ledger := ledger' }) := by
  obtain ⟨entry, ledger', hrecord, hledger'⟩ := record_returns hkeys hledger hreceipt hevent
  exact ⟨entry, ledger', record_entry_eq_ok.mpr hrecord, hledger', hrecord⟩

theorem recordable_write_receipt {rel object_hash before_root after_root : String} :
    Recordable (write_receipt rel capability object_hash before_root after_root) := by
  constructor
  case format =>
    rw [str_field_of_get (s := "BOGOS-Genesis-fs-write-receipt-9.0")
      (by simp [write_receipt, Dict.of, Dict.get_set])]
    decide
  case status =>
    rw [str_field_of_get (s := "completed") (by simp [write_receipt, Dict.of])]
    rfl

theorem current_manifest_eq {root : String} {files : Dict}
    (h : g.opened.current_state = .ok (root, files)) :
    Genesis.current_manifest g = .ok (root, files) g.opened := by
  unfold Genesis.current_manifest
  rw [bind_of_ok (modify_apply _), bind_of_ok get_apply, h]
  rfl

theorem fs_write_eq {rel root : String} {files : Dict} (hpath : safe_path path = .ok rel)
    (hstate : g.opened.current_state = .ok (root, files)) :
    fs_write keys path data capability g =
      record_entry keys "fs-write"
        (write_receipt rel capability (hexdigest data) (manifest_root files)
          (manifest_root (Dict.set files rel (file_entry data))))
        ((g.opened.put_object data).save_manifest (Dict.set files rel (file_entry data))).2 := by
  unfold fs_write
  rw [hpath, bind_of_ok ofExcept_ok, bind_of_ok (current_manifest_eq hstate)]
  dsimp only
  rw [bind_of_ok (modify_apply _), bind_of_ok (modify_apply _)]

/-- A write to a safe path of a sound session returns. -/
theorem fs_write_returns (hkeys : keys.Lawful) (hsession : SoundSession g) {rel : String}
    (hpath : safe_path path = .ok rel) :
    ∃ admission g', fs_write keys path data capability g = .ok admission g' ∧
      Ledgered g'.ledger ∧ Dict.get admission "execution_status" = some (.str "completed") := by
  obtain ⟨root, files, hstate⟩ := hsession.state
  have hledger : Ledgered ((g.opened.put_object data).save_manifest
      (Dict.set files rel (file_entry data))).2.ledger := by
    show Ledgered (g.opened.put_object data).ledger
    rw [put_object_ledger, opened_ledger]
    exact hsession.ledger
  obtain ⟨admission, ledger', hentry, hledger', hrecord⟩ := @record_entry_returns
    _ _ "fs-write" _ hkeys hledger (@recordable_write_receipt capability rel (hexdigest data)
      (manifest_root files) (manifest_root (Dict.set files rel (file_entry data)))) (by decide)
  refine ⟨admission, _, (fs_write_eq hpath hstate).trans hentry, hledger', ?_⟩
  rw [get_recorded hrecord (by decide)]
  simp [write_receipt, Dict.of]

theorem safe_path_of_passes (hpasses : path_passes path = true) (hrelative : is_absolute path = false) :
    ∃ rel, safe_path path = .ok rel := by
  obtain ⟨hempty, hparts⟩ := of_decide_eq_true hpasses
  have hhead : path.toList.head? ≠ some '/' := of_decide_eq_false hrelative
  unfold safe_path
  dsimp only
  rw [if_neg]
  · split_ifs
    · exact ⟨_, rfl⟩
    · exact ⟨_, rfl⟩
  · rintro (h | h | h)
    · exact hhead h
    · exact hparts (List.mem_filter.mp h).1
    · exact hempty h

theorem safe_path_of_absolute (h : is_absolute path = true) : safe_path path = .error .GenesisError := by
  unfold safe_path
  exact if_pos (.inl (of_decide_eq_true h))

end Write

/-! ## The law of a tournament -/

/-- The write of the cell is the change of the session. -/
def CellWrite (keys : Keys) (g g' : Genesis) (proposal : Dict) : Prop :=
  ∃ admission g₁, fs_write keys (text_field proposal "path") (utf8 (text_field proposal "data"))
      "BogPilotSwarm" g = .ok admission g₁ ∧ SameStore g₁ g'

/-- The receipt names the least eligible cell, whose write is the change of the session; without an
eligible cell nothing is named and nothing is changed. -/
def Selects (keys : Keys) (g g' : Genesis) (cells : List Cell) (selected : Option Json) : Prop :=
  (∃ c ∈ cells, c.eligible = true ∧ (∀ d ∈ cells, d.eligible = true → c.key ≤ d.key) ∧
    selected = some (.str c.proof_sha256) ∧ CellWrite keys g g' c.proposal) ∨
  ((∀ c ∈ cells, c.eligible = false) ∧ selected = some .null ∧ SameStore g g')

structure SwarmLaw (keys : Keys) (g : Genesis) (budget : Dict) (receipt : Dict) (g' : Genesis)
    (cells : List Cell) : Prop where
  tree : Dict.get receipt "hypothesis_tree" = some (.arr (cells.map fun c => .obj c.receipt))
  length : (cells.length : ℤ) ≤ limit budget "cells"
  cost : ∀ c ∈ cells, c.completed = true → 0 ≤ c.cost
  spent : spent cells ≤ limit budget "cost"
  selected : Selects keys g g' cells (Dict.get receipt "selected_proof_sha256")

/-- The tournament returns a receipt, and its law holds. -/
def TournamentLaw (floats : Floats) (keys : Keys) (g : Genesis) (hypothesis : String)
    (proposals : List Dict) (budget : Dict) : Prop :=
  ∃ receipt g', tournament floats keys hypothesis proposals budget g = .ok receipt g' ∧
    ∃ cells, SwarmLaw keys g budget receipt g' cells

section Law

variable {floats : Floats} {keys : Keys} {g : Genesis} {hypothesis : String} {budget : Dict}
  {proposals : List Dict} {cells : List Cell} {c : Cell}

theorem recordable_swarm_receipt {selected : Option Cell} {admission : Option Dict} :
    Recordable (swarm_receipt hypothesis budget cells selected admission) := by
  constructor
  case format =>
    rw [str_field_of_get (s := "BOGPILOT-swarm-receipt-12.0")
      (by simp [swarm_receipt, Dict.of, Dict.get_set])]
    decide
  case status =>
    rw [str_field_of_get (s := if admitted_write admission then "completed" else "blocked")
      (by simp [swarm_receipt, Dict.of])]
    cases admitted_write admission with
    | true => rfl
    | false => rfl

theorem best_cell_eq_some (h : best_cell cells = some c) :
    c ∈ cells ∧ c.eligible = true ∧ ∀ d ∈ cells, d.eligible = true → c.key ≤ d.key := by
  obtain ⟨hmem, hleast⟩ := Ranking.head_mergeSort h
  obtain ⟨hcells, heligible⟩ := List.mem_filter.mp hmem
  exact ⟨hcells, heligible, fun d hd hd' => hleast d (List.mem_filter.mpr ⟨hd, hd'⟩)⟩

theorem best_cell_eq_none (h : best_cell cells = none) : ∀ c ∈ cells, c.eligible = false := by
  intro c hc
  have hempty := Ranking.head_mergeSort_eq_none.mp h
  exact Bool.eq_false_iff.mpr (List.filter_eq_nil_iff.mp hempty c hc)

/-- The tournament over typed proposals: the judged cells, then the write of the best, then the
receipt. -/
theorem tournament_eq (hproposals : ∀ p ∈ proposals, TypedProposal p) (hbudget : TypedBudget budget) :
    tournament floats keys hypothesis proposals budget g =
      (do
        let admission ← admit_selected keys (best_cell (judged budget proposals))
        record_entry keys "pilot-swarm" (swarm_receipt hypothesis (swarm_budget budget)
          (judged budget proposals) (best_cell (judged budget proposals)) admission)) g := by
  have hevaluated : ∀ p ∈ evaluated budget proposals, TypedProposal p :=
    fun p hp => hproposals p (List.mem_of_mem_take hp)
  unfold tournament
  dsimp only
  rw [take_cells_typed hbudget, bind_of_ok ofExcept_ok, evaluate_all_typed hevaluated hbudget,
    bind_of_ok ofExcept_ok]
  rfl

/-- An eligible cell of typed proposals is a write whose path passes. -/
theorem write_of_eligible (hproposals : ∀ p ∈ proposals, TypedProposal p)
    (hc : c ∈ judged budget proposals) (h : c.eligible = true) :
    TypedProposal c.proposal ∧ path_passes (text_field c.proposal "path") = true := by
  obtain ⟨index, total, p, hp, rfl⟩ := exists_cell_at hc
  have htyped : TypedProposal p := hproposals p (List.mem_of_mem_take hp)
  obtain ⟨hcompleted, haction⟩ := Bool.and_eq_true_iff.mp h
  have hpasses := completed_cell_at.mp hcompleted
  refine ⟨htyped, hpasses.path (hpasses.action.resolve_right fun hreject => ?_)⟩
  have hget := htyped.str "action" (by simp)
  rw [hreject] at hget
  exact absurd hget (of_decide_eq_true haction)

/-- The admission of a typed proposal is its write. -/
theorem admit_cell_eq {proposal : Dict} (h : TypedProposal proposal) {rel : String}
    (hpath : safe_path (text_field proposal "path") = .ok rel) :
    admit_cell keys proposal g = fs_write keys (text_field proposal "path")
      (utf8 (text_field proposal "data")) "BogPilotSwarm" g := by
  unfold admit_cell
  rw [h.str "path" (by simp), h.str "data" (by simp), Option.getD_some, Option.getD_some]
  dsimp only
  rw [hpath, bind_of_ok ofExcept_ok]
  rfl

theorem tournament_raises (hproposals : ∀ p ∈ proposals, TypedProposal p)
    (hbudget : TypedBudget budget) (hbest : best_cell (judged budget proposals) = some c)
    (habsolute : is_absolute (text_field c.proposal "path") = true) :
    tournament floats keys hypothesis proposals budget g = .error .GenesisError g := by
  obtain ⟨hmem, heligible, -⟩ := best_cell_eq_some hbest
  have htyped := (write_of_eligible hproposals hmem heligible).1
  have hadmit : admit_cell keys c.proposal g = .error .GenesisError g := by
    unfold admit_cell
    rw [htyped.str "path" (by simp), Option.getD_some]
    dsimp only
    rw [safe_path_of_absolute habsolute, bind_of_error ofExcept_error]
  rw [tournament_eq hproposals hbudget, hbest]
  refine bind_of_error ?_
  exact bind_of_error hadmit

theorem not_law_of_absolute (hproposals : ∀ p ∈ proposals, TypedProposal p)
    (hbudget : TypedBudget budget) (hbest : best_cell (judged budget proposals) = some c)
    (habsolute : is_absolute (text_field c.proposal "path") = true) :
    ¬ TournamentLaw floats keys g hypothesis proposals budget := by
  rintro ⟨receipt, g', hreturns, -⟩
  rw [tournament_raises hproposals hbudget hbest habsolute] at hreturns
  cases hreturns

/-- What the receipt of a tournament says. -/
theorem get_swarm_receipt {admission : Option Dict} {receipt : Dict} {g₁ g' : Genesis}
    (hrecord : record keys g₁ "pilot-swarm" (swarm_receipt hypothesis (swarm_budget budget) cells
      (best_cell cells) admission) = .ok (receipt, g')) :
    Dict.get receipt "hypothesis_tree" = some (.arr (cells.map fun c => .obj c.receipt)) ∧
      Dict.get receipt "selected_proof_sha256" =
        some (opt_str ((best_cell cells).map Cell.proof_sha256)) := by
  rw [get_recorded hrecord (by decide), get_recorded hrecord (by decide)]
  constructor
  · simp [swarm_receipt, Dict.of, Dict.get_set]
  · simp [swarm_receipt, Dict.of, Dict.get_set]

theorem sameStore_recorded {receipt entry : Dict} {event : String} {g₁ g' : Genesis}
    (h : record keys g₁ event receipt = .ok (entry, g')) : SameStore g₁ g' := by
  obtain ⟨found, previous, -, -, -, -, rfl⟩ := record_eq_ok.mp h
  exact ⟨rfl, rfl, rfl⟩

theorem spent_judged (hbudget : TypedBudget budget)
    (hcost : ∀ p ∈ evaluated budget proposals, 0 ≤ int_field p "cost") :
    spent (judged budget proposals) ≤ limit budget "cost" := by
  have hle := (@get_limit _ hbudget "cost" (by simp)).2
  have hspent := @spent_cells_from budget (evaluated budget proposals) 1 0 hcost
  rw [sub_zero, max_eq_right hle] at hspent
  exact hspent

theorem cost_of_completed (hc : c ∈ judged budget proposals) (h : c.completed = true) :
    0 ≤ c.cost := by
  obtain ⟨index, total, p, -, rfl⟩ := exists_cell_at hc
  exact (completed_cell_at.mp h).cost

theorem law_of_relative (hkeys : keys.Lawful) (hsession : SoundSession g)
    (hproposals : ∀ p ∈ proposals, TypedProposal p) (hbudget : TypedBudget budget)
    (hcost : ∀ p ∈ evaluated budget proposals, 0 ≤ int_field p "cost")
    (hrelative : ∀ c, best_cell (judged budget proposals) = some c →
      is_absolute (text_field c.proposal "path") = false) :
    TournamentLaw floats keys g hypothesis proposals budget := by
  have hlaw {receipt : Dict} {g₁ g' : Genesis} {admission : Option Dict}
      (hrecord : record keys g₁ "pilot-swarm" (swarm_receipt hypothesis (swarm_budget budget)
        (judged budget proposals) (best_cell (judged budget proposals)) admission) =
          .ok (receipt, g'))
      (hselects : Selects keys g g' (judged budget proposals)
        (some (opt_str ((best_cell (judged budget proposals)).map Cell.proof_sha256)))) :
      SwarmLaw keys g budget receipt g' (judged budget proposals) := by
    obtain ⟨htree, hselected⟩ := get_swarm_receipt hrecord
    exact ⟨htree, length_judged hbudget, fun c hc hcompleted => cost_of_completed hc hcompleted,
      spent_judged hbudget hcost, hselected ▸ hselects⟩
  unfold TournamentLaw
  rw [tournament_eq hproposals hbudget]
  cases hbest : best_cell (judged budget proposals) with
  | none =>
    obtain ⟨receipt, ledger', hentry, -, hrecord⟩ := @record_entry_returns _ _ "pilot-swarm" _
      hkeys hsession.ledger (@recordable_swarm_receipt hypothesis (swarm_budget budget)
        (judged budget proposals) none none) (by decide)
    refine ⟨receipt, _, hentry, judged budget proposals, hlaw (hbest ▸ hrecord) (.inr ?_)⟩
    rw [hbest]
    exact ⟨best_cell_eq_none hbest, rfl, sameStore_recorded hrecord⟩
  | some c =>
    obtain ⟨hmem, heligible, hleast⟩ := best_cell_eq_some hbest
    obtain ⟨htyped, hpasses⟩ := write_of_eligible hproposals hmem heligible
    obtain ⟨rel, hrel⟩ := safe_path_of_passes hpasses (hrelative c hbest)
    obtain ⟨admission, g₁, hwrite, hledger, -⟩ := @fs_write_returns _ _ _ "BogPilotSwarm"
      (utf8 (text_field c.proposal "data")) hkeys hsession _ hrel
    obtain ⟨receipt, ledger', hentry, -, hrecord⟩ := @record_entry_returns _ _ "pilot-swarm" _
      hkeys hledger (@recordable_swarm_receipt hypothesis (swarm_budget budget)
        (judged budget proposals) (some c) (some admission)) (by decide)
    have hadmit : admit_selected keys (some c) g = .ok (some admission) g₁ :=
      (bind_of_ok (f := fun a => pure (some a)) ((admit_cell_eq htyped hrel).trans hwrite)).trans rfl
    refine ⟨receipt, _, (bind_of_ok hadmit).trans hentry, judged budget proposals,
      hlaw (hbest ▸ hrecord) (.inl ⟨c, hmem, heligible, hleast, ?_, ?_⟩)⟩
    · rw [hbest]
      rfl
    · exact ⟨admission, g₁, hwrite, sameStore_recorded hrecord⟩

end Law

/-! ## Tournaments -/

/-- A proposal to write to a path at a cost. -/
def write_proposal (path : String) (cost : ℤ) : Dict :=
  Dict.of [("action", .str "write"), ("path", .str path), ("data", .str "x"), ("cost", .int cost),
    ("memory", .int 0), ("score", .int 1)]

theorem typed_write_proposal (path : String) (cost : ℤ) : TypedProposal (write_proposal path cost) := by
  constructor
  · intro key hkey
    simp only [List.mem_cons, List.not_mem_nil, or_false] at hkey
    rcases hkey with rfl | rfl | rfl
    · simp [write_proposal, Dict.of, Dict.get_set, int_field, int_value]
    · simp [write_proposal, Dict.of, Dict.get_set, int_field, int_value]
    · simp [write_proposal, Dict.of, int_field, int_value]
  · intro key hkey
    simp only [List.mem_cons, List.not_mem_nil, or_false] at hkey
    rcases hkey with rfl | rfl | rfl
    · simp [write_proposal, Dict.of, Dict.get_set, text_field]
    · simp [write_proposal, Dict.of, Dict.get_set, text_field]
    · simp [write_proposal, Dict.of, Dict.get_set, text_field]

theorem text_write_proposal (path : String) (cost : ℤ) :
    text_field (write_proposal path cost) "action" = "write" ∧
      text_field (write_proposal path cost) "path" = path := by
  simp [write_proposal, Dict.of, Dict.get_set, text_field]

theorem int_write_proposal (path : String) (cost : ℤ) :
    int_field (write_proposal path cost) "cost" = cost ∧
      int_field (write_proposal path cost) "memory" = 0 := by
  simp [write_proposal, Dict.of, Dict.get_set, int_field, int_value]

theorem limits_of_defaults : limit [] "cells" = 32 ∧ limit [] "cost" = 10000 ∧
    limit [] "memory" = 64 * 1024 * 1024 := by
  simp [limit, swarm_budget, Dict.of, Dict.get_set, int_field, int_value]

theorem typedBudget_nil : TypedBudget [] := fun _ h => absurd h List.not_mem_nil

theorem soundSession_fresh : SoundSession Genesis.fresh := by
  refine ⟨ledgered_nil, manifest_root [], [], ?_⟩
  simp [Genesis.opened, Genesis.fresh, Genesis.save_manifest, Genesis.set_current_root,
    Genesis.current_state]

theorem typed_write_proposals {proposals : List (String × ℤ)} :
    ∀ p ∈ proposals.map fun x => write_proposal x.1 x.2, TypedProposal p := by
  intro p hp
  obtain ⟨x, -, rfl⟩ := List.mem_map.mp hp
  exact typed_write_proposal x.1 x.2

/-- The write of a path that passes passes at a total within the default budget. -/
theorem passes_write_proposal {path : String} {cost total : ℤ} (hcost : 0 ≤ cost)
    (htotal : total ≤ 10000) (hpath : path_passes path = true) :
    ProposalPasses [] total (write_proposal path cost) := by
  obtain ⟨-, hlimit, hlimit'⟩ := limits_of_defaults
  constructor
  case action => exact .inl (text_write_proposal path cost).1
  case cost => rwa [(int_write_proposal path cost).1]
  case total => rwa [hlimit]
  case memory => rw [(int_write_proposal path cost).2, hlimit']; norm_num
  case path => exact fun _ => by rwa [(text_write_proposal path cost).2]

theorem eligible_write_proposal {path : String} {cost total : ℤ} {index : ℕ} (hcost : 0 ≤ cost)
    (htotal : total ≤ 10000) (hpath : path_passes path = true) :
    (cell_at [] index total (write_proposal path cost)).eligible = true := by
  refine Bool.and_eq_true_iff.mpr
    ⟨completed_cell_at.mpr (passes_write_proposal hcost htotal hpath), ?_⟩
  show decide (Dict.get (write_proposal path cost) "action" ≠ some (.str "reject")) = true
  rw [(typed_write_proposal path cost).str "action" (by simp), (text_write_proposal path cost).1]
  decide

end Bogbin.Bogvm
