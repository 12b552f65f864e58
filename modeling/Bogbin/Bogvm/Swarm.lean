import Bogbin.Bogvm.Compare
import Bogbin.Bogvm.Operations
import Bogbin.Bogvm.Text
import Bogbin.Library.Ranking

/-!
# The swarm

`BogPilotSwarm`: a tournament that evaluates proposals under a budget, admits the write of the best
cell to the session, and the replay of its receipt.  What the text of a float stands for is a
parameter.  The cells of a replayed receipt are arbitrary values, so their sort keys are compared as
Python compares tuples.
-/

namespace Bogbin.Bogvm

section Numbers

variable (floats : Floats)

/-- The integer part of a float. -/
def truncate : Number → Except PyError ℤ
  | some (some q) => .ok (if 0 ≤ q then q.floor else q.ceil)
  | _ => .error .OverflowError

/-- `int(value)` -/
def py_int : Json → Except PyError ℤ
  | .int n => .ok n
  | .bool b => .ok (if b then 1 else 0)
  | .float r =>
    match floats r with
    | some value => truncate value
    | none => .error .ValueError
  | .str s => int s.toList
  | _ => .error .TypeError

/-- `n > limit` -/
def over_limit (n : ℤ) (limit : Json) : Except PyError Bool := do
  let limit ← number floats limit
  .ok (exceeds (some (Number.of_int n)) limit)

end Numbers

/-! ## The tournament -/

/-- A cell: the proof of one evaluated proposal. -/
structure Cell where
  index : ℕ
  proposal : Dict
  score : ℤ
  cost : ℤ
  failures : List Failure

def proof_of (index proposal score cost failures : Json) : Dict :=
  Dict.of [("index", index), ("proposal", proposal), ("score", score), ("cost", cost),
    ("failures", failures)]

namespace Cell

def proof (c : Cell) : Dict :=
  proof_of (.int c.index) (.obj c.proposal) (.int c.score) (.int c.cost) (failures_json c.failures)

def proof_sha256 (c : Cell) : String := stable_hash (.obj c.proof)

/-- The cell in the receipt. -/
def receipt (c : Cell) : Dict :=
  Dict.of [("format", .str "BOGCELL-hypothesis-receipt-12.0"), ("index", .int c.index),
    ("proposal", .obj c.proposal), ("score", .int c.score), ("cost", .int c.cost),
    ("failures", failures_json c.failures), ("proof_sha256", .str c.proof_sha256),
    ("execution_status", .str (execution_status c.failures))]

def completed (c : Cell) : Bool := execution_status c.failures = "completed"

/-- The cells that can be selected. -/
def eligible (c : Cell) : Bool :=
  c.completed && Dict.get c.proposal "action" ≠ some (.str "reject")

/-- `(-cell["score"], cell["cost"], cell["proof_sha256"])` -/
def key (c : Cell) : ℤ ×ₗ ℤ ×ₗ List Char :=
  toLex (-c.score, toLex (c.cost, c.proof_sha256.toList))

end Cell

/-- The budget with its defaults. -/
def swarm_budget (budget : Dict) : Dict :=
  budget.foldl (fun d field => Dict.set d field.1 field.2)
    (Dict.of [("cells", .int 32), ("cost", .int 10000), ("memory", .int (64 * 1024 * 1024))])

/-- `candidates[:cells]` -/
def take_cells (cells : Json) (candidates : List Dict) : Except PyError (List Dict) :=
  match cells with
  | .null => .ok candidates
  | value =>
    match int_value value with
    | some n =>
      .ok (candidates.take (if 0 ≤ n then n.toNat else candidates.length - n.natAbs))
    | none => .error .TypeError

/-- `not path or ".." in path.split("/")` -/
def unsafe_write_path : Json → Except PyError Bool
  | .str path => .ok (path = "" ∨ ['.', '.'] ∈ path.toList.splitOn '/')
  | path => if path.truthy then .error .AttributeError else .ok true

/-- The path check, which is made for writes. -/
def unsafe_write (action path : Json) : Except PyError Bool :=
  if action = .str "write" then unsafe_write_path path else .ok false

/-- A value that is looked up in a set. -/
def looked_up (value : Json) : Except PyError Unit :=
  if hashable value then .ok () else .error .TypeError

section Tournament

variable (floats : Floats)

/-- `cost < 0 or total_cost > budget["cost"]` -/
def over_cost (budget : Dict) (cost total_cost : ℤ) : Except PyError Bool :=
  if cost < 0 then .ok true
  else do
    let allowed ← Dict.item budget "cost"
    over_limit floats total_cost allowed

/-- One round of the loop: the cell and the new total. -/
def evaluate (budget : Dict) (index : ℕ) (total_cost : ℤ) (proposal : Dict) :
    Except PyError (Cell × ℤ) := do
  let cost ← py_int floats ((Dict.get proposal "cost").getD (.int 1))
  let total_cost := total_cost + cost
  let action := (Dict.get proposal "action").getD .null
  looked_up action
  let over_cost ← over_cost floats budget cost total_cost
  let memory ← py_int floats ((Dict.get proposal "memory").getD (.int 0))
  let allowed ← Dict.item budget "memory"
  let over_memory ← over_limit floats memory allowed
  let path := (Dict.get proposal "path").getD .null
  let unsafe_path ← unsafe_write action path
  let score ← py_int floats ((Dict.get proposal "score").getD (.int 0))
  let failures :=
    failure_if (action ≠ .str "write" ∧ action ≠ .str "reject")
        (.str (py_str action), "candidate action is outside verifier surface") ++
      failure_if over_cost (.str (toString index), "candidate exceeds swarm cost budget") ++
      failure_if over_memory (.str (toString index), "candidate exceeds swarm memory budget") ++
      failure_if unsafe_path (.str (py_str path), "candidate write path is unsafe")
  .ok (⟨index, proposal, score, cost, failures⟩, total_cost)

/-- The loop over the candidates. -/
def evaluate_all (budget : Dict) : ℕ → ℤ → List Dict → Except PyError (List Cell)
  | _, _, [] => .ok []
  | index, total_cost, proposal :: rest => do
    let (cell, total_cost) ← evaluate floats budget index total_cost proposal
    let cells ← evaluate_all budget (index + 1) total_cost rest
    .ok (cell :: cells)

def best_cell (cells : List Cell) : Option Cell :=
  ((cells.filter Cell.eligible).mergeSort fun a b => a.key ≤ b.key).head?

/-- A byte of `bytes(items)`. -/
def py_byte (item : Json) : Except PyError UInt8 :=
  match int_value item with
  | some n => if 0 ≤ n ∧ n < 256 then .ok (UInt8.ofNat n.toNat) else .error .ValueError
  | none => .error .TypeError

/-- `data.encode() if isinstance(data, str) else bytes(data)` -/
def encode_data : Json → Except PyError Bytes
  | .str s => .ok (utf8 s)
  | .arr items => items.mapM py_byte
  | .obj fields => if fields = [] then .ok [] else .error .TypeError
  | value =>
    match int_value value with
    | some n => if 0 ≤ n then .ok (zeros n.toNat) else .error .ValueError
    | none => .error .TypeError

/-- The write of the selected cell, whose path is a text. -/
def admit_cell (keys : Keys) (proposal : Dict) : EStateM PyError Genesis Dict := do
  match (Dict.get proposal "path").getD .null with
  | .str path => do
    let _ ← MonadExcept.ofExcept (safe_path path)
    let data ← MonadExcept.ofExcept (encode_data ((Dict.get proposal "data").getD (.str "")))
    fs_write keys path data "BogPilotSwarm"
  | _ => throw .TypeError

def admit_selected (keys : Keys) : Option Cell → EStateM PyError Genesis (Option Dict)
  | some cell => do
    let admission ← admit_cell keys cell.proposal
    pure (some admission)
  | none => pure none

/-- The admission was completed. -/
def admitted_write (admission : Option Dict) : Bool :=
  (admission.bind fun fields => Dict.get fields "execution_status") = some (.str "completed")

def swarm_receipt (hypothesis : String) (budget : Dict) (cells : List Cell) (selected : Option Cell)
    (admission : Option Dict) : Dict :=
  Dict.of [
    ("format", .str "BOGPILOT-swarm-receipt-12.0"),
    ("hypothesis_sha256", .str (hexdigest (utf8 hypothesis))),
    ("budget", .obj budget),
    ("hypothesis_tree", .arr (cells.map fun cell => .obj cell.receipt)),
    ("selected_proof_sha256", opt_str (selected.map Cell.proof_sha256)),
    ("admission", (admission.map Json.obj).getD .null),
    ("pilot_had_direct_authority", .bool false),
    ("verifier_selected_best_path", .bool selected.isSome),
    ("execution_status", .str (if admitted_write admission then "completed" else "blocked"))]

def tournament (keys : Keys) (hypothesis : String) (candidates : List Dict) (budget : Dict) :
    EStateM PyError Genesis Dict := do
  let budget := swarm_budget budget
  let taken ← MonadExcept.ofExcept (take_cells ((Dict.get budget "cells").getD .null) candidates)
  let cells ← MonadExcept.ofExcept (evaluate_all floats budget 1 0 taken)
  let selected := best_cell cells
  let admission ← admit_selected keys selected
  record_entry keys "pilot-swarm" (swarm_receipt hypothesis budget cells selected admission)

end Tournament

/-! ## The replay -/

/-- `cell[key]` needs a dictionary. -/
def as_mapping : Json → Except PyError Dict
  | .obj fields => .ok fields
  | _ => .error .TypeError

/-- The proof of a cell, from its fields. -/
def replayed_proof (cell : Dict) : Except PyError Dict := do
  let index ← Dict.item cell "index"
  let proposal ← Dict.item cell "proposal"
  let score ← Dict.item cell "score"
  let cost ← Dict.item cell "cost"
  let failures ← Dict.item cell "failures"
  .ok (proof_of index proposal score cost failures)

/-- The check of one cell. -/
def replay_cell (cell : Json) : Except PyError (Dict × List Failure) := do
  let fields ← as_mapping cell
  let proof ← replayed_proof fields
  .ok (fields, failure_if (Dict.get fields "proof_sha256" ≠ some (.str (stable_hash (.obj proof))))
    (.str (py_str ((Dict.get fields "index").getD .null)), "swarm cell proof mismatch"))

/-- The action of the proposal of a cell. -/
def replayed_action (cell : Dict) : Except PyError (Option Json) := do
  let proposal ← as_dict ((Dict.get cell "proposal").getD (.obj []))
  .ok (Dict.get proposal "action")

def replay_eligible (cell : Dict) : Except PyError Bool :=
  if Dict.get cell "execution_status" ≠ some (.str "completed") then .ok false
  else do
    let action ← replayed_action cell
    .ok (action ≠ some (.str "reject"))

/-- The sort key `(-score, cost, proof_sha256)` of a cell; the negative needs a number. -/
structure RankedCell where
  score : Option Number
  cost : Json
  proof_sha256 : Json

section Replay

variable (floats : Floats)

def ranked_cell (cell : Dict) : Except PyError RankedCell := do
  let score ← Dict.item cell "score"
  let score ← number floats score
  let cost ← Dict.item cell "cost"
  let proof_sha256 ← Dict.item cell "proof_sha256"
  .ok ⟨score, cost, proof_sha256⟩

/-- The comparison of two sort keys; NaN differs from every score. -/
def ranked_less (a b : RankedCell) : Except PyError Bool :=
  if a.score = b.score ∧ a.score ≠ none then
    less_items floats [a.cost, a.proof_sha256] [b.cost, b.proof_sha256]
  else .ok (exceeds a.score b.score)

/-- The cells of a receipt. -/
def receipt_cells (receipt : Dict) : Except PyError (List Json) :=
  match (Dict.get receipt "hypothesis_tree").getD (.arr []) with
  | .arr cells => .ok cells
  | .obj [] => .ok []
  | .str "" => .ok []
  | _ => .error .TypeError

/-- The failures of a replay. -/
def replay_swarm (receipt : Dict) : Except PyError (List Failure) := do
  let cells ← receipt_cells receipt
  let checked ← cells.mapM replay_cell
  let eligible ← (checked.map Prod.fst).filterM replay_eligible
  let ranked ← eligible.mapM (ranked_cell floats)
  let sorted ← Ranking.sortM (ranked_less floats) ranked
  let expected := (sorted.head?.map RankedCell.proof_sha256).getD .null
  let selected := (Dict.get receipt "selected_proof_sha256").getD .null
  .ok (checked.flatMap Prod.snd ++ failure_if (same_value floats expected selected = false)
    (.str "selection", "swarm best-path selection mismatch"))

end Replay

end Bogbin.Bogvm
