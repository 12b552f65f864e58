import Bogbin.Vm.Bases
import Bogbin.Bogvm.Broker
import Bogbin.Library.StateExcept
import Std.Data.TreeMap

/-!
# The BOGVM

`BOGVM.run`: the state of the machine, one definition for every opcode, the loop over the
instructions and the receipt at its end.  An exception leaves the state as it was when it was
raised.
-/

namespace Bogbin.Vm

open Bogvm
open Std (TreeMap)

def SCALE : ℕ := 1000

inductive Op
  | NOOP
  | HALT
  | CREATE_NODE
  | CREATE_EDGE
  | CREATE_CLAIM
  | ACTIVATE
  | PROPAGATE
  | DECAY
  | INTERFERE
  | COMPUTE_TENSION
  | VERIFY
  | ACCEPT
  | REJECT
  | QUARANTINE
  | LOG_RECEIPT
  | EMIT_RECEIPT
  | DECLARE_BASIS
  | LOAD_COEFFICIENTS
  | SYNTHESIZE
  | VERIFY_HASH
  | ACCEPT_DATA
  | STORE_RESIDUAL
  | APPLY_RESIDUAL
  | REJECT_DATA
  deriving DecidableEq, Repr

/-- The opcodes by their codes. -/
def OPS : List Op :=
  [.NOOP, .HALT, .CREATE_NODE, .CREATE_EDGE, .CREATE_CLAIM, .ACTIVATE, .PROPAGATE, .DECAY,
    .INTERFERE, .COMPUTE_TENSION, .VERIFY, .ACCEPT, .REJECT, .QUARANTINE, .LOG_RECEIPT,
    .EMIT_RECEIPT, .DECLARE_BASIS, .LOAD_COEFFICIENTS, .SYNTHESIZE, .VERIFY_HASH, .ACCEPT_DATA,
    .STORE_RESIDUAL, .APPLY_RESIDUAL, .REJECT_DATA]

def OP_NAMES (opcode : ℕ) : Option Op := OPS[opcode]?

def Op.name : Op → String
  | NOOP => "NOOP"
  | HALT => "HALT"
  | CREATE_NODE => "CREATE_NODE"
  | CREATE_EDGE => "CREATE_EDGE"
  | CREATE_CLAIM => "CREATE_CLAIM"
  | ACTIVATE => "ACTIVATE"
  | PROPAGATE => "PROPAGATE"
  | DECAY => "DECAY"
  | INTERFERE => "INTERFERE"
  | COMPUTE_TENSION => "COMPUTE_TENSION"
  | VERIFY => "VERIFY"
  | ACCEPT => "ACCEPT"
  | REJECT => "REJECT"
  | QUARANTINE => "QUARANTINE"
  | LOG_RECEIPT => "LOG_RECEIPT"
  | EMIT_RECEIPT => "EMIT_RECEIPT"
  | DECLARE_BASIS => "DECLARE_BASIS"
  | LOAD_COEFFICIENTS => "LOAD_COEFFICIENTS"
  | SYNTHESIZE => "SYNTHESIZE"
  | VERIFY_HASH => "VERIFY_HASH"
  | ACCEPT_DATA => "ACCEPT_DATA"
  | STORE_RESIDUAL => "STORE_RESIDUAL"
  | APPLY_RESIDUAL => "APPLY_RESIDUAL"
  | REJECT_DATA => "REJECT_DATA"

inductive EdgeType
  | support
  | conflict
  deriving DecidableEq, Repr

def EdgeType.name : EdgeType → String
  | support => "support"
  | conflict => "conflict"

def EDGE_TYPE_NAMES : ℕ → Option EdgeType
  | 1 => some .support
  | 2 => some .conflict
  | _ => none

structure Instruction where
  opcode : ℕ
  flags : ℕ
  target : ℕ
  source : ℕ
  param : ℕ
  deriving DecidableEq, Repr

/-! ## The state -/

structure Node where
  id : ℕ
  name : Json

structure Edge where
  id : ℕ
  source : ℕ
  target : ℕ
  type : EdgeType
  weight : ℕ

structure Claim where
  id : ℕ
  name : Json
  source : ℕ
  target : ℕ

structure Pressure where
  support_pressure : ℕ
  conflict_pressure : ℕ
  net_pressure : ℤ

structure Patch where
  offset : ℕ
  byte : ℕ
  deriving DecidableEq, Repr

structure DataBlock where
  id : ℕ
  name : Json
  basis : Option Basis
  byte : ℕ
  delta : ℕ
  length : ℕ
  bytes : Bytes
  residuals : List Patch

/-- The result of a verification. -/
inductive Status
  | verified
  | rejected
  | abstained
  deriving DecidableEq, Repr

def Status.name : Status → String
  | verified => "verified"
  | rejected => "rejected"
  | abstained => "abstained"

structure Event where
  pc : ℤ
  opcode : String
  details : Dict

structure VMState where
  node_table : TreeMap ℕ Node
  edge_table : TreeMap ℕ Edge
  claim_table : TreeMap ℕ Claim
  adjacency_out : TreeMap ℕ (List ℕ)
  adjacency_in : TreeMap ℕ (List ℕ)
  activation_current : TreeMap ℕ ℕ
  tension_current : TreeMap ℕ ℕ
  pressure_current : TreeMap ℕ Pressure
  verifier_results : TreeMap ℕ Status
  accepted_claims : List ℕ
  rejected_claims : List ℕ
  quarantined_claims : List ℕ
  data_blocks : TreeMap ℕ DataBlock
  active_basis : Option Basis
  data_hash_results : TreeMap ℕ Status
  accepted_data_blocks : List ℕ
  rejected_data_blocks : List ℕ
  receipt_ledger : List Event
  receipt_emitted : Bool

/-- The state before the first instruction. -/
def VMState.initial : VMState :=
  ⟨∅, ∅, ∅, ∅, ∅, ∅, ∅, ∅, ∅, [], [], [], ∅, none, ∅, [], [], [], false⟩

/-- `table[key]` -/
def lookup {α : Type} (table : TreeMap ℕ α) (key : ℕ) : Except PyError α :=
  match table[key]? with
  | some value => .ok value
  | none => .error .KeyError

/-- The value, where there is one. -/
def require {α : Type} (e : PyError) : Option α → Except PyError α
  | some value => .ok value
  | none => .error e

namespace VMState

variable (s : VMState)

def node_name (node_id : ℕ) : Except PyError Json := do
  let node ← lookup s.node_table node_id
  .ok node.name

def claim_name (claim_id : ℕ) : Except PyError Json := do
  let claim ← lookup s.claim_table claim_id
  .ok claim.name

def logged (pc : ℤ) (opcode : String) (details : List (String × Json)) : VMState :=
  { s with receipt_ledger := s.receipt_ledger ++ [⟨pc, opcode, Dict.of details⟩] }

end VMState

abbrev VM := EStateM PyError VMState

def log (pc : ℤ) (opcode : String) (details : List (String × Json)) : VM Unit :=
  modify fun s => s.logged pc opcode details

/-- A computation that reads the state. -/
def reading {α : Type} (f : VMState → Except PyError α) : VM α := do
  MonadExcept.ofExcept (f (← get))

/-- `if key not in ids: ids.append(key); ids.sort()` -/
def add_sorted (ids : List ℕ) (key : ℕ) : List ℕ :=
  if key ∈ ids then ids else (ids ++ [key]).mergeSort (· ≤ ·)

/-- `self.state.manifest[table].get(str(id))`; a missing symbol is `null`. -/
def symbol (manifest : Dict) (table : String) (id : ℕ) : Except PyError Json := do
  let fields ← Dict.item manifest table >>= as_dict
  .ok ((Dict.get fields (toString id)).getD .null)

/-- The same, where a missing symbol raises. -/
def require_symbol (manifest : Dict) (table : String) (id : ℕ) : Except PyError Json := do
  let value ← symbol manifest table id
  if value = .null then .error .VMError
  else .ok value

/-! ## Nodes, edges and claims -/

section Opcodes

variable (manifest : Dict) (pc : ℕ) (instr : Instruction)

def create_node : VM Unit := do
  let name ← MonadExcept.ofExcept (require_symbol manifest "nodes" instr.target)
  modify fun s => { s with node_table := s.node_table.insert instr.target ⟨instr.target, name⟩ }
  log pc "CREATE_NODE" [("node_id", .int instr.target), ("name", name)]

/-- Append to the list of a key and sort it. -/
def add_adjacent (adjacency : TreeMap ℕ (List ℕ)) (key edge : ℕ) : TreeMap ℕ (List ℕ) :=
  adjacency.insert key (((adjacency[key]?).getD [] ++ [edge]).mergeSort (· ≤ ·))

def create_edge : VM Unit := do
  let s ← get
  if !s.node_table.contains instr.source || !s.node_table.contains instr.param then throw .VMError
  else do
    let type ← MonadExcept.ofExcept (require .VMError (EDGE_TYPE_NAMES instr.flags))
    modify fun s => { s with
      edge_table := s.edge_table.insert instr.target
        ⟨instr.target, instr.source, instr.param, type, SCALE⟩
      adjacency_out := add_adjacent s.adjacency_out instr.source instr.target
      adjacency_in := add_adjacent s.adjacency_in instr.param instr.target }
    let source ← reading (·.node_name instr.source)
    let target ← reading (·.node_name instr.param)
    log pc "CREATE_EDGE" [("edge_id", .int instr.target), ("source", source), ("target", target),
      ("edge_type", .str type.name)]

/-- `meta["name"]` -/
def name_of (value : Json) : Except PyError Json :=
  match value with
  | .obj fields => Dict.item fields "name"
  | _ => .error .TypeError

def create_claim : VM Unit := do
  let name ← MonadExcept.ofExcept (require_symbol manifest "claims" instr.target >>= name_of)
  modify fun s => { s with
    claim_table := s.claim_table.insert instr.target ⟨instr.target, name, instr.source, instr.param⟩ }
  let source ← reading (·.node_name instr.source)
  let target ← reading (·.node_name instr.param)
  log pc "CREATE_CLAIM" [("claim_id", .int instr.target), ("name", name), ("source", source),
    ("target", target)]

/-! ## Activation -/

def activate : VM Unit := do
  let s ← get
  if !s.node_table.contains instr.target then throw .VMError
  else if SCALE < instr.param then throw .VMError
  else do
    modify fun s => { s with
      activation_current := s.activation_current.insert instr.target instr.param }
    let name ← reading (·.node_name instr.target)
    log pc "ACTIVATE" [("node", name), ("strength", .int instr.param)]

def ENERGY_LIMIT : ℕ := 1000000000

/-- The energy that a propagation has spent, the wave of the current tick and the nodes that it has
reached. -/
structure Wave where
  total_energy : ℕ
  scratch : TreeMap ℕ ℕ
  reached : List ℕ

/-- The step of a tick over an edge. -/
def propagate_edge (s : VMState) (type : EdgeType) (activation : ℕ) (w : Wave) (edge_id : ℕ) :
    Except PyError Wave := do
  let edge ← lookup s.edge_table edge_id
  if edge.type ≠ type then .ok w
  else
    let next_value := activation * edge.weight / SCALE
    if next_value = 0 then .ok w
    else if ENERGY_LIMIT < w.total_energy + next_value then .error .VMError
    else
      .ok ⟨w.total_energy + next_value,
        w.scratch.insert edge.target ((w.scratch[edge.target]?).getD 0 + next_value),
        add_sorted w.reached edge.target⟩

/-- The step of a tick for a node of the frontier. -/
def propagate_node (s : VMState) (type : EdgeType) (w : Wave) (entry : ℕ × ℕ) : Except PyError Wave :=
  if entry.2 = 0 then .ok w
  else
    (((s.adjacency_out[entry.1]?).getD []).mergeSort (· ≤ ·)).foldlM
      (propagate_edge s type entry.2) w

/-- `cumulative[node] = max(cumulative.get(node, 0), value)` for the values of a wave. -/
def cumulate (cumulative scratch : TreeMap ℕ ℕ) : TreeMap ℕ ℕ :=
  scratch.toList.foldl
    (fun table entry => table.insert entry.1 (max ((table[entry.1]?).getD 0) entry.2)) cumulative

/-- The ticks of a propagation, with the cumulative field and the frontier. -/
def ticks (s : VMState) (type : EdgeType) : ℕ → TreeMap ℕ ℕ → TreeMap ℕ ℕ → ℕ → List ℕ →
    Except PyError (TreeMap ℕ ℕ × ℕ × List ℕ)
  | 0, cumulative, _, total_energy, reached => .ok (cumulative, total_energy, reached)
  | n + 1, cumulative, frontier, total_energy, reached => do
    let w ← frontier.toList.foldlM (propagate_node s type) ⟨total_energy, ∅, reached⟩
    ticks s type n (cumulate cumulative w.scratch) w.scratch w.total_energy w.reached

def propagate : VM Unit := do
  let type ← MonadExcept.ofExcept (require .VMError (EDGE_TYPE_NAMES instr.flags))
  let s ← get
  let frontier := (∅ : TreeMap ℕ ℕ).insert instr.source ((s.activation_current[instr.source]?).getD 0)
  let (cumulative, total_energy, reached) ←
    MonadExcept.ofExcept (ticks s type instr.param s.activation_current frontier 0 [])
  modify fun s => { s with activation_current := cumulative }
  let source ← reading fun s =>
    if s.node_table.contains instr.source then s.node_name instr.source else .ok (.int instr.source)
  let nodes_reached ← reading fun s => reached.mapM s.node_name
  log pc "PROPAGATE" [("source", source), ("edge_type", .str type.name), ("depth", .int instr.param),
    ("energy_spent", .int total_energy), ("nodes_reached", .arr nodes_reached)]

def decay : VM Unit := do
  if SCALE < instr.param then throw .VMError
  else do
    modify fun s => { s with
      activation_current := s.activation_current.toList.foldl (fun decayed entry =>
        let value := entry.2 * instr.param / SCALE
        if 0 < value then decayed.insert entry.1 value else decayed) ∅ }
    log pc "DECAY" [("factor", .int instr.param)]

/-! ## Pressure and claims -/

/-- The step of the conflict pressure on a node for an incoming edge. -/
def conflict_edge (s : VMState) (conflict_pressure edge_id : ℕ) : Except PyError ℕ := do
  let edge ← lookup s.edge_table edge_id
  if edge.type ≠ .conflict then .ok conflict_pressure
  else
    .ok (conflict_pressure + (s.activation_current[edge.source]?).getD 0 * edge.weight / SCALE)

def pressure_of (s : VMState) (target_node : ℕ) : Except PyError Pressure := do
  let support_pressure := (s.activation_current[target_node]?).getD 0
  let conflict_pressure ← (((s.adjacency_in[target_node]?).getD []).mergeSort (· ≤ ·)).foldlM
    (conflict_edge s) 0
  .ok ⟨support_pressure, conflict_pressure, support_pressure - conflict_pressure⟩

def interfere : VM Unit := do
  let claim ← reading fun s => lookup s.claim_table instr.target
  let pressure ← reading fun s => pressure_of s claim.target
  let tension : ℕ := min pressure.support_pressure pressure.conflict_pressure
  modify fun s => { s with
    pressure_current := s.pressure_current.insert instr.target pressure
    tension_current := s.tension_current.insert instr.target tension }
  let name ← reading (·.claim_name instr.target)
  log pc "INTERFERE" [("claim", name), ("support_pressure", .int pressure.support_pressure),
    ("conflict_pressure", .int pressure.conflict_pressure),
    ("net_pressure", .int pressure.net_pressure), ("tension", .int tension)]

def compute_tension : VM Unit := do
  let s ← get
  let tension : ℕ := match s.pressure_current[instr.target]? with
    | none => 0
    | some pressure => min pressure.support_pressure pressure.conflict_pressure
  modify fun s => { s with tension_current := s.tension_current.insert instr.target tension }
  let name ← reading (·.claim_name instr.target)
  log pc "COMPUTE_TENSION" [("claim", name), ("tension", .int tension)]

/-- The targets of the outgoing support edges of a node that are not visited. -/
def support_targets (s : VMState) (visited : List ℕ) (node_id : ℕ) : Except PyError (List ℕ) := do
  let edges ← (((s.adjacency_out[node_id]?).getD []).mergeSort (· ≤ ·)).mapM (lookup s.edge_table)
  .ok ((edges.filter fun edge => edge.type = .support ∧ edge.target ∉ visited).map (·.target))

/-- The loop over the queue.  Every turn takes a node from the queue, and an edge puts at most one
node into it, so there are at most as many turns as there are nodes at the start and edges. -/
def search (s : VMState) (target : ℕ) : ℕ → List ℕ → List ℕ → Except PyError Bool
  | _, [], _ => .ok false
  | 0, _ :: _, _ => .ok false
  | turns + 1, node_id :: queue, visited =>
    if node_id = target then .ok true
    else if node_id ∈ visited then search s target turns queue visited
    else do
      let targets ← support_targets s (node_id :: visited) node_id
      search s target turns (queue ++ targets) (node_id :: visited)

def support_path_exists (s : VMState) (source target : ℕ) : Except PyError Bool :=
  search s target (1 + (s.adjacency_out.toList.map fun entry => entry.2.length).sum) [source] []

def verify_claim (s : VMState) (claim_id : ℕ) : Except PyError Status := do
  let claim ← lookup s.claim_table claim_id
  let conflict_pressure := match s.pressure_current[claim_id]? with
    | some pressure => pressure.conflict_pressure
    | none => 0
  if 0 < conflict_pressure then .ok .rejected
  else do
    let found ← support_path_exists s claim.source claim.target
    .ok (if found then .verified else .abstained)

def verify : VM Unit := do
  let status ← reading fun s => verify_claim s instr.target
  modify fun s => { s with verifier_results := s.verifier_results.insert instr.target status }
  let name ← reading (·.claim_name instr.target)
  log pc "VERIFY" [("claim", name), ("result", .str status.name)]

def repair_rejected_claim : VM Unit := do
  modify fun s => { s with
    rejected_claims := add_sorted s.rejected_claims instr.target
    quarantined_claims := add_sorted s.quarantined_claims instr.target }
  let s ← get
  let (support_pressure, conflict_pressure) := match s.pressure_current[instr.target]? with
    | some pressure => (pressure.support_pressure, pressure.conflict_pressure)
    | none => (0, 0)
  let name ← reading (·.claim_name instr.target)
  log pc "REPAIR_CONTRADICTION" [("claim", name), ("verifier_result", .str "rejected"),
    ("support_pressure", .int support_pressure), ("conflict_pressure", .int conflict_pressure),
    ("repair_actions", .arr [.str "reject_claim", .str "quarantine_claim"])]

def accept : VM Unit := do
  let s ← get
  let result := s.verifier_results[instr.target]?
  if result = some .rejected then repair_rejected_claim pc instr
  else if result ≠ some .verified then do
    -- the message of the error names the claim
    let _ ← reading (·.claim_name instr.target)
    throw .VMError
  else do
    modify fun s => { s with accepted_claims := add_sorted s.accepted_claims instr.target }
    let name ← reading (·.claim_name instr.target)
    log pc "ACCEPT" [("claim", name), ("result", .str "accepted")]

def reject : VM Unit := do
  modify fun s => { s with rejected_claims := add_sorted s.rejected_claims instr.target }
  let name ← reading (·.claim_name instr.target)
  log pc "REJECT" [("claim", name), ("result", .str "rejected")]

def quarantine : VM Unit := do
  modify fun s => { s with quarantined_claims := add_sorted s.quarantined_claims instr.target }
  let name ← reading (·.claim_name instr.target)
  log pc "QUARANTINE" [("claim", name), ("result", .str "quarantined")]

/-! ## Data blocks -/

def declare_basis : VM Unit := do
  let value ← MonadExcept.ofExcept (require_symbol manifest "constants" instr.target)
  match value with
  | .str name => do
    let basis ← MonadExcept.ofExcept (require .VMError (Basis.of_name name))
    modify fun s => { s with active_basis := some basis }
    log pc "DECLARE_BASIS" [("basis", .str basis.name)]
  | _ => throw .VMError

def load_coefficients : VM Unit := do
  let data_name ← MonadExcept.ofExcept (require_symbol manifest "data_blocks" instr.target)
  if 255 < instr.source then throw .VMError
  else if 255 < instr.flags then throw .VMError
  else do
    modify fun s => { s with
      data_blocks := s.data_blocks.insert instr.target ⟨instr.target, data_name, s.active_basis,
        instr.source, instr.flags, instr.param, [], []⟩ }
    log pc "LOAD_COEFFICIENTS" [("data_block", data_name), ("byte", .int instr.source),
      ("delta", .int instr.flags), ("length", .int instr.param)]

/-- The block of an instruction; a missing one is a `VMError`. -/
def block_of : VM DataBlock :=
  reading fun s => require .VMError s.data_blocks[instr.target]?

def set_block (block : DataBlock) : VM Unit :=
  modify fun s => { s with data_blocks := s.data_blocks.insert instr.target block }

/-- The synthesized bytes of a block; its `ValueError` becomes a `VMError`. -/
def synthesized (block : DataBlock) : Except PyError Bytes :=
  match block.basis with
  | none => .error .VMError
  | some basis =>
    match synthesize_basis basis block.byte block.length block.delta with
    | .ok bytes => .ok bytes
    | .error _ => .error .VMError

def synthesize : VM Unit := do
  let block ← block_of instr
  let bytes ← MonadExcept.ofExcept (synthesized block)
  set_block instr { block with bytes := bytes }
  log pc "SYNTHESIZE" [("data_block", block.name), ("byte_length", .int bytes.length)]

def verify_hash : VM Unit := do
  let block ← block_of instr
  let expected_hash ← MonadExcept.ofExcept (require_symbol manifest "constants" instr.source)
  let actual_hash := hexdigest block.bytes
  let result := if .str actual_hash = expected_hash then Status.verified else .rejected
  modify fun s => { s with data_hash_results := s.data_hash_results.insert instr.target result }
  log pc "VERIFY_HASH" [("data_block", block.name), ("expected_hash", expected_hash),
    ("actual_hash", .str actual_hash), ("result", .str result.name)]

def accept_data : VM Unit := do
  let block ← block_of instr
  let s ← get
  if s.data_hash_results[instr.target]? ≠ some .verified then throw .VMError
  else do
    modify fun s => { s with
      accepted_data_blocks := add_sorted s.accepted_data_blocks instr.target }
    log pc "ACCEPT_DATA" [("data_block", block.name), ("result", .str "accepted")]

def reject_data : VM Unit := do
  let block ← block_of instr
  let s ← get
  if s.data_hash_results[instr.target]? ≠ some .rejected then throw .VMError
  else do
    modify fun s => { s with
      rejected_data_blocks := add_sorted s.rejected_data_blocks instr.target }
    log pc "REJECT_DATA" [("data_block", block.name), ("result", .str "rejected")]

/-- The order of the key `(offset, byte)`. -/
def patch_le (a b : Patch) : Bool := a.offset < b.offset || (a.offset = b.offset && a.byte ≤ b.byte)

def store_residual : VM Unit := do
  let block ← block_of instr
  if block.length ≤ instr.source then throw .VMError
  else if 255 < instr.param then throw .VMError
  else do
    set_block instr { block with
      residuals := (block.residuals ++ [Patch.mk instr.source instr.param]).mergeSort patch_le }
    log pc "STORE_RESIDUAL" [("data_block", block.name), ("offset", .int instr.source),
      ("byte", .int instr.param)]

/-- `data[patch["offset"]] = patch["byte"]` -/
def apply_patch (data : Bytes) (patch : Patch) : Except PyError Bytes :=
  if data.length ≤ patch.offset then .error .VMError
  else .ok (data.set patch.offset (UInt8.ofNat patch.byte))

def apply_residual : VM Unit := do
  let block ← block_of instr
  let data ← MonadExcept.ofExcept (block.residuals.foldlM apply_patch block.bytes)
  set_block instr { block with bytes := data }
  log pc "APPLY_RESIDUAL" [("data_block", block.name),
    ("residual_count", .int block.residuals.length), ("byte_length", .int data.length)]

/-! ## The loop -/

def emit_receipt : VM Unit := do
  modify fun s => { s with receipt_emitted := true }
  log pc "EMIT_RECEIPT" [("result", .str "receipt_ready")]

/-- An instruction that does not halt. -/
def execute (op : Op) : VM Unit :=
  match op with
  | .NOOP => log pc "NOOP" []
  | .HALT => log pc "HALT" []
  | .CREATE_NODE => create_node manifest pc instr
  | .CREATE_EDGE => create_edge pc instr
  | .CREATE_CLAIM => create_claim manifest pc instr
  | .ACTIVATE => activate pc instr
  | .PROPAGATE => propagate pc instr
  | .DECAY => decay pc instr
  | .INTERFERE => interfere pc instr
  | .COMPUTE_TENSION => compute_tension pc instr
  | .VERIFY => verify pc instr
  | .ACCEPT => accept pc instr
  | .REJECT => reject pc instr
  | .QUARANTINE => quarantine pc instr
  | .LOG_RECEIPT => log pc "LOG_RECEIPT" [("note", .str "manual receipt checkpoint")]
  | .EMIT_RECEIPT => emit_receipt pc
  | .DECLARE_BASIS => declare_basis manifest pc instr
  | .LOAD_COEFFICIENTS => load_coefficients manifest pc instr
  | .SYNTHESIZE => synthesize pc instr
  | .VERIFY_HASH => verify_hash manifest pc instr
  | .ACCEPT_DATA => accept_data pc instr
  | .STORE_RESIDUAL => store_residual pc instr
  | .APPLY_RESIDUAL => apply_residual pc instr
  | .REJECT_DATA => reject_data pc instr

end Opcodes

/-- The loop over the instructions from `pc` on, with the `pc` of the `HALT`. -/
def loop (manifest : Dict) : ℕ → List Instruction → VM ℕ
  | _, [] => throw .VMError
  | pc, instr :: rest => do
    let op ← MonadExcept.ofExcept (require .VMError (OP_NAMES instr.opcode))
    execute manifest pc instr op
    if op = .HALT then pure pc
    else loop manifest (pc + 1) rest

/-! ## The receipt -/

/-- A table by the numbers of its keys. -/
def table_json {α : Type} (value : α → Json) (table : TreeMap ℕ α) : Json :=
  .obj (table.toList.map fun entry => (toString entry.1, value entry.2))

def node_json (node : Node) : Json := .obj (Dict.of [("id", .int node.id), ("name", node.name)])

def edge_json (edge : Edge) : Json :=
  .obj (Dict.of [("id", .int edge.id), ("source", .int edge.source), ("target", .int edge.target),
    ("type", .str edge.type.name), ("weight", .int edge.weight)])

def claim_json (claim : Claim) : Json :=
  .obj (Dict.of [("id", .int claim.id), ("name", claim.name), ("source", .int claim.source),
    ("target", .int claim.target)])

def pressure_json (pressure : Pressure) : Json :=
  .obj (Dict.of [("support_pressure", .int pressure.support_pressure),
    ("conflict_pressure", .int pressure.conflict_pressure),
    ("net_pressure", .int pressure.net_pressure)])

def patch_json (patch : Patch) : Json :=
  .obj (Dict.of [("offset", .int patch.offset), ("byte", .int patch.byte)])

def block_json (block : DataBlock) : Json :=
  .obj (Dict.of [("id", .int block.id), ("name", block.name),
    ("basis", opt_str (block.basis.map (·.name))), ("byte", .int block.byte),
    ("delta", .int block.delta), ("length", .int block.length), ("bytes", .str (to_hex block.bytes)),
    ("residuals", .arr (block.residuals.map patch_json))])

def ids_json (ids : List ℕ) : Json := .arr (ids.map fun (id : ℕ) => .int id)

def event_json (event : Event) : Json :=
  .obj (Dict.of [("pc", .int event.pc), ("opcode", .str event.opcode), ("details", .obj event.details)])

namespace VMState

variable (s : VMState)

def final_state : Json :=
  .obj (Dict.of [
    ("nodes", table_json node_json s.node_table),
    ("edges", table_json edge_json s.edge_table),
    ("claims", table_json claim_json s.claim_table),
    ("activation_current", table_json (fun (n : ℕ) => .int n) s.activation_current),
    ("tension_current", table_json (fun (n : ℕ) => .int n) s.tension_current),
    ("pressure_current", table_json pressure_json s.pressure_current),
    ("verifier_results", table_json (fun status => .str status.name) s.verifier_results),
    ("accepted_claims", ids_json s.accepted_claims),
    ("rejected_claims", ids_json s.rejected_claims),
    ("quarantined_claims", ids_json s.quarantined_claims),
    ("data_blocks", table_json block_json s.data_blocks),
    ("data_hash_results", table_json (fun status => .str status.name) s.data_hash_results),
    ("accepted_data_blocks", ids_json s.accepted_data_blocks),
    ("rejected_data_blocks", ids_json s.rejected_data_blocks)])

/-- `self.manifest["data_blocks"].get(str(d), str(d))` -/
def block_name (manifest : Dict) (id : ℕ) : Except PyError Json := do
  let fields ← Dict.item manifest "data_blocks" >>= as_dict
  .ok ((Dict.get fields (toString id)).getD (.str (toString id)))

def receipt (manifest : Dict) (program_hash : String) : Except PyError Dict := do
  let accepted_claim_names ← s.accepted_claims.mapM s.claim_name
  let rejected_claim_names ← s.rejected_claims.mapM s.claim_name
  let quarantined_claim_names ← s.quarantined_claims.mapM s.claim_name
  let accepted_data_block_names ← s.accepted_data_blocks.mapM (block_name manifest)
  let rejected_data_block_names ← s.rejected_data_blocks.mapM (block_name manifest)
  let body := Dict.of [
    ("vm", .str "BOGVM-2.0"),
    ("bogbin", .str "BOGBIN-2.0"),
    ("fixed_point_scale", .int SCALE),
    ("program_hash", .str program_hash),
    ("events", .arr (s.receipt_ledger.map event_json)),
    ("final_state_hash", .str (stable_hash s.final_state)),
    ("accepted_claim_names", .arr accepted_claim_names),
    ("rejected_claim_names", .arr rejected_claim_names),
    ("quarantined_claim_names", .arr quarantined_claim_names),
    ("accepted_data_block_names", .arr accepted_data_block_names),
    ("rejected_data_block_names", .arr rejected_data_block_names),
    ("accepted_without_verify", .int 0),
    ("candidate_graph_contamination", .int 0)]
  .ok (Dict.set body "receipt_hash" (.str (stable_hash (.obj body))))

end VMState

/-- `BOGVM.run` -/
def run (manifest : Dict) (program_hash : String) (instructions : List Instruction) : VM Dict := do
  let pc ← loop manifest 0 instructions
  let s ← get
  if !s.receipt_emitted then log pc "AUTO_RECEIPT" [("result", .str "receipt_emitted_by_vm")]
  reading (·.receipt manifest program_hash)

/-- The receipt of a run with its status, and the exit code. -/
def run_with_block_receipt (manifest : Dict) (program_hash : String)
    (instructions : List Instruction) : Except PyError (Dict × ℕ) :=
  match run manifest program_hash instructions .initial with
  | .ok receipt _ => .ok (Dict.set receipt "execution_status" (.str "completed"), 0)
  | .error .VMError s => do
    let receipt ← (s.logged (-1) "BLOCKED_EXECUTION" []).receipt manifest program_hash
    .ok (Dict.set receipt "execution_status" (.str "blocked"), 1)
  | .error e _ => .error e

end Bogbin.Vm
