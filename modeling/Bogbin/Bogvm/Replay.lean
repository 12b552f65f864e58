import Bogbin.Bogvm.Genesis

/-!
# Session replay

`replay_session` walks over the ledger with a virtual state root and compares its last value with
the state pointer.
-/

namespace Bogbin.Bogvm

def package_events : List Json :=
  [.str "registry-sync", .str "lock", .str "install", .str "app-run"]

/-- `any(entry.get("event") in {...} for entry in entries)` -/
def has_package_event : List Json → Except PyError Bool
  | [] => .ok false
  | entry :: rest => do
    let fields ← as_dict entry
    let event := (Dict.get fields "event").getD .null
    if !hashable event then .error .TypeError
    else if event ∈ package_events then .ok true
    else has_package_event rest

/-- The failures of the registry and of the lock, when an entry is about packages. -/
def package_failures (env : Environment) (found : List Json) : Except PyError (List Failure) := do
  if ← has_package_event found then do
    let registry ← env.verify_registry
    let lock ← env.verify_lock
    .ok (registry ++ lock)
  else .ok []

/-! ## The receipt that is replayed -/

/-- A receipt path, with what reading the file gives; `none` is a file that cannot be read. -/
structure Source where
  path : String
  content : Option Content

/-- The receipt, unless the file does not hold one. -/
def load_source (source : Source) : Except PyError (Option Dict) :=
  match source.content with
  | none => .ok none
  | some .undecodable => .error .UnicodeDecodeError
  | some .unparsable => .ok none
  | some (.value (.obj fields)) => .ok (some fields)
  | some (.value _) => .error .TypeError

/-- `{entry.get("receipt_hash") for entry in entries}` -/
def known_hashes : List Json → Except PyError (List Json)
  | [] => .ok []
  | entry :: rest => do
    let fields ← as_dict entry
    let receipt_hash := (Dict.get fields "receipt_hash").getD .null
    if !hashable receipt_hash then .error .TypeError
    else do
      let hashes ← known_hashes rest
      .ok (receipt_hash :: hashes)

/-- The failures of a source receipt. -/
def source_failures (keys : Keys) (found : List Json) (source : Source) :
    Except PyError (List Failure) := do
  let path := Json.str source.path
  match ← load_source source with
  | none => .ok [(path, "invalid source Genesis receipt")]
  | some fields =>
    match Dict.get fields "signature" with
    | none => .ok [(path, "invalid source Genesis receipt")]
    | some signature => do
      let verified ← verify_object_signature keys (Dict.pop fields "signature") signature
      let hashes ← known_hashes found
      let session_root := (Dict.get fields "genesis_session_root").getD .null
      if !hashable session_root then .error .TypeError
      else
        .ok (failure_if (!verified) (path, "source Genesis receipt signature is invalid") ++
          failure_if (Dict.get fields "format" ≠ some (.str "BOGOS-Genesis-final-receipt-9.0"))
            (path, "source is not a Genesis final receipt") ++
          failure_if (session_root ∉ hashes)
            (path, "source Genesis session root is not in the ledger"))

/-- The session root of the receipt, when there is one. -/
def source_session_root (source : Option Source) : Json :=
  match source.bind (·.content) with
  | some (.value (.obj fields)) => (Dict.get fields "genesis_session_root").getD .null
  | _ => .null

/-! ## The walk -/

/-- The values that a `for` loop visits. -/
def iterate : Json → Except PyError (List Json)
  | .arr items => .ok items
  | .obj fields => .ok (fields.map fun field => .str field.1)
  | .str s => .ok (s.toList.map fun c => .str (String.ofList [c]))
  | _ => .error .TypeError

/-- The evidence of a syscall receipt, without the fields that do not count. -/
def evidence (call : Dict) : Dict :=
  ["format", "sequence", "app", "evidence_sha256", "failures"].foldl Dict.pop call

def call_failures (app : Json) : List Json → Except PyError (List Failure)
  | [] => .ok []
  | call :: rest => do
    let fields ← as_dict call
    let failures ← call_failures app rest
    .ok (failure_if (!((Dict.get fields "evidence_sha256").getD .null).py_eq
        (.str (stable_hash (.obj (evidence fields)))))
      (app, "capability syscall evidence hash mismatch") ++ failures)

def app_run_failures (entry : Dict) : Except PyError (List Failure) := do
  let process ← as_dict ((Dict.get entry "process_receipt").getD (.obj []))
  let app := (Dict.get entry "app").getD (.str "app")
  let proof_material := (Dict.get process "proof_material").getD (.obj [])
  let calls ← iterate ((Dict.get process "syscall_receipts").getD (.arr []))
  let failures ← call_failures app calls
  .ok (failure_if (!((Dict.get process "proof_sha256").getD .null).py_eq
      (.str (stable_hash proof_material)))
    (app, "brokered process proof hash mismatch") ++ failures)

/-- The step of the walk for a write. -/
def replay_write (env : Environment) (g : Genesis) (virtual_root : Json) (entry : Dict) :
    Except PyError (List Failure × Json) := do
  let before ← Dict.item entry "before_root_sha256"
  let mismatch ←
    if !before.py_eq virtual_root then do
      let sequence ← Dict.item entry "sequence"
      .ok [(.str (py_str sequence), "write replay root mismatch")]
    else .ok []
  let after ← Dict.item entry "after_root_sha256"
  match ← Dict.item entry "object_sha256" with
  | .str name =>
    .ok (mismatch ++ failure_if (!g.has_object env name) (.str name, "replay object missing"), after)
  | _ => .error .TypeError

/-- The step of the walk for an entry: its failures and the virtual root after it. -/
def replay_entry (env : Environment) (g : Genesis) (virtual_root entry : Json) :
    Except PyError (List Failure × Json) := do
  let fields ← as_dict entry
  let event ← Dict.item fields "event"
  if event = .str "trusted-boot" then
    .ok ([], (Dict.get fields "state_root_sha256").getD virtual_root)
  else if event = .str "fs-write" then replay_write env g virtual_root fields
  else if event = .str "rollback" then do
    let after ← Dict.item fields "after_root_sha256"
    .ok ([], after)
  else if event = .str "install" ∧ Dict.get fields "execution_status" = some (.str "completed") then do
    let package ← Dict.item fields "package"
    let verified ← env.verify_installed_package package
    .ok (failure_if (!verified)
      (package, "installed package failed session replay verification"), virtual_root)
  else if event = .str "app-run" then do
    let failures ← app_run_failures fields
    .ok (failures, virtual_root)
  else .ok ([], virtual_root)

def replay_walk (env : Environment) (g : Genesis) :
    Json → List Json → Except PyError (List Failure × Json)
  | virtual_root, [] => .ok ([], virtual_root)
  | virtual_root, entry :: rest => do
    let (failures, virtual_root) ← replay_entry env g virtual_root entry
    let (failures', last) ← replay_walk env g virtual_root rest
    .ok (failures ++ failures', last)

/-- The receipt of a replay. -/
def replay_receipt (source : Option Source) (chain : LedgerReport) (event_count : ℕ)
    (virtual_root : Json) (failures : List Failure) : Dict :=
  Dict.of [
    ("format", .str "BOGOS-Genesis-session-replay-receipt-9.0"),
    ("source_receipt", opt_str (source.map (·.path))),
    ("source_genesis_session_root", source_session_root source),
    ("ledger_root_sha256", chain.ledger_root_sha256),
    ("replayed_event_count", .int event_count),
    ("replayed_final_state_root_sha256", virtual_root),
    ("full_session_replay_verified", .bool (failures = [])),
    ("failures", failures_json failures),
    ("execution_status", .str (execution_status failures))]

def replay_session (keys : Keys) (env : Environment) (g : Genesis) (source : Option Source) :
    Except PyError (Dict × Genesis) := do
  let chain ← verify_ledger keys g.ledger
  let found ← entries g.ledger
  let packages ← package_failures env found
  let from_source ← match source with
    | some source => source_failures keys found source
    | none => .ok []
  let (walk, virtual_root) ← replay_walk env g (.str ZERO_HASH) found
  let g := g.opened
  let (root, _) ← g.current_state
  let failures := chain.failures ++ packages ++ from_source ++ walk ++
    failure_if (virtual_root ≠ .str root) (.str "state", "replayed final workspace root mismatch")
  record keys g "replay-session" (replay_receipt source chain found.length virtual_root failures)

end Bogbin.Bogvm
