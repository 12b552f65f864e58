import Bogbin.Bogvm.BrokerHandle
import Bogbin.Bogvm.StorePackage

/-!
# Brokered processes and their replay

`run_brokered` runs an app with a broker and writes a receipt with the recorded calls;
`BogKernel.replay` reads such a receipt and makes the evidence of every call again.
-/

namespace Bogbin.Bogvm

/-! ## The receipt of a process -/

/-- The end of the process that the app was run in. -/
structure ProcessResult where
  returncode : ℤ
  stdout : String
  stderr : String

/-- The fields of a brokered process receipt that its schema and `replay` look at. -/
structure ProcessReceipt where
  app : String
  policy_sha256 : String
  package_bundle_sha256 : Json
  syscall_receipts : List Dict
  stdout : String
  stderr : String
  returncode : Json
  proof_material : Dict
  proof_sha256 : String
  failures : List StoreFailure

/-- An item of `syscall_receipts` in `brokered-process-receipt.schema.json`. -/
def syscall_schema (call : Dict) : Bool :=
  Dict.get call "format" = some (.str "BOGK-capability-syscall-receipt-8.0") &&
    (match Dict.get call "sequence" with
      | some (.int n) => 1 ≤ n
      | _ => false) &&
    (match Dict.get call "app" with
      | some (.str _) => true
      | _ => false) &&
    (match Dict.get call "operation" with
      | some operation => listed ["read", "write", "env", "dependency", "receipt"] operation
      | none => false) &&
    (match Dict.get call "evidence_sha256" with
      | some (.str hash) => hex_pattern 64 hash
      | _ => false) &&
    (match Dict.get call "failures" with
      | some (.arr _) => true
      | _ => false) &&
    (match Dict.get call "execution_status" with
      | some status => listed ["completed", "blocked"] status
      | none => false)

/-- `validate_schema(receipt, "brokered-process-receipt.schema.json")` -/
def receipt_schema (receipt : ProcessReceipt) : Bool :=
  receipt.app ≠ "" && receipt.syscall_receipts.all syscall_schema &&
    hex_pattern 64 receipt.proof_sha256 &&
    (match receipt.returncode with
      | .null | .int _ => true
      | _ => false)

def stdout_of : Option ProcessResult → String
  | none => ""
  | some result => result.stdout

def stderr_of : Option ProcessResult → String
  | none => ""
  | some result => result.stderr

def returncode_of : Option ProcessResult → Json
  | none => .null
  | some result => .int result.returncode

section Finalize

variable (b : Broker) (verification : Verification) (policy : Json) (calls : List Dict)
  (result : Option ProcessResult) (failures : List StoreFailure)

def proof_material (evidence : List Json) : Dict := Dict.of [
  ("app", .str b.app_info.name),
  ("package", .str b.app_info.package),
  ("package_bundle_sha256", verification.bundle_sha256),
  ("installed_tree_sha256", verification.installed_tree),
  ("policy_sha256", .str (stable_hash policy)),
  ("syscall_evidence", .arr evidence),
  ("returncode", returncode_of result),
  ("stdout_sha256", .str (hexdigest (utf8 (stdout_of result)))),
  ("stderr_sha256", .str (hexdigest (utf8 (stderr_of result))))]

def process_receipt (evidence : List Json) : ProcessReceipt where
  app := b.app_info.name
  policy_sha256 := stable_hash policy
  package_bundle_sha256 := verification.bundle_sha256
  syscall_receipts := calls
  stdout := stdout_of result
  stderr := stderr_of result
  returncode := returncode_of result
  proof_material := proof_material b verification policy result evidence
  proof_sha256 := stable_hash (.obj (proof_material b verification policy result evidence))
  failures := failures

/-- `_finalize_brokered_process` -/
def finalize : Except PyError ProcessReceipt := do
  let evidence ← calls.mapM fun call => Dict.item call "evidence_sha256"
  let receipt := process_receipt b verification policy calls result failures evidence
  if !receipt_schema receipt then .error .KernelError
  else .ok receipt

end Finalize

/-! ## Running a process -/

/-- `_snapshot` -/
def snapshot (t : Tree Bytes) : List (String × String) :=
  t.files.map fun file => (as_posix file.1, hexdigest file.2)

/-- `_snapshot_changes` -/
def snapshot_changes (before after : List (String × String)) : List String :=
  sorted_set (((before ++ after).map (·.1)).filter fun path => before.lookup path ≠ after.lookup path)

/-- `call["operation"] == "write" and call["execution_status"] == "completed"` -/
def completed_write (call : Dict) : Except PyError Bool := do
  let operation ← Dict.item call "operation"
  if operation ≠ .str "write" then .ok false
  else
    let status ← Dict.item call "execution_status"
    .ok (status = .str "completed")

/-- `{call["path"]: value(call) for call in calls if ...}`, over the completed writes, in their order;
a later value for a path takes the place of an earlier one. -/
def final_writes {α : Type} (value : Dict → Except PyError α) :
    List Dict → Except PyError (List (Json × α))
  | [] => .ok []
  | call :: calls => do
    if !(← completed_write call) then final_writes value calls
    else
      let path ← Dict.item call "path"
      let entry ← value call
      if !hashable path then .error .TypeError
      else
        let writes ← final_writes value calls
        .ok ((path, entry) :: writes)

/-- The value of a dictionary for a path. -/
def final_write {α : Type} (writes : List (Json × α)) (path : Json) : Option α :=
  (writes.reverse.find? fun w => Json.py_eq w.1 path).map (·.2)

/-- `runtime_dir / path`: the hash of the file, where the path is safe. -/
def runtime_hash (site : Site) (runtime : Tree Bytes) (path : Json) :
    Except PyError (Option (Option String)) :=
  match path with
  | .str text =>
    if site.runtime_links.is_symlink (path_parts text) then .ok none
    else do
      match ← site.runtime_links.resolve (path_parts text) with
      | none => .ok none
      | some target => .ok (some ((runtime.file target).map hexdigest))
  | _ => .error .TypeError

/-- The check of the last completed write of a path. -/
def check_write (site : Site) (runtime : Tree Bytes) (path : Json) (call : Dict) :
    Except PyError (List StoreFailure) := do
  match ← runtime_hash site runtime path with
  | none => .ok [(py_str path, "brokered output replaced by unsafe path")]
  | some actual_sha256 =>
    let sha256 ← Dict.item call "sha256"
    .ok (if actual_sha256.elim .null .str ≠ sha256 then
      [(py_str path, "brokered output changed outside BogK broker")] else [])

/-- What `run_brokered` finds after the process. -/
def run_failures (b : Broker) (site : Site) (before : Tree Bytes) (after : BrokerState)
    (result : Except String ProcessResult) : Except PyError (List StoreFailure) := do
  let exit := match result with
    | .error reason => [(b.app_info.name, reason)]
    | .ok result => if result.returncode ≠ 0 then
        [(b.app_info.name, "brokered app exited with code " ++ toString result.returncode)] else []
  let verification ← workspace_verify b site b.app_info.package
  let writes ← final_writes .ok after.calls
  let raw := (snapshot_changes (snapshot before) (snapshot after.runtime)).filter fun path =>
    (final_write writes (.str path)).isNone
  let paths := (writes.map (·.1)).dedup
  let checks ← paths.mapM fun path =>
    check_write site after.runtime path ((final_write writes path).getD [])
  .ok (exit ++ verification.failures ++ raw.map (·, "raw runtime write outside BogK broker") ++
    checks.flatten)

/-- `BogKernel.run_brokered`, with the runtime directory before the process, what the broker has after
it and the end of the process, where it could be started. -/
def run_brokered (b : Broker) (site : Site) (policy : Json) (before : Tree Bytes) (after : BrokerState)
    (result : Except String ProcessResult) : Except PyError ProcessReceipt := do
  let verification ← workspace_verify b site b.app_info.package
  if !verification.completed then finalize b verification policy [] none verification.failures
  else
    let failures ← run_failures b site before after result
    finalize b verification policy after.calls result.toOption failures

/-! ## Replay -/

section Replay

variable (b : Broker) (site : Site) (runtime : Tree Bytes)

/-- The evidence of `_replay_call` before its operation. -/
def replay_check (operation status : Json) : Except PyError Dict :=
  let evidence := Dict.of [("operation", operation), ("execution_status", status)]
  if !hashable operation then .error .TypeError
  else if needs_package operation then do
    let verification ← workspace_verify b site b.app_info.package
    .ok (Dict.set (Dict.set evidence "package_verification_status" (.str verification.status))
      "package_tree_sha256" verification.installed_tree)
  else .ok evidence

def replay_read_call (evidence call : Dict) (status : Json) : Except PyError Dict := do
  let path ← Dict.item call "path"
  let evidence := path_evidence evidence b.app_info.capabilities.read path
  if status ≠ .str "completed" then .ok evidence
  else
    match path with
    | .str text =>
      if site.install_links.is_symlink (path_parts text) then .ok (Dict.set evidence "sha256" .null)
      else
        match ← site.install_links.resolve (path_parts text) with
        | none => .ok (Dict.set evidence "sha256" .null)
        | some _ =>
          let file := (site.store.installed b.app_info.install_dir).bind (·.file (path_parts text))
          .ok (Dict.set evidence "sha256" ((file.map hexdigest).elim .null .str))
    | _ => .error .TypeError

def replay_write_call (evidence call : Dict) (status : Json) (verify_write_output : Bool) :
    Except PyError Dict := do
  let path ← Dict.item call "path"
  let evidence := path_evidence evidence b.app_info.capabilities.write path
  if status = .str "completed" && verify_write_output then
    let hash ← runtime_hash site runtime path
    .ok (Dict.set evidence "sha256" (hash.join.elim .null .str))
  else .ok (Dict.set evidence "sha256" ((Dict.get call "sha256").getD .null))

def replay_env_call (evidence call : Dict) : Except PyError Dict := do
  let name ← Dict.item call "name"
  if !hashable name then .error .TypeError
  else .ok (Dict.set (Dict.set (Dict.set evidence "name" name) "allowed"
    (.bool (listed b.app_info.capabilities.env name))) "value"
    ((environment_get b name).elim .null .str))

def replay_dependency_call (evidence call : Dict) : Except PyError Dict := do
  let package ← Dict.item call "package"
  let allowed := listed b.app_info.capabilities.dependencies package
  let evidence := Dict.set (Dict.set evidence "package" package) "allowed" (.bool allowed)
  match package with
  | .str name =>
    if !allowed then .ok evidence
    else do
      let verification ← workspace_verify b site name
      .ok (Dict.set (Dict.set evidence "bundle_sha256" verification.bundle_sha256)
        "verification_status" (.str verification.status))
  | _ => .ok evidence

/-- `_replay_call`, without the hash of the evidence. -/
def replay_evidence (call : Dict) (verify_write_output : Bool) : Except PyError Dict := do
  let operation ← Dict.item call "operation"
  let status ← Dict.item call "execution_status"
  let evidence ← replay_check b site operation status
  if operation = .str "read" then replay_read_call b site evidence call status
  else if operation = .str "write" then
    replay_write_call b site runtime evidence call status verify_write_output
  else if operation = .str "env" then replay_env_call b evidence call
  else if operation = .str "dependency" then replay_dependency_call b site evidence call
  else .ok (Dict.set evidence "call_count" ((Dict.get call "call_count").getD .null))

/-- `_replay_call` -/
def replay_call (call : Dict) (verify_write_output : Bool) : Except PyError Dict := do
  let evidence ← replay_evidence b site runtime call verify_write_output
  .ok (Dict.set evidence "evidence_sha256" (.str (stable_hash (.obj evidence))))

/-- `verify_write_output` in the loop of `replay`. -/
def verify_write_output (sequences : List (Json × Json)) (call : Dict) : Except PyError Bool := do
  if !(← completed_write call) then .ok true
  else
    let sequence ← Dict.item call "sequence"
    let last := final_write sequences ((Dict.get call "path").getD .null)
    .ok (Json.py_eq (last.getD .null) sequence)

/-- A call in the loop of `replay`, and whether its evidence agrees. -/
def replay_one (sequences : List (Json × Json)) (call : Dict) : Except PyError (Dict × Bool) := do
  let verify ← verify_write_output sequences call
  let replayed ← replay_call b site runtime call verify
  let recorded ← Dict.item call "evidence_sha256"
  .ok (replayed, (Dict.get replayed "evidence_sha256").getD .null = recorded)

/-- What `replay` returns. -/
structure ReplayReceipt where
  replayed_proof_sha256 : String
  replayed_syscall_receipts : List Dict
  failures : List String

def ReplayReceipt.replay_verified (receipt : ReplayReceipt) : Bool := receipt.failures = []

/-- The reason, where the check fails. -/
def reason_unless (ok : Bool) (reason : String) : List String := if ok then [] else [reason]

/-- `[call.get("sequence") for call in calls] == list(range(1, len(calls) + 1))` -/
def contiguous (calls : List Dict) : Bool :=
  calls.mapIdx (fun i call => Json.py_eq ((Dict.get call "sequence").getD .null) (.int (i + 1)))
    |>.all id

/-- `BogKernel.replay` of a receipt for this app, with the reasons of its failures. -/
def replay (policy : Json) (original : ProcessReceipt) : Except PyError ReplayReceipt := do
  let schema := reason_unless (receipt_schema original) "brokered-process-receipt.schema.json validation failed"
  let verification ← workspace_verify b site b.app_info.package
  -- `policy` is not assigned where the verification of the package fails, and read below
  if !verification.completed then .error .UnboundLocalError
  else
    let calls := original.syscall_receipts
    let checks := reason_unless (stable_hash policy = original.policy_sha256)
        "app policy changed since recorded process" ++
      reason_unless (contiguous calls) "syscall sequence is not contiguous"
    let sequences ← final_writes (fun call => Dict.item call "sequence") calls
    let replayed ← calls.mapM (replay_one b site runtime sequences)
    let mismatches := replayed.flatMap fun call => reason_unless call.2 "syscall replay evidence mismatch"
    let bundle := reason_unless (verification.bundle_sha256 = original.package_bundle_sha256)
      "package bundle changed since recorded process"
    let proof_material := original.proof_material
    let recorded := reason_unless (Dict.get proof_material "stdout_sha256" =
          some (.str (hexdigest (utf8 original.stdout)))) "recorded stdout hash mismatch" ++
      reason_unless (Dict.get proof_material "stderr_sha256" =
          some (.str (hexdigest (utf8 original.stderr)))) "recorded stderr hash mismatch" ++
      reason_unless (original.returncode = (Dict.get proof_material "returncode").getD .null)
        "recorded returncode mismatch" ++
      reason_unless (stable_hash (.obj proof_material) = original.proof_sha256)
        "recorded final proof hash mismatch"
    let evidence ← (replayed.map (·.1)).mapM fun call => Dict.item call "evidence_sha256"
    let replay_material := Dict.set (Dict.set (Dict.set (Dict.set proof_material
      "package_bundle_sha256" verification.bundle_sha256)
      "installed_tree_sha256" verification.installed_tree)
      "policy_sha256" (.str (stable_hash policy)))
      "syscall_evidence" (.arr evidence)
    let replay_proof := stable_hash (.obj replay_material)
    let final := reason_unless (replay_proof = original.proof_sha256) "replayed final proof hash mismatch"
    .ok ⟨replay_proof, replayed.map (·.1), schema ++ checks ++ mismatches ++ bundle ++ recorded ++ final⟩

end Replay

end Bogbin.Bogvm
