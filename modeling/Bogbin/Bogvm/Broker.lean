import Bogbin.Bogvm.Store

/-!
# The capability broker

A brokered process sends requests to `_CapabilityBroker`, which checks them against the capability
manifest of the app, performs them and records a call with the evidence of what it did.  An exception
in `_handle` is answered by `_serve`.
-/

namespace Bogbin.Bogvm

/-! ## Helpers -/

/-- `_is_safe_relpath` -/
def is_safe_relpath : Json → Bool
  | .str path => path ≠ "" && is_contained path
  | _ => false

/-- `value in names` for a list of strings. -/
def listed (names : List String) : Json → Bool
  | .str name => name ∈ names
  | _ => false

def hex_value (c : Char) : Option ℕ :=
  if c.isDigit then some (c.toNat - '0'.toNat)
  else if 'a' ≤ c ∧ c ≤ 'f' then some (c.toNat - 'a'.toNat + 10)
  else if 'A' ≤ c ∧ c ≤ 'F' then some (c.toNat - 'A'.toNat + 10)
  else none

def ascii_space (c : Char) : Bool := c = ' ' || (9 ≤ c.toNat && c.toNat ≤ 13)

/-- `bytes.fromhex`, on the characters; blanks may stand between two bytes. -/
def from_hex : List Char → Option Bytes
  | [] => some []
  | [c] => if ascii_space c then some [] else none
  | c :: c' :: rest =>
    if ascii_space c then from_hex (c' :: rest)
    else do
      let high ← hex_value c
      let low ← hex_value c'
      let data ← from_hex rest
      some (UInt8.ofNat (16 * high + low) :: data)

/-- `data.hex()` -/
def to_hex (data : Bytes) : String :=
  String.ofList (data.flatMap fun b => [hex_digit (b.toNat / 16), hex_digit (b.toNat % 16)])

/-- `request.get(key)` -/
def requested (request : Dict) (key : String) : Json := (Dict.get request key).getD .null

/-- `{**d, **e}` -/
def Dict.update (d e : Dict) : Dict := e.foldl (fun d field => Dict.set d field.1 field.2) d

/-! ## The app and its surroundings -/

structure Capabilities where
  read : List String
  write : List String
  env : List String
  dependencies : List String

/-- An app whose runtime policy was verified: it has a name, the paths in its manifest are safe and it
has a value for every environment name. -/
structure AppInfo where
  name : String
  package : String
  install_dir : String
  capabilities : Capabilities
  environment : List (String × String)
  named : name ≠ ""
  safe : ∀ path ∈ capabilities.read ++ capabilities.write, is_safe_relpath (.str path) = true
  declared : ∀ name ∈ capabilities.env, (environment.lookup name).isSome = true

/-- The symbolic links below a directory. -/
structure Links where
  is_symlink : Path → Bool
  /-- `(directory / path).resolve()` below the resolved directory; `none` leads out of it. -/
  resolve : Path → Except PyError (Option Path)

/-- The broker of a process. -/
structure Broker where
  host : Host
  keys : Keys
  app_info : AppInfo
  token : String

/-- What the broker reads: the store, and the links below the installed package and below the runtime
directory of the app. -/
structure Site where
  store : Store
  install_links : Links
  runtime_links : Links

/-- The calls that were recorded, and the runtime directory of the app. -/
structure BrokerState where
  calls : List Dict
  runtime : Tree Bytes

/-- What `_handle` adds to its answer. -/
structure Reply where
  data_hex : Option String
  size : Option ℕ
  sha256 : Option String
  value : Option String
  verification : Option Verification
  calls : Option (List Dict)

def Reply.empty : Reply := ⟨none, none, none, none, none, none⟩

/-- What an operation has found. -/
structure Outcome where
  evidence : Dict
  failures : List StoreFailure
  reply : Reply

inductive Response
  | answered (reply : Reply) (receipt : Dict) (failures : List StoreFailure)
  | raised (e : PyError)

def Response.completed : Response → Bool
  | .answered _ _ failures => failures = []
  | .raised _ => false

/-! ## Verifications as dictionaries -/

namespace Verification

def failures : Verification → List StoreFailure
  | .blocked package reason => [(package, reason)]
  | .checked _ _ _ _ _ failures => failures

def status (v : Verification) : String := if v.completed then "completed" else "blocked"

/-- `verification.get("installed_tree_sha256")` -/
def installed_tree : Verification → Json
  | .blocked _ _ => .null
  | .checked _ _ _ _ none _ => .null
  | .checked _ _ _ _ (some hash) _ => .str hash

/-- `verification.get("bundle_sha256")` -/
def bundle_sha256 : Verification → Json
  | .blocked _ _ => .null
  | .checked _ receipt _ _ _ _ => .str receipt.bundle_sha256

end Verification

/-! ## The operations -/

section Operations

variable (b : Broker) (site : Site) (request evidence : Dict) (failures : List StoreFailure)

def valid_token : Bool := requested request "token" = .str b.token

def workspace_verify (package : String) : Except PyError Verification :=
  verify_installed_package b.host b.keys true site.store package

/-- `operation in {"read", "write", "env", "dependency"}` -/
def needs_package (operation : Json) : Bool :=
  listed ["read", "write", "env", "dependency"] operation

/-- The token and the package of the app. -/
def check_request : Except PyError (Dict × List StoreFailure) :=
  let operation := requested request "operation"
  let evidence := Dict.of [("operation", operation)]
  if !valid_token b request then
    .ok (evidence, [("broker", "invalid broker capability token")])
  else if !hashable operation then .error .TypeError
  else if needs_package operation then do
    let verification ← workspace_verify b site b.app_info.package
    .ok (Dict.set (Dict.set evidence "package_verification_status" (.str verification.status))
        "package_tree_sha256" verification.installed_tree,
      if verification.completed then [] else verification.failures)
  else .ok (evidence, [])

/-- The path of a request and whether it is listed. -/
def path_evidence (evidence : Dict) (allowed : List String) (path : Json) : Dict :=
  Dict.set (Dict.set evidence "path" path) "allowed" (.bool (listed allowed path))

def read_call : Except PyError Outcome :=
  let path := requested request "path"
  let allowed := b.app_info.capabilities.read
  let evidence := path_evidence evidence allowed path
  let fail (reason : String) : Except PyError Outcome :=
    .ok ⟨evidence, failures ++ [(py_str path, reason)], .empty⟩
  match path with
  | .str text =>
    if !is_safe_relpath path || !listed allowed path then fail "read blocked by capability manifest"
    else if failures ≠ [] then .ok ⟨evidence, failures, .empty⟩
    else if site.install_links.is_symlink (path_parts text) then
      fail "capability read target is unsafe"
    else do
      match ← site.install_links.resolve (path_parts text) with
      | none => fail "capability read target is unsafe"
      | some _ =>
        match (site.store.installed b.app_info.install_dir).bind (·.file (path_parts text)) with
        | none => fail "capability read target missing"
        | some data =>
          .ok ⟨Dict.set evidence "sha256" (.str (hexdigest data)), failures,
            { Reply.empty with data_hex := some (to_hex data) }⟩
  | _ => fail "read blocked by capability manifest"

/-- The data of a write request. -/
def write_data (path : Json) : Except PyError (Bytes × List StoreFailure) :=
  match (Dict.get request "data_hex").getD (.str "") with
  | .str text =>
    match from_hex text.toList with
    | some data => .ok (data, failures)
    | none => .ok ([], failures ++ [(py_str path, "invalid broker write data")])
  | _ => .error .TypeError

/-- Make the parents of a file in the runtime directory and write it. -/
def write_target (target : Path) (data : Bytes) : EStateM PyError BrokerState Unit := fun state =>
  let write : EStateM PyError Output Unit := do
    make_dirs b.host [] target.dropLast
    write_bytes b.host target data
  match write ⟨state.runtime, []⟩ with
  | .ok _ output => .ok () { state with runtime := output.tree }
  | .error e output => .error e { state with runtime := output.tree }

def write_call : EStateM PyError BrokerState Outcome := do
  let path := requested request "path"
  let allowed := b.app_info.capabilities.write
  let evidence := path_evidence evidence allowed path
  let (data, failures) ← MonadExcept.ofExcept (write_data request failures path)
  let evidence := Dict.set evidence "sha256" (.str (hexdigest data))
  match path with
  | .str text =>
    if !is_safe_relpath path || !listed allowed path then
      return ⟨evidence, failures ++ [(text, "write blocked by capability manifest")], .empty⟩
    else if failures ≠ [] then return ⟨evidence, failures, .empty⟩
    else
      match ← MonadExcept.ofExcept (site.runtime_links.resolve (path_parts text)) with
      | none => return ⟨evidence, [(text, "broker write escaped appdata")], .empty⟩
      | some target =>
        write_target b target data
        return ⟨evidence, failures,
          { Reply.empty with size := some data.length, sha256 := some (hexdigest data) }⟩
  | _ => return ⟨evidence, failures ++ [(py_str path, "write blocked by capability manifest")], .empty⟩

/-- `environment.get(name)` -/
def environment_get (name : Json) : Option String :=
  match name with
  | .str name => b.app_info.environment.lookup name
  | _ => none

def env_call : Except PyError Outcome :=
  let name := requested request "name"
  let allowed := listed b.app_info.capabilities.env name
  if !hashable name then .error .TypeError
  else
    let value := environment_get b name
    let evidence := Dict.set (Dict.set (Dict.set evidence "name" name) "allowed" (.bool allowed))
      "value" (value.elim .null .str)
    if !allowed then
      .ok ⟨evidence, failures ++ [(py_str name, "environment access blocked by capability manifest")],
        .empty⟩
    else if failures ≠ [] then .ok ⟨evidence, failures, .empty⟩
    else
      match value with
      | none => .error .KeyError
      | some value => .ok ⟨evidence, failures, { Reply.empty with value := some value }⟩

def dependency_call : Except PyError Outcome :=
  let package := requested request "package"
  let allowed := b.app_info.capabilities.dependencies
  let evidence := Dict.set (Dict.set evidence "package" package) "allowed"
    (.bool (listed allowed package))
  match package with
  | .str name =>
    if !listed allowed package then
      .ok ⟨evidence, failures ++ [(name, "dependency access blocked by capability manifest")], .empty⟩
    else if failures ≠ [] then .ok ⟨evidence, failures, .empty⟩
    else do
      let verification ← workspace_verify b site name
      let evidence := Dict.set (Dict.set evidence "bundle_sha256" verification.bundle_sha256)
        "verification_status" (.str verification.status)
      if !verification.completed then .ok ⟨evidence, failures ++ verification.failures, .empty⟩
      else .ok ⟨evidence, failures, { Reply.empty with verification := some verification }⟩
  | _ => .ok ⟨evidence,
      failures ++ [(py_str package, "dependency access blocked by capability manifest")], .empty⟩

def receipt_call (calls : List Dict) : Outcome :=
  ⟨Dict.set evidence "call_count" (.int calls.length), failures,
    { Reply.empty with calls := some calls }⟩

/-- The operation of a request. -/
def perform : EStateM PyError BrokerState Outcome :=
  let operation := requested request "operation"
  if !valid_token b request then return ⟨evidence, failures, .empty⟩
  else if operation = .str "read" then
    MonadExcept.ofExcept (read_call b site request evidence failures)
  else if operation = .str "write" then write_call b site request evidence failures
  else if operation = .str "env" then MonadExcept.ofExcept (env_call b request evidence failures)
  else if operation = .str "dependency" then
    MonadExcept.ofExcept (dependency_call b site request evidence failures)
  else if operation = .str "receipt" then do
    let state ← get
    return receipt_call evidence failures state.calls
  else return ⟨evidence,
    failures ++ [(py_str operation, "unknown broker capability operation")], .empty⟩

def failure_json (failure : StoreFailure) : Json :=
  .obj (Dict.of [("path", .str failure.1), ("reason", .str failure.2)])

def status_json (failures : List StoreFailure) : Json :=
  .str (if failures = [] then "completed" else "blocked")

/-- The evidence with its status. -/
def final_evidence (outcome : Outcome) : Dict :=
  Dict.set outcome.evidence "execution_status" (status_json outcome.failures)

/-- The record of a call. -/
def call_record (sequence : ℕ) (outcome : Outcome) : Dict :=
  let evidence := final_evidence outcome
  Dict.update
    (Dict.update
      (Dict.of [("format", .str "BOGK-capability-syscall-receipt-8.0"), ("sequence", .int sequence),
        ("app", .str b.app_info.name)])
      evidence)
    (Dict.of [("evidence_sha256", .str (stable_hash (.obj evidence))),
      ("failures", .arr (outcome.failures.map failure_json)),
      ("execution_status", status_json outcome.failures)])

/-- `_CapabilityBroker._handle` -/
def handle : EStateM PyError BrokerState Response := do
  let (evidence, failures) ← MonadExcept.ofExcept (check_request b site request)
  let outcome ← perform b site request evidence failures
  let state ← get
  let call := call_record b (state.calls.length + 1) outcome
  set { state with calls := state.calls ++ [call] }
  return .answered outcome.reply call outcome.failures

end Operations

/-- The answer of `_CapabilityBroker._serve` to a line, and the state after it. -/
def serve (b : Broker) (site : Site) (line : Content) (state : BrokerState) :
    Response × BrokerState :=
  match line with
  | .undecodable => (.raised .UnicodeDecodeError, state)
  | .unparsable => (.raised .ValueError, state)
  | .value (.obj request) =>
    match handle b site request state with
    | .ok response state => (response, state)
    | .error e state => (.raised e, state)
  | .value _ => (.raised .AttributeError, state)

end Bogbin.Bogvm
