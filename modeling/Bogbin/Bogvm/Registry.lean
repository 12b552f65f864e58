import Bogbin.Bogvm.AppIndex
import Bogbin.Bogvm.Compare
import Bogbin.Bogvm.LedgerAppend

/-!
# The registry and the lock

A registry is a directory with a signed index of bundles, and `bog.lock` pins the packages of a
registry.  `verify_registry` and `verify_lock` give a full result or, when a file is missing or cannot
be read, a short one with nothing but failures; `install` and `sync_registry_from` use them.
-/

namespace Bogbin.Bogvm

def REGISTRY_FORMAT : String := "BOGOS-Genesis-registry-9.0"

def LOCK_FORMAT : String := "BOGOS-Genesis-lock-9.0"

/-- Where a workspace lies, and what is around it. -/
structure RegistryPlace where
  /-- The names on the way to the registry directory, which is resolved. -/
  dir : Path
  /-- `str(self.root)` -/
  root : String
  /-- A directory outside the registry. -/
  is_dir : Path → Bool
  /-- The text of an exception. -/
  message : PyError → String
  floats : Floats

/-- A workspace with its registry, its lock and its session. -/
structure RegistryWorkspace where
  registry : Option (Tree File)
  lock : Option Content
  genesis : Genesis
  apps : AppWorkspace
  /-- `len(self.state["receipts"])` -/
  receipt_count : ℕ

/-! ## Paths -/

/-- The text of an absolute path. -/
def absolute_path (path : Path) : String := String.ofList ('/' :: List.intercalate ['/'] path)

/-- `path / text` -/
def join_path (path : Path) (text : String) : Path :=
  if is_absolute text then path_parts text else path ++ path_parts text

/-- `path.resolve()` -/
def resolve_path (path : Path) : Path :=
  path.foldl (fun p part => if part = ['.', '.'] then p.dropLast else p ++ [part]) []

/-- The path from a directory, when it is relative to it. -/
def relative_to (dir path : Path) : Option Path :=
  if dir <+: path then some (path.drop dir.length) else none

/-- The directory at a path. -/
def Tree.at_path {α : Type} (t : Tree α) (path : Path) : Tree α :=
  path.foldl (fun t name => t.sub (String.ofList name)) t

namespace RegistryPlace

variable (place : RegistryPlace)

def index_path : String := absolute_path (place.dir ++ ["index.json".toList])

def lock_path : String := place.root ++ "/bog.lock"

/-- The names on the way to a file that the system opens: a directory that `..` leaves has to be
there. -/
def open_path (registry : Tree File) (path : Path) : Option Path :=
  path.foldlM (fun p part =>
    if part ≠ ['.', '.'] then some (p ++ [part])
    else if p <+: place.dir ∨ (relative_to place.dir p).any (· ∈ registry.dirs) ∨ place.is_dir p then
      some p.dropLast
    else none) []

end RegistryPlace

/-! ## Values -/

/-- `json.loads(path.read_text())` -/
def load_json (content : Option Content) : Except PyError Json :=
  match content with
  | none => .error .FileNotFoundError
  | some .undecodable => .error .UnicodeDecodeError
  | some .unparsable => .error .JSONDecodeError
  | some (.value v) => .ok v

/-- `value[key]` -/
def subscript (v : Json) (key : String) : Except PyError Json :=
  match v with
  | .obj d => Dict.item d key
  | _ => .error .TypeError

/-- `value.pop("signature")`, with the rest of the value. -/
def pop_signature (v : Json) : Except PyError (Dict × Json) :=
  match v with
  | .obj d => do
    let signature ← Dict.item d "signature"
    .ok (Dict.pop d "signature", signature)
  | .arr _ => .error .TypeError
  | _ => .error .AttributeError

mutual

/-- `a == b` of values with values in them. -/
def values_eq : Json → Json → Bool
  | .arr a, .arr b => items_eq a b
  | .obj a, .obj b => fields_eq a b
  | v, w => v.py_eq w

def items_eq : List Json → List Json → Bool
  | [], [] => true
  | v :: a, w :: b => values_eq v w && items_eq a b
  | _, _ => false

def fields_eq : List (String × Json) → List (String × Json) → Bool
  | [], [] => true
  | (k, v) :: a, (k', w) :: b => k = k' && values_eq v w && fields_eq a b
  | _, _ => false

end

/-- The errors that the verifications turn into a failure. -/
def is_caught : PyError → Bool
  | .OSError | .FileNotFoundError | .KeyError | .JSONDecodeError => true
  | _ => false

/-- The failure of a signature. -/
def signature_failures (verified : Bool) (path : String) (signature : Json) : List Failure :=
  match signature with
  | .obj fields => failure_if (!verified) (.str path, signature_reason fields)
  | _ => []

/-! ## The registry -/

/-- The result of `verify_registry`. -/
inductive RegistryCheck
  | short (failures : List Failure)
  | full (registry_signature_verified : Bool) (registry_sha256 : String) (package_count : ℕ)
      (failures : List Failure)

namespace RegistryCheck

def failures : RegistryCheck → List Failure
  | short failures => failures
  | full _ _ _ failures => failures

/-- `check["registry_signature_verified"]` -/
def registry_signature_verified : RegistryCheck → Except PyError Bool
  | short _ => .error .KeyError
  | full verified _ _ _ => .ok verified

/-- `check.get("registry_sha256")` -/
def registry_sha256 : RegistryCheck → Json
  | short _ => .null
  | full _ hash _ _ => .str hash

/-- The dictionary. -/
def fields (check : RegistryCheck) : List (String × Json) :=
  (match check with
  | short _ => []
  | full verified hash package_count _ =>
    [("registry_signature_verified", .bool verified), ("registry_sha256", .str hash),
      ("package_count", .int package_count)]) ++
    [("failures", failures_json check.failures),
      ("execution_status", .str (execution_status check.failures))]

end RegistryCheck

section Verify

variable (keys : Keys) (place : RegistryPlace)

/-- The path of a bundle below the registry. -/
def bundle_path (item : Json) : Except PyError (Option Path) := do
  match ← subscript item "bundle" with
  | .str text =>
    if '\x00' ∈ text.toList then .error .ValueError
    else .ok (relative_to place.dir (resolve_path (join_path place.dir text)))
  | _ => .error .TypeError

/-- The fields of an index entry that repeat the receipt. -/
def expected_fields (receipt : Json) : Except PyError (List (String × Json)) := do
  let name ← subscript receipt "name"
  let version ← subscript receipt "version"
  let dependencies ← subscript receipt "dependencies"
  let bundle_sha256 ← subscript receipt "bundle_sha256"
  let archive_tree_sha256 ← subscript receipt "archive_tree_sha256"
  let signature ← subscript receipt "signature"
  let public_key_id ← subscript signature "key_id"
  .ok [("name", name), ("version", version), ("dependencies", dependencies),
    ("bundle_sha256", bundle_sha256), ("archive_tree_sha256", archive_tree_sha256),
    ("public_key_id", public_key_id)]

/-- `item.get(field) != value` -/
def field_differs (item : Dict) (field : String × Json) : Bool :=
  !values_eq ((Dict.get item field.1).getD .null) field.2

/-- The checks of one bundle. -/
def verify_bundle (bundle : Tree File) (key : String) (item : Dict) : Except PyError (List Failure) := do
  let receipt ← load_json ((bundle.file ["receipt.json".toList]).map File.content)
  let receipt_bundle_sha256 ← subscript receipt "bundle_sha256"
  let item_bundle_sha256 ← Dict.item item "bundle_sha256"
  let hash ← directory_hash bundle
  let receipt_hash ← Dict.item item "receipt_hash"
  let fields ← as_dict receipt
  let verified ← verify_object_signature keys (Dict.pop fields "signature")
    ((Dict.get fields "signature").getD (.obj []))
  let expected ← expected_fields receipt
  .ok (failure_if (!values_eq receipt_bundle_sha256 item_bundle_sha256)
        (.str key, "registry package bundle hash mismatch") ++
      failure_if (!values_eq (.str hash) item_bundle_sha256)
        (.str key, "registry package content hash mismatch") ++
      failure_if (!values_eq (.str (stable_hash receipt)) receipt_hash)
        (.str key, "registry package receipt hash mismatch") ++
      failure_if (!verified) (.str key, "registry package signature is not trusted") ++
      failure_if (expected.any (field_differs item))
        (.str key, "registry package metadata does not match signed receipt"))

/-- The step of the loop over the index. -/
def verify_item (registry : Tree File) (item : String × Json) : Except PyError (List Failure) := do
  match ← bundle_path place item.2 with
  | none => .ok [(.str item.1, "registry package path escapes registry")]
  | some path => do
    let fields ← as_dict item.2
    verify_bundle keys (registry.at_path path) item.1 fields

/-- `index.json`; a directory of this name cannot be read. -/
def index_content (registry : Tree File) : Except PyError Json :=
  if ["index.json".toList] ∈ registry.dirs then .error .OSError
  else load_json ((registry.file ["index.json".toList]).map File.content)

/-- `path.exists()` for the index. -/
def has_index (registry : Tree File) : Bool :=
  (registry.file ["index.json".toList]).isSome || ["index.json".toList] ∈ registry.dirs

/-- The verification of a registry that has an index. -/
def check_registry (registry : Tree File) : Except PyError RegistryCheck := do
  let v ← index_content registry
  let (signed, signature) ← pop_signature v
  let verified ← verify_object_signature keys signed signature
  let packages ← as_dict ((Dict.get signed "packages").getD (.obj []))
  let failures ← packages.mapM (verify_item keys place registry)
  .ok (.full verified (stable_hash (.obj signed)) packages.length
    (signature_failures verified place.index_path signature ++
      failure_if (Dict.get signed "format" ≠ some (.str REGISTRY_FORMAT))
        (.str place.index_path, "unsupported Genesis registry format") ++
      failures.flatten))

/-- `verify_registry(required=True)` -/
def verify_registry (registry : Option (Tree File)) : Except PyError RegistryCheck :=
  match registry.filter has_index with
  | none => .ok (.short [(.str "registry", "registry is missing")])
  | some registry =>
    match check_registry keys place registry with
    | .ok check => .ok check
    | .error e =>
      if is_caught e then .ok (.short [(.str place.index_path, place.message e)]) else .error e

/-! ## The lock -/

/-- The result of `verify_lock`. -/
inductive LockCheck
  | short (failures : List Failure)
  | full (lockfile_sha256 : String) (packages : List Json) (failures : List Failure)

namespace LockCheck

def failures : LockCheck → List Failure
  | short failures => failures
  | full _ _ failures => failures

/-- `check["lockfile_verified"]` -/
def lockfile_verified : LockCheck → Except PyError Bool
  | short _ => .error .KeyError
  | full _ _ failures => .ok (failures = [])

/-- The dictionary. -/
def fields (check : LockCheck) : List (String × Json) :=
  (match check with
  | short _ => []
  | full hash packages failures =>
    [("lockfile_verified", .bool (failures = [])), ("lockfile_sha256", .str hash),
      ("packages", .arr packages)]) ++
    [("failures", failures_json check.failures),
      ("execution_status", .str (execution_status check.failures))]

end LockCheck

/-- `_registry_index` -/
def registry_index (registry : Option (Tree File)) : Except PyError Json :=
  match index_content (registry.getD .empty) with
  | .ok v => .ok v
  | .error .UnicodeDecodeError => .error .UnicodeDecodeError
  | .error _ => .error .GenesisError

/-- `sorted(self._trusted_key_ids())` -/
def trust_key_ids : Json :=
  .arr (((keys.trusted_keys.map key_id).mergeSort fun a b => a.toList ≤ b.toList).map .str)

/-- `sorted(value)` -/
def sorted_value (v : Json) : Except PyError (List Json) :=
  match v with
  | .obj fields => .ok (fields.map fun field => .str field.1)
  | .str s => .ok ((s.toList.mergeSort (· ≤ ·)).map fun c => .str (String.ofList [c]))
  | .arr items =>
    if items.Pairwise fun a b =>
        (less_value place.floats a b).isOk ∧ (less_value place.floats b a).isOk then
      .ok (items.mergeSort fun a b => !(less_value place.floats b a).toOption.getD false)
    else .error .TypeError
  | _ => .error .TypeError

/-- The verification of a lock that is there. -/
def check_lock (registry : Option (Tree File)) (content : Content) : Except PyError LockCheck := do
  let v ← load_json (some content)
  let (signed, signature) ← pop_signature v
  let verified ← verify_object_signature keys signed signature
  let check ← verify_registry keys place registry
  let registry_sha256 ← Dict.item signed "registry_sha256"
  let key_ids ← Dict.item signed "trust_key_ids"
  let packages ← Dict.item signed "packages"
  let index ← registry_index registry
  let index ← as_dict index
  let names ← sorted_value place packages
  .ok (.full (stable_hash (.obj signed)) names
    (signature_failures verified place.lock_path signature ++
      failure_if (!values_eq registry_sha256 check.registry_sha256)
        (.str place.lock_path, "lockfile registry hash mismatch") ++
      failure_if (!values_eq key_ids (trust_key_ids keys))
        (.str place.lock_path, "lockfile trust keys mismatch") ++
      failure_if (!values_eq packages ((Dict.get index "packages").getD .null))
        (.str place.lock_path, "lockfile package pins do not match registry")))

/-- `verify_lock(required=True)` -/
def verify_lock (w : RegistryWorkspace) : Except PyError LockCheck :=
  match w.lock with
  | none => .ok (.short [(.str "lockfile", "lockfile is missing")])
  | some content =>
    match check_lock keys place w.registry content with
    | .ok check => .ok check
    | .error e =>
      if is_caught e then .ok (.short [(.str place.lock_path, place.message e)]) else .error e

end Verify

end Bogbin.Bogvm
