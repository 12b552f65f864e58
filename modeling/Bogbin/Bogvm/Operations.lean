import Bogbin.Bogvm.Genesis
import Bogbin.Library.StateExcept

/-!
# Session operations

`boot`, `fs_write`, `fs_read`, `rollback` and `state_checkout` on the directory of a session.  An
exception leaves the directory as it was when it was raised.
-/

namespace Bogbin.Bogvm

/-- `Path(path).as_posix()` of a path that stays below its directory. -/
def safe_path (path : String) : Except PyError String :=
  let parts := (path.toList.splitOn '/').filter fun part => part ≠ [] ∧ part ≠ ['.']
  if path.toList.head? = some '/' ∨ ['.', '.'] ∈ parts ∨ path = "" then .error .GenesisError
  else if parts = [] then .ok "."
  else .ok (String.ofList (List.intercalate ['/'] parts))

def Genesis.current_manifest : EStateM PyError Genesis (String × Dict) := do
  modify Genesis.opened
  MonadExcept.ofExcept (← get).current_state

/-- `self.record(event, receipt)` -/
def record_entry (keys : Keys) (event : String) (receipt : Dict) : EStateM PyError Genesis Dict := do
  let (entry, g) ← MonadExcept.ofExcept (record keys (← get) event receipt)
  set g
  pure entry

/-! ## Boot -/

/-- The fields of a boot receipt that come from other parts of the workspace. -/
structure BootMaterial where
  workspace_sha256 : String
  trust_store_sha256 : String
  installed_package_index_sha256 : Option String
  kernel_state_sha256 : Option String
  registry_sha256 : Option String
  lockfile_sha256 : Option String
  trusted_boot_completed : Bool

def boot_receipt (material : BootMaterial) (previous_receipt_root_hash : Json)
    (state_root : String) : Dict :=
  Dict.of [
    ("format", .str "BOGOS-Genesis-boot-receipt-9.0"),
    ("trusted_boot_completed", .bool material.trusted_boot_completed),
    ("workspace_sha256", .str material.workspace_sha256),
    ("trust_store_sha256", .str material.trust_store_sha256),
    ("installed_package_index_sha256", opt_str material.installed_package_index_sha256),
    ("kernel_state_sha256", opt_str material.kernel_state_sha256),
    ("registry_sha256", opt_str material.registry_sha256),
    ("lockfile_sha256", opt_str material.lockfile_sha256),
    ("previous_receipt_root_hash", previous_receipt_root_hash),
    ("state_root_sha256", .str state_root),
    ("execution_status", .str "completed")]

/-- The material is what the registry, the lock and the kernel give before the session is read. -/
def boot (keys : Keys) (material : Except PyError BootMaterial) : EStateM PyError Genesis Dict := do
  let material ← MonadExcept.ofExcept material
  let (state_root, _) ← Genesis.current_manifest
  let previous_receipt_root_hash ← MonadExcept.ofExcept (last_hash (← get).ledger)
  record_entry keys "trusted-boot" (boot_receipt material previous_receipt_root_hash state_root)

/-! ## Files -/

/-- The entry of a file table. -/
def file_entry (data : Bytes) : Json :=
  .obj (Dict.of [("object_sha256", .str (hexdigest data)), ("size", .int data.length)])

/-- The object file, which is written unless there is one. -/
def Genesis.put_object (g : Genesis) (data : Bytes) : Genesis :=
  if (g.objects.lookup (hexdigest data)).isSome then g
  else { g with objects := (hexdigest data, data) :: g.objects }

def write_receipt (rel capability object_hash before_root after_root : String) : Dict :=
  Dict.of [
    ("format", .str "BOGOS-Genesis-fs-write-receipt-9.0"),
    ("path", .str rel),
    ("capability", .str capability),
    ("object_sha256", .str object_hash),
    ("before_root_sha256", .str before_root),
    ("after_root_sha256", .str after_root),
    ("execution_status", .str "completed")]

def fs_write (keys : Keys) (path : String) (data : Bytes) (capability : String) :
    EStateM PyError Genesis Dict := do
  let rel ← MonadExcept.ofExcept (safe_path path)
  let (_, before) ← Genesis.current_manifest
  modify (·.put_object data)
  let after := Dict.set before rel (file_entry data)
  modify fun g => (g.save_manifest after).2
  record_entry keys "fs-write"
    (write_receipt rel capability (hexdigest data) (manifest_root before) (manifest_root after))

/-- The stored bytes that an entry of a file table names. -/
def read_object (g : Genesis) (entry : Json) : Except PyError Bytes := do
  let fields ← as_dict entry
  match ← Dict.item fields "object_sha256" with
  | .str name =>
    match g.objects.lookup name with
    | some data => .ok data
    | none => .error .FileNotFoundError
  | _ => .error .TypeError

def fs_read_receipt (rel capability : String) (object_hash : Option String) (state_root : String)
    (failures : List Failure) : Dict :=
  Dict.of [
    ("format", .str "BOGOS-Genesis-fs-read-receipt-9.0"),
    ("path", .str rel),
    ("capability", .str capability),
    ("object_sha256", opt_str object_hash),
    ("state_root_sha256", .str state_root),
    ("failures", failures_json failures),
    ("execution_status", .str (execution_status failures))]

def fs_read (keys : Keys) (path capability : String) : EStateM PyError Genesis (Bytes × Dict) := do
  let rel ← MonadExcept.ofExcept (safe_path path)
  let (_, files) ← Genesis.current_manifest
  match (Dict.get files rel).filter Json.truthy with
  | some entry => do
    let data ← MonadExcept.ofExcept (read_object (← get) entry)
    let (root, _) ← Genesis.current_manifest
    let receipt ← record_entry keys "fs-read"
      (fs_read_receipt rel capability (some (hexdigest data)) root [])
    pure (data, receipt)
  | none => do
    let (root, _) ← Genesis.current_manifest
    let receipt ← record_entry keys "fs-read"
      (fs_read_receipt rel capability none root [(.str rel, "file does not exist in Genesis state")])
    pure ([], receipt)

/-! ## Moving the state pointer -/

def rollback_receipt (source_receipt : Json) (before : String) (target : Json) (verified : Bool)
    (failures : List Failure) : Dict :=
  Dict.of [
    ("format", .str "BOGOS-Genesis-rollback-receipt-9.0"),
    ("source_receipt", source_receipt),
    ("before_root_sha256", .str before),
    ("after_root_sha256", target),
    ("rollback_verified", .bool verified),
    ("failures", failures_json failures),
    ("execution_status", .str (execution_status failures))]

def rollback (keys : Keys) (selector : String) : EStateM PyError Genesis Dict := do
  let entry ← MonadExcept.ofExcept (read_entry (← get).ledger selector >>= as_dict)
  let target := target_root entry
  let failures := failure_if (!recoverable (← get) entry)
    (.str selector, "receipt does not identify a recoverable state root")
  let (before, _) ← Genesis.current_manifest
  if failures = [] then do
    match target with
    | .str root => modify (·.set_current_root root)
    | _ => throw .TypeError
    let source_receipt ← MonadExcept.ofExcept (Dict.item entry "receipt_hash")
    let (root, _) ← Genesis.current_manifest
    record_entry keys "rollback"
      (rollback_receipt source_receipt before target (.str root = target) failures)
  else do
    let source_receipt ← MonadExcept.ofExcept (Dict.item entry "receipt_hash")
    record_entry keys "rollback" (rollback_receipt source_receipt before target false failures)

/-- `HyperGenesis._state`.  A root with a slash leads out of the directory of the states. -/
def Genesis.state (outside : String → Except PyError Dict) (g : Genesis) (root : String) :
    Except PyError Dict := do
  let files ←
    if '/' ∈ root.toList then outside root
    else
      match g.states.lookup root with
      | some files => .ok files
      | none => .error .HyperGenesisError
  if manifest_root files ≠ root then .error .HyperGenesisError
  else .ok files

def checkout_receipt (before root : String) (verified : Bool) : Dict :=
  Dict.of [
    ("format", .str "BOGSTATE-checkout-receipt-10.0"),
    ("before_root_sha256", .str before),
    ("after_root_sha256", .str root),
    ("checkout_verified", .bool verified),
    ("execution_status", .str "completed")]

def state_checkout (keys : Keys) (outside : String → Except PyError Dict) (root : String) :
    EStateM PyError Genesis Dict := do
  let _ ← MonadExcept.ofExcept ((← get).state outside root)
  let (before, _) ← Genesis.current_manifest
  modify (·.set_current_root root)
  let (current, _) ← Genesis.current_manifest
  record_entry keys "state-checkout" (checkout_receipt before root (current = root))

/-! ## Operations -/

inductive Operation
  | boot (material : Except PyError BootMaterial)
  | fs_write (path : String) (data : Bytes) (capability : String)
  | fs_read (path capability : String)
  | rollback (selector : String)
  | state_checkout (root : String)

/-- The call of an operation, with its receipt. -/
def Operation.call (keys : Keys) (outside : String → Except PyError Dict) :
    Operation → EStateM PyError Genesis Dict
  | boot material => Bogvm.boot keys material
  | fs_write path data capability => Bogvm.fs_write keys path data capability
  | fs_read path capability => do
    let (_, receipt) ← Bogvm.fs_read keys path capability
    pure receipt
  | rollback selector => Bogvm.rollback keys selector
  | state_checkout root => Bogvm.state_checkout keys outside root

end Bogbin.Bogvm
