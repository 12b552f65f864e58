import Bogbin.Bogvm.Registry

/-!
# Registry operations

`sync_registry_from` replaces the registry and then verifies it, and `install` installs a pinned
package.  Both leave a receipt in the ledger (`registry_fails_safe_iff` says when they fail safe).
-/

namespace Bogbin.Bogvm

open StateExcept

section Operations

variable (host : Host) (keys : Keys) (reader : ManifestReader) (place : RegistryPlace)

/-- `self.record(event, receipt)` -/
def record_session (event : String) (receipt : Dict) : EStateM PyError RegistryWorkspace Dict := do
  let (entry, genesis) ← MonadExcept.ofExcept (record keys (← get).genesis event receipt)
  modify fun w => { w with genesis := genesis }
  pure entry

/-! ## Synchronizing -/

def sync_receipt (fields : List (String × Json)) : Dict :=
  Dict.of (("format", .str "BOGOS-Genesis-registry-sync-receipt-9.0") :: fields)

def sync_registry : EStateM PyError RegistryWorkspace Dict := do
  let check ← MonadExcept.ofExcept (verify_registry keys place (← get).registry)
  record_session keys "registry-sync" (sync_receipt check.fields)

/-- The directory that a registry is synchronized from. -/
inductive RegistrySource
  /-- A directory that the registry directory is not below. -/
  | elsewhere (directory : Tree File)
  /-- The registry directory or one below it. -/
  | inside (path : Path)

/-- `(source_path / "index.json").is_file()` -/
def RegistrySource.has_index_file (source : RegistrySource) (registry : Option (Tree File)) : Bool :=
  (match source with
    | elsewhere directory => directory.file ["index.json".toList]
    | inside path => ((registry.getD .empty).at_path path).file ["index.json".toList]).isSome

def missing_source_receipt (source_path : String) : Dict :=
  sync_receipt [("source", .str source_path),
    ("failures", failures_json [(.str source_path, "registry source is missing index.json")]),
    ("execution_status", .str "blocked")]

def sync_registry_from (source_path : String) (source : RegistrySource) :
    EStateM PyError RegistryWorkspace Dict := do
  if !source.has_index_file (← get).registry then
    record_session keys "registry-sync" (missing_source_receipt source_path)
  else do
    modify fun w => { w with registry := none }
    match source with
    | .inside _ => throw .FileNotFoundError
    | .elsewhere directory => do
      modify fun w => { w with registry := some directory }
      let receipt ← sync_registry keys place
      pure (Dict.set receipt "source" (.str source_path))

/-! ## Installing -/

def InstallReceipt.to_json (receipt : InstallReceipt) : Json :=
  .obj (Dict.of [
    ("format", .str "BOGSTORE-install-receipt-3.0"),
    ("package", .str receipt.package),
    ("package_dir", .str receipt.package_dir),
    ("install_dir", .str receipt.install_dir),
    ("archive_tree_sha256", .str receipt.receipt.archive_tree_sha256),
    ("bundle_sha256", .str receipt.bundle_sha256),
    ("restore_tree_sha256", .str receipt.restore_tree_sha256),
    ("dependencies", .arr (receipt.receipt.dependencies.map .str)),
    ("signature_verification", receipt.signature.to_json),
    ("execution_status", .str "completed")])

/-- What `Workspace.install_package` has done, with the failures of its receipt. -/
structure PackageInstall where
  receipt : Dict
  failures : List Failure

/-- The receipt of `Workspace.install_package`. -/
def package_install (bundle_dir : String) (installed : Option InstallReceipt) : PackageInstall :=
  let envelope := [("workspace", Json.str place.root), ("bundle", .str bundle_dir),
    ("receipt_format", .str "BOGOS-receipt-4.0"), ("action", .str "store-install")]
  match installed with
  | some receipt =>
    ⟨Dict.of (envelope ++ [("format", .str "BOGOS-store-install-receipt-4.0"),
      ("package", .str receipt.package), ("store_receipt", receipt.to_json),
      ("execution_status", .str "completed")]), []⟩
  | none =>
    let failures := [(Json.str bundle_dir, place.message .StoreError)]
    ⟨Dict.of (envelope ++ [("format", .str "BOGOS-store-install-receipt-7.0"),
      ("failures", failures_json failures), ("execution_status", .str "blocked")]), failures⟩

/-- `f"{index:04d}_{_safe_name(action)}_{_safe_name(name)}.json"` -/
def receipt_file_name (letters : Char → Bool) (index : ℕ) (action name : String) : List Char :=
  ZeroPadding.zero_padded 4 index ++ '_' :: ((safe_name letters action).toList ++ '_' ::
    ((safe_name letters name).toList ++ ".json".toList))

/-- The file that `_record_receipt` writes. -/
def record_receipt (action name : String) : EStateM PyError RegistryWorkspace Unit := do
  let w ← get
  if host.admits (receipt_file_name reader.letters (w.receipt_count + 1) action name) then
    set { w with receipt_count := w.receipt_count + 1 }
  else throw .OSError

/-- A computation on the store and the apps. -/
def on_apps {α : Type} (x : EStateM PyError AppWorkspace α) : EStateM PyError RegistryWorkspace α :=
  fun w =>
    match x w.apps with
    | .ok a apps => .ok a { w with apps := apps }
    | .error e apps => .error e { w with apps := apps }

/-- `self.workspace.install_package(self.registry_dir / entry["bundle"])` for an entry of a verified
registry. -/
def install_pinned (entry : Json) : EStateM PyError RegistryWorkspace PackageInstall := do
  match ← MonadExcept.ofExcept (subscript entry "bundle") with
  | .str text => do
    let registry := (← get).registry.getD .empty
    let path := join_path place.dir text
    match (place.open_path registry path).bind (relative_to place.dir) with
    | none => throw .ArchiveError  -- no receipt and no directory is found there
    | some inner => do
      let installed ← on_apps (install_and_index host keys reader (registry.at_path inner))
      let name := match installed with
        | some receipt => receipt.package
        | none => String.ofList (path.getLast?.getD [])
      record_receipt host reader "store-install" name
      pure (package_install place (absolute_path path) installed)
  | _ => throw .TypeError

/-- `lock.get("packages", {}).get(package)` -/
def pinned (lock : Option Content) (package : String) : Except PyError (Option Json) := do
  let lock ←
    match lock with
    | none => .ok (.obj [])
    | some content => load_json (some content)
  let lock ← as_dict lock
  let packages ← as_dict ((Dict.get lock "packages").getD (.obj []))
  .ok ((Dict.get packages package).filter (· ≠ .null))

def genesis_install_receipt (package : String) (registry_signature_verified lockfile_verified : Bool)
    (installed : Option PackageInstall) (failures : List Failure) : Dict :=
  Dict.of [
    ("format", .str "BOGOS-Genesis-install-receipt-9.0"),
    ("package", .str package),
    ("registry_signature_verified", .bool registry_signature_verified),
    ("lockfile_verified", .bool lockfile_verified),
    ("package_install", (installed.map fun i => Json.obj i.receipt).getD .null),
    ("dependencies_verified", .bool (installed.any fun i =>
      Dict.get i.receipt "execution_status" = some (.str "completed"))),
    ("failures", failures_json failures),
    ("execution_status", .str (execution_status failures))]

/-- The installation, unless a check has failed. -/
def install_checked (entry : Option Json) (failures : List Failure) :
    EStateM PyError RegistryWorkspace (Option PackageInstall) :=
  match entry, failures with
  | some entry, [] => do
    let installed ← install_pinned host keys reader place entry
    pure (some installed)
  | _, _ => pure none

def install (package : String) : EStateM PyError RegistryWorkspace Dict := do
  let w ← get
  let registry_check ← MonadExcept.ofExcept (verify_registry keys place w.registry)
  let lock_check ← MonadExcept.ofExcept (verify_lock keys place w)
  let entry ← MonadExcept.ofExcept (pinned w.lock package)
  let failures := registry_check.failures ++ lock_check.failures ++
    failure_if entry.isNone (.str package, "package is not pinned by bog.lock")
  let installed ← install_checked host keys reader place entry failures
  let failures := failures ++ (installed.map PackageInstall.failures).getD []
  let registry_signature_verified ←
    MonadExcept.ofExcept registry_check.registry_signature_verified
  let lockfile_verified ← MonadExcept.ofExcept lock_check.lockfile_verified
  record_session keys "install" (genesis_install_receipt package registry_signature_verified
    lockfile_verified installed failures)

end Operations

/-! ## Recording -/

/-- An entry can be added: all entries can be read, and the last one has a hash. -/
def Appendable (ledger : List LedgerFile) : Prop :=
  ∃ found hash, entries ledger = .ok found ∧ last_hash ledger = .ok (.str hash) ∧
    hex_pattern 64 hash = true

section Recording

variable {keys : Keys} {g : Genesis} {event : String} {receipt : Dict} {w w' : RegistryWorkspace}

theorem exists_of_str_field {d : Dict} {key : String} {pattern : String → Bool}
    (h : str_field d key pattern = true) : ∃ s, Dict.get d key = some (.str s) ∧ pattern s = true := by
  unfold str_field at h
  split at h
  · next s hget => exact ⟨s, hget, h⟩
  · cases h

/-- A receipt of the schema is recorded exactly when an entry can be added. -/
theorem record_ok_iff (hkeys : keys.Lawful) (hreceipt : Recordable receipt) (hevent : event ≠ "") :
    (∃ r, record keys g event receipt = .ok r) ↔ Appendable g.ledger := by
  constructor
  · rintro ⟨⟨entry, g'⟩, h⟩
    obtain ⟨found, previous, hfound, hlast, rfl, hvalid, -⟩ := record_eq_ok.mp h
    have hprevious : str_field (signed_entry keys (ledger_payload receipt (found.length + 1) event
        previous)) "previous_hash" (hex_pattern 64) = true := by
      simp only [valid_receipt, Bool.and_eq_true] at hvalid
      exact hvalid.1.1.1.2
    obtain ⟨hash, hget, hhex⟩ := exists_of_str_field hprevious
    rw [get_signed_entry (by decide) (by decide), get_ledger_payload] at hget
    obtain rfl := Option.some.inj hget
    exact ⟨found, hash, hfound, hlast, hhex⟩
  · rintro ⟨found, hash, hfound, hlast, hhex⟩
    exact ⟨_, record_eq_ok.mpr ⟨found, _, hfound, hlast, rfl,
      valid_receipt_signed_entry hkeys hreceipt hevent (Nat.le_add_left 1 _) hhex, rfl⟩⟩

theorem record_session_of_ok {entry : Dict} {genesis : Genesis}
    (h : record keys w.genesis event receipt = .ok (entry, genesis)) :
    record_session keys event receipt w = .ok entry { w with genesis := genesis } := by
  unfold record_session
  rw [bind_of_ok get_apply, h, bind_of_ok ofExcept_ok]
  exact bind_of_ok (modify_apply _)

theorem record_session_of_error {e : PyError} (h : record keys w.genesis event receipt = .error e) :
    record_session keys event receipt w = .error e w := by
  unfold record_session
  rw [bind_of_ok get_apply, h, bind_of_error ofExcept_error]

theorem ends_record_session (hkeys : keys.Lawful) (hreceipt : Recordable receipt) (hevent : event ≠ "") :
    Ends (record_session keys event receipt) w ↔ Appendable w.genesis.ledger := by
  rw [← record_ok_iff hkeys hreceipt hevent]
  constructor
  · rintro ⟨entry, w', h⟩
    cases hrecord : record keys w.genesis event receipt with
    | ok r => exact ⟨r, rfl⟩
    | error e =>
      rw [record_session_of_error hrecord] at h
      cases h
  · rintro ⟨⟨entry, genesis⟩, h⟩
    exact ⟨entry, _, record_session_of_ok h⟩

/-- What is recorded has the status of its receipt. -/
theorem get_record_session {entry : Dict} {key : String}
    (h : record_session keys event receipt w = .ok entry w')
    (hkey : key ∉ ["receipt_hash", "signature", "previous_hash", "event", "sequence", "ledger_format"]) :
    Dict.get entry key = Dict.get receipt key := by
  cases hrecord : record keys w.genesis event receipt with
  | ok r =>
    rw [record_session_of_ok hrecord] at h
    obtain ⟨rfl, -⟩ := EStateM.Result.ok.inj h
    exact get_recorded hrecord hkey
  | error e =>
    rw [record_session_of_error hrecord] at h
    cases h

/-- Recording changes the ledger only. -/
theorem registry_record_session : (after (record_session keys event receipt w)).registry = w.registry := by
  cases hrecord : record keys w.genesis event receipt with
  | ok r => rw [record_session_of_ok hrecord]; rfl
  | error e => rw [record_session_of_error hrecord]; rfl

end Recording

end Bogbin.Bogvm
