import Bogbin.Bogvm.Archive

/-!
# The package store

A store has an index of packages, the bundle of every package and the directory that the bundle was
restored to.  `install_bundle` checks a bundle and its dependencies and then replaces the package of
the bundle's key; `verify_installed_package` checks a package and, along the dependency lists of the
receipts, every package it depends on.
-/

namespace Bogbin.Bogvm

def STORE_INDEX_FORMAT : String := "BOGSTORE-index-3.0"

def PACKAGE_RECEIPT_FORMAT : String := "BOGPKG-receipt-7.0"

/-- A store that `init_store` has made: its index, and the directories by their paths. -/
structure Store where
  root : String
  index : Content
  packages : String → Option (Tree File)
  installed : String → Option (Tree Bytes)

/-! ## The index and the receipts -/

structure StoreIndex where
  fields : Dict
  packages : Dict

def read_store_index (content : Content) : Except PyError StoreIndex :=
  match content with
  | .undecodable => .error .UnicodeDecodeError
  | .unparsable => .error .StoreError
  | .value v => do
    let fields ← as_dict v
    if Dict.get fields "format" ≠ some (.str STORE_INDEX_FORMAT) then .error .StoreError
    else
      match Dict.get fields "packages" with
      | some (.obj packages) => .ok ⟨fields, packages⟩
      | _ => .error .StoreError

/-- A package receipt, with the values that the code reads from it. -/
structure PackageReceipt where
  fields : Dict
  name : String
  version : String
  archive_tree_sha256 : String
  dependencies : List String
  bundle_sha256 : String

/-- A string of at least one character. -/
def nonempty_string : Json → Option String
  | .str s => if s ≠ "" then some s else none
  | _ => none

/-- A receipt that `package-receipt.schema.json` admits. -/
def package_receipt (d : Dict) : Option PackageReceipt :=
  match Dict.get d "name", Dict.get d "version", Dict.get d "archive_tree_sha256",
      Dict.get d "file_count", Dict.get d "dependencies", Dict.get d "bundle_sha256" with
  | some (.str name), some (.str version), some (.str archive_tree_sha256), some file_count,
      some (.arr items), some (.str bundle_sha256) =>
    match items.mapM nonempty_string with
    | none => none
    | some dependencies =>
      if str_field d "format" (· = PACKAGE_RECEIPT_FORMAT) ∧ name ≠ "" ∧ version ≠ "" ∧
          hex_pattern 64 archive_tree_sha256 ∧ whole_number file_count ∧ dependencies.Nodup ∧
          hex_pattern 64 bundle_sha256 ∧ (Dict.get d "signature" = none ∨ valid_signature d) ∧
          only_keys d ["format", "name", "version", "archive_tree_sha256", "file_count",
            "dependencies", "bundle_sha256", "signature"] then
        some ⟨d, name, version, archive_tree_sha256, dependencies, bundle_sha256⟩
      else none
  | _, _, _, _, _, _ => none

/-- `_read_receipt`; `none` is a file that cannot be read. -/
def read_receipt (content : Option Content) : Except PyError PackageReceipt :=
  match content with
  | none | some .unparsable => .error .StoreError
  | some .undecodable => .error .UnicodeDecodeError
  | some (.value v) => do
    let fields ← as_dict v
    if Dict.get fields "format" ≠ some (.str PACKAGE_RECEIPT_FORMAT) then .error .StoreError
    else
      match package_receipt fields with
      | some receipt => .ok receipt
      | none => .error .StoreError

/-- The receipt in a bundle. -/
def bundle_receipt (bundle : Tree File) : Except PyError PackageReceipt :=
  read_receipt ((bundle.file ["receipt.json".toList]).map File.content)

/-- `s.strip()` is empty. -/
def is_blank (s : List Char) : Bool := s.all Char.isWhitespace

/-- `_package_key` -/
def package_key (name version : String) : Except PyError String :=
  let safe := (name.toList ++ '-' :: version.toList).map fun c => if c = '/' ∨ c = '\\' then '_' else c
  if is_blank safe then .error .StoreError else .ok (String.ofList safe)

/-! ## Hashes and signatures -/

/-- The bytes that a file adds to the hash of its directory. -/
def hashed_data (path : Path) (file : File) : Except PyError Bytes :=
  if path.getLast? = some "receipt.json".toList then
    match file.content with
    | .undecodable => .error .UnicodeDecodeError
    | .value (.obj receipt) =>
      if (Dict.get receipt "bundle_sha256").isSome then
        .ok (canonical_bytes (.obj (Dict.pop (Dict.set receipt "bundle_sha256" (.str ""))
          "signature")))
      else .ok file.data
    | _ => .ok file.data
  else .ok file.data

/-- What a file adds to the hash of its directory. -/
def hash_record (path : Path) (data : Bytes) : Bytes :=
  utf8 (as_posix path) ++ 0 :: (data ++ [10])

def hash_stream : List (Path × File) → Except PyError Bytes
  | [] => .ok []
  | (path, file) :: rest => do
    let data ← hashed_data path file
    let stream ← hash_stream rest
    .ok (hash_record path data ++ stream)

/-- `_directory_hash` -/
def directory_hash (t : Tree File) : Except PyError String := do
  let stream ← hash_stream (t.files.mergeSort path_le)
  .ok (hexdigest stream)

/-- A failure, with its path and its reason. -/
abbrev StoreFailure := String × String

structure SignatureVerification where
  signed : Bool
  trusted : Bool
  failures : List StoreFailure

/-- The reason in the result of `verify_object_signature`. -/
def signature_reason (signature : Dict) : String :=
  if Dict.get signature "format" ≠ some (.str SIGNATURE_FORMAT) ∨
      Dict.get signature "algorithm" ≠ some (.str "ed25519") then "unsupported signature format"
  else "signature is not valid for a trusted key"

/-- `_verify_signature` -/
def verify_signature (keys : Keys) (require_signature : Bool) (receipt : Dict) :
    Except PyError SignatureVerification :=
  match Dict.get receipt "signature" with
  | none | some .null =>
    .ok ⟨false, false,
      if require_signature then [("receipt.json", "package signature is required")] else []⟩
  | some signature => do
    let verified ← verify_object_signature keys (Dict.pop receipt "signature") signature
    let fields ← as_dict signature
    .ok ⟨true, verified,
      if verified then [] else [("receipt.json", signature_reason fields)]⟩

/-! ## Verifying -/

/-- The receipt of a verification. -/
inductive Verification
  | blocked (package reason : String)
  | checked (package : String) (receipt : PackageReceipt) (actual_bundle_sha256 : String)
      (dependency_verifications : List Verification) (installed_tree_sha256 : Option String)
      (failures : List StoreFailure)

/-- `execution_status` is completed. -/
def Verification.completed : Verification → Bool
  | .blocked _ _ => false
  | .checked _ _ _ _ _ failures => failures = []

/-- `entry[key]`, as a path. -/
def entry_path (entry : Json) (key : String) : Except PyError String :=
  match entry with
  | .obj fields => do
    match ← Dict.item fields key with
    | .str path => .ok path
    | _ => .error .TypeError
  | _ => .error .TypeError

/-- The dependencies in an index entry. -/
def entry_dependencies (entry : Json) : Json :=
  match entry with
  | .obj fields => (Dict.get fields "dependencies").getD (.arr [])
  | _ => .arr []

def is_indexed (index : StoreIndex) (package : String) : Bool :=
  (Dict.get index.packages package).isSome

/-- The failures of a package itself. -/
def package_failures_of (index : StoreIndex) (package package_dir : String) (entry : Json)
    (receipt : PackageReceipt) (signature : SignatureVerification) (actual_bundle_sha256 : String) :
    List StoreFailure :=
  signature.failures ++
    (if actual_bundle_sha256 ≠ receipt.bundle_sha256 then
      [(package_dir, "installed package bundle hash mismatch")] else []) ++
    (if entry_dependencies entry ≠ .arr (receipt.dependencies.map .str) then
      [(package, "store index dependency metadata mismatch")] else []) ++
    (receipt.dependencies.filter fun d => !is_indexed index d).map fun d =>
      (d, "missing package dependency: " ++ d)

/-- The failures of the archive and of the installed directory. -/
def content_failures (archive : ArchiveReport) (install_dir : String)
    (installed_tree_sha256 : Option String) (receipt : PackageReceipt) : List StoreFailure :=
  archive.failures.map (fun failure => (failure.1, "archive")) ++
    match installed_tree_sha256 with
    | none => [(install_dir, "installed directory is missing")]
    | some hash =>
      if hash ≠ receipt.archive_tree_sha256 then [(install_dir, "installed tree hash mismatch")]
      else []

/-- The checks of a package whose receipt was read, when its dependencies are checked by `verify`. -/
def check_package (host : Host) (keys : Keys) (require_signature : Bool) (store : Store)
    (index : StoreIndex) (package package_dir install_dir : String) (entry : Json)
    (bundle : Tree File) (receipt : PackageReceipt)
    (verify : String → Except PyError Verification) : Except PyError Verification := do
  let signature ← verify_signature keys require_signature receipt.fields
  let actual_bundle_sha256 ← directory_hash bundle
  let found := receipt.dependencies.filter fun d => is_indexed index d
  let verifications ← found.mapM verify
  let failed := (found.zip verifications).filter fun v => !v.2.completed
  let archive ← verify_directory_archive host (bundle.sub "archive")
  let installed_tree_sha256 := (store.installed install_dir).map tree_hash_for_directory
  .ok (.checked package receipt actual_bundle_sha256 verifications installed_tree_sha256
    (package_failures_of index package package_dir entry receipt signature actual_bundle_sha256 ++
      failed.map (fun v => (v.1, "dependency verification failed: " ++ v.1)) ++
      content_failures archive install_dir installed_tree_sha256 receipt))

/-- `verify_installed_package` with the packages on the way to it. -/
def verify_package (host : Host) (keys : Keys) (require_signature : Bool) (store : Store) :
    ℕ → List String → String → Except PyError Verification
  | 0, _, _ => .error .RecursionError
  | fuel + 1, seen, package =>
    match read_store_index store.index with
    | .error .StoreError => .ok (.blocked package "invalid store index")
    | .error e => .error e
    | .ok index =>
      match Dict.get index.packages package with
      | none | some .null => .ok (.blocked package ("package not installed: " ++ package))
      | some entry => do
        let package_dir ← entry_path entry "package_dir"
        let install_dir ← entry_path entry "install_dir"
        if package ∈ seen then
          .ok (.blocked package ("dependency cycle detected: " ++ package))
        else
          match store.packages package_dir with
          | none => .ok (.blocked package "invalid package receipt")
          | some bundle =>
            match bundle_receipt bundle with
            | .error .StoreError => .ok (.blocked package "invalid package receipt")
            | .error e => .error e
            | .ok receipt =>
              check_package host keys require_signature store index package package_dir install_dir
                entry bundle receipt
                (verify_package host keys require_signature store fuel (package :: seen))

/-- One more than the packages in the index, so that the recursion ends by itself. -/
def index_size (store : Store) : ℕ :=
  match read_store_index store.index with
  | .ok index => index.packages.length + 1
  | .error _ => 1

def verify_installed_package (host : Host) (keys : Keys) (require_signature : Bool) (store : Store)
    (package : String) : Except PyError Verification :=
  verify_package host keys require_signature store (index_size store) [] package

/-! ## Installing -/

structure InstallReceipt where
  package : String
  package_dir : String
  install_dir : String
  bundle_sha256 : String
  restore_tree_sha256 : String
  receipt : PackageReceipt
  signature : SignatureVerification

/-- The loop over the dependencies of a bundle. -/
def verify_dependencies (host : Host) (keys : Keys) (require_signature : Bool) (store : Store) :
    List String → Except PyError Unit
  | [] => .ok ()
  | dependency :: rest => do
    let verification ← verify_installed_package host keys require_signature store dependency
    if !verification.completed then .error .StoreError
    else verify_dependencies host keys require_signature store rest

/-- The checks of `install_bundle` before the first change: the index, the receipt, the signature
and the key. -/
def check_bundle (host : Host) (keys : Keys) (require_signature : Bool) (store : Store)
    (bundle : Tree File) :
    Except PyError (StoreIndex × PackageReceipt × SignatureVerification × String) := do
  let index ← read_store_index store.index
  let receipt ← bundle_receipt bundle
  let manifest ← read_archive_manifest (bundle.sub "archive")
  if manifest.tree_sha256 ≠ receipt.archive_tree_sha256 then .error .StoreError
  else do
    let actual_bundle_sha256 ← directory_hash bundle
    if actual_bundle_sha256 ≠ receipt.bundle_sha256 then .error .StoreError
    else do
      let signature ← verify_signature keys require_signature receipt.fields
      if signature.failures ≠ [] then .error .StoreError
      else if !receipt.dependencies.all (is_indexed index) then .error .StoreError
      else do
        verify_dependencies host keys require_signature store receipt.dependencies
        let key ← package_key receipt.name receipt.version
        .ok (index, receipt, signature, key)

def package_dir (store : Store) (key : String) : String := store.root ++ "/packages/" ++ key

def install_dir (store : Store) (key : String) : String := store.root ++ "/installed/" ++ key

/-- `shutil.rmtree` and `shutil.copytree` -/
def replace_package (host : Host) (key : String) (bundle : Tree File) :
    EStateM PyError Store Unit := do
  if !host.admits key.toList then throw .OSError
  else
    modify fun store =>
      { store with packages := Function.update store.packages (package_dir store key) (some bundle) }

/-- `restore_directory_archive` into a directory of the store. -/
def restore_installed (host : Host) (archive : Tree File) (key : String) :
    EStateM PyError Store String := fun store =>
  let dir := install_dir store key
  match restore_directory_archive host archive ⟨(store.installed dir).getD .empty, []⟩ with
  | .ok hash output =>
    .ok hash { store with installed := Function.update store.installed dir (some output.tree) }
  | .error e output =>
    .error e { store with installed := Function.update store.installed dir (some output.tree) }

def SignatureVerification.to_json (signature : SignatureVerification) : Json :=
  .obj (Dict.of [
    ("format", .str "BOGPKG-signature-verification-receipt-7.0"),
    ("signed", .bool signature.signed),
    ("trusted", .bool signature.trusted),
    ("failures", .arr (signature.failures.map fun failure =>
      .obj (Dict.of [("path", .str failure.1), ("reason", .str failure.2)]))),
    ("execution_status", .str (if signature.failures = [] then "completed" else "blocked"))])

/-- The index entry of a package. -/
def index_entry (store : Store) (key : String) (receipt : PackageReceipt)
    (signature : SignatureVerification) : Dict :=
  Dict.of [
    ("name", .str receipt.name),
    ("version", .str receipt.version),
    ("package_dir", .str (package_dir store key)),
    ("install_dir", .str (install_dir store key)),
    ("archive_tree_sha256", .str receipt.archive_tree_sha256),
    ("bundle_sha256", .str receipt.bundle_sha256),
    ("dependencies", .arr (receipt.dependencies.map .str)),
    ("signature", (Dict.get receipt.fields "signature").getD .null),
    ("signature_verification", signature.to_json)]

/-- The index with an entry. -/
def StoreIndex.with_entry (index : StoreIndex) (key : String) (entry : Dict) : Content :=
  .value (.obj (Dict.set index.fields "packages"
    (.obj (Dict.set index.packages key (.obj entry)))))

def install_bundle (host : Host) (keys : Keys) (require_signature : Bool) (bundle : Tree File) :
    EStateM PyError Store InstallReceipt := do
  let store ← get
  let (index, receipt, signature, key) ←
    MonadExcept.ofExcept (check_bundle host keys require_signature store bundle)
  replace_package host key bundle
  let hash ← restore_installed host (bundle.sub "archive") key
  modify fun store => { store with index := index.with_entry key (index_entry store key receipt signature) }
  return ⟨key, package_dir store key, install_dir store key, receipt.bundle_sha256, hash, receipt,
    signature⟩

/-- What `Workspace.install_package` does with a directory that holds a receipt: the receipt of the
installation, or the blocked one for a `StoreError`. -/
def install_package (host : Host) (keys : Keys) (bundle : Tree File) :
    EStateM PyError Store (Option InstallReceipt) := fun store =>
  match install_bundle host keys true bundle store with
  | .ok receipt store => .ok (some receipt) store
  | .error .StoreError store => .ok none store
  | .error e store => .error e store

end Bogbin.Bogvm
