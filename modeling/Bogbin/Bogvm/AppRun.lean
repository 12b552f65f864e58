import Bogbin.Bogvm.RegistryInstall
import Bogbin.Bogvm.Broker

/-!
# Running an app

`Workspace.run_app` runs the process of an app in its directory below `appdata` and writes a receipt
into the directory that the manifest of the app names.  Packages, archives, trusted keys and the ledger
are read from the same workspace.
-/

namespace Bogbin.Bogvm

/-! ## The workspace directory -/

def bogos_dir : Path := [".bogos".toList]

def appdata_dir : Path := bogos_dir ++ ["appdata".toList]

def trust_dir : Path := bogos_dir ++ ["trust".toList]

def store_index_path : Path := bogos_dir ++ ["store".toList, "index.json".toList]

def ledger_dir : Path := bogos_dir ++ ["genesis".toList, "ledger".toList]

def state_path : Path := bogos_dir ++ ["state.json".toList]

/-- An item of `state["receipts"]`; its index is its place in the list. -/
structure ListedReceipt where
  action : String
  name : String
  dir : Path

/-- The files below the root of a workspace, and the lists of its state. -/
structure RunWorkspace where
  tree : Tree Bytes
  archives : List (String × Path)
  receipts : List ListedReceipt

/-- How a workspace reads its files, and where paths lead. -/
structure WorkspaceReader where
  host : Host
  /-- `c.isalnum()` beyond ASCII -/
  letters : Char → Bool
  /-- `json.loads(path.read_text())` -/
  load : Bytes → Content
  /-- The trusted keys among files with these names; `none` is a directory. -/
  read_keys : List (List Char × Option Bytes) → Keys
  /-- Where an absolute path leads below the root. -/
  locate : String → Option Path
  /-- The directories that are not below the root. -/
  outside : String → Option (Tree Bytes)
  /-- The symbolic links below the root. -/
  links : Links
  store_root : String

/-- An app in the index whose package and policy were verified. -/
structure VerifiedApp (reader : WorkspaceReader) where
  name : String
  receipt_path : Json
  indexed : ∃ app_name, name = safe_name reader.letters app_name

/-- `self.bogos / "appdata" / app` -/
def runtime_dir (app : String) : Path := appdata_dir ++ path_parts app

/-- `_resolve_policy_receipt_path` -/
def resolve_policy_receipt_path (links : Links) (receipt_path : Json) : Except PyError Path :=
  let receipt_path := if receipt_path.truthy then receipt_path else .str ".bogos/receipts"
  match receipt_path with
  | .str text =>
    if !is_safe_relpath (.str text) then .error .BogOSError
    else do
      match ← links.resolve (path_parts text) with
      | none => .error .BogOSError
      | some resolved => .ok resolved
  | _ => .error .BogOSError

/-! ## The run -/

/-- The directory with other contents. -/
def Tree.replace {α : Type} (t : Tree α) (dir : Path) (contents : Tree α) : Tree α where
  files := t.files.filter (fun f => ¬dir <+: f.1) ++ contents.files.map fun f => (dir ++ f.1, f.2)
  dirs := t.dirs.filter (fun d => ¬(dir <+: d ∧ dir ≠ d)) ++ contents.dirs.map (dir ++ ·)

/-- A computation on the files of the workspace. -/
def on_tree (x : EStateM PyError Output Unit) : EStateM PyError RunWorkspace Unit := fun w =>
  match x ⟨w.tree, []⟩ with
  | .ok _ output => .ok () { w with tree := output.tree }
  | .error e output => .error e { w with tree := output.tree }

/-- `_write_json` -/
def write_json (host : Host) (path : Path) (data : Bytes) : EStateM PyError Output Unit := do
  make_dirs host [] path.dropLast
  write_bytes host path data

/-- The path of a receipt with this index. -/
def ListedReceipt.path (letters : Char → Bool) (index : ℕ) (receipt : ListedReceipt) : Path :=
  receipt.dir ++ [receipt_file_name letters index receipt.action receipt.name]

/-- What a process leaves in its directory. -/
structure ProcessOutput where
  contents : Tree Bytes
  /-- Where its symbolic links lead a path below the directory; `none` is not below the root. -/
  follow : Path → Option Path

/-- The texts of the receipt and of the state that a run writes. -/
structure RunTexts where
  receipt : Bytes
  state : Bytes

section Run

variable (reader : WorkspaceReader) (app : VerifiedApp reader)

/-- The receipt that `_record_receipt` lists for a run. -/
def app_receipt (receipt_dir : Path) : ListedReceipt := ⟨"app-run", app.name, receipt_dir⟩

/-- Where the system writes a file of the receipt directory after the process. -/
def written_path (output : ProcessOutput) (path : Path) : Option Path :=
  if runtime_dir app.name <+: path then output.follow path else some path

/-- `_record_receipt("app-run", app, receipt, receipt_dir=receipt_dir)` -/
def record_app_receipt (receipt_dir : Path) (output : ProcessOutput) (texts : RunTexts) :
    EStateM PyError RunWorkspace Unit := do
  let w ← get
  let receipt := app_receipt reader app receipt_dir
  match written_path reader app output (receipt.path reader.letters (w.receipts.length + 1)) with
  | some path => on_tree (write_json reader.host path texts.receipt)
  | none => pure ()
  modify fun w => { w with receipts := w.receipts ++ [receipt] }
  on_tree (write_json reader.host state_path texts.state)

/-- `run_app` of such an app; the receipt directory is resolved before the process runs. -/
def run_app (output : ProcessOutput) (texts : RunTexts) : EStateM PyError RunWorkspace Unit := do
  on_tree (make_dirs reader.host [] (runtime_dir app.name))
  let receipt_dir ← MonadExcept.ofExcept (resolve_policy_receipt_path reader.links app.receipt_path)
  modify fun w => { w with tree := w.tree.replace (runtime_dir app.name) output.contents }
  record_app_receipt reader app receipt_dir output texts

end Run

/-! ## What the workspace reads -/

/-- The directory at a path. -/
def Tree.directory {α : Type} (t : Tree α) (path : Path) : Option (Tree α) :=
  if path = [] ∨ path ∈ t.dirs then some (t.at_path path) else none

section Reads

variable (reader : WorkspaceReader) (t : Tree Bytes)

/-- The files with what reading them as JSON gives. -/
def loaded (t : Tree Bytes) : Tree File := ⟨t.files.map fun f => (f.1, ⟨f.2, reader.load f.2⟩), t.dirs⟩

def directory_at (path : String) : Option (Tree Bytes) :=
  match reader.locate path with
  | some p => t.directory p
  | none => reader.outside path

/-- The store of the workspace. -/
def store_of : Store where
  root := reader.store_root
  index := ((t.file store_index_path).map reader.load).getD .unparsable
  packages := fun dir => (directory_at reader t dir).map (loaded reader)
  installed := directory_at reader t

/-- The name of a path that `glob("*.pub")` finds. -/
def key_name (p : Path) : Option (List Char) :=
  match p with
  | [name] => if ".pub".toList.isSuffixOf name then some name else none
  | _ => none

/-- `_trusted_public_keys`, with what reading the keys gives. -/
def trusted_public_keys : List (List Char × Option Bytes) :=
  let files := (t.at_path trust_dir).files.filterMap fun f => (key_name f.1).map (·, some f.2)
  let dirs := (t.at_path trust_dir).dirs.filterMap fun d => (key_name d).map (·, none)
  (files ++ dirs).mergeSort fun a b => a.1 ≤ b.1

def keys_of : Keys := reader.read_keys (trusted_public_keys t)

/-- `_verify_installed_package` -/
def verify_workspace_package (package : String) : Except PyError Verification :=
  verify_installed_package reader.host (keys_of reader t) true (store_of reader t) package

/-- `verify_directory_archive` of an archive of the workspace. -/
def verify_workspace_archive (path : Path) : Except PyError ArchiveReport :=
  verify_directory_archive reader.host (loaded reader (t.at_path path))

def ledger_files : List LedgerFile :=
  (t.at_path ledger_dir).files.filterMap fun f =>
    match f.1 with
    | [name] => some ⟨name, reader.load f.2⟩
    | _ => none

/-- The name of a directory among the files that `glob("*.json")` finds. -/
def is_entry_dir (d : Path) : Bool :=
  match d with
  | [name] => ".json".toList.isSuffixOf name
  | _ => false

/-- `Genesis.verify_ledger`; `read_text` of a directory raises. -/
def verify_workspace_ledger : Except PyError LedgerReport :=
  if (t.at_path ledger_dir).dirs.any is_entry_dir then .error .OSError
  else verify_ledger (keys_of reader t) (ledger_files reader t)

end Reads

end Bogbin.Bogvm
