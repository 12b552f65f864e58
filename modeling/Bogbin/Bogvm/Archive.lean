import Bogbin.Bogvm.Genesis

/-!
# Directory archives

A directory archive is a manifest with one object for every file.  `verify_directory_archive` reads
all objects; `restore_directory_archive` reads them again and writes the files below a directory,
which it empties first.
-/

namespace Bogbin.Bogvm

/-- The names on the way from a directory to a file. -/
abbrev Path := List (List Char)

/-- A directory: the files below it and the directories below it. -/
structure Tree (α : Type) where
  files : List (Path × α)
  dirs : List Path

/-- The bytes of a file and what reading them as JSON gives. -/
structure File where
  data : Bytes
  content : Content

/-- What the code asks of the container format and of the file system. -/
structure Host where
  /-- `reconstruct_bog_container_bytes(read_bogpk_container(path))`; `none` is an exception. -/
  decode : Bytes → Option Bytes
  /-- A file or a directory can have this name. -/
  admits : List Char → Bool
  /-- The parents of a path that leads out of its directory can be made. -/
  make_parents : String → Bool

namespace Tree

variable {α : Type}

def empty : Tree α := ⟨[], []⟩

/-- The file at a path. -/
def file (t : Tree α) (path : Path) : Option α := t.files.lookup path

/-- Write a file; an older file at this path is replaced. -/
def put (t : Tree α) (path : Path) (x : α) : Tree α :=
  { t with files := t.files.filter (fun f => f.1 ≠ path) ++ [(path, x)] }

/-- The rest of a path that begins with a name. -/
def rest (name : List Char) : Path → Option Path
  | n :: path => if n = name then some path else none
  | [] => none

/-- The directory with a name. -/
def sub (t : Tree α) (name : String) : Tree α where
  files := t.files.filterMap fun f => (rest name.toList f.1).map fun path => (path, f.2)
  dirs := (t.dirs.filterMap (rest name.toList)).filter (· ≠ [])

end Tree

/-! ## Paths -/

/-- `Path(text).parts`, without the root. -/
def path_parts (text : String) : Path :=
  (text.toList.splitOn '/').filter fun part => part ≠ [] ∧ part ≠ ['.']

/-- `Path(text).is_absolute()` -/
def is_absolute (text : String) : Bool := text.toList.head? = some '/'

/-- `Path(*parts).as_posix()` -/
def as_posix (parts : Path) : String :=
  if parts = [] then "." else String.ofList (List.intercalate ['/'] parts)

/-- The path is relative and has no parent part. -/
def is_contained (text : String) : Bool := !is_absolute text && ['.', '.'] ∉ path_parts text

def path_le {α : Type} (a b : Path × α) : Bool := a.1 ≤ b.1

/-- `s.encode("utf-8")` -/
def utf8 (s : String) : Bytes := s.toByteArray.data.toList

/-! ## The manifest -/

structure TreeFile where
  path : String
  /-- The text of the size. -/
  size : String
  sha256 : String

def tree_record (file : TreeFile) : Bytes :=
  utf8 file.path ++ 0 :: (utf8 file.size ++ 0 :: (utf8 file.sha256 ++ [10]))

def tree_file_le (a b : TreeFile) : Bool := a.path ≤ b.path

/-- `_tree_hash` -/
def tree_hash (files : List TreeFile) : String :=
  hexdigest ((files.mergeSort tree_file_le).flatMap tree_record)

structure ManifestEntry where
  path : String
  size : Json
  sha256 : String
  object : String

structure Manifest where
  file_count : Json
  files : List ManifestEntry
  tree_sha256 : String

/-- `{"type": "integer", "minimum": 0}`; a float with a whole value is an integer, too. -/
def whole_number : Json → Bool
  | .int n => 0 ≤ n
  | .float r =>
    (".0".toList.isSuffixOf r.toList || '+' ∈ r.toList) &&
      (r.toList.head? ≠ some '-' || r = "-0.0")
  | _ => false

/-- `^objects/[0-9a-f]{64}\.bogpk$` -/
def object_pattern : String → Bool :=
  anchored fun s =>
    "objects/".toList.isPrefixOf s && ".bogpk".toList.isSuffixOf s && s.length = 78 &&
      is_hex ((s.drop 8).take 64)

def only_keys (d : Dict) (keys : List String) : Bool := d.all fun field => field.1 ∈ keys

/-- An item of `files` in `archive-manifest.schema.json`. -/
def manifest_entry : Json → Option ManifestEntry
  | .obj d =>
    match Dict.get d "path", Dict.get d "size", Dict.get d "sha256", Dict.get d "object" with
    | some (.str path), some size, some (.str sha256), some (.str object) =>
      if path ≠ "" ∧ whole_number size ∧ hex_pattern 64 sha256 ∧ object_pattern object ∧
          only_keys d ["path", "size", "sha256", "object"] then
        some ⟨path, size, sha256, object⟩
      else none
    | _, _, _, _ => none
  | _ => none

/-- A manifest that `archive-manifest.schema.json` admits. -/
def manifest_of : Json → Option Manifest
  | .obj d =>
    match Dict.get d "bogpk_version", Dict.get d "source", Dict.get d "file_count",
        Dict.get d "files", Dict.get d "tree_sha256" with
    | some bogpk_version, some (.str _), some file_count, some (.arr files),
        some (.str tree_sha256) =>
      if str_field d "format" (· = "BOGARCHIVE-2.0") ∧
          str_field d "container_format" (· = "BOG-2.0") ∧
          (bogpk_version = .int 1 ∨ bogpk_version = .float "1.0") ∧ whole_number file_count ∧
          hex_pattern 64 tree_sha256 ∧
          only_keys d ["format", "container_format", "bogpk_version", "source", "file_count",
            "files", "tree_sha256"] then
        (files.mapM manifest_entry).map fun entries => ⟨file_count, entries, tree_sha256⟩
      else none
    | _, _, _, _, _ => none
  | _ => none

def ManifestEntry.tree_file (entry : ManifestEntry) : TreeFile :=
  ⟨entry.path, py_str entry.size, entry.sha256⟩

/-- `none` is a manifest file that cannot be read. -/
def read_archive_manifest (archive : Tree File) : Except PyError Manifest :=
  match (archive.file ["manifest.json".toList]).map File.content with
  | none | some .unparsable => .error .ArchiveError
  | some .undecodable => .error .UnicodeDecodeError
  | some (.value v) =>
    match manifest_of v with
    | none => .error .ArchiveError
    | some manifest =>
      if !manifest.file_count.py_eq (.int manifest.files.length) then .error .ArchiveError
      else if tree_hash (manifest.files.map (·.tree_file)) ≠ manifest.tree_sha256 then
        .error .ArchiveError
      else .ok manifest

def ManifestEntry.to_json (entry : ManifestEntry) : Json :=
  .obj (Dict.of [
    ("path", .str entry.path),
    ("size", entry.size),
    ("sha256", .str entry.sha256),
    ("object", .str entry.object)])

/-- The manifest that `build_directory_archive` writes. -/
def build_manifest (source : String) (entries : List ManifestEntry) : Dict :=
  Dict.of [
    ("format", .str "BOGARCHIVE-2.0"),
    ("container_format", .str "BOG-2.0"),
    ("bogpk_version", .int 1),
    ("source", .str source),
    ("file_count", .int entries.length),
    ("files", .arr (entries.map (·.to_json))),
    ("tree_sha256", .str (tree_hash (entries.map (·.tree_file))))]

/-- A file that holds the text of a dictionary. -/
def json_file (fields : Dict) : File := ⟨canonical_bytes (.obj fields), .value (.obj fields)⟩

/-! ## Reading and verifying -/

def read_archive_file (host : Host) (archive : Tree File) (manifest : Manifest)
    (relative_path : String) : Except PyError Bytes :=
  if !is_contained relative_path then .error .ArchiveError
  else
    match manifest.files.find? (·.path = relative_path) with
    | none => .error .ArchiveError
    | some entry =>
      match archive.file (path_parts entry.object) with
      | none => .error .FileNotFoundError
      | some file =>
        match host.decode file.data with
        | none => .error .ContainerError
        | some data =>
          if !(Json.int data.length).py_eq entry.size ∨ hexdigest data ≠ entry.sha256 then
            .error .ArchiveError
          else .ok data

/-- What is known of a file that was read. -/
def read_file (path : String) (data : Bytes) : TreeFile :=
  ⟨path, toString data.length, hexdigest data⟩

/-- The loop over the files: the failed ones, and the ones that were read. -/
def verify_files (host : Host) (archive : Tree File) (manifest : Manifest) :
    List ManifestEntry → List (String × PyError) × List TreeFile
  | [] => ([], [])
  | entry :: rest =>
    let (failures, verified) := verify_files host archive manifest rest
    match read_archive_file host archive manifest entry.path with
    | .error e => ((entry.path, e) :: failures, verified)
    | .ok data => (failures, read_file entry.path data :: verified)

structure ArchiveReport where
  verified_file_count : ℕ
  failures : List (String × PyError)

def ArchiveReport.completed (report : ArchiveReport) : Bool := report.failures.isEmpty

def verify_directory_archive (host : Host) (archive : Tree File) : Except PyError ArchiveReport :=
  match read_archive_manifest archive with
  | .error .ArchiveError => .ok ⟨0, [("manifest.json", .ArchiveError)]⟩
  | .error e => .error e
  | .ok manifest =>
    let (failures, verified) := verify_files host archive manifest manifest.files
    .ok ⟨verified.length,
      failures ++
        if failures = [] ∧ tree_hash verified ≠ manifest.tree_sha256 then [(".", .ArchiveError)]
        else []⟩

/-! ## Restoring -/

/-- The directory that is restored, and the paths out of it whose parents were made. -/
structure Output where
  tree : Tree Bytes
  strayed : List String

/-- `Path.mkdir(parents=True, exist_ok=True)` for a directory below `base`. -/
def make_dirs (host : Host) (base : Path) : Path → EStateM PyError Output Unit
  | [] => pure ()
  | name :: rest => do
    let output ← get
    let path := base ++ [name]
    if (output.tree.file path).isSome then throw .OSError
    else if path ∈ output.tree.dirs then make_dirs host path rest
    else if !host.admits name then throw .OSError
    else do
      set { output with tree := { output.tree with dirs := output.tree.dirs ++ [path] } }
      make_dirs host path rest

/-- `Path.write_bytes` -/
def write_bytes (host : Host) (path : Path) (data : Bytes) : EStateM PyError Output Unit := do
  let output ← get
  match path.getLast? with
  | none => throw .OSError
  | some name =>
    if path ∈ output.tree.dirs ∨ !host.admits name then throw .OSError
    else set { output with tree := output.tree.put path data }

/-- `target.parent.mkdir(parents=True, exist_ok=True)` -/
def make_parent (host : Host) (path : String) : EStateM PyError Output Unit :=
  if is_contained path then make_dirs host [] (path_parts path).dropLast
  else do
    modify fun output => { output with strayed := output.strayed ++ [path] }
    if host.make_parents path then pure () else throw .OSError

def restore_file (host : Host) (archive : Tree File) (manifest : Manifest) (entry : ManifestEntry) :
    EStateM PyError Output TreeFile := do
  make_parent host entry.path
  let data ← MonadExcept.ofExcept (read_archive_file host archive manifest entry.path)
  write_bytes host (path_parts entry.path) data
  return read_file entry.path data

def restore_files (host : Host) (archive : Tree File) (manifest : Manifest) :
    List ManifestEntry → EStateM PyError Output (List TreeFile)
  | [] => return []
  | entry :: rest => do
    let file ← restore_file host archive manifest entry
    let files ← restore_files host archive manifest rest
    return file :: files

/-- The tree hash of the restored files. -/
def restore_directory_archive (host : Host) (archive : Tree File) :
    EStateM PyError Output String := do
  let manifest ← MonadExcept.ofExcept (read_archive_manifest archive)
  modify fun output => { output with tree := .empty }
  let restored ← restore_files host archive manifest manifest.files
  if tree_hash restored = manifest.tree_sha256 then return tree_hash restored
  else throw .ArchiveError

def tree_hash_for_directory (root : Tree Bytes) : String :=
  tree_hash ((root.files.mergeSort path_le).map fun f => read_file (as_posix f.1) f.2)

end Bogbin.Bogvm
