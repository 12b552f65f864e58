import Bogbin.Bogvm.AppRun

/-!
# The runtime policy of an app

`_verify_app_runtime_policy` checks the index entry of an app against its installed package before the
app runs, and `_resolve_entrypoint` makes the command of the run.  The policy looks at the second part
of the entrypoint only, the command may run the file that the first part names (`policy_covers_iff`).
-/

namespace Bogbin.Bogvm

/-! ## Values of a manifest -/

/-- `value.get(key, default)` -/
def py_get (value : Json) (key : String) (default : Json) : Except PyError Json :=
  match value with
  | .obj d => .ok ((Dict.get d key).getD default)
  | _ => .error .AttributeError

/-- The values of `for x in value`. -/
def py_iter : Json → Except PyError (List Json)
  | .arr items => .ok items
  | .obj d => .ok (d.map fun field => .str field.1)
  | .str text => .ok (text.toList.map fun c => .str (String.singleton c))
  | _ => .error .TypeError

/-- The items of `set(value)`, with repetitions. -/
def py_set (value : Json) : Except PyError (List Json) := do
  let items ← py_iter value
  if items.all hashable then .ok items else .error .TypeError

/-- `s.issubset(t)` -/
def py_subset (s t : List Json) : Bool := s.all fun v => t.any (Json.py_eq v)

/-- The text of a safe relative path. -/
def safe_relpath (v : Json) : Option String :=
  match v with
  | .str path => if is_safe_relpath v then some path else none
  | _ => none

/-- The texts of a list of safe relative paths. -/
def safe_paths : Json → Option (List String)
  | .arr items => items.mapM safe_relpath
  | _ => none

/-- The items of an object that maps safe relative paths to texts. -/
def safe_hashes : Json → Option (List (String × String))
  | .obj d => d.mapM fun field =>
    match field.2 with
    | .str hash => if is_safe_relpath (.str field.1) then some (field.1, hash) else none
    | _ => none
  | _ => none

/-- `_valid_access_policy` -/
def valid_access_policy : Json → Bool
  | .obj d => (safe_paths ((Dict.get d "allow").getD .null)).isSome
  | _ => false

/-- `_valid_write_policy` -/
def valid_write_policy : Json → Except PyError Bool
  | .obj d =>
    let mode := (Dict.get d "mode").getD .null
    if !hashable mode then .error .TypeError
    else .ok (listed ["none", "allowed"] mode &&
      (safe_paths ((Dict.get d "allow").getD (.arr []))).isSome)
  | _ => .ok false

def nonempty_texts : Json → Bool
  | .arr items => items.all fun v =>
    match v with
    | .str text => text ≠ ""
    | _ => false
  | _ => false

/-- `_valid_capabilities` -/
def valid_capabilities : Json → Bool
  | .obj d =>
    let names := ["read", "write", "env", "dependencies"]
    Schema.has_keys d names && only_keys d names &&
      (["read", "write"].all fun name => (safe_paths ((Dict.get d name).getD .null)).isSome) &&
      ["env", "dependencies"].all fun name => nonempty_texts ((Dict.get d name).getD .null)
  | _ => false

/-! ## The checks -/

/-- The path and the reason of a failure. -/
abbrev PolicyFailure := Json × String

/-- The installed package of an app, and where a path below its directory leads. -/
structure InstalledPackage where
  tree : Tree Bytes
  /-- `(install_dir / path).resolve()` -/
  resolve : Path → String
  absolute : ∀ path, is_absolute (resolve path) = true

structure AppPolicyReceipt where
  app : String
  package : Json
  package_verification_status : String
  policy : Dict
  failures : List PolicyFailure

/-- `execution_status` is completed. -/
def AppPolicyReceipt.completed (receipt : AppPolicyReceipt) : Bool := receipt.failures.isEmpty

/-- `verify_receipt.get("dependencies", [])` -/
def Verification.dependencies : Verification → List String
  | .blocked _ _ => []
  | .checked _ receipt _ _ _ _ => receipt.dependencies

def manifest_failure (c : Bool) (reason : String) : List PolicyFailure :=
  if c then [(.str "bog_app.json", reason)] else []

def required_fields : List String :=
  ["name", "entrypoint", "allowed_files", "expected_hashes", "permissions", "environment",
    "read_policy", "write_policy", "receipt_path"]

section Checks

variable (app_info : Dict)

/-- `app_info.get(key, default)` -/
def app_field (key : String) (default : Json) : Json := (Dict.get app_info key).getD default

def entrypoint_failures : List PolicyFailure :=
  let entrypoint := app_field app_info "entrypoint" .null
  manifest_failure (match entrypoint with
    | .arr parts => !parts.all Schema.is_string
    | _ => true) "entrypoint must be a list of strings" ++
  manifest_failure (!entrypoint.truthy) "entrypoint must not be empty"

def permission_failures : Json → List PolicyFailure
  | .obj permissions =>
    if !permissions.all (Schema.is_bool ·.2) then
      manifest_failure true "permissions must map strings to booleans"
    else permissions.flatMap fun permission =>
      if permission.1 ∉ ["network", "subprocess"] then
        manifest_failure true ("unsupported permission: " ++ permission.1)
      else
        manifest_failure permission.2.truthy ("permission is not supported in v6: " ++ permission.1)
  | _ => manifest_failure true "permissions must be an object"

/-- The capabilities against the policies, the environment and the dependencies of the package. -/
def capability_failures (capabilities read_policy write_policy environment : Json)
    (dependencies : List String) : Except PyError (List PolicyFailure) :=
  if capabilities = .null then .ok []
  else do
    let valid := manifest_failure (!valid_capabilities capabilities)
      "capabilities must declare safe read/write/env/dependencies lists"
    let read ← py_set (← py_get capabilities "read" (.arr []))
    let readable ← py_set (← py_get read_policy "allow" (.arr []))
    let write ← py_set (← py_get capabilities "write" (.arr []))
    let writable ← py_set (← py_get write_policy "allow" (.arr []))
    let env ← py_set (← py_get capabilities "env" (.arr []))
    let declared ← py_set environment
    let needed ← py_set (← py_get capabilities "dependencies" (.arr []))
    let signed := dependencies.map Json.str
    .ok (valid ++
      manifest_failure (!py_subset read readable) "read capabilities must be allowed by read_policy" ++
      manifest_failure (!py_subset write writable)
        "write capabilities must be allowed by write_policy" ++
      manifest_failure (!py_subset env declared) "env capabilities must be declared in environment" ++
      manifest_failure (!(py_subset needed signed && py_subset signed needed))
        "dependency capabilities must match signed package dependencies")

/-- The failure of `_resolve_policy_receipt_path`. -/
def receipt_path_failures (links : Links) (receipt_path : Json) :
    Except PyError (List PolicyFailure) :=
  match resolve_policy_receipt_path links receipt_path with
  | .ok _ => .ok []
  | .error .BogOSError =>
    let receipt_path := if receipt_path.truthy then receipt_path else .str ".bogos/receipts"
    .ok (manifest_failure true (if !is_safe_relpath receipt_path
      then "receipt_path must be a safe relative workspace path"
      else "receipt_path must stay inside the workspace"))
  | .error e => .error e

/-- The paths of the read policy that are not allowed. -/
def read_policy_failures (allowed_files : List String) (read_policy : Json) :
    Except PyError (List PolicyFailure) :=
  match read_policy with
  | .obj d => do
    let paths ← py_set ((Dict.get d "allow").getD (.arr []))
    .ok ((paths.filter fun path => !listed allowed_files path).map
      (·, "read policy path is not in allowed_files"))
  | _ => .ok []

/-- The expected hash of a file. -/
def hash_failures (package : InstalledPackage) (expected : String × String) : List PolicyFailure :=
  match package.tree.file (path_parts expected.1) with
  | none => [(.str expected.1, "expected hashed file is missing")]
  | some data =>
    if hexdigest data ≠ expected.2 then [(.str expected.1, "app manifest expected hash mismatch")]
    else []

/-- `entrypoint[1]` when `len(entrypoint) >= 2` -/
def second_part : Json → Except PyError (Option Json)
  | .arr parts => .ok parts[1]?
  | .str text => .ok (text.toList[1]?.map fun c => .str (String.singleton c))
  | .obj d => if 2 ≤ d.length then .error .KeyError else .ok none
  | _ => .error .TypeError

/-- The file of the entrypoint. -/
def entrypoint_file_failures (allowed_files : List String) : Except PyError (List PolicyFailure) := do
  match ← second_part (app_field app_info "entrypoint" (.arr [])) with
  | none => .ok []
  | some part =>
    if is_safe_relpath part && !listed allowed_files part then
      .ok [(part, "entrypoint file is not in allowed_files")]
    else .ok []

/-- `_verify_app_runtime_policy`; `package` is the one in `install_dir`, `links` are those of the
workspace. -/
def verify_app_runtime_policy (links : Links) (package : InstalledPackage) (app : String)
    (verify_receipt : Verification) : Except PyError AppPolicyReceipt := do
  if !Schema.is_string (app_field app_info "install_dir" (.str "")) then .error .TypeError
  else
    let permissions := app_field app_info "permissions" (.obj [])
    let environment := app_field app_info "environment" (.obj [])
    let read_policy := app_field app_info "read_policy" (.obj [])
    let write_policy := app_field app_info "write_policy" (.obj [])
    let receipt_path := app_field app_info "receipt_path" .null
    let capabilities := app_field app_info "capabilities" .null
    let safe_files := safe_paths (app_field app_info "allowed_files" (.arr []))
    let allowed_files := safe_files.getD []
    let hashes := safe_hashes (app_field app_info "expected_hashes" (.obj []))
    let expected_hashes := hashes.getD []
    let write_valid ← valid_write_policy write_policy
    let capability ← capability_failures capabilities read_policy write_policy environment
      verify_receipt.dependencies
    let receipt ← receipt_path_failures links receipt_path
    let read ← read_policy_failures allowed_files read_policy
    let entrypoint ← entrypoint_file_failures app_info allowed_files
    let failures :=
      required_fields.flatMap (fun field => manifest_failure (Dict.get app_info field).isNone
        ("missing app manifest field: " ++ field)) ++
      manifest_failure (app_field app_info "name" .null ≠ .str app)
        ("app name mismatch: expected " ++ app) ++
      entrypoint_failures app_info ++
      manifest_failure safe_files.isNone "allowed_files must be safe relative paths" ++
      manifest_failure hashes.isNone "expected_hashes must map safe relative paths to hashes" ++
      permission_failures permissions ++
      manifest_failure (!Schema.object_of Schema.is_string environment)
        "environment must map strings to strings" ++
      manifest_failure (!valid_access_policy read_policy)
        "read_policy must be an object with a safe allow list" ++
      manifest_failure (!write_valid)
        "write_policy must be mode none or allowed with a safe allow list" ++
      capability ++ receipt ++
      (expected_hashes.filter fun expected => expected.1 ∉ allowed_files).map (fun expected =>
        (.str expected.1, "expected hash path is not in allowed_files")) ++
      read ++ expected_hashes.flatMap (hash_failures package) ++ entrypoint
    .ok {
      app := app
      package := app_field app_info "package" .null
      package_verification_status := verify_receipt.status
      policy := Dict.of [
        ("allowed_files", .arr (allowed_files.map .str)),
        ("expected_hashes", .obj (expected_hashes.map fun expected => (expected.1, .str expected.2))),
        ("permissions", permissions),
        ("environment", environment),
        ("read_policy", read_policy),
        ("write_policy", write_policy),
        ("receipt_path", receipt_path),
        ("capabilities", capabilities)]
      failures := failures }

end Checks

/-! ## The command -/

/-- `_is_safe_relpath(part) and (install_dir / part).is_file()` -/
def InstalledPackage.holds (package : InstalledPackage) (part : String) : Bool :=
  is_safe_relpath (.str part) && (package.tree.file (path_parts part)).isSome

/-- `_resolve_entrypoint` -/
def resolve_entrypoint (package : InstalledPackage) (entrypoint : List String) : List String :=
  match entrypoint[1]?.filter package.holds, entrypoint[0]?.filter package.holds with
  | some second, _ => entrypoint.set 1 (package.resolve (path_parts second))
  | none, some first => entrypoint.set 0 (package.resolve (path_parts first))
  | none, none => entrypoint

/-- Every part of the command that was replaced is the path of a listed file. -/
def PolicyCovers (package : InstalledPackage) (allowed_files entrypoint : List String) : Prop :=
  ∀ (i : ℕ) (part : String), (resolve_entrypoint package entrypoint)[i]? = some part →
    entrypoint[i]? ≠ some part → ∃ path ∈ allowed_files, part = package.resolve (path_parts path)

section Command

variable {package : InstalledPackage} {allowed_files entrypoint : List String} {first second : String}

/-- A part that names a file of the package is relative, its replacement is not. -/
theorem InstalledPackage.resolve_ne (h : package.holds first = true) :
    package.resolve (path_parts first) ≠ first := by
  intro heq
  have habsolute := package.absolute (path_parts first)
  rw [heq] at habsolute
  simp [InstalledPackage.holds, is_safe_relpath, is_contained, habsolute] at h

theorem getElem?_set_ne_iff {command : List String} {i j : ℕ} {old new part : String}
    (hold : command[i]? = some old) (hne : new ≠ old) :
    (command.set i new)[j]? = some part ∧ command[j]? ≠ some part ↔ j = i ∧ part = new := by
  by_cases hij : i = j
  · subst hij
    have hlt : i < command.length := (List.getElem?_eq_some_iff.mp hold).1
    rw [List.getElem?_set_self hlt, hold]
    constructor
    · rintro ⟨hpart, -⟩
      exact ⟨rfl, (Option.some.inj hpart).symm⟩
    · rintro ⟨-, rfl⟩
      exact ⟨rfl, fun h => hne (Option.some.inj h).symm⟩
  · rw [List.getElem?_set_ne hij]
    constructor
    · rintro ⟨hpart, hother⟩
      exact absurd hpart hother
    · rintro ⟨rfl, -⟩
      exact absurd rfl hij

/-- A command with one replaced part is covered when that part is listed. -/
theorem covers_set_iff {i : ℕ} {old : String} (hold : entrypoint[i]? = some old)
    (hheld : package.holds old = true)
    (hcommand : resolve_entrypoint package entrypoint =
      entrypoint.set i (package.resolve (path_parts old))) :
    PolicyCovers package allowed_files entrypoint ↔
      ∃ path ∈ allowed_files, package.resolve (path_parts old) = package.resolve (path_parts path) := by
  have hreplaced {j : ℕ} {part : String} :=
    @getElem?_set_ne_iff entrypoint i j old _ part hold (package.resolve_ne hheld)
  unfold PolicyCovers
  rw [hcommand]
  constructor
  · intro h
    have hnew := hreplaced.mpr ⟨rfl, rfl⟩
    exact h i _ hnew.1 hnew.2
  · intro h j part hpart hother
    rw [(hreplaced.mp ⟨hpart, hother⟩).2]
    exact h

theorem resolve_second (hsecond : entrypoint[1]? = some second) (h : package.holds second = true) :
    resolve_entrypoint package entrypoint = entrypoint.set 1 (package.resolve (path_parts second)) := by
  simp [resolve_entrypoint, hsecond, Option.filter, h]

theorem resolve_first (hsecond : ∀ second, entrypoint[1]? = some second → package.holds second = false)
    (hfirst : entrypoint[0]? = some first) (h : package.holds first = true) :
    resolve_entrypoint package entrypoint = entrypoint.set 0 (package.resolve (path_parts first)) := by
  have hnone : entrypoint[1]?.filter package.holds = none := by
    rw [Option.filter_eq_none_iff]
    intro second hmem
    simpa using hsecond second hmem
  rw [resolve_entrypoint, hnone]
  simp [hfirst, Option.filter, h]

theorem resolve_none (hsecond : ∀ second, entrypoint[1]? = some second → package.holds second = false)
    (hfirst : ∀ first, entrypoint[0]? = some first → package.holds first = false) :
    resolve_entrypoint package entrypoint = entrypoint := by
  have hnone {i : ℕ} (h : ∀ part, entrypoint[i]? = some part → package.holds part = false) :
      entrypoint[i]?.filter package.holds = none := by
    rw [Option.filter_eq_none_iff]
    intro part hmem
    simpa using h part hmem
  rw [resolve_entrypoint, hnone hsecond, hnone hfirst]

end Command

/-! ## A completed policy -/

section Completed

variable {app_info : Dict} {links : Links} {package : InstalledPackage} {app : String}
  {verify_receipt : Verification} {receipt : AppPolicyReceipt}
  {allowed_files entrypoint : List String} {second : String}

theorem safe_relpath_eq_some {v : Json} {path : String} (h : safe_relpath v = some path) :
    v = .str path := by
  cases v with
  | str text =>
    rw [safe_relpath] at h
    split_ifs at h
    rw [Option.some.inj h]
  | _ => cases h

theorem safe_paths_eq_some {v : Json} (h : safe_paths v = some allowed_files) :
    v = .arr (allowed_files.map .str) := by
  cases v with
  | arr items =>
    rw [Json.arr.injEq]
    rw [safe_paths] at h
    induction items generalizing allowed_files with
    | nil =>
      rw [List.mapM_nil] at h
      rw [← Option.some.inj h]
      rfl
    | cons item items ih =>
      rw [List.mapM_cons] at h
      obtain ⟨path, hpath, h⟩ := Option.bind_eq_some_iff.mp h
      obtain ⟨paths, hpaths, h⟩ := Option.bind_eq_some_iff.mp h
      rw [← Option.some.inj h, List.map_cons, ← ih hpaths, safe_relpath_eq_some hpath]
  | _ => cases h

theorem exists_texts {parts : List Json} (h : parts.all Schema.is_string = true) :
    ∃ texts : List String, parts = texts.map .str := by
  induction parts with
  | nil => exact ⟨[], rfl⟩
  | cons part parts ih =>
    rw [List.all_cons, Bool.and_eq_true] at h
    obtain ⟨texts, rfl⟩ := ih h.2
    cases part with
    | str text => exact ⟨text :: texts, rfl⟩
    | _ => simp [Schema.is_string] at h

theorem manifest_failure_eq_nil {c : Bool} {reason : String} :
    manifest_failure c reason = [] ↔ c = false := by
  cases c <;> simp [manifest_failure]

/-- What a completed policy says of the entrypoint and of the allowed files. -/
theorem completed_inv
    (h : verify_app_runtime_policy app_info links package app verify_receipt = .ok receipt)
    (hdone : receipt.completed = true) :
    (∀ field ∈ required_fields, (Dict.get app_info field).isSome = true) ∧
      entrypoint_failures app_info = [] ∧
      ∃ allowed_files, safe_paths (app_field app_info "allowed_files" (.arr [])) = some allowed_files ∧
        entrypoint_file_failures app_info allowed_files = .ok [] := by
  unfold verify_app_runtime_policy at h
  split_ifs at h
  obtain ⟨write_valid, -, h⟩ := bind_eq_ok.mp h
  obtain ⟨capability, -, h⟩ := bind_eq_ok.mp h
  obtain ⟨path, -, h⟩ := bind_eq_ok.mp h
  obtain ⟨read, -, h⟩ := bind_eq_ok.mp h
  obtain ⟨file, hfile, h⟩ := bind_eq_ok.mp h
  rw [← Except.ok.inj h, AppPolicyReceipt.completed, List.isEmpty_iff] at hdone
  simp only [List.append_eq_nil_iff, List.flatMap_eq_nil_iff, manifest_failure_eq_nil] at hdone
  obtain ⟨⟨⟨⟨⟨⟨⟨⟨⟨⟨⟨⟨⟨⟨hfields, -⟩, hentry⟩, hfiles⟩, -⟩, -⟩, -⟩, -⟩, -⟩, -⟩, -⟩, -⟩, -⟩, -⟩, rfl⟩ :=
    hdone
  obtain ⟨allowed_files, hallowed⟩ := Option.isSome_iff_exists.mp (Option.isNone_eq_false_iff.mp hfiles)
  refine ⟨fun field hmem => Option.isNone_eq_false_iff.mp (hfields field hmem), hentry,
    allowed_files, hallowed, ?_⟩
  rwa [hallowed] at hfile

/-- The entrypoint and the allowed files of a completed policy are lists of texts. -/
theorem texts_of_completed
    (h : verify_app_runtime_policy app_info links package app verify_receipt = .ok receipt)
    (hdone : receipt.completed = true) :
    ∃ entrypoint allowed_files : List String,
      Dict.get app_info "entrypoint" = some (.arr (entrypoint.map .str)) ∧
      Dict.get app_info "allowed_files" = some (.arr (allowed_files.map .str)) := by
  obtain ⟨hfields, hentry, allowed_files, hallowed, -⟩ := completed_inv h hdone
  obtain ⟨entry, hget⟩ := Option.isSome_iff_exists.mp (hfields "entrypoint" (by decide))
  obtain ⟨files, hfiles⟩ := Option.isSome_iff_exists.mp (hfields "allowed_files" (by decide))
  rw [app_field, hfiles] at hallowed
  rw [entrypoint_failures, app_field, hget, List.append_eq_nil_iff, manifest_failure_eq_nil] at hentry
  cases entry with
  | arr parts =>
    have hall : parts.all Schema.is_string = true := by simpa using hentry.1
    obtain ⟨entrypoint, rfl⟩ := exists_texts hall
    exact ⟨entrypoint, allowed_files, hget, hfiles.trans (congrArg some (safe_paths_eq_some hallowed))⟩
  | _ => cases hentry.1

/-- The second part of the entrypoint is listed when it is a safe path. -/
theorem listed_of_completed
    (h : verify_app_runtime_policy app_info links package app verify_receipt = .ok receipt)
    (hdone : receipt.completed = true)
    (hentry : Dict.get app_info "entrypoint" = some (.arr (entrypoint.map .str)))
    (hallowed : Dict.get app_info "allowed_files" = some (.arr (allowed_files.map .str)))
    (hsecond : entrypoint[1]? = some second) (hsafe : is_safe_relpath (.str second) = true) :
    second ∈ allowed_files := by
  obtain ⟨-, -, files, hfiles, hfile⟩ := completed_inv h hdone
  rw [app_field, hallowed] at hfiles
  have hsame : allowed_files = files :=
    List.map_injective_iff.mpr (fun _ _ => Json.str.inj) (Json.arr.inj (safe_paths_eq_some hfiles))
  by_contra hnot
  have hunlisted : listed files (.str second) = false := by simpa [listed, ← hsame] using hnot
  have hpart : second_part (.arr (entrypoint.map .str)) = .ok (some (.str second)) := by
    simp [second_part, hsecond]
  rw [entrypoint_file_failures, app_field, hentry, Option.getD_some, hpart] at hfile
  simp [hsafe, hunlisted, bind, Except.bind] at hfile

/-- A completed policy covers the command exactly when a first part that is run from the package leads
to a listed file. -/
theorem policy_covers_iff
    (h : verify_app_runtime_policy app_info links package app verify_receipt = .ok receipt)
    (hdone : receipt.completed = true)
    (hentry : Dict.get app_info "entrypoint" = some (.arr (entrypoint.map .str)))
    (hallowed : Dict.get app_info "allowed_files" = some (.arr (allowed_files.map .str))) :
    PolicyCovers package allowed_files entrypoint ↔
      ∀ first, entrypoint[0]? = some first → package.holds first = true →
        (∀ second, entrypoint[1]? = some second → package.holds second = false) →
        ∃ path ∈ allowed_files,
          package.resolve (path_parts first) = package.resolve (path_parts path) := by
  by_cases hsecond : ∃ second, entrypoint[1]? = some second ∧ package.holds second = true
  · obtain ⟨second, hpart, hheld⟩ := hsecond
    have hsafe : is_safe_relpath (.str second) = true := (Bool.and_eq_true _ _ ▸ hheld).1
    rw [covers_set_iff hpart hheld (resolve_second hpart hheld)]
    constructor
    · intro _ first _ _ hnone
      rw [hnone second hpart] at hheld
      cases hheld
    · intro _
      exact ⟨second, listed_of_completed h hdone hentry hallowed hpart hsafe, rfl⟩
  · have hnone : ∀ second, entrypoint[1]? = some second → package.holds second = false := by
      intro second hpart
      by_contra hheld
      exact hsecond ⟨second, hpart, by simpa using hheld⟩
    by_cases hfirst : ∃ first, entrypoint[0]? = some first ∧ package.holds first = true
    · obtain ⟨first, hpart, hheld⟩ := hfirst
      rw [covers_set_iff hpart hheld (resolve_first hnone hpart hheld)]
      constructor
      · intro hlisted first' hpart' _ _
        rw [hpart, Option.some.injEq] at hpart'
        rwa [← hpart']
      · intro hlisted
        exact hlisted first hpart hheld hnone
    · have hnone' : ∀ first, entrypoint[0]? = some first → package.holds first = false := by
        intro first hpart
        by_contra hheld
        exact hfirst ⟨first, hpart, by simpa using hheld⟩
      rw [PolicyCovers, resolve_none hnone hnone']
      constructor
      · intro _ first hpart hheld
        rw [hnone' first hpart] at hheld
        cases hheld
      · intro _ i part hpart hother
        exact absurd hpart hother

end Completed

/-! ## The first part -/

/-- The entry of an app with these allowed files and this entrypoint. -/
def app_entry (allowed_files entrypoint : List String) : Dict :=
  Dict.of [
    ("name", .str "tool"),
    ("package", .str "tools"),
    ("install_dir", .str "/store/tools"),
    ("entrypoint", .arr (entrypoint.map .str)),
    ("allowed_files", .arr (allowed_files.map .str)),
    ("expected_hashes", .obj []),
    ("permissions", .obj []),
    ("environment", .obj []),
    ("read_policy", .obj [("allow", .arr [])]),
    ("write_policy", .obj [("allow", .arr []), ("mode", .str "none")]),
    ("receipt_path", .str ".bogos/receipts")]

/-- A package with one file. -/
def tools_package : InstalledPackage where
  tree := ⟨[(["app.py".toList], [])], []⟩
  resolve path := "/store/tools/" ++ as_posix path
  absolute path := by simp [is_absolute]

/-- A workspace without symbolic links. -/
def no_links : Links := ⟨fun _ => false, fun path => .ok (some path)⟩

/-- The verification of a package without dependencies. -/
def tools_verification : Verification :=
  .checked "tools" ⟨[], "tools", "1.0", "", [], ""⟩ "" [] (some "") []

theorem tools_policy (allowed_files entrypoint : List String)
    (h : ((verify_app_runtime_policy (app_entry allowed_files entrypoint) no_links tools_package "tool"
      tools_verification).toOption.map (·.completed)) = some true) :
    ∃ receipt, verify_app_runtime_policy (app_entry allowed_files entrypoint) no_links tools_package
      "tool" tools_verification = .ok receipt ∧ receipt.completed = true := by
  obtain ⟨receipt, hreceipt, hdone⟩ := Option.map_eq_some_iff.mp h
  exact ⟨receipt, toOption_eq_some.mp hreceipt, hdone⟩

/-- An interpreter that runs a listed file. -/
theorem policy_covers_listed : PolicyCovers tools_package ["app.py"] ["python3", "app.py"] := by
  obtain ⟨receipt, hreceipt, hdone⟩ := tools_policy ["app.py"] ["python3", "app.py"] (by decide +kernel)
  refine (policy_covers_iff hreceipt hdone (by decide +kernel) (by decide +kernel)).mpr ?_
  intro first hfirst hheld
  obtain rfl : "python3" = first := by simpa using hfirst
  exact absurd hheld (by decide +kernel)

/-- A file of the package that no list names runs as the first part of its entrypoint. -/
theorem unlisted_file_runs :
    (∃ receipt, verify_app_runtime_policy (app_entry [] ["app.py"]) no_links tools_package "tool"
      tools_verification = .ok receipt ∧ receipt.completed = true) ∧
    resolve_entrypoint tools_package ["app.py"] = ["/store/tools/app.py"] ∧
    ¬ PolicyCovers tools_package [] ["app.py"] := by
  have hcommand : resolve_entrypoint tools_package ["app.py"] = ["/store/tools/app.py"] := by
    decide +kernel
  refine ⟨tools_policy [] ["app.py"] (by decide +kernel), hcommand, fun hcovers => ?_⟩
  obtain ⟨path, hpath, -⟩ := hcovers 0 "/store/tools/app.py" (by rw [hcommand]; rfl) (by decide)
  exact List.not_mem_nil hpath

end Bogbin.Bogvm
