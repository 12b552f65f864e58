import Bogbin.Bogvm.Store
import Bogbin.Bogvm.Text
import Bogbin.Library.StateExcept

/-!
# App manifests

What an installed package says of its apps: `bog_app.json` and `bog_cell.json` with their schemas, and
the entries that `_index_package_apps` makes of them.
-/

namespace Bogbin.Bogvm

/-! ## Names -/

/-- `c.isalnum()`; `letters` are the characters beyond ASCII. -/
def is_alnum (letters : Char → Bool) (c : Char) : Bool :=
  if c.toNat < 128 then c.isAlphanum else letters c

/-- `_safe_name` -/
def safe_name (letters : Char → Bool) (value : String) : String :=
  let safe := value.toList.map fun c => if is_alnum letters c || c ∈ ['-', '_', '.'] then c else '_'
  let stripped := Tokens.strip (fun c => c = '.' || c = '_') safe
  if stripped = [] then "item" else String.ofList stripped

/-! ## Schemas -/

namespace Schema

def is_string : Json → Bool
  | .str _ => true
  | _ => false

def is_bool : Json → Bool
  | .bool _ => true
  | _ => false

/-- `{"type": "string", "minLength": 1}` -/
def nonempty (v : Json) : Bool := (nonempty_string v).isSome

/-- One of the texts of an `enum`. -/
def one_of (texts : List String) : Json → Bool
  | .str s => s ∈ texts
  | _ => false

/-- `{"type": "object", "additionalProperties": value}` -/
def object_of (value : Json → Bool) : Json → Bool
  | .obj d => d.all fun field => value field.2
  | _ => false

/-- An array without repetitions. -/
def unique_items (item : Json → Bool) : Json → Bool
  | .arr items => items.all item && items.Nodup
  | _ => false

def has_keys (d : Dict) (keys : List String) : Bool := keys.all fun key => (Dict.get d key).isSome

/-- A property that is there follows its schema. -/
def property (d : Dict) (key : String) (value : Json → Bool) : Bool :=
  match Dict.get d key with
  | some v => value v
  | none => true

/-- An object with exactly the listed properties. -/
def record_of (properties : List (String × (Json → Bool))) : Json → Bool
  | .obj d =>
    has_keys d (properties.map (·.1)) && only_keys d (properties.map (·.1)) &&
      properties.all fun p => property d p.1 p.2
  | _ => false

def paths : Json → Bool := unique_items nonempty

/-- `#/$defs/app` of `bog-app.schema.json` -/
def app : Json → Bool
  | .obj d =>
    has_keys d ["name", "entrypoint", "allowed_files", "expected_hashes", "permissions",
        "environment", "read_policy", "write_policy", "receipt_path"] &&
      property d "name" nonempty &&
      property d "entrypoint" (fun v =>
        match v with
        | .arr parts => parts.all is_string && !parts.isEmpty
        | _ => false) &&
      property d "allowed_files" paths &&
      property d "expected_hashes" (object_of fun v =>
        match v with
        | .str hash => hex_pattern 64 hash
        | _ => false) &&
      property d "permissions" (object_of is_bool) &&
      property d "environment" (object_of is_string) &&
      property d "read_policy" (record_of [("allow", paths)]) &&
      property d "write_policy" (record_of [("mode", one_of ["none", "allowed"]), ("allow", paths)]) &&
      property d "receipt_path" nonempty &&
      property d "capabilities" (record_of [("read", paths), ("write", paths), ("env", paths),
        ("dependencies", paths)])
  | _ => false

/-- `#/$defs/app8` of `bog-app.schema.json` -/
def app8 (v : Json) : Bool :=
  app v &&
    match v with
    | .obj d => has_keys d ["capabilities"]
    | _ => true

/-- `bog-app.schema.json` -/
def bog_app : Json → Bool
  | .obj d =>
    has_keys d ["format", "apps"] && only_keys d ["format", "apps"] &&
      property d "format" (one_of ["BOGOS-app-manifest-6.0", "BOGOS-app-manifest-8.0"]) &&
      property d "apps" (object_of app) &&
      (Dict.get d "format" ≠ some (.str "BOGOS-app-manifest-8.0") ||
        property d "apps" (object_of app8))
  | _ => false

/-- An app of `bogcell-app.schema.json`. -/
def cell : Json → Bool
  | .obj d =>
    has_keys d ["program", "capabilities"] &&
      only_keys d ["program", "build_receipt", "environment", "capabilities"] &&
      property d "program" nonempty && property d "build_receipt" nonempty &&
      property d "environment" (object_of is_string) &&
      property d "capabilities" (record_of [("read", unique_items is_string),
        ("write", unique_items is_string), ("env", unique_items is_string),
        ("dependencies", unique_items is_string)])
  | _ => false

/-- `bogcell-app.schema.json` -/
def bogcell_app : Json → Bool
  | .obj d =>
    has_keys d ["format", "apps"] && only_keys d ["format", "apps"] &&
      property d "format" (one_of ["BOGCELL-app-manifest-10.0"]) && property d "apps" (object_of cell)
  | _ => false

end Schema

/-! ## Entries -/

/-- `_normalize_app_manifest_entry` -/
def normalize_app_manifest_entry (app_entry : Json) : Option Dict :=
  match app_entry with
  | .obj d =>
    let format := (Dict.get d "format").getD .null
    if format.truthy ∧ format ≠ .str "BOGOS-app-manifest-entry-6.0" then none
    else
      match (Dict.get d "entrypoint").orElse fun _ => Dict.get d "command" with
      | some (.arr (part :: parts)) =>
        some (["name", "allowed_files", "expected_hashes", "permissions", "environment",
          "read_policy", "write_policy", "receipt_path", "capabilities"].foldl
            (fun normalized field =>
              match Dict.get d field with
              | some v => Dict.set normalized field v
              | none => normalized)
            [("entrypoint", .arr (part :: parts))])
      | _ => none
  | _ => none

/-- The entry of an app of `bog_app.json` under its index name. -/
def app_item (letters : Char → Bool) (package install_dir : String) (app : String × Json) :
    Option (String × Json) :=
  (normalize_app_manifest_entry app.2).map fun indexed_app =>
    (safe_name letters app.1,
      .obj (Dict.set (Dict.set indexed_app "package" (.str package)) "install_dir" (.str install_dir)))

/-- The entry of an app of `bog_cell.json` under its index name. -/
def cell_item (letters : Char → Bool) (package install_dir : String) (app : String × Json) :
    Option (String × Json) :=
  match app.2 with
  | .obj entry =>
    match Dict.get entry "program", Dict.get entry "capabilities" with
    | some (.str program), some (.obj capabilities) =>
      some (safe_name letters app.1, .obj (Dict.of [
        ("name", .str app.1),
        ("package", .str package),
        ("install_dir", .str install_dir),
        ("cell_program", .str program),
        ("cell_capabilities", .obj capabilities),
        ("cell_environment", (Dict.get entry "environment").getD (.obj [])),
        ("build_receipt", (Dict.get entry "build_receipt").getD (.str "build_receipt.json"))]))
    | _, _ => none
  | _ => none

/-- The manifest in an installed directory, empty when there is none that its schema admits; `load` is
`json.loads(path.read_text())`. -/
def read_manifest (load : Bytes → Content) (schema : Json → Bool) (root : Tree Bytes) (name : String) :
    Except PyError Dict :=
  if [name.toList] ∈ root.dirs then .error .OSError
  else
    match (root.file [name.toList]).map load with
    | none | some .unparsable => .ok []
    | some .undecodable => .error .UnicodeDecodeError
    | some (.value (.obj d)) => .ok (if schema (.obj d) then d else [])
    | some (.value _) => .ok []

/-- `manifest.get("apps", {})` -/
def manifest_apps (manifest : Dict) : Dict :=
  match Dict.get manifest "apps" with
  | some (.obj apps) => apps
  | _ => []

/-- Set the entries of a list one after the other. -/
def set_items (apps : Dict) (items : List (String × Json)) : Dict :=
  items.foldl (fun d item => Dict.set d item.1 item.2) apps

/-- `_index_package_apps` -/
def index_package_apps (load : Bytes → Content) (letters : Char → Bool) (package install_dir : String)
    (root : Tree Bytes) : EStateM PyError Dict Unit := do
  let manifest ← MonadExcept.ofExcept (read_manifest load Schema.bog_app root "bog_app.json")
  modify fun apps =>
    set_items apps ((manifest_apps manifest).filterMap (app_item letters package install_dir))
  let manifest ← MonadExcept.ofExcept (read_manifest load Schema.bogcell_app root "bog_cell.json")
  if Dict.get manifest "format" = some (.str "BOGCELL-app-manifest-10.0") then
    modify fun apps =>
      set_items apps ((manifest_apps manifest).filterMap (cell_item letters package install_dir))

/-! ## What is indexed -/

section Indexed

variable {load : Bytes → Content} {letters : Char → Bool} {package install_dir : String}
  {root : Tree Bytes} {apps apps' : Dict} {items : List (String × Json)} {name : String}

theorem set_items_append (l : List (String × Json)) :
    set_items apps (items ++ l) = set_items (set_items apps items) l := List.foldl_append ..

/-- What a name has after the entries are set: the last of them with this name, or what it had. -/
theorem get_set_items : Dict.get (set_items apps items) name =
    (Dict.get (set_items [] items) name).or (Dict.get apps name) := by
  induction items using List.reverseRecOn with
  | nil => rfl
  | append_singleton items item ih =>
    rw [set_items_append, set_items_append]
    show Dict.get (Dict.set _ item.1 item.2) name = (Dict.get (Dict.set _ item.1 item.2) name).or _
    rw [Dict.get_set, Dict.get_set, ih]
    split_ifs with hname
    · rfl
    · rfl

/-- The entries that the manifests in a directory yield, in the order in which they are set. -/
def yields (load : Bytes → Content) (letters : Char → Bool) (package install_dir : String)
    (root : Tree Bytes) : Except PyError (List (String × Json)) := do
  let app_manifest ← read_manifest load Schema.bog_app root "bog_app.json"
  let cell_manifest ← read_manifest load Schema.bogcell_app root "bog_cell.json"
  .ok ((manifest_apps app_manifest).filterMap (app_item letters package install_dir) ++
    if Dict.get cell_manifest "format" = some (.str "BOGCELL-app-manifest-10.0") then
      (manifest_apps cell_manifest).filterMap (cell_item letters package install_dir)
    else [])

/-- A package is indexed by setting what its manifests yield. -/
theorem index_package_apps_eq_ok :
    index_package_apps load letters package install_dir root apps = .ok ⟨⟩ apps' ↔
      ∃ items, yields load letters package install_dir root = .ok items ∧
        apps' = set_items apps items := by
  unfold index_package_apps yields
  cases happ : read_manifest load Schema.bog_app root "bog_app.json" with
  | error e =>
    rw [StateExcept.bind_of_error StateExcept.ofExcept_error]
    exact ⟨fun h => (nomatch h), fun ⟨_, h, _⟩ => (nomatch h)⟩
  | ok app_manifest =>
    rw [StateExcept.bind_of_ok StateExcept.ofExcept_ok,
      StateExcept.bind_of_ok (StateExcept.modify_apply _)]
    cases hcell : read_manifest load Schema.bogcell_app root "bog_cell.json" with
    | error e =>
      rw [StateExcept.bind_of_error StateExcept.ofExcept_error]
      exact ⟨fun h => (nomatch h), fun ⟨_, h, _⟩ => (nomatch h)⟩
    | ok cell_manifest =>
      rw [StateExcept.bind_of_ok StateExcept.ofExcept_ok]
      by_cases hformat : Dict.get cell_manifest "format" = some (.str "BOGCELL-app-manifest-10.0")
      · simp [StateExcept.ok_bind, hformat, set_items_append, eq_comm]
      · simp [StateExcept.ok_bind, hformat, eq_comm]

/-- The package of an entry. -/
def entry_package (entry : Json) : Option String :=
  match entry with
  | .obj d =>
    match Dict.get d "package" with
    | some (.str package) => some package
    | _ => none
  | _ => none

theorem entry_package_app_item {app item : String × Json}
    (h : app_item letters package install_dir app = some item) :
    entry_package item.2 = some package := by
  obtain ⟨indexed_app, -, rfl⟩ := Option.map_eq_some_iff.mp h
  dsimp only [entry_package]
  rw [Dict.get_set_of_ne (by decide), Dict.get_set_self]

theorem entry_package_cell_item {app item : String × Json}
    (h : cell_item letters package install_dir app = some item) :
    entry_package item.2 = some package := by
  unfold cell_item at h
  split at h
  · split at h
    · obtain rfl := Option.some.inj h
      simp [entry_package, Dict.of, Dict.get_set]
    · cases h
  · cases h

/-- Everything that is yielded names the package. -/
theorem entry_package_of_yields (h : yields load letters package install_dir root = .ok items) :
    ∀ item ∈ items, entry_package item.2 = some package := by
  unfold yields at h
  obtain ⟨app_manifest, -, h⟩ := bind_eq_ok.mp h
  obtain ⟨cell_manifest, -, h⟩ := bind_eq_ok.mp h
  obtain rfl := Except.ok.inj h
  intro item hitem
  rcases List.mem_append.mp hitem with hitem | hitem
  · obtain ⟨app, -, happ⟩ := List.mem_filterMap.mp hitem
    exact entry_package_app_item happ
  · split_ifs at hitem
    · obtain ⟨app, -, happ⟩ := List.mem_filterMap.mp hitem
      exact entry_package_cell_item happ
    · exact absurd hitem List.not_mem_nil

theorem mem_of_get_set_items {entry : Json} (h : Dict.get (set_items [] items) name = some entry) :
    (name, entry) ∈ items := by
  induction items using List.reverseRecOn with
  | nil => cases h
  | append_singleton items item ih =>
    rw [set_items_append] at h
    change Dict.get (Dict.set _ item.1 item.2) name = some entry at h
    rw [Dict.get_set] at h
    split_ifs at h with hname
    · obtain rfl := Option.some.inj h
      subst hname
      exact List.mem_append_right _ (List.mem_singleton_self item)
    · exact List.mem_append_left _ (ih h)

end Indexed

end Bogbin.Bogvm
