import Bogbin.Bogvm.AppManifest
import Bogbin.Bogvm.StoreInstall

/-!
# The app index

`install_package` adds the entries of the installed manifests to the app index and never takes one
out.  After every installation of a run the index agrees with the installed manifests exactly when
every reinstallation yields an entry for each name that its package already has (`index_current_iff`).
-/

namespace Bogbin.Bogvm

/-- The store and `state["apps"]` of a workspace. -/
structure AppWorkspace where
  store : Store
  apps : Dict

/-- How the workspace reads an installed manifest and makes an index name. -/
structure ManifestReader where
  /-- `json.loads(path.read_text())` -/
  load : Bytes → Content
  /-- `c.isalnum()` beyond ASCII -/
  letters : Char → Bool

section Workspace

variable (host : Host) (keys : Keys) (reader : ManifestReader)

/-- The directory that a package was restored to. -/
def installed_root (store : Store) (package : String) : Tree Bytes :=
  (store.installed (install_dir store package)).getD .empty

/-- `Workspace.install_package` on a bundle: the installation and, unless it was blocked, the app
index. -/
def install_and_index (bundle : Tree File) :
    EStateM PyError AppWorkspace (Option InstallReceipt) := fun w =>
  match install_package host keys bundle w.store with
  | .error e store => .error e { w with store := store }
  | .ok none store => .ok none { w with store := store }
  | .ok (some r) store =>
    match index_package_apps reader.load reader.letters r.package r.install_dir
        (installed_root store r.package) w.apps with
    | .ok _ apps => .ok (some r) ⟨store, apps⟩
    | .error e apps => .error e ⟨store, apps⟩

/-- The entries of an index that the manifests of a package yield, under their names. -/
def indexed (store : Store) (package : String) (root : Tree Bytes) : Dict :=
  match yields reader.load reader.letters package (install_dir store package) root with
  | .ok items => set_items [] items
  | .error _ => []

/-- Every entry of the index is the one that the installed manifests of its package yield under its
name. -/
def Current (w : AppWorkspace) : Prop :=
  ∀ name entry, Dict.get w.apps name = some entry → ∃ package, entry_package entry = some package ∧
    Dict.get (indexed reader w.store package (installed_root w.store package)) name = some entry

/-- The files in a bundle, when its archive can be restored. -/
def bundle_root (bundle : Tree File) : Tree Bytes :=
  match restore_directory_archive host (bundle.sub "archive") ⟨.empty, []⟩ with
  | .ok _ output => output.tree
  | .error _ output => output.tree

/-- The manifests in a bundle yield an entry for every name under which its package is in the index. -/
def Renews (w : AppWorkspace) (bundle : Tree File) (package : String) : Prop :=
  ∀ name entry, Dict.get w.apps name = some entry → entry_package entry = some package →
    (Dict.get (indexed reader w.store package (bundle_root host bundle)) name).isSome

/-- A completed installation. -/
structure IndexedInstall where
  before : AppWorkspace
  bundle : Tree File
  receipt : InstallReceipt
  after : AppWorkspace

/-- Completed installations, one after the other, from an empty index. -/
inductive IndexRun : List IndexedInstall → AppWorkspace → Prop
  | start {store : Store} : IndexRun [] ⟨store, []⟩
  | install {installs : List IndexedInstall} {i : IndexedInstall} (hrun : IndexRun installs i.before)
      (h : install_and_index host keys reader i.bundle i.before = .ok (some i.receipt) i.after) :
      IndexRun (installs ++ [i]) i.after

end Workspace

section Step

variable {host : Host} {keys : Keys} {reader : ManifestReader} {bundle : Tree File}
  {w w' : AppWorkspace} {r : InstallReceipt} {name : String} {entry : Json}

/-- A restored directory holds the files of the archive, whatever was there. -/
theorem tree_of_restored {tree root : Tree Bytes} {hash : String} {strayed : List String}
    (h : restore_directory_archive host (bundle.sub "archive") ⟨tree, []⟩ = .ok hash ⟨root, strayed⟩) :
    bundle_root host bundle = root := by
  unfold restore_directory_archive at h
  obtain ⟨manifest, hmanifest, h⟩ := StateExcept.ofExcept_bind_eq_ok.mp h
  rw [StateExcept.bind_of_ok (StateExcept.modify_apply _)] at h
  unfold bundle_root restore_directory_archive
  rw [hmanifest, StateExcept.bind_of_ok StateExcept.ofExcept_ok,
    StateExcept.bind_of_ok (StateExcept.modify_apply _)]
  dsimp only at h ⊢
  rw [h]

/-- What a completed installation does: the directory of its package holds the files of the bundle, the
other directories stay, and what the manifests yield is set. -/
structure Indexes (host : Host) (reader : ManifestReader) (bundle : Tree File) (w : AppWorkspace)
    (package : String) (w' : AppWorkspace) : Prop where
  root_eq : w'.store.root = w.store.root
  installed : installed_root w'.store package = bundle_root host bundle
  other : ∀ p, p ≠ package → installed_root w'.store p = installed_root w.store p
  apps : ∀ name, Dict.get w'.apps name =
    (Dict.get (indexed reader w.store package (bundle_root host bundle)) name).or (Dict.get w.apps name)

theorem entry_package_of_indexed {package : String} {root : Tree Bytes}
    (h : Dict.get (indexed reader w.store package root) name = some entry) :
    entry_package entry = some package := by
  unfold indexed at h
  split at h
  · next hyields => exact entry_package_of_yields hyields _ (mem_of_get_set_items h)
  · cases h

theorem indexed_congr {store store' : Store} (h : store'.root = store.root) (package : String)
    (root : Tree Bytes) : indexed reader store' package root = indexed reader store package root := by
  unfold indexed install_dir
  rw [h]

theorem install_dir_of_ok {store store' : Store}
    (h : install_bundle host keys true bundle store = .ok r store') :
    r.install_dir = install_dir store r.package := by
  cases hcheck : check_bundle host keys true store bundle with
  | error e =>
    rw [install_of_check_error hcheck] at h
    cases h
  | ok checked =>
    obtain ⟨index, receipt, signature, key⟩ := checked
    rw [install_of_check hcheck] at h
    obtain ⟨_, _, -, h⟩ := StateExcept.bind_eq_ok.mp h
    obtain ⟨hash, _, -, h⟩ := StateExcept.bind_eq_ok.mp h
    obtain ⟨_, _, -, h⟩ := StateExcept.bind_eq_ok.mp h
    obtain rfl := (EStateM.Result.ok.inj h).1
    rfl

theorem install_package_eq_ok {store store' : Store} (h : install_package host keys bundle store =
    .ok (some r) store') : install_bundle host keys true bundle store = .ok r store' := by
  unfold install_package at h
  split at h
  · next hbundle =>
    obtain ⟨hr, rfl⟩ := EStateM.Result.ok.inj h
    rw [hbundle, Option.some.inj hr]
  · exact nomatch (EStateM.Result.ok.inj h).1
  · cases h

/-- The two halves of a completed installation. -/
theorem install_and_index_eq_ok (h : install_and_index host keys reader bundle w = .ok (some r) w') :
    install_bundle host keys true bundle w.store = .ok r w'.store ∧
      index_package_apps reader.load reader.letters r.package r.install_dir
        (installed_root w'.store r.package) w.apps = .ok ⟨⟩ w'.apps := by
  unfold install_and_index at h
  split at h
  · cases h
  · exact nomatch (EStateM.Result.ok.inj h).1
  · next hinstall =>
    split at h
    · next hindex =>
      obtain ⟨hr, rfl⟩ := EStateM.Result.ok.inj h
      obtain rfl := Option.some.inj hr
      exact ⟨install_package_eq_ok hinstall, hindex⟩
    · cases h

theorem install_and_index_of_ok {store' : Store} {apps : Dict}
    (hbundle : install_bundle host keys true bundle w.store = .ok r store')
    (hindex : index_package_apps reader.load reader.letters r.package r.install_dir
      (installed_root store' r.package) w.apps = .ok ⟨⟩ apps) :
    install_and_index host keys reader bundle w = .ok (some r) ⟨store', apps⟩ := by
  unfold install_and_index install_package
  rw [hbundle]
  dsimp only
  rw [hindex]

theorem installed_root_of_ok {store store' : Store}
    (h : install_bundle host keys true bundle store = .ok r store') :
    installed_root store' r.package = bundle_root host bundle := by
  obtain ⟨index, receipt, signature, root, hinst⟩ := installation_of_ok h
  obtain ⟨hash, strayed, hrestored⟩ := hinst.restored
  obtain rfl := tree_of_restored hrestored
  rw [hinst.store_eq]
  simp only [installed_root, after_install, install_dir, Function.update_self, Option.getD_some]

theorem indexes_of_ok (h : install_and_index host keys reader bundle w = .ok (some r) w') :
    Indexes host reader bundle w r.package w' := by
  obtain ⟨hbundle, hindex⟩ := install_and_index_eq_ok h
  have hroot := installed_root_of_ok hbundle
  obtain ⟨index, receipt, signature, root, hinst⟩ := installation_of_ok hbundle
  obtain ⟨items, hyields, happs⟩ := index_package_apps_eq_ok.mp hindex
  rw [hroot, install_dir_of_ok hbundle] at hyields
  refine ⟨by rw [hinst.store_eq]; rfl, hroot, fun p hp => ?_, fun name => ?_⟩
  · have hdir : install_dir w.store p ≠ install_dir w.store r.package :=
      fun heq => hp (install_dir_inj heq)
    rw [hinst.store_eq]
    unfold installed_root after_install
    dsimp only
    rw [install_dir] at hdir
    exact congrArg (fun (tree : Option (Tree Bytes)) => tree.getD .empty) (Function.update_of_ne hdir _ _)
  · rw [indexed, hyields, happs]
    exact get_set_items

/-- A completed installation leaves a current index exactly when it renews the entries of its package,
if the index was current. -/
theorem current_install_iff {package : String} (h : Indexes host reader bundle w package w')
    (hcurrent : Current reader w) :
    Current reader w' ↔ Renews host reader w bundle package := by
  constructor
  · intro hcurrent' name entry hentry hpackage
    cases hnew : Dict.get (indexed reader w.store package (bundle_root host bundle)) name with
    | some entry' => rfl
    | none =>
      -- the old entry stays, and the manifests do not yield it
      obtain ⟨p, hp, hyield⟩ := hcurrent' name entry (by rw [h.apps, hnew, hentry]; rfl)
      obtain rfl := Option.some.inj (hpackage.symm.trans hp)
      rw [h.installed, indexed_congr h.root_eq, hnew] at hyield
      cases hyield
  · intro hrenews name entry hentry
    rw [h.apps] at hentry
    cases hnew : Dict.get (indexed reader w.store package (bundle_root host bundle)) name with
    | some entry' =>
      rw [hnew] at hentry
      obtain rfl : entry' = entry := Option.some.inj hentry
      refine ⟨package, entry_package_of_indexed hnew, ?_⟩
      rw [h.installed, indexed_congr h.root_eq, hnew]
    | none =>
      rw [hnew] at hentry
      obtain ⟨p, hp, hyield⟩ := hcurrent name entry hentry
      have hne : p ≠ package := by
        rintro rfl
        have hsome := hrenews name entry hentry hp
        rw [hnew] at hsome
        exact absurd hsome Bool.false_ne_true
      refine ⟨p, hp, ?_⟩
      rw [h.other p hne, indexed_congr h.root_eq, hyield]

end Step

section Runs

variable {host : Host} {keys : Keys} {reader : ManifestReader} {installs : List IndexedInstall}
  {w : AppWorkspace}

theorem current_start (store : Store) : Current reader ⟨store, []⟩ :=
  fun _ _ h => nomatch h

/-- After every completed installation of a run the index agrees with the installed manifests exactly
when every installation yields an entry for each name that its package already has. -/
theorem index_current_iff (h : IndexRun host keys reader installs w) :
    (∀ i ∈ installs, Current reader i.after) ↔
      ∀ i ∈ installs, Renews host reader i.before i.bundle i.receipt.package := by
  -- with the last workspace: it is the one before the next installation
  suffices hboth : ((∀ i ∈ installs, Current reader i.after) ↔
      ∀ i ∈ installs, Renews host reader i.before i.bundle i.receipt.package) ∧
      ((∀ i ∈ installs, Current reader i.after) → Current reader w) from hboth.1
  induction h with
  | start => exact ⟨⟨fun _ => nofun, fun _ => nofun⟩, fun _ => current_start _⟩
  | @install installs i hrun hinstall ih =>
    obtain ⟨hiff, hlast⟩ := ih
    have hindexes := indexes_of_ok hinstall
    simp only [List.forall_mem_append, List.forall_mem_singleton]
    refine ⟨?_, fun hall => hall.2⟩
    constructor
    · rintro ⟨hbefore, hafter⟩
      exact ⟨hiff.mp hbefore, (current_install_iff hindexes (hlast hbefore)).mp hafter⟩
    · rintro ⟨hbefore, hrenews⟩
      have hcurrent := hiff.mpr hbefore
      exact ⟨hcurrent, (current_install_iff hindexes (hlast hcurrent)).mpr hrenews⟩

end Runs

/-! ## A reinstallation without the manifest -/

/-- A manifest with one app. -/
def lone_app_manifest : Dict := Dict.of [
  ("format", .str "BOGOS-app-manifest-6.0"),
  ("apps", .obj [("x", .obj (Dict.of [
    ("name", .str "x"),
    ("entrypoint", .arr [.str "x"]),
    ("allowed_files", .arr []),
    ("expected_hashes", .obj []),
    ("permissions", .obj []),
    ("environment", .obj []),
    ("read_policy", .obj [("allow", .arr [])]),
    ("write_policy", .obj (Dict.of [("mode", .str "none"), ("allow", .arr [])])),
    ("receipt_path", .str "receipts")]))])]

/-- The text of the manifest. -/
def app_text : Bytes := canonical_bytes (.obj lone_app_manifest)

/-- A reader that knows the text of the manifest. -/
def lone_reader : ManifestReader where
  load data := if data = app_text then .value (.obj lone_app_manifest) else .unparsable
  letters _ := false

def app_file_entry : ManifestEntry where
  path := "bog_app.json"
  size := .int app_text.length
  sha256 := hexdigest app_text
  object := lone_entry.object

/-- An archive with the manifest. -/
def app_archive : Tree File where
  files := [(["manifest.json".toList], json_file (build_manifest "source" [app_file_entry])),
    (path_parts lone_entry.object, json_file lone_app_manifest)]
  dirs := [["objects".toList]]

def app_archive_manifest : Manifest := ⟨.int 1, [app_file_entry], tree_hash [app_file_entry.tree_file]⟩

theorem read_app_archive : read_archive_manifest app_archive = .ok app_archive_manifest := by
  refine @read_build_manifest "source" _ _ Tree.file_cons_self fun e he => ?_
  obtain rfl := List.mem_singleton.mp he
  exact ⟨by decide, rfl, hex_pattern_hexdigest _, (by decide : object_pattern lone_entry.object = true)⟩

theorem object_data_app : object_data plain_host app_archive app_file_entry = some app_text := by
  have hne : (path_parts lone_entry.object == ["manifest.json".toList]) = false := by decide
  have hfile : app_archive.file (path_parts lone_entry.object) = some (json_file lone_app_manifest) := by
    rw [Tree.file, app_archive, List.lookup_cons, hne, List.lookup_cons_self]
  rw [object_data, show app_file_entry.object = lone_entry.object from rfl, hfile]
  rfl

theorem py_str_length (data : Bytes) : py_str (.int data.length) = toString data.length := by
  change String.ofList (toString (data.length : ℤ)).toList = _
  rw [String.ofList_toList]
  rfl

theorem tree_file_app : app_file_entry.tree_file = read_file "bog_app.json" app_text := by
  rw [read_file, ← py_str_length]
  rfl

theorem restorable_app : Restorable plain_host app_archive app_archive_manifest where
  contained e he := by
    obtain rfl := List.mem_singleton.mp he
    decide
  objects e he := by
    obtain rfl := List.mem_singleton.mp he
    exact ⟨app_text, object_data_app, by simp [Json.py_eq, app_file_entry], rfl⟩
  tree_hash := by
    rw [app_archive_manifest, List.map_singleton, object_data_app, tree_file_app]
    rfl
  plain e he := by
    obtain rfl := List.mem_singleton.mp he
    decide
  distinct := List.nodup_singleton _
  nonempty := by decide
  admitted _ _ _ _ := rfl
  apart := by decide

theorem packageable_app : Packageable plain_host app_archive app_archive_manifest "a" "1" [] where
  read_archive := read_app_archive
  file_count := rfl
  tree_sha256 := hex_pattern_hexdigest _
  hashes := by
    refine directory_hash_ok_iff.mpr fun f hf => ?_
    obtain rfl | hf := List.mem_cons.mp hf
    · exact ⟨_, if_neg (by decide)⟩
    · obtain rfl := List.mem_singleton.mp hf
      exact ⟨_, if_neg (by decide)⟩
  dirs := by decide
  name := by decide
  version := by decide
  dependencies := nofun
  restorable := restorable_app

theorem read_app_file : read_archive_file plain_host app_archive app_archive_manifest "bog_app.json" =
    .ok app_text :=
  (read_archive_file_eq_ok restorable_app.distinct (List.mem_singleton_self app_file_entry)).mpr
    ⟨by decide, object_data_app, by simp [Json.py_eq, app_file_entry], rfl⟩

/-- The directory that the archive is restored to. -/
def app_tree : Tree Bytes := ⟨[(["bog_app.json".toList], app_text)], []⟩

theorem restore_app_file : restore_file plain_host app_archive app_archive_manifest app_file_entry
    ⟨.empty, []⟩ = .ok (read_file "bog_app.json" app_text) ⟨app_tree, []⟩ := by
  have hparent : make_parent plain_host app_file_entry.path ⟨.empty, []⟩ = .ok ⟨⟩ ⟨.empty, []⟩ := rfl
  have hwrite : write_bytes plain_host (path_parts app_file_entry.path) app_text ⟨.empty, []⟩ =
    .ok ⟨⟩ ⟨app_tree, []⟩ := rfl
  rw [restore_file, StateExcept.bind_of_ok hparent, show app_file_entry.path = "bog_app.json" from rfl,
    read_app_file, StateExcept.bind_of_ok StateExcept.ofExcept_ok]
  exact StateExcept.bind_of_ok hwrite

theorem restore_app_files : restore_files plain_host app_archive app_archive_manifest
    app_archive_manifest.files ⟨.empty, []⟩ = .ok [read_file "bog_app.json" app_text] ⟨app_tree, []⟩ := by
  change restore_files _ _ _ [app_file_entry] _ = _
  rw [restore_files, StateExcept.bind_of_ok restore_app_file]
  rfl

theorem tree_hash_app :
    tree_hash [read_file "bog_app.json" app_text] = app_archive_manifest.tree_sha256 := by
  -- for any hash, so that the kernel does not compute this one
  have hfield (count : Json) (files : List ManifestEntry) (hash : String) :
      (Manifest.mk count files hash).tree_sha256 = hash := rfl
  rw [← tree_file_app]
  exact (hfield _ [app_file_entry] _).symm

theorem restore_app : restore_directory_archive plain_host app_archive ⟨.empty, []⟩ =
    .ok (tree_hash [read_file "bog_app.json" app_text]) ⟨app_tree, []⟩ := by
  rw [restore_of_manifest read_app_archive, StateExcept.bind_of_ok restore_app_files,
    if_pos tree_hash_app]
  rfl

theorem bundle_root_app {bundle : Tree File} (h : bundle.sub "archive" = app_archive) :
    bundle_root plain_host bundle = app_tree := by
  rw [bundle_root, h, restore_app]

/-- What the manifest yields. -/
theorem yields_app (dir : String) :
    yields lone_reader.load lone_reader.letters "a-1" dir app_tree =
      .ok ((manifest_apps lone_app_manifest).filterMap (app_item lone_reader.letters "a-1" dir)) := by
  have hload : lone_reader.load app_text = .value (.obj lone_app_manifest) := by
    simp [lone_reader]
  have happ : read_manifest lone_reader.load Schema.bog_app app_tree "bog_app.json" =
      .ok lone_app_manifest := by
    have hschema : Schema.bog_app (.obj lone_app_manifest) = true := by decide
    have hfile : app_tree.file ["bog_app.json".toList] = some app_text := Tree.file_cons_self
    rw [read_manifest, if_neg (by decide), hfile, Option.map_some, hload]
    dsimp only
    rw [if_pos hschema]
  have hcell : read_manifest lone_reader.load Schema.bogcell_app app_tree "bog_cell.json" = .ok [] :=
    rfl
  rw [yields, happ, hcell]
  rfl

theorem indexed_app (store : Store) :
    (Dict.get (indexed lone_reader store "a-1" app_tree) "x").isSome := by
  rw [indexed, yields_app]
  rfl

theorem bundle_root_empty {bundle : Tree File} (h : bundle.sub "archive" = empty_archive) :
    bundle_root plain_host bundle = .empty := by
  rw [bundle_root, h, restore_of_manifest read_empty_manifest, restore_files,
    StateExcept.bind_of_ok StateExcept.pure_apply, if_pos rfl]
  rfl

/-- A package without dependencies is installed and indexed when its manifests can be read. -/
theorem install_and_index_packaged {archive : Tree File} {manifest : Manifest} {w : AppWorkspace}
    {index : StoreIndex} {root : Tree Bytes} (hindex : read_store_index w.store.index = .ok index)
    (hpackage : Packageable plain_host archive manifest "a" "1" [])
    (hroot : ∀ bundle : Tree File, bundle.sub "archive" = archive → bundle_root plain_host bundle = root)
    (hyields : ∃ items, yields lone_reader.load lone_reader.letters "a-1" (install_dir w.store "a-1") root =
      .ok items) :
    ∃ i : IndexedInstall, i.before = w ∧ i.receipt.package = "a-1" ∧
      bundle_root plain_host i.bundle = root ∧
      (∃ index, read_store_index i.after.store.index = .ok index) ∧
      install_and_index plain_host plain_keys lone_reader i.bundle i.before =
        .ok (some i.receipt) i.after := by
  obtain ⟨bundle, receipt, hpackaged, hbundle, hdescribes⟩ :=
    package_directory_intact plain_keys_lawful hpackage true true (fun _ => rfl)
  obtain ⟨bundle', -, hpackaged', hsub, -, -⟩ :=
    package_directory_sealed plain_keys_lawful hpackage.toBuilt true true (fun _ => rfl)
  obtain rfl := Except.ok.inj (hpackaged.symm.trans hpackaged')
  obtain ⟨r, store', hok, hr⟩ := hbundle.ends_install hindex (fun d hd => by
    rw [hdescribes.dependencies, mem_sorted_set] at hd
    exact absurd hd List.not_mem_nil) (by rw [hdescribes.name, hdescribes.version]; rfl) rfl
  obtain ⟨_, _, _, _, hinst⟩ := installation_of_ok hok
  obtain ⟨fields, hafter⟩ := hinst.read_index
  obtain ⟨items, hyields⟩ := hyields
  have happs : index_package_apps lone_reader.load lone_reader.letters r.package r.install_dir
      (installed_root store' r.package) w.apps = .ok ⟨⟩ (set_items w.apps items) := by
    rw [installed_root_of_ok hok, hroot bundle hsub, install_dir_of_ok hok, hr]
    exact index_package_apps_eq_ok.mpr ⟨items, hyields, rfl⟩
  exact ⟨⟨w, bundle, r, ⟨store', set_items w.apps items⟩⟩, rfl, hr, hroot bundle hsub, ⟨_, hafter⟩,
    install_and_index_of_ok hok happs⟩

/-- The package is installed with the manifest. -/
theorem run_app_first : ∃ i : IndexedInstall,
    IndexRun plain_host plain_keys lone_reader [i] i.after ∧
      (∃ index, read_store_index i.after.store.index = .ok index) ∧ Current lone_reader i.after ∧
      ∃ entry, Dict.get i.after.apps "x" = some entry ∧ entry_package entry = some "a-1" := by
  obtain ⟨fields, hindex⟩ := read_new_store
  obtain ⟨i, hbefore, hpackage, hroot, hafter, hok⟩ := @install_and_index_packaged _ _ ⟨new_store, []⟩ _ _
    hindex packageable_app (fun _ => bundle_root_app) ⟨_, yields_app _⟩
  have hindexes := indexes_of_ok hok
  obtain ⟨entry, hentry⟩ := Option.isSome_iff_exists.mp (indexed_app i.before.store)
  have hstart : IndexRun plain_host plain_keys lone_reader [] i.before := by
    rw [hbefore]
    exact .start
  refine ⟨i, .install hstart hok, hafter, ?_, entry, ?_, entry_package_of_indexed hentry⟩
  · rw [current_install_iff hindexes (hbefore ▸ current_start new_store), hbefore]
    exact fun name entry h => nomatch h
  · rw [hindexes.apps, hpackage, hroot, hentry]
    rfl

theorem index_current_first : ∃ i : IndexedInstall,
    IndexRun plain_host plain_keys lone_reader [i] i.after ∧
      ((∀ j ∈ [i], Current lone_reader j.after) ↔
        ∀ j ∈ [i], Renews plain_host lone_reader j.before j.bundle j.receipt.package) := by
  obtain ⟨i, hrun, -⟩ := run_app_first
  exact ⟨i, hrun, index_current_iff hrun⟩

/-- The package is installed again without the manifest, and its app stays in the index. -/
theorem index_not_current : ¬∀ (host : Host) (keys : Keys) (reader : ManifestReader)
    (installs : List IndexedInstall) (w : AppWorkspace), IndexRun host keys reader installs w →
      ∀ i ∈ installs, Current reader i.after := by
  intro hall
  obtain ⟨i, hrun, ⟨index, hindex⟩, hcurrent, entry, hentry, hentry_package⟩ := run_app_first
  obtain ⟨j, hbefore, hpackage, hroot, -, hok⟩ := install_and_index_packaged hindex
    (packageable_empty (by decide) (by decide) (by simp)) (fun _ => bundle_root_empty) ⟨[], rfl⟩
  have hafter := hall _ _ _ _ _ (.install (hbefore ▸ hrun) hok) j (by simp)
  have hrenews := (current_install_iff (indexes_of_ok hok) (hbefore ▸ hcurrent)).mp hafter "x" entry
    (by rw [hbefore, hentry]) (by rw [hpackage, hentry_package])
  rw [hpackage, hroot] at hrenews
  cases hrenews

end Bogbin.Bogvm
