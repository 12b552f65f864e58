import Bogbin.Bogvm.Store
import Bogbin.Bogvm.ArchiveProof
import Bogbin.Library.PathSearch

/-!
# Verifying a package with its dependencies

The recursion of `verify_installed_package` is a search that remembers its path
(`fuelled_completes`), over the dependency lists of the receipts in the store.  It ends for every
index, and it completes exactly when every package below the start is intact and no dependency cycle
is below it (`verify_installed_package_completed_iff`).
-/

namespace Bogbin.Bogvm

open PathSearch Relation StateExcept

/-- Where the store has a package: its index entry, the two directories and the receipt. -/
structure Found (store : Store) (package : String) (index : StoreIndex) (entry : Json)
    (package_dir install_dir : String) (bundle : Tree File) (receipt : PackageReceipt) : Prop where
  read_index : read_store_index store.index = .ok index
  get_entry : Dict.get index.packages package = some entry
  package_path : entry_path entry "package_dir" = .ok package_dir
  install_path : entry_path entry "install_dir" = .ok install_dir
  get_bundle : store.packages package_dir = some bundle
  read_receipt : bundle_receipt bundle = .ok receipt

/-- The checks of a package that do not look at its dependencies. -/
structure Intact (host : Host) (keys : Keys) (require_signature : Bool) (store : Store)
    (entry : Json) (install_dir : String) (bundle : Tree File) (receipt : PackageReceipt) :
    Prop where
  signature : ∃ signature, verify_signature keys require_signature receipt.fields = .ok signature ∧
    signature.failures = []
  bundle_hash : directory_hash bundle = .ok receipt.bundle_sha256
  dependencies : entry_dependencies entry = .arr (receipt.dependencies.map .str)
  archive : VerifyCompleted host (bundle.sub "archive")
  installed : (store.installed install_dir).map tree_hash_for_directory =
    some receipt.archive_tree_sha256

/-- The package is in the index and intact. -/
def IntactPackage (host : Host) (keys : Keys) (require_signature : Bool) (store : Store)
    (package : String) : Prop :=
  ∃ index entry package_dir install_dir bundle receipt,
    Found store package index entry package_dir install_dir bundle receipt ∧
      Intact host keys require_signature store entry install_dir bundle receipt

/-- The receipt under the directory that the index names for a package. -/
def stored_receipt (store : Store) (package : String) : Option PackageReceipt := do
  let index ← (read_store_index store.index).toOption
  let entry ← Dict.get index.packages package
  let package_dir ← (entry_path entry "package_dir").toOption
  let bundle ← store.packages package_dir
  (bundle_receipt bundle).toOption

/-- The dependency list in the receipt of a package. -/
def dependencies_of (store : Store) (package : String) : List String :=
  match stored_receipt store package with
  | some receipt => receipt.dependencies
  | none => []

section Verify

variable {host : Host} {keys : Keys} {require_signature : Bool} {store : Store} {package : String}
  {index : StoreIndex} {entry : Json} {package_dir install_dir : String} {bundle : Tree File}
  {receipt : PackageReceipt} {fuel : ℕ} {seen : List String}

theorem Found.stored_receipt
    (h : Found store package index entry package_dir install_dir bundle receipt) :
    stored_receipt store package = some receipt := by
  simp [Bogvm.stored_receipt, h.read_index, h.get_entry, h.package_path, h.get_bundle, h.read_receipt,
    Except.toOption]

theorem Found.dependencies_of
    (h : Found store package index entry package_dir install_dir bundle receipt) :
    dependencies_of store package = receipt.dependencies := by
  rw [Bogvm.dependencies_of, h.stored_receipt]

/-- A package is found in one way. -/
theorem Found.unique {index' : StoreIndex} {entry' : Json} {package_dir' install_dir' : String}
    {bundle' : Tree File} {receipt' : PackageReceipt}
    (h : Found store package index entry package_dir install_dir bundle receipt)
    (h' : Found store package index' entry' package_dir' install_dir' bundle' receipt') :
    index = index' ∧ entry = entry' ∧ install_dir = install_dir' ∧ bundle = bundle' ∧
      receipt = receipt' := by
  obtain rfl := Except.ok.inj (h.read_index.symm.trans h'.read_index)
  obtain rfl := Option.some.inj (h.get_entry.symm.trans h'.get_entry)
  obtain rfl := Except.ok.inj (h.package_path.symm.trans h'.package_path)
  obtain rfl := Except.ok.inj (h.install_path.symm.trans h'.install_path)
  obtain rfl := Option.some.inj (h.get_bundle.symm.trans h'.get_bundle)
  obtain rfl := Except.ok.inj (h.read_receipt.symm.trans h'.read_receipt)
  exact ⟨rfl, rfl, rfl, rfl, rfl⟩

/-! ## One package -/

/-- A verification that completes. -/
def Completes (result : Except PyError Verification) : Prop :=
  ∃ verification, result = .ok verification ∧ verification.completed = true

theorem mapM_completes_iff {verify : String → Except PyError Verification} {l : List String} :
    (∃ verifications, l.mapM verify = .ok verifications ∧
        (l.zip verifications).filter (fun v => !v.2.completed) = []) ↔
      ∀ d ∈ l, Completes (verify d) := by
  induction l with
  | nil => simp [pure, Except.pure]
  | cons d l ih =>
    rw [List.forall_mem_cons, ← ih]
    cases hd : verify d with
    | error e => simp [Completes, hd, bind, Except.bind]
    | ok v =>
      cases hl : l.mapM verify with
      | error e => simp [hd, hl, bind, Except.bind]
      | ok vs =>
        simp only [List.mapM_cons, hd, hl, bind, Except.bind, pure, Except.pure, Except.ok.injEq,
          exists_eq_left', List.zip_cons_cons, Completes]
        cases hv : v.completed with
        | true => simp [hv]
        | false => simp [hv]

theorem content_failures_eq_nil {archive : ArchiveReport} {hash : Option String} :
    content_failures archive install_dir hash receipt = [] ↔
      archive.completed = true ∧ hash = some receipt.archive_tree_sha256 := by
  cases hash with
  | none => simp [content_failures]
  | some hash => simp [content_failures, ArchiveReport.completed]

theorem package_failures_eq_nil {signature : SignatureVerification} {hash : String} :
    package_failures_of index package package_dir entry receipt signature hash = [] ↔
      signature.failures = [] ∧ hash = receipt.bundle_sha256 ∧
        entry_dependencies entry = .arr (receipt.dependencies.map .str) ∧
        ∀ d ∈ receipt.dependencies, is_indexed index d = true := by
  simp [package_failures_of]

theorem check_package_completes_iff {verify : String → Except PyError Verification} :
    Completes (check_package host keys require_signature store index package package_dir
        install_dir entry bundle receipt verify) ↔
      Intact host keys require_signature store entry install_dir bundle receipt ∧
        ∀ d ∈ receipt.dependencies, is_indexed index d = true ∧ Completes (verify d) := by
  have hfilter (h : ∀ d ∈ receipt.dependencies, is_indexed index d = true) :
      (receipt.dependencies.filter fun d => is_indexed index d) = receipt.dependencies :=
    List.filter_eq_self.mpr h
  constructor
  · rintro ⟨verification, hcheck, hcompleted⟩
    rw [check_package] at hcheck
    obtain ⟨signature, hsignature, hrest⟩ := bind_eq_ok.mp hcheck
    obtain ⟨hash, hhash, hrest⟩ := bind_eq_ok.mp hrest
    obtain ⟨verifications, hverify, hrest⟩ := bind_eq_ok.mp hrest
    obtain ⟨archive, harchive, hrest⟩ := bind_eq_ok.mp hrest
    obtain rfl := Except.ok.inj hrest
    rw [Verification.completed, decide_eq_true_eq, List.append_eq_nil_iff, List.append_eq_nil_iff,
      List.map_eq_nil_iff, package_failures_eq_nil, content_failures_eq_nil] at hcompleted
    obtain ⟨⟨⟨hsigned, rfl, hlist, hindexed⟩, hfailed⟩, hcomplete, hinstalled⟩ := hcompleted
    rw [hfilter hindexed] at hverify hfailed
    have hall := mapM_completes_iff.mp ⟨verifications, hverify, hfailed⟩
    exact ⟨⟨⟨signature, hsignature, hsigned⟩, hhash, hlist, ⟨archive, harchive, hcomplete⟩,
      hinstalled⟩, fun d hd => ⟨hindexed d hd, hall d hd⟩⟩
  · rintro ⟨⟨⟨signature, hsignature, hsigned⟩, hhash, hlist, ⟨archive, harchive, hcomplete⟩,
      hinstalled⟩, hall⟩
    have hindexed : ∀ d ∈ receipt.dependencies, is_indexed index d = true :=
      fun d hd => (hall d hd).1
    obtain ⟨verifications, hverify, hfailed⟩ := mapM_completes_iff.mpr fun d hd => (hall d hd).2
    rw [Completes, check_package, hsignature, ok_bind, hhash, ok_bind, hfilter hindexed]
    dsimp only
    rw [hverify, ok_bind, harchive, ok_bind]
    refine ⟨_, rfl, ?_⟩
    rw [Verification.completed, decide_eq_true_eq, List.append_eq_nil_iff,
      List.append_eq_nil_iff, List.map_eq_nil_iff, package_failures_eq_nil,
      content_failures_eq_nil]
    exact ⟨⟨⟨hsigned, rfl, hlist, hindexed⟩, hfailed⟩, hcomplete, hinstalled⟩

/-! ## The recursion -/

theorem obj_of_entry_path {key path : String} (h : entry_path entry key = .ok path) :
    ∃ fields, entry = .obj fields := by
  cases entry with
  | obj fields => exact ⟨fields, rfl⟩
  | null | bool | int | float | str | arr => cases h

/-- A step of the recursion refuses a package on its own path, and otherwise checks the package and
goes on with its dependencies. -/
theorem verify_package_succ
    (h : Found store package index entry package_dir install_dir bundle receipt) :
    verify_package host keys require_signature store (fuel + 1) seen package =
      if package ∈ seen then .ok (.blocked package ("dependency cycle detected: " ++ package))
      else check_package host keys require_signature store index package package_dir install_dir
        entry bundle receipt (verify_package host keys require_signature store fuel (package :: seen)) := by
  obtain ⟨fields, rfl⟩ := obj_of_entry_path h.package_path
  rw [verify_package, h.read_index]
  dsimp only
  rw [h.get_entry]
  dsimp only
  rw [h.package_path, ok_bind, h.install_path, ok_bind, h.get_bundle]
  dsimp only
  rw [h.read_receipt]

theorem not_completed_blocked {reason : String} {verification : Verification}
    (h : (Except.ok (.blocked package reason) : Except PyError Verification) = .ok verification) :
    verification.completed = false := by
  obtain rfl := Except.ok.inj h
  rfl

/-- A verification that completes has found its package. -/
theorem found_of_completes
    (h : Completes (verify_package host keys require_signature store (fuel + 1) seen package)) :
    ∃ index entry package_dir install_dir bundle receipt,
      Found store package index entry package_dir install_dir bundle receipt := by
  obtain ⟨verification, hverify, hcompleted⟩ := h
  have hblocked {reason : String}
      (h : (Except.ok (.blocked package reason) : Except PyError Verification) = .ok verification) :
      False := by
    rw [not_completed_blocked h] at hcompleted
    cases hcompleted
  rw [verify_package] at hverify
  cases hindex : read_store_index store.index with
  | error e =>
    rw [hindex] at hverify
    cases e <;> first | exact (hblocked hverify).elim | cases hverify
  | ok index =>
    rw [hindex] at hverify
    dsimp only at hverify
    cases hentry : Dict.get index.packages package with
    | none =>
      rw [hentry] at hverify
      exact (hblocked hverify).elim
    | some entry =>
      rw [hentry] at hverify
      cases entry with
      | null => exact (hblocked hverify).elim
      | bool | int | float | str | arr => cases hverify
      | obj fields =>
        dsimp only at hverify
        obtain ⟨package_dir, hpackage, hrest⟩ := bind_eq_ok.mp hverify
        obtain ⟨install_dir, hinstall, hrest⟩ := bind_eq_ok.mp hrest
        split_ifs at hrest with hseen
        · exact (hblocked hrest).elim
        · cases hbundle : store.packages package_dir with
          | none =>
            rw [hbundle] at hrest
            exact (hblocked hrest).elim
          | some bundle =>
            rw [hbundle] at hrest
            dsimp only at hrest
            cases hreceipt : bundle_receipt bundle with
            | error e =>
              rw [hreceipt] at hrest
              cases e <;> first | exact (hblocked hrest).elim | cases hrest
            | ok receipt =>
              exact ⟨index, _, package_dir, install_dir, bundle, receipt, hindex, hentry, hpackage,
                hinstall, hbundle, hreceipt⟩

theorem completes_succ_iff
    (h : Found store package index entry package_dir install_dir bundle receipt) :
    Completes (verify_package host keys require_signature store (fuel + 1) seen package) ↔
      package ∉ seen ∧
        Intact host keys require_signature store entry install_dir bundle receipt ∧
        ∀ d ∈ receipt.dependencies, is_indexed index d = true ∧
          Completes (verify_package host keys require_signature store fuel (package :: seen) d) := by
  rw [verify_package_succ h]
  split_ifs with hseen
  · refine ⟨?_, fun hfresh => absurd hseen hfresh.1⟩
    rintro ⟨verification, hverify, hcompleted⟩
    rw [not_completed_blocked hverify] at hcompleted
    cases hcompleted
  · rw [check_package_completes_iff]
    exact (and_iff_right hseen).symm

theorem is_indexed_of_completes (hindex : read_store_index store.index = .ok index)
    (h : Completes (verify_package host keys require_signature store fuel seen package)) :
    is_indexed index package = true := by
  cases fuel with
  | zero =>
    obtain ⟨verification, hverify, -⟩ := h
    cases hverify
  | succ fuel =>
    obtain ⟨index', entry, _, _, _, _, hfound⟩ := found_of_completes h
    obtain rfl := Except.ok.inj (hindex.symm.trans hfound.read_index)
    rw [is_indexed, hfound.get_entry]
    rfl

/-- The recursion is a search that remembers its path. -/
theorem fuelled_completes : Fuelled (IntactPackage host keys require_signature store)
    (dependencies_of store)
    (fun fuel seen package =>
      Completes (verify_package host keys require_signature store fuel seen package)) where
  zero seen package := by
    rintro ⟨verification, hverify, -⟩
    cases hverify
  succ fuel seen package := by
    constructor
    · intro h
      obtain ⟨index, entry, package_dir, install_dir, bundle, receipt, hfound⟩ :=
        found_of_completes h
      obtain ⟨hfresh, hintact, hall⟩ := (completes_succ_iff hfound).mp h
      refine ⟨hfresh, ⟨_, _, _, _, _, _, hfound, hintact⟩, fun d hd => ?_⟩
      rw [hfound.dependencies_of] at hd
      exact (hall d hd).2
    · rintro ⟨hfresh, ⟨index, entry, package_dir, install_dir, bundle, receipt, hfound, hintact⟩,
        hall⟩
      refine (completes_succ_iff hfound).mpr ⟨hfresh, hintact, fun d hd => ?_⟩
      have hcompletes := hall d (hfound.dependencies_of.symm ▸ hd)
      exact ⟨is_indexed_of_completes hfound.read_index hcompletes, hcompletes⟩

/-! ## The whole verification -/

/-- The packages in the index. -/
def index_keys (store : Store) : List String :=
  match read_store_index store.index with
  | .ok index => index.packages.map Prod.fst
  | .error _ => []

theorem Dict.mem_keys_of_get {d : Dict} {key : String} {value : Json}
    (h : Dict.get d key = some value) : key ∈ d.map Prod.fst := by
  induction d with
  | nil => cases h
  | cons field rest ih =>
    obtain ⟨k, v⟩ := field
    rw [Dict.get_cons] at h
    split_ifs at h with hk
    · simp [hk]
    · simp [ih h]

theorem IntactPackage.mem_keys
    (h : IntactPackage host keys require_signature store package) :
    package ∈ index_keys store := by
  obtain ⟨index, entry, _, _, _, _, hfound, -⟩ := h
  rw [index_keys, hfound.read_index]
  exact Dict.mem_keys_of_get hfound.get_entry

theorem length_index_keys_lt : (index_keys store).length < index_size store := by
  rw [index_keys, index_size]
  cases read_store_index store.index with
  | error e => simp
  | ok index => simp

/-- The packages below a package, along the dependency lists of the receipts, are all intact, and no
cycle of dependencies is among them. -/
abbrev Sound (host : Host) (keys : Keys) (require_signature : Bool) (store : Store)
    (package : String) : Prop :=
  Clean (IntactPackage host keys require_signature store) (dependencies_of store) package

theorem completes_iff_sound :
    Completes (verify_installed_package host keys require_signature store package) ↔
      Sound host keys require_signature store package :=
  fuelled_completes.iff (fun _ h => h.mem_keys) length_index_keys_lt

/-! ## Termination -/

/-- The computation does not run out of recursion depth. -/
def Settles {α : Type} (result : Except PyError α) : Prop := result ≠ .error .RecursionError

theorem settles_ok {α : Type} {a : α} : Settles (.ok a : Except PyError α) := nofun

theorem settles_bind {α β : Type} {x : Except PyError α} {f : α → Except PyError β}
    (hx : Settles x) (hf : ∀ a, x = .ok a → Settles (f a)) : Settles (x >>= f) :=
  bind_ne_error hx hf

theorem settles_as_dict (v : Json) : Settles (as_dict v) := by
  cases v <;> exact nofun

theorem settles_read_store_index (content : Content) : Settles (read_store_index content) := by
  cases content with
  | undecodable | unparsable => exact nofun
  | value v =>
    refine settles_bind (settles_as_dict v) fun fields _ => ?_
    split_ifs
    · exact nofun
    · split <;> exact nofun

theorem settles_read_receipt (content : Option Content) : Settles (read_receipt content) := by
  unfold read_receipt
  split
  · exact nofun
  · exact nofun
  · exact nofun
  · refine settles_bind (settles_as_dict _) fun fields _ => ?_
    split_ifs
    · exact nofun
    · split <;> exact nofun

theorem settles_entry_path (entry : Json) (key : String) : Settles (entry_path entry key) := by
  cases entry with
  | null | bool | int | float | str | arr => exact nofun
  | obj fields =>
    refine settles_bind ?_ fun v _ => ?_
    · unfold Dict.item
      split <;> exact nofun
    · cases v <;> exact nofun

theorem settles_verify_with (obj signature : Dict) (trusted : List Bytes) :
    Settles (verify_with keys obj signature trusted) := by
  induction trusted with
  | nil => exact settles_ok
  | cons public_bytes rest ih =>
    rw [verify_with]
    split_ifs
    · exact ih
    · split
      · exact ih
      · split_ifs
        · exact settles_ok
        · exact ih
      · exact fun h => by cases h

theorem settles_verify_signature (fields : Dict) :
    Settles (verify_signature keys require_signature fields) := by
  unfold verify_signature
  split
  · exact nofun
  · exact nofun
  · refine settles_bind ?_ fun verified _ => ?_
    · unfold verify_object_signature
      split
      · split_ifs
        · exact nofun
        · exact settles_verify_with _ _ _
      · exact nofun
    · exact settles_bind (settles_as_dict _) fun _ _ => settles_ok

theorem settles_hash_stream (files : List (Path × File)) : Settles (hash_stream files) := by
  induction files with
  | nil => exact nofun
  | cons f files ih =>
    refine settles_bind ?_ fun data _ => settles_bind ih fun stream _ => settles_ok
    unfold hashed_data
    split_ifs
    · split
      · exact nofun
      · split_ifs <;> exact nofun
      · exact nofun
    · exact nofun

theorem settles_verify_directory_archive (archive : Tree File) :
    Settles (verify_directory_archive host archive) := by
  have hread : Settles (read_archive_manifest archive) := by
    unfold read_archive_manifest
    split
    · exact nofun
    · exact nofun
    · exact nofun
    · split
      · exact nofun
      · split_ifs <;> exact nofun
  unfold verify_directory_archive
  split
  · exact nofun
  · next e _ he => exact fun h => hread (he.trans (congrArg _ (Except.error.inj h)))
  · exact nofun

theorem settles_mapM {verify : String → Except PyError Verification} {l : List String}
    (h : ∀ d ∈ l, Settles (verify d)) : Settles (l.mapM verify) := by
  induction l with
  | nil => exact nofun
  | cons d l ih =>
    rw [List.mapM_cons]
    exact settles_bind (h d List.mem_cons_self) fun v _ =>
      settles_bind (ih fun d hd => h d (List.mem_cons_of_mem _ hd)) fun vs _ => settles_ok

theorem settles_check_package {verify : String → Except PyError Verification}
    (h : ∀ d, Settles (verify d)) :
    Settles (check_package host keys require_signature store index package package_dir install_dir
      entry bundle receipt verify) :=
  settles_bind (settles_verify_signature _) fun _ _ =>
    settles_bind (settles_bind (settles_hash_stream _) fun _ _ => settles_ok) fun _ _ =>
      settles_bind (settles_mapM fun d _ => h d) fun _ _ =>
        settles_bind (settles_verify_directory_archive _) fun _ _ => settles_ok

theorem settles_verify_package (hfuel : unseen (index_keys store) seen < fuel) :
    Settles (verify_package host keys require_signature store fuel seen package) := by
  induction fuel generalizing seen package with
  | zero => exact absurd hfuel (Nat.not_lt_zero _)
  | succ fuel ih =>
    rw [verify_package]
    cases hindex : read_store_index store.index with
    | error e =>
      have hsettles : Settles (read_store_index store.index) := settles_read_store_index _
      rw [hindex] at hsettles
      cases e with
      | RecursionError => exact absurd rfl hsettles
      | _ => exact nofun
    | ok index =>
      dsimp only
      split
      · exact nofun
      · exact nofun
      · next entry _ hentry =>
        refine settles_bind (settles_entry_path _ _) fun package_dir _ =>
          settles_bind (settles_entry_path _ _) fun install_dir _ => ?_
        split_ifs with hseen
        · exact nofun
        · split
          · exact nofun
          · next bundle _ =>
            have hreceipt : Settles (bundle_receipt bundle) := settles_read_receipt _
            split
            · exact nofun
            · next e _ he => exact fun h => hreceipt (he.trans (congrArg _ (Except.error.inj h)))
            · refine settles_check_package fun d => ih ?_
              -- the package is in the index and new on the path, so fewer packages are left
              have hkey : package ∈ index_keys store := by
                rw [index_keys, hindex]
                exact Dict.mem_keys_of_get hentry
              have := unseen_cons_lt hkey hseen
              omega

/-- The verification of a package ends for every store, and completes exactly when every package
below it is intact and no dependency cycle is below it. -/
theorem verify_installed_package_completed_iff (host : Host) (keys : Keys)
    (require_signature : Bool) (store : Store) (package : String) :
    Settles (verify_installed_package host keys require_signature store package) ∧
      (Completes (verify_installed_package host keys require_signature store package) ↔
        Sound host keys require_signature store package) := by
  refine ⟨settles_verify_package ?_, completes_iff_sound⟩
  rw [unseen_nil]
  exact length_index_keys_lt

end Verify

end Bogbin.Bogvm
