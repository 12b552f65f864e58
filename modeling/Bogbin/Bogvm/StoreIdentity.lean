import Bogbin.Bogvm.StoreInstall

/-!
# Names, versions and keys

A package is kept under the key of its name and version, and two names and versions can have the
same key: then installing the second package replaces the first (`unchanged_iff`).  The verification
of a key does not look at the name and the version in the receipt that it checks, so another intact
bundle with the same archive and dependencies is not noticed (`substitute_completes_iff`).
-/

namespace Bogbin.Bogvm

section Identity

variable {host : Host} {keys : Keys} {require_signature : Bool} {bundle : Tree File}
  {store store' : Store} {r : InstallReceipt} {receipt : PackageReceipt} {name version key k : String}

/-- The index entry of a key. -/
def entry_of (store : Store) (key : String) : Option Json :=
  (read_store_index store.index).toOption.bind fun index => Dict.get index.packages key

/-- The index has an entry of this name and version under their key. -/
structure Entered (store : Store) (name version key : String) : Prop where
  package_key : package_key name version = .ok key
  entry : ∃ entry, entry_of store key = some (.obj entry) ∧ Dict.get entry "name" = some (.str name) ∧
    Dict.get entry "version" = some (.str version)

/-- The index entry and the two directories of a key are the same in both stores. -/
structure Unchanged (store store' : Store) (key : String) : Prop where
  entry : entry_of store' key = entry_of store key
  package : store'.packages (package_dir store key) = store.packages (package_dir store key)
  installed : store'.installed (install_dir store key) = store.installed (install_dir store key)

theorem entry_of_eq {index : StoreIndex} (h : read_store_index store.index = .ok index) :
    entry_of store key = Dict.get index.packages key := by
  rw [entry_of, h]
  rfl

theorem get_index_entry_name {signature : SignatureVerification} :
    Dict.get (index_entry store key receipt signature) "name" = some (.str receipt.name) ∧
      Dict.get (index_entry store key receipt signature) "version" = some (.str receipt.version) := by
  constructor <;> simp [index_entry, Dict.of, Dict.get_set]

/-- What an installation does to the entries. -/
theorem entry_of_install {index : StoreIndex} {signature : SignatureVerification} {root : Tree Bytes}
    (h : Installation host keys require_signature bundle store store' index receipt signature key root) :
    entry_of store' k = if key = k then some (.obj (index_entry store key receipt signature))
      else entry_of store k := by
  obtain ⟨fields, hafter⟩ := h.read_index
  rw [entry_of_eq hafter, entry_of_eq h.consistent.read_index, Dict.get_set]

/-- An installed package is entered under the key of its name and version. -/
theorem entered_of_install (h : install_bundle host keys require_signature bundle store = .ok r store')
    (hreceipt : bundle_receipt bundle = .ok receipt) :
    Entered store' receipt.name receipt.version r.package := by
  obtain ⟨index, receipt', signature, root, hinstall⟩ := installation_of_ok h
  obtain ⟨hconsistent, -, hkey⟩ := check_bundle_eq_ok.mp hinstall.checked
  obtain rfl := Except.ok.inj (hreceipt.symm.trans hconsistent.read_receipt)
  exact ⟨hkey, _, (entry_of_install hinstall).trans (if_pos rfl), get_index_entry_name⟩

/-- An installation leaves another package alone exactly when the keys differ. -/
theorem unchanged_iff (h : install_bundle host keys require_signature bundle store = .ok r store')
    (hreceipt : bundle_receipt bundle = .ok receipt) (hentered : Entered store name version key)
    (hne : (name, version) ≠ (receipt.name, receipt.version)) :
    Unchanged store store' key ↔ package_key receipt.name receipt.version ≠ .ok key := by
  obtain ⟨index, receipt', signature, root, hinstall⟩ := installation_of_ok h
  obtain ⟨hconsistent, -, hkey⟩ := check_bundle_eq_ok.mp hinstall.checked
  obtain rfl := Except.ok.inj (hreceipt.symm.trans hconsistent.read_receipt)
  rw [hkey, Ne, Except.ok.injEq]
  constructor
  · rintro hunchanged rfl
    -- the entry has the new name and version
    obtain ⟨entry, hentry, hname, hversion⟩ := hentered.entry
    have hnew := hunchanged.entry
    rw [entry_of_install hinstall, if_pos rfl, hentry] at hnew
    obtain rfl := Json.obj.inj (Option.some.inj hnew)
    rw [get_index_entry_name.1] at hname
    rw [get_index_entry_name.2] at hversion
    exact hne (by rw [Json.str.inj (Option.some.inj hname), Json.str.inj (Option.some.inj hversion)])
  · intro hother
    refine ⟨(entry_of_install hinstall).trans (if_neg hother), ?_, ?_⟩
    · rw [hinstall.store_eq]
      exact Function.update_of_ne (fun heq => hother (package_dir_inj heq).symm) _ _
    · rw [hinstall.store_eq]
      exact Function.update_of_ne (fun heq => hother (install_dir_inj heq).symm) _ _

/-! ## Substituted bundles -/

/-- The receipt that is stored for a key has a name and a version of this key. -/
def Named (store : Store) (key : String) : Prop :=
  ∃ receipt, stored_receipt store key = some receipt ∧
    package_key receipt.name receipt.version = .ok key

/-- Another bundle in the place of the one that is stored for a key. -/
def substitute (store : Store) (key : String) (bundle : Tree File) : Store :=
  { store with packages := Function.update store.packages (package_dir store key) (some bundle) }

section Substitute

variable {index : StoreIndex} {entry : Json} {package_dir' install_dir' : String} {old : Tree File}
  {receipt' : PackageReceipt}

theorem found_substitute_self (htidy : Tidy store)
    (hfound : Found store key index entry package_dir' install_dir' old receipt)
    (hbundle : bundle_receipt bundle = .ok receipt') :
    Found (substitute store key bundle) key index entry package_dir' install_dir' bundle receipt' := by
  obtain rfl := Except.ok.inj
    (hfound.package_path.symm.trans (htidy _ _ _ hfound.read_index hfound.get_entry).1)
  exact ⟨hfound.read_index, hfound.get_entry, hfound.package_path, hfound.install_path,
    Function.update_self _ _ _, hbundle⟩

theorem found_substitute_of_ne (htidy : Tidy store) (hk : k ≠ key) :
    Found (substitute store key bundle) k index entry package_dir' install_dir' old receipt ↔
      Found store k index entry package_dir' install_dir' old receipt := by
  have hpackages (hread : read_store_index store.index = .ok index)
      (hget : Dict.get index.packages k = some entry)
      (hpath : entry_path entry "package_dir" = .ok package_dir') :
      (substitute store key bundle).packages package_dir' = store.packages package_dir' := by
    obtain rfl := Except.ok.inj (hpath.symm.trans (htidy _ _ _ hread hget).1)
    exact Function.update_of_ne (fun heq => hk (package_dir_inj heq)) _ _
  constructor
  · rintro ⟨hread, hget, hpackage, hinstall, hbundle, hreceipt⟩
    exact ⟨hread, hget, hpackage, hinstall, (hpackages hread hget hpackage) ▸ hbundle, hreceipt⟩
  · rintro ⟨hread, hget, hpackage, hinstall, hbundle, hreceipt⟩
    exact ⟨hread, hget, hpackage, hinstall, (hpackages hread hget hpackage).trans hbundle, hreceipt⟩

theorem tidy_substitute (htidy : Tidy store) : Tidy (substitute store key bundle) := htidy

theorem dependencies_of_substitute (htidy : Tidy store)
    (hfound : Found store key index entry package_dir' install_dir' old receipt)
    (hbundle : bundle_receipt bundle = .ok receipt')
    (hdependencies : receipt'.dependencies = receipt.dependencies) :
    dependencies_of (substitute store key bundle) = dependencies_of store := by
  funext k
  by_cases hk : k = key
  · subst hk
    rw [(found_substitute_self htidy hfound hbundle).dependencies_of, hdependencies,
      hfound.dependencies_of]
  · have hsame : stored_receipt (substitute store key bundle) k = stored_receipt store k := by
      refine Option.ext fun r => ?_
      rw [stored_receipt_eq_some (tidy_substitute htidy), stored_receipt_eq_some htidy]
      simp only [found_substitute_of_ne htidy hk]
    rw [dependencies_of, dependencies_of, hsame]

/-- Another intact bundle in the place of a sound package goes unnoticed exactly when it has the same
archive and the same dependencies. -/
theorem substitute_completes_iff (htidy : Tidy store)
    (hsound : Sound host keys require_signature store key)
    (hfound : Found store key index entry package_dir' install_dir' old receipt)
    (hbundle : IntactBundle host keys require_signature bundle receipt') :
    Completes (verify_installed_package host keys require_signature
        (substitute store key bundle) key) ↔
      receipt'.archive_tree_sha256 = receipt.archive_tree_sha256 ∧
        receipt'.dependencies = receipt.dependencies := by
  have hself := found_substitute_self htidy hfound hbundle.read_receipt
  obtain ⟨_, _, _, _, _, _, hfound', hintact⟩ := hsound.sound key .refl
  obtain ⟨rfl, rfl, rfl, rfl, rfl⟩ := hfound.unique hfound'
  rw [completes_iff_sound]
  constructor
  · intro h
    obtain ⟨_, _, _, _, _, _, hfound'', hintact'⟩ := h.sound key .refl
    obtain ⟨rfl, rfl, rfl, rfl, rfl⟩ := hself.unique hfound''
    refine ⟨Option.some.inj (hintact'.installed.symm.trans hintact.installed), ?_⟩
    have hlists := Json.arr.inj (hintact'.dependencies.symm.trans hintact.dependencies)
    exact List.map_injective_iff.mpr (fun _ _ => Json.str.inj) hlists
  · rintro ⟨harchive, hdependencies⟩
    have hedges := dependencies_of_substitute htidy hfound hbundle.read_receipt hdependencies
    obtain ⟨manifest, hmanifest, -, hrestorable⟩ := hbundle.read_archive
    refine ⟨fun k hk => ?_, fun k hk => ?_⟩
    · by_cases hkk : k = key
      · subst hkk
        refine ⟨_, _, _, _, _, _, hself, hbundle.signed, hbundle.bundle_hash, ?_, ?_, ?_⟩
        · rw [hdependencies]
          exact hintact.dependencies
        · exact verifyCompleted_iff.mpr ⟨manifest, hmanifest, hrestorable.extractable.verified⟩
        · rw [harchive]
          exact hintact.installed
      · rw [hedges] at hk
        obtain ⟨i, e, pd, id, b, r, hother, hintact'⟩ := hsound.sound k hk
        exact ⟨i, e, pd, id, b, r, (found_substitute_of_ne htidy hkk).mpr hother,
          ⟨hintact'.signature, hintact'.bundle_hash, hintact'.dependencies, hintact'.archive,
            hintact'.installed⟩⟩
    · rw [hedges] at hk ⊢
      exact hsound.acyclic k hk

end Substitute

/-- In a run without tampering every stored receipt names its key. -/
theorem Run.named {installs : List Install} (h : Run host keys require_signature installs store)
    (hk : is_listed store k) : Named store k := by
  induction h with
  | start hindex =>
    obtain ⟨index, hread, hindexed⟩ := hk
    obtain rfl := Except.ok.inj (hindex.symm.trans hread)
    cases hindexed
  | @install installs i r hrun hbundle hinstall hkey ih =>
    obtain ⟨index, signature, root, h⟩ := Run.installation hbundle hinstall hkey
    by_cases hkk : k = i.key
    · obtain ⟨_, hfound⟩ := h.found
      rw [hkk]
      exact ⟨i.receipt, hfound.stored_receipt, (check_bundle_eq_ok.mp h.checked).2.2⟩
    · obtain ⟨receipt, hreceipt, hname⟩ := ih (((is_listed_after_install h).mp hk).resolve_left hkk)
      exact ⟨receipt, (stored_receipt_after_install hrun.tidy h hkk).trans hreceipt, hname⟩

end Identity

/-! ## Two packages with one key -/

/-- The package "c" of "a-b" is installed in a new store. -/
theorem install_a_b : ∃ store index receipt, read_store_index store.index = .ok index ∧
    Tidy store ∧ Closed plain_host plain_keys true store ∧ Entered store "a-b" "c" "a-b-c" ∧
    is_listed store "a-b-c" ∧ stored_receipt store "a-b-c" = some receipt ∧
    receipt.dependencies = sorted_set [] ∧ receipt.archive_tree_sha256 = tree_hash [] := by
  obtain ⟨fields, hindex⟩ := read_new_store
  obtain ⟨bundle, receipt, r, store, hbundle, ⟨hname, hversion, hdependencies, harchive⟩, hok, hkey⟩ :=
    @install_packaged _ _ "a-b" "c" "a-b-c" [] hindex
      (allComplete_iff_closed.mpr (closed_of_empty hindex)) nofun
      (packageable_empty (by decide) (by decide) (by simp)) rfl
  have hentered := entered_of_install hok hbundle.read_receipt
  rw [hname, hversion, hkey] at hentered
  let i : Install := ⟨new_store, bundle, receipt, "a-b-c", store⟩
  obtain ⟨index, signature, root, h⟩ := @Run.installation plain_host plain_keys true i r hbundle hok hkey
  have htidy := tidy_of_empty hindex
  have hclosed : Closed plain_host plain_keys true store :=
    (closed_of_empty hindex).install htidy h hbundle (by
      intro d hd
      rw [hdependencies] at hd
      exact absurd hd (by simp [sorted_set]))
  obtain ⟨_, hindex'⟩ := h.read_index
  obtain ⟨_, hfound⟩ := h.found
  exact ⟨store, _, receipt, hindex', htidy.install h, hclosed, hentered,
    (is_listed_after_install h).mpr (.inl rfl), hfound.stored_receipt, hdependencies, harchive⟩

/-- The package "b-c" of "a" is installed after it. -/
theorem install_same_key : ∃ bundle receipt store store' r, bundle_receipt bundle = .ok receipt ∧
    receipt.name = "a" ∧ receipt.version = "b-c" ∧
    install_bundle plain_host plain_keys true bundle store = .ok r store' ∧
    Entered store "a-b" "c" "a-b-c" := by
  obtain ⟨store, index, -, hindex, -, hclosed, hentered, -⟩ := install_a_b
  obtain ⟨bundle, receipt, r, store', hbundle, ⟨hname, hversion, -, -⟩, hok, -⟩ :=
    @install_packaged _ _ "a" "b-c" "a-b-c" [] hindex (allComplete_iff_closed.mpr hclosed) nofun
      (packageable_empty (by decide) (by decide) (by simp)) rfl
  exact ⟨bundle, receipt, store, store', r, hbundle.read_receipt, hname, hversion, hok, hentered⟩

/-- A bundle of another name takes the place of a stored one and is not noticed. -/
theorem completes_not_named : ∃ store,
    Completes (verify_installed_package plain_host plain_keys true store "a-b-c") ∧
      ¬Named store "a-b-c" := by
  obtain ⟨store, index, receipt, -, htidy, hclosed, -, hlisted, hstored, hdependencies, harchive⟩ :=
    install_a_b
  obtain ⟨bundle, receipt', -, hbundle, ⟨hname, hversion, hdependencies', harchive'⟩⟩ :=
    package_directory_intact plain_keys_lawful
      (@packageable_empty "a" "1" [] (by decide) (by decide) (by simp)) true true (fun _ => rfl)
  obtain ⟨_, _, _, _, _, hfound⟩ := (stored_receipt_eq_some htidy).mp hstored
  refine ⟨substitute store "a-b-c" bundle,
    (substitute_completes_iff htidy (hclosed _ hlisted) hfound hbundle).mpr
      ⟨harchive'.trans harchive.symm, hdependencies'.trans hdependencies.symm⟩, ?_⟩
  rintro ⟨r, hr, hkey⟩
  rw [(found_substitute_self htidy hfound hbundle.read_receipt).stored_receipt] at hr
  obtain rfl := Option.some.inj hr
  rw [hname, hversion] at hkey
  exact absurd hkey (by decide)

end Bogbin.Bogvm
