import Bogbin.Bogvm.StorePackage

/-!
# Installing a bundle

What a successful `install_bundle` changes (`installation_of_ok`): the index entry and the two
directories of the bundle's key, and nothing else.  A store that was filled by installations keeps
every package verified as long as no bundle comes with a dependency that leads back to its own key
(`installs_closed_iff`).
-/

namespace Bogbin.Bogvm

open StateExcept PathSearch Relation

/-! ## Success and failure -/

/-- The store after an installation. -/
def after_install (store : Store) (index : StoreIndex) (receipt : PackageReceipt)
    (signature : SignatureVerification) (key : String) (bundle : Tree File) (root : Tree Bytes) :
    Store where
  root := store.root
  index := index.with_entry key (index_entry store key receipt signature)
  packages := Function.update store.packages (package_dir store key) (some bundle)
  installed := Function.update store.installed (install_dir store key) (some root)

/-- A successful installation. -/
structure Installation (host : Host) (keys : Keys) (require_signature : Bool) (bundle : Tree File)
    (store store' : Store) (index : StoreIndex) (receipt : PackageReceipt)
    (signature : SignatureVerification) (key : String) (root : Tree Bytes) : Prop where
  checked : check_bundle host keys require_signature store bundle =
    .ok (index, receipt, signature, key)
  admitted : host.admits key.toList = true
  restored : ∃ hash strayed, restore_directory_archive host (bundle.sub "archive")
    ⟨(store.installed (install_dir store key)).getD .empty, []⟩ = .ok hash ⟨root, strayed⟩
  store_eq : store' = after_install store index receipt signature key bundle root

section Results

variable {host : Host} {keys : Keys} {require_signature : Bool} {bundle : Tree File}
  {store store' : Store} {r : InstallReceipt} {index : StoreIndex} {receipt : PackageReceipt}
  {signature : SignatureVerification} {key : String} {e : PyError}

theorem replace_package_of_admits (h : host.admits key.toList = true) :
    replace_package host key bundle store = .ok ⟨⟩ { store with
      packages := Function.update store.packages (package_dir store key) (some bundle) } := by
  rw [replace_package, if_neg (by simp [h])]
  rfl

theorem replace_package_of_not_admits (h : host.admits key.toList = false) :
    replace_package host key bundle store = .error .OSError store := by
  rw [replace_package, if_pos (by simp [h])]
  rfl

theorem restore_installed_of_ok {archive : Tree File} {hash : String} {output : Output}
    (h : restore_directory_archive host archive
      ⟨(store.installed (install_dir store key)).getD .empty, []⟩ = .ok hash output) :
    restore_installed host archive key store = .ok hash { store with
      installed := Function.update store.installed (install_dir store key) (some output.tree) } := by
  simp only [restore_installed, h]

/-- What comes after the checks. -/
theorem install_of_check (h : check_bundle host keys require_signature store bundle =
      .ok (index, receipt, signature, key)) :
    install_bundle host keys require_signature bundle store =
      (do
        replace_package host key bundle
        let hash ← restore_installed host (bundle.sub "archive") key
        modify fun store =>
          { store with index := index.with_entry key (index_entry store key receipt signature) }
        return ⟨key, package_dir store key, install_dir store key, receipt.bundle_sha256, hash,
          receipt, signature⟩ : EStateM PyError Store InstallReceipt) store := by
  rw [install_bundle, bind_of_ok get_apply, h]
  rfl

theorem install_of_check_error
    (h : check_bundle host keys require_signature store bundle = .error e) :
    install_bundle host keys require_signature bundle store = .error e store := by
  rw [install_bundle, bind_of_ok get_apply, h]
  rfl

theorem installation_of_ok
    (h : install_bundle host keys require_signature bundle store = .ok r store') :
    ∃ index receipt signature root, Installation host keys require_signature bundle store store'
      index receipt signature r.package root := by
  cases hcheck : check_bundle host keys require_signature store bundle with
  | error e =>
    rw [install_of_check_error hcheck] at h
    cases h
  | ok checked =>
    obtain ⟨index, receipt, signature, key⟩ := checked
    rw [install_of_check hcheck] at h
    cases hadmits : host.admits key.toList with
    | false =>
      rw [bind_of_error (replace_package_of_not_admits hadmits)] at h
      cases h
    | true =>
      rw [bind_of_ok (replace_package_of_admits hadmits)] at h
      obtain ⟨hash, middle, hrestore, hrest⟩ := StateExcept.bind_eq_ok.mp h
      rw [bind_of_ok (modify_apply _)] at hrest
      obtain ⟨rfl, rfl⟩ := EStateM.Result.ok.inj hrest
      rw [restore_installed] at hrestore
      dsimp only at hrestore
      split at hrestore
      · next hash' output houtput =>
        obtain ⟨rfl, rfl⟩ := EStateM.Result.ok.inj hrestore
        exact ⟨index, receipt, signature, output.tree, hcheck, hadmits,
          ⟨hash', output.strayed, houtput⟩, rfl⟩
      · cases hrestore

/-- The bundle and the index as the checks before the dependencies want them. -/
structure Consistent (keys : Keys) (require_signature : Bool) (store : Store) (bundle : Tree File)
    (index : StoreIndex) (receipt : PackageReceipt) (signature : SignatureVerification) : Prop where
  read_index : read_store_index store.index = .ok index
  read_receipt : bundle_receipt bundle = .ok receipt
  read_archive : ∃ manifest, read_archive_manifest (bundle.sub "archive") = .ok manifest ∧
    manifest.tree_sha256 = receipt.archive_tree_sha256
  hash : directory_hash bundle = .ok receipt.bundle_sha256
  verify_signature : verify_signature keys require_signature receipt.fields = .ok signature
  signed : signature.failures = []
  indexed : ∀ d ∈ receipt.dependencies, is_indexed index d = true

theorem check_bundle_eq_ok :
    check_bundle host keys require_signature store bundle = .ok (index, receipt, signature, key) ↔
      Consistent keys require_signature store bundle index receipt signature ∧
        verify_dependencies host keys require_signature store receipt.dependencies = .ok () ∧
        package_key receipt.name receipt.version = .ok key := by
  rw [check_bundle]
  constructor
  · intro h
    obtain ⟨index', hindex, h₁⟩ := bind_eq_ok.mp h
    obtain ⟨receipt', hreceipt, h₂⟩ := bind_eq_ok.mp h₁
    obtain ⟨manifest, hmanifest, h₃⟩ := bind_eq_ok.mp h₂
    obtain ⟨htree, h₄⟩ := ite_error_eq_ok.mp h₃
    obtain ⟨actual, hhash, h₅⟩ := bind_eq_ok.mp h₄
    obtain ⟨hsame, h₆⟩ := ite_error_eq_ok.mp h₅
    obtain ⟨signature', hsignature, h₇⟩ := bind_eq_ok.mp h₆
    obtain ⟨hsigned, h₈⟩ := ite_error_eq_ok.mp h₇
    obtain ⟨hindexed, h₉⟩ := ite_error_eq_ok.mp h₈
    obtain ⟨⟨⟩, hverify, h₁₀⟩ := bind_eq_ok.mp h₉
    obtain ⟨key', hkey, h₁₁⟩ := bind_eq_ok.mp h₁₀
    obtain ⟨rfl, rfl, rfl, rfl⟩ : index' = index ∧ receipt' = receipt ∧ signature' = signature ∧
        key' = key := by simpa using h₁₁
    rw [not_not] at htree hsame hsigned
    refine ⟨⟨hindex, hreceipt, ⟨manifest, hmanifest, htree⟩, hsame ▸ hhash, hsignature, hsigned,
      ?_⟩, hverify, hkey⟩
    simpa using hindexed
  · rintro ⟨⟨hindex, hreceipt, ⟨manifest, hmanifest, htree⟩, hhash, hsignature, hsigned, hindexed⟩,
      hverify, hkey⟩
    have hall : ¬((!receipt.dependencies.all (is_indexed index)) = true) := by
      simpa using hindexed
    rw [hindex, ok_bind, hreceipt, ok_bind, hmanifest, ok_bind, if_neg (not_not.mpr htree), hhash,
      ok_bind, if_neg (not_not.mpr rfl), hsignature, ok_bind, if_neg (not_not.mpr hsigned),
      if_neg hall, hverify, ok_bind, hkey, ok_bind]

theorem verify_dependencies_eq_ok {l : List String} :
    verify_dependencies host keys require_signature store l = .ok () ↔
      ∀ d ∈ l, Completes (verify_installed_package host keys require_signature store d) := by
  induction l with
  | nil => simp [verify_dependencies]
  | cons d l ih =>
    rw [verify_dependencies, List.forall_mem_cons, ← ih, bind_eq_ok, Completes]
    constructor
    · rintro ⟨v, hv, h⟩
      split_ifs at h with hc
      exact ⟨⟨v, hv, by simpa using hc⟩, h⟩
    · rintro ⟨⟨v, hv, hc⟩, h⟩
      exact ⟨v, hv, by rw [if_neg (by simp [hc]), h]⟩

end Results

/-! ## What an installation changes -/

section Frame

variable {host : Host} {keys : Keys} {require_signature : Bool} {bundle : Tree File}
  {store store' : Store} {index : StoreIndex} {receipt : PackageReceipt}
  {signature : SignatureVerification} {key k : String} {root : Tree Bytes}

theorem append_left_cancel {a b c : String} (h : a ++ b = a ++ c) : b = c := by
  have hlist := congrArg String.toList h
  rw [String.toList_append, String.toList_append] at hlist
  exact String.toList_inj.mp (List.append_cancel_left hlist)

theorem package_dir_inj (h : package_dir store k = package_dir store key) : k = key :=
  append_left_cancel h

theorem install_dir_inj (h : install_dir store k = install_dir store key) : k = key :=
  append_left_cancel h

theorem read_with_entry {entry : Dict} {content : Content}
    (h : read_store_index content = .ok index) :
    read_store_index (index.with_entry key entry) =
      .ok ⟨Dict.set index.fields "packages" (.obj (Dict.set index.packages key (.obj entry))),
        Dict.set index.packages key (.obj entry)⟩ := by
  cases content with
  | undecodable | unparsable => cases h
  | value v =>
    obtain ⟨fields, -, h⟩ := bind_eq_ok.mp h
    split_ifs at h with hformat
    split at h
    · next packages _ =>
      obtain rfl := Except.ok.inj h
      rw [StoreIndex.with_entry, read_store_index]
      dsimp only [as_dict]
      rw [ok_bind, if_neg, Dict.get_set_self]
      rwa [Dict.get_set_of_ne (by decide)]
    · cases h

/-- The packages in the index of the store. -/
def is_listed (store : Store) (k : String) : Prop :=
  ∃ index, read_store_index store.index = .ok index ∧ is_indexed index k = true

/-- Every entry of the index names the directories of its key. -/
def Tidy (store : Store) : Prop :=
  ∀ index k entry, read_store_index store.index = .ok index → Dict.get index.packages k = some entry →
    entry_path entry "package_dir" = .ok (package_dir store k) ∧
      entry_path entry "install_dir" = .ok (install_dir store k)

theorem Installation.consistent
    (h : Installation host keys require_signature bundle store store' index receipt signature key root) :
    Consistent keys require_signature store bundle index receipt signature :=
  (check_bundle_eq_ok.mp h.checked).1

/-- The index after an installation. -/
theorem Installation.read_index
    (h : Installation host keys require_signature bundle store store' index receipt signature key root) :
    ∃ fields, read_store_index store'.index =
      .ok ⟨fields, Dict.set index.packages key (.obj (index_entry store key receipt signature))⟩ := by
  rw [h.store_eq]
  exact ⟨_, read_with_entry h.consistent.read_index⟩

theorem get_index_entry : entry_path (.obj (index_entry store key receipt signature)) "package_dir" =
      .ok (package_dir store key) ∧
    entry_path (.obj (index_entry store key receipt signature)) "install_dir" =
      .ok (install_dir store key) ∧
    entry_dependencies (.obj (index_entry store key receipt signature)) =
      .arr (receipt.dependencies.map .str) := by
  refine ⟨?_, ?_, ?_⟩ <;>
    simp [entry_path, entry_dependencies, Dict.item, index_entry, Dict.of, Dict.get_set]

theorem Tidy.install (htidy : Tidy store)
    (h : Installation host keys require_signature bundle store store' index receipt signature key root) :
    Tidy store' := by
  intro index' k entry hread hget
  obtain ⟨fields, hafter⟩ := h.read_index
  obtain rfl := Except.ok.inj (hafter.symm.trans hread)
  rw [h.store_eq]
  rw [Dict.get_set] at hget
  split_ifs at hget with hk
  · obtain rfl := Option.some.inj hget
    subst hk
    exact ⟨get_index_entry.1, get_index_entry.2.1⟩
  · exact htidy index k entry h.consistent.read_index hget

/-- Other packages are found as before. -/
theorem found_after_install (htidy : Tidy store)
    (h : Installation host keys require_signature bundle store store' index receipt signature key root)
    (hk : k ≠ key) {entry : Json} {package_dir' install_dir' : String} {bundle' : Tree File}
    {receipt' : PackageReceipt} :
    (∃ i, Found store' k i entry package_dir' install_dir' bundle' receipt') ↔
      ∃ i, Found store k i entry package_dir' install_dir' bundle' receipt' := by
  have hindex := h.consistent.read_index
  obtain ⟨fields, hafter⟩ := h.read_index
  have hpackages {dir : String} (hdir : dir = package_dir store k) :
      store'.packages dir = store.packages dir := by
    subst hdir
    rw [h.store_eq]
    exact Function.update_of_ne (fun heq => hk (package_dir_inj heq)) _ _
  constructor
  · rintro ⟨i, hread, hget, hpackage, hinstall, hbundle, hreceipt⟩
    obtain rfl := Except.ok.inj (hafter.symm.trans hread)
    rw [Dict.get_set_of_ne (Ne.symm hk)] at hget
    have hdir := Except.ok.inj (hpackage.symm.trans (htidy index k entry hindex hget).1)
    rw [hpackages hdir] at hbundle
    exact ⟨index, hindex, hget, hpackage, hinstall, hbundle, hreceipt⟩
  · rintro ⟨i, hread, hget, hpackage, hinstall, hbundle, hreceipt⟩
    obtain rfl := Except.ok.inj (hindex.symm.trans hread)
    have hdir := Except.ok.inj (hpackage.symm.trans (htidy index k entry hindex hget).1)
    exact ⟨_, hafter, (Dict.get_set_of_ne (Ne.symm hk)).trans hget, hpackage, hinstall,
      (hpackages hdir).trans hbundle, hreceipt⟩

theorem stored_receipt_eq_some {r : PackageReceipt} (htidy : Tidy store) :
    stored_receipt store k = some r ↔
      ∃ i entry pd id b, Found store k i entry pd id b r := by
  constructor
  · intro h
    simp only [stored_receipt, Option.bind_eq_bind, Option.bind_eq_some_iff, toOption_eq_some] at h
    obtain ⟨i, hindex, entry, hget, pd, hpackage, b, hbundle, hreceipt⟩ := h
    have hdirs := htidy i k entry hindex hget
    exact ⟨i, entry, pd, _, b, hindex, hget, hpackage, hdirs.2, hbundle, hreceipt⟩
  · rintro ⟨i, entry, pd, id, b, hfound⟩
    exact hfound.stored_receipt

theorem stored_receipt_after_install (htidy : Tidy store)
    (h : Installation host keys require_signature bundle store store' index receipt signature key root)
    (hk : k ≠ key) : stored_receipt store' k = stored_receipt store k := by
  refine Option.ext fun r => ?_
  rw [stored_receipt_eq_some (htidy.install h), stored_receipt_eq_some htidy]
  constructor
  · rintro ⟨i, entry, pd, id, b, hfound⟩
    obtain ⟨i', hfound'⟩ := (found_after_install htidy h hk).mp ⟨i, hfound⟩
    exact ⟨i', entry, pd, id, b, hfound'⟩
  · rintro ⟨i, entry, pd, id, b, hfound⟩
    obtain ⟨i', hfound'⟩ := (found_after_install htidy h hk).mpr ⟨i, hfound⟩
    exact ⟨i', entry, pd, id, b, hfound'⟩

theorem dependencies_of_after_install (htidy : Tidy store)
    (h : Installation host keys require_signature bundle store store' index receipt signature key root)
    (hk : k ≠ key) : dependencies_of store' k = dependencies_of store k := by
  rw [dependencies_of, dependencies_of, stored_receipt_after_install htidy h hk]

theorem IntactPackage.install (hpackage : IntactPackage host keys require_signature store k)
    (htidy : Tidy store)
    (h : Installation host keys require_signature bundle store store' index receipt signature key root)
    (hk : k ≠ key) : IntactPackage host keys require_signature store' k := by
  obtain ⟨i, entry, pd, id, b, r, hfound, hintact⟩ := hpackage
  obtain ⟨i', hfound'⟩ := (found_after_install htidy h hk).mpr ⟨i, hfound⟩
  have hdir := (htidy i k entry hfound.read_index hfound.get_entry).2
  obtain rfl := Except.ok.inj (hfound.install_path.symm.trans hdir)
  refine ⟨i', entry, pd, _, b, r, hfound', hintact.signature, hintact.bundle_hash,
    hintact.dependencies, hintact.archive, ?_⟩
  rw [← hintact.installed, h.store_eq]
  congr 1
  exact Function.update_of_ne (fun heq => hk (install_dir_inj heq)) _ _

end Frame

/-! ## Installations of intact bundles -/

section Installs

variable {host : Host} {keys : Keys} {require_signature : Bool} {bundle : Tree File}
  {store store' : Store} {index : StoreIndex} {receipt : PackageReceipt}
  {signature : SignatureVerification} {key k : String} {root : Tree Bytes}

theorem is_listed_iff (h : read_store_index store.index = .ok index) :
    is_listed store k ↔ is_indexed index k = true := by
  constructor
  · rintro ⟨i, hi, hk⟩
    obtain rfl := Except.ok.inj (h.symm.trans hi)
    exact hk
  · exact fun hk => ⟨index, h, hk⟩

theorem is_listed_of_intact (h : IntactPackage host keys require_signature store k) :
    is_listed store k := by
  obtain ⟨i, entry, _, _, _, _, hfound, -⟩ := h
  exact ⟨i, hfound.read_index, by rw [is_indexed, hfound.get_entry]; rfl⟩

theorem dependencies_of_not_listed (h : ¬is_listed store k) : dependencies_of store k = [] := by
  have hnone : stored_receipt store k = none := by
    rw [stored_receipt]
    cases hindex : read_store_index store.index with
    | error e => rfl
    | ok i =>
      have hget : Dict.get i.packages k = none := by
        by_contra hsome
        exact h ⟨i, hindex, Option.isSome_iff_ne_none.mpr hsome⟩
      simp [Except.toOption, hget]
  rw [dependencies_of, hnone]

/-- The package that was installed is found under its key. -/
theorem Installation.found
    (h : Installation host keys require_signature bundle store store' index receipt signature key root) :
    ∃ i, Found store' key i (.obj (index_entry store key receipt signature)) (package_dir store key)
      (install_dir store key) bundle receipt := by
  obtain ⟨fields, hafter⟩ := h.read_index
  refine ⟨_, hafter, Dict.get_set_self, get_index_entry.1, get_index_entry.2.1, ?_,
    h.consistent.read_receipt⟩
  rw [h.store_eq]
  exact Function.update_self _ _ _

/-- The package that an intact bundle was installed as is intact. -/
theorem Installation.intact
    (h : Installation host keys require_signature bundle store store' index receipt signature key root)
    (hbundle : IntactBundle host keys require_signature bundle receipt) :
    IntactPackage host keys require_signature store' key := by
  obtain ⟨hash, strayed, hrestore⟩ := h.restored
  obtain ⟨manifest, hmanifest, htree, hrestorable⟩ := hbundle.read_archive
  obtain ⟨i, hfound⟩ := h.found
  refine ⟨i, _, _, _, _, _, hfound, hbundle.signed, hbundle.bundle_hash, get_index_entry.2.2, ?_, ?_⟩
  · exact verifyCompleted_iff.mpr ⟨manifest, hmanifest, hrestorable.extractable.verified⟩
  · have hinstalled : store'.installed (install_dir store key) = some root := by
      rw [h.store_eq]
      exact Function.update_self _ _ _
    rw [hinstalled, Option.map_some, (hrestorable.restored hmanifest hrestore).tree_hash _ hmanifest,
      htree]

theorem Installation.dependencies_of
    (h : Installation host keys require_signature bundle store store' index receipt signature key root) :
    dependencies_of store' key = receipt.dependencies := by
  obtain ⟨i, hfound⟩ := h.found
  exact hfound.dependencies_of

/-- Every package in the index verifies. -/
def Closed (host : Host) (keys : Keys) (require_signature : Bool) (store : Store) : Prop :=
  ∀ k, is_listed store k → Sound host keys require_signature store k

/-- No dependency leads back to the key. -/
def NoWayBack (store : Store) (dependencies : List String) (key : String) : Prop :=
  ∀ d ∈ dependencies, ¬ReflTransGen (Edge (dependencies_of store)) d key

theorem Closed.acyclic (h : Closed host keys require_signature store) (a : String) :
    ¬TransGen (Edge (dependencies_of store)) a a := by
  intro hcycle
  by_cases ha : is_listed store a
  · exact (h a ha).acyclic a .refl hcycle
  · obtain ⟨b, hedge, -⟩ := TransGen.head'_iff.mp hcycle
    rw [Edge, dependencies_of_not_listed ha] at hedge
    exact List.not_mem_nil hedge

theorem is_listed_after_install
    (h : Installation host keys require_signature bundle store store' index receipt signature key root) :
    is_listed store' k ↔ k = key ∨ is_listed store k := by
  obtain ⟨fields, hafter⟩ := h.read_index
  rw [is_listed_iff hafter, is_listed_iff h.consistent.read_index, is_indexed, is_indexed,
    Dict.get_set]
  by_cases hk : key = k
  · simp [hk]
  · simp [hk, Ne.symm hk]

/-- An installation keeps the store closed when no dependency leads back to the key. -/
theorem Closed.install (hclosed : Closed host keys require_signature store) (htidy : Tidy store)
    (h : Installation host keys require_signature bundle store store' index receipt signature key root)
    (hbundle : IntactBundle host keys require_signature bundle receipt)
    (hfree : NoWayBack store receipt.dependencies key) :
    Closed host keys require_signature store' := by
  have hsame (a : String) (ha : a ≠ key) : dependencies_of store' a = dependencies_of store a :=
    dependencies_of_after_install htidy h ha
  have hacyclic := acyclic_rewire hsame hclosed.acyclic (by rwa [h.dependencies_of])
  have hintact : ∀ k, is_listed store' k → IntactPackage host keys require_signature store' k := by
    intro k hk
    by_cases hkk : k = key
    · exact hkk ▸ h.intact hbundle
    · have hold := ((is_listed_after_install h).mp hk).resolve_left hkk
      exact ((hclosed k hold).sound k .refl).install htidy h hkk
  have hdown : ∀ k d, is_listed store' k → d ∈ dependencies_of store' k → is_listed store' d := by
    intro k d hk hd
    refine (is_listed_after_install h).mpr (.inr ?_)
    by_cases hkk : k = key
    · subst hkk
      rw [h.dependencies_of] at hd
      exact (is_listed_iff h.consistent.read_index).mpr (h.consistent.indexed d hd)
    · rw [hsame k hkk] at hd
      have hold := ((is_listed_after_install h).mp hk).resolve_left hkk
      exact is_listed_of_intact ((hclosed k hold).sound d (.single hd))
  intro k hk
  refine ⟨fun b hb => hintact b ?_, fun b _ => hacyclic b⟩
  induction hb with
  | refl => exact hk
  | tail _ hedge ih => exact hdown _ _ ih hedge

/-- An installation of which a dependency leads back to the key makes a cycle. -/
theorem Closed.install_iff (hclosed : Closed host keys require_signature store) (htidy : Tidy store)
    (h : Installation host keys require_signature bundle store store' index receipt signature key root)
    (hbundle : IntactBundle host keys require_signature bundle receipt) :
    Closed host keys require_signature store' ↔ NoWayBack store receipt.dependencies key := by
  refine ⟨fun hclosed' d hd hback => ?_, hclosed.install htidy h hbundle⟩
  have hsame (a : String) (ha : a ≠ key) : dependencies_of store' a = dependencies_of store a :=
    dependencies_of_after_install htidy h ha
  have hedge : Edge (dependencies_of store') key d := by
    rwa [Edge, h.dependencies_of]
  exact hclosed'.acyclic key (.head' hedge (reach_key_of_reach hsame hback))

end Installs

/-! ## Runs -/

section Runs

variable {host : Host} {keys : Keys} {require_signature : Bool} {store : Store}

/-- An installation in a run. -/
structure Install where
  before : Store
  bundle : Tree File
  receipt : PackageReceipt
  key : String
  after : Store

/-- Successful installations of intact bundles, one after the other, from a store without packages. -/
inductive Run (host : Host) (keys : Keys) (require_signature : Bool) : List Install → Store → Prop
  | start {store : Store} {fields : Dict} (h : read_store_index store.index = .ok ⟨fields, []⟩) :
      Run host keys require_signature [] store
  | install {installs : List Install} {i : Install} {r : InstallReceipt}
      (hrun : Run host keys require_signature installs i.before)
      (hbundle : IntactBundle host keys require_signature i.bundle i.receipt)
      (h : install_bundle host keys require_signature i.bundle i.before = .ok r i.after)
      (hkey : r.package = i.key) :
      Run host keys require_signature (installs ++ [i]) i.after

/-- The verification of every package in the index completes. -/
def AllComplete (host : Host) (keys : Keys) (require_signature : Bool) (store : Store) : Prop :=
  ∀ k, is_listed store k → Completes (verify_installed_package host keys require_signature store k)

theorem allComplete_iff_closed :
    AllComplete host keys require_signature store ↔ Closed host keys require_signature store :=
  forall₂_congr fun _ _ => completes_iff_sound

theorem tidy_of_empty {fields : Dict} (h : read_store_index store.index = .ok ⟨fields, []⟩) :
    Tidy store := by
  intro index k entry hread hget
  obtain rfl := Except.ok.inj (h.symm.trans hread)
  cases hget

theorem closed_of_empty {fields : Dict} (h : read_store_index store.index = .ok ⟨fields, []⟩) :
    Closed host keys require_signature store := by
  rintro k ⟨index, hread, hk⟩
  obtain rfl := Except.ok.inj (h.symm.trans hread)
  cases hk

/-- The receipt that an installation has read is the one of the intact bundle. -/
theorem Run.installation {i : Install} {r : InstallReceipt}
    (hbundle : IntactBundle host keys require_signature i.bundle i.receipt)
    (h : install_bundle host keys require_signature i.bundle i.before = .ok r i.after)
    (hkey : r.package = i.key) :
    ∃ index signature root, Installation host keys require_signature i.bundle i.before i.after index
      i.receipt signature i.key root := by
  obtain ⟨index, receipt, signature, root, hinstall⟩ := installation_of_ok h
  obtain rfl := Except.ok.inj (hinstall.consistent.read_receipt.symm.trans hbundle.read_receipt)
  exact ⟨index, signature, root, hkey ▸ hinstall⟩

theorem Run.tidy {installs : List Install} (h : Run host keys require_signature installs store) :
    Tidy store := by
  induction h with
  | start hindex => exact tidy_of_empty hindex
  | install _ hbundle hinstall hkey ih =>
    obtain ⟨index, signature, root, h⟩ := Run.installation hbundle hinstall hkey
    exact ih.install h

/-- After every installation of a run every package verifies exactly when no bundle came with a
dependency that led back to its own key. -/
theorem installs_closed_iff {installs : List Install}
    (h : Run host keys require_signature installs store) :
    (∀ i ∈ installs, AllComplete host keys require_signature i.after) ↔
      ∀ i ∈ installs, NoWayBack i.before i.receipt.dependencies i.key := by
  simp only [allComplete_iff_closed]
  -- with the last store: it is the one before the next installation
  suffices hboth : ((∀ i ∈ installs, Closed host keys require_signature i.after) ↔
      ∀ i ∈ installs, NoWayBack i.before i.receipt.dependencies i.key) ∧
      ((∀ i ∈ installs, Closed host keys require_signature i.after) →
        Closed host keys require_signature store) from hboth.1
  induction h with
  | start hindex => exact ⟨⟨fun _ => nofun, fun _ => nofun⟩, fun _ => closed_of_empty hindex⟩
  | @install installs i r hrun hbundle hinstall hkey ih =>
    obtain ⟨index, signature, root, h⟩ := Run.installation hbundle hinstall hkey
    obtain ⟨hiff, hlast⟩ := ih
    simp only [List.forall_mem_append, List.forall_mem_singleton]
    refine ⟨?_, fun hall => hall.2⟩
    constructor
    · rintro ⟨hbefore, hafter⟩
      exact ⟨hiff.mp hbefore, ((hlast hbefore).install_iff hrun.tidy h hbundle).mp hafter⟩
    · rintro ⟨hbefore, hfree⟩
      have hclosed := hiff.mpr hbefore
      exact ⟨hclosed, ((hlast hclosed).install_iff hrun.tidy h hbundle).mpr hfree⟩

end Runs

/-! ## Success on intact bundles -/

section Ends

variable {host : Host} {keys : Keys} {require_signature : Bool} {bundle : Tree File}
  {store : Store} {index : StoreIndex} {receipt : PackageReceipt}
  {signature : SignatureVerification} {key : String}

/-- The key of a name and a version has their separator, so it is not blank. -/
theorem package_key_ok (name version : String) : ∃ key, package_key name version = .ok key := by
  rw [package_key]
  refine ⟨_, if_neg ?_⟩
  rw [is_blank, List.all_eq_true]
  intro hblank
  have hdash := hblank '-' (List.mem_map.mpr ⟨'-', by simp, by decide⟩)
  exact absurd hdash (by decide)

/-- An installation ends exactly when the checks pass, the key is a name and the archive can be
restored. -/
theorem ends_install_bundle_iff : Ends (install_bundle host keys require_signature bundle) store ↔
    ∃ index receipt signature key, check_bundle host keys require_signature store bundle =
        .ok (index, receipt, signature, key) ∧
      host.admits key.toList = true ∧
      ∃ manifest, read_archive_manifest (bundle.sub "archive") = .ok manifest ∧
        Extractable host (bundle.sub "archive") manifest := by
  constructor
  · rintro ⟨r, store', h⟩
    obtain ⟨index, receipt, signature, root, hinstall⟩ := installation_of_ok h
    obtain ⟨hash, strayed, hrestore⟩ := hinstall.restored
    exact ⟨index, receipt, signature, r.package, hinstall.checked, hinstall.admitted,
      ends_restore_iff.mp ⟨hash, _, hrestore⟩⟩
  · rintro ⟨index, receipt, signature, key, hcheck, hadmits, hextract⟩
    obtain ⟨hash, output, hrestore⟩ : Ends (restore_directory_archive host (bundle.sub "archive"))
        ⟨(store.installed (install_dir store key)).getD .empty, []⟩ := ends_restore_iff.mpr hextract
    rw [Ends, install_of_check hcheck]
    refine ends_bind.mpr ⟨_, _, replace_package_of_admits hadmits, ends_bind.mpr ⟨hash, _,
      restore_installed_of_ok hrestore, ?_⟩⟩
    exact ends_bind.mpr ⟨_, _, modify_apply _, _, _, rfl⟩

/-- An intact bundle is installed when its dependencies are installed and verify. -/
theorem IntactBundle.ends_install (h : IntactBundle host keys require_signature bundle receipt)
    (hindex : read_store_index store.index = .ok index)
    (hdependencies : ∀ d ∈ receipt.dependencies, is_indexed index d = true ∧
      Completes (verify_installed_package host keys require_signature store d))
    (hkey : package_key receipt.name receipt.version = .ok key)
    (hadmits : host.admits key.toList = true) :
    ∃ r store', install_bundle host keys require_signature bundle store = .ok r store' ∧
      r.package = key := by
  obtain ⟨manifest, hmanifest, htree, hrestorable⟩ := h.read_archive
  obtain ⟨signature, hsignature, hsigned⟩ := h.signed
  have hcheck := check_bundle_eq_ok.mpr ⟨⟨hindex, h.read_receipt, ⟨manifest, hmanifest, htree⟩,
    h.bundle_hash, hsignature, hsigned, fun d hd => (hdependencies d hd).1⟩,
    verify_dependencies_eq_ok.mpr fun d hd => (hdependencies d hd).2, hkey⟩
  obtain ⟨r, store', hok⟩ := ends_install_bundle_iff.mpr
    ⟨index, receipt, signature, key, hcheck, hadmits, manifest, hmanifest, hrestorable.extractable⟩
  refine ⟨r, store', hok, ?_⟩
  obtain ⟨_, _, _, _, hinstall⟩ := installation_of_ok hok
  have hsame := Except.ok.inj (hcheck.symm.trans hinstall.checked)
  simp only [Prod.mk.injEq] at hsame
  exact hsame.2.2.2.symm

end Ends

/-! ## A package that depends on itself -/

/-- A host whose objects hold their bytes. -/
def plain_host : Host := ⟨some, fun _ => true, fun _ => true⟩

/-- The store that `init_store` makes. -/
def new_store : Store where
  root := "store"
  index := .value (.obj (Dict.of [("format", .str STORE_INDEX_FORMAT), ("packages", .obj [])]))
  packages _ := none
  installed _ := none

theorem read_new_store : ∃ fields, read_store_index new_store.index = .ok ⟨fields, []⟩ :=
  ⟨_, rfl⟩

/-- An archive without files. -/
def empty_archive : Tree File where
  files := [(["manifest.json".toList], json_file (build_manifest "source" []))]
  dirs := []

theorem read_empty_manifest :
    read_archive_manifest empty_archive = .ok ⟨.int 0, [], tree_hash []⟩ :=
  @read_build_manifest "source" _ _ Tree.file_cons_self nofun

theorem packageable_empty {name version : String} {dependencies : List String} (hname : name ≠ "")
    (hversion : version ≠ "") (hdependencies : ∀ d ∈ dependencies, d ≠ "") :
    Packageable plain_host empty_archive ⟨.int 0, [], tree_hash []⟩ name version dependencies where
  read_archive := read_empty_manifest
  file_count := rfl
  tree_sha256 := hex_pattern_hexdigest _
  hashes := by
    refine directory_hash_ok_iff.mpr fun f hf => ?_
    obtain rfl := List.mem_singleton.mp hf
    exact ⟨_, if_neg (by decide)⟩
  dirs := nofun
  name := hname
  version := hversion
  dependencies := hdependencies
  restorable := ⟨nofun, nofun, rfl, nofun, List.nodup_nil, nofun, nofun, nofun⟩

/-- A package of the empty archive is installed when its dependencies are. -/
theorem install_packaged {store : Store} {index : StoreIndex} {name version key : String}
    {dependencies : List String} (hindex : read_store_index store.index = .ok index)
    (hcomplete : AllComplete plain_host plain_keys true store)
    (hlisted : ∀ d ∈ dependencies, is_listed store d)
    (hpackage : Packageable plain_host empty_archive ⟨.int 0, [], tree_hash []⟩ name version
      dependencies)
    (hkey : package_key name version = .ok key) :
    ∃ bundle receipt r store', IntactBundle plain_host plain_keys true bundle receipt ∧
      Describes receipt ⟨.int 0, [], tree_hash []⟩ name version dependencies ∧
      install_bundle plain_host plain_keys true bundle store = .ok r store' ∧ r.package = key := by
  obtain ⟨bundle, receipt, -, hbundle, hdescribes⟩ :=
    package_directory_intact plain_keys_lawful hpackage true true (fun _ => rfl)
  obtain ⟨r, store', hok, hr⟩ := hbundle.ends_install hindex (fun d hd => by
    rw [hdescribes.dependencies, mem_sorted_set] at hd
    exact ⟨(is_listed_iff hindex).mp (hlisted d hd), hcomplete d (hlisted d hd)⟩)
    (by rwa [hdescribes.name, hdescribes.version]) rfl
  exact ⟨bundle, receipt, r, store', hbundle, hdescribes, hok, hr⟩

theorem run_package {installs : List Install} {store : Store} {index : StoreIndex}
    {name version key : String} {dependencies : List String}
    (hrun : Run plain_host plain_keys true installs store)
    (hindex : read_store_index store.index = .ok index)
    (hcomplete : AllComplete plain_host plain_keys true store)
    (hlisted : ∀ d ∈ dependencies, is_listed store d)
    (hpackage : Packageable plain_host empty_archive ⟨.int 0, [], tree_hash []⟩ name version
      dependencies)
    (hkey : package_key name version = .ok key) :
    ∃ i, Run plain_host plain_keys true (installs ++ [i]) i.after ∧ is_listed i.after key ∧
      (AllComplete plain_host plain_keys true i.after →
        NoWayBack store (sorted_set dependencies) key) := by
  obtain ⟨bundle, receipt, r, after, hbundle, hdescribes, hok, hr⟩ :=
    install_packaged hindex hcomplete hlisted hpackage hkey
  let i : Install := ⟨store, bundle, receipt, key, after⟩
  obtain ⟨_, _, _, h⟩ := @Run.installation _ _ _ i r hbundle hok hr
  refine ⟨i, .install hrun hbundle hok hr, (is_listed_after_install h).mpr (.inl rfl),
    fun hafter => ?_⟩
  rw [← hdescribes.dependencies]
  exact ((allComplete_iff_closed.mp hcomplete).install_iff hrun.tidy h hbundle).mp
    (allComplete_iff_closed.mp hafter)

/-- A package without dependencies is installed in a new store. -/
theorem run_first : ∃ i, Run plain_host plain_keys true [i] i.after ∧ is_listed i.after "a-1" := by
  obtain ⟨fields, hindex⟩ := read_new_store
  obtain ⟨i, hrun, hlisted, -⟩ := @run_package _ _ _ "a" "1" _ [] (.start hindex) hindex
    (allComplete_iff_closed.mpr (closed_of_empty hindex)) nofun
    (packageable_empty (by decide) (by decide) (by simp)) rfl
  exact ⟨i, hrun, hlisted⟩

/-- Its verification completes. -/
theorem complete_first :
    ∃ store, Completes (verify_installed_package plain_host plain_keys true store "a-1") := by
  obtain ⟨fields, hindex⟩ := read_new_store
  have hclosed : Closed plain_host plain_keys true new_store := closed_of_empty hindex
  obtain ⟨bundle, receipt, r, store, hbundle, hdescribes, hok, hr⟩ := @install_packaged _ _ "a" "1" _
    [] hindex (allComplete_iff_closed.mpr hclosed) nofun
    (packageable_empty (by decide) (by decide) (by simp)) rfl
  obtain ⟨_, _, _, h⟩ := @Run.installation _ _ _ ⟨new_store, bundle, receipt, "a-1", store⟩ r hbundle
    hok hr
  have hno : NoWayBack new_store receipt.dependencies "a-1" := by
    rw [hdescribes.dependencies]
    exact fun d hd => absurd (mem_sorted_set.mp hd) List.not_mem_nil
  have hcomplete := allComplete_iff_closed.mpr
    ((hclosed.install_iff (tidy_of_empty hindex) h hbundle).mpr hno)
  exact ⟨store, hcomplete "a-1" ((is_listed_after_install h).mpr (.inl rfl))⟩

theorem installs_closed_first : ∃ i, Run plain_host plain_keys true [i] i.after ∧
    ((∀ j ∈ [i], AllComplete plain_host plain_keys true j.after) ↔
      ∀ j ∈ [i], NoWayBack j.before j.receipt.dependencies j.key) := by
  obtain ⟨i, hrun, -⟩ := run_first
  exact ⟨i, hrun, installs_closed_iff hrun⟩

/-- The package is installed again with itself as a dependency. -/
theorem installs_not_closed : ¬∀ installs store, Run plain_host plain_keys true installs store →
    ∀ i ∈ installs, AllComplete plain_host plain_keys true i.after := by
  intro hall
  obtain ⟨i, hrun, hlisted⟩ := run_first
  have hcomplete := hall _ _ hrun i (List.mem_singleton_self i)
  obtain ⟨index, hindex, -⟩ := id hlisted
  obtain ⟨j, hrun', -, hfree⟩ := @run_package _ _ _ "a" "1" "a-1" ["a-1"] hrun hindex
    hcomplete (by simpa using hlisted) (packageable_empty (by decide) (by decide) (by decide)) rfl
  have hcomplete' := hall _ _ hrun' j (by simp)
  exact hfree hcomplete' "a-1" (mem_sorted_set.mpr (by simp)) .refl

end Bogbin.Bogvm
