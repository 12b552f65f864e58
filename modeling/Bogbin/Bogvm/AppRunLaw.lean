import Bogbin.Bogvm.AppRunFrame
import Bogbin.Bogvm.StorePackage

/-!
# What a run of an app harms

The manifest of an app names the directory of its receipts.  The verifications of packages, archives
and the ledger depend on some places of the workspace only (`verify_installed_package_congr`,
`verify_directory_archive_congr`), and when the receipts lie apart from these, a run is harmless
(`harmless_of_apart`).
-/

namespace Bogbin.Bogvm

open StateExcept

/-! ## What a verification reads -/

section Congruence

variable {host : Host} {keys : Keys} {require_signature : Bool} {store store' : Store}
  {fuel : ℕ} {seen : List String} {package : String} {t t' : Tree File}

/-- The index names this directory for a package. -/
def NamedDir (store : Store) (key dir : String) : Prop :=
  ∃ index package entry, read_store_index store.index = .ok index ∧
    Dict.get index.packages package = some entry ∧ entry_path entry key = .ok dir

/-- A verification reads the index and the directories that it names. -/
theorem verify_package_congr (hindex : store'.index = store.index)
    (hpackages : ∀ dir, NamedDir store "package_dir" dir → store'.packages dir = store.packages dir)
    (hinstalled : ∀ dir, NamedDir store "install_dir" dir → store'.installed dir = store.installed dir) :
    verify_package host keys require_signature store' fuel seen package =
      verify_package host keys require_signature store fuel seen package := by
  induction fuel generalizing seen package with
  | zero => rfl
  | succ fuel ih =>
    have hverify : verify_package host keys require_signature store' fuel (package :: seen) =
        verify_package host keys require_signature store fuel (package :: seen) := funext fun _ => ih
    rw [verify_package, verify_package, hindex]
    cases hread : read_store_index store.index with
    | error e => cases e <;> rfl
    | ok index =>
      dsimp only
      cases hentry : Dict.get index.packages package with
      | none => rfl
      | some entry =>
        cases entry with
        | obj fields =>
          dsimp only
          cases hpackage : entry_path (.obj fields) "package_dir" with
          | error e => rfl
          | ok package_dir =>
            cases hinstall : entry_path (.obj fields) "install_dir" with
            | error e => rfl
            | ok install_dir =>
              rw [ok_bind, ok_bind, ok_bind, ok_bind,
                hpackages _ ⟨index, package, _, hread, hentry, hpackage⟩]
              unfold check_package
              rw [hinstalled _ ⟨index, package, _, hread, hentry, hinstall⟩, hverify]
        | null | bool | int | float | str | arr => rfl

theorem verify_installed_package_congr (hindex : store'.index = store.index)
    (hpackages : ∀ dir, NamedDir store "package_dir" dir → store'.packages dir = store.packages dir)
    (hinstalled : ∀ dir, NamedDir store "install_dir" dir → store'.installed dir = store.installed dir) :
    verify_installed_package host keys require_signature store' package =
      verify_installed_package host keys require_signature store package := by
  rw [verify_installed_package, verify_installed_package, index_size, index_size, hindex]
  exact verify_package_congr hindex hpackages hinstalled

/-- A path that the verification of an archive reads. -/
def ArchivePath (q : Path) : Prop :=
  q = ["manifest.json".toList] ∨ ∃ object, object_pattern object = true ∧ q = path_parts object

theorem object_of_manifest_entry {v : Json} {entry : ManifestEntry} (h : manifest_entry v = some entry) :
    object_pattern entry.object = true := by
  cases v with
  | obj d =>
    rw [manifest_entry] at h
    split at h
    · split_ifs at h with hvalid
      obtain rfl := Option.some.inj h
      exact hvalid.2.2.2.1
    · cases h
  | null | bool | int | float | str | arr => cases h

theorem exists_of_mapM_eq_some {α β : Type} {f : α → Option β} {l : List α} {bs : List β}
    (h : l.mapM f = some bs) {b : β} (hb : b ∈ bs) : ∃ a ∈ l, f a = some b := by
  induction l generalizing bs with
  | nil =>
    obtain rfl := Option.some.inj h
    cases hb
  | cons a l ih =>
    rw [List.mapM_cons] at h
    obtain ⟨b', hb', h⟩ := Option.bind_eq_some_iff.mp h
    obtain ⟨bs', hbs', h⟩ := Option.bind_eq_some_iff.mp h
    obtain rfl := Option.some.inj h
    rcases List.mem_cons.mp hb with rfl | hb
    · exact ⟨a, List.mem_cons_self, hb'⟩
    · obtain ⟨a', ha', hf⟩ := ih hbs' hb
      exact ⟨a', List.mem_cons_of_mem _ ha', hf⟩

theorem object_of_read_manifest {manifest : Manifest} (h : read_archive_manifest t = .ok manifest)
    {entry : ManifestEntry} (hentry : entry ∈ manifest.files) : object_pattern entry.object = true := by
  obtain ⟨v, hmanifest⟩ : ∃ v, manifest_of v = some manifest := by
    rw [read_archive_manifest] at h
    split at h
    · cases h
    · cases h
    · cases h
    · next v _ =>
      split at h
      · cases h
      · next found hfound =>
        split_ifs at h
        obtain rfl := Except.ok.inj h
        exact ⟨v, hfound⟩
  cases v with
  | obj d =>
    rw [manifest_of] at hmanifest
    split at hmanifest
    · split_ifs at hmanifest
      obtain ⟨entries, hentries, rfl⟩ := Option.map_eq_some_iff.mp hmanifest
      obtain ⟨v, -, hv⟩ := exists_of_mapM_eq_some hentries hentry
      exact object_of_manifest_entry hv
    · cases hmanifest
  | null | bool | int | float | str | arr => cases hmanifest

theorem verify_directory_archive_congr (h : ∀ q, ArchivePath q → t'.file q = t.file q) :
    verify_directory_archive host t' = verify_directory_archive host t := by
  have hmanifest : read_archive_manifest t' = read_archive_manifest t := by
    rw [read_archive_manifest, read_archive_manifest, h _ (.inl rfl)]
  have hfile (manifest : Manifest) (hread : read_archive_manifest t = .ok manifest) (path : String) :
      read_archive_file host t' manifest path = read_archive_file host t manifest path := by
    rw [read_archive_file, read_archive_file]
    split_ifs
    · rfl
    · split
      · rfl
      · next entry hfind =>
        rw [h _ (.inr ⟨entry.object, object_of_read_manifest hread (List.mem_of_find?_eq_some hfind),
          rfl⟩)]
  have hfiles (manifest : Manifest) (hread : read_archive_manifest t = .ok manifest)
      (entries : List ManifestEntry) :
      verify_files host t' manifest entries = verify_files host t manifest entries := by
    induction entries with
    | nil => rfl
    | cons entry entries ih => rw [verify_files, verify_files, ih, hfile manifest hread]
  rw [verify_directory_archive, verify_directory_archive, hmanifest]
  cases hread : read_archive_manifest t with
  | error e => cases e <;> rfl
  | ok manifest =>
    dsimp only
    rw [hfiles manifest hread]

theorem mem_of_mem_splitOn {c d : Char} {l part : List Char} (h : part ∈ l.splitOn c) (hd : d ∈ part) :
    d ∈ l := by
  rw [← @List.intercalate_splitOn _ l _ _ c]
  generalize l.splitOn c = parts at h
  induction parts with
  | nil => cases h
  | cons first rest ih =>
    cases rest with
    | nil =>
      rw [List.mem_singleton.mp h] at hd
      simpa using hd
    | cons second rest =>
      rw [List.intercalate_cons_cons]
      rcases List.mem_cons.mp h with rfl | h
      · simp [hd]
      · simp [ih h]

theorem underscore_not_mem_of_pattern {s : List Char} (hstart : "objects/".toList <+: s)
    (hstop : ".bogpk".toList <:+ s) (hlength : s.length = 78) (hhex : is_hex ((s.drop 8).take 64) = true) :
    '_' ∉ s := by
  rw [← List.take_append_drop 8 s, ← List.take_append_drop 64 (s.drop 8), List.drop_drop]
  have hhead : s.take 8 = "objects/".toList := (List.prefix_iff_eq_take.mp hstart).symm
  have htail : s.drop 72 = ".bogpk".toList := by
    have htail := (List.suffix_iff_eq_drop.mp hstop).symm
    rwa [hlength] at htail
  have hdigits : ∀ c ∈ (s.drop 8).take 64, c ∈ "0123456789abcdef".toList :=
    fun c hc => of_decide_eq_true (List.all_eq_true.mp hhex c hc)
  rw [hhead, htail, List.mem_append, List.mem_append]
  rintro (h | h | h)
  · exact absurd h (by decide)
  · exact absurd (hdigits _ h) (by decide)
  · exact absurd h (by decide)

theorem underscore_not_mem_object {object : String} (h : object_pattern object = true) :
    '_' ∉ object.toList := by
  simp only [object_pattern, anchored, Bool.or_eq_true, Bool.and_eq_true, decide_eq_true_eq,
    List.isPrefixOf_iff_prefix, List.isSuffixOf_iff_suffix] at h
  rcases h with ⟨⟨⟨hstart, hstop⟩, hlength⟩, hhex⟩ | ⟨hlast, ⟨⟨hstart, hstop⟩, hlength⟩, hhex⟩
  · exact underscore_not_mem_of_pattern hstart hstop hlength hhex
  · obtain ⟨init, hinit⟩ := List.getLast?_eq_some_iff.mp hlast
    rw [hinit, List.dropLast_concat] at hstart hstop hlength hhex
    rw [hinit, List.mem_append, not_or]
    exact ⟨underscore_not_mem_of_pattern hstart hstop hlength hhex, by decide⟩

/-- No path of an archive has an underscore. -/
theorem underscore_not_mem_archive {q : Path} (h : ArchivePath q) : ∀ name ∈ q, '_' ∉ name := by
  rcases h with rfl | ⟨object, hobject, rfl⟩
  · decide
  · intro name hname hmem
    exact underscore_not_mem_object hobject (mem_of_mem_splitOn (List.mem_of_mem_filter hname) hmem)

theorem mem_intercalate {c d : Char} {parts : List (List Char)} (h : d ∈ List.intercalate [c] parts) :
    d = c ∨ ∃ part ∈ parts, d ∈ part := by
  induction parts with
  | nil => cases h
  | cons first rest ih =>
    cases rest with
    | nil => exact .inr ⟨first, List.mem_cons_self, by simpa using h⟩
    | cons second rest =>
      rw [List.intercalate_cons_cons, List.mem_append, List.mem_append, List.mem_singleton] at h
      rcases h with (h | h) | h
      · exact .inr ⟨first, List.mem_cons_self, h⟩
      · exact .inl h
      · obtain hc | ⟨part, hpart, hd⟩ := ih h
        · exact .inl hc
        · exact .inr ⟨part, List.mem_cons_of_mem _ hpart, hd⟩

theorem ne_nil_of_archivePath {q : Path} (h : ArchivePath q) : q ≠ [] := by
  rcases h with rfl | ⟨object, hobject, rfl⟩
  · decide
  · intro hnil
    have hmem : 'o' ∈ object.toList := by
      simp only [object_pattern, anchored, Bool.or_eq_true, Bool.and_eq_true,
        List.isPrefixOf_iff_prefix] at hobject
      rcases hobject with ⟨⟨⟨hstart, -⟩, -⟩, -⟩ | ⟨-, ⟨⟨hstart, -⟩, -⟩, -⟩
      · exact hstart.subset (by decide)
      · exact (hstart.trans (List.dropLast_prefix _)).subset (by decide)
    rw [← @List.intercalate_splitOn _ object.toList _ _ '/'] at hmem
    obtain heq | ⟨part, hpart, ho⟩ := mem_intercalate hmem
    · exact absurd heq (by decide)
    · refine List.filter_eq_nil_iff.mp hnil part hpart (decide_eq_true ⟨?_, ?_⟩)
      · rintro rfl
        cases ho
      · rintro rfl
        exact absurd ho (by decide)

end Congruence

/-! ## Harmless runs -/

/-- The paths of the listed receipts. -/
def listed_paths (letters : Char → Bool) (receipts : List ListedReceipt) : List Path :=
  receipts.mapIdx fun i receipt => receipt.path letters (i + 1)

/-- Every verification gives the same as before, and the listed receipts stay. -/
structure Harmless (reader : WorkspaceReader) (w w' : RunWorkspace) : Prop where
  packages : ∀ package, verify_workspace_package reader w'.tree package =
    verify_workspace_package reader w.tree package
  archives : ∀ archive ∈ w.archives, verify_workspace_archive reader w'.tree archive.2 =
    verify_workspace_archive reader w.tree archive.2
  keys : trusted_public_keys w'.tree = trusted_public_keys w.tree
  ledger : verify_workspace_ledger reader w'.tree = verify_workspace_ledger reader w.tree
  receipts : ∀ p ∈ listed_paths reader.letters w.receipts, w'.tree.file p = w.tree.file p

/-- The index names the directory at this path for a package. -/
def NamedPlace (reader : WorkspaceReader) (t : Tree Bytes) (p : Path) : Prop :=
  ∃ key dir, (key = "package_dir" ∨ key = "install_dir") ∧ NamedDir (store_of reader t) key dir ∧
    reader.locate dir = some p

/-- Packages lie in the store, and archives in the directory of the archives. -/
structure Laidout (reader : WorkspaceReader) (w : RunWorkspace) : Prop where
  packages : ∀ p, NamedPlace reader w.tree p → ∃ area name, p = bogos_dir ++ ["store".toList, area, name]
  archives : ∀ archive ∈ w.archives, ∃ name, archive.2 = bogos_dir ++ ["archives".toList, name]

/-- A directory that lies apart from all that is verified. -/
structure PlaceApart (reader : WorkspaceReader) (receipt_dir : Path) (w : RunWorkspace) : Prop where
  packages : ∀ p, NamedPlace reader w.tree p → ¬p <+: receipt_dir
  ledger : receipt_dir ≠ ledger_dir
  entries : ∀ name, ".json".toList <:+ name → ledger_dir ++ [name] <+: receipt_dir →
    ledger_dir ++ [name] ∈ w.tree.dirs
  keys : ∀ name, ".pub".toList <:+ name → trust_dir ++ [name] <+: receipt_dir →
    trust_dir ++ [name] ∈ w.tree.dirs

/-- The receipt directory is apart, also from the directory of the app, and the older receipts are not
in the directory of the app. -/
structure ReceiptApart (reader : WorkspaceReader) (app : VerifiedApp reader) (receipt_dir : Path)
    (w : RunWorkspace) : Prop extends PlaceApart reader receipt_dir w where
  own : ¬runtime_dir app.name <+: receipt_dir
  receipts : ∀ p ∈ listed_paths reader.letters w.receipts, ¬runtime_dir app.name <+: p

section Areas

variable {reader : WorkspaceReader} {app : VerifiedApp reader} {receipt_dir : Path} {w : RunWorkspace}
  {area : List Char} {rest : Path}

theorem prefix_bogos_iff {p : Path} : bogos_dir ++ p <+: bogos_dir ++ rest ↔ p <+: rest :=
  List.prefix_append_right_inj bogos_dir

theorem runtime_dir_eq : runtime_dir app.name = bogos_dir ++ ["appdata".toList, app.name.toList] := by
  rw [runtime_dir, path_parts_app]
  rfl

/-- Below another directory a run writes no file but the receipt. -/
theorem receipt_of_runFile (h : RunFile reader app receipt_dir w (bogos_dir ++ area :: rest))
    (harea : area ≠ "appdata".toList) (hrest : rest ≠ []) :
    bogos_dir ++ area :: rest = receipt_of_run reader app receipt_dir w ∧
      bogos_dir ++ area :: rest ∉ w.tree.dirs := by
  rcases h with h | h | h
  · rw [runtime_dir_eq, prefix_bogos_iff, List.cons_prefix_cons] at h
    exact absurd h.1.symm harea
  · exact h
  · have hsame : area :: rest = ["state.json".toList] := List.append_cancel_left h
    exact absurd (List.cons.inj hsame).2 hrest

/-- Below another directory a run makes no directory but new ones on the way to the receipt. -/
theorem prefix_of_runDir (h : RunDir reader app receipt_dir w (bogos_dir ++ area :: rest))
    (harea : area ≠ "appdata".toList) :
    bogos_dir ++ area :: rest <+: receipt_dir ∧ bogos_dir ++ area :: rest ∉ w.tree.dirs := by
  rcases h with (h | h) | h | h
  · rw [runtime_dir_eq, prefix_bogos_iff, List.cons_prefix_cons] at h
    exact absurd h.1.symm harea
  · rw [runtime_dir_eq, prefix_bogos_iff, List.cons_prefix_cons] at h
    exact absurd h.1 harea
  · have hlength := h.length_le
    simp at hlength
  · exact h

theorem underscore_of_receipt {dir : Path} {name : List Char}
    (h : dir ++ [name] = receipt_of_run reader app receipt_dir w) : '_' ∈ name := by
  obtain ⟨-, hname⟩ := List.append_inj' h rfl
  rw [(List.cons.inj hname).1]
  exact underscore_mem_receipt

theorem key_name_eq_some {p : Path} {name : List Char} (h : key_name p = some name) :
    p = [name] ∧ ".pub".toList <:+ name := by
  unfold key_name at h
  split at h
  · split_ifs at h with hsuffix
    obtain rfl := Option.some.inj h
    exact ⟨rfl, List.isSuffixOf_iff_suffix.mp hsuffix⟩
  · cases h

theorem key_name_eq_none {p : Path} (h : ∀ name, ".pub".toList <:+ name → p ≠ [name]) :
    key_name p = none := by
  rw [Option.eq_none_iff_forall_ne_some]
  intro name hname
  obtain ⟨hp, hsuffix⟩ := key_name_eq_some hname
  exact h name hsuffix hp

section Names

variable {letters : Char → Bool} {index : ℕ} {action name : String}

theorem json_receipt : ".json".toList <:+ receipt_file_name letters index action name :=
  ⟨ZeroPadding.zero_padded 4 index ++ '_' :: ((safe_name letters action).toList ++ '_' ::
    (safe_name letters name).toList), by simp [receipt_file_name]⟩

/-- The name of a receipt is no name of a key. -/
theorem not_pub_receipt : ¬".pub".toList <:+ receipt_file_name letters index action name := by
  intro h
  have hends := List.suffix_of_suffix_length_le h
    (@json_receipt letters index action name) (by decide)
  exact absurd hends (by decide)

theorem slash_not_mem_receipt : '/' ∉ receipt_file_name letters index action name := by
  unfold receipt_file_name
  rw [List.mem_append, List.mem_cons, List.mem_append, List.mem_cons, List.mem_append]
  rintro (h | h | h | h | h | h)
  · exact ZeroPadding.not_isDigit_not_mem (by decide) h
  · exact absurd h (by decide)
  · exact plainPart_safe_name.2.2 h
  · exact absurd h (by decide)
  · exact plainPart_safe_name.2.2 h
  · exact absurd h (by decide)

end Names

variable {t : Tree Bytes}

theorem trusted_public_keys_eq (h : Framed (RunFile reader app receipt_dir w)
    (RunDir reader app receipt_dir w) w.tree t) (hapart : PlaceApart reader receipt_dir w) :
    trusted_public_keys t = trusted_public_keys w.tree := by
  have harea : "trust".toList ≠ "appdata".toList := by decide
  have hfiles := h.filterMap_files_at_path trust_dir
    (fun f => (key_name f.1).map fun name => (name, some f.2)) fun q hq x => by
      refine Option.map_eq_none_iff.mpr (key_name_eq_none fun name hsuffix hname => ?_)
      obtain rfl : q = [name] := hname
      obtain ⟨hreceipt, -⟩ := receipt_of_runFile hq harea (List.cons_ne_nil _ _)
      obtain ⟨-, hlast⟩ := List.append_inj' (show trust_dir ++ [name] = _ ++ _ from hreceipt) rfl
      rw [(List.cons.inj hlast).1] at hsuffix
      exact not_pub_receipt hsuffix
  have hdirs := h.filterMap_dirs_at_path (show trust_dir ≠ [] by decide)
    (fun d => (key_name d).map fun name => (name, (none : Option Bytes))) fun q _ hq => by
      refine Option.map_eq_none_iff.mpr (key_name_eq_none fun name hsuffix hname => ?_)
      rw [hname] at hq
      obtain ⟨hbelow, hnew⟩ := prefix_of_runDir hq harea
      exact hnew (hapart.keys name hsuffix hbelow)
  unfold trusted_public_keys
  rw [hfiles, hdirs]

theorem is_entry_dir_iff {d : Path} : is_entry_dir d = true ↔ ∃ name, d = [name] ∧ ".json".toList <:+ name := by
  unfold is_entry_dir
  split
  · next name => simp
  · next hne => simpa using fun name hname _ => hne name hname

theorem verify_workspace_ledger_eq (h : Framed (RunFile reader app receipt_dir w)
    (RunDir reader app receipt_dir w) w.tree t) (hapart : PlaceApart reader receipt_dir w) :
    verify_workspace_ledger reader t = verify_workspace_ledger reader w.tree := by
  have harea : "genesis".toList ≠ "appdata".toList := by decide
  have hfiles : ledger_files reader t = ledger_files reader w.tree := by
    refine h.filterMap_files_at_path ledger_dir _ fun q hq x => ?_
    rcases q with _ | ⟨name, _ | ⟨_, _⟩⟩
    · rfl
    · obtain ⟨hreceipt, -⟩ := receipt_of_runFile hq harea (List.cons_ne_nil _ _)
      obtain ⟨hdir, -⟩ := List.append_inj' (show ledger_dir ++ [name] = _ ++ _ from hreceipt) rfl
      exact absurd hdir.symm hapart.ledger
    · rfl
  have hdirs : (t.at_path ledger_dir).dirs.any is_entry_dir =
      (w.tree.at_path ledger_dir).dirs.any is_entry_dir := by
    have hany (l : List Path) : l.any is_entry_dir =
        !(l.filterMap fun d => if is_entry_dir d then some d else none).isEmpty := by
      induction l with
      | nil => rfl
      | cons d l ih => cases hd : is_entry_dir d <;> simp [hd, ih]
    rw [hany, hany (w.tree.at_path ledger_dir).dirs]
    refine congrArg (!List.isEmpty ·) (h.filterMap_dirs_at_path (by decide) _ fun q _ hq => ?_)
    refine if_neg fun hentry => ?_
    obtain ⟨name, rfl, hsuffix⟩ := is_entry_dir_iff.mp hentry
    obtain ⟨hbelow, hnew⟩ := prefix_of_runDir hq harea
    exact hnew (hapart.entries name hsuffix hbelow)
  rw [verify_workspace_ledger, verify_workspace_ledger, hdirs, hfiles, keys_of, keys_of,
    trusted_public_keys_eq h hapart]

/-- The directory of a package stays. -/
theorem directory_eq (h : Framed (RunFile reader app receipt_dir w) (RunDir reader app receipt_dir w)
    w.tree t) {p : Path} {area name : List Char}
    (hp : p = bogos_dir ++ ["store".toList, area, name]) (hbelow : ¬p <+: receipt_dir) :
    t.directory p = w.tree.directory p := by
  have harea : "store".toList ≠ "appdata".toList := by decide
  have hnotDir (q : Path) : ¬RunDir reader app receipt_dir w (p ++ q) := by
    intro hdir
    rw [hp, List.append_assoc] at hdir
    obtain ⟨hreceipt, -⟩ := prefix_of_runDir hdir harea
    refine hbelow ((List.prefix_append p q).trans ?_)
    rw [hp, List.append_assoc]
    exact hreceipt
  have hmem : p ∈ t.dirs ↔ p ∈ w.tree.dirs := h.mem_dirs (by simpa using hnotDir [])
  have hne : p ≠ [] := by
    rw [hp]
    exact List.append_ne_nil_of_left_ne_nil (by decide) _
  rw [Tree.directory, Tree.directory]
  by_cases hdir : p ∈ w.tree.dirs
  · rw [if_pos (.inr (hmem.mpr hdir)), if_pos (.inr hdir)]
    refine congrArg some (h.at_path hne (fun q hq => ?_) fun q _ => hnotDir q)
    obtain ⟨hreceipt, hnew⟩ : p ++ q = receipt_of_run reader app receipt_dir w ∧
        p ++ q ∉ w.tree.dirs := by
      rw [hp, List.append_assoc] at hq ⊢
      exact receipt_of_runFile hq harea (by simp)
    rcases List.eq_nil_or_concat q with rfl | ⟨q', last, rfl⟩
    · rw [List.append_nil] at hnew
      exact hnew hdir
    · rw [List.concat_eq_append, ← List.append_assoc] at hreceipt
      obtain ⟨hsame, -⟩ := List.append_inj' (show _ ++ [last] = _ ++ _ from hreceipt) rfl
      exact hbelow ⟨q', hsame⟩
  · rw [if_neg, if_neg]
    · exact not_or.mpr ⟨hne, hdir⟩
    · exact not_or.mpr ⟨hne, fun hmem' => hdir (hmem.mp hmem')⟩

theorem store_index_eq (h : Framed (RunFile reader app receipt_dir w) (RunDir reader app receipt_dir w)
    w.tree t) : (store_of reader t).index = (store_of reader w.tree).index := by
  have hfile : t.file store_index_path = w.tree.file store_index_path := by
    refine h.file fun hfile => ?_
    obtain ⟨hreceipt, -⟩ := receipt_of_runFile hfile (by decide) (List.cons_ne_nil _ _)
    have hmem := underscore_of_receipt
      (show (bogos_dir ++ ["store".toList]) ++ ["index.json".toList] = _ from hreceipt)
    exact absurd hmem (by decide)
  rw [store_of, store_of, hfile]

theorem verify_workspace_package_eq (h : Framed (RunFile reader app receipt_dir w)
    (RunDir reader app receipt_dir w) w.tree t) (hlaid : Laidout reader w)
    (hapart : PlaceApart reader receipt_dir w) (package : String) :
    verify_workspace_package reader t package = verify_workspace_package reader w.tree package := by
  have hdir {key dir : String} (hkey : key = "package_dir" ∨ key = "install_dir")
      (hnamed : NamedDir (store_of reader w.tree) key dir) :
      directory_at reader t dir = directory_at reader w.tree dir := by
    rw [directory_at, directory_at]
    cases hlocate : reader.locate dir with
    | none => rfl
    | some p =>
      have hplace : NamedPlace reader w.tree p := ⟨key, dir, hkey, hnamed, hlocate⟩
      obtain ⟨area, name, hp⟩ := hlaid.packages p hplace
      exact directory_eq h hp (hapart.packages p hplace)
  rw [verify_workspace_package, verify_workspace_package, keys_of, keys_of,
    trusted_public_keys_eq h hapart]
  refine verify_installed_package_congr (store_index_eq h) (fun dir hnamed => ?_) fun dir hnamed => ?_
  · exact congrArg (Option.map (loaded reader)) (hdir (.inl rfl) hnamed)
  · exact hdir (.inr rfl) hnamed

theorem file_loaded {q : Path} : (loaded reader t).file q =
    (t.file q).map fun data => ⟨data, reader.load data⟩ := by
  unfold Tree.file loaded
  rw [Framed.lookup_eq_filterMap, Framed.lookup_eq_filterMap, List.filterMap_map, ← List.head?_map,
    List.map_filterMap]
  refine congrArg List.head? (List.filterMap_congr fun x _ => ?_)
  rw [Function.comp_apply, apply_ite (Option.map _)]
  rfl

theorem verify_workspace_archive_eq (h : Framed (RunFile reader app receipt_dir w)
    (RunDir reader app receipt_dir w) w.tree t) {path : Path} {name : List Char}
    (hpath : path = bogos_dir ++ ["archives".toList, name]) :
    verify_workspace_archive reader t path = verify_workspace_archive reader w.tree path := by
  refine verify_directory_archive_congr fun q hq => ?_
  rw [file_loaded, file_loaded, file_at_path, file_at_path]
  refine congrArg _ (h.file fun hfile => ?_)
  have hread := underscore_not_mem_archive hq
  rw [hpath, List.append_assoc] at hfile
  obtain ⟨hreceipt, -⟩ := receipt_of_runFile hfile (by decide) (by simp)
  rcases List.eq_nil_or_concat q with rfl | ⟨q', last, rfl⟩
  · exact ne_nil_of_archivePath hq rfl
  · rw [List.concat_eq_append] at hreceipt hread
    have hmem := underscore_of_receipt
      (show (bogos_dir ++ ["archives".toList, name] ++ q') ++ [last] = _ by simpa using hreceipt)
    exact hread last (by simp) hmem

/-! ### Receipts -/

theorem receipt_file_name_injective {letters : Char → Bool} {n k : ℕ} {action action' name name' : String}
    (h : receipt_file_name letters n action name = receipt_file_name letters k action' name') : n = k := by
  have hdigits (n : ℕ) (action name : String) :
      (receipt_file_name letters n action name).takeWhile Char.isDigit = ZeroPadding.zero_padded 4 n := by
    rw [receipt_file_name, List.takeWhile_append_of_pos fun _ => ZeroPadding.isDigit_of_mem_zero_padded,
      List.takeWhile_cons_of_neg (by decide), List.append_nil]
  have hsame := congrArg (List.takeWhile Char.isDigit) h
  rw [hdigits, hdigits] at hsame
  exact ZeroPadding.zero_padded_injective hsame

theorem mem_listed_paths {letters : Char → Bool} {receipts : List ListedReceipt} {p : Path} :
    p ∈ listed_paths letters receipts ↔
      ∃ i, ∃ h : i < receipts.length, p = receipts[i].path letters (i + 1) := by
  simp only [listed_paths, List.mem_mapIdx, eq_comm]

/-- The receipt of a run is none of the listed ones, and the state is none. -/
theorem listed_ne {p : Path} (hp : p ∈ listed_paths reader.letters w.receipts) :
    p ≠ receipt_of_run reader app receipt_dir w ∧ p ≠ state_path := by
  obtain ⟨i, hi, rfl⟩ := mem_listed_paths.mp hp
  constructor
  · intro heq
    obtain ⟨-, hname⟩ := List.append_inj' heq rfl
    have hsame := receipt_file_name_injective (List.cons.inj hname).1
    omega
  · intro heq
    obtain ⟨-, hname⟩ := List.append_inj' (show _ ++ [_] = bogos_dir ++ ["state.json".toList] from heq) rfl
    have hmem := @underscore_mem_receipt reader.letters (i + 1) w.receipts[i].action w.receipts[i].name
    rw [(List.cons.inj hname).1] at hmem
    exact absurd hmem (by decide)

end Areas

/-! ## Receipts that lie apart -/

section Run

variable {reader : WorkspaceReader} {app : VerifiedApp reader} {receipt_dir : Path} {w : RunWorkspace}

/-- The receipt directory of the app is apart; a receipt path that is not resolved is never used. -/
def Apart (reader : WorkspaceReader) (app : VerifiedApp reader) (w : RunWorkspace) : Prop :=
  ∀ receipt_dir, resolve_policy_receipt_path reader.links app.receipt_path = .ok receipt_dir →
    ReceiptApart reader app receipt_dir w

theorem harmless_of_framed {w' : RunWorkspace} (h : Framed (RunFile reader app receipt_dir w)
    (RunDir reader app receipt_dir w) w.tree w'.tree) (hlaid : Laidout reader w)
    (hapart : PlaceApart reader receipt_dir w)
    (hreceipts : ∀ p ∈ listed_paths reader.letters w.receipts, w'.tree.file p = w.tree.file p) :
    Harmless reader w w' where
  packages package := verify_workspace_package_eq h hlaid hapart package
  archives archive harchive := by
    obtain ⟨name, hpath⟩ := hlaid.archives archive harchive
    exact verify_workspace_archive_eq h hpath
  keys := trusted_public_keys_eq h hapart
  ledger := verify_workspace_ledger_eq h hapart
  receipts := hreceipts

/-- Without a receipt directory the run stops before it has changed a file. -/
theorem framed_unresolved {output : ProcessOutput} {texts : RunTexts} {e : PyError}
    (hdir : resolve_policy_receipt_path reader.links app.receipt_path = .error e) :
    Framed (fun _ => False) (fun d => d <+: runtime_dir app.name) w.tree
      (after (run_app reader app output texts w)).tree := by
  rw [run_app]
  refine after_bind (P := fun v : RunWorkspace => Framed (fun _ => False)
    (fun d => d <+: runtime_dir app.name) w.tree v.tree) ?_ fun _ v hv => ?_
  · rw [tree_after_on_tree]
    exact (framed_make_dirs ⟨w.tree, []⟩).mono (fun _ hp => hp) fun _ hd => hd.1
  · rw [hdir, bind_of_error ofExcept_error]
    exact hv

theorem placeApart_nil (hlaid : Laidout reader w) : PlaceApart reader [] w where
  packages p hp hbelow := by
    obtain ⟨area, name, rfl⟩ := hlaid.packages p hp
    exact absurd (List.prefix_nil.mp hbelow) (by simp)
  ledger := by decide
  entries _ _ hbelow := absurd (List.prefix_nil.mp hbelow) (by simp)
  keys _ _ hbelow := absurd (List.prefix_nil.mp hbelow) (by simp)

/-- A run of an app whose receipts lie apart is harmless, whatever the process leaves. -/
theorem harmless_of_apart (hlaid : Laidout reader w) (hapart : Apart reader app w)
    (output : ProcessOutput) (texts : RunTexts) :
    Harmless reader w (after (run_app reader app output texts w)) := by
  cases hdir : resolve_policy_receipt_path reader.links app.receipt_path with
  | error e =>
    have hframed := @framed_unresolved reader app w output texts e hdir
    have hrun : Framed (RunFile reader app [] w) (RunDir reader app [] w) w.tree
        (after (run_app reader app output texts w)).tree :=
      hframed.mono (fun _ hp => hp.elim) fun _ hd => .inl (.inr hd)
    exact harmless_of_framed hrun hlaid (placeApart_nil hlaid) fun p _ => hframed.file id
  | ok receipt_dir =>
    have hdirs := hapart receipt_dir hdir
    have hframed := @framed_run_app reader app output texts w receipt_dir hdir hdirs.own
    refine harmless_of_framed hframed hlaid hdirs.toPlaceApart fun p hp => hframed.file ?_
    obtain ⟨hreceipt, hstate⟩ := @listed_ne reader app receipt_dir w p hp
    rintro (hown | ⟨heq, -⟩ | heq)
    · exact hdirs.receipts p hp hown
    · exact hreceipt heq
    · exact hstate heq

end Run

end Bogbin.Bogvm
