import Bogbin.Bogvm.ArchiveTree
import Bogbin.Bogvm.Ledger

/-!
# Verifying and restoring an archive

`verify_directory_archive` reads all objects, and `restore_directory_archive` needs more: paths that
fit next to each other below one directory.  It empties the directory first, so a failed restore
leaves nothing of it.  The two agree exactly on the archives that are `Restorable`
(`archive_restore_agrees_iff`).
-/

namespace Bogbin.Bogvm

open StateExcept

/-! ## The tree hash -/

section TreeHash

variable {l l' : List TreeFile}

theorem tree_file_le_trans (a b c : TreeFile) (hab : tree_file_le a b = true)
    (hbc : tree_file_le b c = true) : tree_file_le a c = true :=
  decide_eq_true (String.le_trans (of_decide_eq_true hab) (of_decide_eq_true hbc))

theorem tree_file_le_total (a b : TreeFile) : (tree_file_le a b || tree_file_le b a) = true := by
  simpa [tree_file_le] using String.le_total a.path b.path

/-- The tree hash does not depend on the order of files with different paths. -/
theorem tree_hash_perm (h : l.Perm l') (hnodup : (l.map (·.path)).Nodup) :
    tree_hash l = tree_hash l' := by
  have hsorted := List.pairwise_mergeSort tree_file_le_trans tree_file_le_total
  have hl := List.mergeSort_perm l tree_file_le
  have hl' := List.mergeSort_perm l' tree_file_le
  rw [tree_hash, tree_hash]
  congr 2
  refine List.Perm.eq_of_pairwise (fun a b ha hb hab hba => ?_) (hsorted l) (hsorted l')
    ((hl.trans h).trans hl'.symm)
  have hpath := String.le_antisymm (of_decide_eq_true hab) (of_decide_eq_true hba)
  exact List.inj_on_of_nodup_map hnodup (hl.mem_iff.mp ha) (h.mem_iff.mpr (hl'.mem_iff.mp hb)) hpath

theorem tree_hash_for_directory_eq {root : Tree Bytes}
    (hnodup : (root.files.map fun f => as_posix f.1).Nodup) :
    tree_hash_for_directory root = tree_hash (root.files.map fun f => read_file (as_posix f.1) f.2) := by
  rw [tree_hash_for_directory]
  refine tree_hash_perm ((List.mergeSort_perm _ _).map _) ?_
  rw [List.map_map]
  exact (((List.mergeSort_perm root.files path_le).map fun f => as_posix f.1).nodup_iff).mpr hnodup

end TreeHash

/-! ## Manifests that were built -/

section Build

variable {d : Dict} {keys : List String} {key source : String} {value : Json} {entry : ManifestEntry}
  {entries : List ManifestEntry} {archive : Tree File}

theorem only_keys_set (hd : only_keys d keys = true) (hkey : key ∈ keys) :
    only_keys (Dict.set d key value) keys = true := by
  induction d with
  | nil => simpa [Dict.set, only_keys] using hkey
  | cons field rest ih =>
    obtain ⟨k, v⟩ := field
    rw [only_keys, List.all_cons, Bool.and_eq_true] at hd
    rw [Dict.set]
    split_ifs
    · exact List.all_cons.trans (by rw [hd.2]; simpa using hkey)
    · simp only [only_keys, List.all_cons, hd.1, hd.2, Bool.and_true, decide_eq_true_eq]
      exact hkey
    · exact List.all_cons.trans (by rw [hd.1]; exact ih hd.2)

theorem only_keys_of {items : List (String × Json)} (h : ∀ item ∈ items, item.1 ∈ keys) :
    only_keys (Dict.of items) keys = true := by
  have hfold (l : List (String × Json)) (hl : ∀ item ∈ l, item.1 ∈ keys) (d : Dict)
      (hd : only_keys d keys = true) :
      only_keys (l.foldl (fun d item => Dict.set d item.1 item.2) d) keys = true := by
    induction l generalizing d with
    | nil => exact hd
    | cons item l ih =>
      exact ih (fun i hi => hl i (List.mem_cons_of_mem _ hi)) _
        (only_keys_set hd (hl item List.mem_cons_self))
  exact hfold items h [] rfl

/-- What the schema asks of an entry. -/
structure ValidEntry (entry : ManifestEntry) : Prop where
  path : entry.path ≠ ""
  size : whole_number entry.size = true
  sha256 : hex_pattern 64 entry.sha256 = true
  object : object_pattern entry.object = true

theorem manifest_entry_of_valid (h : ValidEntry entry) :
    manifest_entry entry.to_json = some entry := by
  have hkeys : only_keys (Dict.of [("path", .str entry.path), ("size", entry.size),
      ("sha256", .str entry.sha256), ("object", .str entry.object)])
      ["path", "size", "sha256", "object"] = true := only_keys_of (by simp)
  rw [ManifestEntry.to_json, manifest_entry, hkeys]
  simp [Dict.of, Dict.get_set, h.path, h.size, h.sha256, h.object]

theorem mapM_manifest_entry (h : ∀ e ∈ entries, ValidEntry e) :
    (entries.map (·.to_json)).mapM manifest_entry = some entries := by
  induction entries with
  | nil => rfl
  | cons e entries ih =>
    rw [List.map_cons, List.mapM_cons, manifest_entry_of_valid (h e List.mem_cons_self),
      ih fun e he => h e (List.mem_cons_of_mem _ he)]
    rfl

theorem manifest_of_build (h : ∀ e ∈ entries, ValidEntry e) :
    manifest_of (.obj (build_manifest source entries)) =
      some ⟨.int entries.length, entries, tree_hash (entries.map (·.tree_file))⟩ := by
  have hfiles := mapM_manifest_entry h
  have hhash : hex_pattern 64 (tree_hash (entries.map (·.tree_file))) = true :=
    hex_pattern_hexdigest _
  unfold build_manifest
  generalize tree_hash (entries.map (·.tree_file)) = hash at hhash
  generalize entries.map (·.to_json) = files at hfiles
  rw [manifest_of, only_keys_of (by simp)]
  simp [Dict.of, Dict.get_set, str_field, whole_number, hhash, hfiles]

theorem read_archive_manifest_of {file : File} {v : Json} {manifest : Manifest}
    (hfile : archive.file ["manifest.json".toList] = some file) (hcontent : file.content = .value v)
    (hmanifest : manifest_of v = some manifest)
    (hcount : manifest.file_count.py_eq (.int manifest.files.length) = true)
    (hhash : tree_hash (manifest.files.map (·.tree_file)) = manifest.tree_sha256) :
    read_archive_manifest archive = .ok manifest := by
  rw [read_archive_manifest, hfile, Option.map_some, hcontent]
  dsimp only
  rw [hmanifest]
  dsimp only
  rw [if_neg (by simp [hcount]), if_neg (not_not.mpr hhash)]

/-- The manifest that was built is read back. -/
theorem read_build_manifest
    (hfile : archive.file ["manifest.json".toList] = some (json_file (build_manifest source entries)))
    (h : ∀ e ∈ entries, ValidEntry e) :
    read_archive_manifest archive =
      .ok ⟨.int entries.length, entries, tree_hash (entries.map (·.tree_file))⟩ :=
  read_archive_manifest_of hfile rfl (manifest_of_build h) (by simp) rfl

end Build

/-! ## Success of the two functions -/

section Success

variable {host : Host} {archive : Tree File} {manifest : Manifest} {entries : List ManifestEntry}
  {files : List TreeFile} {output : Output}

/-- All files are read and their tree hash is the one of the manifest. -/
def Verified (host : Host) (archive : Tree File) (manifest : Manifest) : Prop :=
  ∃ files, read_files host archive manifest manifest.files = .ok files ∧
    tree_hash files = manifest.tree_sha256

theorem verify_files_eq_iff :
    verify_files host archive manifest entries = ([], files) ↔
      read_files host archive manifest entries = .ok files := by
  induction entries generalizing files with
  | nil => simp [verify_files, read_files, eq_comm]
  | cons entry entries ih =>
    rw [verify_files, read_files_cons_eq_ok]
    cases read_archive_file host archive manifest entry.path with
    | error e => simp
    | ok data =>
      simp only [Prod.mk.injEq, Except.ok.injEq]
      constructor
      · rintro ⟨hnil, rfl⟩
        exact ⟨data, _, rfl, ih.mp (Prod.ext hnil rfl), rfl⟩
      · rintro ⟨data', rest, rfl, hrest, rfl⟩
        rw [ih.mpr hrest]
        exact ⟨rfl, rfl⟩

/-- A completed verification. -/
def VerifyCompleted (host : Host) (archive : Tree File) : Prop :=
  ∃ report, verify_directory_archive host archive = .ok report ∧ report.completed = true

theorem verifyCompleted_iff : VerifyCompleted host archive ↔
    ∃ manifest, read_archive_manifest archive = .ok manifest ∧ Verified host archive manifest := by
  rw [VerifyCompleted, verify_directory_archive]
  cases read_archive_manifest archive with
  | error e => cases e <;> simp [ArchiveReport.completed]
  | ok manifest =>
    simp only [Except.ok.injEq, exists_eq_left', ArchiveReport.completed, List.isEmpty_iff,
      List.append_eq_nil_iff, ite_eq_right_iff, reduceCtorEq, imp_false, not_and, not_not]
    constructor
    · rintro ⟨hnil, hhash⟩
      exact ⟨_, verify_files_eq_iff.mp (Prod.ext hnil rfl), hhash hnil⟩
    · rintro ⟨files, hread, hhash⟩
      rw [verify_files_eq_iff.mpr hread]
      exact ⟨rfl, fun _ => hhash⟩

/-- The files of the manifest are read and fit below one directory. -/
structure Extractable (host : Host) (archive : Tree File) (manifest : Manifest) : Prop where
  verified : Verified host archive manifest
  nonempty : ∀ p ∈ parts_of manifest.files, p ≠ []
  admitted : ∀ p ∈ parts_of manifest.files, ∀ name ∈ p, host.admits name = true
  apart : ∀ p ∈ parts_of manifest.files, ∀ q ∈ parts_of manifest.files, p <+: q → p = q

theorem restore_of_manifest (hmanifest : read_archive_manifest archive = .ok manifest) :
    restore_directory_archive host archive output =
      (do
        let restored ← restore_files host archive manifest manifest.files
        if tree_hash restored = manifest.tree_sha256 then return tree_hash restored
        else throw .ArchiveError : EStateM PyError Output String) { output with tree := .empty } := by
  rw [restore_directory_archive, hmanifest]
  rfl

theorem restore_of_error {e : PyError} (h : read_archive_manifest archive = .error e) :
    restore_directory_archive host archive output = .error e output := by
  rw [restore_directory_archive, h]
  rfl

theorem restore_eq_ok {hash : String} {output' : Output}
    (hmanifest : read_archive_manifest archive = .ok manifest)
    (h : restore_directory_archive host archive output = .ok hash output') :
    hash = manifest.tree_sha256 ∧ output'.strayed = output.strayed ∧
      Extractable host archive manifest ∧
      Laid host (parts_of manifest.files) output'.tree := by
  rw [restore_of_manifest hmanifest] at h
  obtain ⟨restored, middle, hfiles, hcheck⟩ := StateExcept.bind_eq_ok.mp h
  obtain ⟨hread, hstrayed, hlaid⟩ := Laid.restore_files laid_empty hfiles
  rw [List.nil_append] at hlaid
  split_ifs at hcheck with hhash
  · obtain ⟨rfl, rfl⟩ : tree_hash restored = hash ∧ middle = output' := by simpa using hcheck
    exact ⟨hhash, hstrayed,
      ⟨⟨restored, hread, hhash⟩, hlaid.nonempty, hlaid.admitted, hlaid.apart⟩, hlaid⟩
  · simp at hcheck

theorem Extractable.ends (h : Extractable host archive manifest)
    (hmanifest : read_archive_manifest archive = .ok manifest) :
    Ends (restore_directory_archive host archive) output := by
  obtain ⟨files, hread, hhash⟩ := h.verified
  obtain ⟨restored, middle, hfiles⟩ : Ends (restore_files host archive manifest manifest.files)
      { output with tree := .empty } :=
    Laid.ends_restore_files laid_empty ⟨files, hread⟩ h.nonempty h.admitted (by simpa using h.apart)
  obtain ⟨hread', -, -⟩ := Laid.restore_files laid_empty hfiles
  obtain rfl : files = restored := by simpa [hread] using hread'
  refine ⟨tree_hash files, middle, ?_⟩
  rw [restore_of_manifest hmanifest, bind_of_ok hfiles, if_pos hhash]
  rfl

/-- Restoring an archive succeeds exactly on the extractable ones. -/
theorem ends_restore_iff : Ends (restore_directory_archive host archive) output ↔
    ∃ manifest, read_archive_manifest archive = .ok manifest ∧
      Extractable host archive manifest := by
  constructor
  · rintro ⟨hash, output', h⟩
    cases hmanifest : read_archive_manifest archive with
    | error e =>
      rw [restore_of_error hmanifest] at h
      cases h
    | ok manifest => exact ⟨manifest, rfl, (restore_eq_ok hmanifest h).2.2.1⟩
  · rintro ⟨manifest, hmanifest, h⟩
    exact h.ends hmanifest

end Success

/-! ## Agreement -/

section Agreement

variable {host : Host} {archive : Tree File} {manifest : Manifest} {entry : ManifestEntry}
  {entries : List ManifestEntry}

/-- The directory that restoring the archive makes is the one that the archive describes. -/
structure Restored (archive : Tree File) (root : Tree Bytes) : Prop where
  tree_hash : ∀ manifest, read_archive_manifest archive = .ok manifest →
    tree_hash_for_directory root = manifest.tree_sha256
  paths : ∀ manifest, read_archive_manifest archive = .ok manifest →
    (root.files.map fun f => as_posix f.1).Perm (manifest.files.map (·.path))

/-- Verifying and restoring agree for a directory, and a failed restore leaves it as it was. -/
structure Agrees (host : Host) (archive : Tree File) (output : Tree Bytes) : Prop where
  restores : VerifyCompleted host archive → ∃ hash output',
    restore_directory_archive host archive ⟨output, []⟩ = .ok hash output' ∧
      output'.strayed = [] ∧ Restored archive output'.tree
  intact : ∀ e output', restore_directory_archive host archive ⟨output, []⟩ = .error e output' →
    output'.tree = output ∧ output'.strayed = []

/-- The bytes in the object of an entry. -/
def object_data (host : Host) (archive : Tree File) (entry : ManifestEntry) : Option Bytes :=
  (archive.file (path_parts entry.object)).bind fun object => host.decode object.data

/-- The object of an entry holds the bytes that the entry promises. -/
def ObjectIntact (host : Host) (archive : Tree File) (entry : ManifestEntry) : Prop :=
  ∃ data, object_data host archive entry = some data ∧
    (Json.int data.length).py_eq entry.size = true ∧ hexdigest data = entry.sha256

/-- The archive has intact objects, and its paths are plain, different and none on the way to
another one. -/
structure Restorable (host : Host) (archive : Tree File) (manifest : Manifest) : Prop where
  contained : ∀ e ∈ manifest.files, is_contained e.path = true
  objects : ∀ e ∈ manifest.files, ObjectIntact host archive e
  tree_hash : tree_hash (manifest.files.map fun e =>
    read_file e.path ((object_data host archive e).getD [])) = manifest.tree_sha256
  plain : ∀ e ∈ manifest.files, as_posix (path_parts e.path) = e.path
  distinct : (manifest.files.map (·.path)).Nodup
  nonempty : ∀ p ∈ parts_of manifest.files, p ≠ []
  admitted : ∀ p ∈ parts_of manifest.files, ∀ name ∈ p, host.admits name = true
  apart : ∀ p ∈ parts_of manifest.files, ∀ q ∈ parts_of manifest.files, p <+: q → p = q

theorem find?_path_eq (hdistinct : (entries.map (·.path)).Nodup) (hmem : entry ∈ entries) :
    entries.find? (·.path = entry.path) = some entry := by
  induction entries with
  | nil => exact absurd hmem List.not_mem_nil
  | cons e entries ih =>
    rw [List.map_cons, List.nodup_cons] at hdistinct
    rcases List.mem_cons.mp hmem with rfl | hmem
    · simp
    · have hne : e.path ≠ entry.path := fun heq =>
        hdistinct.1 (heq ▸ List.mem_map_of_mem hmem)
      rw [List.find?_cons_of_neg (by simpa using hne), ih hdistinct.2 hmem]

theorem read_archive_file_eq_ok {data : Bytes}
    (hdistinct : (manifest.files.map (·.path)).Nodup) (hmem : entry ∈ manifest.files) :
    read_archive_file host archive manifest entry.path = .ok data ↔
      is_contained entry.path = true ∧ object_data host archive entry = some data ∧
        (Json.int data.length).py_eq entry.size = true ∧ hexdigest data = entry.sha256 := by
  rw [read_archive_file, find?_path_eq hdistinct hmem, object_data]
  dsimp only
  by_cases hcontained : is_contained entry.path = true
  · rw [if_neg (by simp [hcontained])]
    cases archive.file (path_parts entry.object) with
    | none => simp
    | some object =>
      cases hdecode : host.decode object.data with
      | none => simp [hdecode]
      | some decoded =>
        simp only [hdecode, Option.bind_some, Option.some.injEq, Bool.not_eq_true', hcontained,
          true_and]
        split_ifs with hbad
        · refine ⟨fun h => (by cases h), ?_⟩
          rintro ⟨rfl, hsize, hhash⟩
          rcases hbad with hbad | hbad
          · rw [hsize] at hbad
            cases hbad
          · exact absurd hhash hbad
        · rw [not_or, Bool.not_eq_false, not_not] at hbad
          constructor
          · intro h
            obtain rfl := Except.ok.inj h
            exact ⟨rfl, hbad⟩
          · rintro ⟨rfl, -⟩
            rfl
  · rw [if_pos (by simpa using hcontained)]
    simp [hcontained]

theorem read_files_of_objects (hdistinct : (manifest.files.map (·.path)).Nodup)
    (hsub : ∀ e ∈ entries, e ∈ manifest.files)
    (hcontained : ∀ e ∈ entries, is_contained e.path = true)
    (hobjects : ∀ e ∈ entries, ObjectIntact host archive e) :
    read_files host archive manifest entries =
      .ok (entries.map fun e => read_file e.path ((object_data host archive e).getD [])) := by
  induction entries with
  | nil => rfl
  | cons entry entries ih =>
    obtain ⟨data, hdata, hsize, hhash⟩ := hobjects entry List.mem_cons_self
    have hread := (read_archive_file_eq_ok hdistinct (hsub entry List.mem_cons_self)).mpr
      ⟨hcontained entry List.mem_cons_self, hdata, hsize, hhash⟩
    refine read_files_cons_eq_ok.mpr ⟨data, _, hread, ih ?_ ?_ ?_, by rw [List.map_cons, hdata]; rfl⟩
    · exact fun e he => hsub e (List.mem_cons_of_mem _ he)
    · exact fun e he => hcontained e (List.mem_cons_of_mem _ he)
    · exact fun e he => hobjects e (List.mem_cons_of_mem _ he)

theorem objects_of_read_files {files : List TreeFile}
    (hdistinct : (manifest.files.map (·.path)).Nodup) (hsub : ∀ e ∈ entries, e ∈ manifest.files)
    (hread : read_files host archive manifest entries = .ok files) :
    (∀ e ∈ entries, is_contained e.path = true) ∧
      (∀ e ∈ entries, ObjectIntact host archive e) := by
  induction entries generalizing files with
  | nil => exact ⟨nofun, nofun⟩
  | cons entry entries ih =>
    obtain ⟨data, rest, hdata, hrest, -⟩ := read_files_cons_eq_ok.mp hread
    obtain ⟨hc, hobject⟩ :=
      (read_archive_file_eq_ok hdistinct (hsub entry List.mem_cons_self)).mp hdata
    obtain ⟨hcontained, hobjects⟩ := ih (fun e he => hsub e (List.mem_cons_of_mem _ he)) hrest
    exact ⟨List.forall_mem_cons.mpr ⟨hc, hcontained⟩,
      List.forall_mem_cons.mpr ⟨⟨data, hobject⟩, hobjects⟩⟩

theorem Restorable.extractable (h : Restorable host archive manifest) :
    Extractable host archive manifest :=
  ⟨⟨_, read_files_of_objects h.distinct (fun _ he => he) h.contained h.objects, h.tree_hash⟩,
    h.nonempty, h.admitted, h.apart⟩

/-! ### The restored directory -/

/-- The files below a directory, as their tree hash has them. -/
def listing (root : Tree Bytes) : List TreeFile :=
  root.files.map fun f => read_file (as_posix f.1) f.2

theorem map_path_listing (root : Tree Bytes) :
    (listing root).map (·.path) = root.files.map fun f => as_posix f.1 := by
  rw [listing, List.map_map]
  rfl

theorem map_path_read_files {files : List TreeFile}
    (h : read_files host archive manifest entries = .ok files) :
    files.map (·.path) = entries.map (·.path) := by
  induction entries generalizing files with
  | nil =>
    obtain rfl : files = [] := by simpa [read_files, eq_comm] using h
    rfl
  | cons entry entries ih =>
    obtain ⟨data, rest, -, hrest, rfl⟩ := read_files_cons_eq_ok.mp h
    rw [List.map_cons, List.map_cons, ih hrest]
    rfl

/-- With plain and different paths every restored file stands in the directory as it was read. -/
theorem Laid.listing_restore_files {ps : List Path} {files : List TreeFile}
    {output output' : Output} (h : Laid host ps output.tree)
    (hok : Bogvm.restore_files host archive manifest entries output = .ok files output')
    (hplain : ∀ e ∈ entries, as_posix (path_parts e.path) = e.path)
    (hnodup : (ps ++ parts_of entries).Nodup) :
    listing output'.tree = listing output.tree ++ files := by
  induction entries generalizing ps files output with
  | nil =>
    obtain ⟨rfl, rfl⟩ : files = [] ∧ output' = output := by
      simpa [Bogvm.restore_files, eq_comm] using hok
    exact (List.append_nil _).symm
  | cons entry entries ih =>
    rw [Bogvm.restore_files] at hok
    obtain ⟨file, middle, hfile, hafter⟩ := StateExcept.bind_eq_ok.mp hok
    obtain ⟨rest, last, hrest, hreturn⟩ := StateExcept.bind_eq_ok.mp hafter
    obtain ⟨rfl, rfl⟩ : file :: rest = files ∧ last = output' := by simpa using hreturn
    obtain ⟨data, -, rfl, -, htree, hlaid⟩ := h.restore_file hfile
    have hfresh : path_parts entry.path ∉ output.tree.paths := by
      rw [h.files]
      intro hmem
      exact List.disjoint_of_nodup_append hnodup hmem (by simp [parts_of])
    have hmiddle : listing middle.tree = listing output.tree ++ [read_file entry.path data] := by
      rw [listing, htree, Tree.put_of_not_mem hfresh, List.map_append, listing, List.map_singleton,
        hplain entry List.mem_cons_self]
    rw [ih hlaid hrest (fun e he => hplain e (List.mem_cons_of_mem _ he))
      (by simpa [parts_of] using hnodup), hmiddle, List.append_assoc, List.singleton_append]

theorem Restorable.nodup_parts (h : Restorable host archive manifest) :
    (parts_of manifest.files).Nodup := by
  refine List.Nodup.of_map as_posix ?_
  have hsame : (parts_of manifest.files).map as_posix = manifest.files.map (·.path) := by
    rw [parts_of, List.map_map]
    exact List.map_congr_left h.plain
  rw [hsame]
  exact h.distinct

theorem Restorable.restored {output output' : Output} {hash : String}
    (h : Restorable host archive manifest)
    (hmanifest : read_archive_manifest archive = .ok manifest)
    (hok : restore_directory_archive host archive output = .ok hash output') :
    Restored archive output'.tree := by
  rw [restore_of_manifest hmanifest] at hok
  obtain ⟨restored, middle, hfiles, hcheck⟩ := StateExcept.bind_eq_ok.mp hok
  obtain ⟨hread, -, -⟩ := Laid.restore_files laid_empty hfiles
  have hlisting := Laid.listing_restore_files laid_empty hfiles h.plain (by simpa using h.nodup_parts)
  have hpaths := map_path_read_files hread
  split_ifs at hcheck with hhash
  · obtain ⟨-, rfl⟩ : Bogvm.tree_hash restored = hash ∧ middle = output' := by
      simpa using hcheck
    have hlist : listing middle.tree = restored := hlisting
    refine ⟨fun m hm => ?_, fun m hm => ?_⟩ <;> obtain rfl := Except.ok.inj (hmanifest.symm.trans hm)
    · rw [tree_hash_for_directory_eq, ← listing, hlist, hhash]
      rw [← map_path_listing, hlist, hpaths]
      exact h.distinct
    · rw [← map_path_listing, hlist, hpaths]
  · simp at hcheck

/-- A restorable archive agrees for every directory. -/
theorem Restorable.agrees (h : Restorable host archive manifest)
    (hmanifest : read_archive_manifest archive = .ok manifest) (output : Tree Bytes) :
    Agrees host archive output := by
  obtain ⟨hash, output', hok⟩ : Ends (restore_directory_archive host archive) ⟨output, []⟩ :=
    h.extractable.ends hmanifest
  refine ⟨fun _ => ⟨hash, output', hok, (restore_eq_ok hmanifest hok).2.1,
    h.restored hmanifest hok⟩, fun e output'' herror => ?_⟩
  rw [hok] at herror
  cases herror

/-- Without a manifest nothing is verified and nothing is changed. -/
theorem agrees_of_error {e : PyError} (h : read_archive_manifest archive = .error e)
    (output : Tree Bytes) : Agrees host archive output := by
  refine ⟨fun hcompleted => ?_, fun e' output' herror => ?_⟩
  · obtain ⟨manifest, hmanifest, -⟩ := verifyCompleted_iff.mp hcompleted
    rw [h] at hmanifest
    cases hmanifest
  · rw [restore_of_error h] at herror
    obtain ⟨-, rfl⟩ := EStateM.Result.error.inj herror
    exact ⟨rfl, rfl⟩

/-- When the archive agrees for two different directories, restoring it succeeds: a failed restore
leaves the same files in both. -/
theorem ends_restore_of_agrees (hmanifest : read_archive_manifest archive = .ok manifest)
    (h : ∀ output, Agrees host archive output) :
    Ends (restore_directory_archive host archive) ⟨.empty, []⟩ := by
  cases hresult : restore_directory_archive host archive ⟨.empty, []⟩ with
  | ok hash output' => exact ⟨hash, output', hresult⟩
  | error e output' =>
    let other : Tree Bytes := ⟨[([['a']], [])], []⟩
    have hsame : restore_directory_archive host archive ⟨other, []⟩ = .error e output' := by
      rw [restore_of_manifest hmanifest] at hresult ⊢
      exact hresult
    have hempty := ((h .empty).intact e output' hresult).1
    have hother := ((h other).intact e output' hsame).1
    have hfiles := congrArg Tree.files (hempty.symm.trans hother)
    cases hfiles

theorem restorable_of_agrees (hmanifest : read_archive_manifest archive = .ok manifest)
    (h : ∀ output, Agrees host archive output) : Restorable host archive manifest := by
  obtain ⟨hash, output', hok⟩ := ends_restore_of_agrees hmanifest h
  obtain ⟨-, -, hextract, hlaid⟩ := restore_eq_ok hmanifest hok
  have hverified := verifyCompleted_iff.mpr ⟨manifest, hmanifest, hextract.verified⟩
  obtain ⟨_, _, hok', -, hrestored⟩ := (h .empty).restores hverified
  obtain ⟨-, rfl⟩ := EStateM.Result.ok.inj (hok.symm.trans hok')
  have hperm := hrestored.paths manifest hmanifest
  have hplainPart : ∀ p ∈ output'.tree.paths, p ≠ [] ∧ ∀ part ∈ p, PlainPart part := by
    intro p hp
    obtain ⟨e, he, rfl⟩ := List.mem_map.mp ((hlaid.files p).mp hp)
    exact ⟨hextract.nonempty _ (List.mem_map_of_mem he), fun part => plainPart_of_mem⟩
  have hback : ∀ p ∈ output'.tree.paths, path_parts (as_posix p) = p := fun p hp =>
    path_parts_as_posix (hplainPart p hp).1 (hplainPart p hp).2
  have hdistinct : (manifest.files.map (·.path)).Nodup := by
    refine hperm.nodup_iff.mp ?_
    have hmap : (output'.tree.files.map fun f => as_posix f.1) = output'.tree.paths.map as_posix := by
      rw [Tree.paths, List.map_map]
      rfl
    rw [hmap]
    refine List.Nodup.map_on (fun p hp q hq heq => ?_) hlaid.nodup
    rw [← hback p hp, heq, hback q hq]
  have hplain : ∀ e ∈ manifest.files, as_posix (path_parts e.path) = e.path := by
    intro e he
    obtain ⟨f, hf, hpath⟩ := List.mem_map.mp (hperm.mem_iff.mpr (List.mem_map_of_mem he))
    rw [← hpath, hback f.1 (List.mem_map_of_mem hf)]
  obtain ⟨files, hread, hhash⟩ := hextract.verified
  obtain ⟨hcontained, hobjects⟩ := objects_of_read_files hdistinct (fun _ he => he) hread
  have hfiles := read_files_of_objects hdistinct (fun _ he => he) hcontained hobjects
  obtain rfl := Except.ok.inj (hread.symm.trans hfiles)
  exact ⟨hcontained, hobjects, hhash, hplain, hdistinct, hextract.nonempty, hextract.admitted,
    hextract.apart⟩

end Agreement

/-! ### An archive without its object -/

/-- A manifest with one file. -/
def lone_entry : ManifestEntry where
  path := "x"
  size := .int 1
  sha256 := ZERO_HASH
  object := "objects/0000000000000000000000000000000000000000000000000000000000000000.bogpk"

def lone_archive : Tree File where
  files := [(["manifest.json".toList], json_file (build_manifest "source" [lone_entry]))]
  dirs := []

theorem read_lone_manifest : read_archive_manifest lone_archive =
    .ok ⟨.int 1, [lone_entry], tree_hash [lone_entry.tree_file]⟩ := by
  refine @read_build_manifest "source" _ _ Tree.file_cons_self fun e he => ?_
  obtain rfl := List.mem_singleton.mp he
  exact ⟨by decide, by decide, by decide, by decide⟩

end Bogbin.Bogvm
