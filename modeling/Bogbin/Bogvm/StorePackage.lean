import Bogbin.Bogvm.StoreVerify
import Bogbin.Bogvm.DictSorted

/-!
# Bundles

`package_directory` puts an archive and its receipt into a bundle.  The hash of a bundle blanks the
hash and leaves out the signature in the receipt, so the receipt can carry both
(`directory_hash_with_receipt`), and a packaged bundle passes the checks of `install_bundle` on the
bundle itself (`package_directory_intact`).
-/

namespace Bogbin.Bogvm

open StateExcept

/-- A bundle whose receipt, archive, hash and signature agree, and whose archive can be restored. -/
structure IntactBundle (host : Host) (keys : Keys) (require_signature : Bool) (bundle : Tree File)
    (receipt : PackageReceipt) : Prop where
  read_receipt : bundle_receipt bundle = .ok receipt
  read_archive : ∃ manifest, read_archive_manifest (bundle.sub "archive") = .ok manifest ∧
    manifest.tree_sha256 = receipt.archive_tree_sha256 ∧
    Restorable host (bundle.sub "archive") manifest
  bundle_hash : directory_hash bundle = .ok receipt.bundle_sha256
  signed : ∃ signature, verify_signature keys require_signature receipt.fields = .ok signature ∧
    signature.failures = []

/-! ## Packaging -/

/-- `sorted(set(dependencies or []))` -/
def sorted_set (dependencies : List String) : List String :=
  dependencies.dedup.mergeSort fun a b => a ≤ b

def unsigned_receipt (name version : String) (manifest : Manifest) (dependencies : List String)
    (bundle_sha256 : String) : Dict :=
  Dict.of [
    ("format", .str PACKAGE_RECEIPT_FORMAT),
    ("name", .str name),
    ("version", .str version),
    ("archive_tree_sha256", .str manifest.tree_sha256),
    ("file_count", manifest.file_count),
    ("dependencies", .arr (dependencies.map .str)),
    ("bundle_sha256", .str bundle_sha256)]

/-- The bundle with an archive. -/
def bundle_of (archive : Tree File) : Tree File where
  files := archive.files.map fun f => ("archive".toList :: f.1, f.2)
  dirs := ["archive".toList] :: archive.dirs.map ("archive".toList :: ·)

/-- The bundle with an archive and a receipt. -/
def with_receipt (archive : Tree File) (receipt : Dict) : Tree File :=
  { bundle_of archive with
    files := (bundle_of archive).files ++ [(["receipt.json".toList], json_file receipt)] }

/-- The receipt with its signature. -/
def sign_receipt (keys : Keys) (receipt : Dict) : Dict :=
  Dict.set receipt "signature" (.obj (sign_object keys receipt))

/-- The bundle of an archive that was built. -/
def package_directory (keys : Keys) (archive : Tree File) (manifest : Manifest)
    (name version : String) (dependencies : List String) (signing : Bool) :
    Except PyError (Tree File) := do
  let archive_sha256 ← directory_hash (bundle_of archive)
  let receipt := unsigned_receipt name version manifest (sorted_set dependencies) archive_sha256
  let bundle_sha256 ← directory_hash (with_receipt archive receipt)
  let receipt := Dict.set receipt "bundle_sha256" (.str bundle_sha256)
  let receipt := if signing then sign_receipt keys receipt else receipt
  if (package_receipt receipt).isNone then .error .SchemaError
  else .ok (with_receipt archive receipt)

/-! ## The hash of a bundle -/

/-- A file as the hash of its directory takes it. -/
def hash_input (f : Path × File) : Path × Except PyError Bytes := (f.1, hashed_data f.1 f.2)

def stream_of : List (Path × Except PyError Bytes) → Except PyError Bytes
  | [] => .ok []
  | (path, data) :: rest => do
    let data ← data
    let stream ← stream_of rest
    .ok (hash_record path data ++ stream)

theorem hash_stream_eq (files : List (Path × File)) :
    hash_stream files = stream_of (files.map hash_input) := by
  induction files with
  | nil => rfl
  | cons f files ih =>
    rw [List.map_cons, hash_input, stream_of, hash_stream, ih]

theorem directory_hash_eq (t : Tree File) :
    directory_hash t =
      stream_of ((t.files.map hash_input).mergeSort path_le) >>= fun stream =>
        .ok (hexdigest stream) := by
  have hsort : (t.files.mergeSort path_le).map hash_input =
      (t.files.map hash_input).mergeSort path_le := List.map_mergeSort fun _ _ _ _ => rfl
  rw [directory_hash, hash_stream_eq, hsort]

theorem directory_hash_congr {t t' : Tree File}
    (h : t.files.map hash_input = t'.files.map hash_input) :
    directory_hash t = directory_hash t' := by
  rw [directory_hash_eq, directory_hash_eq, h]

theorem stream_of_ok_iff {inputs : List (Path × Except PyError Bytes)} :
    (∃ stream, stream_of inputs = .ok stream) ↔ ∀ f ∈ inputs, ∃ data, f.2 = .ok data := by
  induction inputs with
  | nil => simp [stream_of]
  | cons f inputs ih =>
    obtain ⟨path, data⟩ := f
    rw [List.forall_mem_cons, ← ih, stream_of]
    cases data with
    | error e => simp [error_bind]
    | ok data =>
      cases stream_of inputs with
      | error e => simp [ok_bind, error_bind]
      | ok stream => simp [ok_bind]

/-- A directory has a hash when every receipt in it is a text. -/
theorem directory_hash_ok_iff {t : Tree File} :
    (∃ hash, directory_hash t = .ok hash) ↔
      ∀ f ∈ t.files, ∃ data, hashed_data f.1 f.2 = .ok data := by
  have hstream : (∃ hash, directory_hash t = .ok hash) ↔
      ∃ stream, stream_of ((t.files.map hash_input).mergeSort path_le) = .ok stream := by
    rw [directory_hash_eq]
    cases stream_of ((t.files.map hash_input).mergeSort path_le) with
    | error e => simp [error_bind]
    | ok stream => simp [ok_bind]
  rw [hstream, stream_of_ok_iff]
  simp only [List.mem_mergeSort, List.forall_mem_map, hash_input]

theorem directory_hash_eq_ok {t : Tree File} {hash : String} (h : directory_hash t = .ok hash) :
    ∃ stream, hash = hexdigest stream := by
  obtain ⟨stream, -, hhash⟩ := bind_eq_ok.mp h
  exact ⟨stream, (Except.ok.inj hhash).symm⟩

/-- The receipt as the hash of its bundle takes it. -/
def blanked (receipt : Dict) : Dict :=
  Dict.pop (Dict.set receipt "bundle_sha256" (.str "")) "signature"

theorem hashed_data_receipt {path : Path} {file : File} {receipt : Dict}
    (hname : path.getLast? = some "receipt.json".toList) (hcontent : file.content = .value (.obj receipt))
    (h : (Dict.get receipt "bundle_sha256").isSome = true) :
    hashed_data path file = .ok (canonical_bytes (.obj (blanked receipt))) := by
  rw [hashed_data, if_pos hname, hcontent]
  dsimp only
  rw [if_pos h, blanked]

theorem hash_input_receipt {receipt : Dict}
    (h : (Dict.get receipt "bundle_sha256").isSome = true) :
    hash_input (["receipt.json".toList], json_file receipt) =
      (["receipt.json".toList], .ok (canonical_bytes (.obj (blanked receipt)))) :=
  congrArg (Prod.mk _) (hashed_data_receipt rfl rfl h)

/-- The hash of a bundle does not depend on the hash and the signature in its receipt. -/
theorem directory_hash_with_receipt {archive : Tree File} {receipt receipt' : Dict}
    (h : (Dict.get receipt "bundle_sha256").isSome = true)
    (h' : (Dict.get receipt' "bundle_sha256").isSome = true)
    (hblanked : blanked receipt = blanked receipt') :
    directory_hash (with_receipt archive receipt) = directory_hash (with_receipt archive receipt') := by
  refine directory_hash_congr ?_
  simp only [with_receipt, List.map_append, List.map_cons, List.map_nil, hash_input_receipt h,
    hash_input_receipt h', hblanked]

section Blanked

variable {keys : Keys} {receipt : Dict} {hash : Json}

theorem blanked_set_hash (h : Dict.Sorted receipt) :
    blanked (Dict.set receipt "bundle_sha256" hash) = blanked receipt := by
  rw [blanked, Dict.set_set h, blanked]

theorem blanked_sign (h : Dict.Sorted receipt) :
    blanked (sign_receipt keys receipt) = blanked receipt := by
  rw [blanked, sign_receipt, Dict.set_comm h (by decide), Dict.pop_set, blanked]

end Blanked

/-! ## Packaged bundles -/

/-- What `package_directory` is called with: an archive that it has built, and texts that the schema
of a receipt admits. -/
structure Built (archive : Tree File) (manifest : Manifest) (name version : String)
    (dependencies : List String) : Prop where
  read_archive : read_archive_manifest archive = .ok manifest
  file_count : whole_number manifest.file_count = true
  tree_sha256 : hex_pattern 64 manifest.tree_sha256 = true
  hashes : ∃ hash, directory_hash (bundle_of archive) = .ok hash
  dirs : ∀ d ∈ archive.dirs, d ≠ []
  name : name ≠ ""
  version : version ≠ ""
  dependencies : ∀ d ∈ dependencies, d ≠ ""

/-- The archive can also be restored. -/
structure Packageable (host : Host) (archive : Tree File) (manifest : Manifest)
    (name version : String) (dependencies : List String) : Prop
    extends Built archive manifest name version dependencies where
  restorable : Restorable host archive manifest

theorem Tree.rest_cons (name : List Char) (path : Path) :
    Tree.rest name (name :: path) = some path := by
  rw [Tree.rest, if_pos rfl]

theorem Tree.filterMap_rest {α : Type} (name : List Char) (l : List (Path × α)) :
    (l.map fun f => (name :: f.1, f.2)).filterMap
      (fun f => (Tree.rest name f.1).map fun path => (path, f.2)) = l := by
  induction l with
  | nil => rfl
  | cons f l ih =>
    rw [List.map_cons, List.filterMap_cons_some (b := f) (by rw [Tree.rest_cons]; rfl), ih]

theorem sub_with_receipt {archive : Tree File} {receipt : Dict} (h : ∀ d ∈ archive.dirs, d ≠ []) :
    (with_receipt archive receipt).sub "archive" = archive := by
  have hreceipt : (Tree.rest "archive".toList ["receipt.json".toList]) = none := by
    rw [Tree.rest, if_neg (by decide)]
  have hfiles : (with_receipt archive receipt).files.filterMap
      (fun f => (Tree.rest "archive".toList f.1).map fun path => (path, f.2)) = archive.files := by
    rw [with_receipt, List.filterMap_append, bundle_of, Tree.filterMap_rest,
      List.filterMap_cons_none (by rw [hreceipt]; rfl), List.filterMap_nil, List.append_nil]
  have hdirs : ((with_receipt archive receipt).dirs.filterMap (Tree.rest "archive".toList)).filter
      (· ≠ []) = archive.dirs := by
    rw [with_receipt, bundle_of, List.filterMap_cons, Tree.rest_cons, List.filterMap_map]
    simp only [Function.comp_def, Tree.rest_cons, List.filterMap_some]
    rw [List.filter_cons_of_neg (by simp)]
    exact List.filter_eq_self.mpr fun d hd => decide_eq_true (h d hd)
  rw [Tree.sub, hfiles, hdirs]

theorem bundle_receipt_with_receipt {archive : Tree File} {receipt : Dict} {r : PackageReceipt}
    (hformat : Dict.get receipt "format" = some (.str PACKAGE_RECEIPT_FORMAT))
    (h : package_receipt receipt = some r) :
    bundle_receipt (with_receipt archive receipt) = .ok r := by
  have hfile : (with_receipt archive receipt).file ["receipt.json".toList] =
      some (json_file receipt) := by
    have hnone : (bundle_of archive).files.lookup ["receipt.json".toList] = none := by
      rw [List.lookup_eq_none_iff]
      intro f hf
      obtain ⟨g, -, rfl⟩ := List.mem_map.mp hf
      simp
    rw [Tree.file, with_receipt, List.lookup_append, hnone, Option.none_or, List.lookup_cons_self]
  rw [bundle_receipt, hfile, Option.map_some, json_file, read_receipt]
  dsimp only [as_dict]
  rw [ok_bind, if_neg (not_not.mpr hformat), h]

theorem mapM_nonempty_string {l : List String} (h : ∀ d ∈ l, d ≠ "") :
    (l.map Json.str).mapM nonempty_string = some l := by
  induction l with
  | nil => rfl
  | cons d l ih =>
    rw [List.map_cons, List.mapM_cons, nonempty_string, if_pos (h d List.mem_cons_self),
      ih fun d hd => h d (List.mem_cons_of_mem _ hd)]
    rfl

theorem nodup_sorted_set (l : List String) : (sorted_set l).Nodup :=
  (List.mergeSort_perm _ _).nodup_iff.mpr (List.nodup_dedup l)

theorem mem_sorted_set {l : List String} {d : String} : d ∈ sorted_set l ↔ d ∈ l := by
  rw [sorted_set, List.mem_mergeSort, List.mem_dedup]

section Packaged

variable {host : Host} {keys : Keys} {archive : Tree File} {manifest : Manifest}
  {name version hash : String} {dependencies : List String}

theorem set_unsigned_receipt {hash' : String} :
    Dict.set (unsigned_receipt name version manifest dependencies hash) "bundle_sha256"
        (.str hash') =
      unsigned_receipt name version manifest dependencies hash' := by
  have hlast (h : String) : unsigned_receipt name version manifest dependencies h =
      Dict.set (Dict.of [("format", .str PACKAGE_RECEIPT_FORMAT), ("name", .str name),
        ("version", .str version), ("archive_tree_sha256", .str manifest.tree_sha256),
        ("file_count", manifest.file_count), ("dependencies", .arr (dependencies.map .str))])
        "bundle_sha256" (.str h) := rfl
  rw [hlast, hlast, Dict.set_set (Dict.sorted_of _)]

theorem sorted_unsigned_receipt :
    Dict.Sorted (unsigned_receipt name version manifest dependencies hash) := Dict.sorted_of _

theorem blanked_unsigned_receipt {hash' : String} :
    blanked (unsigned_receipt name version manifest dependencies hash') =
      blanked (unsigned_receipt name version manifest dependencies hash) := by
  rw [← @set_unsigned_receipt manifest name version hash, blanked_set_hash sorted_unsigned_receipt]

/-- The receipt of a package, unsigned or signed. -/
def final_receipt (keys : Keys) (signing : Bool) (receipt : Dict) : Dict :=
  if signing then sign_receipt keys receipt else receipt

theorem get_final_receipt {signing : Bool} {receipt : Dict} {key : String}
    (hkey : key ≠ "signature") :
    Dict.get (final_receipt keys signing receipt) key = Dict.get receipt key := by
  unfold final_receipt sign_receipt
  split_ifs
  · exact Dict.get_set_of_ne hkey.symm
  · rfl

theorem valid_signature_sign_receipt (hkeys : keys.Lawful) {receipt : Dict} :
    valid_signature (sign_receipt keys receipt) = true := by
  have hkeysOnly : only_keys (sign_object keys receipt) ["format", "algorithm", "key_id",
      "signature"] = true := only_keys_of (by simp)
  rw [only_keys] at hkeysOnly
  rw [valid_signature, sign_receipt, Dict.get_set_self]
  dsimp only
  rw [hkeysOnly]
  simp [str_field, get_sign_object_format, get_sign_object_algorithm, get_sign_object_key_id,
    get_sign_object_signature, hex_pattern_key_id, hkeys.sign_ne]

theorem get_unsigned_receipt (receipt : Dict)
    (h : receipt = unsigned_receipt name version manifest dependencies hash) :
    Dict.get receipt "format" = some (.str PACKAGE_RECEIPT_FORMAT) ∧
      Dict.get receipt "name" = some (.str name) ∧
      Dict.get receipt "version" = some (.str version) ∧
      Dict.get receipt "archive_tree_sha256" = some (.str manifest.tree_sha256) ∧
      Dict.get receipt "file_count" = some manifest.file_count ∧
      Dict.get receipt "dependencies" = some (.arr (dependencies.map .str)) ∧
      Dict.get receipt "bundle_sha256" = some (.str hash) ∧
      Dict.get receipt "signature" = none := by
  subst h
  refine ⟨?_, ?_, ?_, ?_, ?_, ?_, ?_, ?_⟩ <;>
    simp [unsigned_receipt, Dict.of, Dict.get_set, Dict.get]

theorem only_keys_final {signing : Bool} :
    only_keys (final_receipt keys signing
      (unsigned_receipt name version manifest dependencies hash)) ["format", "name", "version",
        "archive_tree_sha256", "file_count", "dependencies", "bundle_sha256", "signature"] = true := by
  have hunsigned : only_keys (unsigned_receipt name version manifest dependencies hash) ["format",
      "name", "version", "archive_tree_sha256", "file_count", "dependencies", "bundle_sha256",
      "signature"] = true := only_keys_of (by simp)
  unfold final_receipt sign_receipt
  split_ifs
  · exact only_keys_set hunsigned (by simp)
  · exact hunsigned

/-- The receipt of a package is admitted by the schema. -/
theorem package_receipt_final (hkeys : keys.Lawful) {signing : Bool}
    (hname : name ≠ "") (hversion : version ≠ "")
    (hcount : whole_number manifest.file_count = true)
    (htree : hex_pattern 64 manifest.tree_sha256 = true) (hhash : hex_pattern 64 hash = true)
    (hdependencies : ∀ d ∈ dependencies, d ≠ "") (hnodup : dependencies.Nodup) :
    package_receipt (final_receipt keys signing
        (unsigned_receipt name version manifest dependencies hash)) =
      some ⟨final_receipt keys signing (unsigned_receipt name version manifest dependencies hash),
        name, version, manifest.tree_sha256, dependencies, hash⟩ := by
  obtain ⟨hformat, hn, hv, ht, hc, hd, hb, hs⟩ :=
    @get_unsigned_receipt manifest name version hash dependencies _ rfl
  have hsignature : Dict.get (final_receipt keys signing
      (unsigned_receipt name version manifest dependencies hash)) "signature" = none ∨
      valid_signature (final_receipt keys signing
        (unsigned_receipt name version manifest dependencies hash)) = true := by
    unfold final_receipt
    split_ifs
    · exact .inr (valid_signature_sign_receipt hkeys)
    · exact .inl hs
  rw [package_receipt, get_final_receipt (by decide), get_final_receipt (by decide),
    get_final_receipt (by decide), get_final_receipt (by decide), get_final_receipt (by decide),
    get_final_receipt (by decide), hn, hv, ht, hc, hd, hb]
  dsimp only
  rw [mapM_nonempty_string hdependencies]
  dsimp only
  rw [if_pos]
  refine ⟨?_, hname, hversion, htree, hcount, hnodup, hhash, hsignature, only_keys_final⟩
  rw [str_field, get_final_receipt (by decide), hformat]
  exact decide_eq_true rfl

theorem verify_signature_final (hkeys : keys.Lawful) {receipt : Dict}
    {signing require_signature : Bool} (hreceipt : Dict.get receipt "signature" = none)
    (hsigning : require_signature = true → signing = true) :
    ∃ signature, verify_signature keys require_signature (final_receipt keys signing receipt) =
      .ok signature ∧ signature.failures = [] := by
  rw [verify_signature]
  cases signing with
  | false =>
    have hrequire : require_signature = false := by
      cases require_signature with
      | false => rfl
      | true => exact nomatch hsigning rfl
    rw [final_receipt, if_neg (by decide), hreceipt, hrequire]
    exact ⟨_, rfl, rfl⟩
  | true =>
    rw [final_receipt, if_pos rfl, sign_receipt, Dict.get_set_self, Dict.pop_set,
      Dict.pop_of_get_none hreceipt]
    dsimp only
    rw [verify_sign_object hkeys, ok_bind, as_dict, ok_bind]
    exact ⟨_, rfl, rfl⟩

/-- A receipt with this name, version, dependencies and archive. -/
structure Describes (receipt : PackageReceipt) (manifest : Manifest) (name version : String)
    (dependencies : List String) : Prop where
  name : receipt.name = name
  version : receipt.version = version
  dependencies : receipt.dependencies = sorted_set dependencies
  archive : receipt.archive_tree_sha256 = manifest.tree_sha256

/-- The receipt of a bundle has the hash of the bundle, and is signed as required. -/
structure Sealed (keys : Keys) (require_signature : Bool) (bundle : Tree File)
    (receipt : PackageReceipt) : Prop where
  read_receipt : bundle_receipt bundle = .ok receipt
  bundle_hash : directory_hash bundle = .ok receipt.bundle_sha256
  signed : ∃ signature, verify_signature keys require_signature receipt.fields = .ok signature ∧
    signature.failures = []

/-- A packaged bundle is sealed, under its name, version and dependencies. -/
theorem package_directory_sealed (hkeys : keys.Lawful)
    (h : Built archive manifest name version dependencies) (signing require_signature : Bool)
    (hsigning : require_signature = true → signing = true) :
    ∃ bundle receipt,
      package_directory keys archive manifest name version dependencies signing = .ok bundle ∧
        bundle.sub "archive" = archive ∧ Sealed keys require_signature bundle receipt ∧
        Describes receipt manifest name version dependencies := by
  obtain ⟨archive_hash, harchive⟩ := h.hashes
  have hget (hash : String) :=
    @get_unsigned_receipt manifest name version hash (sorted_set dependencies) _ rfl
  -- the hash of the bundle with a receipt that does not have it yet
  obtain ⟨hash, hhash⟩ : ∃ hash, directory_hash (with_receipt archive
      (unsigned_receipt name version manifest (sorted_set dependencies) archive_hash)) = .ok hash := by
    refine directory_hash_ok_iff.mpr fun f hf => ?_
    rcases List.mem_append.mp hf with hf | hf
    · exact directory_hash_ok_iff.mp ⟨archive_hash, harchive⟩ f hf
    · obtain rfl := List.mem_singleton.mp hf
      exact ⟨_, hashed_data_receipt rfl rfl (by rw [(hget archive_hash).2.2.2.2.2.2.1]; rfl)⟩
  have hhex : hex_pattern 64 hash = true := by
    obtain ⟨stream, rfl⟩ := directory_hash_eq_ok hhash
    exact hex_pattern_hexdigest stream
  let receipt := unsigned_receipt name version manifest (sorted_set dependencies) hash
  have hreceipt : package_receipt (final_receipt keys signing receipt) = some
      ⟨final_receipt keys signing receipt, name, version, manifest.tree_sha256,
        sorted_set dependencies, hash⟩ :=
    package_receipt_final hkeys h.name h.version h.file_count h.tree_sha256 hhex
      (fun d hd => h.dependencies d (mem_sorted_set.mp hd)) (nodup_sorted_set _)
  have hpackage : package_directory keys archive manifest name version dependencies signing =
      .ok (with_receipt archive (final_receipt keys signing receipt)) := by
    rw [package_directory, harchive, ok_bind]
    dsimp only
    rw [hhash, ok_bind, set_unsigned_receipt]
    change (if (package_receipt (final_receipt keys signing receipt)).isNone = true then _ else _) = _
    rw [hreceipt]
    rfl
  refine ⟨_, ⟨final_receipt keys signing receipt, name, version, manifest.tree_sha256,
    sorted_set dependencies, hash⟩, hpackage, sub_with_receipt h.dirs, ⟨?_, ?_, ?_⟩, rfl, rfl, rfl,
    rfl⟩
  · exact bundle_receipt_with_receipt
      (by rw [get_final_receipt (by decide), (hget hash).1]) hreceipt
  · rw [← hhash]
    refine directory_hash_with_receipt ?_ ?_ ?_
    · rw [get_final_receipt (by decide), (hget hash).2.2.2.2.2.2.1]
      rfl
    · rw [(hget archive_hash).2.2.2.2.2.2.1]
      rfl
    · have hsame : blanked (final_receipt keys signing receipt) = blanked receipt := by
        unfold final_receipt
        split_ifs
        · exact blanked_sign sorted_unsigned_receipt
        · rfl
      rw [hsame]
      exact blanked_unsigned_receipt
  · exact verify_signature_final hkeys (hget hash).2.2.2.2.2.2.2 hsigning

/-- The bundle of an archive that can be restored is intact. -/
theorem package_directory_intact (hkeys : keys.Lawful)
    (h : Packageable host archive manifest name version dependencies) (signing require_signature : Bool)
    (hsigning : require_signature = true → signing = true) :
    ∃ bundle receipt,
      package_directory keys archive manifest name version dependencies signing = .ok bundle ∧
        IntactBundle host keys require_signature bundle receipt ∧
        Describes receipt manifest name version dependencies := by
  obtain ⟨bundle, receipt, hpackage, hsub, hsealed, hdescribes⟩ :=
    package_directory_sealed hkeys h.toBuilt signing require_signature hsigning
  refine ⟨bundle, receipt, hpackage, ⟨hsealed.read_receipt, ⟨manifest, ?_, ?_, ?_⟩,
    hsealed.bundle_hash, hsealed.signed⟩, hdescribes⟩
  · rw [hsub, h.read_archive]
  · exact hdescribes.archive.symm
  · rw [hsub]
    exact h.restorable

end Packaged

end Bogbin.Bogvm
