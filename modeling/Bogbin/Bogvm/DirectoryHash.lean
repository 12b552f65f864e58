import Bogbin.Bogvm.StorePackage
import Bogbin.Library.Framing

/-!
# What the hash of a directory fixes

`_directory_hash` hashes a path, a zero byte, the bytes of the file and a newline for one file after
the other.  Two directories with the same hash have the same files unless one is the other with a
record boundary shifted into the bytes of a file (`directory_hash_commits_iff`), and a file of a
directory can nearly always be merged into the one before it (`exists_same_hash`).
-/

namespace Bogbin.Bogvm

open Framing StateExcept

/-! ## The records of a directory -/

/-- A record of the hash. -/
def frame (r : Path × Bytes) : Bytes × Bytes := (utf8 (as_posix r.1), r.2)

/-- The paths and the hashed bytes of a directory, in the order of the hash. -/
def HashedTo (t : Tree File) (records : List (Path × Bytes)) : Prop :=
  (t.files.mergeSort path_le).map hash_input = records.map fun r => (r.1, .ok r.2)

/-- A directory as a host has it: the files have different paths, none is on the way to another one,
and a file is read as `loads` reads its bytes. -/
structure Directory (host : Host) (loads : Bytes → Content) (t : Tree File) : Prop where
  distinct : t.paths.Nodup
  nonempty : ∀ p ∈ t.paths, p ≠ []
  plain : ∀ p ∈ t.paths, ∀ name ∈ p, PlainPart name ∧ host.admits name = true
  no_zero : ∀ p ∈ t.paths, 0 ∉ utf8 (as_posix p)
  apart : ∀ p ∈ t.paths, ∀ q ∈ t.paths, p <+: q → p = q
  loaded : ∀ f ∈ t.files, f.2.content = loads f.2.data

/-- The same paths, and the same bytes in every file that is not a receipt. -/
structure SameFiles (t₁ t₂ : Tree File) : Prop where
  paths : ∀ p, p ∈ t₁.paths ↔ p ∈ t₂.paths
  data : ∀ p f₁ f₂, p.getLast? ≠ some "receipt.json".toList → (p, f₁) ∈ t₁.files →
    (p, f₂) ∈ t₂.files → f₁.data = f₂.data

/-- One directory is the other with a record boundary shifted into the bytes of a file. -/
def Regrouped (t₁ t₂ : Tree File) : Prop :=
  ∃ records₁ records₂, HashedTo t₁ records₁ ∧ HashedTo t₂ records₂ ∧
    (Shifted 0 10 (records₁.map frame) (records₂.map frame) ∨
      Shifted 0 10 (records₂.map frame) (records₁.map frame))

/-- The hashes of the two directories do not collide. -/
def NoCollision (t₁ t₂ : Tree File) : Prop :=
  ∀ records₁ records₂, HashedTo t₁ records₁ → HashedTo t₂ records₂ →
    hexdigest (stream 0 10 (records₁.map frame)) = hexdigest (stream 0 10 (records₂.map frame)) →
    stream 0 10 (records₁.map frame) = stream 0 10 (records₂.map frame)

section Commits

variable {host : Host} {loads : Bytes → Content} {t t₁ t₂ : Tree File}
  {records records' : List (Path × Bytes)} {p : Path} {f : File}

theorem hash_record_eq (r : Path × Bytes) : hash_record r.1 r.2 = Framing.record 0 10 (frame r) := rfl

theorem stream_of_eq_ok {inputs : List (Path × Except PyError Bytes)} {s : Bytes} :
    stream_of inputs = .ok s ↔ ∃ records : List (Path × Bytes),
      inputs = records.map (fun r => (r.1, .ok r.2)) ∧ s = stream 0 10 (records.map frame) := by
  induction inputs generalizing s with
  | nil =>
    constructor
    · intro h
      exact ⟨[], rfl, (Except.ok.inj h).symm⟩
    · rintro ⟨records, hrecords, rfl⟩
      obtain rfl := List.map_eq_nil_iff.mp hrecords.symm
      rfl
  | cons input inputs ih =>
    obtain ⟨path, data⟩ := input
    constructor
    · intro h
      rw [stream_of] at h
      obtain ⟨d, rfl, h₁⟩ := bind_eq_ok.mp h
      obtain ⟨rest, hrest, h₂⟩ := bind_eq_ok.mp h₁
      obtain ⟨records, rfl, rfl⟩ := ih.mp hrest
      exact ⟨(path, d) :: records, rfl, (Except.ok.inj h₂).symm⟩
    · rintro ⟨records, hrecords, rfl⟩
      cases records with
      | nil => cases hrecords
      | cons r records =>
        obtain ⟨hinput, hinputs⟩ := List.cons.inj hrecords
        obtain ⟨rfl, rfl⟩ := Prod.mk.inj hinput
        have hrest := ih.mpr ⟨records, hinputs, rfl⟩
        exact bind_eq_ok.mpr ⟨r.2, rfl, bind_eq_ok.mpr ⟨_, hrest, rfl⟩⟩

theorem directory_hash_eq_ok_iff {hash : String} : directory_hash t = .ok hash ↔
    ∃ records, HashedTo t records ∧ hash = hexdigest (stream 0 10 (records.map frame)) := by
  have hsort : (t.files.mergeSort path_le).map hash_input =
      (t.files.map hash_input).mergeSort path_le := List.map_mergeSort fun _ _ _ _ => rfl
  rw [directory_hash_eq, ← hsort, bind_eq_ok]
  constructor
  · rintro ⟨s, hs, h⟩
    obtain ⟨records, hrecords, rfl⟩ := stream_of_eq_ok.mp hs
    exact ⟨records, hrecords, (Except.ok.inj h).symm⟩
  · rintro ⟨records, hrecords, rfl⟩
    exact ⟨_, stream_of_eq_ok.mpr ⟨records, hrecords, rfl⟩, rfl⟩

theorem HashedTo.unique (h : HashedTo t records) (h' : HashedTo t records') : records = records' := by
  have hinj : Function.Injective fun r : Path × Bytes =>
      ((r.1, .ok r.2) : Path × Except PyError Bytes) := by
    rintro ⟨p, d⟩ ⟨p', d'⟩ heq
    simpa using heq
  exact List.map_injective_iff.mpr hinj (h.symm.trans h')

theorem HashedTo.perm (h : HashedTo t records) : (records.map Prod.fst).Perm t.paths := by
  have hpaths : records.map Prod.fst = (t.files.mergeSort path_le).map Prod.fst := by
    have hmap := congrArg (List.map Prod.fst) h
    simpa [List.map_map, Function.comp_def, hash_input] using hmap.symm
  rw [hpaths]
  exact (List.mergeSort_perm _ _).map _

theorem HashedTo.mem (h : HashedTo t records) (hf : (p, f) ∈ t.files) :
    ∃ d, hashed_data p f = .ok d ∧ (p, d) ∈ records := by
  have hmem : hash_input (p, f) ∈ records.map fun r => (r.1, Except.ok r.2) := by
    rw [← h]
    exact List.mem_map_of_mem (List.mem_mergeSort.mpr hf)
  obtain ⟨⟨p', d⟩, hr, heq⟩ := List.mem_map.mp hmem
  obtain ⟨rfl, hd⟩ := Prod.mk.inj heq
  exact ⟨d, hd.symm, hr⟩

theorem hashed_data_of_not_receipt (hp : p.getLast? ≠ some "receipt.json".toList) :
    hashed_data p f = .ok f.data := if_neg hp

theorem sameFiles_of_records (h₁ : Directory host loads t₁) (hr₁ : HashedTo t₁ records)
    (hr₂ : HashedTo t₂ records) : SameFiles t₁ t₂ := by
  refine ⟨fun p => hr₁.perm.mem_iff.symm.trans hr₂.perm.mem_iff, fun p f₁ f₂ hp hf₁ hf₂ => ?_⟩
  obtain ⟨d₁, hd₁, hmem₁⟩ := hr₁.mem hf₁
  obtain ⟨d₂, hd₂, hmem₂⟩ := hr₂.mem hf₂
  rw [hashed_data_of_not_receipt hp] at hd₁ hd₂
  have hnodup : (records.map Prod.fst).Nodup := hr₁.perm.nodup_iff.mpr h₁.distinct
  obtain ⟨-, rfl⟩ := Prod.mk.inj (List.inj_on_of_nodup_map hnodup hmem₁ hmem₂ rfl)
  exact (Except.ok.inj hd₁).trans (Except.ok.inj hd₂).symm

theorem frame_inj {r r' : Path × Bytes} (hr : r.1 ≠ [] ∧ ∀ part ∈ r.1, PlainPart part)
    (hr' : r'.1 ≠ [] ∧ ∀ part ∈ r'.1, PlainPart part) (h : frame r = frame r') : r = r' := by
  obtain ⟨hkey, hdata⟩ := Prod.mk.inj h
  have hposix : as_posix r.1 = as_posix r'.1 := by
    rw [utf8, utf8] at hkey
    exact String.toByteArray_inj.mp (ByteArray.ext (Array.toList_inj.mp hkey))
  refine Prod.ext ?_ hdata
  rw [← path_parts_as_posix hr.1 hr.2, hposix, path_parts_as_posix hr'.1 hr'.2]

theorem Directory.path (h : Directory host loads t) (hp : p ∈ t.paths) :
    p ≠ [] ∧ ∀ part ∈ p, PlainPart part :=
  ⟨h.nonempty p hp, fun part hpart => (h.plain p hp part hpart).1⟩

theorem HashedTo.no_zero (h : HashedTo t records) (ht : Directory host loads t) :
    ∀ r ∈ records.map frame, (0 : UInt8) ∉ r.1 := by
  rw [List.forall_mem_map]
  intro r hr
  exact ht.no_zero r.1 (h.perm.mem_iff.mp (List.mem_map_of_mem hr))

/-- The records are determined by their frames. -/
theorem records_eq_of_frames (h₁ : Directory host loads t₁) (h₂ : Directory host loads t₂)
    (hr₁ : HashedTo t₁ records) (hr₂ : HashedTo t₂ records')
    (h : records.map frame = records'.map frame) : records = records' := by
  have hplain {t : Tree File} {l : List (Path × Bytes)} (ht : Directory host loads t)
      (hl : HashedTo t l) : ∀ r ∈ l, r.1 ≠ [] ∧ ∀ part ∈ r.1, PlainPart part :=
    fun r hr => ht.path (hl.perm.mem_iff.mp (List.mem_map_of_mem hr))
  have hp := hplain h₁ hr₁
  have hp' := hplain h₂ hr₂
  clear hr₁ hr₂ hplain
  induction records generalizing records' with
  | nil => exact (List.map_eq_nil_iff.mp h.symm).symm
  | cons r records ih =>
    cases records' with
    | nil => cases h
    | cons r' records' =>
      rw [List.forall_mem_cons] at hp hp'
      obtain ⟨hr, hrest⟩ := List.cons.inj h
      rw [frame_inj hp.1 hp'.1 hr, ih hrest hp.2 hp'.2]

/-- Without a collision two directories with one hash have the same files or are regrouped. -/
theorem sameFiles_or_regrouped (h₁ : Directory host loads t₁) (h₂ : Directory host loads t₂)
    (hsha : NoCollision t₁ t₂) {hash : String} (hhash₁ : directory_hash t₁ = .ok hash)
    (hhash₂ : directory_hash t₂ = .ok hash) : SameFiles t₁ t₂ ∨ Regrouped t₁ t₂ := by
  obtain ⟨records₁, hr₁, rfl⟩ := directory_hash_eq_ok_iff.mp hhash₁
  obtain ⟨records₂, hr₂, heq⟩ := directory_hash_eq_ok_iff.mp hhash₂
  have hstream := hsha _ _ hr₁ hr₂ heq
  rcases (stream_eq_iff (hr₁.no_zero h₁) (hr₂.no_zero h₂)).mp hstream with hsame | hshift
  · obtain rfl := records_eq_of_frames h₁ h₂ hr₁ hr₂ hsame
    exact .inl (sameFiles_of_records h₁ hr₁ hr₂)
  · exact .inr ⟨records₁, records₂, hr₁, hr₂, hshift⟩

/-- Regrouped directories have the same hash. -/
theorem Regrouped.directory_hash_eq (h : Regrouped t₁ t₂) :
    ∃ hash, directory_hash t₁ = .ok hash ∧ directory_hash t₂ = .ok hash := by
  obtain ⟨records₁, records₂, hr₁, hr₂, hshift⟩ := h
  refine ⟨_, directory_hash_eq_ok_iff.mpr ⟨_, hr₁, rfl⟩,
    directory_hash_eq_ok_iff.mpr ⟨_, hr₂, congrArg hexdigest ?_⟩⟩
  rcases hshift with hshift | hshift
  · exact hshift.stream_eq
  · exact hshift.stream_eq.symm

/-- Regrouped directories are no collision. -/
theorem Regrouped.noCollision (h : Regrouped t₁ t₂) : NoCollision t₁ t₂ := by
  obtain ⟨records₁, records₂, hr₁, hr₂, hshift⟩ := h
  intro records₁' records₂' hr₁' hr₂' _
  obtain rfl := hr₁.unique hr₁'
  obtain rfl := hr₂.unique hr₂'
  rcases hshift with hshift | hshift
  · exact hshift.stream_eq
  · exact hshift.stream_eq.symm

/-- An equal hash of two directories means the same files, exactly when no record boundary is
shifted between them or only receipts are affected. -/
theorem directory_hash_commits_iff (h₁ : Directory host loads t₁) (h₂ : Directory host loads t₂)
    (hsha : NoCollision t₁ t₂) :
    (∀ hash, directory_hash t₁ = .ok hash → directory_hash t₂ = .ok hash → SameFiles t₁ t₂) ↔
      (Regrouped t₁ t₂ → SameFiles t₁ t₂) := by
  constructor
  · intro h hregrouped
    obtain ⟨hash, hhash₁, hhash₂⟩ := hregrouped.directory_hash_eq
    exact h hash hhash₁ hhash₂
  · intro h hash hhash₁ hhash₂
    exact (sameFiles_or_regrouped h₁ h₂ hsha hhash₁ hhash₂).elim id h

/-! ## Merged files -/

theorem path_le_trans (a b c : Path × File) (hab : path_le a b = true) (hbc : path_le b c = true) :
    path_le a c = true :=
  decide_eq_true (le_trans (of_decide_eq_true hab) (of_decide_eq_true hbc))

theorem path_le_total (a b : Path × File) : (path_le a b || path_le b a) = true := by
  simpa [path_le] using le_total a.1 b.1

theorem mergeSort_of_sublist {files : List (Path × File)}
    (h : (files.map Prod.fst).Sublist ((t.files.mergeSort path_le).map Prod.fst)) :
    files.mergeSort path_le = files := by
  have hsorted := List.pairwise_mergeSort path_le_trans path_le_total t.files
  have hpaths : ((t.files.mergeSort path_le).map Prod.fst).Pairwise (· ≤ ·) :=
    List.pairwise_map.mpr (hsorted.imp fun h => of_decide_eq_true h)
  exact List.mergeSort_of_pairwise
    ((List.pairwise_map.mp (hpaths.sublist h)).imp fun h => decide_eq_true h)

/-- The bytes of a file with the next record of the hash behind them. -/
def merged (data : Bytes) (path : Path) (next : Bytes) : Bytes :=
  data ++ 10 :: (utf8 (as_posix path) ++ 0 :: next)

/-- A directory in which a file that is not a receipt is followed by another one has the hash of a
directory without that one. -/
theorem exists_same_hash (ht : Directory host loads t) {before after : List (Path × File)}
    {f g : Path × File} (hfiles : t.files.mergeSort path_le = before ++ f :: g :: after)
    (hname : f.1.getLast? ≠ some "receipt.json".toList) {hash : String}
    (hhash : directory_hash t = .ok hash) :
    ∃ t', Directory host loads t' ∧ directory_hash t' = .ok hash ∧ Regrouped t t' ∧
      g.1 ∈ t.paths ∧ g.1 ∉ t'.paths := by
  obtain ⟨records, hr, rfl⟩ := directory_hash_eq_ok_iff.mp hhash
  have hsplit := hr
  rw [HashedTo, hfiles, List.map_append, List.map_cons, List.map_cons] at hsplit
  obtain ⟨rb, rest, rfl, hb, hrest⟩ := List.map_eq_append_iff.mp hsplit.symm
  obtain ⟨rf, rest, rfl, hf, hrest⟩ := List.map_eq_cons_iff.mp hrest
  obtain ⟨rg, ra, rfl, hg, ha⟩ := List.map_eq_cons_iff.mp hrest
  obtain ⟨rfp, rfd⟩ := rf
  obtain ⟨rgp, rgd⟩ := rg
  obtain ⟨rfl, hfd⟩ := Prod.mk.inj hf
  obtain ⟨rfl, hgd⟩ := Prod.mk.inj hg
  rw [hashed_data_of_not_receipt hname] at hfd
  obtain rfl := Except.ok.inj hfd
  let data := merged f.2.data g.1 rgd
  let t' : Tree File := ⟨before ++ (f.1, ⟨data, loads data⟩) :: after, t.dirs⟩
  have hperm : t.paths.Perm (before.map Prod.fst ++ f.1 :: g.1 :: after.map Prod.fst) := by
    have hmap := (List.mergeSort_perm t.files path_le).map Prod.fst
    rw [hfiles] at hmap
    simpa [Tree.paths] using hmap.symm
  have hpaths : t'.paths = before.map Prod.fst ++ f.1 :: after.map Prod.fst := by
    simp [t', Tree.paths]
  have hsub : t'.paths.Sublist (before.map Prod.fst ++ f.1 :: g.1 :: after.map Prod.fst) := by
    rw [hpaths]
    exact (List.Sublist.refl _).append ((List.sublist_cons_self _ _).cons_cons _)
  have hmem : ∀ p ∈ t'.paths, p ∈ t.paths := fun p hp => hperm.mem_iff.mpr (hsub.subset hp)
  have hnodup := hperm.nodup_iff.mp ht.distinct
  have ht' : Directory host loads t' := by
    refine ⟨hnodup.sublist hsub, fun p hp => ht.nonempty p (hmem p hp),
      fun p hp => ht.plain p (hmem p hp), fun p hp => ht.no_zero p (hmem p hp),
      fun p hp q hq => ht.apart p (hmem p hp) q (hmem q hq), ?_⟩
    have hold : ∀ x ∈ before ++ f :: g :: after, x.2.content = loads x.2.data := by
      intro x hx
      rw [← hfiles, List.mem_mergeSort] at hx
      exact ht.loaded x hx
    intro x hx
    rcases List.mem_append.mp hx with hx | hx
    · exact hold x (List.mem_append_left _ hx)
    · rcases List.mem_cons.mp hx with rfl | hx
      · rfl
      · exact hold x (by simp [hx])
  have hr' : HashedTo t' (rb ++ (f.1, data) :: ra) := by
    have hsorted : t'.files.mergeSort path_le = t'.files := by
      refine @mergeSort_of_sublist t _ ?_
      rw [hfiles]
      simpa [Tree.paths] using hsub
    rw [HashedTo, hsorted, List.map_append, List.map_append, List.map_cons, List.map_cons, hb, ha]
    have hinput : hash_input (f.1, ⟨data, loads data⟩) = (f.1, .ok data) :=
      congrArg (Prod.mk f.1) (hashed_data_of_not_receipt hname)
    rw [hinput]
  have hshift : Shifted 0 10 ((rb ++ (f.1, data) :: ra).map frame)
      ((rb ++ (f.1, f.2.data) :: (g.1, rgd) :: ra).map frame) := by
    refine ⟨rb.map frame, utf8 (as_posix f.1), f.2.data, utf8 (as_posix g.1) ++ 0 :: rgd,
      ra.map frame, ((g.1, rgd) :: ra).map frame, ?_, ?_, ?_⟩
    · rw [List.map_append, List.map_cons]
      rfl
    · rw [List.map_append, List.map_cons]
      rfl
    · rw [List.map_cons, stream_cons]
      simp [frame]
  have hregrouped : Regrouped t t' := ⟨_, _, hr, hr', .inr hshift⟩
  refine ⟨t', ht', directory_hash_eq_ok_iff.mpr ⟨_, hr', ?_⟩, hregrouped,
    hperm.mem_iff.mpr (by simp), ?_⟩
  · rw [hshift.stream_eq]
  · rw [hpaths]
    have hmiddle : ((before.map Prod.fst ++ [f.1]) ++ g.1 :: after.map Prod.fst).Nodup := by
      simpa using hnodup
    rw [List.nodup_middle, List.nodup_cons] at hmiddle
    simpa using hmiddle.1

end Commits

/-! ## Two files and one -/

/-- No file is read as JSON. -/
def no_json (_ : Bytes) : Content := .unparsable

/-- The files "a" with "x" and "b" with "y". -/
def two_files : Tree File where
  files := [([['a']], ⟨[120], .unparsable⟩), ([['b']], ⟨[121], .unparsable⟩)]
  dirs := []

theorem sort_two_files : two_files.files.mergeSort path_le = two_files.files :=
  List.mergeSort_of_pairwise (by simp [two_files, path_le]; decide)

theorem directory_two_files : Directory ⟨some, fun _ => true, fun _ => true⟩ no_json two_files where
  distinct := by decide
  nonempty := by decide
  plain := by
    have hplain : ∀ p ∈ two_files.paths, ∀ name ∈ p, PlainPart name := by
      unfold PlainPart
      decide
    exact fun p hp name hname => ⟨hplain p hp name hname, rfl⟩
  no_zero := by decide
  apart := by decide
  loaded := by
    intro f hf
    rcases List.mem_cons.mp hf with rfl | hf
    · rfl
    · obtain rfl := List.mem_singleton.mp hf
      rfl

/-- The second file is merged into the first one. -/
theorem merge_two_files : ∃ t hash, Directory ⟨some, fun _ => true, fun _ => true⟩ no_json t ∧
    directory_hash two_files = .ok hash ∧ directory_hash t = .ok hash ∧ Regrouped two_files t ∧
    ¬SameFiles two_files t := by
  obtain ⟨hash, hhash⟩ : ∃ hash, directory_hash two_files = .ok hash := by
    refine directory_hash_ok_iff.mpr fun f hf => ?_
    rcases List.mem_cons.mp hf with rfl | hf
    · exact ⟨_, hashed_data_of_not_receipt (by decide)⟩
    · obtain rfl := List.mem_singleton.mp hf
      exact ⟨_, hashed_data_of_not_receipt (by decide)⟩
  obtain ⟨t, ht, hhash', hregrouped, hmem, hnot⟩ :=
    @exists_same_hash _ _ _ directory_two_files [] [] _ _ sort_two_files (by decide) _ hhash
  exact ⟨t, hash, ht, hhash, hhash', hregrouped, fun hsame => hnot ((hsame.paths _).mp hmem)⟩

theorem directory_hash_commits_two_files : ∃ t, Regrouped two_files t ∧
    ((∀ hash, directory_hash two_files = .ok hash → directory_hash t = .ok hash →
        SameFiles two_files t) ↔ (Regrouped two_files t → SameFiles two_files t)) := by
  obtain ⟨t, _, ht, -, -, hregrouped, -⟩ := merge_two_files
  exact ⟨t, hregrouped, directory_hash_commits_iff directory_two_files ht hregrouped.noCollision⟩

/-- The hash does not fix the files. -/
theorem directory_hash_not_commits : ¬∀ t hash,
    Directory ⟨some, fun _ => true, fun _ => true⟩ no_json t → NoCollision two_files t →
    directory_hash two_files = .ok hash → directory_hash t = .ok hash → SameFiles two_files t := by
  intro h
  obtain ⟨t, hash, ht, hhash, hhash', hregrouped, hdifferent⟩ := merge_two_files
  exact hdifferent (h t hash ht hregrouped.noCollision hhash hhash')

end Bogbin.Bogvm
