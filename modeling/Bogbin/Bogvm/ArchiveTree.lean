import Bogbin.Bogvm.Archive
import Bogbin.Library.StateExcept

/-!
# Files written below a directory

`Laid ps` is a directory that holds files at the paths `ps`, the directories on the way to them and
nothing else.  Making the parents of a path and writing a file at it adds the path
(`Laid.restore_file`), and both succeed exactly when the names are admitted and no path is on the
way to another one (`Laid.ends_restore_file`).
-/

namespace Bogbin.Bogvm

open StateExcept

/-! ## Paths -/

/-- A name of a path that was taken apart. -/
def PlainPart (part : List Char) : Prop := part ≠ [] ∧ part ≠ ['.'] ∧ '/' ∉ part

theorem not_mem_of_mem_splitOn {c : Char} {l part : List Char} (h : part ∈ l.splitOn c) :
    c ∉ part := by
  induction l generalizing part with
  | nil =>
    obtain rfl : part = [] := by simpa using h
    exact List.not_mem_nil
  | cons x l ih =>
    rw [List.splitOn_cons_eq_if_modifyHead] at h
    obtain ⟨first, rest, hsplit⟩ := List.exists_cons_of_ne_nil (List.splitOn_ne_nil c l)
    rw [hsplit] at h ih
    split_ifs at h with hx
    · rcases List.mem_cons.mp h with rfl | hmem
      · exact List.not_mem_nil
      · exact ih hmem
    · rcases List.mem_cons.mp h with rfl | hmem
      · have hne : c ≠ x := fun heq => hx (by simp [heq])
        exact List.not_mem_cons_of_ne_of_not_mem hne (ih List.mem_cons_self)
      · exact ih (List.mem_cons_of_mem _ hmem)

theorem plainPart_of_mem {text : String} {part : List Char} (h : part ∈ path_parts text) :
    PlainPart part := by
  rw [path_parts, List.mem_filter, decide_eq_true_eq] at h
  exact ⟨h.2.1, h.2.2, not_mem_of_mem_splitOn h.1⟩

/-- Taking apart the text of a path gives the path back. -/
theorem path_parts_as_posix {parts : Path} (hne : parts ≠ [])
    (hplain : ∀ part ∈ parts, PlainPart part) : path_parts (as_posix parts) = parts := by
  rw [path_parts, as_posix, if_neg hne, String.toList_ofList,
    List.splitOn_intercalate _ (fun part hp => (hplain part hp).2.2) hne]
  refine List.filter_eq_self.mpr fun part hp => ?_
  exact decide_eq_true ⟨(hplain part hp).1, (hplain part hp).2.1⟩

theorem eq_append_of_ne_nil {p : Path} (h : p ≠ []) : ∃ init name, p = init ++ [name] :=
  ⟨p.dropLast, p.getLast h, (List.dropLast_append_getLast h).symm⟩

/-- A directory on the way to a path is one of its parents. -/
theorem proper_prefix_iff {d init : Path} {name : List Char} :
    d <+: init ++ [name] ∧ d ≠ init ++ [name] ↔ d <+: init := by
  rw [List.prefix_concat_iff]
  constructor
  · rintro ⟨rfl | h, hne⟩
    · exact absurd rfl hne
    · exact h
  · intro h
    refine ⟨.inr h, ?_⟩
    rintro rfl
    have hle := h.length_le
    simp at hle

/-! ## Trees -/

namespace Tree

variable {α : Type} {t : Tree α} {p q : Path} {x : α}

/-- The paths of the files. -/
def paths (t : Tree α) : List Path := t.files.map Prod.fst

theorem isSome_file : (t.file p).isSome ↔ p ∈ t.paths := by
  unfold file paths
  induction t.files with
  | nil => simp
  | cons f files ih =>
    rw [List.lookup_cons, List.map_cons, List.mem_cons]
    by_cases h : p = f.1
    · simp [h]
    · rw [beq_false_of_ne h]
      exact ih.trans (or_iff_right h).symm

@[simp] theorem file_cons_self {rest : List (Path × α)} {dirs : List Path} :
    (⟨(p, x) :: rest, dirs⟩ : Tree α).file p = some x := List.lookup_cons_self

theorem paths_put : (t.put p x).paths = t.paths.filter (· ≠ p) ++ [p] := by
  simp [paths, put, List.filter_map, Function.comp_def]

theorem mem_paths_put : q ∈ (t.put p x).paths ↔ q ∈ t.paths ∨ q = p := by
  by_cases h : q = p
  · simp [paths_put, h]
  · simp [paths_put, h]

theorem nodup_paths_put (h : t.paths.Nodup) : (t.put p x).paths.Nodup := by
  rw [paths_put]
  refine (h.filter _).append (List.nodup_singleton p) ?_
  simp

theorem put_of_not_mem (h : p ∉ t.paths) : (t.put p x).files = t.files ++ [(p, x)] := by
  have hself : t.files.filter (fun f => f.1 ≠ p) = t.files := by
    refine List.filter_eq_self.mpr fun f hf => decide_eq_true fun heq => h ?_
    exact heq ▸ List.mem_map_of_mem hf
  rw [put, hself]

@[simp] theorem dirs_put : (t.put p x).dirs = t.dirs := rfl

theorem file_put : (t.put p x).file q = if q = p then some x else t.file q := by
  have hfiles (files : List (Path × α)) : (files.filter (fun f => f.1 ≠ p) ++ [(p, x)]).lookup q =
      if q = p then some x else files.lookup q := by
    induction files with
    | nil =>
      by_cases h : q = p
      · simp [h]
      · rw [if_neg h]
        simp [List.lookup_cons, beq_false_of_ne h]
    | cons f files ih =>
      by_cases hf : f.1 = p
      · rw [List.filter_cons_of_neg (by simpa using hf), ih, List.lookup_cons]
        by_cases h : q = p
        · rw [if_pos h, if_pos h]
        · rw [beq_false_of_ne (hf ▸ h)]
      · rw [List.filter_cons_of_pos (by simpa using hf), List.cons_append, List.lookup_cons, ih,
          List.lookup_cons]
        by_cases h : q = f.1
        · subst h
          simp [hf]
        · rw [beq_false_of_ne h]
  exact hfiles t.files

end Tree

/-! ## Making directories -/

section Directories

variable {host : Host} {base names : Path} {output output' : Output}

/-- What `make_dirs` has done. -/
structure Made (host : Host) (base names : Path) (output output' : Output) : Prop where
  strayed : output'.strayed = output.strayed
  files : output'.tree.files = output.tree.files
  dirs : ∀ d, d ∈ output'.tree.dirs ↔
    d ∈ output.tree.dirs ∨ ∃ q, q ≠ [] ∧ q <+: names ∧ d = base ++ q
  free : ∀ q, q ≠ [] → q <+: names → base ++ q ∉ output.tree.paths
  admitted : ∀ q name, q ++ [name] <+: names →
    base ++ q ++ [name] ∈ output.tree.dirs ∨ host.admits name = true

theorem Made.cons {name : List Char} {rest : Path} {middle : Output}
    (h : Made host (base ++ [name]) rest middle output')
    (hstrayed : middle.strayed = output.strayed) (hfiles : middle.tree.files = output.tree.files)
    (hdirs : ∀ d, d ∈ middle.tree.dirs ↔ d ∈ output.tree.dirs ∨ d = base ++ [name])
    (hfree : base ++ [name] ∉ output.tree.paths)
    (hname : base ++ [name] ∈ output.tree.dirs ∨ host.admits name = true) :
    Made host base (name :: rest) output output' := by
  have hpaths : middle.tree.paths = output.tree.paths := congrArg (List.map Prod.fst) hfiles
  refine ⟨h.strayed.trans hstrayed, h.files.trans hfiles, fun d => ?_, fun q hne hq => ?_,
    fun q n hq => ?_⟩
  · rw [h.dirs, hdirs]
    constructor
    · rintro ((hd | rfl) | ⟨q, -, hq, rfl⟩)
      · exact .inl hd
      · exact .inr ⟨[name], by simp, by simp, rfl⟩
      · exact .inr ⟨name :: q, by simp, by simpa using hq, by simp⟩
    · rintro (hd | ⟨q, hne, hq, rfl⟩)
      · exact .inl (.inl hd)
      · obtain rfl | ⟨q, rfl, hq'⟩ := List.prefix_cons_iff.mp hq
        · exact absurd rfl hne
        · by_cases hnil : q = []
          · exact .inl (.inr (by rw [hnil]))
          · exact .inr ⟨q, hnil, hq', by simp⟩
  · obtain rfl | ⟨q, rfl, hq'⟩ := List.prefix_cons_iff.mp hq
    · exact absurd rfl hne
    · by_cases hnil : q = []
      · rwa [hnil]
      · have := h.free q hnil hq'
        rw [hpaths] at this
        simpa using this
  · obtain hq | ⟨q', heq, hq⟩ := List.prefix_cons_iff.mp hq
    · simp at hq
    · cases q with
      | nil =>
        obtain ⟨rfl, -⟩ := List.cons.inj heq
        simpa using hname
      | cons _ q =>
        obtain ⟨rfl, rfl⟩ := List.cons.inj heq
        rcases h.admitted q n hq with hd | hn
        · rcases (hdirs _).mp hd with hd | heq
          · exact .inl (by simpa using hd)
          · simp at heq
        · exact .inr hn

theorem made_of_ok (h : make_dirs host base names output = .ok ⟨⟩ output') :
    Made host base names output output' := by
  induction names generalizing base output with
  | nil =>
    simp only [make_dirs, pure_apply, EStateM.Result.ok.injEq, true_and] at h
    subst h
    exact ⟨rfl, rfl, by simp +contextual, by simp +contextual, by simp⟩
  | cons name rest ih =>
    rw [make_dirs] at h
    simp only [bind_of_ok get_apply] at h
    split_ifs at h with hfile hdir hname
    · simp at h
    · have hfree := mt Tree.isSome_file.mpr hfile
      refine (ih h).cons rfl rfl (fun d => ?_) hfree (.inl hdir)
      constructor
      · exact .inl
      · rintro (hd | rfl)
        · exact hd
        · exact hdir
    · simp at h
    · have hfree := mt Tree.isSome_file.mpr hfile
      rw [bind_of_ok set_apply] at h
      exact (ih h).cons rfl rfl (fun d => by simp) hfree (.inr (by simpa using hname))

theorem ends_make_dirs (hfree : ∀ q, q ≠ [] → q <+: names → base ++ q ∉ output.tree.paths)
    (hadmits : ∀ q name, q ++ [name] <+: names →
      base ++ q ++ [name] ∈ output.tree.dirs ∨ host.admits name = true) :
    Ends (make_dirs host base names) output := by
  induction names generalizing base output with
  | nil => exact ⟨⟨⟩, output, rfl⟩
  | cons name rest ih =>
    have hhere : ¬(output.tree.file (base ++ [name])).isSome := by
      rw [Tree.isSome_file]
      exact hfree [name] (by simp) (by simp)
    have hbelow : ∀ q, q ≠ [] → q <+: rest → base ++ [name] ++ q ∉ output.tree.paths := by
      intro q _ hq
      simpa using hfree (name :: q) (by simp) (by simpa using hq)
    have hrest : ∀ q n, q ++ [n] <+: rest →
        base ++ [name] ++ q ++ [n] ∈ output.tree.dirs ∨ host.admits n = true := by
      intro q n hq
      simpa using hadmits (name :: q) n (by simpa using hq)
    have hfirst : base ++ [name] ∈ output.tree.dirs ∨ host.admits name = true := by
      simpa using hadmits [] name (by simp)
    rw [make_dirs]
    refine ends_bind.mpr ⟨output, output, rfl, ?_⟩
    dsimp only
    rw [if_neg hhere]
    split_ifs with hdir hname
    · exact ih hbelow hrest
    · simp [hfirst.resolve_left hdir] at hname
    · refine ends_bind.mpr ⟨_, _, set_apply, ih hbelow fun q n hq => ?_⟩
      exact (hrest q n hq).imp_left (List.mem_append_left _)

end Directories

/-! ## Writing files -/

/-- The directory holds files at the paths `ps` and the directories on the way to them. -/
structure Laid (host : Host) (ps : List Path) (t : Tree Bytes) : Prop where
  nodup : t.paths.Nodup
  files : ∀ p, p ∈ t.paths ↔ p ∈ ps
  dirs : ∀ d, d ∈ t.dirs ↔ d ≠ [] ∧ ∃ p ∈ ps, d <+: p ∧ d ≠ p
  nonempty : ∀ p ∈ ps, p ≠ []
  admitted : ∀ p ∈ ps, ∀ name ∈ p, host.admits name = true
  apart : ∀ p ∈ ps, ∀ q ∈ ps, p <+: q → p = q

/-- A file can be written at `p` next to files at `ps`. -/
structure Fits (host : Host) (ps : List Path) (p : Path) : Prop where
  nonempty : p ≠ []
  admitted : ∀ name ∈ p, host.admits name = true
  below : ∀ q ∈ ps, q <+: p → q = p
  above : ∀ q ∈ ps, p <+: q → p = q

section Files

variable {host : Host} {ps : List Path} {p : Path} {data : Bytes} {output output' : Output}

theorem laid_empty : Laid host [] .empty :=
  ⟨List.nodup_nil, fun _ => Iff.rfl, by simp [Tree.empty], nofun, nofun, nofun⟩

theorem write_bytes_eq_ok (h : write_bytes host p data output = .ok ⟨⟩ output') :
    (∃ init name, p = init ++ [name] ∧ host.admits name = true) ∧ p ∉ output.tree.dirs ∧
      output' = { output with tree := output.tree.put p data } := by
  rw [write_bytes, bind_of_ok get_apply] at h
  cases hname : p.getLast? with
  | none =>
    rw [hname] at h
    simp at h
  | some name =>
    rw [hname] at h
    dsimp only at h
    split_ifs at h with hbad
    · simp at h
    · rw [not_or, Bool.not_eq_true', Bool.not_eq_false] at hbad
      obtain ⟨init, hinit⟩ := List.getLast?_eq_some_iff.mp hname
      exact ⟨⟨init, name, hinit, hbad.2⟩, hbad.1, by simpa using h.symm⟩

theorem write_bytes_of_admits {init : Path} {name : List Char} (hname : host.admits name = true)
    (hdir : init ++ [name] ∉ output.tree.dirs) :
    write_bytes host (init ++ [name]) data output =
      .ok ⟨⟩ { output with tree := output.tree.put (init ++ [name]) data } := by
  rw [write_bytes]
  simp only [bind_of_ok get_apply, List.getLast?_concat]
  rw [if_neg (by simp [hname, hdir])]
  rfl

/-- The directory after the parents of a path are made and the file is written. -/
theorem Laid.put {init : Path} {name : List Char} (h : Laid host ps output.tree)
    (hmade : Made host [] init output output') (hname : host.admits name = true)
    (hdir : init ++ [name] ∉ output'.tree.dirs) :
    Laid host (ps ++ [init ++ [name]]) (output'.tree.put (init ++ [name]) data) := by
  have hpaths : output'.tree.paths = output.tree.paths :=
    congrArg (List.map Prod.fst) hmade.files
  have hdirs (d : Path) : d ∈ output'.tree.dirs ↔
      d ∈ output.tree.dirs ∨ (d ≠ [] ∧ d <+: init) := by
    rw [hmade.dirs]
    refine or_congr_right ⟨?_, fun ⟨hne, hd⟩ => ⟨d, hne, hd, rfl⟩⟩
    rintro ⟨q, hne, hq, rfl⟩
    exact ⟨hne, hq⟩
  refine ⟨Tree.nodup_paths_put (hpaths ▸ h.nodup), fun p => ?_, fun d => ?_, fun p hp => ?_,
    fun p hp n hn => ?_, fun p hp q hq hstart => ?_⟩
  · rw [Tree.mem_paths_put, hpaths, h.files]
    simp
  · rw [Tree.dirs_put, hdirs, h.dirs]
    simp only [List.mem_append, List.mem_singleton, or_and_right, exists_or, exists_eq_left,
      proper_prefix_iff]
    exact and_or_left.symm
  · rcases List.mem_append.mp hp with hp | hp
    · exact h.nonempty p hp
    · obtain rfl := List.mem_singleton.mp hp
      simp
  · rcases List.mem_append.mp hp with hp | hp
    · exact h.admitted p hp n hn
    · obtain rfl := List.mem_singleton.mp hp
      rcases List.mem_append.mp hn with hn | hn
      · obtain ⟨l, r, hlr⟩ := List.append_of_mem hn
        have hstart : l ++ [n] <+: init := ⟨r, by simp [hlr]⟩
        rcases hmade.admitted l n hstart with hd | hn
        · -- the directory was there, so it is on the way to an older file
          obtain ⟨-, p', hp', hpre, -⟩ := (h.dirs _).mp hd
          exact h.admitted p' hp' n (hpre.subset (by simp))
        · exact hn
      · obtain rfl := List.mem_singleton.mp hn
        exact hname
  · rcases List.mem_append.mp hp with hp | hp <;> rcases List.mem_append.mp hq with hq | hq
    · exact h.apart p hp q hq hstart
    · obtain rfl := List.mem_singleton.mp hq
      by_contra hne
      have hpre := proper_prefix_iff.mp ⟨hstart, hne⟩
      exact hmade.free p (h.nonempty p hp) hpre ((h.files p).mpr hp)
    · obtain rfl := List.mem_singleton.mp hp
      by_contra hne
      exact hdir ((hdirs _).mpr (.inl ((h.dirs _).mpr ⟨by simp, q, hq, hstart, hne⟩)))
    · rw [List.mem_singleton.mp hp, List.mem_singleton.mp hq]

theorem Laid.fits (h : Laid host (ps ++ [p]) output.tree) : Fits host ps p := by
  have hp : p ∈ ps ++ [p] := by simp
  have hmem (q : Path) (hq : q ∈ ps) : q ∈ ps ++ [p] := List.mem_append_left _ hq
  exact ⟨h.nonempty p hp, h.admitted p hp, fun q hq => h.apart q (hmem q hq) p hp,
    fun q hq => h.apart p hp q (hmem q hq)⟩

/-- A path that fits is not a directory after its parents are made. -/
theorem Fits.not_mem_dirs {init : Path} {name : List Char} (hfits : Fits host ps (init ++ [name]))
    (h : Laid host ps output.tree) (hmade : Made host [] init output output') :
    init ++ [name] ∉ output'.tree.dirs := by
  rw [hmade.dirs, h.dirs]
  rintro (⟨-, q, hq, hpre, hne⟩ | ⟨q, -, hq, heq⟩)
  · exact hne (hfits.above q hq hpre)
  · have hle := hq.length_le
    rw [← List.nil_append q, ← heq] at hle
    simp at hle

theorem Fits.ends_make_dirs {init : Path} {name : List Char}
    (hfits : Fits host ps (init ++ [name])) (h : Laid host ps output.tree) :
    Ends (make_dirs host [] init) output := by
  refine Bogvm.ends_make_dirs (fun q hne hq hmem => ?_) fun q n hq =>
    .inr (hfits.admitted n (List.mem_append_left _ (hq.subset (by simp))))
  rw [List.nil_append, h.files] at hmem
  exact (proper_prefix_iff.mpr hq).2 (hfits.below q hmem (proper_prefix_iff.mpr hq).1)

end Files

/-! ## Restoring -/

section Restoring

variable {host : Host} {archive : Tree File} {manifest : Manifest} {entry : ManifestEntry}
  {entries : List ManifestEntry} {ps : List Path} {file : TreeFile} {files : List TreeFile}
  {output output' : Output}

theorem contained_of_read {path : String} {data : Bytes}
    (hread : read_archive_file host archive manifest path = .ok data) :
    is_contained path = true := by
  rw [read_archive_file] at hread
  by_contra hc
  rw [if_pos (by simpa using hc)] at hread
  cases hread

/-- A restored file has fitted, and was read from the archive. -/
theorem Laid.restore_file (h : Laid host ps output.tree)
    (hok : restore_file host archive manifest entry output = .ok file output') :
    ∃ data, read_archive_file host archive manifest entry.path = .ok data ∧
      file = read_file entry.path data ∧ output'.strayed = output.strayed ∧
      output'.tree.files = (output.tree.put (path_parts entry.path) data).files ∧
      Laid host (ps ++ [path_parts entry.path]) output'.tree := by
  rw [Bogvm.restore_file] at hok
  obtain ⟨⟨⟩, middle, hparent, hafter⟩ := StateExcept.bind_eq_ok.mp hok
  obtain ⟨data, middle', hofExcept, hthen⟩ := StateExcept.bind_eq_ok.mp hafter
  obtain ⟨hread, rfl⟩ := ofExcept_eq_ok.mp hofExcept
  obtain ⟨⟨⟩, last, hwrite, hreturn⟩ := StateExcept.bind_eq_ok.mp hthen
  obtain ⟨⟨init, name, hparts, hname⟩, hdir, hlast⟩ := write_bytes_eq_ok hwrite
  have hcontained := contained_of_read hread
  rw [make_parent, if_pos hcontained, hparts, List.dropLast_concat] at hparent
  have hmade := made_of_ok hparent
  obtain ⟨rfl, rfl⟩ : read_file entry.path data = file ∧ last = output' := by simpa using hreturn
  subst hlast
  rw [hparts] at hdir ⊢
  refine ⟨data, hread, rfl, hmade.strayed, ?_, h.put hmade hname hdir⟩
  simp only [Tree.put, hmade.files]

theorem Laid.ends_restore_file (h : Laid host ps output.tree)
    (hfits : Fits host ps (path_parts entry.path)) {data : Bytes}
    (hread : read_archive_file host archive manifest entry.path = .ok data) :
    Ends (Bogvm.restore_file host archive manifest entry) output := by
  obtain ⟨init, name, hparts⟩ := eq_append_of_ne_nil hfits.nonempty
  rw [hparts] at hfits
  obtain ⟨⟨⟩, middle, hdirs⟩ := hfits.ends_make_dirs h
  have hcontained := contained_of_read hread
  rw [Bogvm.restore_file]
  have hwrite : write_bytes host (init ++ [name]) data middle = .ok ⟨⟩
      { middle with tree := middle.tree.put (init ++ [name]) data } :=
    write_bytes_of_admits (hfits.admitted name (by simp)) (hfits.not_mem_dirs h (made_of_ok hdirs))
  refine ends_bind.mpr ⟨⟨⟩, middle, ?_, ends_bind.mpr ⟨data, middle, ?_, ends_bind.mpr
    ⟨⟨⟩, _, hparts ▸ hwrite, _, _, rfl⟩⟩⟩
  · rw [make_parent, if_pos hcontained, hparts, List.dropLast_concat, hdirs]
  · rw [hread]
    rfl

/-- What reading all files of a list gives. -/
def read_files (host : Host) (archive : Tree File) (manifest : Manifest) :
    List ManifestEntry → Except PyError (List TreeFile)
  | [] => .ok []
  | entry :: rest => do
    let data ← read_archive_file host archive manifest entry.path
    let files ← read_files host archive manifest rest
    .ok (read_file entry.path data :: files)

theorem read_files_cons_eq_ok :
    read_files host archive manifest (entry :: entries) = .ok files ↔
      ∃ data rest, read_archive_file host archive manifest entry.path = .ok data ∧
        read_files host archive manifest entries = .ok rest ∧
        files = read_file entry.path data :: rest := by
  rw [read_files]
  cases read_archive_file host archive manifest entry.path with
  | error e => simp [bind, Except.bind]
  | ok data =>
    cases read_files host archive manifest entries with
    | error e => simp [bind, Except.bind]
    | ok rest => simp [bind, Except.bind, eq_comm]

/-- The paths of the entries. -/
def parts_of (entries : List ManifestEntry) : List Path := entries.map (path_parts ·.path)

theorem Laid.restore_files (h : Laid host ps output.tree)
    (hok : restore_files host archive manifest entries output = .ok files output') :
    read_files host archive manifest entries = .ok files ∧ output'.strayed = output.strayed ∧
      Laid host (ps ++ parts_of entries) output'.tree := by
  induction entries generalizing ps files output with
  | nil =>
    obtain ⟨rfl, rfl⟩ : files = [] ∧ output' = output := by
      simpa [Bogvm.restore_files, eq_comm] using hok
    exact ⟨rfl, rfl, by simpa [parts_of] using h⟩
  | cons entry entries ih =>
    rw [Bogvm.restore_files] at hok
    obtain ⟨file, middle, hfile, hafter⟩ := StateExcept.bind_eq_ok.mp hok
    obtain ⟨rest, last, hrest, hreturn⟩ := StateExcept.bind_eq_ok.mp hafter
    obtain ⟨rfl, rfl⟩ : file :: rest = files ∧ last = output' := by simpa using hreturn
    obtain ⟨data, hread, rfl, hstrayed, -, hlaid⟩ := h.restore_file hfile
    obtain ⟨hreads, hstrayed', hlaid'⟩ := ih hlaid hrest
    refine ⟨read_files_cons_eq_ok.mpr ⟨data, rest, hread, hreads, rfl⟩,
      hstrayed'.trans hstrayed, ?_⟩
    simpa [parts_of] using hlaid'

theorem Laid.ends_restore_files (h : Laid host ps output.tree)
    (hread : ∃ files, read_files host archive manifest entries = .ok files)
    (hnonempty : ∀ p ∈ parts_of entries, p ≠ [])
    (hadmitted : ∀ p ∈ parts_of entries, ∀ name ∈ p, host.admits name = true)
    (hapart : ∀ p ∈ ps ++ parts_of entries, ∀ q ∈ ps ++ parts_of entries, p <+: q → p = q) :
    Ends (Bogvm.restore_files host archive manifest entries) output := by
  induction entries generalizing ps output with
  | nil => exact ⟨[], output, rfl⟩
  | cons entry entries ih =>
    obtain ⟨files, hread⟩ := hread
    obtain ⟨data, rest, hdata, hrest, -⟩ := read_files_cons_eq_ok.mp hread
    have hhere : path_parts entry.path ∈ parts_of (entry :: entries) := by simp [parts_of]
    have hfits : Fits host ps (path_parts entry.path) :=
      ⟨hnonempty _ hhere, hadmitted _ hhere,
        fun q hq => hapart q (List.mem_append_left _ hq) _ (List.mem_append_right _ hhere),
        fun q hq => hapart _ (List.mem_append_right _ hhere) q (List.mem_append_left _ hq)⟩
    obtain ⟨file, middle, hfile⟩ := h.ends_restore_file hfits hdata
    obtain ⟨-, -, -, -, -, hlaid⟩ := h.restore_file hfile
    have hsub : parts_of entries ⊆ parts_of (entry :: entries) := by
      simp [parts_of]
    have hsplit : ps ++ [path_parts entry.path] ++ parts_of entries =
        ps ++ parts_of (entry :: entries) := by
      simp [parts_of]
    rw [Bogvm.restore_files]
    refine ends_bind.mpr ⟨file, middle, hfile, ends_bind.mpr ?_⟩
    obtain ⟨rest', last, hlast⟩ := ih hlaid ⟨rest, hrest⟩ (fun p hp => hnonempty p (hsub hp))
      (fun p hp => hadmitted p (hsub hp)) (hsplit ▸ hapart)
    exact ⟨rest', last, hlast, _, _, rfl⟩

end Restoring

end Bogbin.Bogvm
