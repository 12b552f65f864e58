import Bogbin.Bogvm.Registry
import Bogbin.Bogvm.ArchiveTree

/-!
# Parts of a directory that stay

`Framed` says that a change of a directory touches only some of its files and directories.  Whatever
is read of the others is the same afterwards (`Framed.file`, `Framed.at_path`).
-/

namespace Bogbin.Bogvm

open StateExcept

variable {α : Type} {t t' t'' : Tree α} {files files' dirs dirs' : Path → Prop} {p d : Path} {x : α}

/-- Only files at the paths in `files` and directories at the paths in `dirs` may differ. -/
structure Framed (files dirs : Path → Prop) (t t' : Tree α) : Prop where
  files : ∀ {β : Type} (f : Path × α → Option β), (∀ x, files x.1 → f x = none) →
    t'.files.filterMap f = t.files.filterMap f
  dirs : ∀ {β : Type} (f : Path → Option β), (∀ d, dirs d → f d = none) →
    t'.dirs.filterMap f = t.dirs.filterMap f

namespace Framed

theorem refl : Framed files dirs t t := ⟨fun _ _ => rfl, fun _ _ => rfl⟩

theorem trans (h : Framed files dirs t t') (h' : Framed files dirs t' t'') :
    Framed files dirs t t'' :=
  ⟨fun f hf => (h'.files f hf).trans (h.files f hf), fun f hf => (h'.dirs f hf).trans (h.dirs f hf)⟩

theorem mono (h : Framed files dirs t t') (hfiles : ∀ p, files p → files' p)
    (hdirs : ∀ d, dirs d → dirs' d) : Framed files' dirs' t t' :=
  ⟨fun f hf => h.files f fun x hx => hf x (hfiles x.1 hx),
    fun f hf => h.dirs f fun d hd => hf d (hdirs d hd)⟩

/-! ## What is read -/

theorem lookup_eq_filterMap (l : List (Path × α)) :
    l.lookup p = (l.filterMap fun x => if x.1 = p then some x.2 else none).head? := by
  induction l with
  | nil => rfl
  | cons x l ih =>
    rw [List.lookup_cons, List.filterMap_cons]
    by_cases h : x.1 = p
    · rw [h, beq_self_eq_true, if_pos rfl]
      rfl
    · rw [beq_false_of_ne (Ne.symm h), if_neg h]
      exact ih

theorem file (h : Framed files dirs t t') (hp : ¬files p) : t'.file p = t.file p := by
  unfold Tree.file
  rw [lookup_eq_filterMap, lookup_eq_filterMap, h.files]
  intro x hx
  refine if_neg ?_
  rintro rfl
  exact hp hx

theorem mem_eq_filterMap (l : List Path) :
    d ∈ l ↔ (l.filterMap fun d' => if d' = d then some d' else none) ≠ [] := by
  rw [Ne, List.filterMap_eq_nil_iff]
  simp

theorem mem_dirs (h : Framed files dirs t t') (hd : ¬dirs d) : d ∈ t'.dirs ↔ d ∈ t.dirs := by
  rw [mem_eq_filterMap, mem_eq_filterMap, h.dirs]
  intro d' hd'
  refine if_neg ?_
  rintro rfl
  exact hd hd'

end Framed

/-! ## Directories in a directory -/

theorem rest_eq_some {name : List Char} {q : Path} : Tree.rest name p = some q ↔ p = name :: q := by
  cases p with
  | nil => simp [Tree.rest]
  | cons n p =>
    rw [Tree.rest, List.cons.injEq]
    split_ifs with h
    · simp [h]
    · simp [h]

theorem relative_to_eq_some {dir q : Path} : relative_to dir p = some q ↔ p = dir ++ q := by
  rw [relative_to]
  constructor
  · intro h
    split_ifs at h with hprefix
    obtain ⟨q', rfl⟩ := hprefix
    rw [List.drop_left] at h
    rw [Option.some.inj h]
  · rintro rfl
    rw [if_pos (List.prefix_append dir q), List.drop_left]

theorem at_path_cons {name : List Char} {dir : Path} :
    t.at_path (name :: dir) = (t.sub (String.ofList name)).at_path dir := rfl

theorem files_at_path (dir : Path) : (t.at_path dir).files =
    t.files.filterMap fun f => (relative_to dir f.1).map (·, f.2) := by
  induction dir generalizing t with
  | nil =>
    have hself (f : Path × α) : (relative_to [] f.1).map (·, f.2) = some f := by
      rw [relative_to_eq_some.mpr (List.nil_append f.1).symm]
      rfl
    simp only [hself, List.filterMap_some]
    rfl
  | cons name dir ih =>
    rw [at_path_cons, ih, Tree.sub, List.filterMap_filterMap]
    refine List.filterMap_congr fun f _ => ?_
    rw [String.toList_ofList]
    cases hrest : Tree.rest name f.1 with
    | some q =>
      rw [rest_eq_some.mp hrest]
      have hsame : relative_to (name :: dir) (name :: q) = relative_to dir q := by
        simp [relative_to]
      rw [hsame]
      rfl
    | none =>
      have hnone : relative_to (name :: dir) f.1 = none := by
        rw [Option.eq_none_iff_forall_ne_some]
        intro q hq
        rw [rest_eq_some.mpr (relative_to_eq_some.mp hq)] at hrest
        cases hrest
      rw [hnone]
      rfl

/-- The directories in a directory are made of the ones that are strictly below it. -/
theorem exists_dirs_at_path (dir : Path) : ∃ f : Path → Option Path,
    (∀ t : Tree α, (t.at_path dir).dirs = t.dirs.filterMap f) ∧
      ∀ d q, f d = some q → d = dir ++ q ∧ (dir ≠ [] → q ≠ []) := by
  induction dir with
  | nil =>
    refine ⟨some, fun t => List.filterMap_some.symm, fun d q h => ?_⟩
    exact ⟨Option.some.inj h, fun hne => absurd rfl hne⟩
  | cons name dir ih =>
    obtain ⟨f, hdirs, hf⟩ := ih
    refine ⟨fun d => ((Tree.rest name d).filter (· ≠ [])).bind f, fun t => ?_, fun d q h => ?_⟩
    · rw [at_path_cons, hdirs, Tree.sub, ← List.filterMap_eq_filter, List.filterMap_filterMap,
        List.filterMap_filterMap, String.toList_ofList]
      refine List.filterMap_congr fun d _ => ?_
      cases Tree.rest name d with
      | none => rfl
      | some q =>
        by_cases hq : q = []
        · simp [hq, Option.guard, Option.filter]
        · simp [hq, Option.guard, Option.filter]
    · obtain ⟨q', hrest, hq⟩ := Option.bind_eq_some_iff.mp h
      obtain ⟨hrest, hne⟩ := Option.filter_eq_some_iff.mp hrest
      obtain ⟨rfl, hbelow⟩ := hf q' q hq
      rw [rest_eq_some.mp hrest]
      refine ⟨rfl, fun _ hnil => ?_⟩
      by_cases hdir : dir = []
      · rw [hdir, hnil] at hne
        exact absurd hne (by decide)
      · exact hbelow hdir hnil

theorem mem_dirs_at_path {dir q : Path} (hne : dir ≠ []) :
    q ∈ (t.at_path dir).dirs ↔ q ≠ [] ∧ dir ++ q ∈ t.dirs := by
  induction dir generalizing t with
  | nil => exact absurd rfl hne
  | cons name dir ih =>
    have hsub (r : Path) : r ∈ (t.sub (String.ofList name)).dirs ↔ r ≠ [] ∧ name :: r ∈ t.dirs := by
      rw [Tree.sub, List.mem_filter, List.mem_filterMap, String.toList_ofList, decide_eq_true_iff,
        and_comm]
      refine and_congr_right fun _ => ?_
      constructor
      · rintro ⟨d, hd, hrest⟩
        rwa [← rest_eq_some.mp hrest]
      · intro hd
        exact ⟨_, hd, rest_eq_some.mpr rfl⟩
    rw [at_path_cons]
    by_cases hdir : dir = []
    · rw [hdir]
      exact hsub q
    · rw [ih hdir, hsub]
      refine and_congr_right fun _ => ?_
      exact and_iff_right (List.append_ne_nil_of_left_ne_nil hdir q)

section Below

variable {β : Type} {dir : Path}

/-- What is made of the files, when one new file is read among the touched ones. -/
theorem Framed.filterMap_perm (h : Framed files dirs t t') (hp : p ∉ t.paths) (f : Path × α → Option β)
    (hf : ∀ x, files x.1 → x.1 ≠ p → f x = none) :
    (t'.files.filterMap f).Perm
      ((t'.files.filter (·.1 = p)).filterMap f ++ t.files.filterMap f) := by
  have hsame : (t'.files.filter fun x => !decide (x.1 = p)).filterMap f = t.files.filterMap f := by
    have hrest := h.files (fun x => if x.1 = p then none else f x) fun x hx => by
      split_ifs with hxp
      · rfl
      · exact hf x hx hxp
    rw [List.filterMap_filter]
    refine (List.filterMap_congr fun x _ => ?_).trans (hrest.trans (List.filterMap_congr fun x hx => ?_))
    · by_cases hxp : x.1 = p <;> simp [hxp]
    · refine if_neg ?_
      rintro rfl
      exact hp (List.mem_map_of_mem hx)
  rw [← hsame, ← List.filterMap_append]
  exact (List.filter_append_perm _ _).symm.filterMap f

/-- What is made of the files in a directory, when it is made of none that is touched. -/
theorem Framed.filterMap_files_at_path (h : Framed files dirs t t') (dir : Path) (f : Path × α → Option β)
    (hf : ∀ q, files (dir ++ q) → ∀ x, f (q, x) = none) :
    (t'.at_path dir).files.filterMap f = (t.at_path dir).files.filterMap f := by
  rw [files_at_path, files_at_path, List.filterMap_filterMap, List.filterMap_filterMap, h.files]
  intro x hx
  cases hq : relative_to dir x.1 with
  | none => rfl
  | some q =>
    rw [relative_to_eq_some.mp hq] at hx
    exact hf q hx x.2

/-- What is made of the directories strictly below a directory. -/
theorem Framed.filterMap_dirs_at_path (h : Framed files dirs t t') {dir : Path} (hne : dir ≠ [])
    (f : Path → Option β) (hf : ∀ q, q ≠ [] → dirs (dir ++ q) → f q = none) :
    (t'.at_path dir).dirs.filterMap f = (t.at_path dir).dirs.filterMap f := by
  obtain ⟨g, hg, hbelow⟩ := @exists_dirs_at_path α dir
  rw [hg, hg, List.filterMap_filterMap, List.filterMap_filterMap, h.dirs]
  intro d hd
  cases hq : g d with
  | none => rfl
  | some q =>
    obtain ⟨rfl, hnil⟩ := hbelow d q hq
    exact hf q (hnil hne) hd

/-- A directory in which nothing is touched has the same files and directories. -/
theorem Framed.at_path (h : Framed files dirs t t') (hne : dir ≠ []) (hfiles : ∀ q, ¬files (dir ++ q))
    (hdirs : ∀ q, q ≠ [] → ¬dirs (dir ++ q)) : t'.at_path dir = t.at_path dir := by
  have hsame := h.filterMap_files_at_path dir some fun q hq => absurd hq (hfiles q)
  have hsame' := h.filterMap_dirs_at_path hne some fun q hne hq => absurd hq (hdirs q hne)
  rw [List.filterMap_some, List.filterMap_some] at hsame hsame'
  cases hleft : t'.at_path dir
  cases hright : t.at_path dir
  rw [hleft, hright] at hsame hsame'
  rw [Tree.mk.injEq]
  exact ⟨hsame, hsame'⟩

/-- A file in a directory. -/
theorem file_at_path {q : Path} : (t.at_path dir).file q = t.file (dir ++ q) := by
  unfold Tree.file
  rw [Framed.lookup_eq_filterMap, Framed.lookup_eq_filterMap, files_at_path, List.filterMap_filterMap]
  refine congrArg List.head? (List.filterMap_congr fun x _ => ?_)
  cases hq : relative_to dir x.1 with
  | none =>
    rw [if_neg]
    · rfl
    · rintro heq
      rw [relative_to_eq_some.mpr heq] at hq
      cases hq
  | some r =>
    rw [relative_to_eq_some.mp hq]
    simp

end Below

/-! ## Changes -/

theorem framed_put : Framed (· = p) (fun _ => False) t (t.put p x) := by
  refine ⟨fun f hf => ?_, fun f _ => rfl⟩
  rw [Tree.put, List.filterMap_append, List.filterMap_cons, hf (p, x) rfl, List.filterMap_filter]
  refine (List.append_nil _).trans (List.filterMap_congr fun y _ => ?_)
  split_ifs with hy
  · rfl
  · exact (hf y (by simpa using hy)).symm

section Outputs

variable {host : Host} {base names : Path}

/-- Making directories adds new ones on the way to the last one, also when it fails. -/
theorem framed_make_dirs (output : Output) : Framed (fun _ => False)
    (fun d => d <+: base ++ names ∧ d ∉ output.tree.dirs) output.tree
    (after (make_dirs host base names output)).tree := by
  induction names generalizing base output with
  | nil => exact .refl
  | cons name rest ih =>
    have hpath : base ++ [name] ++ rest = base ++ name :: rest := by simp
    rw [make_dirs]
    simp only [bind_of_ok get_apply]
    split_ifs with hfile hdir hname
    · exact .refl
    · rw [← hpath]
      exact ih output
    · exact .refl
    · rw [bind_of_ok set_apply]
      have hnew : Framed (fun _ => False) (fun d => d <+: base ++ name :: rest ∧ d ∉ output.tree.dirs)
          output.tree { output.tree with dirs := output.tree.dirs ++ [base ++ [name]] } := by
        refine ⟨fun f _ => rfl, fun f hf => ?_⟩
        have hnone := hf (base ++ [name]) ⟨by rw [← hpath]; exact List.prefix_append _ _, hdir⟩
        rw [List.filterMap_append, List.filterMap_cons, hnone]
        exact List.append_nil _
      refine hnew.trans ((ih ⟨⟨_, _⟩, _⟩).mono (fun _ h => h) fun d hd => ?_)
      rw [← hpath]
      exact ⟨hd.1, fun hmem => hd.2 (List.mem_append_left _ hmem)⟩

/-- A file is only written where no directory is. -/
theorem framed_write_bytes {data : Bytes} (output : Output) :
    Framed (fun q => q = p ∧ p ∉ output.tree.dirs) (fun _ => False) output.tree
      (after (write_bytes host p data output)).tree := by
  rw [write_bytes, bind_of_ok get_apply]
  cases p.getLast? with
  | none => exact .refl
  | some name =>
    dsimp only
    split_ifs with hfree
    · exact .refl
    · exact framed_put.mono (fun _ hq => ⟨hq, fun hdir => hfree (.inl hdir)⟩) fun _ hd => hd

end Outputs

end Bogbin.Bogvm
