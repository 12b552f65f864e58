import Bogbin.Bogvm.AppRun
import Bogbin.Bogvm.TreeFrame
import Bogbin.Bogvm.StoreVerify

/-!
# What a run of an app touches

A run changes the directory of the app, its receipt and the state, and makes directories on the way to
them (`framed_run_app`).
-/

namespace Bogbin.Bogvm

open StateExcept

/-! ## The frame of a run -/

section Frame

variable {α : Type} {host : Host} {x : EStateM PyError Output Unit} {w : RunWorkspace}
  {output : Output} {path : Path} {data : Bytes}

theorem framed_replace {t contents : Tree α} {dir : Path} :
    Framed (dir <+: ·) (dir <+: ·) t (t.replace dir contents) := by
  constructor
  · intro β f hf
    have hnew : (contents.files.map fun x => (dir ++ x.1, x.2)).filterMap f = [] := by
      refine List.filterMap_eq_nil_iff.mpr fun x hx => ?_
      obtain ⟨y, -, rfl⟩ := List.mem_map.mp hx
      exact hf _ (List.prefix_append dir y.1)
    rw [Tree.replace, List.filterMap_append, hnew, List.append_nil, List.filterMap_filter]
    refine List.filterMap_congr fun x _ => ?_
    split_ifs with hx
    · rfl
    · exact (hf x (by simpa using hx)).symm
  · intro β f hf
    have hnew : (contents.dirs.map (dir ++ ·)).filterMap f = [] := by
      refine List.filterMap_eq_nil_iff.mpr fun d hd => ?_
      obtain ⟨e, -, rfl⟩ := List.mem_map.mp hd
      exact hf _ (List.prefix_append dir e)
    rw [Tree.replace, List.filterMap_append, hnew, List.append_nil, List.filterMap_filter]
    refine List.filterMap_congr fun d _ => ?_
    split_ifs with hd
    · rfl
    · rw [decide_eq_true_iff, not_not] at hd
      exact (hf d hd.1).symm

theorem tree_after_on_tree : (after (on_tree x w)).tree = (after (x ⟨w.tree, []⟩)).tree := by
  rw [on_tree]
  cases x ⟨w.tree, []⟩ <;> rfl

theorem lists_after_on_tree : (after (on_tree x w)).receipts = w.receipts ∧
    (after (on_tree x w)).archives = w.archives := by
  rw [on_tree]
  cases x ⟨w.tree, []⟩ <;> exact ⟨rfl, rfl⟩

theorem framed_write_json {files dirs : Path → Prop} (output : Output)
    (hpath : path ∉ output.tree.dirs → files path)
    (hdirs : ∀ d, d <+: path.dropLast → d ∉ output.tree.dirs → dirs d) :
    Framed files dirs output.tree (after (write_json host path data output)).tree := by
  have hmade := @framed_make_dirs host [] path.dropLast output
  have hmono {o : Output} (h : Framed (fun _ => False)
      (fun d => d <+: path.dropLast ∧ d ∉ output.tree.dirs) output.tree o.tree) :
      Framed files dirs output.tree o.tree :=
    h.mono (fun _ h => h.elim) fun d hd => hdirs d hd.1 hd.2
  rw [write_json]
  refine after_bind_of (P := fun o : Output => Framed files dirs output.tree o.tree)
    (Q := fun o : Output => Framed (fun _ => False)
      (fun d => d <+: path.dropLast ∧ d ∉ output.tree.dirs) output.tree o.tree) hmade
    (fun o h => hmono h) fun _ middle h => (hmono h).trans ?_
  refine (framed_write_bytes middle).mono (fun p hp => ?_) fun _ hd => hd.elim
  obtain ⟨rfl, hnew⟩ := hp
  exact hpath fun hmem => hnew ((h.mem_dirs fun hd => hd.2 hmem).mpr hmem)

end Frame

/-- An index name is one part of a path. -/
theorem plainPart_safe_name {letters : Char → Bool} {value : String} :
    PlainPart (safe_name letters value).toList := by
  rw [safe_name]
  split_ifs with hstripped
  · exact ⟨by decide, by decide, by decide⟩
  · rw [String.toList_ofList]
    refine ⟨hstripped, fun hdot => ?_, fun hslash => ?_⟩
    · have hlast := Tokens.getLast_strip (c := '.') (by rw [hdot]; rfl)
      exact absurd hlast (by decide)
    · obtain ⟨c, -, hc⟩ := List.mem_map.mp (Tokens.mem_of_mem_strip hslash)
      split_ifs at hc with hsafe
      · rw [hc] at hsafe
        exact absurd hsafe (by simp [is_alnum])
      · exact absurd hc (by decide)

/-- A character of a safe name. -/
def is_safe_char (letters : Char → Bool) (c : Char) : Bool := is_alnum letters c || c ∈ ['-', '_', '.']

theorem safe_name_safe_name {letters : Char → Bool} {value : String} :
    safe_name letters (safe_name letters value) = safe_name letters value := by
  have hsafe (s : List Char) (hchars : ∀ c ∈ s, is_safe_char letters c = true)
      (hstrip : Tokens.strip (fun c => c = '.' || c = '_') s = s) (hne : s ≠ []) :
      safe_name letters (String.ofList s) = String.ofList s := by
    have hmap : (s.map fun c => if is_alnum letters c || c ∈ ['-', '_', '.'] then c else '_') = s := by
      refine (List.map_congr_left fun c hc => if_pos (hchars c hc)).trans s.map_id'
    rw [safe_name, String.toList_ofList, hmap, hstrip, if_neg hne]
  generalize hname : safe_name letters value = name
  rw [safe_name] at hname
  split_ifs at hname with hstripped
  · rw [← hname]
    exact hsafe "item".toList (by simp [is_safe_char, is_alnum]) (by decide) (by decide)
  · rw [← hname]
    refine hsafe _ (fun c hc => ?_) Tokens.strip_strip hstripped
    obtain ⟨d, -, hd⟩ := List.mem_map.mp (Tokens.mem_of_mem_strip hc)
    split_ifs at hd with hsafe
    · rw [← hd]
      exact hsafe
    · rw [← hd]
      simp [is_safe_char]

section Run

variable {reader : WorkspaceReader} {app : VerifiedApp reader} {output : ProcessOutput}
  {texts : RunTexts} {w : RunWorkspace} {receipt_dir : Path}

/-- The path of the receipt of a run. -/
def receipt_of_run (reader : WorkspaceReader) (app : VerifiedApp reader) (receipt_dir : Path)
    (w : RunWorkspace) : Path :=
  (app_receipt reader app receipt_dir).path reader.letters (w.receipts.length + 1)

/-- The files that a run writes; the receipt is not written where a directory is. -/
def RunFile (reader : WorkspaceReader) (app : VerifiedApp reader) (receipt_dir : Path)
    (w : RunWorkspace) (p : Path) : Prop :=
  runtime_dir app.name <+: p ∨
    (p = receipt_of_run reader app receipt_dir w ∧ p ∉ w.tree.dirs) ∨ p = state_path

/-- The directories that a run makes or takes away. -/
def RunDir (reader : WorkspaceReader) (app : VerifiedApp reader) (receipt_dir : Path)
    (w : RunWorkspace) (d : Path) : Prop :=
  (runtime_dir app.name <+: d ∨ d <+: runtime_dir app.name) ∨ d <+: bogos_dir ∨
    (d <+: receipt_dir ∧ d ∉ w.tree.dirs)

/-- The name of an app in the index is one part of a path. -/
theorem path_parts_app (app : VerifiedApp reader) : path_parts app.name = [app.name.toList] := by
  have hplain : PlainPart app.name.toList := by
    obtain ⟨app_name, hname⟩ := app.indexed
    rw [hname]
    exact plainPart_safe_name
  have hposix : as_posix [app.name.toList] = app.name := by
    simp [as_posix]
  have hparts := @path_parts_as_posix [app.name.toList] (List.cons_ne_nil _ _)
    (List.forall_mem_singleton.mpr hplain)
  rwa [hposix] at hparts

theorem dropLast_receipt_of_run : (receipt_of_run reader app receipt_dir w).dropLast = receipt_dir :=
  List.dropLast_concat

theorem underscore_mem_receipt {letters : Char → Bool} {index : ℕ} {action name : String} :
    '_' ∈ receipt_file_name letters index action name :=
  List.mem_append_right _ List.mem_cons_self

/-- The name of a receipt is longer than the one of the app. -/
theorem receipt_name_not_mem (app : VerifiedApp reader) (index : ℕ) :
    receipt_file_name reader.letters index "app-run" app.name ∉ runtime_dir app.name := by
  rw [runtime_dir, path_parts_app, List.mem_append, List.mem_singleton]
  rintro (h | h)
  · have hdirs : ∀ name ∈ appdata_dir, '_' ∉ name := by decide
    exact hdirs _ h underscore_mem_receipt
  · have hlength := congrArg List.length h
    obtain ⟨app_name, hindexed⟩ := app.indexed
    have hsafe : safe_name reader.letters app.name = app.name := by
      rw [hindexed, safe_name_safe_name]
    rw [receipt_file_name, hsafe] at hlength
    simp at hlength
    omega

/-- The receipt is not in the directory of the app, when its directory is not. -/
theorem not_runtime_receipt (h : ¬runtime_dir app.name <+: receipt_dir) :
    ¬runtime_dir app.name <+: receipt_of_run reader app receipt_dir w := by
  rw [receipt_of_run, ListedReceipt.path, List.prefix_concat_iff, not_or]
  refine ⟨fun heq => receipt_name_not_mem app (w.receipts.length + 1) ?_, h⟩
  rw [heq]
  exact List.mem_append_right _ (List.mem_singleton.mpr rfl)

theorem not_receipt_runtime : ¬receipt_of_run reader app receipt_dir w <+: runtime_dir app.name := by
  intro h
  refine receipt_name_not_mem app (w.receipts.length + 1) (h.subset ?_)
  exact List.mem_append_right _ (List.mem_singleton.mpr rfl)

theorem framed_record {files dirs : Path → Prop} (w : RunWorkspace) (h : ¬runtime_dir app.name <+: receipt_dir)
    (hreceipt : receipt_of_run reader app receipt_dir w ∉ w.tree.dirs →
      files (receipt_of_run reader app receipt_dir w)) (hstate : files state_path)
    (hbogos : ∀ d, d <+: bogos_dir → dirs d)
    (hdirs : ∀ d, d <+: receipt_dir → d ∉ w.tree.dirs → dirs d) :
    Framed files dirs w.tree (after (record_app_receipt reader app receipt_dir output texts w)).tree := by
  have hwritten : written_path reader app output (receipt_of_run reader app receipt_dir w) =
      some (receipt_of_run reader app receipt_dir w) := if_neg (not_runtime_receipt h)
  unfold receipt_of_run at hwritten
  rw [record_app_receipt, bind_of_ok get_apply]
  dsimp only
  rw [hwritten]
  refine after_bind (P := fun v : RunWorkspace => Framed files dirs w.tree v.tree) ?_ fun _ v hv => ?_
  · rw [tree_after_on_tree]
    refine framed_write_json ⟨w.tree, []⟩ hreceipt fun d hd => hdirs d ?_
    rwa [← @dropLast_receipt_of_run reader app w receipt_dir]
  · rw [bind_of_ok (modify_apply _), tree_after_on_tree]
    exact hv.trans (framed_write_json ⟨v.tree, []⟩ (fun _ => hstate) fun d hd _ => hbogos d hd)

theorem framed_run_app (hdir : resolve_policy_receipt_path reader.links app.receipt_path = .ok receipt_dir)
    (houtside : ¬runtime_dir app.name <+: receipt_dir) :
    Framed (RunFile reader app receipt_dir w) (RunDir reader app receipt_dir w) w.tree
      (after (run_app reader app output texts w)).tree := by
  have hmono {t : Tree Bytes} (ht : Framed (runtime_dir app.name <+: ·)
      (fun d => runtime_dir app.name <+: d ∨ d <+: runtime_dir app.name) w.tree t) :
      Framed (RunFile reader app receipt_dir w) (RunDir reader app receipt_dir w) w.tree t :=
    ht.mono (fun _ hp => .inl hp) fun _ hd => .inl hd
  rw [run_app]
  refine after_bind_of
    (P := fun v : RunWorkspace => Framed (RunFile reader app receipt_dir w)
      (RunDir reader app receipt_dir w) w.tree v.tree)
    (Q := fun v : RunWorkspace => Framed (runtime_dir app.name <+: ·)
      (fun d => runtime_dir app.name <+: d ∨ d <+: runtime_dir app.name) w.tree v.tree ∧
        v.receipts = w.receipts) ⟨?_, lists_after_on_tree.1⟩ (fun v hv => hmono hv.1) fun _ v hv => ?_
  · rw [tree_after_on_tree]
    exact (framed_make_dirs ⟨w.tree, []⟩).mono (fun _ hp => hp.elim) fun _ hd => .inr hd.1
  · obtain ⟨hv, hreceipts⟩ := hv
    rw [hdir, bind_of_ok ofExcept_ok, bind_of_ok (modify_apply _)]
    have hprocess : Framed (runtime_dir app.name <+: ·)
        (fun d => runtime_dir app.name <+: d ∨ d <+: runtime_dir app.name) w.tree
        (v.tree.replace (runtime_dir app.name) output.contents) :=
      hv.trans (framed_replace.mono (fun _ hp => hp) fun _ hd => .inl hd)
    refine (hmono hprocess).trans ?_
    have hkept {d : Path} (hnew : d ∉ (v.tree.replace (runtime_dir app.name) output.contents).dirs)
        (hown : ¬(runtime_dir app.name <+: d ∨ d <+: runtime_dir app.name)) : d ∉ w.tree.dirs :=
      fun hmem => hnew ((hprocess.mem_dirs hown).mpr hmem)
    have hsame : receipt_of_run reader app receipt_dir ⟨v.tree.replace (runtime_dir app.name)
        output.contents, v.archives, v.receipts⟩ = receipt_of_run reader app receipt_dir w := by
      unfold receipt_of_run
      rw [hreceipts]
    refine framed_record ⟨v.tree.replace (runtime_dir app.name) output.contents, v.archives,
      v.receipts⟩ houtside ?_ (.inr (.inr rfl))
      (fun d hd => .inr (.inl hd)) fun d hd hnew => ?_
    · rw [hsame]
      intro hnew
      exact .inr (.inl ⟨rfl, hkept hnew (not_or.mpr ⟨not_runtime_receipt houtside,
        not_receipt_runtime⟩)⟩)
    · by_cases hown : runtime_dir app.name <+: d ∨ d <+: runtime_dir app.name
      · exact .inl hown
      · exact .inr (.inr ⟨hd, hkept hnew hown⟩)

end Run

end Bogbin.Bogvm
