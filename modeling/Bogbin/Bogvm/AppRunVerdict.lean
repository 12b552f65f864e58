import Bogbin.Bogvm.AppRunLaw
import Bogbin.Bogvm.DirectoryHash

/-!
# Which apps write their receipts harmlessly

In a workspace where all packages, the ledger and the older receipts are in order, every run of an app
is harmless exactly when its receipts lie apart (`run_app_harmless_iff`).
-/

namespace Bogbin.Bogvm

open Framing StateExcept

/-! ## A run that ends -/

section Effects

variable {host : Host} {o o' : Output} {path : Path} {data : Bytes}

/-- What writing a file has done. -/
structure WrittenOut (path : Path) (data : Bytes) (t t' : Tree Bytes) : Prop where
  file : t'.file path = some data
  parents : ∀ d, d ≠ [] → d <+: path.dropLast → d ∈ t'.dirs
  dirs : ∀ d ∈ t.dirs, d ∈ t'.dirs
  rest : ∀ q, q ≠ path → t'.file q = t.file q

theorem Made.file {base names q : Path} (h : Made host base names o o') :
    o'.tree.file q = o.tree.file q := by
  unfold Tree.file
  rw [h.files]

theorem writtenOut_of_ok (h : write_json host path data o = .ok ⟨⟩ o') :
    WrittenOut path data o.tree o'.tree := by
  obtain ⟨⟨⟩, middle, hdirs, hwrite⟩ := StateExcept.bind_eq_ok.mp h
  have hmade := made_of_ok hdirs
  obtain ⟨-, -, rfl⟩ := write_bytes_eq_ok hwrite
  refine ⟨?_, fun d hne hd => ?_, fun d hd => ?_, fun q hq => ?_⟩
  · rw [Tree.file_put, if_pos rfl]
  · exact (hmade.dirs d).mpr (.inr ⟨d, hne, hd, rfl⟩)
  · exact (hmade.dirs d).mpr (.inl hd)
  · rw [Tree.file_put, if_neg hq, hmade.file]

/-- A file in directories that exist can be written over. -/
theorem ends_write_json {init : Path} {name : List Char} (hname : host.admits name = true)
    (hpath : init ++ [name] ∉ o.tree.dirs)
    (hinit : ∀ d, d ≠ [] → d <+: init → d ∈ o.tree.dirs ∧ d ∉ o.tree.paths) :
    Ends (write_json host (init ++ [name]) data) o := by
  obtain ⟨⟨⟩, middle, hdirs⟩ : Ends (make_dirs host [] init) o := by
    refine ends_make_dirs (fun d hne hd => (hinit d hne hd).2) fun d n hd => .inl ?_
    exact (hinit _ (by simp) hd).1
  have hnew : init ++ [name] ∉ middle.tree.dirs := by
    rw [(made_of_ok hdirs).dirs]
    rintro (hold | ⟨d, -, hd, heq⟩)
    · exact hpath hold
    · rw [List.nil_append] at heq
      have hlength := hd.length_le
      rw [← heq, List.length_append, List.length_singleton] at hlength
      omega
  rw [write_json, List.dropLast_concat]
  exact ends_bind.mpr ⟨⟨⟩, middle, hdirs, ⟨⟩, _, write_bytes_of_admits hname hnew⟩

theorem on_tree_eq_ok {x : EStateM PyError Output Unit} {w w' : RunWorkspace} :
    on_tree x w = .ok ⟨⟩ w' ↔ ∃ o, x ⟨w.tree, []⟩ = .ok ⟨⟩ o ∧ w' = { w with tree := o.tree } := by
  rw [on_tree]
  cases x ⟨w.tree, []⟩ with
  | ok a o =>
    dsimp only
    rw [EStateM.Result.ok.injEq]
    constructor
    · rintro ⟨-, rfl⟩
      exact ⟨o, rfl, rfl⟩
    · rintro ⟨o', heq, rfl⟩
      obtain ⟨-, rfl⟩ := EStateM.Result.ok.inj heq
      exact ⟨rfl, rfl⟩
  | error e o => simp

section Run

variable {reader : WorkspaceReader} {app : VerifiedApp reader} {output : ProcessOutput}
  {texts : RunTexts} {w w' : RunWorkspace} {receipt_dir q : Path}

/-- The workspace after a process in a directory that was made. -/
def processed (app : VerifiedApp reader) (output : ProcessOutput) (w : RunWorkspace) (o : Output) :
    RunWorkspace :=
  { w with tree := o.tree.replace (runtime_dir app.name) output.contents }

theorem run_app_of_made (hmade : make_dirs reader.host [] (runtime_dir app.name) ⟨w.tree, []⟩ = .ok ⟨⟩ o)
    (hdir : resolve_policy_receipt_path reader.links app.receipt_path = .ok receipt_dir) :
    run_app reader app output texts w =
      record_app_receipt reader app receipt_dir output texts (processed app output w o) := by
  rw [run_app, bind_of_ok (on_tree_eq_ok.mpr ⟨o, hmade, rfl⟩), hdir, bind_of_ok ofExcept_ok,
    bind_of_ok (modify_apply _)]
  rfl

theorem made_of_run (h : run_app reader app output texts w = .ok ⟨⟩ w') :
    ∃ o receipt_dir, make_dirs reader.host [] (runtime_dir app.name) ⟨w.tree, []⟩ = .ok ⟨⟩ o ∧
      resolve_policy_receipt_path reader.links app.receipt_path = .ok receipt_dir := by
  obtain ⟨⟨⟩, v, hmade, hrest⟩ := StateExcept.bind_eq_ok.mp h
  obtain ⟨o, hmade, -⟩ := on_tree_eq_ok.mp hmade
  obtain ⟨receipt_dir, v', hdir, -⟩ := StateExcept.bind_eq_ok.mp hrest
  exact ⟨o, receipt_dir, hmade, (ofExcept_eq_ok.mp hdir).1⟩

/-- Recording a receipt writes the receipt, where its path leads, and the state. -/
theorem file_record {w : RunWorkspace} (hstate : q ≠ state_path)
    (hq : ∀ path, written_path reader app output (receipt_of_run reader app receipt_dir w) = some path →
      q ≠ path) :
    (after (record_app_receipt reader app receipt_dir output texts w)).tree.file q = w.tree.file q := by
  have hwrite (path : Path) (hne : q ≠ path) (data : Bytes) (v : RunWorkspace) :
      Framed (· ≠ q) (fun _ => True) v.tree (after (on_tree (write_json reader.host path data) v)).tree := by
    rw [tree_after_on_tree]
    exact framed_write_json ⟨v.tree, []⟩ (fun _ => hne.symm) fun _ _ _ => trivial
  have hrecord : Framed (· ≠ q) (fun _ => True) w.tree
      (after (record_app_receipt reader app receipt_dir output texts w)).tree := by
    rw [record_app_receipt, bind_of_ok get_apply]
    dsimp only
    unfold receipt_of_run at hq
    cases hpath : written_path reader app output ((app_receipt reader app receipt_dir).path
      reader.letters (w.receipts.length + 1)) with
    | some path =>
      refine after_bind (P := fun v : RunWorkspace => Framed (· ≠ q) (fun _ => True) w.tree v.tree)
        (hwrite path (hq path hpath) _ w) fun _ v hv => ?_
      rw [bind_of_ok (modify_apply _)]
      exact hv.trans (hwrite state_path hstate texts.state
        ⟨v.tree, v.archives, v.receipts ++ [app_receipt reader app receipt_dir]⟩)
    | none =>
      dsimp only
      rw [bind_of_ok (modify_apply _)]
      exact hwrite state_path hstate texts.state
        ⟨w.tree, w.archives, w.receipts ++ [app_receipt reader app receipt_dir]⟩
  exact hrecord.file fun h => h rfl

/-- Recording a receipt at a path, when nothing fails. -/
theorem written_of_record {w : RunWorkspace} {path : Path}
    (hpath : written_path reader app output (receipt_of_run reader app receipt_dir w) = some path)
    (h : record_app_receipt reader app receipt_dir output texts w = .ok ⟨⟩ w') :
    ∃ t, WrittenOut path texts.receipt w.tree t ∧ WrittenOut state_path texts.state t w'.tree := by
  unfold receipt_of_run at hpath
  rw [record_app_receipt, bind_of_ok get_apply] at h
  dsimp only at h
  rw [hpath] at h
  obtain ⟨⟨⟩, v, hreceipt, hrest⟩ := StateExcept.bind_eq_ok.mp h
  obtain ⟨o, ho, rfl⟩ := on_tree_eq_ok.mp hreceipt
  rw [bind_of_ok (modify_apply _)] at hrest
  obtain ⟨o', ho', rfl⟩ := on_tree_eq_ok.mp hrest
  exact ⟨o.tree, writtenOut_of_ok ho, writtenOut_of_ok (o := ⟨o.tree, []⟩) ho'⟩

end Run

end Effects

/-! ## The hash of a directory with a new file -/

section Hashes

variable {t t' : Tree Bytes} {files files' : Tree File} {extra : List (Path × Bytes)}
  {records records' : List (Path × Bytes)}

theorem sum_lt_of_perm {β : Type} {f : β → ℕ} {l l' extra : List β} (h : l'.Perm (extra ++ l))
    (hextra : extra ≠ []) (hpos : ∀ a ∈ extra, 0 < f a) : (l.map f).sum < (l'.map f).sum := by
  obtain ⟨a, extra, rfl⟩ := List.exists_cons_of_ne_nil hextra
  rw [(h.map f).sum_eq, List.map_append, List.sum_append, List.map_cons, List.sum_cons]
  have ha := hpos a List.mem_cons_self
  omega

/-- The bytes that `tree_hash_for_directory` hashes. -/
def tree_stream (t : Tree Bytes) : Bytes :=
  (((t.files.mergeSort path_le).map fun f => read_file (as_posix f.1) f.2).mergeSort
    tree_file_le).flatMap tree_record

theorem tree_hash_for_directory_eq_hexdigest :
    tree_hash_for_directory t = hexdigest (tree_stream t) := by
  unfold tree_hash_for_directory tree_hash tree_stream
  with_reducible rfl

theorem length_tree_stream : (tree_stream t).length =
    (t.files.map fun f => (tree_record (read_file (as_posix f.1) f.2)).length).sum := by
  have hperm := (List.mergeSort_perm ((t.files.mergeSort path_le).map fun f =>
    read_file (as_posix f.1) f.2) tree_file_le).trans ((List.mergeSort_perm t.files path_le).map _)
  rw [tree_stream, List.length_flatMap, (hperm.map _).sum_eq, List.map_map]
  rfl

theorem tree_stream_ne (h : t'.files.Perm (extra ++ t.files)) (hextra : extra ≠ []) :
    tree_stream t' ≠ tree_stream t := by
  intro heq
  have hlength := congrArg List.length heq
  rw [length_tree_stream, length_tree_stream] at hlength
  refine (sum_lt_of_perm h hextra fun f _ => ?_).ne' hlength
  rw [tree_record, List.length_append, List.length_cons]
  exact Nat.lt_add_left _ (Nat.succ_pos _)

/-- The length of what a file adds to the hash of its directory. -/
def input_length (input : Path × Except PyError Bytes) : ℕ :=
  match input.2 with
  | .ok data => (hash_record input.1 data).length
  | .error _ => 0

theorem HashedTo.length (h : HashedTo files records) : (stream 0 10 (records.map frame)).length =
    (files.files.map fun f => input_length (hash_input f)).sum := by
  have hperm := ((List.mergeSort_perm files.files path_le).map hash_input).map input_length
  rw [h, List.map_map] at hperm
  rw [List.map_map] at hperm
  rw [stream, List.length_flatMap, List.map_map]
  exact hperm.sum_eq

theorem HashedTo.stream_ne {extra : List (Path × File)} (h : HashedTo files records)
    (h' : HashedTo files' records') (hfiles : files'.files.Perm (extra ++ files.files))
    (hextra : extra ≠ []) : stream 0 10 (records'.map frame) ≠ stream 0 10 (records.map frame) := by
  intro heq
  have hlength := congrArg List.length heq
  rw [h.length, h'.length] at hlength
  refine (sum_lt_of_perm hfiles hextra fun f hf => ?_).ne' hlength
  obtain ⟨data, hdata, -⟩ := h'.mem (hfiles.mem_iff.mpr (List.mem_append_left _ hf))
  rw [input_length, hash_input, hdata]
  dsimp only
  rw [hash_record, List.length_append, List.length_cons]
  exact Nat.lt_add_left _ (Nat.succ_pos _)

/-- The two hashes of a directory do not collide. -/
structure HashesApart (reader : WorkspaceReader) (t t' : Tree Bytes) : Prop where
  directory : NoCollision (loaded reader t) (loaded reader t')
  tree : hexdigest (tree_stream t) = hexdigest (tree_stream t') → tree_stream t = tree_stream t'

theorem loaded_perm {reader : WorkspaceReader} (h : t'.files.Perm (extra ++ t.files)) :
    ((loaded reader t').files).Perm
      ((extra.map fun f => (f.1, (⟨f.2, reader.load f.2⟩ : File))) ++ (loaded reader t).files) := by
  have hmap := h.map fun f => (f.1, (⟨f.2, reader.load f.2⟩ : File))
  rwa [List.map_append] at hmap

theorem directory_hash_ne {reader : WorkspaceReader} {hash : String} (h : HashesApart reader t t')
    (hfiles : t'.files.Perm (extra ++ t.files)) (hextra : extra ≠ [])
    (hbefore : directory_hash (loaded reader t) = .ok hash) :
    directory_hash (loaded reader t') ≠ .ok hash := by
  intro hafter
  obtain ⟨records, hrecords, rfl⟩ := directory_hash_eq_ok_iff.mp hbefore
  obtain ⟨records', hrecords', hsame⟩ := directory_hash_eq_ok_iff.mp hafter
  refine hrecords.stream_ne hrecords' (loaded_perm hfiles) (by simpa using hextra) ?_
  exact (h.directory records records' hrecords hrecords' hsame).symm

theorem tree_hash_ne {reader : WorkspaceReader} (h : HashesApart reader t t')
    (hfiles : t'.files.Perm (extra ++ t.files)) (hextra : extra ≠ []) :
    tree_hash_for_directory t ≠ tree_hash_for_directory t' := by
  rw [tree_hash_for_directory_eq_hexdigest, tree_hash_for_directory_eq_hexdigest]
  exact fun hsame => tree_stream_ne hfiles hextra (h.tree hsame).symm

end Hashes

/-! ## Runs that harm -/

section Harm

variable {reader : WorkspaceReader} {app : VerifiedApp reader} {texts : RunTexts}
  {w w' : RunWorkspace} {t : Tree Bytes} {receipt_dir p : Path} {o : Output}

/-- The process that leaves its directory as it is. -/
def untouched (app : VerifiedApp reader) (w : RunWorkspace) : ProcessOutput :=
  ⟨w.tree.at_path (runtime_dir app.name), some⟩

/-- The files of a host lie in directories. -/
structure Rooted (host : Host) (t : Tree Bytes) : Prop where
  admitted : ∀ p ∈ t.paths, ∃ init name, p = init ++ [name] ∧ host.admits name = true
  parents : ∀ p ∈ t.paths, ∀ d, d ≠ [] → d <+: p.dropLast → d ∈ t.dirs
  apart : ∀ d ∈ t.dirs, d ∉ t.paths

/-- All packages, the ledger and the older receipts are in order, and the app can be run. -/
structure InOrder (reader : WorkspaceReader) (app : VerifiedApp reader) (texts : RunTexts)
    (w : RunWorkspace) : Prop where
  packages : ∀ package ∈ index_keys (store_of reader w.tree),
    Completes (verify_workspace_package reader w.tree package)
  ledger : ∃ report, verify_workspace_ledger reader w.tree = .ok report
  listed : ∀ p ∈ listed_paths reader.letters w.receipts, p ∈ w.tree.paths
  older : ∃ p ∈ listed_paths reader.letters w.receipts, w.tree.file p ≠ some texts.receipt
  rooted : Rooted reader.host w.tree
  runs : Ends (run_app reader app (untouched app w) texts) w
  fresh : ∀ receipt_dir, resolve_policy_receipt_path reader.links app.receipt_path = .ok receipt_dir →
    receipt_of_run reader app receipt_dir w ∉ w.tree.paths
  distinct : ∀ p, NamedPlace reader w.tree p → HashesApart reader (w.tree.at_path p)
    ((after (run_app reader app (untouched app w) texts w)).tree.at_path p)

/-! ### The directory of the app -/

theorem file_replace_empty {t : Tree Bytes} {dir : Path} (h : dir <+: p) :
    (t.replace dir .empty).file p = none := by
  rw [← Option.not_isSome_iff_eq_none, Tree.isSome_file, Tree.paths, Tree.replace]
  simp [Tree.empty, h]

theorem Made.mem_replace {d dir : Path} {contents : Tree Bytes} {base names : Path} {output output' : Output}
    (hmade : Made reader.host base names output output') (hd : d ∈ output.tree.dirs)
    (hdir : ¬dir <+: d) : d ∈ (output'.tree.replace dir contents).dirs := by
  rw [Tree.replace, List.mem_append, List.mem_filter]
  refine .inl ⟨(hmade.dirs d).mpr (.inl hd), decide_eq_true ?_⟩
  exact fun h => hdir h.1

theorem receipts_apart (horder : InOrder reader app texts w)
    (h : ∀ output, Harmless reader w (after (run_app reader app output texts w))) :
    ∀ p ∈ listed_paths reader.letters w.receipts, ¬runtime_dir app.name <+: p := by
  intro p hp hown
  obtain ⟨⟨⟩, w', hrun⟩ := horder.runs
  obtain ⟨o, receipt_dir, hmade, hdir⟩ := made_of_run hrun
  obtain ⟨hreceipt, hstate⟩ := @listed_ne reader app receipt_dir w p hp
  have hkept := (h ⟨.empty, fun _ => none⟩).receipts p hp
  rw [run_app_of_made hmade hdir, file_record hstate] at hkept
  · rw [processed, file_replace_empty hown] at hkept
    have hlisted := Tree.isSome_file.mpr (horder.listed p hp)
    rw [← hkept] at hlisted
    cases hlisted
  · intro path hpath
    rw [written_path] at hpath
    split_ifs at hpath
    obtain rfl := Option.some.inj hpath
    exact hreceipt

theorem file_written {output : ProcessOutput} {v : RunWorkspace} {path : Path}
    (hpath : written_path reader app output (receipt_of_run reader app receipt_dir v) = some path)
    (hstate : path ≠ state_path) (hends : Ends (write_json reader.host path texts.receipt) ⟨v.tree, []⟩) :
    (after (record_app_receipt reader app receipt_dir output texts v)).tree.file path =
      some texts.receipt := by
  obtain ⟨⟨⟩, o, ho⟩ := hends
  unfold receipt_of_run at hpath
  rw [record_app_receipt, bind_of_ok get_apply]
  dsimp only
  rw [hpath]
  dsimp only
  rw [bind_of_ok (on_tree_eq_ok.mpr ⟨o, ho, rfl⟩), bind_of_ok (modify_apply _), tree_after_on_tree]
  have hframed : Framed (· ≠ path) (fun _ => True) o.tree
      (after (write_json reader.host state_path texts.state ⟨o.tree, []⟩)).tree :=
    framed_write_json ⟨o.tree, []⟩ (fun _ => hstate.symm) fun _ _ _ => trivial
  rw [hframed.file fun hne => hne rfl]
  exact (writtenOut_of_ok ho).file

/-- With its receipts in its own directory an app can have an older receipt written over. -/
theorem own_apart (horder : InOrder reader app texts w)
    (hdir : resolve_policy_receipt_path reader.links app.receipt_path = .ok receipt_dir)
    (h : ∀ output, Harmless reader w (after (run_app reader app output texts w))) :
    ¬runtime_dir app.name <+: receipt_dir := by
  intro hown
  obtain ⟨⟨⟩, w', hrun⟩ := horder.runs
  obtain ⟨o, receipt_dir', hmade, hdir'⟩ := made_of_run hrun
  obtain rfl := Except.ok.inj (hdir'.symm.trans hdir)
  have hmade' := made_of_ok hmade
  obtain ⟨p, hp, hother⟩ := horder.older
  have hlisted := horder.listed p hp
  have hapart := receipts_apart horder h p hp
  have hkept := (h ⟨.empty, fun _ => some p⟩).receipts p hp
  obtain ⟨init, name, rfl, hname⟩ := horder.rooted.admitted p hlisted
  have hpaths : o.tree.paths = w.tree.paths := congrArg (List.map Prod.fst) hmade'.files
  have hends : Ends (write_json reader.host (init ++ [name]) texts.receipt)
      ⟨(processed app ⟨.empty, fun _ => some (init ++ [name])⟩ w o).tree, []⟩ := by
    refine ends_write_json hname (fun hmem => ?_) fun d hne hd => ⟨?_, fun hmem => ?_⟩
    · have hmem' : init ++ [name] ∈ o.tree.dirs := by
        simp only [processed, Tree.replace, Tree.empty, List.map_nil, List.append_nil] at hmem
        exact List.mem_of_mem_filter hmem
      rcases (hmade'.dirs _).mp hmem' with hold | ⟨q, hne, hq, heq⟩
      · exact horder.rooted.apart _ hold hlisted
      · rw [heq] at hlisted
        exact hmade'.free q hne hq hlisted
    · refine hmade'.mem_replace (horder.rooted.parents _ hlisted d hne ?_) fun hbelow => hapart ?_
      · rwa [List.dropLast_concat]
      · exact (hbelow.trans hd).trans (List.prefix_append _ _)
    · have hmem' : d ∈ o.tree.paths := by
        simp only [processed, Tree.paths, Tree.replace, Tree.empty, List.map_nil, List.append_nil] at hmem
        obtain ⟨f, hf, rfl⟩ := List.mem_map.mp hmem
        exact List.mem_map_of_mem (List.mem_of_mem_filter hf)
      rw [hpaths] at hmem'
      refine horder.rooted.apart d (horder.rooted.parents _ hlisted d hne ?_) hmem'
      rwa [List.dropLast_concat]
  have hwritten : written_path reader app ⟨.empty, fun _ => some (init ++ [name])⟩ (receipt_of_run reader
      app receipt_dir' (processed app ⟨.empty, fun _ => some (init ++ [name])⟩ w o)) =
      some (init ++ [name]) := if_pos (hown.trans (List.prefix_append _ _))
  rw [run_app_of_made hmade hdir, file_written hwritten
    (@listed_ne reader app receipt_dir' w _ hp).2 hends] at hkept
  exact hother hkept.symm

/-! ### Directories that are read -/

theorem receipt_ne_state : receipt_of_run reader app receipt_dir w ≠ state_path := by
  intro heq
  have hmem := underscore_of_receipt (show bogos_dir ++ ["state.json".toList] = _ from heq.symm)
  exact absurd hmem (by decide)

/-- What a run of the app with an untouched directory leaves. -/
structure RunRecorded (reader : WorkspaceReader) (app : VerifiedApp reader) (receipt_dir : Path)
    (w : RunWorkspace) (t : Tree Bytes) : Prop where
  framed : Framed (RunFile reader app receipt_dir w) (RunDir reader app receipt_dir w) w.tree t
  receipt : receipt_of_run reader app receipt_dir w ∈ t.paths
  dirs : ∀ d, d ≠ [] → d <+: receipt_dir → d ∈ t.dirs

theorem recorded_of_runs (hruns : Ends (run_app reader app (untouched app w) texts) w)
    (hdir : resolve_policy_receipt_path reader.links app.receipt_path = .ok receipt_dir)
    (hown : ¬runtime_dir app.name <+: receipt_dir) :
    RunRecorded reader app receipt_dir w (after (run_app reader app (untouched app w) texts w)).tree := by
  obtain ⟨⟨⟩, w', hrun⟩ := hruns
  obtain ⟨o, receipt_dir', hmade, hdir'⟩ := made_of_run hrun
  obtain rfl := Except.ok.inj (hdir'.symm.trans hdir)
  have hwritten : written_path reader app (untouched app w) (receipt_of_run reader app receipt_dir'
      (processed app (untouched app w) w o)) = some (receipt_of_run reader app receipt_dir' w) :=
    if_neg (not_runtime_receipt hown)
  have hframed := @framed_run_app reader app (untouched app w) texts w receipt_dir' hdir hown
  have hrecord := hrun
  rw [run_app_of_made hmade hdir] at hrecord
  obtain ⟨t, hreceipt, hstate⟩ := written_of_record hwritten hrecord
  rw [hrun] at hframed ⊢
  refine ⟨hframed, ?_, fun d hne hd => ?_⟩
  · rw [← Tree.isSome_file, after, hstate.rest _ receipt_ne_state, hreceipt.file]
    rfl
  · refine hstate.dirs d (hreceipt.parents d hne ?_)
    rwa [dropLast_receipt_of_run]

/-- The receipt is a new file in a directory that is read. -/
theorem RunRecorded.at_path (h : RunRecorded reader app receipt_dir w t) {area : List Char} {rest q : Path}
    (harea : area ≠ "appdata".toList) (hrest : rest ≠ [])
    (hfresh : receipt_of_run reader app receipt_dir w ∉ w.tree.paths)
    (hreceipt : receipt_of_run reader app receipt_dir w = bogos_dir ++ area :: rest ++ q) :
    ∃ extra data, (t.at_path (bogos_dir ++ area :: rest)).files.Perm
        (extra ++ (w.tree.at_path (bogos_dir ++ area :: rest)).files) ∧ (q, data) ∈ extra := by
  obtain ⟨⟨path, data⟩, hmem, hpath⟩ := List.mem_map.mp h.receipt
  have hperm := h.framed.filterMap_perm hfresh
    (fun f => (relative_to (bogos_dir ++ area :: rest) f.1).map (·, f.2)) fun x hx hne => by
      refine Option.map_eq_none_iff.mpr (Option.eq_none_iff_forall_ne_some.mpr fun q' hq' => hne ?_)
      have hq := relative_to_eq_some.mp hq'
      rw [hq, List.append_assoc] at hx ⊢
      exact (receipt_of_runFile hx harea (by simp [hrest])).1
  rw [← files_at_path, ← files_at_path] at hperm
  refine ⟨_, data, hperm, List.mem_filterMap.mpr ⟨(path, data), ?_, ?_⟩⟩
  · rw [List.mem_filter]
    exact ⟨hmem, decide_eq_true hpath⟩
  · have hq : relative_to (bogos_dir ++ area :: rest) path = some q := by
      rw [relative_to_eq_some, ← hreceipt]
      exact hpath
    rw [hq]
    rfl

/-! ### Keys and entries -/

theorem mem_trusted_public_keys {t : Tree Bytes} {name : List Char} (h : ".pub".toList <:+ name) :
    (name, none) ∈ trusted_public_keys t ↔ trust_dir ++ [name] ∈ t.dirs := by
  have hname : key_name [name] = some name := if_pos (List.isSuffixOf_iff_suffix.mpr h)
  have hdir : [name] ∈ (t.at_path trust_dir).dirs ↔ trust_dir ++ [name] ∈ t.dirs :=
    (mem_dirs_at_path (by decide)).trans (and_iff_right (List.cons_ne_nil _ _))
  rw [trusted_public_keys, List.mem_mergeSort, List.mem_append, ← hdir]
  constructor
  · rintro (hmem | hmem)
    · obtain ⟨f, -, hf⟩ := List.mem_filterMap.mp hmem
      obtain ⟨n, -, hn⟩ := Option.map_eq_some_iff.mp hf
      exact nomatch (Prod.mk.inj hn).2
    · obtain ⟨d, hd, hkey⟩ := List.mem_filterMap.mp hmem
      obtain ⟨n, hn, heq⟩ := Option.map_eq_some_iff.mp hkey
      obtain ⟨rfl, -⟩ := key_name_eq_some hn
      obtain ⟨rfl, -⟩ := Prod.mk.inj heq
      exact hd
  · intro hmem
    exact .inr (List.mem_filterMap.mpr ⟨[name], hmem, by rw [hname]; rfl⟩)

theorem keys_apart (hrecorded : RunRecorded reader app receipt_dir w t)
    (hkeys : trusted_public_keys t = trusted_public_keys w.tree) {name : List Char}
    (hname : ".pub".toList <:+ name) (hwithin : trust_dir ++ [name] <+: receipt_dir) :
    trust_dir ++ [name] ∈ w.tree.dirs := by
  have hmem := hrecorded.dirs _ (by simp) hwithin
  rwa [← mem_trusted_public_keys hname, hkeys, mem_trusted_public_keys hname] at hmem

theorem not_entry_dir_of_ok {report : LedgerReport} (h : verify_workspace_ledger reader t = .ok report) :
    (t.at_path ledger_dir).dirs.any is_entry_dir = false ∧
      verify_ledger (keys_of reader t) (ledger_files reader t) = .ok report := by
  rw [verify_workspace_ledger] at h
  split_ifs at h with hdir
  exact ⟨Bool.eq_false_iff.mpr hdir, h⟩

theorem entries_apart (hrecorded : RunRecorded reader app receipt_dir w t) {report : LedgerReport}
    (hledger : verify_workspace_ledger reader t = .ok report) {name : List Char}
    (hname : ".json".toList <:+ name) : ¬ledger_dir ++ [name] <+: receipt_dir := by
  intro hwithin
  have hmem : [name] ∈ (t.at_path ledger_dir).dirs :=
    (mem_dirs_at_path (by decide)).mpr ⟨by simp, hrecorded.dirs _ (by simp) hwithin⟩
  have hany := List.any_eq_true.mpr ⟨[name], hmem, is_entry_dir_iff.mpr ⟨name, rfl, hname⟩⟩
  rw [(not_entry_dir_of_ok hledger).1] at hany
  cases hany

theorem entry_count_eq {keys : Keys} {ledger : List LedgerFile} {report : LedgerReport}
    (h : verify_ledger keys ledger = .ok report) :
    report.entry_count = (ledger.filter is_entry).length := by
  obtain ⟨found, hfound, hrest⟩ := bind_eq_ok.mp h
  obtain ⟨⟨failures, last⟩, -, hreport⟩ := bind_eq_ok.mp hrest
  obtain rfl := Except.ok.inj hreport
  rw [← (forall_of_mapM_eq_ok hfound).length_eq, entry_files, List.length_mergeSort]

/-- A receipt in the ledger is one more entry. -/
theorem ledger_apart (hrecorded : RunRecorded reader app receipt_dir w t)
    (hfresh : receipt_of_run reader app receipt_dir w ∉ w.tree.paths) {report : LedgerReport}
    (hbefore : verify_workspace_ledger reader w.tree = .ok report)
    (hafter : verify_workspace_ledger reader t = .ok report) : receipt_dir ≠ ledger_dir := by
  rintro rfl
  obtain ⟨extra, data, hperm, hmem⟩ := @RunRecorded.at_path _ _ _ _ _ hrecorded "genesis".toList
    ["ledger".toList] [receipt_file_name reader.letters (w.receipts.length + 1) "app-run" app.name]
    (by decide) (by simp) hfresh rfl
  have hfiles : ∃ new, (ledger_files reader t).Perm (new ++ ledger_files reader w.tree) ∧
      (⟨receipt_file_name reader.letters (w.receipts.length + 1) "app-run" app.name,
        reader.load data⟩ : LedgerFile) ∈ new := by
    unfold ledger_files
    exact ⟨_, (hperm.filterMap _).trans (.of_eq List.filterMap_append),
      List.mem_filterMap.mpr ⟨_, hmem, rfl⟩⟩
  obtain ⟨new, hnew, hentry⟩ := hfiles
  have hlength := (hnew.filter is_entry).length_eq
  rw [List.filter_append, List.length_append, ← entry_count_eq (not_entry_dir_of_ok hbefore).2,
    ← entry_count_eq (not_entry_dir_of_ok hafter).2] at hlength
  have hpos : 0 < (new.filter is_entry).length :=
    List.length_pos_of_mem (List.mem_filter.mpr ⟨hentry,
      decide_eq_true ⟨slash_not_mem_receipt, List.isSuffixOf_iff_suffix.mpr json_receipt⟩⟩)
  omega

/-! ### Packages -/

theorem directory_eq_some {d : Tree Bytes} (h : t.directory p = some d) : d = t.at_path p := by
  rw [Tree.directory] at h
  split_ifs at h
  exact (Option.some.inj h).symm

theorem directory_at_eq_some {d : Tree Bytes} {dir : String} (h : directory_at reader t dir = some d)
    (hlocate : reader.locate dir = some p) : d = t.at_path p := by
  rw [directory_at, hlocate] at h
  exact directory_eq_some h

/-- The receipt of a package stays. -/
theorem bundle_receipt_eq (h : Framed (RunFile reader app receipt_dir w) (RunDir reader app receipt_dir w)
    w.tree t) (hlaid : Laidout reader w) {dir : String}
    (hnamed : NamedDir (store_of reader w.tree) "package_dir" dir) {bundle bundle' : Tree File}
    (hbundle : (store_of reader w.tree).packages dir = some bundle)
    (hbundle' : (store_of reader t).packages dir = some bundle') :
    bundle_receipt bundle' = bundle_receipt bundle := by
  obtain ⟨d, hd, rfl⟩ := Option.map_eq_some_iff.mp hbundle
  obtain ⟨d', hd', rfl⟩ := Option.map_eq_some_iff.mp hbundle'
  cases hlocate : reader.locate dir with
  | none =>
    rw [directory_at, hlocate] at hd hd'
    rw [Option.some.inj (hd'.symm.trans hd)]
  | some p =>
    obtain ⟨area, name, hp⟩ := hlaid.packages p ⟨_, dir, .inl rfl, hnamed, hlocate⟩
    rw [directory_at_eq_some hd hlocate, directory_at_eq_some hd' hlocate, bundle_receipt,
      bundle_receipt, file_loaded, file_loaded, file_at_path, file_at_path]
    have hfile : t.file (p ++ ["receipt.json".toList]) = w.tree.file (p ++ ["receipt.json".toList]) := by
      refine h.file fun hfile => ?_
      rw [hp, List.append_assoc] at hfile
      obtain ⟨hreceipt, -⟩ := receipt_of_runFile hfile (by decide) (by simp)
      have hmem := underscore_of_receipt (show (bogos_dir ++ ["store".toList, area, name]) ++
        ["receipt.json".toList] = _ by rw [← hreceipt, List.append_assoc]; rfl)
      exact absurd hmem (by decide)
    rw [hfile]

theorem packages_apart (hrecorded : RunRecorded reader app receipt_dir w t)
    (hfresh : receipt_of_run reader app receipt_dir w ∉ w.tree.paths) (hlaid : Laidout reader w)
    (hbefore : ∀ package ∈ index_keys (store_of reader w.tree),
      Completes (verify_workspace_package reader w.tree package))
    (hafter : ∀ package, verify_workspace_package reader t package =
      verify_workspace_package reader w.tree package)
    (hdistinct : ∀ p, NamedPlace reader w.tree p → HashesApart reader (w.tree.at_path p) (t.at_path p))
    (hplace : NamedPlace reader w.tree p) : ¬p <+: receipt_dir := by
  rintro ⟨below, hbelow⟩
  have hdistinct' := hdistinct p hplace
  obtain ⟨area, name, hp⟩ := hlaid.packages p hplace
  obtain ⟨extra, data, hperm, hmem⟩ := @RunRecorded.at_path _ _ _ _ _ hrecorded "store".toList
    [area, name] (below ++ [receipt_file_name reader.letters (w.receipts.length + 1) "app-run" app.name])
    (by decide) (by simp) hfresh (by
      rw [← List.append_assoc]
      refine congrArg (· ++ _) ?_
      rw [← hbelow, hp]
      rfl)
  have hextra : extra ≠ [] := List.ne_nil_of_mem hmem
  rw [← show p = bogos_dir ++ "store".toList :: [area, name] from hp] at hperm
  obtain ⟨key, dir, hkey, ⟨index, package, entry, hread, hget, hpath⟩, hlocate⟩ := hplace
  have hkeys : package ∈ index_keys (store_of reader w.tree) := by
    rw [index_keys, hread]
    exact Dict.mem_keys_of_get hget
  have hcompletes := hbefore package hkeys
  have hcompletes' : Completes (verify_workspace_package reader t package) := by
    rw [hafter]
    exact hcompletes
  obtain ⟨index₁, entry₁, package_dir, install_dir, bundle, receipt, hfound, hintact⟩ :=
    (completes_iff_sound.mp hcompletes).sound package .refl
  obtain ⟨index₂, entry₂, package_dir', install_dir', bundle', receipt', hfound', hintact'⟩ :=
    (completes_iff_sound.mp hcompletes').sound package .refl
  have hread' := hfound'.read_index
  rw [store_index_eq hrecorded.framed] at hread'
  obtain rfl := Except.ok.inj (hread.symm.trans hfound.read_index)
  obtain rfl := Except.ok.inj (hread.symm.trans hread')
  obtain rfl := Option.some.inj (hget.symm.trans hfound.get_entry)
  obtain rfl := Option.some.inj (hget.symm.trans hfound'.get_entry)
  obtain rfl := Except.ok.inj (hfound.package_path.symm.trans hfound'.package_path)
  obtain rfl := Except.ok.inj (hfound.install_path.symm.trans hfound'.install_path)
  have hreceipt := bundle_receipt_eq hrecorded.framed hlaid
    ⟨index, package, entry, hread, hget, hfound.package_path⟩ hfound.get_bundle hfound'.get_bundle
  rw [hfound.read_receipt, hfound'.read_receipt] at hreceipt
  obtain rfl := Except.ok.inj hreceipt
  rcases hkey with rfl | rfl
  · obtain rfl := Except.ok.inj (hpath.symm.trans hfound.package_path)
    obtain ⟨d, hd, rfl⟩ := Option.map_eq_some_iff.mp hfound.get_bundle
    obtain ⟨d', hd', rfl⟩ := Option.map_eq_some_iff.mp hfound'.get_bundle
    obtain rfl := directory_at_eq_some hd hlocate
    obtain rfl := directory_at_eq_some hd' hlocate
    exact directory_hash_ne hdistinct' hperm hextra hintact.bundle_hash hintact'.bundle_hash
  · obtain rfl := Except.ok.inj (hpath.symm.trans hfound.install_path)
    obtain ⟨d, hd, hhash⟩ := Option.map_eq_some_iff.mp hintact.installed
    obtain ⟨d', hd', hhash'⟩ := Option.map_eq_some_iff.mp hintact'.installed
    obtain rfl := directory_at_eq_some hd hlocate
    obtain rfl := directory_at_eq_some hd' hlocate
    exact tree_hash_ne hdistinct' hperm hextra (hhash.trans hhash'.symm)

/-! ### The law -/

theorem apart_of_harmless (hlaid : Laidout reader w) (horder : InOrder reader app texts w)
    (h : ∀ output, Harmless reader w (after (run_app reader app output texts w))) : Apart reader app w := by
  intro receipt_dir hdir
  have hown := own_apart horder hdir h
  have hrecorded := recorded_of_runs horder.runs hdir hown
  have hfresh := horder.fresh receipt_dir hdir
  have hharmless := h (untouched app w)
  obtain ⟨report, hledger⟩ := horder.ledger
  have hledger' := hharmless.ledger.trans hledger
  exact
    { own := hown
      receipts := receipts_apart horder h
      packages := fun p => packages_apart hrecorded hfresh hlaid horder.packages hharmless.packages
        horder.distinct
      ledger := ledger_apart hrecorded hfresh hledger hledger'
      entries := fun name hname hwithin =>
        absurd hwithin (entries_apart hrecorded hledger' hname)
      keys := fun name hname hwithin => keys_apart hrecorded hharmless.keys hname hwithin }

end Harm

/-! ## A workspace with one receipt -/

/-- A reader of files that are no JSON. -/
def plain_reader : WorkspaceReader where
  host := ⟨some, fun _ => true, fun _ => true⟩
  letters := fun _ => false
  load := no_json
  read_keys := fun _ => ⟨[], [], fun _ => "", fun _ _ _ => false⟩
  locate := fun _ => none
  outside := fun _ => none
  links := ⟨fun _ => false, fun p => .ok (some p)⟩
  store_root := ""

/-- An app with receipts in this directory. -/
def receipt_app (receipt_path : String) : VerifiedApp plain_reader :=
  ⟨"demo", .str receipt_path, "demo", by decide +kernel⟩

def plain_workspace : RunWorkspace where
  tree :=
    { files := [([".bogos".toList, "receipts".toList, "0001_init_demo.json".toList], [0])]
      dirs := [bogos_dir, [".bogos".toList, "receipts".toList], [".bogos".toList, "genesis".toList],
        ledger_dir] }
  archives := []
  receipts := [⟨"init", "demo", [".bogos".toList, "receipts".toList]⟩]

theorem laidout_plain : Laidout plain_reader plain_workspace where
  packages := by
    rintro p ⟨_, _, -, -, hlocate⟩
    cases hlocate
  archives := nofun

theorem apart_plain : Apart plain_reader (receipt_app ".bogos/receipts") plain_workspace := by
  intro receipt_dir hdir
  obtain rfl : receipt_dir = [".bogos".toList, "receipts".toList] := by
    have hresolve : resolve_policy_receipt_path plain_reader.links (.str ".bogos/receipts") =
        .ok [".bogos".toList, "receipts".toList] := by decide +kernel
    exact Except.ok.inj (hdir.symm.trans hresolve)
  exact
    { own := by decide +kernel
      receipts := by decide +kernel
      packages := by
        rintro p ⟨_, _, -, -, hlocate⟩
        cases hlocate
      ledger := by decide
      entries := fun name _ hwithin => absurd hwithin.length_le (by simp [ledger_dir, bogos_dir])
      keys := fun name _ hwithin => absurd hwithin.length_le (by simp [trust_dir, bogos_dir]) }

end Bogbin.Bogvm
