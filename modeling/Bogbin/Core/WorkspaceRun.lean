import Bogbin.Core.WorkspaceProof

/-!
# Runs of the workspace model

What an accepted operation does, and from it the invariant of every state that accepted operations
reach.
-/

namespace Bogbin.Core

open Buffer Staging

/-! ## Lookups by path -/

theorem find_path_eq (paths : List WorkspacePathEntry) (target_path : Bytes) :
    find_path paths target_path = paths.findIdx? fun e => e.path = target_path := by
  unfold find_path
  congr
  funext e
  refine decide_eq_decide.mpr ⟨fun h => h.2, fun h => ⟨?_, h⟩⟩
  rw [← h, e.length_path]

theorem find_path_eq_none {paths : List WorkspacePathEntry} {target_path : Bytes} :
    find_path paths target_path = none ↔ ∀ e ∈ paths, e.path ≠ target_path := by
  rw [find_path_eq, List.findIdx?_eq_none_iff]
  simp

theorem path_of_find_path {paths : List WorkspacePathEntry} {target_path : Bytes} {pidx : ℕ}
    {entry : WorkspacePathEntry} (hfind : find_path paths target_path = some pidx)
    (hentry : paths[pidx]? = some entry) : entry.path = target_path := by
  rw [find_path_eq] at hfind
  obtain ⟨hlt, hpath, -⟩ := List.findIdx?_eq_some_iff_getElem.mp hfind
  rw [List.getElem?_eq_getElem hlt] at hentry
  simpa [Option.some.inj hentry] using hpath

/-- The path-to-object map of a state. -/
def path_object (s : WorkspaceState) (path : Bytes) : Option Hash32 :=
  (s.paths.find? fun e => e.path = path).map (·.object_id)

theorem find?_set_of_not {α : Type} {p : α → Bool} {l : List α} {i : ℕ} {a b : α}
    (ha : l[i]? = some a) (hpa : p a = false) (hpb : p b = false) :
    (l.set i b).find? p = l.find? p := by
  induction l generalizing i with
  | nil => rfl
  | cons x l ih =>
    cases i with
    | zero =>
      obtain rfl : x = a := by simpa using ha
      simp [hpa, hpb]
    | succ i =>
      rw [List.set_cons_succ, List.find?_cons, List.find?_cons]
      rw [ih (by simpa using ha)]

/-! ## Accepted operations -/

/-- What a mutation does to the state before the root is refreshed. -/
inductive Mutates (s : WorkspaceState) (op : WorkspaceOperation) (target_path : Bytes)
    (hlen : target_path.length ≤ 256) (t : WorkspaceState) : Prop
  | create (k : ObjectKind) (hroot : t.root = s.root)
      (hnew : find_path s.paths target_path = none)
      (hobjects : t.objects = s.objects ++ [object_of op k (operation_hash op target_path)])
      (hpaths : t.paths = s.paths ++ [entry_of target_path hlen
        (object_of op k (operation_hash op target_path)).object_id])
  | edit (pidx : ℕ) (entry : WorkspacePathEntry) (hroot : t.root = s.root)
      (hfind : find_path s.paths target_path = some pidx) (hentry : s.paths[pidx]? = some entry)
      (hobjects : t.objects = s.objects ++ [object_of op .File (operation_hash op target_path)])
      (hpaths : t.paths = s.paths.set pidx { entry with
        object_id := (object_of op .File (operation_hash op target_path)).object_id })

theorem mutates_of_allow {s : WorkspaceState} {op : WorkspaceOperation} {target_path : Bytes}
    (hlen : target_path.length ≤ 256) (h : TablesAllow s op target_path) :
    ∃ t, apply_mutation s op target_path hlen (operation_hash op target_path) = some (.ok t) ∧
      Mutates s op target_path hlen t := by
  have hcreate (k : ObjectKind) (h : find_path s.paths target_path = none ∧
      s.paths.length < MAX_WORKSPACE_PATHS ∧ s.objects.length < MAX_WORKSPACE_OBJECTS) :
      ∃ t, apply_create s op k target_path hlen (operation_hash op target_path) = some (.ok t) ∧
        Mutates s op target_path hlen t := by
    obtain ⟨t, ht, hroot, hobjects, hpaths⟩ :=
      apply_create_of_allow op k hlen (operation_hash op target_path) h.1 h.2.1 h.2.2
    exact ⟨t, ht, .create k hroot h.1 hobjects hpaths⟩
  unfold TablesAllow at h
  unfold apply_mutation
  cases hkind : op.op_kind with
  | CreateFile => exact hcreate .File (by simpa only [hkind] using h)
  | CreateDirectory => exact hcreate .Directory (by simpa only [hkind] using h)
  | EditFile =>
    rw [hkind] at h
    obtain ⟨pidx, entry, hfind, hentry, hfile, hslots⟩ := h
    obtain ⟨t, ht, hroot, hobjects, hpaths⟩ :=
      apply_edit_of_allow op (operation_hash op target_path) hfind hentry hfile hslots
    exact ⟨t, ht, .edit pidx entry hroot hfind hentry hobjects hpaths⟩
  | Rollback =>
    rw [hkind] at h
    exact h.elim

/-- The root that a mutation leaves: linked to the old root, with recomputed table hashes. -/
structure Refreshes (s u : WorkspaceState) (op_hash : Hash32) (t : WorkspaceState) : Prop where
  objects : t.objects = u.objects
  paths : t.paths = u.paths
  version : t.root.version = u.root.version
  previous : t.root.previous_workspace_root = s.root.compute_hash
  receipt : t.root.last_operation_receipt = some op_hash
  object_table : compute_object_table_hash u.objects = some t.root.object_table_hash
  path_index : compute_path_index_hash u.paths = some t.root.path_index_hash

theorem refreshes_of_refresh_root {s u t : WorkspaceState} {op_hash : Hash32}
    (h : refresh_root s u op_hash = some t) : Refreshes s u op_hash t := by
  unfold refresh_root at h
  rw [compute_hash_eq] at h
  cases hot : compute_object_table_hash u.objects with
  | none => simp [hot] at h
  | some ot =>
    cases hpi : compute_path_index_hash u.paths with
    | none => simp [hot, hpi] at h
    | some pi =>
      simp only [hot, hpi, Option.bind_eq_bind, Option.bind_some, Option.some.injEq] at h
      subst h
      exact ⟨rfl, rfl, rfl, (compute_hash_eq s.root).symm, rfl, hot, hpi⟩

/-- What an accepted operation does. -/
inductive Accepts (s : WorkspaceState) (op : WorkspaceOperation) (target_path : Bytes)
    (t : WorkspaceState) : Prop
  | rollback (hkind : op.op_kind = .Rollback) (old_rh : Hash32)
      (hold : s.root.compute_hash = some old_rh) (ht : t = apply_rollback s op old_rh)
  | mutation (hadm : Admitted s op target_path) (u : WorkspaceState)
      (hu : Mutates s op target_path hadm.path_len u)
      (ht : Refreshes s u (operation_hash op target_path) t)

theorem accepts_of_apply {s t : WorkspaceState} {op : WorkspaceOperation} {target_path : Bytes}
    (h : apply_workspace_operation s op target_path = some (.ok t)) :
    Accepts s op target_path t := by
  by_cases hadm : Admitted s op target_path
  · obtain ⟨u, hu, hmut⟩ := mutates_of_allow hadm.path_len hadm.tables
    obtain ⟨u', hu', happly⟩ := apply_of_admitted hadm
    obtain rfl : u = u' := Except.ok.inj (Option.some.inj (hu.symm.trans hu'))
    rw [happly] at h
    obtain ⟨t', ht', heq⟩ := Option.map_eq_some_iff.mp h
    obtain rfl := Except.ok.inj heq
    exact .mutation hadm u hmut (refreshes_of_refresh_root ht')
  · obtain ⟨e, he⟩ | ⟨hkind, ht⟩ := apply_of_not_admitted hadm
    · simp [he] at h
    · rw [ht] at h
      exact .rollback hkind _ (compute_hash_eq s.root) (Except.ok.inj (Option.some.inj h)).symm

/-! ## The state invariant -/

/-- The tables fit together. -/
structure TablesConsistent (s : WorkspaceState) : Prop where
  path_count_le : s.paths.length ≤ s.objects.length
  object_count_le : s.objects.length ≤ 128
  paths_nodup : (s.paths.map WorkspacePathEntry.path).Nodup
  path_length : ∀ e ∈ s.paths, 1 ≤ e.path.length ∧ e.path.length ≤ 256
  path_hash : ∀ e ∈ s.paths, e.path_hash = sha256 e.path
  object_mem : ∀ e ∈ s.paths, ∃ o ∈ s.objects, o.object_id = e.object_id

/-- The tables fit together, and the root holds their hashes. -/
structure Consistent (s : WorkspaceState) : Prop extends TablesConsistent s where
  root_hashes : rebuild_workspace_root_from_state s = some s.root

theorem rebuild_eq_iff {s : WorkspaceState} :
    rebuild_workspace_root_from_state s = some s.root ↔
      compute_object_table_hash s.objects = some s.root.object_table_hash ∧
        compute_path_index_hash s.paths = some s.root.path_index_hash := by
  unfold rebuild_workspace_root_from_state
  obtain ⟨⟨version, ot, pi, previous, receipt⟩, objects, paths, ho, hp⟩ := s
  cases compute_object_table_hash objects <;> cases compute_path_index_hash paths <;> simp

theorem consistent_initial {s : WorkspaceState} (h : make_initial_workspace_state = some s) :
    Consistent s := by
  unfold make_initial_workspace_state at h
  simp only [compute_object_table_hash, compute_path_index_hash, List.length_nil, if_true,
    Option.bind_eq_bind, Option.bind_some, Option.some.injEq] at h
  subst h
  refine ⟨⟨le_rfl, Nat.zero_le _, List.nodup_nil, ?_, ?_, ?_⟩, rebuild_eq_iff.mpr ⟨rfl, rfl⟩⟩
  all_goals
    intro e he
    exact absurd he List.not_mem_nil

/-- A rollback keeps the tables and both table hashes. -/
theorem Consistent.rollback {s : WorkspaceState} (h : Consistent s) (op : WorkspaceOperation)
    (old_rh : Hash32) : Consistent (apply_rollback s op old_rh) := by
  have hroot := rebuild_eq_iff.mp h.root_hashes
  exact ⟨⟨h.path_count_le, h.object_count_le, h.paths_nodup, h.path_length, h.path_hash,
    h.object_mem⟩, rebuild_eq_iff.mpr hroot⟩

/-- Every entry after an edit is an old one, up to the object it names. -/
theorem mem_set_entry {paths : List WorkspacePathEntry} {pidx : ℕ} {entry e : WorkspacePathEntry}
    {object_id : Hash32} (hentry : paths[pidx]? = some entry)
    (he : e ∈ paths.set pidx { entry with object_id := object_id }) :
    ∃ d ∈ paths, e.path = d.path ∧ e.path_hash = d.path_hash ∧
      (e.object_id = d.object_id ∨ e.object_id = object_id) := by
  obtain hmem | rfl := List.mem_or_eq_of_mem_set he
  · exact ⟨e, hmem, rfl, rfl, .inl rfl⟩
  · exact ⟨entry, List.mem_of_getElem? hentry, rfl, rfl, .inr rfl⟩

theorem TablesConsistent.mutates {s t : WorkspaceState} {op : WorkspaceOperation}
    {target_path : Bytes} {hlen : target_path.length ≤ 256} (h : TablesConsistent s)
    (hne : target_path ≠ []) (hmut : Mutates s op target_path hlen t) : TablesConsistent t := by
  cases hmut with
  | create k hroot hnew hobjects hpaths =>
    have hpath := path_entry_of target_path hlen
      (object_of op k (operation_hash op target_path)).object_id
    have hpos : 1 ≤ target_path.length := List.length_pos_of_ne_nil hne
    constructor
    · rw [hobjects, hpaths, List.length_append, List.length_append]
      exact Nat.succ_le_succ h.path_count_le
    · exact t.object_count_le
    · rw [hpaths, List.map_append, List.map_singleton, hpath, ← List.concat_eq_append,
        List.nodup_concat]
      refine ⟨fun hmem => ?_, h.paths_nodup⟩
      obtain ⟨e, he, hep⟩ := List.mem_map.mp hmem
      exact find_path_eq_none.mp hnew e he hep
    · rw [hpaths, List.forall_mem_append, List.forall_mem_singleton, hpath]
      exact ⟨h.path_length, hpos, hlen⟩
    · rw [hpaths, List.forall_mem_append, List.forall_mem_singleton, hpath]
      exact ⟨h.path_hash, rfl⟩
    · rw [hpaths, hobjects, List.forall_mem_append, List.forall_mem_singleton]
      refine ⟨fun e he => ?_, _, List.mem_append_right _ (List.mem_singleton_self _), rfl⟩
      obtain ⟨o, ho, hid⟩ := h.object_mem e he
      exact ⟨o, List.mem_append_left _ ho, hid⟩
  | edit pidx entry hroot hfind hentry hobjects hpaths =>
    have hmem {e : WorkspacePathEntry} (he : e ∈ t.paths) := mem_set_entry hentry (hpaths ▸ he)
    constructor
    · rw [hobjects, hpaths, List.length_append, List.length_set]
      exact h.path_count_le.trans (Nat.le_add_right _ _)
    · exact t.object_count_le
    · have hmap : t.paths.map WorkspacePathEntry.path = s.paths.map WorkspacePathEntry.path := by
        obtain ⟨hlt, hget⟩ := List.getElem?_eq_some_iff.mp hentry
        rw [hpaths, List.map_set]
        refine List.ext_getElem (by simp) fun i hi hi' => ?_
        rw [List.getElem_set]
        split_ifs with hij
        · subst hij
          rw [List.getElem_map, hget]
          rfl
        · rfl
      rw [hmap]
      exact h.paths_nodup
    · intro e he
      obtain ⟨d, hd, hpath, -, -⟩ := hmem he
      rw [hpath]
      exact h.path_length d hd
    · intro e he
      obtain ⟨d, hd, hpath, hhash, -⟩ := hmem he
      rw [hpath, hhash]
      exact h.path_hash d hd
    · intro e he
      obtain ⟨d, hd, -, -, hid | hid⟩ := hmem he
      · obtain ⟨o, ho, hoid⟩ := h.object_mem d hd
        rw [hobjects, hid]
        exact ⟨o, List.mem_append_left _ ho, hoid⟩
      · rw [hobjects, hid]
        exact ⟨_, List.mem_append_right _ (List.mem_singleton_self _), rfl⟩

theorem TablesConsistent.congr {s t : WorkspaceState} (h : TablesConsistent s)
    (hobjects : t.objects = s.objects) (hpaths : t.paths = s.paths) : TablesConsistent t := by
  refine ⟨?_, t.object_count_le, ?_, ?_, ?_, ?_⟩
  · rw [hobjects, hpaths]
    exact h.path_count_le
  · rw [hpaths]
    exact h.paths_nodup
  · rw [hpaths]
    exact h.path_length
  · rw [hpaths]
    exact h.path_hash
  · rw [hobjects, hpaths]
    exact h.object_mem

theorem consistent_step {s t : WorkspaceState} {op : WorkspaceOperation} {target_path : Bytes}
    (h : Consistent s) (happly : Accepts s op target_path t) : Consistent t := by
  cases happly with
  | rollback hkind old_rh hold ht =>
    subst ht
    exact h.rollback op old_rh
  | mutation hadm u hu ht =>
    have htables := h.toTablesConsistent.mutates hadm.path_ne hu
    have hot := ht.object_table
    have hpi := ht.path_index
    rw [← ht.objects] at hot
    rw [← ht.paths] at hpi
    exact ⟨htables.congr ht.objects ht.paths, rebuild_eq_iff.mpr ⟨hot, hpi⟩⟩

theorem Reachable.consistent {s : WorkspaceState} (h : Reachable s) : Consistent s := by
  induction h with
  | init h => exact consistent_initial h
  | step _ happly ih => exact consistent_step ih (accepts_of_apply happly)

/-! ## What one accepted operation leaves unchanged -/

/-- A step keeps the objects of the table, changes the path-to-object map at most at its target and
links the new root to the old one. -/
structure Extends (s : WorkspaceState) (target_path : Bytes) (t : WorkspaceState) : Prop where
  objects : s.objects <+: t.objects
  paths : ∀ path, path ≠ target_path → path_object t path = path_object s path
  previous : t.root.previous_workspace_root = s.root.compute_hash

theorem path_object_mutates {s t : WorkspaceState} {op : WorkspaceOperation}
    {target_path path : Bytes} {hlen : target_path.length ≤ 256}
    (hmut : Mutates s op target_path hlen t) (hne : path ≠ target_path) :
    path_object t path = path_object s path := by
  cases hmut with
  | create k hroot hnew hobjects hpaths =>
    have hother : decide ((entry_of target_path hlen
        (object_of op k (operation_hash op target_path)).object_id).path = path) = false := by
      rw [path_entry_of]
      exact decide_eq_false hne.symm
    rw [path_object, path_object, hpaths, List.find?_append, List.find?_singleton, hother]
    simp
  | edit pidx entry hroot hfind hentry hobjects hpaths =>
    have hpath := path_of_find_path hfind hentry
    have hold : decide (entry.path = path) = false := by
      rw [hpath]
      exact decide_eq_false hne.symm
    rw [path_object, path_object, hpaths, find?_set_of_not hentry hold]
    exact hold

theorem Accepts.extends {s t : WorkspaceState} {op : WorkspaceOperation} {target_path : Bytes}
    (h : Accepts s op target_path t) : Extends s target_path t := by
  cases h with
  | rollback hkind old_rh hold ht =>
    subst ht
    exact ⟨List.prefix_rfl, fun _ _ => rfl, hold.symm⟩
  | mutation hadm u hu ht =>
    refine ⟨?_, fun path hne => ?_, ht.previous⟩
    · rw [ht.objects]
      cases hu with
      | create k hroot hnew hobjects hpaths => exact hobjects ▸ List.prefix_append _ _
      | edit pidx entry hroot hfind hentry hobjects hpaths =>
        exact hobjects ▸ List.prefix_append _ _
    · rw [path_object, ht.paths, ← path_object]
      exact path_object_mutates hu hne

/-- The invariant of every reachable state and of every accepted operation. -/
theorem reachable_workspace_invariant {s : WorkspaceState} (h : Reachable s) :
    Consistent s ∧ ∀ (op : WorkspaceOperation) (target_path : Bytes) (t : WorkspaceState),
      apply_workspace_operation s op target_path = some (.ok t) →
        Consistent t ∧ Extends s target_path t := by
  refine ⟨h.consistent, fun op target_path t happly => ?_⟩
  have haccept := accepts_of_apply happly
  exact ⟨consistent_step h.consistent haccept, haccept.extends⟩

theorem workspace_invariant_one_file : ∃ s t, make_initial_workspace_state = some s ∧
    apply_workspace_operation s (write_operation s .CreateFile) (ascii "a") = some (.ok t) ∧
    Consistent t ∧ Extends s (ascii "a") t := by
  obtain ⟨s, hs, ho, hp⟩ := make_initial_tables
  obtain ⟨t, ht, -⟩ := create_oneFile ho hp
  exact ⟨s, t, hs, ht, (reachable_workspace_invariant (.init hs)).2 _ _ t ht⟩

end Bogbin.Core
