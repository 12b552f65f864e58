import Bogbin.Core.WorkspaceRun
import Bogbin.Core.WorkspaceSort
import Bogbin.Tools.WorkspaceVectors

/-!
# The native workspace against its oracle

Both implementations are given one hash function, the native one.  A native state is read as a state
of the oracle by `view`; the helper functions then agree, and one operation at a time does either.
-/

namespace Bogbin.Tools

open Buffer Staging
open Bogbin.Core (ObjectKind WorkspaceOpKind WorkspaceError WorkspaceObject WorkspacePathEntry
  WorkspaceRoot WorkspaceState WorkspaceOperation sha256)

/-! ## Native values as dictionaries -/

def view_object (o : WorkspaceObject) : Obj where
  object_id := o.object_id
  object_kind := o.object_kind
  content_hash := o.content_hash
  size_bytes := o.size_bytes.toNat
  created_by_operation := o.created_by_operation

def view_entry (e : WorkspacePathEntry) : PathEntry where
  path_hash := e.path_hash
  path_len := e.path_len.toNat
  path_bytes := e.path_bytes.val
  object_id := e.object_id

def view_root (r : WorkspaceRoot) : Root where
  version := r.version.toNat
  object_table_hash := r.object_table_hash
  path_index_hash := r.path_index_hash
  previous_workspace_root := r.previous_workspace_root
  last_operation_receipt := r.last_operation_receipt

def view (s : WorkspaceState) : State where
  root := view_root s.root
  objects := s.objects.map view_object
  paths := s.paths.map view_entry
  object_count := s.objects.length
  path_count := s.paths.length

def view_op (op : WorkspaceOperation) : Op where
  op_version := op.op_version.toNat
  op_kind := op.op_kind
  old_workspace_root := op.old_workspace_root
  target_path_hash := op.target_path_hash
  input_content_hash := op.input_content_hash
  input_size_bytes := op.input_size_bytes.toNat
  capability_hash := op.capability_hash
  tool_receipt_hash := op.tool_receipt_hash

@[simp] theorem view_entry_path (e : WorkspacePathEntry) : (view_entry e).path = e.path := rfl

/-! ## The encodings agree -/

theorem to_bytes_eq {k n : ℕ} (h : n < 256 ^ k) : to_bytes k n = some (leBytes k n) := if_pos h

@[simp] theorem to_bytes_u16 (n : UInt16) : to_bytes 2 n.toNat = some (leBytes 2 n.toNat) :=
  to_bytes_eq n.toNat_lt

@[simp] theorem to_bytes_u32 (n : UInt32) : to_bytes 4 n.toNat = some (leBytes 4 n.toNat) :=
  to_bytes_eq n.toNat_lt

@[simp] theorem to_bytes_u64 (n : UInt64) : to_bytes 8 n.toNat = some (leBytes 8 n.toNat) :=
  to_bytes_eq n.toNat_lt

theorem kind_code_eq (k : ObjectKind) : kind_code k = Core.object_kind_byte k := by
  cases k <;> rfl

theorem option_bytes_eq (o : Option Digest) : option_bytes o = (Core.optionFields o).flatten := by
  cases o <;> simp [option_bytes, Core.optionFields]

theorem ws_root_h_view (r : WorkspaceRoot) : ws_root_h sha256 (view_root r) = r.compute_hash := by
  rw [Core.compute_hash_eq]
  simp [ws_root_h, ws_root_bytes, view_root, WorkspaceRoot.fields, option_bytes_eq]

theorem pad_path_eq (p : Bytes) : pad_path p = patch (zeros 256) 0 p := by
  simp [pad_path, patch, drop_zeros]

theorem op_h_view {op : WorkspaceOperation} {tp : Bytes} (hlen : tp.length ≤ 256)
    (hkind : op.op_kind ≠ .Rollback) :
    op_h sha256 (view_op op) tp = some (Core.operation_hash op tp) := by
  have hcode : op_kind_code op.op_kind = some (Core.kind_byte op.op_kind) := by
    cases hk : op.op_kind with
    | CreateFile => rfl
    | EditFile => rfl
    | CreateDirectory => rfl
    | Rollback => exact absurd hk hkind
  have hfit : ¬ MAX_PATH_B < tp.length := Nat.not_lt.mpr hlen
  simp [op_h, op_payload, view_op, hcode, hfit, pad_path_eq, Core.operation_hash,
    Core.operation_payload]

theorem mk_obj_view (op : WorkspaceOperation) (k : ObjectKind) (oph : Digest) :
    mk_obj sha256 k op.input_content_hash op.input_size_bytes.toNat oph =
      some (view_object (Core.object_of op k oph)) := by
  simp [mk_obj, view_object, Core.object_of, kind_code_eq]

theorem mk_pe_view {tp : Bytes} (hlen : tp.length ≤ 256) (oid : Digest) :
    mk_pe sha256 tp oid = view_entry (Core.entry_of tp hlen oid) := by
  simp only [mk_pe, view_entry, Core.path_len_entry_of, pad_path_eq]
  rfl

theorem find_p_view (s : WorkspaceState) (tp : Bytes) :
    find_p (view s) tp = Core.find_path s.paths tp := by
  have hall : (view s).paths.take (view s).path_count = s.paths.map view_entry := by
    simp [view]
  rw [find_p, hall, List.findIdx?_map]
  rfl

/-! ## The table hashes agree -/

theorem mapM_eq_some {α β γ : Type} {f : α → β} {g : β → Option γ} {h : α → γ}
    (hfg : ∀ a, g (f a) = some (h a)) (l : List α) : (l.map f).mapM g = some (l.map h) := by
  induction l with
  | nil => rfl
  | cons a l ih => simp [hfg, ih]

theorem obj_table_h_view {objects : List WorkspaceObject} {h : Digest}
    (hh : Core.compute_object_table_hash objects = some h) :
    obj_table_h sha256 (objects.map view_object) objects.length = some h := by
  unfold obj_table_h
  by_cases hzero : objects.length = 0
  · rw [if_pos hzero]
    rwa [Core.compute_object_table_hash, if_pos hzero] at hh
  · have hle : objects.length ≤ 128 := by
      by_contra hlt
      rw [Core.compute_object_table_hash, if_neg hzero, if_pos (Nat.not_le.mp hlt)] at hh
      exact absurd hh (by simp)
    rw [Core.compute_object_table_hash_eq hzero hle] at hh
    have hsort : (objects.map view_object).mergeSort obj_le =
        (Core.bubble_sort (fun a b => Core.hash_less a.object_id b.object_id) objects).map
          view_object := by
      rw [Core.bubble_sort_eq_mergeSort (Core.weakOrder_of_key (fun o => o.object_id.val)
        fun a b => Core.hash_less_eq _ _)]
      refine (List.map_mergeSort fun a _ b _ => ?_).symm
      rw [Core.not_after, Core.hash_less_eq]
      rfl
    have hrow (o : WorkspaceObject) :
        obj_row (view_object o) = some (Core.object_fields o).flatten := by
      simp [obj_row, view_object, Core.object_fields, kind_code_eq]
    rw [if_neg hzero, List.take_of_length_le (by simp), hsort, mapM_eq_some hrow]
    rw [Core.eq_of_staged_hash hh, List.flatMap_def]
    rfl

theorem path_le_view (a b : WorkspacePathEntry) :
    path_le (view_entry a) (view_entry b) = Core.not_after Core.path_entry_less a b := by
  rw [path_le, Core.not_after, Core.path_entry_less_eq, key_lt]
  by_cases heq : b.path = a.path
  · have hlen : (view_entry b).path_len = (view_entry a).path_len := by
      show b.path_len.toNat = a.path_len.toNat
      rw [← b.length_path, ← a.length_path, heq]
    simp [heq, hlen]
  · simp only [view_entry_path, heq, decide_false, Bool.false_and, Bool.or_false]
    exact congrArg _ (decide_eq_decide.mpr Iff.rfl)

theorem path_idx_h_view {paths : List WorkspacePathEntry} {h : Digest}
    (hh : Core.compute_path_index_hash paths = some h) :
    path_idx_h sha256 (paths.map view_entry) paths.length = some h := by
  unfold path_idx_h
  by_cases hzero : paths.length = 0
  · rw [if_pos hzero]
    rwa [Core.compute_path_index_hash, if_pos hzero] at hh
  · have hle : paths.length ≤ 128 := by
      by_contra hlt
      rw [Core.compute_path_index_hash, if_neg hzero, if_pos (Nat.not_le.mp hlt)] at hh
      exact absurd hh (by simp)
    rw [Core.compute_path_index_hash_eq hzero hle] at hh
    have hsort : (paths.map view_entry).mergeSort path_le =
        (Core.bubble_sort Core.path_entry_less paths).map view_entry := by
      rw [Core.bubble_sort_eq_mergeSort (Core.weakOrder_of_key WorkspacePathEntry.path
        Core.path_entry_less_eq)]
      exact (List.map_mergeSort fun a _ b _ => (path_le_view a b).symm).symm
    have hrow (e : WorkspacePathEntry) :
        path_row (view_entry e) = some (Core.path_fields e).flatten := by
      have hlen : to_bytes 2 (view_entry e).path_len = some (leBytes 2 e.path_len.toNat) :=
        to_bytes_u16 e.path_len
      simp only [path_row, hlen, Option.bind_eq_bind, Option.bind_some, view_entry_path]
      simp [Core.path_fields, view_entry, WorkspacePathEntry.path]
    rw [if_neg hzero, List.take_of_length_le (by simp), hsort, mapM_eq_some hrow]
    rw [Core.eq_of_staged_hash hh, List.flatMap_def]
    rfl

theorem mapM_isSome {α β : Type} {g : α → Option β} {l : List α} (h : ∀ a ∈ l, (g a).isSome) :
    (l.mapM g).isSome := by
  induction l with
  | nil => rfl
  | cons a l ih =>
    obtain ⟨b, hb⟩ := Option.isSome_iff_exists.mp (h a List.mem_cons_self)
    obtain ⟨bs, hbs⟩ :=
      Option.isSome_iff_exists.mp (ih fun x hx => h x (List.mem_cons_of_mem _ hx))
    simp [hb, hbs]

/-- The oracle never raises on the table of native objects. -/
theorem obj_table_h_isSome (objects : List WorkspaceObject) :
    (obj_table_h sha256 (objects.map view_object) objects.length).isSome := by
  unfold obj_table_h
  split_ifs with hzero
  · rfl
  · have hrows : ((((objects.map view_object).take objects.length).mergeSort obj_le).mapM
        obj_row).isSome := by
      refine mapM_isSome fun o ho => ?_
      rw [List.take_of_length_le (by simp)] at ho
      obtain ⟨o, -, rfl⟩ := List.mem_map.mp (List.mem_mergeSort.mp ho)
      simp [obj_row, view_object]
    obtain ⟨rows, hrows⟩ := Option.isSome_iff_exists.mp hrows
    simp [hrows]

theorem path_idx_h_isSome (paths : List WorkspacePathEntry) :
    (path_idx_h sha256 (paths.map view_entry) paths.length).isSome := by
  unfold path_idx_h
  split_ifs with hzero
  · rfl
  · have hrows : ((((paths.map view_entry).take paths.length).mergeSort path_le).mapM
        path_row).isSome := by
      refine mapM_isSome fun e he => ?_
      rw [List.take_of_length_le (by simp)] at he
      obtain ⟨e, -, rfl⟩ := List.mem_map.mp (List.mem_mergeSort.mp he)
      simp [path_row, view_entry]
    obtain ⟨rows, hrows⟩ := Option.isSome_iff_exists.mp hrows
    simp [hrows]

/-! ## One operation -/

/-- An edit of a path that names no file, otherwise in order. -/
def EditsNonFile (s : WorkspaceState) (op : WorkspaceOperation) (tp : Bytes) : Prop :=
  Core.Guarded s op tp ∧ op.op_kind = .EditFile ∧
    s.objects.length < Core.MAX_WORKSPACE_OBJECTS ∧
    ∃ pidx entry, Core.find_path s.paths tp = some pidx ∧ s.paths[pidx]? = some entry ∧
      ¬ Core.is_file s.objects entry.object_id

/-- An admitted operation after which a table outgrows its staging buffer. -/
def Overflows (s : WorkspaceState) (op : WorkspaceOperation) (tp : Bytes) : Prop :=
  Core.Admitted s op tp ∧ ¬ Core.TablesFit s op tp

/-- `ns` with the root that an accepted operation leaves, or the refusal. -/
def finish (st : State) (oldh oph : Digest) :
    Except WorkspaceError State → Option (State × Bool × Option WorkspaceError)
  | .error reason => some (st, false, some reason)
  | .ok ns => do
    let object_table_hash ← obj_table_h sha256 ns.objects ns.object_count
    let path_index_hash ← path_idx_h sha256 ns.paths ns.path_count
    some ({ ns with
      root := { ns.root with
        previous_workspace_root := some oldh
        last_operation_receipt := some oph
        object_table_hash := object_table_hash
        path_index_hash := path_index_hash } }, true, none)

theorem apply_of_guarded {s : WorkspaceState} {op : WorkspaceOperation} {tp : Bytes}
    (h : Core.Guarded s op tp) : apply sha256 (view s) (view_op op) tp =
      (mutate sha256 (view s) (view_op op) tp (Core.operation_hash op tp)).bind
        (finish (view s) op.old_workspace_root (Core.operation_hash op tp)) := by
  have hroot : ws_root_h sha256 (view s).root = some op.old_workspace_root :=
    (ws_root_h_view s.root).trans h.old_root
  have hlen : ¬ MAX_PATH_B < tp.length := Nat.not_lt.mpr h.path_len
  have hsize : ¬ MAX_CONTENT < (view_op op).input_size_bytes := Nat.not_lt.mpr h.content
  have hcap : (view_op op).capability_hash = cap_sentinel sha256 := h.capability
  have hold : (view_op op).old_workspace_root = op.old_workspace_root := rfl
  have hhash : sha256 tp = (view_op op).target_path_hash := h.path_hash
  have hop := op_h_view h.path_len h.no_rollback
  unfold apply
  simp only [hroot, hlen, hsize, hcap, hold, hhash, hop, List.length_eq_zero_iff, h.path_ne,
    Option.bind_eq_bind, Option.bind_some, ne_eq, not_true_eq_false, if_false]
  refine Option.bind_congr fun r _ => ?_
  cases r <;> rfl

theorem apply_of_not_guarded {s : WorkspaceState} {op : WorkspaceOperation} {tp : Bytes}
    (hkind : op.op_kind ≠ .Rollback) (h : ¬ Core.Guarded s op tp) :
    ∃ e, apply sha256 (view s) (view_op op) tp = some (view s, false, some e) := by
  have hroot : ws_root_h sha256 (view s).root = s.root.compute_hash := ws_root_h_view s.root
  rw [Core.compute_hash_eq] at hroot
  unfold apply
  simp only [hroot, Option.bind_eq_bind, Option.bind_some]
  split_ifs with hold hlen hempty hsize hcap hhash
  all_goals try exact ⟨_, rfl⟩
  refine absurd ⟨?_, not_not.mp hcap, hkind, Nat.not_lt.mp hlen, ?_, Nat.not_lt.mp hsize,
    not_not.mp hhash⟩ h
  · rw [Core.compute_hash_eq]
    exact congrArg some (not_not.mp hold)
  · exact fun hnil => hempty (List.length_eq_zero_iff.mpr hnil)

/-- The state that a creation leaves in the oracle. -/
def created (s : WorkspaceState) (op : WorkspaceOperation) (k : ObjectKind) {tp : Bytes}
    (hlen : tp.length ≤ 256) : State where
  root := view_root s.root
  objects := (s.objects ++ [Core.object_of op k (Core.operation_hash op tp)]).map view_object
  paths := (s.paths ++ [Core.entry_of tp hlen
    (Core.object_of op k (Core.operation_hash op tp)).object_id]).map view_entry
  object_count := s.objects.length + 1
  path_count := s.paths.length + 1

/-- The state that an edit of the entry at `pidx` leaves in the oracle. -/
def edited (s : WorkspaceState) (op : WorkspaceOperation) (tp : Bytes) (pidx : ℕ)
    (entry : WorkspacePathEntry) : State where
  root := view_root s.root
  objects := (s.objects ++ [Core.object_of op .File (Core.operation_hash op tp)]).map view_object
  paths := (s.paths.set pidx { entry with
    object_id := (Core.object_of op .File (Core.operation_hash op tp)).object_id }).map view_entry
  object_count := s.objects.length + 1
  path_count := s.paths.length

theorem mutate_create {s : WorkspaceState} {op : WorkspaceOperation} {tp : Bytes}
    (hlen : tp.length ≤ 256) (k : ObjectKind)
    (hkind : op.op_kind = .CreateFile ∧ k = .File ∨ op.op_kind = .CreateDirectory ∧ k = .Directory)
    (hnew : Core.find_path s.paths tp = none) (hpaths : s.paths.length < 128)
    (hobjects : s.objects.length < 128) :
    mutate sha256 (view s) (view_op op) tp (Core.operation_hash op tp) =
      some (.ok (created s op k hlen)) := by
  have hslots : ¬ (MAX_PATHS ≤ (view s).path_count ∨ MAX_OBJECTS ≤ (view s).object_count) :=
    not_or.mpr ⟨Nat.not_le.mpr hpaths, Nat.not_le.mpr hobjects⟩
  have hobj (k : ObjectKind) : mk_obj sha256 k (view_op op).input_content_hash
      (view_op op).input_size_bytes (Core.operation_hash op tp) =
        some (view_object (Core.object_of op k (Core.operation_hash op tp))) := mk_obj_view op k _
  unfold mutate
  simp only [find_p_view, hnew, Option.isSome_none, Bool.false_eq_true, if_false, if_neg hslots,
    hobj, mk_pe_view hlen]
  obtain ⟨hkind, rfl⟩ | ⟨hkind, rfl⟩ := hkind
  all_goals
    simp only [view_op, hkind, created, List.map_append]
    rfl

theorem mutate_edit {s : WorkspaceState} {op : WorkspaceOperation} {tp : Bytes} {pidx : ℕ}
    {entry : WorkspacePathEntry} (hkind : op.op_kind = .EditFile)
    (hfind : Core.find_path s.paths tp = some pidx) (hentry : s.paths[pidx]? = some entry)
    (hobjects : s.objects.length < 128) :
    mutate sha256 (view s) (view_op op) tp (Core.operation_hash op tp) =
      some (.ok (edited s op tp pidx entry)) := by
  have hslots : ¬ MAX_OBJECTS ≤ (view s).object_count := Nat.not_le.mpr hobjects
  have hobj : mk_obj sha256 .File (view_op op).input_content_hash
      (view_op op).input_size_bytes (Core.operation_hash op tp) =
        some (view_object (Core.object_of op .File (Core.operation_hash op tp))) :=
    mk_obj_view op .File _
  have hget : (view s).paths[pidx]? = some (view_entry entry) := by
    simp [view, hentry]
  unfold mutate
  simp only [find_p_view, hfind, if_neg hslots, hobj, hget]
  simp only [view_op, hkind, edited, List.map_append, List.map_set]
  rfl

/-- The oracle's mutation, where the native tables allow it, is the native one. -/
theorem mutate_of_allow {s u : WorkspaceState} {op : WorkspaceOperation} {tp : Bytes}
    (hlen : tp.length ≤ 256) (hallow : Core.TablesAllow s op tp)
    (hu : Core.apply_mutation s op tp hlen (Core.operation_hash op tp) = some (.ok u)) :
    mutate sha256 (view s) (view_op op) tp (Core.operation_hash op tp) = some (.ok (view u)) := by
  have hcreate (k : ObjectKind)
      (hkind : op.op_kind = .CreateFile ∧ k = .File ∨
        op.op_kind = .CreateDirectory ∧ k = .Directory)
      (h : Core.find_path s.paths tp = none ∧ s.paths.length < Core.MAX_WORKSPACE_PATHS ∧
        s.objects.length < Core.MAX_WORKSPACE_OBJECTS)
      (hu : Core.apply_create s op k tp hlen (Core.operation_hash op tp) = some (.ok u)) :
      mutate sha256 (view s) (view_op op) tp (Core.operation_hash op tp) =
        some (.ok (view u)) := by
    obtain ⟨t, ht, hroot, hobjects, hpaths⟩ :=
      Core.apply_create_of_allow op k hlen (Core.operation_hash op tp) h.1 h.2.1 h.2.2
    obtain rfl : u = t := Except.ok.inj (Option.some.inj (hu.symm.trans ht))
    rw [mutate_create hlen k hkind h.1 h.2.1 h.2.2]
    simp [created, view, hroot, hobjects, hpaths]
  unfold Core.TablesAllow at hallow
  unfold Core.apply_mutation at hu
  cases hkind : op.op_kind with
  | CreateFile =>
    simp only [hkind] at hallow hu
    exact hcreate .File (.inl ⟨hkind, rfl⟩) hallow hu
  | CreateDirectory =>
    simp only [hkind] at hallow hu
    exact hcreate .Directory (.inr ⟨hkind, rfl⟩) hallow hu
  | EditFile =>
    simp only [hkind] at hallow hu
    obtain ⟨pidx, entry, hfind, hentry, hfile, hslots⟩ := hallow
    obtain ⟨t, ht, hroot, hobjects, hpaths⟩ :=
      Core.apply_edit_of_allow op (Core.operation_hash op tp) hfind hentry hfile hslots
    obtain rfl : u = t := Except.ok.inj (Option.some.inj (hu.symm.trans ht))
    rw [mutate_edit hkind hfind hentry hslots]
    simp [edited, view, hroot, hobjects, hpaths]
  | Rollback =>
    simp only [hkind] at hallow

/-- The oracle refuses what the native tables do not allow, edits of a path that names no file
excepted. -/
theorem mutate_of_not_allow {s : WorkspaceState} {op : WorkspaceOperation} {tp : Bytes}
    (hguard : Core.Guarded s op tp) (hnot : ¬ Core.TablesAllow s op tp)
    (hedit : ¬ EditsNonFile s op tp) :
    ∃ e, mutate sha256 (view s) (view_op op) tp (Core.operation_hash op tp) =
      some (.error e) := by
  have hcreate (h : ¬ (Core.find_path s.paths tp = none ∧
        s.paths.length < Core.MAX_WORKSPACE_PATHS ∧
        s.objects.length < Core.MAX_WORKSPACE_OBJECTS))
      (hnew : Core.find_path s.paths tp = none) :
      MAX_PATHS ≤ (view s).path_count ∨ MAX_OBJECTS ≤ (view s).object_count := by
    by_contra hslots
    obtain ⟨hp, ho⟩ := not_or.mp hslots
    exact h ⟨hnew, Nat.not_le.mp hp, Nat.not_le.mp ho⟩
  unfold Core.TablesAllow at hnot
  unfold mutate
  rw [find_p_view]
  cases hkind : op.op_kind with
  | CreateFile | CreateDirectory =>
    simp only [hkind] at hnot
    simp only [view_op, hkind]
    cases hfind : Core.find_path s.paths tp with
    | some pidx => exact ⟨_, rfl⟩
    | none =>
      simp only [Option.isSome_none, Bool.false_eq_true, if_false, if_pos (hcreate hnot hfind)]
      exact ⟨_, rfl⟩
  | EditFile =>
    simp only [hkind] at hnot
    simp only [view_op, hkind]
    cases hfind : Core.find_path s.paths tp with
    | none => exact ⟨_, rfl⟩
    | some pidx =>
      have hslots : MAX_OBJECTS ≤ (view s).object_count := by
        by_contra hfree
        have hobjects : s.objects.length < Core.MAX_WORKSPACE_OBJECTS := Nat.not_le.mp hfree
        obtain ⟨hlt, -⟩ := List.findIdx?_eq_some_iff_getElem.mp hfind
        by_cases hfile : Core.is_file s.objects s.paths[pidx].object_id
        · exact hnot ⟨pidx, _, hfind, List.getElem?_eq_getElem hlt, hfile, hobjects⟩
        · exact hedit ⟨hguard, hkind, hobjects, pidx, _, hfind, List.getElem?_eq_getElem hlt,
            hfile⟩
      simp only [if_pos hslots]
      exact ⟨_, rfl⟩
  | Rollback => exact absurd hkind hguard.no_rollback

/-- A finished mutation of native tables is accepted. -/
theorem finish_isSome {s : WorkspaceState} {objects : List WorkspaceObject}
    {paths : List WorkspacePathEntry} {ns : State} (oldh oph : Digest)
    (ho : ns.objects = objects.map view_object) (hp : ns.paths = paths.map view_entry)
    (hoc : ns.object_count = objects.length) (hpc : ns.path_count = paths.length) :
    ∃ st, finish (view s) oldh oph (.ok ns) = some (st, true, none) := by
  obtain ⟨ot, hot⟩ := Option.isSome_iff_exists.mp (obj_table_h_isSome objects)
  obtain ⟨pi, hpi⟩ := Option.isSome_iff_exists.mp (path_idx_h_isSome paths)
  unfold finish
  simp only [ho, hp, hoc, hpc, hot, hpi, Option.bind_eq_bind, Option.bind_some]
  exact ⟨_, rfl⟩

/-- The finished mutation of a native step is the native state. -/
theorem finish_of_refreshes {s u t : WorkspaceState} {oldh oph : Digest}
    (hold : s.root.compute_hash = some oldh) (ht : Core.Refreshes s u oph t) :
    finish (view s) oldh oph (.ok (view u)) = some (view t, true, none) := by
  have hot := obj_table_h_view ht.object_table
  have hpi := path_idx_h_view ht.path_index
  have hprevious := ht.previous.trans hold
  unfold finish
  simp only [view, hot, hpi, Option.bind_eq_bind, Option.bind_some, ht.objects, ht.paths]
  simp [view_root, ht.version, hprevious, ht.receipt]

/-- What one operation does in both implementations. -/
inductive StepsTogether (s : WorkspaceState) (op : WorkspaceOperation) (tp : Bytes) : Prop
  /-- The native code refuses an edit that the oracle takes. -/
  | edit (hedit : EditsNonFile s op tp) (e : WorkspaceError) (st : State)
      (hnative : Core.apply_workspace_operation s op tp = some (.error e))
      (horacle : apply sha256 (view s) (view_op op) tp = some (st, true, none))
  /-- The native code panics where the oracle takes the operation. -/
  | overflow (hover : Overflows s op tp) (st : State)
      (hnative : Core.apply_workspace_operation s op tp = none)
      (horacle : apply sha256 (view s) (view_op op) tp = some (st, true, none))
  | accepted (hedit : ¬ EditsNonFile s op tp) (hover : ¬ Overflows s op tp) (t : WorkspaceState)
      (hnative : Core.apply_workspace_operation s op tp = some (.ok t))
      (horacle : apply sha256 (view s) (view_op op) tp = some (view t, true, none))
  | refused (hedit : ¬ EditsNonFile s op tp) (hover : ¬ Overflows s op tp) (e e' : WorkspaceError)
      (hnative : Core.apply_workspace_operation s op tp = some (.error e))
      (horacle : apply sha256 (view s) (view_op op) tp = some (view s, false, some e'))

theorem EditsNonFile.not_allow {s : WorkspaceState} {op : WorkspaceOperation} {tp : Bytes}
    (h : EditsNonFile s op tp) : ¬ Core.TablesAllow s op tp := by
  obtain ⟨-, hkind, -, pidx, entry, hfind, hentry, hfile⟩ := h
  unfold Core.TablesAllow
  rw [hkind]
  rintro ⟨pidx', entry', hfind', hentry', hfile', -⟩
  obtain rfl := Option.some.inj (hfind.symm.trans hfind')
  obtain rfl := Option.some.inj (hentry.symm.trans hentry')
  exact hfile hfile'

theorem stepsTogether {s : WorkspaceState} {op : WorkspaceOperation} (tp : Bytes)
    (hkind : op.op_kind ≠ .Rollback) : StepsTogether s op tp := by
  have hrefused (hnot : ¬ Core.Admitted s op tp) :
      ∃ e, Core.apply_workspace_operation s op tp = some (.error e) :=
    (Core.apply_of_not_admitted hnot).resolve_right fun h => hkind h.1
  by_cases hguard : Core.Guarded s op tp
  · have hlen : tp.length ≤ 256 := hguard.path_len
    have horacle := apply_of_guarded hguard
    by_cases hallow : Core.TablesAllow s op tp
    · have hadm := Core.admitted_iff.mpr ⟨hguard, hallow⟩
      have hedit : ¬ EditsNonFile s op tp := fun h => h.not_allow hallow
      obtain ⟨u, hu, happly⟩ := Core.apply_of_admitted hadm
      rw [mutate_of_allow hlen hallow hu, Option.bind_some] at horacle
      by_cases hfit : Core.TablesFit s op tp
      · have hsome := (Core.apply_isSome_iff s op tp).mpr fun _ => hfit
        rw [happly, Option.isSome_map] at hsome
        obtain ⟨t, ht⟩ := Option.isSome_iff_exists.mp hsome
        refine .accepted hedit (fun h => h.2 hfit) t (by rw [happly, ht]; rfl) ?_
        rw [horacle, finish_of_refreshes hguard.old_root (Core.refreshes_of_refresh_root ht)]
      · have hnone : Core.apply_workspace_operation s op tp = none := by
          rw [← Option.not_isSome_iff_eq_none, Core.apply_isSome_iff]
          exact fun h => hfit (h hadm)
        obtain ⟨st, hst⟩ := @finish_isSome s _ _ (view u) op.old_workspace_root
          (Core.operation_hash op tp) rfl rfl rfl rfl
        exact .overflow ⟨hadm, hfit⟩ st hnone (horacle.trans hst)
    · have hnot : ¬ Core.Admitted s op tp := fun h => hallow h.tables
      obtain ⟨e, hnative⟩ := hrefused hnot
      by_cases hedit : EditsNonFile s op tp
      · obtain ⟨-, hk, hobjects, pidx, entry, hfind, hentry, -⟩ := id hedit
        rw [mutate_edit hk hfind hentry hobjects, Option.bind_some] at horacle
        obtain ⟨st, hst⟩ := @finish_isSome s _ _ (edited s op tp pidx entry)
          op.old_workspace_root (Core.operation_hash op tp) rfl rfl
          (by simp [edited]) (by simp [edited])
        exact .edit hedit e st hnative (horacle.trans hst)
      · obtain ⟨e', he'⟩ := mutate_of_not_allow hguard hallow hedit
        rw [he', Option.bind_some] at horacle
        exact .refused hedit (fun h => hnot h.1) e e' hnative horacle
  · have hnot : ¬ Core.Admitted s op tp := fun h => hguard (Core.admitted_iff.mp h).1
    obtain ⟨e, hnative⟩ := hrefused hnot
    obtain ⟨e', horacle⟩ := apply_of_not_guarded hkind hguard
    exact .refused (fun h => hguard h.1) (fun h => hnot h.1) e e' hnative horacle

/-! ## Runs -/

/-- What a caller sees of an operation. -/
inductive Outcome
  /-- A panic of the native code, an exception of the oracle. -/
  | crashed
  | refused
  | accepted (root_hash : Option Digest) (objects : List Obj) (paths : List PathEntry)
  deriving DecidableEq

/-- One native operation and the state after it; a refused operation leaves the state unchanged, a
panic ends the run. -/
def native_step (s : WorkspaceState) (op : WorkspaceOperation) (tp : Bytes) :
    Outcome × Option WorkspaceState :=
  match Core.apply_workspace_operation s op tp with
  | none => (.crashed, none)
  | some (.error _) => (.refused, some s)
  | some (.ok t) =>
    (.accepted t.root.compute_hash (t.objects.map view_object) (t.paths.map view_entry), some t)

/-- One operation of the oracle and the state after it. -/
def oracle_step (st : State) (op : WorkspaceOperation) (tp : Bytes) : Outcome × Option State :=
  match apply sha256 st (view_op op) tp with
  | none => (.crashed, none)
  | some (ns, false, _) => (.refused, some ns)
  | some (ns, true, _) =>
    (.accepted (ws_root_h sha256 ns.root) ns.objects ns.paths, some ns)

/-- The outcomes of a sequence of operations. -/
def run {σ : Type} (step : σ → WorkspaceOperation → Bytes → Outcome × Option σ) :
    List (WorkspaceOperation × Bytes) → σ → List Outcome
  | [], _ => []
  | (op, tp) :: ops, s =>
    (step s op tp).1 :: (step s op tp).2.elim [] fun t => run step ops t

/-- The native outcomes from the initial state. -/
def native_outcomes (ops : List (WorkspaceOperation × Bytes)) : Option (List Outcome) :=
  Core.make_initial_workspace_state.map fun s => run native_step ops s

/-- The oracle's outcomes from the initial state. -/
def oracle_outcomes (ops : List (WorkspaceOperation × Bytes)) : Option (List Outcome) :=
  (mk_init sha256).map fun st => run oracle_step ops st

/-- No operation of the run edits a path that names no file or outgrows a staging buffer. -/
def Clear : List (WorkspaceOperation × Bytes) → WorkspaceState → Prop
  | [], _ => True
  | (op, tp) :: ops, s => ¬ EditsNonFile s op tp ∧ ¬ Overflows s op tp ∧
    (native_step s op tp).2.elim True fun t => Clear ops t

section Step

variable {s : WorkspaceState} {op : WorkspaceOperation} {tp : Bytes}

theorem native_step_crashed (h : Core.apply_workspace_operation s op tp = none) :
    native_step s op tp = (.crashed, none) := by
  unfold native_step
  rw [h]

theorem native_step_refused {e : WorkspaceError}
    (h : Core.apply_workspace_operation s op tp = some (.error e)) :
    native_step s op tp = (.refused, some s) := by
  unfold native_step
  rw [h]

theorem native_step_accepted {t : WorkspaceState}
    (h : Core.apply_workspace_operation s op tp = some (.ok t)) :
    native_step s op tp =
      (.accepted t.root.compute_hash (t.objects.map view_object) (t.paths.map view_entry),
        some t) := by
  unfold native_step
  rw [h]

theorem oracle_step_refused {st ns : State} {e : Option WorkspaceError}
    (h : apply sha256 st (view_op op) tp = some (ns, false, e)) :
    oracle_step st op tp = (.refused, some ns) := by
  unfold oracle_step
  rw [h]

theorem oracle_step_accepted {st ns : State} {e : Option WorkspaceError}
    (h : apply sha256 st (view_op op) tp = some (ns, true, e)) :
    oracle_step st op tp =
      (.accepted (ws_root_h sha256 ns.root) ns.objects ns.paths, some ns) := by
  unfold oracle_step
  rw [h]

end Step

theorem run_eq_iff_clear {s : WorkspaceState} {ops : List (WorkspaceOperation × Bytes)}
    (hops : ∀ p ∈ ops, p.1.op_kind ≠ .Rollback) :
    run native_step ops s = run oracle_step ops (view s) ↔ Clear ops s := by
  induction ops generalizing s with
  | nil => exact ⟨fun _ => trivial, fun _ => rfl⟩
  | cons p ops ih =>
    obtain ⟨op, tp⟩ := p
    obtain ⟨hkind, hrest⟩ := List.forall_mem_cons.mp hops
    rw [run, run, Clear]
    cases stepsTogether (s := s) tp hkind with
    | edit hedit e st hnative horacle =>
      rw [native_step_refused hnative, oracle_step_accepted horacle]
      exact ⟨fun h => Outcome.noConfusion (List.cons.inj h).1, fun h => absurd hedit h.1⟩
    | overflow hover st hnative horacle =>
      rw [native_step_crashed hnative, oracle_step_accepted horacle]
      exact ⟨fun h => Outcome.noConfusion (List.cons.inj h).1, fun h => absurd hover h.2.1⟩
    | accepted hedit hover t hnative horacle =>
      have hhead : ws_root_h sha256 (view t).root = t.root.compute_hash := ws_root_h_view t.root
      rw [native_step_accepted hnative, oracle_step_accepted horacle, hhead]
      exact ⟨fun h => ⟨hedit, hover, (ih hrest).mp (List.cons.inj h).2⟩,
        fun h => congrArg _ ((ih hrest).mpr h.2.2)⟩
    | refused hedit hover e e' hnative horacle =>
      rw [native_step_refused hnative, oracle_step_refused horacle]
      exact ⟨fun h => ⟨hedit, hover, (ih hrest).mp (List.cons.inj h).2⟩,
        fun h => congrArg _ ((ih hrest).mpr h.2.2)⟩

theorem mk_init_view {s : WorkspaceState} (hs : Core.make_initial_workspace_state = some s) :
    mk_init sha256 = some (view s) := by
  unfold Core.make_initial_workspace_state at hs
  simp only [Core.compute_object_table_hash, Core.compute_path_index_hash, List.length_nil, if_true,
    Option.bind_eq_bind, Option.bind_some, Option.some.injEq] at hs
  subst hs
  simp only [mk_init, obj_table_h, path_idx_h, if_true, Option.bind_eq_bind, Option.bind_some]
  simp only [view, view_root, List.map_nil, List.length_nil]
  rfl

theorem outcomes_eq_iff {s : WorkspaceState} {ops : List (WorkspaceOperation × Bytes)}
    (hs : Core.make_initial_workspace_state = some s) (hops : ∀ p ∈ ops, p.1.op_kind ≠ .Rollback) :
    native_outcomes ops = oracle_outcomes ops ↔ Clear ops s := by
  rw [native_outcomes, oracle_outcomes, mk_init_view hs, hs, Option.map_some, Option.map_some,
    Option.some_inj]
  exact run_eq_iff_clear hops

/-- On every sequence of creations and edits, both implementations accept the same operations with
the same roots and tables exactly when the sequence is clear. -/
theorem native_eq_oracle_iff_clear (ops : List (WorkspaceOperation × Bytes))
    (hops : ∀ p ∈ ops, p.1.op_kind ≠ .Rollback) :
    native_outcomes ops = oracle_outcomes ops ↔
      ∃ s, Core.make_initial_workspace_state = some s ∧ Clear ops s := by
  obtain ⟨s, hs, -⟩ := Core.make_initial_tables
  rw [outcomes_eq_iff hs hops]
  constructor
  · exact fun h => ⟨s, hs, h⟩
  · rintro ⟨s', hs', h⟩
    obtain rfl := Option.some.inj (hs.symm.trans hs')
    exact h

/-- A file is created: the implementations agree. -/
theorem native_eq_oracle_one_file : ∃ s, Core.make_initial_workspace_state = some s ∧
    native_outcomes [(Core.write_operation s .CreateFile, ascii "a")] =
      oracle_outcomes [(Core.write_operation s .CreateFile, ascii "a")] := by
  obtain ⟨s, hs, ho, hp⟩ := Core.make_initial_tables
  have hallow : Core.TablesAllow s (Core.write_operation s .CreateFile) (ascii "a") :=
    Core.empty_allows ho hp
  have hfit := Core.empty_fits ho hp (.inl rfl)
  refine ⟨s, hs, (native_eq_oracle_iff_clear _ ?_).mpr
    ⟨s, hs, fun h => h.not_allow hallow, fun h => h.2 hfit, ?_⟩⟩
  · intro p hp
    obtain rfl := List.mem_singleton.mp hp
    exact (by decide : WorkspaceOpKind.CreateFile ≠ .Rollback)
  · cases (native_step s (Core.write_operation s .CreateFile) (ascii "a")).2 with
    | none => trivial
    | some t => trivial

/-- Creating the directory `a` in empty tables. -/
theorem create_directory {s : WorkspaceState} (ho : s.objects = []) (hp : s.paths = []) :
    ∃ t, Core.apply_workspace_operation s (Core.write_operation s .CreateDirectory) (ascii "a") =
        some (.ok t) ∧
      EditsNonFile t (Core.write_operation t .EditFile) (ascii "a") := by
  have hallow : Core.TablesAllow s (Core.write_operation s .CreateDirectory) (ascii "a") :=
    Core.empty_allows ho hp
  have hadm := Core.admitted_write_operation (by decide) hallow
  obtain ⟨op_hash, u, t, hu, ht, huo, hup⟩ :=
    Core.apply_of_fits hadm (Core.empty_fits ho hp (.inr rfl))
  obtain ⟨hnew, hpaths, hobjects⟩ := Core.empty_allows ho hp
  obtain ⟨u', hu', -, hobj, hpath⟩ := Core.apply_create_of_allow
    (Core.write_operation s .CreateDirectory) .Directory hadm.path_len op_hash hnew hpaths hobjects
  obtain rfl : u = u' := Except.ok.inj (Option.some.inj (hu.symm.trans hu'))
  rw [hobj, ho, List.nil_append] at huo
  rw [hpath, hp, List.nil_append] at hup
  have hentry : ∃ e, t.paths[0]? = some e := ⟨_, by rw [hup]; rfl⟩
  obtain ⟨e, he⟩ := hentry
  refine ⟨t, ht, Core.guarded_write_operation t (by decide), rfl, ?_, 0, e, ?_, he, ?_⟩
  · rw [huo]
    exact (by decide : 1 < 128)
  · rw [hup, Core.find_path_eq, List.findIdx?_cons,
      Core.path_entry_of (ascii "a") hadm.path_len]
    simp
  · rw [huo]
    simp [Core.is_file, Core.object_of]

/-- A directory is created and then edited as a file: the native code refuses the edit. -/
theorem native_ne_oracle_directory_edit : ∃ s t, Core.make_initial_workspace_state = some s ∧
    Core.apply_workspace_operation s (Core.write_operation s .CreateDirectory) (ascii "a") =
      some (.ok t) ∧
    native_outcomes [(Core.write_operation s .CreateDirectory, ascii "a"),
        (Core.write_operation t .EditFile, ascii "a")] ≠
      oracle_outcomes [(Core.write_operation s .CreateDirectory, ascii "a"),
        (Core.write_operation t .EditFile, ascii "a")] := by
  obtain ⟨s, hs, ho, hp⟩ := Core.make_initial_tables
  obtain ⟨t, ht, hedit⟩ := create_directory ho hp
  have hops : ∀ p ∈ [(Core.write_operation s .CreateDirectory, ascii "a"),
      (Core.write_operation t .EditFile, ascii "a")], p.1.op_kind ≠ .Rollback := by
    rw [List.forall_mem_cons, List.forall_mem_singleton]
    exact ⟨(by decide : WorkspaceOpKind.CreateDirectory ≠ .Rollback),
      (by decide : WorkspaceOpKind.EditFile ≠ .Rollback)⟩
  refine ⟨s, t, hs, ht, fun heq => ?_⟩
  have hclear := (outcomes_eq_iff hs hops).mp heq
  rw [Clear, native_step_accepted ht, Option.elim_some, Clear] at hclear
  exact hclear.2.2.1 hedit

end Bogbin.Tools
