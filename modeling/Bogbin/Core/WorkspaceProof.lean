import Bogbin.Core.Workspace

/-!
# When the workspace model panics

Every buffer of the model but one is large enough for what is written to it.  The exception is the
staging buffer of the two table hashes: it holds 55 objects, and a path index of 4096 bytes.
-/

namespace Bogbin.Core

open Buffer Staging

/-! ## Sorting keeps the entries -/

theorem foldl_perm {α β : Type*} {f : List α → β → List α} (hf : ∀ s b, (f s b).Perm s)
    (bs : List β) (s : List α) : (bs.foldl f s).Perm s := by
  induction bs generalizing s with
  | nil => exact .refl s
  | cons b bs ih => exact (ih (f s b)).trans (hf s b)

theorem swap_step_perm {α : Type} (less : α → α → Bool) (s : List α) (j : ℕ) :
    (swap_step less s j).Perm s := by
  unfold swap_step
  split
  · next a b ha hb =>
    split_ifs
    · obtain ⟨hj, rfl⟩ := List.getElem?_eq_some_iff.mp ha
      obtain ⟨hj', rfl⟩ := List.getElem?_eq_some_iff.mp hb
      exact List.set_set_perm hj hj'
    · exact .refl s
  · exact .refl s

theorem bubble_sort_perm {α : Type} (less : α → α → Bool) (s : List α) :
    (bubble_sort less s).Perm s :=
  foldl_perm (fun s _ => foldl_perm (swap_step_perm less) _ s) _ s

/-! ## The table hashes -/

/-- The size of the serialised object table. -/
def object_table_bytes (objects : List WorkspaceObject) : ℕ := 10 + 73 * objects.length

/-- The size of the serialised path index. -/
def path_index_bytes (paths : List WorkspacePathEntry) : ℕ :=
  11 + (paths.map fun e => 34 + e.path_len.toNat).sum

theorem length_object_fields (o : WorkspaceObject) : (object_fields o).flatten.length = 73 := by
  simp [object_fields, o.content_hash.2, o.created_by_operation.2]

theorem length_path_fields (e : WorkspacePathEntry) :
    (path_fields e).flatten.length = 34 + e.path_len.toNat := by
  have hlen := e.path_len_le
  simp only [path_fields, List.flatten_cons, List.flatten_nil, List.append_nil, List.length_append,
    length_leBytes, List.length_take, e.path_bytes.2, e.object_id.2]
  omega

/-- The staged hash of a tag and the fields of some items. -/
def staged_hash {β : Type} (tag : Bytes) (fields : β → List Bytes) (items : List β) :
    Option Hash32 := do
  let c ← (Cursor.start table_buffer).put tag
  let c ← c.putEach fields items
  some (sha256 c.written)

theorem staged_hash_eq {β : Type} (tag : Bytes) (fields : β → List Bytes) (items : List β) :
    staged_hash tag fields items = ((Cursor.start table_buffer).put
      (tag ++ items.flatMap fun x => (fields x).flatten)).map fun c => sha256 c.written := by
  rw [← Cursor.put_put]
  unfold staged_hash
  simp only [Cursor.putEach_eq]
  cases (Cursor.start table_buffer).put tag with
  | none => rfl
  | some c => exact Option.map_eq_bind.symm

/-- A staged hash exists exactly when tag and items fit the staging buffer. -/
theorem staged_isSome {β : Type} (tag : Bytes) (fields : β → List Bytes) (items : List β) :
    (staged_hash tag fields items).isSome ↔
      tag.length + (items.map fun x => (fields x).flatten.length).sum ≤ 4096 := by
  rw [staged_hash_eq, Option.isSome_map, Cursor.put_isSome, List.length_append,
    List.length_flatMap]
  simp [Cursor.start, table_buffer]

/-- A staged hash is the hash of the tag and the items. -/
theorem eq_of_staged_hash {β : Type} {tag : Bytes} {fields : β → List Bytes} {items : List β}
    {h : Hash32} (heq : staged_hash tag fields items = some h) :
    h = sha256 (tag ++ items.flatMap fun x => (fields x).flatten) := by
  rw [staged_hash_eq] at heq
  obtain ⟨c, hc, rfl⟩ := Option.map_eq_some_iff.mp heq
  rw [Cursor.written_put hc, Cursor.written_start, List.nil_append]

theorem compute_object_table_hash_eq {objects : List WorkspaceObject} (hne : objects.length ≠ 0)
    (hle : objects.length ≤ 128) : compute_object_table_hash objects =
      staged_hash (ascii "WSOBJTABv1") object_fields
        (bubble_sort (fun a b => hash_less a.object_id b.object_id) objects) := by
  rw [compute_object_table_hash, if_neg hne, if_neg (Nat.not_lt.mpr hle)]
  rfl

theorem compute_path_index_hash_eq {paths : List WorkspacePathEntry} (hne : paths.length ≠ 0)
    (hle : paths.length ≤ 128) : compute_path_index_hash paths =
      staged_hash (ascii "WSPATHIDXv1") path_fields (bubble_sort path_entry_less paths) := by
  rw [compute_path_index_hash, if_neg hne, if_neg (Nat.not_lt.mpr hle)]
  rfl

theorem compute_object_table_hash_isSome {objects : List WorkspaceObject}
    (h : objects.length ≤ 128) :
    (compute_object_table_hash objects).isSome ↔ object_table_bytes objects ≤ 4096 := by
  by_cases hzero : objects.length = 0
  · simp [compute_object_table_hash, object_table_bytes, hzero]
  · have hperm := bubble_sort_perm (fun a b => hash_less a.object_id b.object_id) objects
    rw [compute_object_table_hash_eq hzero h, staged_isSome, (hperm.map _).sum_eq]
    simp only [length_object_fields, List.map_const', List.sum_replicate, smul_eq_mul,
      object_table_bytes]
    rw [Nat.mul_comm]
    rfl

theorem compute_path_index_hash_isSome {paths : List WorkspacePathEntry}
    (h : paths.length ≤ 128) :
    (compute_path_index_hash paths).isSome ↔ path_index_bytes paths ≤ 4096 := by
  by_cases hzero : paths.length = 0
  · simp [compute_path_index_hash, path_index_bytes, List.length_eq_zero_iff.mp hzero]
  · rw [compute_path_index_hash_eq hzero h, staged_isSome,
      ((bubble_sort_perm path_entry_less paths).map _).sum_eq]
    simp only [length_path_fields, path_index_bytes]
    rfl

/-! ## The buffers that are large enough -/

theorem putAll_start (buf : Bytes) (srcs : List Bytes)
    (h : srcs.flatten.length ≤ buf.length) :
    ∃ c, (Cursor.start buf).putAll srcs = some c ∧ c.written = srcs.flatten := by
  rw [Cursor.putAll_eq]
  have hsome : ((Cursor.start buf).put srcs.flatten).isSome := by
    rw [Cursor.put_isSome]
    simpa [Cursor.start] using h
  obtain ⟨c, hc⟩ := Option.isSome_iff_exists.mp hsome
  exact ⟨c, hc, by simpa using Cursor.written_put hc⟩

theorem length_optionFields (o : Option Hash32) : (optionFields o).flatten.length = 33 := by
  cases o with
  | none => simp [optionFields]
  | some h => simp [optionFields, h.2]

theorem length_root_fields (r : WorkspaceRoot) : r.fields.flatten.length = 142 := by
  simp only [WorkspaceRoot.fields, List.flatten_append, List.length_append, length_optionFields]
  simp [r.object_table_hash.2, r.path_index_hash.2, ascii]

/-- The hash of a root never panics. -/
theorem compute_hash_eq (r : WorkspaceRoot) : r.compute_hash = some (sha256 r.fields.flatten) := by
  obtain ⟨c, hc, hw⟩ := putAll_start (zeros 256) r.fields
    (by rw [length_root_fields, length_zeros]; omega)
  unfold WorkspaceRoot.compute_hash WorkspaceRoot.write_canonical
  simp [hc, hw]

/-- The canonical payload of an operation. -/
def operation_payload (op : WorkspaceOperation) (target_path : Bytes) : Bytes :=
  [ascii "WSOPv1", leBytes 4 op.op_version.toNat, [kind_byte op.op_kind],
    op.old_workspace_root.val, patch (zeros 256) 0 target_path, op.input_content_hash.val,
    leBytes 8 op.input_size_bytes.toNat, op.capability_hash.val, op.tool_receipt_hash.val].flatten

/-- The hash that identifies an operation. -/
def operation_hash (op : WorkspaceOperation) (target_path : Bytes) : Hash32 :=
  sha256 (operation_payload op target_path)

/-- The payload of an operation on a path of at most 256 bytes never panics. -/
theorem canonical_operation_payload_eq (op : WorkspaceOperation) {target_path : Bytes}
    (h : target_path.length ≤ 256) :
    ∃ c, canonical_operation_payload op target_path (zeros 512) = some (.ok c) ∧
      c.written = operation_payload op target_path := by
  have hfit : 0 + target_path.length ≤ (zeros 256).length := by simpa using h
  have hput : (Cursor.start (zeros 256)).put target_path =
      some ⟨patch (zeros 256) 0 target_path, 0 + target_path.length,
        by rwa [length_patch _ hfit]⟩ := dif_pos hfit
  have hbuf := length_path_bytes h
  obtain ⟨c, hc, hw⟩ := putAll_start (zeros 512) [ascii "WSOPv1",
      leBytes 4 op.op_version.toNat, [kind_byte op.op_kind], op.old_workspace_root.val,
      patch (zeros 256) 0 target_path, op.input_content_hash.val,
      leBytes 8 op.input_size_bytes.toNat, op.capability_hash.val, op.tool_receipt_hash.val]
    (by simp [ascii, hbuf, op.old_workspace_root.2, op.input_content_hash.2, op.capability_hash.2,
      op.tool_receipt_hash.2])
  refine ⟨c, ?_, hw⟩
  unfold canonical_operation_payload
  simp [hput, hc, Nat.not_lt.mpr h]

/-- The object an operation adds, with its content-addressed id. -/
def object_of (op : WorkspaceOperation) (k : ObjectKind) (op_hash : Hash32) : WorkspaceObject where
  object_id := sha256 [[object_kind_byte k], op.input_content_hash.val,
    leBytes 8 op.input_size_bytes.toNat, op_hash.val].flatten
  object_kind := k
  content_hash := op.input_content_hash
  size_bytes := op.input_size_bytes
  created_by_operation := op_hash

theorem new_object_eq (op : WorkspaceOperation) (k : ObjectKind) (op_hash : Hash32) :
    new_object op k op_hash = some (object_of op k op_hash) := by
  obtain ⟨c, hc, hw⟩ := putAll_start (zeros 128) [[object_kind_byte k],
      op.input_content_hash.val, leBytes 8 op.input_size_bytes.toNat, op_hash.val]
    (by simp [op.input_content_hash.2, op_hash.2])
  unfold new_object
  rw [hc]
  simp only [Option.bind_eq_bind, Option.bind_some, hw]
  rfl

/-- The path entry of a created object. -/
def entry_of (target_path : Bytes) (hlen : target_path.length ≤ 256) (object_id : Hash32) :
    WorkspacePathEntry where
  path_hash := sha256 target_path
  path_len := UInt16.ofNat target_path.length
  path_bytes := ⟨patch (zeros 256) 0 target_path, length_path_bytes hlen⟩
  object_id := object_id
  path_len_le := path_len_le hlen

/-- The path an entry stores. -/
def WorkspacePathEntry.path (e : WorkspacePathEntry) : Bytes :=
  e.path_bytes.val.take e.path_len.toNat

theorem WorkspacePathEntry.length_path (e : WorkspacePathEntry) :
    e.path.length = e.path_len.toNat := by
  rw [WorkspacePathEntry.path, List.length_take, e.path_bytes.2]
  exact Nat.min_eq_left e.path_len_le

theorem path_len_entry_of (target_path : Bytes) (hlen : target_path.length ≤ 256)
    (object_id : Hash32) :
    (entry_of target_path hlen object_id).path_len.toNat = target_path.length :=
  UInt16.toNat_ofNat_of_lt' (Nat.lt_of_le_of_lt hlen (by decide))

theorem path_entry_of (target_path : Bytes) (hlen : target_path.length ≤ 256)
    (object_id : Hash32) : (entry_of target_path hlen object_id).path = target_path := by
  rw [WorkspacePathEntry.path, path_len_entry_of]
  simp [entry_of, patch]

/-! ## Mutations of the tables -/

/-- The bytes an operation adds to the path index. -/
def path_growth (op : WorkspaceOperation) (target_path : Bytes) : ℕ :=
  match op.op_kind with
  | .CreateFile | .CreateDirectory => 34 + target_path.length
  | .EditFile | .Rollback => 0

/-- The tables allow the operation: a created path is new and has free slots, an edited path names a
file and has a free object slot. -/
def TablesAllow (s : WorkspaceState) (op : WorkspaceOperation) (target_path : Bytes) : Prop :=
  match op.op_kind with
  | .CreateFile | .CreateDirectory =>
    find_path s.paths target_path = none ∧ s.paths.length < MAX_WORKSPACE_PATHS ∧
      s.objects.length < MAX_WORKSPACE_OBJECTS
  | .EditFile =>
    ∃ pidx entry, find_path s.paths target_path = some pidx ∧ s.paths[pidx]? = some entry ∧
      is_file s.objects entry.object_id ∧ s.objects.length < MAX_WORKSPACE_OBJECTS
  | .Rollback => False

theorem path_index_bytes_append (paths : List WorkspacePathEntry) (e : WorkspacePathEntry) :
    path_index_bytes (paths ++ [e]) = path_index_bytes paths + (34 + e.path_len.toNat) := by
  simp only [path_index_bytes, List.map_append, List.map_cons, List.map_nil, List.sum_append,
    List.sum_singleton]
  omega

theorem path_index_bytes_set {paths : List WorkspacePathEntry} {i : ℕ} {e d : WorkspacePathEntry}
    (he : paths[i]? = some e) (hd : d.path_len = e.path_len) :
    path_index_bytes (paths.set i d) = path_index_bytes paths := by
  have hmap : (paths.set i d).map (fun e => 34 + e.path_len.toNat) =
      paths.map fun e => 34 + e.path_len.toNat := by
    rw [List.map_set, hd]
    refine List.ext_getElem? fun j => ?_
    rw [List.getElem?_set]
    split_ifs with hij hlt
    · subst hij
      simp [he]
    · subst hij
      simp [List.getElem?_eq_none (Nat.not_lt.mp hlt)]
    · rfl
  rw [path_index_bytes, hmap, path_index_bytes]

theorem apply_create_of_allow {s : WorkspaceState} (op : WorkspaceOperation) (k : ObjectKind)
    {target_path : Bytes} (hlen : target_path.length ≤ 256) (op_hash : Hash32)
    (hnew : find_path s.paths target_path = none) (hpaths : s.paths.length < MAX_WORKSPACE_PATHS)
    (hobjects : s.objects.length < MAX_WORKSPACE_OBJECTS) :
    ∃ t, apply_create s op k target_path hlen op_hash = some (.ok t) ∧ t.root = s.root ∧
      t.objects = s.objects ++ [object_of op k op_hash] ∧
      t.paths = s.paths ++ [entry_of target_path hlen (object_of op k op_hash).object_id] := by
  have hslots : ¬ (MAX_WORKSPACE_PATHS ≤ s.paths.length ∨
      MAX_WORKSPACE_OBJECTS ≤ s.objects.length) := by omega
  unfold apply_create
  simp only [hnew, Option.isSome_none, Bool.false_eq_true, if_false, dif_neg hslots,
    new_object_eq]
  exact ⟨_, rfl, rfl, rfl, rfl⟩

theorem apply_edit_of_allow {s : WorkspaceState} (op : WorkspaceOperation) {target_path : Bytes}
    (op_hash : Hash32) {pidx : ℕ} {entry : WorkspacePathEntry}
    (hfind : find_path s.paths target_path = some pidx) (hentry : s.paths[pidx]? = some entry)
    (hfile : is_file s.objects entry.object_id)
    (hobjects : s.objects.length < MAX_WORKSPACE_OBJECTS) :
    ∃ t, apply_edit s op target_path op_hash = some (.ok t) ∧ t.root = s.root ∧
      t.objects = s.objects ++ [object_of op .File op_hash] ∧
      t.paths =
        s.paths.set pidx { entry with object_id := (object_of op .File op_hash).object_id } := by
  unfold apply_edit
  simp only [hfind, hentry, hfile, Bool.not_true, Bool.false_eq_true, if_false,
    dif_neg (Nat.not_le.mpr hobjects), new_object_eq]
  exact ⟨_, rfl, rfl, rfl, rfl⟩

/-- An operation that the tables allow adds one object, and the path it creates. -/
theorem apply_mutation_of_allow {s : WorkspaceState} {op : WorkspaceOperation}
    {target_path : Bytes} (hlen : target_path.length ≤ 256) (op_hash : Hash32)
    (h : TablesAllow s op target_path) :
    ∃ t, apply_mutation s op target_path hlen op_hash = some (.ok t) ∧
      object_table_bytes t.objects = object_table_bytes s.objects + 73 ∧
      path_index_bytes t.paths = path_index_bytes s.paths + path_growth op target_path := by
  unfold TablesAllow at h
  unfold apply_mutation path_growth
  cases hkind : op.op_kind with
  | CreateFile =>
    rw [hkind] at h
    obtain ⟨t, ht, -, hto, htp⟩ :=
      apply_create_of_allow op .File hlen op_hash h.1 h.2.1 h.2.2
    refine ⟨t, ht, ?_, ?_⟩
    · simp [object_table_bytes, hto]
      omega
    · rw [htp, path_index_bytes_append, path_len_entry_of]
  | CreateDirectory =>
    rw [hkind] at h
    obtain ⟨t, ht, -, hto, htp⟩ :=
      apply_create_of_allow op .Directory hlen op_hash h.1 h.2.1 h.2.2
    refine ⟨t, ht, ?_, ?_⟩
    · simp [object_table_bytes, hto]
      omega
    · rw [htp, path_index_bytes_append, path_len_entry_of]
  | EditFile =>
    rw [hkind] at h
    obtain ⟨pidx, entry, hfind, hentry, hfile, hobjects⟩ := h
    obtain ⟨t, ht, -, hto, htp⟩ := apply_edit_of_allow op op_hash hfind hentry hfile hobjects
    refine ⟨t, ht, ?_, ?_⟩
    · simp [object_table_bytes, hto]
      omega
    · rw [htp]
      exact path_index_bytes_set hentry rfl
  | Rollback =>
    rw [hkind] at h
    exact h.elim

/-- An operation that the tables do not allow is refused without a panic. -/
theorem apply_mutation_of_not_allow {s : WorkspaceState} {op : WorkspaceOperation}
    {target_path : Bytes} (hlen : target_path.length ≤ 256) (op_hash : Hash32)
    (hkind : op.op_kind ≠ .Rollback) (h : ¬ TablesAllow s op target_path) :
    ∃ e, apply_mutation s op target_path hlen op_hash = some (.error e) := by
  have hcreate (k : ObjectKind) (h : ¬ (find_path s.paths target_path = none ∧
      s.paths.length < MAX_WORKSPACE_PATHS ∧ s.objects.length < MAX_WORKSPACE_OBJECTS)) :
      ∃ e, apply_create s op k target_path hlen op_hash = some (.error e) := by
    unfold apply_create
    split_ifs with hex hslots
    · exact ⟨_, rfl⟩
    · exact ⟨_, rfl⟩
    · rw [Bool.not_eq_true, Option.isSome_eq_false_iff, Option.isNone_iff_eq_none] at hex
      exact absurd ⟨hex, by omega, by omega⟩ h
  unfold TablesAllow at h
  unfold apply_mutation
  cases hk : op.op_kind with
  | CreateFile => exact hcreate .File (by simpa only [hk] using h)
  | CreateDirectory => exact hcreate .Directory (by simpa only [hk] using h)
  | EditFile =>
    simp only [hk] at h
    unfold apply_edit
    cases hfind : find_path s.paths target_path with
    | none => exact ⟨_, rfl⟩
    | some pidx =>
      obtain ⟨hlt, -⟩ := List.findIdx?_eq_some_iff_getElem.mp hfind
      simp only [List.getElem?_eq_getElem hlt]
      split_ifs with hfile hslots
      · exact ⟨_, rfl⟩
      · exact ⟨_, rfl⟩
      · refine absurd ⟨pidx, _, hfind, List.getElem?_eq_getElem hlt, ?_, by omega⟩ h
        simpa using hfile
  | Rollback => exact absurd hk hkind

theorem refresh_root_isSome {s t : WorkspaceState} {op_hash : Hash32} :
    (refresh_root s t op_hash).isSome ↔
      object_table_bytes t.objects ≤ 4096 ∧ path_index_bytes t.paths ≤ 4096 := by
  rw [← compute_object_table_hash_isSome t.object_count_le,
    ← compute_path_index_hash_isSome t.path_count_le]
  unfold refresh_root
  rw [compute_hash_eq]
  cases compute_object_table_hash t.objects <;> cases compute_path_index_hash t.paths <;> simp

/-! ## Operations -/

/-- The guards of `apply_workspace_operation` let the operation through to the tables. -/
structure Admitted (s : WorkspaceState) (op : WorkspaceOperation) (target_path : Bytes) :
    Prop where
  old_root : s.root.compute_hash = some op.old_workspace_root
  capability : op.capability_hash = v40_write_cap_sentinel
  no_rollback : op.op_kind ≠ .Rollback
  path_len : target_path.length ≤ MAX_WORKSPACE_PATH_BYTES
  path_ne : target_path ≠ []
  content : op.input_size_bytes.toNat ≤ MAX_FILE_CONTENT_BYTES
  path_hash : sha256 target_path = op.target_path_hash
  tables : TablesAllow s op target_path

/-- The guards that do not look at the tables. -/
structure Guarded (s : WorkspaceState) (op : WorkspaceOperation) (target_path : Bytes) :
    Prop where
  old_root : s.root.compute_hash = some op.old_workspace_root
  capability : op.capability_hash = v40_write_cap_sentinel
  no_rollback : op.op_kind ≠ .Rollback
  path_len : target_path.length ≤ MAX_WORKSPACE_PATH_BYTES
  path_ne : target_path ≠ []
  content : op.input_size_bytes.toNat ≤ MAX_FILE_CONTENT_BYTES
  path_hash : sha256 target_path = op.target_path_hash

theorem admitted_iff {s : WorkspaceState} {op : WorkspaceOperation} {target_path : Bytes} :
    Admitted s op target_path ↔ Guarded s op target_path ∧ TablesAllow s op target_path :=
  ⟨fun h => ⟨⟨h.old_root, h.capability, h.no_rollback, h.path_len, h.path_ne, h.content,
      h.path_hash⟩, h.tables⟩,
    fun ⟨g, htables⟩ => ⟨g.old_root, g.capability, g.no_rollback, g.path_len, g.path_ne, g.content,
      g.path_hash, htables⟩⟩

/-- After the operation both tables still fit the staging buffer. -/
def TablesFit (s : WorkspaceState) (op : WorkspaceOperation) (target_path : Bytes) : Prop :=
  object_table_bytes s.objects + 73 ≤ 4096 ∧
    path_index_bytes s.paths + path_growth op target_path ≤ 4096

theorem apply_of_admitted {s : WorkspaceState} {op : WorkspaceOperation} {target_path : Bytes}
    (h : Admitted s op target_path) :
    ∃ t, apply_mutation s op target_path h.path_len (operation_hash op target_path) =
        some (.ok t) ∧
      apply_workspace_operation s op target_path =
        (refresh_root s t (operation_hash op target_path)).map .ok := by
  obtain ⟨c, hc, hw⟩ := canonical_operation_payload_eq op h.path_len
  obtain ⟨t, ht, -⟩ := apply_mutation_of_allow h.path_len (operation_hash op target_path) h.tables
  refine ⟨t, ht, ?_⟩
  have hhash : sha256 c.written = operation_hash op target_path := by rw [hw, operation_hash]
  unfold apply_workspace_operation
  simp only [h.old_root, Option.bind_eq_bind, Option.bind_some, ne_eq, not_true_eq_false, if_false,
    h.capability, h.no_rollback, Nat.not_lt.mpr h.path_len, dite_false, List.isEmpty_iff, h.path_ne,
    Nat.not_lt.mpr h.content, h.path_hash, hc, hhash, ht]

/-- An operation that is not admitted is refused, or it is a rollback. -/
theorem apply_of_not_admitted {s : WorkspaceState} {op : WorkspaceOperation} {target_path : Bytes}
    (h : ¬ Admitted s op target_path) :
    (∃ e, apply_workspace_operation s op target_path = some (.error e)) ∨
      op.op_kind = .Rollback ∧ apply_workspace_operation s op target_path =
        some (.ok (apply_rollback s op (sha256 s.root.fields.flatten))) := by
  unfold apply_workspace_operation
  simp only [compute_hash_eq, Option.bind_eq_bind, Option.bind_some]
  split_ifs with hroot hcap hkind hlen hempty hsize hhash
  · exact .inl ⟨_, rfl⟩
  · exact .inl ⟨_, rfl⟩
  · exact .inr ⟨hkind, rfl⟩
  · exact .inl ⟨_, rfl⟩
  · exact .inl ⟨_, rfl⟩
  · exact .inl ⟨_, rfl⟩
  · exact .inl ⟨_, rfl⟩
  · obtain ⟨c, hc, -⟩ := canonical_operation_payload_eq op (Nat.not_lt.mp hlen)
    have hnot : ¬ TablesAllow s op target_path := fun htables =>
      h ⟨(compute_hash_eq _).trans (congrArg some (not_not.mp hroot)), not_not.mp hcap, hkind,
        Nat.not_lt.mp hlen, by simpa using hempty, Nat.not_lt.mp hsize, not_not.mp hhash, htables⟩
    obtain ⟨e, he⟩ :=
      apply_mutation_of_not_allow (Nat.not_lt.mp hlen) (sha256 c.written) hkind hnot
    exact .inl ⟨e, by simp only [hc, Option.bind_some, he]⟩

theorem apply_isSome_iff (s : WorkspaceState) (op : WorkspaceOperation) (target_path : Bytes) :
    (apply_workspace_operation s op target_path).isSome ↔
      (Admitted s op target_path → TablesFit s op target_path) := by
  by_cases h : Admitted s op target_path
  · obtain ⟨t, ht, happly⟩ := apply_of_admitted h
    obtain ⟨t', ht', hobjects, hpaths⟩ :=
      apply_mutation_of_allow h.path_len (operation_hash op target_path) h.tables
    obtain rfl : t' = t := by simpa [ht] using ht'.symm
    rw [happly, Option.isSome_map, refresh_root_isSome, hobjects, hpaths]
    exact ⟨fun hfit _ => hfit, fun hfit => hfit h⟩
  · refine ⟨fun _ hadm => absurd hadm h, fun _ => ?_⟩
    obtain ⟨e, he⟩ | ⟨-, ht⟩ := apply_of_not_admitted h
    · rw [he]
      rfl
    · rw [ht]
      rfl

/-- An operation panics exactly when its guards admit it and a table outgrows the staging buffer; a
table can be hashed exactly when it fits the staging buffer. -/
theorem apply_panics_iff_table_overflow (s : WorkspaceState) :
    (∀ (op : WorkspaceOperation) (target_path : Bytes),
      (apply_workspace_operation s op target_path).isSome ↔
        (Admitted s op target_path → TablesFit s op target_path)) ∧
      ((compute_object_table_hash s.objects).isSome ↔ object_table_bytes s.objects ≤ 4096) ∧
      ((compute_path_index_hash s.paths).isSome ↔ path_index_bytes s.paths ≤ 4096) :=
  ⟨apply_isSome_iff s, compute_object_table_hash_isSome s.object_count_le,
    compute_path_index_hash_isSome s.path_count_le⟩

/-! ## A run that fills the staging buffer -/

/-- The states that accepted operations reach from the initial state. -/
inductive Reachable : WorkspaceState → Prop
  | init {s : WorkspaceState} : make_initial_workspace_state = some s → Reachable s
  | step {s t : WorkspaceState} {op : WorkspaceOperation} {target_path : Bytes} :
      Reachable s → apply_workspace_operation s op target_path = some (.ok t) → Reachable t

/-- The file `a` written in the state `s`, empty. -/
def write_operation (s : WorkspaceState) (k : WorkspaceOpKind) : WorkspaceOperation where
  op_version := 1
  op_kind := k
  old_workspace_root := sha256 s.root.fields.flatten
  target_path_hash := sha256 (ascii "a")
  input_content_hash := Digest.zero
  input_size_bytes := 0
  capability_hash := v40_write_cap_sentinel
  tool_receipt_hash := Digest.zero

theorem guarded_write_operation (s : WorkspaceState) {k : WorkspaceOpKind} (hk : k ≠ .Rollback) :
    Guarded s (write_operation s k) (ascii "a") :=
  ⟨compute_hash_eq s.root, rfl, hk, by decide, by decide, Nat.zero_le _, rfl⟩

theorem admitted_write_operation {s : WorkspaceState} {k : WorkspaceOpKind} (hk : k ≠ .Rollback)
    (h : TablesAllow s (write_operation s k) (ascii "a")) :
    Admitted s (write_operation s k) (ascii "a") :=
  admitted_iff.mpr ⟨guarded_write_operation s hk, h⟩

theorem refresh_root_tables {s t u : WorkspaceState} {op_hash : Hash32}
    (h : refresh_root s t op_hash = some u) : u.objects = t.objects ∧ u.paths = t.paths := by
  unfold refresh_root at h
  rw [compute_hash_eq] at h
  cases hot : compute_object_table_hash t.objects with
  | none => simp [hot] at h
  | some ot =>
    cases hpi : compute_path_index_hash t.paths with
    | none => simp [hot, hpi] at h
    | some p =>
      simp only [hot, hpi, Option.bind_eq_bind, Option.bind_some, Option.some.injEq] at h
      exact h ▸ ⟨rfl, rfl⟩

/-- An admitted operation whose tables fit is accepted, with the tables of its mutation. -/
theorem apply_of_fits {s : WorkspaceState} {op : WorkspaceOperation} {target_path : Bytes}
    (h : Admitted s op target_path) (hfit : TablesFit s op target_path) :
    ∃ op_hash t u, apply_mutation s op target_path h.path_len op_hash = some (.ok t) ∧
      apply_workspace_operation s op target_path = some (.ok u) ∧
      u.objects = t.objects ∧ u.paths = t.paths := by
  obtain ⟨t, ht, happly⟩ := apply_of_admitted h
  have hsome := (apply_isSome_iff s op target_path).mpr fun _ => hfit
  rw [happly, Option.isSome_map] at hsome
  obtain ⟨u, hu⟩ := Option.isSome_iff_exists.mp hsome
  exact ⟨_, t, u, ht, by rw [happly, hu]; rfl, refresh_root_tables hu⟩

/-- The tables hold `n` objects and the file `a`. -/
structure OneFile (s : WorkspaceState) (n : ℕ) : Prop where
  objects : s.objects.length = n
  paths : ∃ e, s.paths = [e] ∧ e.path_len.toNat = 1 ∧ e.path_bytes.val.take 1 = ascii "a" ∧
    is_file s.objects e.object_id

theorem OneFile.allows {s : WorkspaceState} {n : ℕ} (h : OneFile s n) (hn : n < 128) :
    TablesAllow s (write_operation s .EditFile) (ascii "a") := by
  obtain ⟨e, he, hlen, hbytes, hfile⟩ := h.paths
  refine ⟨0, e, ?_, by rw [he]; rfl, hfile, by rw [h.objects]; exact hn⟩
  simp [find_path, he, hlen, hbytes, ascii]

theorem is_file_append (objects : List WorkspaceObject) {o : WorkspaceObject}
    (h : o.object_kind = .File) : is_file (objects ++ [o]) o.object_id := by
  simp [is_file, h]

theorem make_initial_tables :
    ∃ s, make_initial_workspace_state = some s ∧ s.objects = [] ∧ s.paths = [] :=
  ⟨_, rfl, rfl, rfl⟩

/-- In empty tables `a` can be created. -/
theorem empty_allows {s : WorkspaceState} (ho : s.objects = []) (hp : s.paths = []) :
    find_path s.paths (ascii "a") = none ∧ s.paths.length < MAX_WORKSPACE_PATHS ∧
      s.objects.length < MAX_WORKSPACE_OBJECTS := by
  rw [ho, hp]
  decide

theorem empty_fits {s : WorkspaceState} (ho : s.objects = []) (hp : s.paths = [])
    {k : WorkspaceOpKind} (hk : k = .CreateFile ∨ k = .CreateDirectory) :
    TablesFit s (write_operation s k) (ascii "a") := by
  rw [TablesFit, ho, hp]
  obtain rfl | rfl := hk
  all_goals exact ⟨by decide, (by decide : 11 + (34 + (ascii "a").length) ≤ 4096)⟩

/-- Creating the file `a` in empty tables. -/
theorem create_oneFile {s : WorkspaceState} (ho : s.objects = []) (hp : s.paths = []) :
    ∃ u, apply_workspace_operation s (write_operation s .CreateFile) (ascii "a") = some (.ok u) ∧
      OneFile u 1 := by
  obtain ⟨hfind, hpaths, hobjects⟩ := empty_allows ho hp
  have hadm : Admitted s (write_operation s .CreateFile) (ascii "a") :=
    admitted_write_operation (by decide) ⟨hfind, hpaths, hobjects⟩
  have hfit := empty_fits ho hp (.inl rfl)
  obtain ⟨op_hash, t, u, ht, hu, huo, hup⟩ := apply_of_fits hadm hfit
  obtain ⟨t', ht', -, hto, htp⟩ :=
    apply_create_of_allow (write_operation s .CreateFile) .File hadm.path_len op_hash hfind hpaths
      hobjects
  obtain rfl : t = t' := Except.ok.inj (Option.some.inj (ht.symm.trans ht'))
  refine ⟨u, hu, ?_, entry_of (ascii "a") hadm.path_len
      (object_of (write_operation s .CreateFile) .File op_hash).object_id,
    ?_, path_len_entry_of _ _ _, path_entry_of (ascii "a") hadm.path_len _, ?_⟩
  · rw [huo, hto, ho]
    rfl
  · rw [hup, htp, hp]
    rfl
  · rw [huo, hto]
    exact is_file_append _ rfl

/-- Editing the file `a` adds an object while the object table has room. -/
theorem edit_oneFile {s : WorkspaceState} {n : ℕ} (h : OneFile s n) (hn : n + 1 ≤ 55) :
    ∃ u, apply_workspace_operation s (write_operation s .EditFile) (ascii "a") = some (.ok u) ∧
      OneFile u (n + 1) := by
  have hallow := h.allows (by omega)
  have hadm := admitted_write_operation (by decide) hallow
  obtain ⟨e, he, hlen, hbytes, hfile⟩ := h.paths
  have hfit : TablesFit s (write_operation s .EditFile) (ascii "a") := by
    refine ⟨?_, ?_⟩
    · rw [object_table_bytes, h.objects]
      omega
    · simp [path_index_bytes, path_growth, write_operation, he, hlen]
  obtain ⟨op_hash, t, u, ht, hu, huo, hup⟩ := apply_of_fits hadm hfit
  obtain ⟨pidx, entry, hfind, hentry, hfile', hobjects⟩ := hallow
  obtain ⟨t', ht', -, hto, htp⟩ :=
    apply_edit_of_allow (write_operation s .EditFile) op_hash hfind hentry hfile' hobjects
  obtain rfl : t = t' := Except.ok.inj (Option.some.inj (ht.symm.trans ht'))
  have hzero : pidx = 0 := by
    obtain ⟨hlt, -⟩ := List.getElem?_eq_some_iff.mp hentry
    rw [he, List.length_singleton] at hlt
    omega
  subst hzero
  obtain rfl : e = entry := by simpa [he] using hentry
  refine ⟨u, hu, ?_, { e with
    object_id := (object_of (write_operation s .EditFile) .File op_hash).object_id },
    ?_, hlen, hbytes, ?_⟩
  · rw [huo, hto, List.length_append, h.objects]
    rfl
  · rw [hup, htp, he]
    rfl
  · rw [huo, hto]
    exact is_file_append _ rfl

theorem reachable_oneFile {n : ℕ} (hn : n + 1 ≤ 55) : ∃ s, Reachable s ∧ OneFile s (n + 1) := by
  induction n with
  | zero =>
    obtain ⟨s, hs, ho, hp⟩ := make_initial_tables
    obtain ⟨u, hu, hone⟩ := create_oneFile ho hp
    exact ⟨u, .step (.init hs) hu, hone⟩
  | succ n ih =>
    obtain ⟨s, hs, hone⟩ := ih (by omega)
    obtain ⟨u, hu, hone'⟩ := edit_oneFile hone hn
    exact ⟨u, .step hs hu, hone'⟩

/-- The file `a` is created and edited 54 times; the next edit panics. -/
theorem reachable_apply_panics :
    ¬ ∀ s, Reachable s → ∀ op target_path, (apply_workspace_operation s op target_path).isSome := by
  intro htotal
  obtain ⟨s, hs, hone⟩ := @reachable_oneFile 54 le_rfl
  have hadm := admitted_write_operation (by decide) (hone.allows (by norm_num))
  have hfit := (apply_isSome_iff s _ _).mp (htotal s hs _ _) hadm
  rw [TablesFit, object_table_bytes, hone.objects] at hfit
  omega

end Bogbin.Core
