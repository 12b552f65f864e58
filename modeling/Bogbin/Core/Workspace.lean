import Bogbin.Core.Sha256
import Bogbin.Library.Staging

/-!
# The workspace model of the kernel core

`apply_workspace_operation` and the functions it calls.  `none` is a panic (a slice or copy out of
range, a failed `expect`), `some (.error _)` a rejected operation.  The arrays `objects` and `paths`
are the lists of their slots in use; their bounds are fields of the state.
-/

namespace Bogbin.Core

open Buffer Staging

abbrev Hash32 := Digest

def MAX_WORKSPACE_OBJECTS : ℕ := 128
def MAX_WORKSPACE_PATHS : ℕ := 128
def MAX_WORKSPACE_PATH_BYTES : ℕ := 256
def MAX_FILE_CONTENT_BYTES : ℕ := 65536

inductive ObjectKind
  | File
  | Directory
  deriving DecidableEq, Repr

inductive WorkspaceOpKind
  | CreateFile
  | EditFile
  | CreateDirectory
  | Rollback
  deriving DecidableEq, Repr

inductive WorkspaceError
  | InvalidOldRoot
  | PathTooLong
  | PathEmpty
  | PathAlreadyExists
  | PathNotFound
  | WrongObjectKind
  | ContentTooLarge
  | NoSlotsAvailable
  | InvalidCapability
  deriving DecidableEq, Repr

/-- A single object in the workspace (content-addressed). -/
structure WorkspaceObject where
  object_id : Hash32
  object_kind : ObjectKind
  content_hash : Hash32
  size_bytes : UInt64
  created_by_operation : Hash32
  deriving DecidableEq

/-- A path of the index.  No path is longer than its 256-byte field. -/
structure WorkspacePathEntry where
  path_hash : Hash32
  path_len : UInt16
  path_bytes : {b : Bytes // b.length = 256}
  object_id : Hash32
  path_len_le : path_len.toNat ≤ 256
  deriving DecidableEq

structure WorkspaceRoot where
  version : UInt32
  object_table_hash : Hash32
  path_index_hash : Hash32
  previous_workspace_root : Option Hash32
  last_operation_receipt : Option Hash32
  deriving DecidableEq

structure WorkspaceState where
  root : WorkspaceRoot
  objects : List WorkspaceObject
  paths : List WorkspacePathEntry
  object_count_le : objects.length ≤ MAX_WORKSPACE_OBJECTS
  path_count_le : paths.length ≤ MAX_WORKSPACE_PATHS
  deriving DecidableEq

/-- The operation that produces a state transition. -/
structure WorkspaceOperation where
  op_version : UInt32
  op_kind : WorkspaceOpKind
  old_workspace_root : Hash32
  target_path_hash : Hash32
  input_content_hash : Hash32
  input_size_bytes : UInt64
  capability_hash : Hash32
  tool_receipt_hash : Hash32
  deriving DecidableEq

/-! ## Workspace roots -/

/-- An `Option<Hash32>` as a flag byte and 32 bytes. -/
def optionFields : Option Hash32 → List Bytes
  | some h => [[1], h.val]
  | none => [[0], zeros 32]

/-- The fields of a root in canonical order. -/
def WorkspaceRoot.fields (r : WorkspaceRoot) : List Bytes :=
  [ascii "WSROOTv1", leBytes 4 r.version.toNat, r.object_table_hash.val, r.path_index_hash.val] ++
    optionFields r.previous_workspace_root ++ optionFields r.last_operation_receipt

/-- Write canonical bytes (fixed layout, domain tag, `Option` as 1-byte flag + 32 bytes). -/
def WorkspaceRoot.write_canonical (r : WorkspaceRoot) (buf : Bytes) :
    Option (Except String (Cursor UInt8)) :=
  let needed := 8 + 4 + 32 * 2 + 1 + 32 + 1 + 32
  if buf.length < needed then some (.error "buffer too small for WorkspaceRoot")
  else ((Cursor.start buf).putAll r.fields).map .ok

/-- The hash of the canonical bytes; a buffer that is too small would be a panic. -/
def WorkspaceRoot.compute_hash (r : WorkspaceRoot) : Option Hash32 := do
  match ← r.write_canonical (zeros 256) with
  | .ok c => some (sha256 c.written)
  | .error _ => none

/-! ## Table hashes -/

/-- `path_entry_less`: bytewise order, a proper prefix first. -/
def path_entry_less (a b : WorkspacePathEntry) : Bool :=
  let la := a.path_len.toNat
  let lb := b.path_len.toNat
  match (List.range (min la lb)).find? fun k => a.path_bytes.val[k]? ≠ b.path_bytes.val[k]? with
  | some k => a.path_bytes.val.getD k 0 < b.path_bytes.val.getD k 0
  | none => la < lb

/-- `a.0 < b.0` on hashes, the lexicographic order of their bytes. -/
def hash_less (a b : Hash32) : Bool :=
  match (List.range 32).find? fun k => a.val[k]? ≠ b.val[k]? with
  | some k => a.val.getD k 0 < b.val.getD k 0
  | none => false

section BubbleSort

variable {α : Type} (less : α → α → Bool)

/-- `if less(sorted[j + 1], sorted[j]) { sorted.swap(j, j + 1) }` -/
def swap_step (sorted : List α) (j : ℕ) : List α :=
  match sorted[j]?, sorted[j + 1]? with
  | some a, some b => if less b a then (sorted.set j b).set (j + 1) a else sorted
  | _, _ => sorted

/-- `for i in 0..count { for j in 0..count - i - 1 { .. } }` -/
def bubble_sort (sorted : List α) : List α :=
  let count := sorted.length
  (List.range count).foldl
    (fun s i => (List.range (count - i - 1)).foldl (swap_step less) s) sorted

end BubbleSort

/-- The staging buffer of both table hashes. -/
def table_buffer : Bytes := zeros 4096

def object_kind_byte : ObjectKind → UInt8
  | .File => 1
  | .Directory => 2

def object_fields (o : WorkspaceObject) : List Bytes :=
  [[object_kind_byte o.object_kind], o.content_hash.val, leBytes 8 o.size_bytes.toNat,
    o.created_by_operation.val]

def path_fields (e : WorkspacePathEntry) : List Bytes :=
  [leBytes 2 e.path_len.toNat, e.path_bytes.val.take e.path_len.toNat, e.object_id.val]

def compute_object_table_hash (objects : List WorkspaceObject) : Option Hash32 :=
  if objects.length = 0 then some (sha256 (ascii "WSOBJTABv1"))
  else if 128 < objects.length then none
  else do
    let sorted := bubble_sort (fun a b => hash_less a.object_id b.object_id) objects
    let c ← (Cursor.start table_buffer).put (ascii "WSOBJTABv1")
    let c ← c.putEach object_fields sorted
    some (sha256 c.written)

def compute_path_index_hash (paths : List WorkspacePathEntry) : Option Hash32 :=
  if paths.length = 0 then some (sha256 (ascii "WSPATHIDXv1"))
  else if 128 < paths.length then none
  else do
    let sorted := bubble_sort path_entry_less paths
    let c ← (Cursor.start table_buffer).put (ascii "WSPATHIDXv1")
    let c ← c.putEach path_fields sorted
    some (sha256 c.written)

/-- The root with both table hashes recomputed. -/
def rebuild_workspace_root_from_state (state : WorkspaceState) : Option WorkspaceRoot := do
  let object_table_hash ← compute_object_table_hash state.objects
  let path_index_hash ← compute_path_index_hash state.paths
  some { state.root with
    object_table_hash := object_table_hash
    path_index_hash := path_index_hash }

def make_initial_workspace_state : Option WorkspaceState := do
  let empty_ot ← compute_object_table_hash []
  let empty_pi ← compute_path_index_hash []
  some {
    root := {
      version := 1
      object_table_hash := empty_ot
      path_index_hash := empty_pi
      previous_workspace_root := none
      last_operation_receipt := none }
    objects := []
    paths := []
    object_count_le := Nat.zero_le _
    path_count_le := Nat.zero_le _ }

/-! ## Operations -/

def v40_write_cap_sentinel : Hash32 := sha256 (ascii "CAPv1write:/workspace")

def kind_byte : WorkspaceOpKind → UInt8
  | .CreateFile => 1
  | .EditFile => 2
  | .CreateDirectory => 3
  | .Rollback => 4

/-- Build the canonical byte payload for an operation.  The path field is always 256 bytes, padded
with 0. -/
def canonical_operation_payload (op : WorkspaceOperation) (target_path out : Bytes) :
    Option (Except String (Cursor UInt8)) :=
  let needed := 6 + 4 + 1 + 32 + 256 + 32 + 8 + 32 + 32
  if 256 < target_path.length then some (.error "target path too long for v40")
  else if out.length < needed then some (.error "output buffer too small for operation payload")
  else do
    let path_field ← (Cursor.start (zeros 256)).put target_path
    let c ← (Cursor.start out).putAll [ascii "WSOPv1", leBytes 4 op.op_version.toNat,
      [kind_byte op.op_kind], op.old_workspace_root.val, path_field.buf, op.input_content_hash.val,
      leBytes 8 op.input_size_bytes.toNat, op.capability_hash.val, op.tool_receipt_hash.val]
    some (.ok c)

/-- The index of the first entry of a path. -/
def find_path (paths : List WorkspacePathEntry) (target_path : Bytes) : Option ℕ :=
  paths.findIdx? fun e =>
    e.path_len.toNat = target_path.length ∧ e.path_bytes.val.take e.path_len.toNat = target_path

/-- Some object with this id is a file. -/
def is_file (objects : List WorkspaceObject) (curr_oid : Hash32) : Bool :=
  objects.any fun o => o.object_id = curr_oid ∧ o.object_kind = .File

/-- The object an operation adds. -/
def new_object (op : WorkspaceOperation) (obj_kind : ObjectKind) (op_hash : Hash32) :
    Option WorkspaceObject := do
  let oi ← (Cursor.start (zeros 128)).putAll
    [[object_kind_byte obj_kind], op.input_content_hash.val, leBytes 8 op.input_size_bytes.toNat,
      op_hash.val]
  some {
    object_id := sha256 oi.written
    object_kind := obj_kind
    content_hash := op.input_content_hash
    size_bytes := op.input_size_bytes
    created_by_operation := op_hash }

theorem length_path_bytes {target_path : Bytes} (hlen : target_path.length ≤ 256) :
    (patch (zeros 256) 0 target_path).length = 256 := by
  rw [length_patch _ (by simpa using hlen), length_zeros]

theorem path_len_le {target_path : Bytes} (hlen : target_path.length ≤ 256) :
    (UInt16.ofNat target_path.length).toNat ≤ 256 := by
  rw [UInt16.toNat_ofNat_of_lt' (Nat.lt_of_le_of_lt hlen (by decide))]
  exact hlen

/-- The branch `is_create`: a new object and a new path entry. -/
def apply_create (old_state : WorkspaceState) (op : WorkspaceOperation) (obj_kind : ObjectKind)
    (target_path : Bytes) (hlen : target_path.length ≤ 256) (op_hash : Hash32) :
    Option (Except WorkspaceError WorkspaceState) :=
  if (find_path old_state.paths target_path).isSome then some (.error .PathAlreadyExists)
  else if hslots : MAX_WORKSPACE_PATHS ≤ old_state.paths.length ∨
      MAX_WORKSPACE_OBJECTS ≤ old_state.objects.length then
    some (.error .NoSlotsAvailable)
  else do
    let new_obj ← new_object op obj_kind op_hash
    let pe : WorkspacePathEntry := {
      path_hash := sha256 target_path
      path_len := UInt16.ofNat target_path.length
      path_bytes := ⟨patch (zeros 256) 0 target_path, length_path_bytes hlen⟩
      object_id := new_obj.object_id
      path_len_le := path_len_le hlen }
    some (.ok { old_state with
      objects := old_state.objects ++ [new_obj]
      paths := old_state.paths ++ [pe]
      object_count_le := by
        rw [List.length_append, List.length_singleton]
        omega
      path_count_le := by
        rw [List.length_append, List.length_singleton]
        omega })

/-- The branch `is_edit`: a new object under an existing path. -/
def apply_edit (old_state : WorkspaceState) (op : WorkspaceOperation) (target_path : Bytes)
    (op_hash : Hash32) : Option (Except WorkspaceError WorkspaceState) :=
  match find_path old_state.paths target_path with
  | none => some (.error .PathNotFound)
  | some pidx =>
    match old_state.paths[pidx]? with
    | none => none
    | some entry =>
      if !is_file old_state.objects entry.object_id then some (.error .WrongObjectKind)
      else if hslots : MAX_WORKSPACE_OBJECTS ≤ old_state.objects.length then
        some (.error .NoSlotsAvailable)
      else do
        let new_obj ← new_object op .File op_hash
        some (.ok { old_state with
          objects := old_state.objects ++ [new_obj]
          paths := old_state.paths.set pidx { entry with object_id := new_obj.object_id }
          object_count_le := by
            rw [List.length_append, List.length_singleton]
            omega
          path_count_le := by
            rw [List.length_set]
            exact old_state.path_count_le })

/-- The special operation that switches the root and leaves objects and paths alone. -/
def apply_rollback (old_state : WorkspaceState) (op : WorkspaceOperation) (old_rh : Hash32) :
    WorkspaceState :=
  { old_state with
    root := {
      version := 1
      object_table_hash := old_state.root.object_table_hash
      path_index_hash := old_state.root.path_index_hash
      previous_workspace_root := some old_rh
      last_operation_receipt := some op.target_path_hash } }

/-- The root after a mutation: both table hashes are computed from the new tables. -/
def refresh_root (old_state new_state : WorkspaceState) (op_hash : Hash32) :
    Option WorkspaceState := do
  let old_rh ← old_state.root.compute_hash
  let object_table_hash ← compute_object_table_hash new_state.objects
  let path_index_hash ← compute_path_index_hash new_state.paths
  some { new_state with
    root := { new_state.root with
      previous_workspace_root := some old_rh
      last_operation_receipt := some op_hash
      object_table_hash := object_table_hash
      path_index_hash := path_index_hash } }

/-- The mutation of the tables that an operation other than a rollback asks for. -/
def apply_mutation (old_state : WorkspaceState) (op : WorkspaceOperation) (target_path : Bytes)
    (hlen : target_path.length ≤ 256) (op_hash : Hash32) :
    Option (Except WorkspaceError WorkspaceState) :=
  match op.op_kind with
  | .CreateFile => apply_create old_state op .File target_path hlen op_hash
  | .CreateDirectory => apply_create old_state op .Directory target_path hlen op_hash
  | .EditFile => apply_edit old_state op target_path op_hash
  | .Rollback => some (.ok old_state)

/-- Pure, deterministic apply for v40. -/
def apply_workspace_operation (old_state : WorkspaceState) (op : WorkspaceOperation)
    (target_path : Bytes) : Option (Except WorkspaceError WorkspaceState) := do
  let old_rh ← old_state.root.compute_hash
  if old_rh ≠ op.old_workspace_root then some (.error .InvalidOldRoot)
  else if op.capability_hash ≠ v40_write_cap_sentinel then some (.error .InvalidCapability)
  else if op.op_kind = .Rollback then some (.ok (apply_rollback old_state op old_rh))
  else if hlen : MAX_WORKSPACE_PATH_BYTES < target_path.length then some (.error .PathTooLong)
  else if target_path.isEmpty then some (.error .PathEmpty)
  else if MAX_FILE_CONTENT_BYTES < op.input_size_bytes.toNat then some (.error .ContentTooLarge)
  else if sha256 target_path ≠ op.target_path_hash then some (.error .PathNotFound)
  else
    match ← canonical_operation_payload op target_path (zeros 512) with
    | .error _ => some (.error .InvalidOldRoot)
    | .ok payload =>
      let op_hash := sha256 payload.written
      match ← apply_mutation old_state op target_path (Nat.not_lt.mp hlen) op_hash with
      | .error e => some (.error e)
      | .ok new_state => (refresh_root old_state new_state op_hash).map .ok

end Bogbin.Core
