import Bogbin.Core.Workspace

/-!
# The oracle of the workspace vectors

The Python reimplementation of the workspace transition.  It takes its hash function as a
parameter.  `none` is an exception: an integer too large for its field, a kind without a code.
-/

namespace Bogbin.Tools

open Buffer
open Bogbin.Core (ObjectKind WorkspaceOpKind WorkspaceError)

variable (sha256 : Bytes → Digest)

def MAX_OBJECTS : ℕ := 128
def MAX_PATHS : ℕ := 128
def MAX_PATH_B : ℕ := 256
def MAX_CONTENT : ℕ := 65536

/-- `n.to_bytes(k, 'little')` -/
def to_bytes (k n : ℕ) : Option Bytes := if n < 256 ^ k then some (leBytes k n) else none

/-- The dictionary of a root. -/
structure Root where
  version : ℕ
  object_table_hash : Digest
  path_index_hash : Digest
  previous_workspace_root : Option Digest
  last_operation_receipt : Option Digest
  deriving DecidableEq

/-- The dictionary of an object. -/
structure Obj where
  object_id : Digest
  object_kind : ObjectKind
  content_hash : Digest
  size_bytes : ℕ
  created_by_operation : Digest
  deriving DecidableEq

/-- The dictionary of a path entry. -/
structure PathEntry where
  path_hash : Digest
  path_len : ℕ
  path_bytes : Bytes
  object_id : Digest
  deriving DecidableEq

/-- The dictionary of a state. -/
structure State where
  root : Root
  objects : List Obj
  paths : List PathEntry
  object_count : ℕ
  path_count : ℕ
  deriving DecidableEq

/-- The dictionary of an operation. -/
structure Op where
  op_version : ℕ
  op_kind : WorkspaceOpKind
  old_workspace_root : Digest
  target_path_hash : Digest
  input_content_hash : Digest
  input_size_bytes : ℕ
  capability_hash : Digest
  tool_receipt_hash : Digest
  deriving DecidableEq

def cap_sentinel : Digest := sha256 (ascii "CAPv1write:/workspace")

/-- `b.append(1 if v else 0); b.extend(v or ZERO)` -/
def option_bytes : Option Digest → Bytes
  | some v => 1 :: v.val
  | none => 0 :: zeros 32

def ws_root_bytes (r : Root) : Option Bytes := do
  let version ← to_bytes 4 r.version
  some (ascii "WSROOTv1" ++ version ++ r.object_table_hash.val ++ r.path_index_hash.val ++
    option_bytes r.previous_workspace_root ++ option_bytes r.last_operation_receipt)

def ws_root_h (r : Root) : Option Digest := (ws_root_bytes r).map sha256

/-- `1 if kind == 'File' else 2` -/
def kind_code : ObjectKind → UInt8
  | .File => 1
  | .Directory => 2

/-- What `obj_table_h` adds for one object. -/
def obj_row (o : Obj) : Option Bytes := do
  let size ← to_bytes 8 o.size_bytes
  some ([kind_code o.object_kind] ++ o.content_hash.val ++ size ++ o.created_by_operation.val)

/-- `sorted` by `object_id`: bytes compare lexicographically. -/
def obj_le (a b : Obj) : Bool := !decide (b.object_id.val < a.object_id.val)

def obj_table_h (objs : List Obj) (cnt : ℕ) : Option Digest :=
  if cnt = 0 then some (sha256 (ascii "WSOBJTABv1"))
  else do
    let rows ← ((objs.take cnt).mergeSort obj_le).mapM obj_row
    some (sha256 (ascii "WSOBJTABv1" ++ rows.flatten))

/-- `p['path_bytes'][:p['path_len']]` -/
def PathEntry.path (p : PathEntry) : Bytes := p.path_bytes.take p.path_len

/-- What `path_idx_h` adds for one entry. -/
def path_row (e : PathEntry) : Option Bytes := do
  let len ← to_bytes 2 e.path_len
  some (len ++ e.path ++ e.object_id.val)

/-- `key(b) < key(a)` on the tuples of path and length. -/
def key_lt (b a : PathEntry) : Bool :=
  decide (b.path < a.path) || (decide (b.path = a.path) && decide (b.path_len < a.path_len))

/-- `sorted` by `key`. -/
def path_le (a b : PathEntry) : Bool := !key_lt b a

def path_idx_h (ps : List PathEntry) (cnt : ℕ) : Option Digest :=
  if cnt = 0 then some (sha256 (ascii "WSPATHIDXv1"))
  else do
    let rows ← ((ps.take cnt).mergeSort path_le).mapM path_row
    some (sha256 (ascii "WSPATHIDXv1" ++ rows.flatten))

/-- `{'CreateFile': 1, 'EditFile': 2, 'CreateDirectory': 3}[op['op_kind']]` -/
def op_kind_code : WorkspaceOpKind → Option UInt8
  | .CreateFile => some 1
  | .EditFile => some 2
  | .CreateDirectory => some 3
  | .Rollback => none

/-- `p + b'\0' * (256 - len(p))` -/
def pad_path (p : Bytes) : Bytes := p ++ zeros (256 - p.length)

def op_payload (op : Op) (tp : Bytes) : Option Bytes :=
  if MAX_PATH_B < tp.length then none
  else do
    let version ← to_bytes 4 op.op_version
    let kb ← op_kind_code op.op_kind
    let size ← to_bytes 8 op.input_size_bytes
    some (ascii "WSOPv1" ++ version ++ [kb] ++ op.old_workspace_root.val ++ pad_path tp ++
      op.input_content_hash.val ++ size ++ op.capability_hash.val ++ op.tool_receipt_hash.val)

def op_h (op : Op) (tp : Bytes) : Option Digest := (op_payload op tp).map sha256

def mk_obj (kind : ObjectKind) (ch : Digest) (sz : ℕ) (cby : Digest) : Option Obj := do
  let size ← to_bytes 8 sz
  some {
    object_id := sha256 ([kind_code kind] ++ ch.val ++ size ++ cby.val)
    object_kind := kind
    content_hash := ch
    size_bytes := sz
    created_by_operation := cby }

def mk_pe (p : Bytes) (oid : Digest) : PathEntry where
  path_hash := sha256 p
  path_len := p.length
  path_bytes := pad_path p
  object_id := oid

def mk_init : Option State := do
  let eot ← obj_table_h sha256 [] 0
  let epi ← path_idx_h sha256 [] 0
  some {
    root := {
      version := 1
      object_table_hash := eot
      path_index_hash := epi
      previous_workspace_root := none
      last_operation_receipt := none }
    objects := []
    paths := []
    object_count := 0
    path_count := 0 }

/-- The index of the first entry of a path. -/
def find_p (st : State) (tp : Bytes) : Option ℕ :=
  (st.paths.take st.path_count).findIdx? fun e => e.path_len = tp.length ∧ e.path = tp

/-- `ns` after the branch of the operation's kind, or the reason to refuse it. -/
def mutate (st : State) (op : Op) (tp : Bytes) (oph : Digest) :
    Option (Except WorkspaceError State) :=
  let ex := find_p st tp
  let create (ok : ObjectKind) : Option (Except WorkspaceError State) :=
    if ex.isSome then some (.error .PathAlreadyExists)
    else if MAX_PATHS ≤ st.path_count ∨ MAX_OBJECTS ≤ st.object_count then
      some (.error .NoSlotsAvailable)
    else do
      let no ← mk_obj sha256 ok op.input_content_hash op.input_size_bytes oph
      some (.ok { st with
        objects := st.objects ++ [no]
        object_count := st.object_count + 1
        paths := st.paths ++ [mk_pe sha256 tp no.object_id]
        path_count := st.path_count + 1 })
  match op.op_kind with
  | .CreateFile => create .File
  | .CreateDirectory => create .Directory
  | .EditFile =>
    match ex with
    | none => some (.error .PathNotFound)
    | some ex =>
      if MAX_OBJECTS ≤ st.object_count then some (.error .NoSlotsAvailable)
      else do
        let no ← mk_obj sha256 .File op.input_content_hash op.input_size_bytes oph
        let e ← st.paths[ex]?
        some (.ok { st with
          objects := st.objects ++ [no]
          object_count := st.object_count + 1
          paths := st.paths.set ex { e with object_id := no.object_id } })
  | .Rollback => some (.ok st)

/-- The new state, whether the operation is accepted, and the reason when it is not. -/
def apply (st : State) (op : Op) (tp : Bytes) : Option (State × Bool × Option WorkspaceError) := do
  let oldh ← ws_root_h sha256 st.root
  if oldh ≠ op.old_workspace_root then some (st, false, some .InvalidOldRoot)
  else if MAX_PATH_B < tp.length then some (st, false, some .PathTooLong)
  else if tp.length = 0 then some (st, false, some .PathEmpty)
  else if MAX_CONTENT < op.input_size_bytes then some (st, false, some .ContentTooLarge)
  else if op.capability_hash ≠ cap_sentinel sha256 then some (st, false, some .InvalidCapability)
  else if sha256 tp ≠ op.target_path_hash then some (st, false, some .PathNotFound)
  else do
    let oph ← op_h sha256 op tp
    match ← mutate sha256 st op tp oph with
    | .error reason => some (st, false, some reason)
    | .ok ns => do
      let object_table_hash ← obj_table_h sha256 ns.objects ns.object_count
      let path_index_hash ← path_idx_h sha256 ns.paths ns.path_count
      some ({ ns with
        root := { ns.root with
          previous_workspace_root := some oldh
          last_operation_receipt := some oph
          object_table_hash := object_table_hash
          path_index_hash := path_index_hash } }, true, none)

end Bogbin.Tools
