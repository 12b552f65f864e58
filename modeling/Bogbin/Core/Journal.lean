import Bogbin.Core.Genesis

/-!
# The workspace journal

`WorkspaceJournalEntry` with its canonical bytes, its hash and its parser, and the check of a chain of
entries.  The tag `JRNLv41` has seven bytes and both directions give it a window of eight: writing an
entry panics (`compute_hash_eq_none`) and parsing always fails (`parse_journal_entry_ne_ok`).
-/

namespace Bogbin.Core

open Buffer Staging

structure WorkspaceReceipt where
  receipt_version : UInt32
  operation_hash : Hash32
  old_workspace_root : Hash32
  new_workspace_root : Hash32
  verifier_hash : Hash32
  accepted : Bool
  deriving DecidableEq

structure WorkspaceJournalEntry where
  seq : UInt64
  previous_journal_entry : Hash32
  receipt : WorkspaceReceipt
  workspace_root_after : Hash32
  deriving DecidableEq

def JRNL_TAG : Bytes := ascii "JRNLv41"

/-- `buf[i..i + len].copy_from_slice(src)`; a source of another length is a panic. -/
def copy_from_slice (c : Cursor UInt8) (field : ℕ × Bytes) : Option (Cursor UInt8) :=
  if field.2.length = field.1 then c.put field.2 else none

namespace WorkspaceJournalEntry

/-- The windows of an entry and what is copied into them. -/
def fields (e : WorkspaceJournalEntry) : List (ℕ × Bytes) :=
  [(8, JRNL_TAG), (8, leBytes 8 e.seq.toNat), (32, e.previous_journal_entry.val),
    (4, leBytes 4 e.receipt.receipt_version.toNat), (32, e.receipt.operation_hash.val),
    (32, e.receipt.old_workspace_root.val), (32, e.receipt.new_workspace_root.val),
    (32, e.receipt.verifier_hash.val), (1, [if e.receipt.accepted then 1 else 0]),
    (32, e.workspace_root_after.val)]

/-- Write canonical bytes into a fixed buffer; `none` is a panic. -/
def write_canonical (e : WorkspaceJournalEntry) (buf : Bytes) :
    Option (Except String (Cursor UInt8)) :=
  let needed := 8 + 8 + 32 + 4 + 32 * 4 + 1 + 32
  if buf.length < needed then some (.error "buffer too small for WorkspaceJournalEntry")
  else (e.fields.foldlM copy_from_slice (Cursor.start buf)).map .ok

def compute_hash (e : WorkspaceJournalEntry) : Option Hash32 := do
  match ← e.write_canonical (zeros 256) with
  | .ok c => some (sha256 c.written)
  | .error _ => none

/-- The tag does not fill its window. -/
theorem compute_hash_eq_none (e : WorkspaceJournalEntry) : e.compute_hash = none := by
  have htag : JRNL_TAG.length ≠ 8 := by decide
  have hbuf : ¬ (zeros 256).length < 8 + 8 + 32 + 4 + 32 * 4 + 1 + 32 := by
    rw [length_zeros]
    norm_num
  have hfold : e.fields.foldlM copy_from_slice (Cursor.start (zeros 256)) = none := by
    rw [fields, List.foldlM_cons, copy_from_slice, if_neg htag]
    rfl
  unfold compute_hash write_canonical
  simp only [if_neg hbuf, hfold, Option.map_none, Option.bind_eq_bind, Option.bind_none]

end WorkspaceJournalEntry

/-- Parse canonical bytes; slices of different lengths are never equal. -/
def parse_journal_entry (data : Bytes) : Except String WorkspaceJournalEntry := do
  reject_if (data.length < 8 + 8 + 32 + 4 + 32 * 4 + 1 + 32)
    "buffer too small for JournalEntry parse"
  reject_if (slice data 0 8 ≠ JRNL_TAG) "bad JRNL tag"
  .ok {
    seq := UInt64.ofNat (leValue (slice data 8 8))
    previous_journal_entry := hash_at data 16
    receipt := {
      receipt_version := UInt32.ofNat (leValue (slice data 48 4))
      operation_hash := hash_at data 52
      old_workspace_root := hash_at data 84
      new_workspace_root := hash_at data 116
      verifier_hash := hash_at data 148
      accepted := slice data 180 1 ≠ [0] }
    workspace_root_after := hash_at data 181 }

/-- Eight bytes are not the seven of the tag. -/
theorem parse_journal_entry_ne_ok (data : Bytes) (e : WorkspaceJournalEntry) :
    parse_journal_entry data ≠ .ok e := by
  unfold parse_journal_entry
  rw [ne_eq, reject_bind_eq_ok, reject_bind_eq_ok]
  rintro ⟨hlen, htag, -⟩
  have hslice : (slice data 0 8).length = 8 := length_slice _ (by omega)
  have height : JRNL_TAG.length = 7 := by decide
  rw [not_not.mp htag, height] at hslice
  omega

/-- The loop from the newest entry to the oldest; `none` is a panic. -/
def walk_journal_chain : Hash32 → List WorkspaceJournalEntry → Option Bool
  | _, [] => some true
  | current_head, e :: older => do
    let hash ← e.compute_hash
    if hash ≠ current_head then some false
    else walk_journal_chain e.previous_journal_entry older

/-- Check a chain against its head, the oldest entry first. -/
def verify_journal_chain (head : Hash32) (entries : List WorkspaceJournalEntry) : Option Bool :=
  if entries = [] then some (head = Digest.zero) else walk_journal_chain head entries.reverse

end Bogbin.Core
