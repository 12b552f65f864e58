import Bogbin.Core.Journal

/-!
# What canonical bytes determine

Three writers of canonical bytes and what can be read back from them.  A genesis root comes back when
its two first hashes are equal, since the parser reads each in the place of the other.  A journal entry
is never written and never parsed: its tag has seven bytes in a window of eight.  An operation payload
determines the operation, but the path only up to zeros at its end: the path stands in a field of 256
bytes without its length.
-/

namespace Bogbin.Core

open Buffer Staging

/-! ## Genesis roots -/

/-- The canonical bytes of a genesis root, written into the buffer, parse to the root. -/
def GenesisRoot.RoundTrips (g : GenesisRoot) (buf : Bytes) : Prop :=
  ∃ c, g.write_canonical buf = some (.ok c) ∧ parse_genesis_root c.written = .ok g

/-- Exchanging two fields changes nothing exactly when they are equal. -/
theorem GenesisRoot.exchange_eq_self (g : GenesisRoot) :
    { g with
      workspace_root_hash := g.kernel_receipt_root
      kernel_receipt_root := g.workspace_root_hash } = g ↔
      g.kernel_receipt_root = g.workspace_root_hash := by
  cases g
  simp only [GenesisRoot.mk.injEq, true_and, and_true]
  exact ⟨fun h => h.2, fun h => ⟨h.symm, h⟩⟩

/-- A genesis root comes back exactly when its kernel receipt root is its workspace root. -/
theorem genesis_root_round_trip_iff {g : GenesisRoot} (hmagic : g.magic = GenesisRoot.MAGIC)
    {buf : Bytes} (hbuf : 277 ≤ buf.length) :
    g.RoundTrips buf ↔ g.kernel_receipt_root = g.workspace_root_hash := by
  obtain ⟨c, hwrite, hwritten⟩ := g.write_canonical_eq hbuf
  have hparse := parse_canonical hmagic
  rw [← g.exchange_eq_self]
  constructor
  · rintro ⟨d, hd, hg⟩
    have hcd : c = d := by simpa [hwrite] using hd
    rwa [← hcd, hwritten, hparse, Except.ok.injEq] at hg
  · intro heq
    refine ⟨c, hwrite, ?_⟩
    rw [hwritten, hparse, heq]

theorem genesis_root_round_trip_sentinel :
    (make_genesis_root EMPTY_LEDGER_ROOT).RoundTrips (zeros 512) :=
  (genesis_root_round_trip_iff rfl (by simp)).mpr rfl

/-- The minimal genesis root does not come back from 277 bytes. -/
theorem genesis_root_exchanged :
    ¬ ∀ g : GenesisRoot, g.magic = GenesisRoot.MAGIC → ∀ buf : Bytes, 277 ≤ buf.length →
      g.RoundTrips buf := by
  intro hclaim
  have hzero := hclaim (make_genesis_root Digest.zero) rfl (zeros 277) (by simp)
  rw [genesis_root_round_trip_iff rfl (by simp)] at hzero
  exact absurd hzero (by decide)

/-! ## Journal entries -/

/-- `append_journal_entry`; `none` is a panic. -/
def append_journal_entry (prev_head : Hash32) (seq : UInt64) (receipt : WorkspaceReceipt)
    (new_workspace_root : Hash32) : Option (WorkspaceJournalEntry × Hash32) := do
  let entry : WorkspaceJournalEntry := {
    seq := seq
    previous_journal_entry := prev_head
    receipt := receipt
    workspace_root_after := new_workspace_root }
  let h ← entry.compute_hash
  some (entry, h)

namespace WorkspaceJournalEntry

/-- An entry is written into every buffer that is long enough, hashed and appended, and what is written
parses to it. -/
structure RoundTrips (e : WorkspaceJournalEntry) : Prop where
  writes : ∀ buf : Bytes, 213 ≤ buf.length → ∃ c, e.write_canonical buf = some (.ok c) ∧
    parse_journal_entry c.written = .ok e
  hashes : ∃ h, e.compute_hash = some h
  appends : ∃ h, append_journal_entry e.previous_journal_entry e.seq e.receipt
    e.workspace_root_after = some (e, h)

/-- Writing an entry into a buffer that is long enough panics. -/
theorem write_canonical_eq_none (e : WorkspaceJournalEntry) {buf : Bytes} (h : 213 ≤ buf.length) :
    e.write_canonical buf = none := by
  have htag : JRNL_TAG.length ≠ 8 := by decide
  have hfold : e.fields.foldlM copy_from_slice (Cursor.start buf) = none := by
    rw [fields, List.foldlM_cons, copy_from_slice, if_neg htag]
    rfl
  have hshort : ¬ buf.length < 8 + 8 + 32 + 4 + 32 * 4 + 1 + 32 := by omega
  simp only [write_canonical, if_neg hshort, hfold, Option.map_none]

theorem append_eq_none (prev_head : Hash32) (seq : UInt64) (receipt : WorkspaceReceipt)
    (new_workspace_root : Hash32) :
    append_journal_entry prev_head seq receipt new_workspace_root = none := by
  simp [append_journal_entry, compute_hash_eq_none]

/-- No entry is written, hashed or appended, and no bytes parse to one. -/
theorem journal_entry_never_round_trips (e : WorkspaceJournalEntry) :
    ¬ e.RoundTrips ∧ (∀ buf : Bytes, 213 ≤ buf.length → e.write_canonical buf = none) ∧
      e.compute_hash = none ∧
      append_journal_entry e.previous_journal_entry e.seq e.receipt e.workspace_root_after = none ∧
      ∀ data, parse_journal_entry data ≠ .ok e := by
  refine ⟨fun h => ?_, fun buf => e.write_canonical_eq_none, e.compute_hash_eq_none,
    append_eq_none _ _ _ _, fun data => parse_journal_entry_ne_ok data e⟩
  obtain ⟨digest, hdigest⟩ := h.hashes
  simp [e.compute_hash_eq_none] at hdigest

/-- The entry after a genesis root, with a receipt of zeros. -/
def first : WorkspaceJournalEntry where
  seq := 0
  previous_journal_entry := Digest.zero
  receipt := ⟨1, Digest.zero, Digest.zero, Digest.zero, Digest.zero, true⟩
  workspace_root_after := Digest.zero

/-- The first entry cannot be written into the buffer of its hash. -/
theorem first_entry_not_round_trips :
    ¬ first.RoundTrips ∧ first.write_canonical (zeros 256) = none := by
  have hnone : first.write_canonical (zeros 256) = none :=
    first.write_canonical_eq_none (by simp)
  refine ⟨fun h => ?_, hnone⟩
  obtain ⟨c, hc, -⟩ := h.writes (zeros 256) (by simp)
  simp [hnone] at hc

end WorkspaceJournalEntry

/-! ## Operation payloads -/

/-- The fields of a payload that stand for the operation. -/
def WorkspaceOperation.Agrees (op op' : WorkspaceOperation) : Prop :=
  op.op_version = op'.op_version ∧ op.op_kind = op'.op_kind ∧
    op.old_workspace_root = op'.old_workspace_root ∧
    op.input_content_hash = op'.input_content_hash ∧ op.input_size_bytes = op'.input_size_bytes ∧
    op.capability_hash = op'.capability_hash ∧ op.tool_receipt_hash = op'.tool_receipt_hash

/-- Two operations on their paths are written as the same bytes. -/
def SamePayload (op : WorkspaceOperation) (path : Bytes) (op' : WorkspaceOperation)
    (path' : Bytes) : Prop :=
  ∃ out out' c c', canonical_operation_payload op path out = some (.ok c) ∧
    canonical_operation_payload op' path' out' = some (.ok c') ∧ c.written = c'.written

/-- The second path is the first one with zeros behind it. -/
def ZeroExtends (path path' : Bytes) : Prop := ∃ n, path' = path ++ zeros n

/-- An operation that creates an empty file. -/
def create_operation (path : Bytes) : WorkspaceOperation where
  op_version := 1
  op_kind := .CreateFile
  old_workspace_root := Digest.zero
  target_path_hash := sha256 path
  input_content_hash := Digest.zero
  input_size_bytes := 0
  capability_hash := v40_write_cap_sentinel
  tool_receipt_hash := Digest.zero

section Payload

variable {op op' : WorkspaceOperation} {path path' out : Bytes} {c : Cursor UInt8}

theorem zeros_add (m n : ℕ) : zeros (m + n) = zeros m ++ zeros n := List.replicate_add ..

/-- What stands in front of zeros, inside zeros, is zeros. -/
theorem eq_zeros_of_append {a b : Bytes} {n : ℕ} (h : zeros n = a ++ b) : a = zeros a.length :=
  List.eq_replicate_of_mem fun x hx => by
    have hmem : x ∈ zeros n := h ▸ List.mem_append_left _ hx
    exact List.eq_of_mem_replicate hmem

/-- The path in a field of zeros. -/
theorem patch_zeros (path : Bytes) :
    patch (zeros 256) 0 path = path ++ zeros (256 - path.length) := by
  simp [patch, drop_zeros]

theorem ZeroExtends.patch_zeros (h : ZeroExtends path path') (hlen : path'.length ≤ 256) :
    patch (zeros 256) 0 path = patch (zeros 256) 0 path' := by
  obtain ⟨n, rfl⟩ := h
  have hsum : path.length + n ≤ 256 := by simpa using hlen
  rw [Core.patch_zeros, Core.patch_zeros, List.append_assoc, ← zeros_add]
  congr 2
  simp only [List.length_append, length_zeros]
  omega

/-- Two paths fill the field in the same way exactly when one is the other with zeros behind it. -/
theorem patch_zeros_eq_iff (h : path.length ≤ 256) (h' : path'.length ≤ 256) :
    patch (zeros 256) 0 path = patch (zeros 256) 0 path' ↔
      ZeroExtends path path' ∨ ZeroExtends path' path := by
  constructor
  · intro heq
    rw [patch_zeros, patch_zeros] at heq
    rcases List.append_eq_append_iff.mp heq with ⟨a, hpath, hzeros⟩ | ⟨a, hpath, hzeros⟩
    · exact .inl ⟨a.length, by rw [hpath, ← eq_zeros_of_append hzeros]⟩
    · exact .inr ⟨a.length, by rw [hpath, ← eq_zeros_of_append hzeros]⟩
  · rintro (hext | hext)
    · exact hext.patch_zeros h'
    · exact (hext.patch_zeros h).symm

/-- A payload that is written is the one of the operation and the path. -/
theorem written_operation_payload (h : canonical_operation_payload op path out = some (.ok c)) :
    c.written = operation_payload op path := by
  unfold canonical_operation_payload at h
  dsimp only at h
  split_ifs at h with hlen hout
  · simp at h
  · simp at h
  have hput : (Cursor.start (zeros 256)).put path = some ⟨patch (zeros 256) 0 path,
      0 + path.length, by rw [length_patch _ (by simp; omega)]; simp; omega⟩ :=
    dif_pos (by simp [Cursor.start]; omega)
  simp only [hput, Option.bind_eq_bind, Option.bind_some] at h
  obtain ⟨d, hd, hc⟩ := Option.bind_eq_some_iff.mp h
  obtain rfl : d = c := by simpa using hc
  rw [Cursor.putAll_eq] at hd
  simpa [operation_payload] using Cursor.written_put hd

/-- A payload is written into a buffer that is long enough. -/
theorem exists_operation_payload (op : WorkspaceOperation) (h : path.length ≤ 256) :
    ∃ c, canonical_operation_payload op path (zeros 512) = some (.ok c) := by
  obtain ⟨c, hc, -⟩ := canonical_operation_payload_eq op h
  exact ⟨c, hc⟩

theorem kind_byte_injective : Function.Injective kind_byte := by
  intro k k' h
  cases k <;> cases k' <;> first | rfl | exact absurd h (by decide)

theorem leBytes_injective {k m n : ℕ} (hm : m < 256 ^ k) (hn : n < 256 ^ k)
    (h : leBytes k m = leBytes k n) : m = n := by
  rw [← leValue_leBytes_of_lt hm, h, leValue_leBytes_of_lt hn]

/-- A payload determines the fields of the operation, and the path field. -/
theorem payload_fields_eq (h : operation_payload op path = operation_payload op' path')
    (hlen : path.length ≤ 256) (hlen' : path'.length ≤ 256) :
    op.Agrees op' ∧ patch (zeros 256) 0 path = patch (zeros 256) 0 path' := by
  have hpath : (patch (zeros 256) 0 path).length = 256 := by
    rw [length_patch _ (by simpa using hlen), length_zeros]
  have hpath' : (patch (zeros 256) 0 path').length = 256 := by
    rw [length_patch _ (by simpa using hlen'), length_zeros]
  have hfields := List.eq_iff_flatten_eq.mpr ⟨h, by
    simp [hpath, hpath', op.old_workspace_root.2, op'.old_workspace_root.2, op.input_content_hash.2,
      op'.input_content_hash.2, op.capability_hash.2, op'.capability_hash.2, op.tool_receipt_hash.2,
      op'.tool_receipt_hash.2]⟩
  simp only [List.cons.injEq, true_and, and_true] at hfields
  obtain ⟨hversion, hkind, hroot, hfield, hcontent, hsize, hcapability, htool⟩ := hfields
  refine ⟨⟨?_, kind_byte_injective hkind, Subtype.ext hroot, Subtype.ext hcontent, ?_,
    Subtype.ext hcapability, Subtype.ext htool⟩, hfield⟩
  · exact UInt32.toNat_inj.mp (leBytes_injective (by simpa using op.op_version.toNat_lt)
      (by simpa using op'.op_version.toNat_lt) hversion)
  · exact UInt64.toNat_inj.mp (leBytes_injective (by simpa using op.input_size_bytes.toNat_lt)
      (by simpa using op'.input_size_bytes.toNat_lt) hsize)

/-- Two operations have the same payload exactly when their fields agree and their path fields do. -/
theorem samePayload_iff (hlen : path.length ≤ 256) (hlen' : path'.length ≤ 256) :
    SamePayload op path op' path' ↔
      op.Agrees op' ∧ (ZeroExtends path path' ∨ ZeroExtends path' path) := by
  rw [← patch_zeros_eq_iff hlen hlen']
  constructor
  · rintro ⟨out, out', c, c', hc, hc', heq⟩
    rw [written_operation_payload hc, written_operation_payload hc'] at heq
    exact payload_fields_eq heq hlen hlen'
  · rintro ⟨⟨hversion, hkind, hroot, hcontent, hsize, hcapability, htool⟩, hpath⟩
    obtain ⟨c, hc⟩ := exists_operation_payload op hlen
    obtain ⟨c', hc'⟩ := exists_operation_payload op' hlen'
    refine ⟨_, _, c, c', hc, hc', ?_⟩
    rw [written_operation_payload hc, written_operation_payload hc']
    simp only [operation_payload, hversion, hkind, hroot, hcontent, hsize, hcapability, htool, hpath]

/-- The payloads of operations on two paths determine the path and the operation exactly when neither
path is the other with zeros behind it. -/
theorem operation_payload_unambiguous_iff (hpath : 1 ≤ path.length ∧ path.length ≤ 256)
    (hpath' : 1 ≤ path'.length ∧ path'.length ≤ 256) :
    (∀ op op', SamePayload op path op' path' → path = path' ∧ op.Agrees op') ↔
      (ZeroExtends path path' ∨ ZeroExtends path' path → path = path') := by
  constructor
  · intro h hext
    have hagrees : (create_operation path).Agrees (create_operation path') :=
      ⟨rfl, rfl, rfl, rfl, rfl, rfl, rfl⟩
    exact (h _ _ ((samePayload_iff hpath.2 hpath'.2).mpr ⟨hagrees, hext⟩)).1
  · intro h op op' hsame
    obtain ⟨hagrees, hext⟩ := (samePayload_iff hpath.2 hpath'.2).mp hsame
    exact ⟨h hext, hagrees⟩

end Payload

theorem operation_payload_unambiguous_text :
    ¬ (ZeroExtends (ascii "a") (ascii "b") ∨ ZeroExtends (ascii "b") (ascii "a")) ∧
      ∀ op op', SamePayload op (ascii "a") op' (ascii "b") →
        ascii "a" = ascii "b" ∧ op.Agrees op' := by
  have hextends : ¬ (ZeroExtends (ascii "a") (ascii "b") ∨ ZeroExtends (ascii "b") (ascii "a")) := by
    rintro (⟨n, hn⟩ | ⟨n, hn⟩)
    · simp [ascii] at hn
    · simp [ascii] at hn
  refine ⟨hextends, (operation_payload_unambiguous_iff (by decide) (by decide)).mpr fun h => ?_⟩
  exact absurd h hextends

/-- Two files whose names differ in a zero at the end are created by operations of one payload and one
hash. -/
theorem operation_payload_ambiguous :
    SamePayload (create_operation (ascii "a")) (ascii "a") (create_operation (ascii "a" ++ [0]))
        (ascii "a" ++ [0]) ∧
      operation_hash (create_operation (ascii "a")) (ascii "a") =
        operation_hash (create_operation (ascii "a" ++ [0])) (ascii "a" ++ [0]) ∧
      ascii "a" ≠ ascii "a" ++ [0] := by
  have hext : ZeroExtends (ascii "a") (ascii "a" ++ [0]) := ⟨1, rfl⟩
  have hfield := hext.patch_zeros (by decide)
  refine ⟨(samePayload_iff (by decide) (by decide)).mpr ⟨⟨rfl, rfl, rfl, rfl, rfl, rfl, rfl⟩,
    .inl hext⟩, ?_, by decide⟩
  simp only [operation_hash, operation_payload, create_operation, hfield]

end Bogbin.Core
