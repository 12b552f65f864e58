import Bogbin.Core.WorkspaceProof

/-!
# The genesis root

`GenesisRoot` with its canonical bytes, its hash and its parser.  The hash stages 277 bytes in a
buffer of 256, and the parser reads two of the hashes in the other's place.
-/

namespace Bogbin.Core

open Buffer Staging

def EMPTY_PACKAGE_REGISTRY_ROOT : Hash32 := ⟨List.replicate 32 1, List.length_replicate⟩
def EMPTY_CAPABILITY_POLICY_ROOT : Hash32 := ⟨List.replicate 32 2, List.length_replicate⟩
def EMPTY_LEDGER_ROOT : Hash32 := ⟨List.replicate 32 3, List.length_replicate⟩
def EMPTY_APP_REGISTRY_ROOT : Hash32 := ⟨List.replicate 32 4, List.length_replicate⟩
def EMPTY_VERIFIER_REGISTRY_ROOT : Hash32 := ⟨List.replicate 32 5, List.length_replicate⟩

/-- The top-level persistent trusted workspace object. -/
structure GenesisRoot where
  magic : {b : Bytes // b.length = 8}
  bogfs_format_version : UInt32
  kernel_receipt_root : Hash32
  workspace_root_hash : Hash32
  package_registry_root : Hash32
  capability_policy_root : Hash32
  ledger_root : Hash32
  app_registry_root : Hash32
  verifier_registry_root : Hash32
  boot_claim_hash : Hash32
  deriving DecidableEq

namespace GenesisRoot

def MAGIC : {b : Bytes // b.length = 8} := ⟨ascii "BOGGEN40", by decide⟩

/-- The fields of a genesis root in canonical order. -/
def fields (g : GenesisRoot) : List Bytes :=
  [ascii "GENROOTv1", g.magic.val, leBytes 4 g.bogfs_format_version.toNat,
    g.kernel_receipt_root.val, g.workspace_root_hash.val, g.package_registry_root.val,
    g.capability_policy_root.val, g.ledger_root.val, g.app_registry_root.val,
    g.verifier_registry_root.val, g.boot_claim_hash.val]

/-- Write canonical bytes into a fixed buffer. -/
def write_canonical (g : GenesisRoot) (buf : Bytes) : Option (Except String (Cursor UInt8)) :=
  let needed := 9 + 8 + 4 + 32 * 8
  if buf.length < needed then some (.error "buffer too small for GenesisRoot")
  else ((Cursor.start buf).putAll g.fields).map .ok

/-- The hash of the canonical bytes; a buffer that is too small is a panic. -/
def compute_hash (g : GenesisRoot) : Option Hash32 := do
  match ← g.write_canonical (zeros 256) with
  | .ok c => some (sha256 c.written)
  | .error _ => none

/-- The canonical bytes. -/
def canonical (g : GenesisRoot) : Bytes := g.fields.flatten

theorem length_fields (g : GenesisRoot) :
    g.fields.map List.length = [9, 8, 4, 32, 32, 32, 32, 32, 32, 32, 32] := by
  simp [fields, ascii, g.magic.2, g.kernel_receipt_root.2, g.workspace_root_hash.2,
    g.package_registry_root.2, g.capability_policy_root.2, g.ledger_root.2,
    g.app_registry_root.2, g.verifier_registry_root.2, g.boot_claim_hash.2]

theorem length_canonical (g : GenesisRoot) : g.canonical.length = 277 := by
  rw [canonical, List.length_flatten, length_fields]
  rfl

/-- A buffer of 277 bytes holds the canonical bytes. -/
theorem write_canonical_eq (g : GenesisRoot) {buf : Bytes} (h : 277 ≤ buf.length) :
    ∃ c, g.write_canonical buf = some (.ok c) ∧ c.written = g.canonical := by
  obtain ⟨c, hc, hw⟩ := putAll_start buf g.fields (by
    rw [← canonical, length_canonical]
    exact h)
  refine ⟨c, ?_, hw⟩
  rw [write_canonical, if_neg (by omega), hc]
  rfl

/-- The hash of a genesis root always panics: its buffer is 21 bytes short. -/
theorem compute_hash_eq_none (g : GenesisRoot) : g.compute_hash = none := by
  have hshort : (zeros 256).length < 9 + 8 + 4 + 32 * 8 := by
    rw [length_zeros]
    norm_num
  unfold compute_hash write_canonical
  simp only [if_pos hshort, Option.bind_eq_bind, Option.bind_some]

end GenesisRoot

/-- The hash at an offset. -/
def hash_at (data : Bytes) (offset : ℕ) : Hash32 :=
  if h : (slice data offset 32).length = 32 then ⟨slice data offset 32, h⟩ else Digest.zero

/-- Parse canonical bytes; `workspace_root_hash` is read where `kernel_receipt_root` is written, and
the other way round. -/
def parse_genesis_root (data : Bytes) : Except String GenesisRoot := do
  reject_if (data.length < 9 + 8 + 4 + 32 * 8) "buffer too small for GenesisRoot parse"
  reject_if (slice data 0 9 ≠ ascii "GENROOTv1") "bad GENROOT tag"
  let bogfs_format_version := UInt32.ofNat (leValue (slice data 17 4))
  let workspace_root_hash := hash_at data 21
  let kernel_receipt_root := hash_at data 53
  let package_registry_root := hash_at data 85
  let capability_policy_root := hash_at data 117
  let ledger_root := hash_at data 149
  let app_registry_root := hash_at data 181
  let verifier_registry_root := hash_at data 213
  let boot_claim_hash := hash_at data 245
  reject_if (slice data 9 8 ≠ GenesisRoot.MAGIC.val) "bad magic in GenesisRoot"
  .ok {
    magic := GenesisRoot.MAGIC
    bogfs_format_version := bogfs_format_version
    kernel_receipt_root := kernel_receipt_root
    workspace_root_hash := workspace_root_hash
    package_registry_root := package_registry_root
    capability_policy_root := capability_policy_root
    ledger_root := ledger_root
    app_registry_root := app_registry_root
    verifier_registry_root := verifier_registry_root
    boot_claim_hash := boot_claim_hash }

/-- A minimal genesis root with the sentinels of the empty tables. -/
def make_genesis_root (workspace_root_hash : Hash32) : GenesisRoot where
  magic := GenesisRoot.MAGIC
  bogfs_format_version := 1
  kernel_receipt_root := EMPTY_LEDGER_ROOT
  workspace_root_hash := workspace_root_hash
  package_registry_root := EMPTY_PACKAGE_REGISTRY_ROOT
  capability_policy_root := EMPTY_CAPABILITY_POLICY_ROOT
  ledger_root := EMPTY_LEDGER_ROOT
  app_registry_root := EMPTY_APP_REGISTRY_ROOT
  verifier_registry_root := EMPTY_VERIFIER_REGISTRY_ROOT
  boot_claim_hash := Digest.zero

theorem hash_at_eq {data : Bytes} {offset : ℕ} {h : Hash32} (hs : slice data offset 32 = h.val) :
    hash_at data offset = h := by
  have hlen : (slice data offset 32).length = 32 := by rw [hs, h.2]
  rw [hash_at, dif_pos hlen]
  exact Subtype.ext hs

/-- A field of a concatenation. -/
theorem slice_flatten {l : List Bytes} {n : ℕ} {x : Bytes} (hx : l[n]? = some x) {off len : ℕ}
    (hoff : ((l.map List.length).take n).sum = off) (hlen : x.length = len) :
    slice l.flatten off len = x := by
  obtain ⟨hn, hget⟩ := List.getElem?_eq_some_iff.mp hx
  have hsplit : l = l.take n ++ x :: l.drop (n + 1) := by
    rw [← hget, ← List.drop_eq_getElem_cons hn, List.take_append_drop]
  have hpre : (l.take n).flatten.length = off := by
    rw [List.length_flatten, List.map_take, hoff]
  rw [hsplit, List.flatten_append, List.flatten_cons, ← hpre, ← hlen]
  simp [slice]

/-- Parsing canonical bytes exchanges the workspace root and the kernel receipt root. -/
theorem parse_canonical {g : GenesisRoot} (h : g.magic = GenesisRoot.MAGIC) :
    parse_genesis_root g.canonical = .ok { g with
      workspace_root_hash := g.kernel_receipt_root
      kernel_receipt_root := g.workspace_root_hash } := by
  have hfield {n off len : ℕ} {x : Bytes} (hx : g.fields[n]? = some x)
      (hoff : (([9, 8, 4, 32, 32, 32, 32, 32, 32, 32, 32] : List ℕ).take n).sum = off)
      (hlen : x.length = len) : slice g.canonical off len = x :=
    slice_flatten hx (by rw [g.length_fields, hoff]) hlen
  have hhash {n off : ℕ} {x : Hash32} (hx : g.fields[n]? = some x.val)
      (hoff : (([9, 8, 4, 32, 32, 32, 32, 32, 32, 32, 32] : List ℕ).take n).sum = off) :
      hash_at g.canonical off = x := hash_at_eq (hfield hx hoff x.2)
  have hlong : ¬ g.canonical.length < 9 + 8 + 4 + 32 * 8 := by
    rw [g.length_canonical]
    norm_num
  have htag : slice g.canonical 0 9 = ascii "GENROOTv1" := @hfield 0 _ _ _ rfl rfl (by decide)
  have hmagic : slice g.canonical 9 8 = GenesisRoot.MAGIC.val :=
    (@hfield 1 _ _ _ rfl rfl g.magic.2).trans (congrArg Subtype.val h)
  have hversion : UInt32.ofNat (leValue (slice g.canonical 17 4)) = g.bogfs_format_version := by
    rw [@hfield 2 17 4 _ rfl rfl (length_leBytes 4 _),
      leValue_leBytes_of_lt (by simpa using g.bogfs_format_version.toNat_lt), UInt32.ofNat_toNat]
  unfold parse_genesis_root
  rw [reject_bind_eq_ok, reject_bind_eq_ok]
  refine ⟨hlong, not_not.mpr htag, ?_⟩
  rw [reject_bind_eq_ok]
  refine ⟨not_not.mpr hmagic, ?_⟩
  rw [hversion, @hhash 3 21 _ rfl rfl, @hhash 4 53 _ rfl rfl, @hhash 5 85 _ rfl rfl,
    @hhash 6 117 _ rfl rfl, @hhash 7 149 _ rfl rfl, @hhash 8 181 _ rfl rfl,
    @hhash 9 213 _ rfl rfl, @hhash 10 245 _ rfl rfl, ← h]

end Bogbin.Core
