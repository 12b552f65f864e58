import Bogbin.Core.Journal
import Bogbin.Library.HashChain

/-!
# Histories of the workspace journal

`verify_journal_chain` with any hash of the entries.  The walk to the oldest entry does not compare
what that entry names with `ZERO`, so a history without its oldest entries is verified
(`verify_drop`), and the check is complete exactly for the lists that start at the genesis or are not
linked (`verify_journal_chain_complete_iff`).
-/

namespace Bogbin.Core

open HashChain

/-- `walk_journal_chain` with the hash of an entry as a parameter. -/
def walk_journal_chain_by (compute_hash : WorkspaceJournalEntry → Option Hash32) :
    Hash32 → List WorkspaceJournalEntry → Option Bool
  | _, [] => some true
  | current_head, e :: older => do
    let hash ← compute_hash e
    if hash ≠ current_head then some false
    else walk_journal_chain_by compute_hash e.previous_journal_entry older

/-- `verify_journal_chain` with the hash of an entry as a parameter. -/
def verify_journal_chain_by (compute_hash : WorkspaceJournalEntry → Option Hash32) (head : Hash32)
    (entries : List WorkspaceJournalEntry) : Option Bool :=
  if entries = [] then some (head = Digest.zero)
  else walk_journal_chain_by compute_hash head entries.reverse

theorem walk_journal_chain_eq (head : Hash32) (entries : List WorkspaceJournalEntry) :
    walk_journal_chain head entries = walk_journal_chain_by (·.compute_hash) head entries := by
  induction entries generalizing head with
  | nil => rfl
  | cons e older ih => simp only [walk_journal_chain, walk_journal_chain_by, ih]

/-- The check of the code is the one with its own hash. -/
theorem verify_journal_chain_eq (head : Hash32) (entries : List WorkspaceJournalEntry) :
    verify_journal_chain head entries = verify_journal_chain_by (·.compute_hash) head entries := by
  rw [verify_journal_chain, verify_journal_chain_by, walk_journal_chain_eq]

section Total

variable (hash : WorkspaceJournalEntry → Hash32)

/-- The check with a hash that never panics. -/
def verified (head : Hash32) (entries : List WorkspaceJournalEntry) : Option Bool :=
  verify_journal_chain_by (fun e => some (hash e)) head entries

/-- The oldest entry names no entry before it. -/
def StartsAtGenesis (entries : List WorkspaceJournalEntry) : Prop :=
  ∀ e ∈ entries.head?, e.previous_journal_entry = Digest.zero

/-- Each entry names the hash of the one before it, and the head is the hash of the newest. -/
def LinkedTo (head : Hash32) (entries : List WorkspaceJournalEntry) : Prop :=
  Linked hash (·.previous_journal_entry) head entries

/-- A complete history: without entries its head is `ZERO`, else it is linked from the genesis to the
head. -/
def CompleteHistory (head : Hash32) (entries : List WorkspaceJournalEntry) : Prop :=
  if entries = [] then head = Digest.zero
  else StartsAtGenesis entries ∧ LinkedTo hash head entries

variable {hash} {head : Hash32} {entries : List WorkspaceJournalEntry}

theorem walk_by_eq_walk :
    walk_journal_chain_by (fun e => some (hash e)) head entries =
      some (walk hash (·.previous_journal_entry) head entries) := by
  induction entries generalizing head with
  | nil => rfl
  | cons e older ih =>
    simp only [walk_journal_chain_by, Option.bind_eq_bind, Option.bind_some, walk, ih]
    by_cases hsame : hash e = head
    · rw [if_neg (not_not.mpr hsame), decide_eq_true hsame, Bool.true_and]
    · rw [if_pos hsame, decide_eq_false hsame, Bool.false_and]

theorem verified_nil : verified hash head [] = some true ↔ head = Digest.zero := by
  rw [verified, verify_journal_chain_by, if_pos rfl, Option.some.injEq, decide_eq_true_eq]

/-- What the check says of a list with entries. -/
theorem verified_iff_linked (h : entries ≠ []) :
    verified hash head entries = some true ↔ LinkedTo hash head entries := by
  rw [verified, verify_journal_chain_by, if_neg h, walk_by_eq_walk, Option.some.injEq,
    walk_eq_true_iff, LinkedTo]

/-- A history without some of its oldest entries is verified, as long as an entry is left. -/
theorem verify_drop {n : ℕ} (h : CompleteHistory hash head entries) (hn : n < entries.length) :
    verified hash head (entries.drop n) = some true := by
  have hne : entries ≠ [] := List.ne_nil_of_length_pos (by omega)
  rw [CompleteHistory, if_neg hne] at h
  exact (verified_iff_linked (List.ne_nil_of_length_pos (by rw [List.length_drop]; omega))).mpr
    (Linked.drop h.2 n)

end Total

/-- The check accepts exactly the complete histories on a list that starts at the genesis or is not
linked to the head, and only there. -/
theorem verify_journal_chain_complete_iff (hash : WorkspaceJournalEntry → Hash32) (head : Hash32)
    (entries : List WorkspaceJournalEntry) :
    (verified hash head entries = some true ↔ CompleteHistory hash head entries) ↔
      StartsAtGenesis entries ∨ ¬ LinkedTo hash head entries := by
  by_cases hnil : entries = []
  · subst hnil
    have hstart : StartsAtGenesis [] := fun e h => nomatch h
    rw [CompleteHistory, if_pos rfl, verified_nil]
    exact ⟨fun _ => .inl hstart, fun _ => Iff.rfl⟩
  · rw [verified_iff_linked hnil, CompleteHistory, if_neg hnil]
    constructor
    · intro h
      by_cases hlinked : LinkedTo hash head entries
      · exact .inl (h.mp hlinked).1
      · exact .inr hlinked
    · rintro (hstart | hbroken)
      · exact ⟨fun hlinked => ⟨hstart, hlinked⟩, And.right⟩
      · exact ⟨fun hlinked => absurd hlinked hbroken, And.right⟩

/-- An entry with a number and a predecessor. -/
def entry_after (seq : UInt64) (previous : Hash32) : WorkspaceJournalEntry :=
  ⟨seq, previous, ⟨1, Digest.zero, Digest.zero, Digest.zero, Digest.zero, true⟩, Digest.zero⟩

/-- A hash that repeats the number of the entry. -/
def number_hash (e : WorkspaceJournalEntry) : Hash32 :=
  ⟨List.replicate 32 e.seq.toUInt8, List.length_replicate⟩

/-- A history of two entries is complete; without its oldest entry it is not, and it is verified. -/
theorem dropped_entry_verified :
    let first := entry_after 1 Digest.zero
    let second := entry_after 2 (number_hash first)
    CompleteHistory number_hash (number_hash second) [first, second] ∧
      ¬ CompleteHistory number_hash (number_hash second) [second] ∧
      verified number_hash (number_hash second) [second] = some true := by
  dsimp only
  refine ⟨?_, ?_, by decide⟩
  · rw [CompleteHistory, if_neg (by simp)]
    refine ⟨fun e he => ?_, ⟨by simp [entry_after], fun e he => ?_⟩⟩
    · obtain rfl := Option.some.inj he
      rfl
    · obtain rfl := Option.some.inj he
      rfl
  · rw [CompleteHistory, if_neg (by simp)]
    rintro ⟨hstart, -⟩
    exact absurd (hstart _ rfl) (by decide)

end Bogbin.Core
