import Mathlib.Data.List.Basic
import Mathlib.Data.List.Chain

/-!
# Hash chains

Entries that name the hash of the entry before them, the oldest first.  A walk from the head back to
the oldest entry finds every hash it expects exactly when the entries are linked
(`walk_eq_true_iff`); what the oldest entry names is not compared with anything.
-/

namespace HashChain

variable {α η : Type*} (hash previous : α → η)

/-- The walk from the newest entry to the oldest, which compares each hash with the expected one. -/
def walk [DecidableEq η] : η → List α → Bool
  | _, [] => true
  | expected, e :: older => hash e = expected && walk (previous e) older

/-- Each entry names the hash of the entry before it, and the head is the hash of the newest. -/
structure Linked (head : η) (entries : List α) : Prop where
  links : entries.IsChain fun e e' => previous e' = hash e
  newest : ∀ e ∈ entries.getLast?, hash e = head

variable {hash previous} {head : η} {entries older : List α} {e : α}

theorem linked_nil : Linked hash previous head [] := ⟨.nil, fun _ h => nomatch h⟩

/-- An entry behind a chain. -/
theorem linked_concat : Linked hash previous head (older ++ [e]) ↔
    hash e = head ∧ Linked hash previous (previous e) older := by
  constructor
  · rintro ⟨hlinks, hnewest⟩
    obtain ⟨hchain, -, hlast⟩ := List.isChain_append.mp hlinks
    exact ⟨hnewest e List.getLast?_concat, hchain, fun d hd => (hlast d hd e rfl).symm⟩
  · rintro ⟨hhash, hchain, hlast⟩
    refine ⟨List.isChain_append.mpr ⟨hchain, .singleton e, fun d hd d' hd' => ?_⟩, fun d hd => ?_⟩
    · obtain rfl := Option.some.inj hd'
      exact (hlast d hd).symm
    · rw [List.getLast?_concat] at hd
      obtain rfl := Option.some.inj hd
      exact hhash

/-- The walk succeeds on linked entries and on no others. -/
theorem walk_eq_true_iff [DecidableEq η] :
    walk hash previous head entries.reverse = true ↔ Linked hash previous head entries := by
  induction entries using List.reverseRecOn generalizing head with
  | nil => exact ⟨fun _ => linked_nil, fun _ => rfl⟩
  | append_singleton older e ih =>
    rw [List.reverse_append, List.reverse_singleton, List.singleton_append, walk, Bool.and_eq_true,
      decide_eq_true_eq, ih, linked_concat]

/-- The newest entries of a chain are linked, too. -/
theorem Linked.drop (h : Linked hash previous head entries) (n : ℕ) :
    Linked hash previous head (entries.drop n) := by
  refine ⟨h.links.drop n, fun e he => h.newest e ?_⟩
  rw [List.getLast?_drop] at he
  split_ifs at he with hn
  · cases he
  · exact he

end HashChain
