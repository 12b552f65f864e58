import Mathlib.Data.Fintype.Card
import Mathlib.Logic.Relation
import Mathlib.Tactic

/-!
# A search that remembers its path

A depth-first search that checks every node it comes to and refuses a node of its own path.  It
does not remember the nodes of other paths, so a shared node is visited again.  On a graph whose
sound nodes are in a finite list the search passes exactly when every node below its start is sound
and no cycle is below it (`Fuelled.iff`), and the number of nodes is enough fuel.
-/

namespace PathSearch

open Relation

variable {α : Type*} {sound : α → Prop} {next : α → List α} {a b : α} {seen keys : List α}

def Edge (next : α → List α) (a b : α) : Prop := b ∈ next a

/-- Every node below `a` is sound, and none of them is on a cycle. -/
structure Clean (sound : α → Prop) (next : α → List α) (a : α) : Prop where
  sound : ∀ b, ReflTransGen (Edge next) a b → sound b
  acyclic : ∀ b, ReflTransGen (Edge next) a b → ¬TransGen (Edge next) b b

/-- The search from `a` passes, when `seen` are the nodes of the path to it. -/
inductive Passes (sound : α → Prop) (next : α → List α) : List α → α → Prop
  | intro {seen : List α} {a : α} (fresh : a ∉ seen) (here : sound a)
      (below : ∀ b ∈ next a, Passes sound next (a :: seen) b) : Passes sound next seen a

theorem Passes.sound_of_reach (h : Passes sound next seen a)
    (hreach : ReflTransGen (Edge next) a b) : sound b := by
  induction h with
  | intro _ here _ ih =>
    rcases ReflTransGen.cases_head hreach with rfl | ⟨c, hedge, hrest⟩
    · exact here
    · exact ih c hedge hrest

theorem Passes.acc (h : Passes sound next seen a) : Acc (Function.swap (Edge next)) a := by
  induction h with
  | intro _ _ _ ih => exact ⟨_, fun b hb => ih b hb⟩

theorem not_transGen_of_acc (h : Acc (Function.swap (Edge next)) a) :
    ¬TransGen (Edge next) a a := by
  induction h with
  | intro a _ ih =>
    intro hcycle
    -- the first node of the cycle is on it, too
    obtain ⟨b, hedge, hrest⟩ := TransGen.head'_iff.mp hcycle
    exact ih b hedge (TransGen.tail' hrest hedge)

theorem Passes.clean (h : Passes sound next seen a) : Clean sound next a := by
  refine ⟨fun b hb => h.sound_of_reach hb, fun b hb => ?_⟩
  have hacc : Acc (Function.swap (Edge next)) b := by
    induction hb with
    | refl => exact h.acc
    | tail _ hedge ih => exact ih.inv hedge
  exact not_transGen_of_acc hacc

theorem Clean.below (h : Clean sound next a) (hb : b ∈ next a) : Clean sound next b :=
  ⟨fun c hc => h.sound c (.head hb hc), fun c hc => h.acyclic c (.head hb hc)⟩

/-- Without a cycle, a finite graph has no infinite path. -/
theorem Clean.acc (h : Clean sound next a) (hkeys : ∀ b, sound b → b ∈ keys) :
    Acc (Function.swap (Edge next)) a := by
  let below := {b // ReflTransGen (Edge next) a b}
  have hfinite : Finite below := by
    have hsubset : {b | ReflTransGen (Edge next) a b} ⊆ {b | b ∈ keys} :=
      fun b hb => hkeys b (h.sound b hb)
    exact (List.finite_toSet keys).subset hsubset
  let r : below → below → Prop := fun b c => TransGen (Edge next) c.1 b.1
  have htrans : IsTrans below r := ⟨fun _ _ _ hbc hcd => hcd.trans hbc⟩
  have hirrefl : Std.Irrefl r := ⟨fun b hb => h.acyclic b.1 b.2 hb⟩
  have hwf : WellFounded r := Finite.wellFounded_of_trans_of_irrefl r
  have hacc : ∀ b : below, Acc (Function.swap (Edge next)) b.1 := by
    intro b
    induction b using hwf.induction with
    | h b ih =>
      refine ⟨_, fun c hc => ?_⟩
      exact ih ⟨c, b.2.tail hc⟩ (.single hc)
  exact hacc ⟨a, .refl⟩

theorem Clean.passes (h : Clean sound next a) (hkeys : ∀ b, sound b → b ∈ keys)
    (hseen : ∀ s ∈ seen, TransGen (Edge next) s a) : Passes sound next seen a := by
  have hacc := h.acc hkeys
  induction hacc generalizing seen with
  | intro a _ ih =>
    refine .intro (fun hmem => h.acyclic a .refl (hseen a hmem)) (h.sound a .refl) fun b hb => ?_
    refine ih b hb (h.below hb) fun s hs => ?_
    rcases List.mem_cons.mp hs with rfl | hs
    · exact .single hb
    · exact (hseen s hs).tail hb

theorem passes_iff (hkeys : ∀ b, sound b → b ∈ keys) :
    Passes sound next [] a ↔ Clean sound next a :=
  ⟨Passes.clean, fun h => h.passes hkeys nofun⟩

/-! ## New edges of one node -/

section Rewire

variable {next' : α → List α} {key : α}

/-- A path in the graph with new edges at `key` is an old one, or goes through `key`. -/
theorem reach_or_through (hsame : ∀ a, a ≠ key → next' a = next a)
    (h : ReflTransGen (Edge next') a b) :
    ReflTransGen (Edge next) a b ∨
      ReflTransGen (Edge next) a key ∧ ReflTransGen (Edge next') key b := by
  induction h with
  | refl => exact .inl .refl
  | @tail b c _ hedge ih =>
    rcases ih with hold | ⟨hkey, hnew⟩
    · by_cases hb : b = key
      · subst hb
        exact .inr ⟨hold, .single hedge⟩
      · rw [Edge, hsame b hb] at hedge
        exact .inl (hold.tail hedge)
    · exact .inr ⟨hkey, hnew.tail hedge⟩

/-- An old path to `key` is there after `key` got new edges. -/
theorem reach_key_of_reach (hsame : ∀ a, a ≠ key → next' a = next a)
    (h : ReflTransGen (Edge next) a key) : ReflTransGen (Edge next') a key := by
  induction h using ReflTransGen.head_induction_on with
  | refl => exact .refl
  | @head a b hedge _ ih =>
    by_cases ha : a = key
    · rw [ha]
    · refine .head ?_ ih
      rwa [Edge, hsame a ha]

/-- New edges of `key` make no cycle when none of their ends leads to `key`. -/
theorem acyclic_rewire (hsame : ∀ a, a ≠ key → next' a = next a)
    (hacyclic : ∀ a, ¬TransGen (Edge next) a a)
    (hfree : ∀ d ∈ next' key, ¬ReflTransGen (Edge next) d key) (a : α) :
    ¬TransGen (Edge next') a a := by
  have hkey : ¬TransGen (Edge next') key key := by
    intro hcycle
    obtain ⟨d, hd, hback⟩ := TransGen.head'_iff.mp hcycle
    rcases reach_or_through hsame hback with hold | ⟨hold, -⟩
    · exact hfree d hd hold
    · exact hfree d hd hold
  intro hcycle
  by_cases ha : a = key
  · exact hkey (ha ▸ hcycle)
  obtain ⟨b, hedge, hback⟩ := TransGen.head'_iff.mp hcycle
  rcases reach_or_through hsame hback with hold | ⟨hto, hfrom⟩
  · rw [Edge, hsame a ha] at hedge
    exact hacyclic a (TransGen.head' hedge hold)
  · -- the cycle goes through `key`, so one begins there
    have hto' := reach_key_of_reach hsame hto
    exact hkey (TransGen.trans_right hfrom (TransGen.head' hedge hto'))

end Rewire

/-! ## Fuel -/

/-- The nodes that are not on the path. -/
def unseen [DecidableEq α] (keys seen : List α) : ℕ := (keys.filter (· ∉ seen)).length

theorem unseen_cons_lt [DecidableEq α] (hkey : a ∈ keys) (hfresh : a ∉ seen) :
    unseen keys (a :: seen) < unseen keys seen := by
  have hsub : (keys.filter (· ∉ a :: seen)).Sublist (keys.filter (· ∉ seen)) :=
    List.monotone_filter_right keys fun x hx => by
      simp only [List.mem_cons, not_or, decide_eq_true_eq] at hx ⊢
      exact hx.2
  refine lt_of_le_of_ne hsub.length_le fun heq => ?_
  have hsame := hsub.eq_of_length heq
  have hmem : a ∈ keys.filter (· ∉ seen) := by simp [hkey, hfresh]
  rw [← hsame] at hmem
  simp at hmem

theorem unseen_nil [DecidableEq α] : unseen keys [] = keys.length := by
  simp [unseen]

/-- A search with fuel: what it checks before it goes on. -/
structure Fuelled (sound : α → Prop) (next : α → List α) (done : ℕ → List α → α → Prop) : Prop where
  zero : ∀ seen a, ¬done 0 seen a
  succ : ∀ n seen a, done (n + 1) seen a ↔ a ∉ seen ∧ sound a ∧ ∀ b ∈ next a, done n (a :: seen) b

section Fuel

variable {done : ℕ → List α → α → Prop} {n : ℕ} (h : Fuelled sound next done)

include h

theorem Fuelled.passes (hdone : done n seen a) : Passes sound next seen a := by
  induction n generalizing seen a with
  | zero => exact absurd hdone (h.zero seen a)
  | succ n ih =>
    obtain ⟨hfresh, hsound, hbelow⟩ := (h.succ n seen a).mp hdone
    exact .intro hfresh hsound fun b hb => ih (hbelow b hb)

theorem Fuelled.complete [DecidableEq α] (hkeys : ∀ b, sound b → b ∈ keys)
    (hpasses : Passes sound next seen a) (hn : unseen keys seen < n) : done n seen a := by
  induction hpasses generalizing n with
  | intro fresh here _ ih =>
    obtain ⟨n, rfl⟩ := Nat.exists_eq_succ_of_ne_zero (Nat.ne_zero_of_lt hn)
    refine (h.succ n _ _).mpr ⟨fresh, here, fun b hb => ih b hb ?_⟩
    have := unseen_cons_lt (hkeys _ here) fresh
    omega

/-- With more fuel than nodes, the search passes exactly on the clean nodes. -/
theorem Fuelled.iff (hkeys : ∀ b, sound b → b ∈ keys) (hn : keys.length < n) :
    done n [] a ↔ Clean sound next a := by
  classical
  rw [← passes_iff hkeys]
  exact ⟨h.passes, fun hpasses => h.complete hkeys hpasses (by rwa [unseen_nil])⟩

end Fuel

end PathSearch
