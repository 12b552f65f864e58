import Mathlib.Algebra.Order.BigOperators.Group.List
import Mathlib.Logic.Relation
import Mathlib.Tactic

/-!
# Search with a queue

The search for a node among those that can be reached from a queue.  A node is taken from the front;
unless it was visited before, its successors that were not visited are put at the end.  `Searches` is
the loop, which decides whether the target can be reached (`Searches.eq_true_iff`).  Where finitely many
nodes have successors it ends, after at most as many turns as there are nodes in the queue and
successors of nodes not visited (`searches_search`).
-/

namespace QueueSearch

open Relation

variable {α : Type*} [DecidableEq α] {next : α → List α} {target node source : α}
  {queue visited nodes : List α} {found : Bool} {turns : ℕ}

/-- The successors that are not visited. -/
def fresh (next : α → List α) (visited : List α) (node : α) : List α :=
  (next node).filter (· ∉ visited)

/-- The loop with its result. -/
inductive Searches (next : α → List α) (target : α) : List α → List α → Bool → Prop
  | empty {visited : List α} : Searches next target [] visited false
  | found {queue visited : List α} : Searches next target (target :: queue) visited true
  | skip {node : α} {queue visited : List α} {found : Bool} (other : node ≠ target)
      (seen : node ∈ visited) (rest : Searches next target queue visited found) :
      Searches next target (node :: queue) visited found
  | visit {node : α} {queue visited : List α} {found : Bool} (other : node ≠ target)
      (unseen : node ∉ visited)
      (rest : Searches next target (queue ++ fresh next (node :: visited) node) (node :: visited)
        found) :
      Searches next target (node :: queue) visited found

/-! ## What the loop decides -/

/-- A node of the queue reaches the target. -/
def Reaches (next : α → List α) (target : α) (queue : List α) : Prop :=
  ∃ node ∈ queue, ReflTransGen (fun a b => b ∈ next a) node target

/-- The successors of the visited nodes are visited or in the queue. -/
def Closed (next : α → List α) (queue visited : List α) : Prop :=
  ∀ node ∈ visited, ∀ n ∈ next node, n ∈ visited ∨ n ∈ queue

omit [DecidableEq α] in
/-- A path from a visited node leaves the visited nodes through the queue. -/
theorem reaches_of_visited (hclosed : Closed next queue visited) (htarget : target ∉ visited)
    (hnode : node ∈ visited) (hpath : ReflTransGen (fun a b => b ∈ next a) node target) :
    Reaches next target queue := by
  induction hpath using ReflTransGen.head_induction_on with
  | refl => exact absurd hnode htarget
  | head hstep hrest ih =>
    rcases hclosed _ hnode _ hstep with hvisited | hqueue
    · exact ih hvisited
    · exact ⟨_, hqueue, hrest⟩

omit [DecidableEq α] in
theorem Closed.skip (h : Closed next (node :: queue) visited) (hnode : node ∈ visited) :
    Closed next queue visited := by
  intro m hm n hn
  rcases h m hm n hn with hvisited | hqueue
  · exact .inl hvisited
  · rcases List.mem_cons.mp hqueue with rfl | hqueue
    · exact .inl hnode
    · exact .inr hqueue

theorem Closed.visit (h : Closed next (node :: queue) visited) :
    Closed next (queue ++ fresh next (node :: visited) node) (node :: visited) := by
  intro m hm n hn
  by_cases hseen : n ∈ node :: visited
  · exact .inl hseen
  · refine .inr (List.mem_append.mpr ?_)
    rcases List.mem_cons.mp hm with rfl | hm
    · exact .inr (List.mem_filter.mpr ⟨hn, decide_eq_true hseen⟩)
    · rcases h m hm n hn with hvisited | hqueue
      · exact absurd (List.mem_cons_of_mem node hvisited) hseen
      · rcases List.mem_cons.mp hqueue with rfl | hqueue
        · exact absurd List.mem_cons_self hseen
        · exact .inl hqueue

/-- The loop finds the target exactly when the queue reaches it. -/
theorem Searches.eq_true_iff (h : Searches next target queue visited found)
    (hclosed : Closed next queue visited) (htarget : target ∉ visited) :
    found = true ↔ Reaches next target queue := by
  induction h with
  | empty => simp [Reaches]
  | found => exact iff_of_true rfl ⟨_, List.mem_cons_self, .refl⟩
  | @skip node queue visited found other seen rest ih =>
    have hskip := hclosed.skip seen
    rw [ih hskip htarget]
    constructor
    · rintro ⟨n, hn, hpath⟩
      exact ⟨n, List.mem_cons_of_mem node hn, hpath⟩
    · rintro ⟨n, hn, hpath⟩
      rcases List.mem_cons.mp hn with rfl | hn
      · exact reaches_of_visited hskip htarget seen hpath
      · exact ⟨n, hn, hpath⟩
  | @visit node queue visited found other unseen rest ih =>
    have hvisit := hclosed.visit
    have htarget' : target ∉ node :: visited :=
      fun hmem => (List.mem_cons.mp hmem).elim other.symm htarget
    rw [ih hvisit htarget']
    constructor
    · rintro ⟨n, hn, hpath⟩
      rcases List.mem_append.mp hn with hn | hn
      · exact ⟨n, List.mem_cons_of_mem node hn, hpath⟩
      · exact ⟨node, List.mem_cons_self, .head (List.mem_filter.mp hn).1 hpath⟩
    · rintro ⟨n, hn, hpath⟩
      rcases List.mem_cons.mp hn with rfl | hn
      · exact reaches_of_visited hvisit htarget' List.mem_cons_self hpath
      · exact ⟨n, List.mem_append_left _ hn, hpath⟩

/-! ## The loop ends -/

/-- The loop with a bound on its turns. -/
def search (next : α → List α) (target : α) : ℕ → List α → List α → Bool
  | _, [], _ => false
  | 0, _ :: _, _ => false
  | turns + 1, node :: queue, visited =>
    if node = target then true
    else if node ∈ visited then search next target turns queue visited
    else search next target turns (queue ++ fresh next (node :: visited) node) (node :: visited)

/-- The number of successors of the nodes that are not visited. -/
def pending (next : α → List α) (nodes visited : List α) : ℕ :=
  (nodes.map fun node => if node ∈ visited then 0 else (next node).length).sum

theorem pending_mono (nodes : List α) :
    pending next nodes (node :: visited) ≤ pending next nodes visited := by
  refine List.sum_le_sum fun n _ => ?_
  by_cases hn : n ∈ visited
  · simp [hn]
  · rw [if_neg hn]
    split_ifs
    · exact Nat.zero_le _
    · exact le_rfl

theorem pending_visit (hnodes : next node ≠ [] → node ∈ nodes) (hnode : node ∉ visited) :
    (next node).length + pending next nodes (node :: visited) ≤ pending next nodes visited := by
  by_cases hempty : next node = []
  · rw [hempty, List.length_nil, Nat.zero_add]
    exact pending_mono nodes
  · have hperm := List.perm_cons_erase (hnodes hempty)
    have hmono := @pending_mono α _ next node visited (nodes.erase node)
    unfold pending at hmono ⊢
    rw [(hperm.map _).sum_eq, (hperm.map _).sum_eq, List.map_cons, List.map_cons, List.sum_cons,
      List.sum_cons, if_pos List.mem_cons_self, if_neg hnode]
    omega

theorem searches_search (hnodes : ∀ node, next node ≠ [] → node ∈ nodes)
    (hturns : queue.length + pending next nodes visited ≤ turns) :
    Searches next target queue visited (search next target turns queue visited) := by
  induction turns generalizing queue visited with
  | zero =>
    cases queue with
    | nil => exact .empty
    | cons node queue =>
      rw [List.length_cons] at hturns
      omega
  | succ turns ih =>
    cases queue with
    | nil => exact .empty
    | cons node queue =>
      rw [List.length_cons] at hturns
      rw [search]
      split_ifs with htarget hseen
      · rw [htarget]
        exact .found
      · exact .skip htarget hseen (ih (by omega))
      · refine .visit htarget hseen (ih ?_)
        have hfresh : (fresh next (node :: visited) node).length ≤ (next node).length :=
          List.length_filter_le _ _
        have hpending := pending_visit (hnodes node) hseen
        rw [List.length_append]
        omega

/-- From one node. -/
theorem Searches.reaches_iff (h : Searches next target [source] [] found) :
    found = true ↔ ReflTransGen (fun a b => b ∈ next a) source target := by
  rw [h.eq_true_iff (fun _ hmem => (List.not_mem_nil hmem).elim) List.not_mem_nil]
  simp [Reaches]

end QueueSearch
