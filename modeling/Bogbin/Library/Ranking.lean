import Mathlib.Data.List.Chain
import Mathlib.Order.Lattice
import Mathlib.Order.BoundedOrder.Basic

/-!
# The first of a ranking

A list in falling order of a weight.  One item outweighs all the others exactly when the first
outweighs the second, and then it is the first (`dominant_iff`).  A sort whose comparison can raise
(`sortM`) returns where no comparison raises (`sortM_ok`), and then it sorts by what its comparisons
say (`sortM_pairwise`).  In a sorted list of intervals two of them meet if and only if two neighbours do
(`isChain_iff_apart`).
-/

namespace Ranking

variable {α β : Type*} [LinearOrder β] {w : α → β}

/-- The item outweighs every other item. -/
def Dominant (w : α → β) (l : List α) (x : α) : Prop := x ∈ l ∧ ∀ y ∈ l, y ≠ x → w y < w x

theorem dominant_iff {x y z : α} {rest : List α}
    (h : (x :: y :: rest).Pairwise fun a b => w b ≤ w a) (hne : x ≠ y) :
    Dominant w (x :: y :: rest) z ↔ z = x ∧ w y < w x := by
  obtain ⟨hx, htail⟩ := List.pairwise_cons.mp h
  obtain ⟨hy, -⟩ := List.pairwise_cons.mp htail
  constructor
  · rintro ⟨hz, hless⟩
    -- an item after the first does not outweigh the first
    have hzx : z = x := by
      by_contra hzx
      have hlt := hless x List.mem_cons_self (Ne.symm hzx)
      exact absurd (hx z ((List.mem_cons.mp hz).resolve_left hzx)) (not_le.mpr hlt)
    subst hzx
    exact ⟨rfl, hless y (List.mem_cons_of_mem _ List.mem_cons_self) (Ne.symm hne)⟩
  · rintro ⟨rfl, hlt⟩
    refine ⟨List.mem_cons_self, fun a ha hne => ?_⟩
    rcases List.mem_cons.mp ((List.mem_cons.mp ha).resolve_left hne) with rfl | ha
    · exact hlt
    · exact (hy a ha).trans_lt hlt

/-- The greatest weight in a list. -/
def top [OrderBot β] (w : α → β) (l : List α) : β := l.foldr (fun a x => max (w a) x) ⊥

theorem top_cons [OrderBot β] {a : α} {l : List α} : top w (a :: l) = max (w a) (top w l) := rfl

/-- The greatest weight, found from the left. -/
theorem foldl_max [OrderBot β] {l : List α} {x : β} :
    l.foldl (fun x a => max x (w a)) x = max x (top w l) := by
  induction l generalizing x with
  | nil => exact (max_eq_left bot_le).symm
  | cons a l ih => rw [List.foldl_cons, ih, top_cons, max_assoc]

theorem le_top [OrderBot β] {l : List α} {a : α} (h : a ∈ l) : w a ≤ top w l := by
  induction l with
  | nil => exact absurd h List.not_mem_nil
  | cons b l ih =>
    rw [top_cons]
    rcases List.mem_cons.mp h with rfl | h
    · exact le_max_left _ _
    · exact (ih h).trans (le_max_right _ _)

/-- The first of a sorted list is least. -/
theorem head_of_sorted {key : α → β} {l : List α} {x : α}
    (h : l.Pairwise fun a b => key a ≤ key b) (hx : l.head? = some x) :
    x ∈ l ∧ ∀ y ∈ l, key x ≤ key y := by
  obtain ⟨rest, rfl⟩ := List.head?_eq_some_iff.mp hx
  refine ⟨List.mem_cons_self, fun y hy => ?_⟩
  rcases List.mem_cons.mp hy with rfl | hy
  · exact le_rfl
  · exact List.rel_of_pairwise_cons h hy

/-- The first of a list that is sorted by a key has a least key. -/
theorem head_mergeSort {key : α → β} {l : List α} {x : α}
    (h : (l.mergeSort fun a b => key a ≤ key b).head? = some x) :
    x ∈ l ∧ ∀ y ∈ l, key x ≤ key y := by
  have hsorted := @List.pairwise_mergeSort _ (fun a b => decide (key a ≤ key b))
    (fun a b c hab hbc => decide_eq_true ((of_decide_eq_true hab).trans (of_decide_eq_true hbc)))
    (fun a b => by simpa using le_total (key a) (key b)) l
  have hmem (y : α) : y ∈ l.mergeSort (fun a b => key a ≤ key b) ↔ y ∈ l := List.mem_mergeSort
  obtain ⟨hx, hleast⟩ := head_of_sorted (hsorted.imp of_decide_eq_true) h
  exact ⟨(hmem x).mp hx, fun y hy => hleast y ((hmem y).mpr hy)⟩

theorem head_mergeSort_eq_none {key : α → β} {l : List α} :
    (l.mergeSort fun a b => key a ≤ key b).head? = none ↔ l = [] := by
  rw [List.head?_eq_none_iff, ← List.length_eq_zero_iff, List.length_mergeSort,
    List.length_eq_zero_iff]

/-! ## A sort whose comparison can raise -/

section SortM

variable {ε γ : Type} {key : γ → β} {less : γ → γ → Except ε Bool} {l : List γ} {x : γ}

/-- An item, in front of the first one that is not less. -/
def insertM (less : γ → γ → Except ε Bool) (x : γ) : List γ → Except ε (List γ)
  | [] => .ok [x]
  | y :: rest => do
    let passes ← less y x
    if passes then return y :: (← insertM less x rest)
    else return x :: y :: rest

/-- The stable sort by insertion. -/
def sortM (less : γ → γ → Except ε Bool) : List γ → Except ε (List γ)
  | [] => .ok []
  | x :: rest => do
    let sorted ← sortM less rest
    insertM less x sorted

variable {s : List γ} {y : γ} {R : γ → γ → Prop}

theorem insertM_cons_eq_ok : insertM less x (y :: l) = .ok s ↔
    (less y x = .ok false ∧ s = x :: y :: l) ∨
      (less y x = .ok true ∧ ∃ rest, insertM less x l = .ok rest ∧ s = y :: rest) := by
  rw [insertM]
  cases hless : less y x with
  | error e => simp [bind, Except.bind]
  | ok passes =>
    cases passes with
    | false => simp [bind, Except.bind, pure, Except.pure, eq_comm]
    | true =>
      cases hrest : insertM less x l with
      | error e => simp [bind, Except.bind]
      | ok rest => simp [bind, Except.bind, pure, Except.pure, eq_comm]

theorem sortM_cons_eq_ok : sortM less (x :: l) = .ok s ↔
    ∃ sorted, sortM less l = .ok sorted ∧ insertM less x sorted = .ok s := by
  rw [sortM]
  cases hsorted : sortM less l with
  | error e => simp [bind, Except.bind]
  | ok sorted => simp [bind, Except.bind]

/-- A sort that returns permutes its list. -/
theorem insertM_perm (h : insertM less x l = .ok s) : s.Perm (x :: l) := by
  induction l generalizing s with
  | nil =>
    obtain rfl := Except.ok.inj h
    exact List.Perm.refl _
  | cons y l ih =>
    obtain ⟨-, rfl⟩ | ⟨-, rest, hrest, rfl⟩ := insertM_cons_eq_ok.mp h
    · exact List.Perm.refl _
    · exact ((ih hrest).cons y).trans (List.Perm.swap x y l)

theorem sortM_perm (h : sortM less l = .ok s) : s.Perm l := by
  induction l generalizing s with
  | nil =>
    obtain rfl := Except.ok.inj h
    exact List.Perm.refl _
  | cons x l ih =>
    obtain ⟨sorted, hsorted, hinsert⟩ := sortM_cons_eq_ok.mp h
    exact (insertM_perm hinsert).trans ((ih hsorted).cons x)

theorem insertM_ok (h : ∀ y ∈ l, ∃ passes, less y x = .ok passes) : ∃ s, insertM less x l = .ok s := by
  induction l with
  | nil => exact ⟨[x], rfl⟩
  | cons y l ih =>
    obtain ⟨⟨passes, hless⟩, hl⟩ := List.forall_mem_cons.mp h
    obtain ⟨rest, hrest⟩ := ih hl
    cases passes with
    | false => exact ⟨_, insertM_cons_eq_ok.mpr (.inl ⟨hless, rfl⟩)⟩
    | true => exact ⟨_, insertM_cons_eq_ok.mpr (.inr ⟨hless, rest, hrest, rfl⟩)⟩

/-- A sort whose comparisons do not raise returns. -/
theorem sortM_ok (h : l.Pairwise fun a b => ∃ passes, less b a = .ok passes) :
    ∃ s, sortM less l = .ok s := by
  induction l with
  | nil => exact ⟨[], rfl⟩
  | cons x l ih =>
    obtain ⟨hx, hl⟩ := List.pairwise_cons.mp h
    obtain ⟨sorted, hsorted⟩ := ih hl
    obtain ⟨s, hs⟩ := insertM_ok fun y hy => hx y ((sortM_perm hsorted).mem_iff.mp hy)
    exact ⟨s, sortM_cons_eq_ok.mpr ⟨sorted, hsorted, hs⟩⟩

theorem insertM_pairwise (htrans : ∀ {a b c}, R a b → R b c → R a c)
    (htrue : ∀ y ∈ l, less y x = .ok true → R y x) (hfalse : ∀ y ∈ l, less y x = .ok false → R x y)
    (hsorted : l.Pairwise R) (h : insertM less x l = .ok s) : s.Pairwise R := by
  induction l generalizing s with
  | nil =>
    obtain rfl := Except.ok.inj h
    exact List.pairwise_singleton _ _
  | cons y l ih =>
    obtain ⟨hytrue, hltrue⟩ := List.forall_mem_cons.mp htrue
    obtain ⟨hyfalse, hlfalse⟩ := List.forall_mem_cons.mp hfalse
    obtain ⟨hy, hl⟩ := List.pairwise_cons.mp hsorted
    obtain ⟨hless, rfl⟩ | ⟨hless, rest, hrest, rfl⟩ := insertM_cons_eq_ok.mp h
    · have hxy := hyfalse hless
      refine List.pairwise_cons.mpr ⟨fun z hz => ?_, hsorted⟩
      rcases List.mem_cons.mp hz with rfl | hz
      · exact hxy
      · exact htrans hxy (hy z hz)
    · refine List.pairwise_cons.mpr ⟨fun z hz => ?_, ih hltrue hlfalse hl hrest⟩
      rcases List.mem_cons.mp ((insertM_perm hrest).mem_iff.mp hz) with rfl | hz
      · exact hytrue hless
      · exact hy z hz

/-- A sort that returns sorts by every transitive relation that its comparisons are about. -/
theorem sortM_pairwise (htrans : ∀ {a b c}, R a b → R b c → R a c)
    (htrue : ∀ a ∈ l, ∀ b ∈ l, less a b = .ok true → R a b)
    (hfalse : ∀ a ∈ l, ∀ b ∈ l, less a b = .ok false → R b a) (h : sortM less l = .ok s) :
    s.Pairwise R := by
  induction l generalizing s with
  | nil =>
    obtain rfl := Except.ok.inj h
    exact List.Pairwise.nil
  | cons x l ih =>
    obtain ⟨sorted, hsorted, hinsert⟩ := sortM_cons_eq_ok.mp h
    have hmem {y : γ} (hy : y ∈ sorted) : y ∈ x :: l :=
      List.mem_cons_of_mem x ((sortM_perm hsorted).mem_iff.mp hy)
    exact insertM_pairwise htrans (fun y hy => htrue y (hmem hy) x List.mem_cons_self)
      (fun y hy => hfalse y (hmem hy) x List.mem_cons_self)
      (ih (fun a ha b hb => htrue a (List.mem_cons_of_mem x ha) b (List.mem_cons_of_mem x hb))
        (fun a ha b hb => hfalse a (List.mem_cons_of_mem x ha) b (List.mem_cons_of_mem x hb)) hsorted)
      hinsert

/-- A sort by a key. -/
theorem sortM_eq (h : ∀ a ∈ l, ∀ b ∈ l, less a b = .ok (decide (key a < key b))) :
    ∃ s, sortM less l = .ok s ∧ s.Perm l ∧ s.Pairwise fun a b => key a ≤ key b := by
  obtain ⟨s, hs⟩ := sortM_ok (List.pairwise_of_forall_mem_list fun a ha b hb => ⟨_, h b hb a ha⟩)
  refine ⟨s, hs, sortM_perm hs, sortM_pairwise le_trans ?_ ?_ hs⟩
  · intro a ha b hb hless
    rw [h a ha b hb] at hless
    exact (of_decide_eq_true (Except.ok.inj hless)).le
  · intro a ha b hb hless
    rw [h a ha b hb] at hless
    exact not_lt.mp (of_decide_eq_false (Except.ok.inj hless))

end SortM

/-! ## Intervals -/

section Intervals

variable {lo hi : α → β} {l : List α}

/-- No point lies in both intervals. -/
def Apart (lo hi : α → β) (a b : α) : Prop := ∀ p, ¬ (lo a ≤ p ∧ p < hi a ∧ lo b ≤ p ∧ p < hi b)

theorem Apart.symm {a b : α} (h : Apart lo hi a b) : Apart lo hi b a :=
  fun p hp => h p ⟨hp.2.2.1, hp.2.2.2, hp.1, hp.2.1⟩

/-- Intervals in the order of their starts are apart if neighbours are. -/
theorem isChain_iff_apart (hproper : ∀ a ∈ l, lo a < hi a) (hsorted : l.Pairwise fun a b => lo a ≤ lo b) :
    l.IsChain (fun a b => hi a ≤ lo b) ↔ l.Pairwise (Apart lo hi) := by
  constructor
  · intro h
    have hchain : l.IsChain fun a b => hi a ≤ lo b ∧ lo b < hi b :=
      h.imp_of_mem_imp fun a b _ hb hle => ⟨hle, hproper b hb⟩
    have htrans : IsTrans α fun a b => hi a ≤ lo b ∧ lo b < hi b :=
      ⟨fun a b c hab hbc => ⟨hab.1.trans (hab.2.le.trans hbc.1), hbc.2⟩⟩
    refine (List.isChain_iff_pairwise.mp hchain).imp ?_
    rintro a b ⟨hle, -⟩ p ⟨-, hpa, hpb, -⟩
    exact (hpa.trans_le (hle.trans hpb)).false
  · intro h
    refine (List.Pairwise.imp_of_mem ?_ (hsorted.and h)).isChain
    intro a b _ hb hab
    by_contra hlt
    exact hab.2 (lo b) ⟨hab.1, not_le.mp hlt, le_rfl, hproper b hb⟩

end Intervals

end Ranking
