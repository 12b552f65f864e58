import Bogbin.Bogvm.CompareLaw
import Bogbin.Bogvm.SwarmBudget

/-!
# The replay of a tournament

A replay accepts what a tournament returns.  For an edited receipt it certifies less: the hash of a
cell covers its failures but not its status, and the selection goes by the status.  A cell is clean
when it has no failures and does not propose to reject, and marked when the replay lets it be
selected.  The certified cell is the best clean one exactly when the marks of the best cell are
right (`RightlyMarked`).
-/

namespace Bogbin.Bogvm

open StateExcept

/-! ## Cells -/

/-- The replay lets the cell be selected. -/
def Marked (cell : Dict) : Prop := replay_eligible cell = .ok true

/-- No failures, and an action other than `reject`. -/
structure Clean (cell : Dict) : Prop where
  failures : Dict.get cell "failures" = some (.arr [])
  action : ∃ action, replayed_action cell = .ok action ∧ action ≠ some (.str "reject")

/-- The proof hash of a cell is that of its fields. -/
def Proved (cell : Dict) : Prop :=
  ∃ proof, replayed_proof cell = .ok proof ∧
    Dict.get cell "proof_sha256" = some (.str (stable_hash (.obj proof)))

section Cells

variable (floats : Floats)

/-- The value of a number other than NaN. -/
def numeral (value : Json) : Number :=
  match number floats value with
  | .ok (some x) => x
  | _ => ⊥

def number_field (cell : Dict) (key : String) : Number :=
  ((Dict.get cell key).map (numeral floats)).getD ⊥

/-- A field that is a number other than NaN. -/
def HasNumber (cell : Dict) (key : String) : Prop :=
  ∃ value, Dict.get cell key = some value ∧
    number floats value = .ok (some (number_field floats cell key))

/-- The score and the cost are numbers. -/
structure Scored (cell : Dict) : Prop where
  score : HasNumber floats cell "score"
  cost : HasNumber floats cell "cost"

/-- `(-score, cost, proof_sha256)` -/
def cell_rank (cell : Dict) : Numberᵒᵈ ×ₗ Number ×ₗ List Char :=
  toLex (OrderDual.toDual (number_field floats cell "score"),
    toLex (number_field floats cell "cost", (text_field cell "proof_sha256").toList))

/-- The cells of the selected hash are clean, and none of the clean cells is better. -/
def Certified (cells : List Dict) (selected : String) : Prop :=
  ∀ c ∈ cells, text_field c "proof_sha256" = selected →
    Clean c ∧ ∀ d ∈ cells, Clean d → cell_rank floats c ≤ cell_rank floats d

/-- No cell is marked, or the best one of those that are marked or clean is both. -/
def RightlyMarked (cells : List Dict) : Prop :=
  (∀ c ∈ cells, ¬ Marked c) ∨
    ∃ c ∈ cells, Marked c ∧ Clean c ∧
      ∀ d ∈ cells, Marked d ∨ Clean d → cell_rank floats c ≤ cell_rank floats d

end Cells

/-- Different proofs of the cells have different hashes. -/
def DistinctProofs (cells : List Dict) : Prop :=
  ∀ c ∈ cells, ∀ d ∈ cells, ∀ p q, replayed_proof c = .ok p → replayed_proof d = .ok q →
    stable_hash (.obj p) = stable_hash (.obj q) → p = q

section Proofs

variable {cell : Dict} {p : Dict}

theorem replayed_proof_eq_ok : replayed_proof cell = .ok p ↔
    ∃ index proposal score cost failures, Dict.get cell "index" = some index ∧
      Dict.get cell "proposal" = some proposal ∧ Dict.get cell "score" = some score ∧
      Dict.get cell "cost" = some cost ∧ Dict.get cell "failures" = some failures ∧
      p = proof_of index proposal score cost failures := by
  unfold replayed_proof
  simp only [bind_eq_ok, Dict.item_eq_ok, Except.ok.injEq]
  constructor
  · rintro ⟨index, hindex, proposal, hproposal, score, hscore, cost, hcost, failures, hfailures, rfl⟩
    exact ⟨index, proposal, score, cost, failures, hindex, hproposal, hscore, hcost, hfailures, rfl⟩
  · rintro ⟨index, proposal, score, cost, failures, hindex, hproposal, hscore, hcost, hfailures, rfl⟩
    exact ⟨index, hindex, proposal, hproposal, score, hscore, cost, hcost, failures, hfailures, rfl⟩

/-- A proof has the fields of its cell. -/
theorem get_replayed_proof (h : replayed_proof cell = .ok p) {key : String}
    (hkey : key ∈ ["index", "proposal", "score", "cost", "failures"]) :
    Dict.get cell key = Dict.get p key := by
  obtain ⟨index, proposal, score, cost, failures, hindex, hproposal, hscore, hcost, hfailures, rfl⟩ :=
    replayed_proof_eq_ok.mp h
  simp only [List.mem_cons, List.not_mem_nil, or_false] at hkey
  rcases hkey with rfl | rfl | rfl | rfl | rfl
  · simp [hindex, proof_of, Dict.of, Dict.get_set]
  · simp [hproposal, proof_of, Dict.of, Dict.get_set]
  · simp [hscore, proof_of, Dict.of, Dict.get_set]
  · simp [hcost, proof_of, Dict.of, Dict.get_set]
  · simp [hfailures, proof_of, Dict.of]

end Proofs

/-- Proved cells of one hash have one evidence. -/
theorem same_evidence {cells : List Dict} (hdistinct : DistinctProofs cells) {c d : Dict}
    (hc : c ∈ cells) (hd : d ∈ cells) (hproved : Proved c) (hproved' : Proved d)
    (hhash : text_field c "proof_sha256" = text_field d "proof_sha256") {key : String}
    (hkey : key ∈ ["index", "proposal", "score", "cost", "failures"]) :
    Dict.get c key = Dict.get d key := by
  obtain ⟨p, hp, hget⟩ := hproved
  obtain ⟨q, hq, hget'⟩ := hproved'
  simp only [text_field, hget, hget'] at hhash
  obtain rfl := hdistinct c hc d hd p q hp hq hhash
  rw [get_replayed_proof hp hkey, get_replayed_proof hq hkey]

section Evidence

variable {floats : Floats} {c d : Dict}
  (hsame : ∀ key ∈ ["index", "proposal", "score", "cost", "failures"], Dict.get c key = Dict.get d key)

include hsame

theorem Clean.of_evidence (h : Clean c) : Clean d := by
  obtain ⟨hfailures, haction⟩ := h
  constructor
  · rw [← hsame "failures" (by simp), hfailures]
  · rwa [replayed_action, ← hsame "proposal" (by simp)]

theorem cell_rank_of_evidence (hhash : text_field c "proof_sha256" = text_field d "proof_sha256") :
    cell_rank floats c = cell_rank floats d := by
  unfold cell_rank number_field
  rw [hsame "score" (by simp), hsame "cost" (by simp), hhash]

end Evidence

/-! ## The sort -/

section Sorted

variable {floats : Floats} {v w : Json} {x y : Number} {c d : Dict} {a b : RankedCell}

theorem same_value_number (hv : number floats v = .ok (some x)) (hw : number floats w = .ok (some y)) :
    same_value floats v w = decide (x = y) := by
  rw [Bool.eq_iff_iff, decide_eq_true_eq, same_value_iff, number_eq_ok.mp hv, number_eq_ok.mp hw]
  simp

theorem less_value_number (hv : number floats v = .ok (some x)) (hw : number floats w = .ok (some y)) :
    less_value floats v w = .ok (decide (x < y)) := less_of_numbers hv hw

theorem same_value_str (s : String) : same_value floats (.str s) w = decide (w = .str s) := by
  cases w with
  | str t => simp [same_value, number, eq_comm]
  | _ => rfl

theorem same_value_null : same_value floats .null w = decide (w = .null) := by
  cases w with
  | null => rfl
  | _ => rfl

/-- The sort key has the numbers and the hash of a cell. -/
structure RankedCell.Ranks (floats : Floats) (a : RankedCell) (c : Dict) : Prop where
  score : a.score = some (number_field floats c "score")
  cost : number floats a.cost = .ok (some (number_field floats c "cost"))
  proof_sha256 : a.proof_sha256 = .str (text_field c "proof_sha256")

theorem ranked_cell_of_scored (hscored : Scored floats c) (hproved : Proved c) :
    ∃ a, ranked_cell floats c = .ok a ∧ a.Ranks floats c := by
  obtain ⟨⟨score, hscore, hx⟩, cost, hcost, hy⟩ := hscored
  obtain ⟨p, -, hhash⟩ := hproved
  refine ⟨⟨some (number_field floats c "score"), cost, .str (stable_hash (.obj p))⟩, ?_, rfl, hy, ?_⟩
  · simp only [ranked_cell, Dict.item, hscore, hcost, hhash, ok_bind, hx]
  · simp only [text_field, hhash]

/-- The comparison of sort keys is that of the ranks. -/
theorem ranked_less_eq (ha : a.Ranks floats c) (hb : b.Ranks floats d) :
    ranked_less floats a b = .ok (decide (cell_rank floats c < cell_rank floats d)) := by
  have hhash : same_value floats (.str (text_field c "proof_sha256"))
        (.str (text_field d "proof_sha256")) =
      decide (text_field c "proof_sha256" = text_field d "proof_sha256") := by
    rw [same_value_str]
    exact decide_eq_decide.mpr ⟨fun h => (Json.str.inj h).symm, fun h => by rw [h]⟩
  unfold ranked_less
  rw [ha.score, hb.score, ha.proof_sha256, hb.proof_sha256, less_items, less_items, hhash,
    same_value_number ha.cost hb.cost, less_value_number ha.cost hb.cost]
  simp only [cell_rank, Prod.Lex.toLex_lt_toLex, OrderDual.toDual_lt_toDual, OrderDual.toDual_inj,
    Option.some_inj, decide_eq_true_eq, exceeds, less_value, less_items]
  by_cases hscore : number_field floats c "score" = number_field floats d "score"
  · by_cases hcost : number_field floats c "cost" = number_field floats d "cost"
    · by_cases heq : text_field c "proof_sha256" = text_field d "proof_sha256"
      · simp [hscore, hcost, heq]
      · simp [hscore, hcost, heq]
    · simp [hscore, hcost]
  · simp [hscore]

/-- The rank that a sort key stands for. -/
def RankedCell.rank (floats : Floats) (a : RankedCell) : Numberᵒᵈ ×ₗ Number ×ₗ List Char :=
  toLex (OrderDual.toDual (a.score.getD ⊥),
    toLex (numeral floats a.cost, match a.proof_sha256 with | .str s => s.toList | _ => []))

theorem RankedCell.Ranks.rank_eq (h : a.Ranks floats c) : a.rank floats = cell_rank floats c := by
  unfold RankedCell.rank cell_rank numeral
  rw [h.score, h.cost, h.proof_sha256, Option.getD_some]

/-- The sort of scored cells; its first cell is least. -/
theorem sorted_cells {cells : List Dict} (hscored : ∀ c ∈ cells, Scored floats c)
    (hproved : ∀ c ∈ cells, Proved c) :
    ∃ ranked sorted, cells.mapM (ranked_cell floats) = .ok ranked ∧
      Ranking.sortM (ranked_less floats) ranked = .ok sorted ∧
      (sorted.head? = none → cells = []) ∧
      ∀ a, sorted.head? = some a → ∃ c ∈ cells, a.Ranks floats c ∧
        ∀ d ∈ cells, cell_rank floats c ≤ cell_rank floats d := by
  obtain ⟨ranked, hranked, hrelated⟩ := exists_mapM_forall₂ fun c hc =>
    ranked_cell_of_scored (hscored c hc) (hproved c hc)
  have hranks := forall₂_mem hrelated
  obtain ⟨sorted, hsorted, hperm, hpairwise⟩ := @Ranking.sortM_eq _ _ _ _ (RankedCell.rank floats)
    (ranked_less floats) ranked fun a ha b hb => by
      obtain ⟨c, -, hc⟩ := hranks a ha
      obtain ⟨d, -, hd⟩ := hranks b hb
      rw [ranked_less_eq hc hd, hc.rank_eq, hd.rank_eq]
  refine ⟨ranked, sorted, hranked, hsorted, fun hnone => ?_, fun a ha => ?_⟩
  · have hlength := hrelated.length_eq
    rw [← hperm.length_eq, List.head?_eq_none_iff.mp hnone] at hlength
    exact List.length_eq_zero_iff.mp hlength
  · obtain ⟨hmem, hleast⟩ := Ranking.head_of_sorted hpairwise ha
    obtain ⟨c, hc, hrank⟩ := hranks a (hperm.mem_iff.mp hmem)
    refine ⟨c, hc, hrank, fun d hd => ?_⟩
    obtain ⟨b, hb, hbd⟩ := exists_of_mapM_eq_ok hranked hd
    obtain ⟨b', hbd', hrank'⟩ := ranked_cell_of_scored (hscored d hd) (hproved d hd)
    obtain rfl := Except.ok.inj (hbd.symm.trans hbd')
    rw [← hrank.rank_eq, ← hrank'.rank_eq]
    exact hleast b (hperm.mem_iff.mpr hb)

end Sorted

/-! ## The verdict of a replay -/

section Verdict

variable {floats : Floats} {receipt c : Dict} {cells : List Dict}

theorem replay_cell_of_proved (h : Proved c) : replay_cell (.obj c) = .ok (c, []) := by
  obtain ⟨p, hp, hhash⟩ := h
  unfold replay_cell
  rw [as_mapping, ok_bind, hp, ok_bind, failure_if_eq_nil.mpr (not_not.mpr hhash)]

theorem proved_of_replay_cell {cell : Json} (h : replay_cell cell = .ok (c, [])) :
    cell = .obj c ∧ Proved c := by
  obtain ⟨fields, hfields, h⟩ := bind_eq_ok.mp h
  obtain ⟨p, hp, h⟩ := bind_eq_ok.mp h
  obtain ⟨rfl, hfailures⟩ := Prod.mk.inj (Except.ok.inj h)
  refine ⟨?_, p, hp, not_not.mp (failure_if_eq_nil.mp hfailures)⟩
  cases cell with
  | obj fields =>
    obtain rfl := Except.ok.inj hfields
    rfl
  | _ => cases hfields

/-- The selection of the best marked cell. -/
def SelectsMarked (floats : Floats) (cells : List Dict) (selected : Json) : Prop :=
  ((∀ c ∈ cells, ¬ Marked c) ∧ selected = .null) ∨
    ∃ c ∈ cells, Marked c ∧ selected = .str (text_field c "proof_sha256") ∧
      ∀ d ∈ cells, Marked d → cell_rank floats c ≤ cell_rank floats d

theorem text_of_rank_eq {d : Dict} (h : cell_rank floats c = cell_rank floats d) :
    text_field c "proof_sha256" = text_field d "proof_sha256" := by
  have hrest := congrArg (fun r => (ofLex (ofLex r).2).2) h
  exact String.toList_injective hrest

/-- A replay of proved cells accepts the selection of the best marked one. -/
theorem replay_swarm_iff (hcells : receipt_cells receipt = .ok (cells.map Json.obj))
    (hproved : ∀ c ∈ cells, Proved c) (heligible : ∀ c ∈ cells, ∃ b, replay_eligible c = .ok b)
    (hscored : ∀ c ∈ cells, Marked c → Scored floats c) :
    replay_swarm floats receipt = .ok [] ↔
      SelectsMarked floats cells ((Dict.get receipt "selected_proof_sha256").getD .null) := by
  let marked (c : Dict) : Bool := match replay_eligible c with
    | .ok b => b
    | .error _ => false
  have hmarked : ∀ c ∈ cells, replay_eligible c = .ok (marked c) := by
    intro c hc
    obtain ⟨b, hb⟩ := heligible c hc
    simp only [marked, hb]
  have hmem (c : Dict) : c ∈ cells.filter marked ↔ c ∈ cells ∧ Marked c := by
    rw [List.mem_filter]
    refine and_congr_right fun hc => ?_
    rw [Marked, hmarked c hc]
    exact ⟨fun h => by rw [h], fun h => Except.ok.inj h⟩
  have hchecked : (cells.map Json.obj).mapM replay_cell = .ok (cells.map fun c => (c, [])) := by
    rw [List.mapM_map]
    exact mapM_eq_map fun c hc => replay_cell_of_proved (hproved c hc)
  obtain ⟨ranked, sorted, hranked, hsorted, hnone, hsome⟩ := sorted_cells
    (fun c hc => hscored c ((hmem c).mp hc).1 ((hmem c).mp hc).2)
    (fun c hc => hproved c ((hmem c).mp hc).1)
  have hselects : replay_swarm floats receipt = .ok [] ↔
      same_value floats ((sorted.head?.map RankedCell.proof_sha256).getD .null)
        ((Dict.get receipt "selected_proof_sha256").getD .null) = true := by
    have hfst : (cells.map fun c => ((c, []) : Dict × List Failure)).map Prod.fst = cells := by
      rw [List.map_map]
      exact List.map_id cells
    have hsnd : (cells.map fun c => ((c, []) : Dict × List Failure)).flatMap Prod.snd = [] := by
      rw [List.flatMap_map]
      exact List.flatMap_eq_nil_iff.mpr fun _ _ => rfl
    unfold replay_swarm
    rw [hcells, ok_bind, hchecked, ok_bind, hfst, hsnd, filterM_eq hmarked, ok_bind, hranked, ok_bind,
      hsorted, ok_bind]
    dsimp only
    rw [List.nil_append, Except.ok.injEq, failure_if_eq_nil, Bool.not_eq_false]
  rw [hselects]
  cases hhead : sorted.head? with
  | none =>
    have hempty := hnone hhead
    have hnull : same_value floats .null ((Dict.get receipt "selected_proof_sha256").getD .null) =
        decide ((Dict.get receipt "selected_proof_sha256").getD .null = .null) :=
      same_value_null
    have hunmarked : ∀ c ∈ cells, ¬ Marked c := by
      intro c hc hm
      have hin := (hmem c).mpr ⟨hc, hm⟩
      rw [hempty] at hin
      exact absurd hin List.not_mem_nil
    show same_value floats .null _ = true ↔ _
    rw [hnull, decide_eq_true_eq]
    constructor
    · exact fun h => .inl ⟨hunmarked, h⟩
    · rintro (⟨-, h⟩ | ⟨c, hc, hm, -⟩)
      · exact h
      · exact absurd hm (hunmarked c hc)
  | some a =>
    obtain ⟨c, hc, hrank, hleast⟩ := hsome a hhead
    obtain ⟨hin, hm⟩ := (hmem c).mp hc
    have hbest : ∀ d ∈ cells, Marked d → cell_rank floats c ≤ cell_rank floats d :=
      fun d hd hm' => hleast d ((hmem d).mpr ⟨hd, hm'⟩)
    show same_value floats a.proof_sha256 _ = true ↔ _
    rw [hrank.proof_sha256, same_value_str, decide_eq_true_eq]
    constructor
    · exact fun h => .inr ⟨c, hin, hm, h, hbest⟩
    · rintro (⟨hunmarked, -⟩ | ⟨d, hd, hm', h, hbest'⟩)
      · exact absurd hm (hunmarked c hin)
      · -- two least cells have one rank, and so one hash
        rw [h, text_of_rank_eq (le_antisymm (hbest d hd hm') (hbest' c hin hm))]

/-- The cells of an accepted receipt are proved, and each of them could be judged. -/
theorem proved_of_accepted (h : replay_swarm floats receipt = .ok [])
    (hcells : receipt_cells receipt = .ok (cells.map Json.obj)) :
    (∀ c ∈ cells, Proved c) ∧ ∀ c ∈ cells, ∃ b, replay_eligible c = .ok b := by
  unfold replay_swarm at h
  rw [hcells, ok_bind] at h
  obtain ⟨checked, hchecked, h⟩ := bind_eq_ok.mp h
  obtain ⟨eligible, heligible, h⟩ := bind_eq_ok.mp h
  obtain ⟨ranked, -, h⟩ := bind_eq_ok.mp h
  obtain ⟨sorted, -, h⟩ := bind_eq_ok.mp h
  have hnil := (List.append_eq_nil_iff.mp (Except.ok.inj h)).1
  have hproved : ∀ c ∈ cells, (c, []) ∈ checked ∧ Proved c := by
    intro c hc
    obtain ⟨⟨fields, failures⟩, hmem, hreplay⟩ :=
      exists_of_mapM_eq_ok hchecked (List.mem_map_of_mem hc)
    obtain rfl : failures = [] := List.flatMap_eq_nil_iff.mp hnil _ hmem
    obtain ⟨heq, hproved⟩ := proved_of_replay_cell hreplay
    obtain rfl := Json.obj.inj heq
    exact ⟨hmem, hproved⟩
  refine ⟨fun c hc => (hproved c hc).2, fun c hc => ?_⟩
  exact forall_of_filterM_eq_ok heligible c (List.mem_map_of_mem (hproved c hc).1)

/-- An accepted receipt certifies the best clean cell exactly when the best cell is rightly marked. -/
theorem certified_iff (haccepted : replay_swarm floats receipt = .ok [])
    (hcells : receipt_cells receipt = .ok (cells.map Json.obj))
    (hscored : ∀ c ∈ cells, Scored floats c) (hdistinct : DistinctProofs cells) :
    (∀ selected, Dict.get receipt "selected_proof_sha256" = some (.str selected) →
      Certified floats cells selected) ↔ RightlyMarked floats cells := by
  obtain ⟨hproved, heligible⟩ := proved_of_accepted haccepted hcells
  have hselects := (replay_swarm_iff hcells hproved heligible fun c hc _ => hscored c hc).mp haccepted
  constructor
  · intro hcertified
    rcases hselects with ⟨hunmarked, -⟩ | ⟨c, hc, hm, hselected, hbest⟩
    · exact .inl hunmarked
    · have hget : Dict.get receipt "selected_proof_sha256" =
          some (.str (text_field c "proof_sha256")) := by
        cases hget : Dict.get receipt "selected_proof_sha256" with
        | none =>
          rw [hget] at hselected
          cases hselected
        | some value =>
          rw [hget] at hselected
          exact congrArg some hselected
      obtain ⟨hclean, hleast⟩ := hcertified _ hget c hc rfl
      refine .inr ⟨c, hc, hm, hclean, fun d hd hd' => ?_⟩
      exact hd'.elim (hbest d hd) (hleast d hd)
  · rintro (hunmarked | ⟨w, hw, hm, hclean, hleast⟩) selected hget
    · rcases hselects with ⟨-, hnull⟩ | ⟨c, hc, hm, -⟩
      · rw [hget] at hnull
        cases hnull
      · exact absurd hm (hunmarked c hc)
    · rcases hselects with ⟨hunmarked, -⟩ | ⟨c, hc, hm', hselected, hbest⟩
      · exact absurd hm (hunmarked w hw)
      rw [hget] at hselected
      obtain rfl : selected = text_field c "proof_sha256" := Json.str.inj hselected
      have htext := text_of_rank_eq (le_antisymm (hbest w hw hm) (hleast c hc (.inl hm')))
      intro d hd hd'
      have hsame : ∀ key ∈ ["index", "proposal", "score", "cost", "failures"],
          Dict.get w key = Dict.get d key := fun key hkey =>
        same_evidence hdistinct hw hd (hproved w hw) (hproved d hd) (htext.symm.trans hd'.symm) hkey
      refine ⟨hclean.of_evidence hsame, fun e he he' => ?_⟩
      rw [← cell_rank_of_evidence hsame (htext.symm.trans hd'.symm)]
      exact hleast e he (.inr he')

end Verdict

/-! ## The receipt of a tournament -/

section Complete

variable {floats : Floats} {keys : Keys} {hypothesis : String} {candidates : List Dict} {budget : Dict}
  {g g' : Genesis} {receipt : Dict} {cells : List Cell} {c d : Cell}

theorem get_cell_receipt (c : Cell) : Dict.get c.receipt "index" = some (.int c.index) ∧
    Dict.get c.receipt "proposal" = some (.obj c.proposal) ∧
    Dict.get c.receipt "score" = some (.int c.score) ∧
    Dict.get c.receipt "cost" = some (.int c.cost) ∧
    Dict.get c.receipt "failures" = some (failures_json c.failures) ∧
    Dict.get c.receipt "proof_sha256" = some (.str c.proof_sha256) ∧
    Dict.get c.receipt "execution_status" = some (.str (execution_status c.failures)) := by
  simp [Cell.receipt, Dict.of, Dict.get_set]

theorem proved_cell_receipt (c : Cell) : Proved c.receipt := by
  obtain ⟨hindex, hproposal, hscore, hcost, hfailures, hhash, -⟩ := get_cell_receipt c
  exact ⟨c.proof, replayed_proof_eq_ok.mpr ⟨_, _, _, _, _, hindex, hproposal, hscore, hcost,
    hfailures, rfl⟩, hhash⟩

theorem replay_eligible_receipt (c : Cell) : replay_eligible c.receipt = .ok c.eligible := by
  obtain ⟨-, hproposal, -, -, -, -, hstatus⟩ := get_cell_receipt c
  unfold replay_eligible replayed_action Cell.eligible Cell.completed
  rw [hproposal, hstatus]
  by_cases hcompleted : execution_status c.failures = "completed"
  · simp [hcompleted, as_dict]
  · simp [hcompleted]

theorem marked_receipt : Marked c.receipt ↔ c.eligible = true := by
  rw [Marked, replay_eligible_receipt, Except.ok.injEq]

theorem scored_receipt (floats : Floats) (c : Cell) : Scored floats c.receipt := by
  obtain ⟨-, -, hscore, hcost, -, -, -⟩ := get_cell_receipt c
  constructor
  · refine ⟨_, hscore, ?_⟩
    rw [number_field, hscore]
    rfl
  · refine ⟨_, hcost, ?_⟩
    rw [number_field, hcost]
    rfl

theorem cell_rank_receipt_le : cell_rank floats c.receipt ≤ cell_rank floats d.receipt ↔ c.key ≤ d.key := by
  have hfields (c : Cell) : cell_rank floats c.receipt =
      toLex (OrderDual.toDual (Number.of_int c.score),
        toLex (Number.of_int c.cost, c.proof_sha256.toList)) := by
    obtain ⟨-, -, hscore, hcost, -, hhash, -⟩ := get_cell_receipt c
    simp only [cell_rank, number_field, text_field, hscore, hcost, hhash]
    rfl
  have hlt (n m : ℤ) : Number.of_int n < Number.of_int m ↔ n < m := by
    rw [Number.of_int, Number.of_int, WithBot.coe_lt_coe, WithTop.coe_lt_coe, Int.cast_lt]
  have heq (n m : ℤ) : Number.of_int n = Number.of_int m ↔ n = m := by
    rw [Number.of_int, Number.of_int, WithBot.coe_inj, WithTop.coe_inj, Int.cast_inj]
  rw [hfields, hfields, Cell.key, Cell.key]
  simp only [Prod.Lex.toLex_le_toLex, OrderDual.toDual_lt_toDual, OrderDual.toDual_inj, hlt, heq,
    neg_lt_neg_iff, neg_inj]

/-- A tournament selects the best of its marked cells. -/
theorem selects_best_cell (cells : List Cell) :
    SelectsMarked floats (cells.map Cell.receipt) (opt_str ((best_cell cells).map Cell.proof_sha256)) := by
  cases hbest : best_cell cells with
  | none =>
    refine .inl ⟨fun c hc hm => ?_, rfl⟩
    obtain ⟨c, hmem, rfl⟩ := List.mem_map.mp hc
    rw [marked_receipt, best_cell_eq_none hbest c hmem] at hm
    cases hm
  | some c =>
    obtain ⟨hmem, heligible, hleast⟩ := best_cell_eq_some hbest
    obtain ⟨-, -, -, -, -, hhash, -⟩ := get_cell_receipt c
    refine .inr ⟨c.receipt, List.mem_map_of_mem hmem, marked_receipt.mpr heligible, ?_, fun d hd hm => ?_⟩
    · rw [text_field, hhash]
      rfl
    · obtain ⟨d, hmem', rfl⟩ := List.mem_map.mp hd
      exact cell_rank_receipt_le.mpr (hleast d hmem' (marked_receipt.mp hm))

/-- A replay accepts the receipt of a tournament. -/
theorem replay_of_tournament
    (h : tournament floats keys hypothesis candidates budget g = .ok receipt g') :
    replay_swarm floats receipt = .ok [] := by
  unfold tournament at h
  dsimp only at h
  obtain ⟨taken, -, h⟩ := ofExcept_bind_eq_ok.mp h
  obtain ⟨cells, -, h⟩ := ofExcept_bind_eq_ok.mp h
  obtain ⟨admission, g₁, -, h⟩ := StateExcept.bind_eq_ok.mp h
  obtain ⟨htree, hselected⟩ := get_swarm_receipt (record_entry_eq_ok.mp h)
  have hcells : receipt_cells receipt = .ok ((cells.map Cell.receipt).map Json.obj) := by
    rw [receipt_cells, htree, List.map_map]
    rfl
  refine (replay_swarm_iff hcells ?_ ?_ ?_).mpr ?_
  · exact List.forall_mem_map.mpr fun c _ => proved_cell_receipt c
  · exact List.forall_mem_map.mpr fun c _ => ⟨_, replay_eligible_receipt c⟩
  · exact List.forall_mem_map.mpr fun c _ _ => scored_receipt floats c
  · rw [hselected]
    exact selects_best_cell cells

end Complete

/-- A replay accepts every receipt of a tournament, and what it certifies of an edited one is right
exactly when the best cell is rightly marked. -/
theorem swarm_replay_iff (floats : Floats) (keys : Keys) :
    (∀ hypothesis candidates budget g receipt g',
      tournament floats keys hypothesis candidates budget g = .ok receipt g' →
        replay_swarm floats receipt = .ok []) ∧
    ∀ receipt cells, replay_swarm floats receipt = .ok [] →
      receipt_cells receipt = .ok (cells.map Json.obj) → (∀ c ∈ cells, Scored floats c) →
      DistinctProofs cells →
        ((∀ selected, Dict.get receipt "selected_proof_sha256" = some (.str selected) →
          Certified floats cells selected) ↔ RightlyMarked floats cells) :=
  ⟨fun _ _ _ _ _ _ h => replay_of_tournament h, fun _ _ => certified_iff⟩

/-! ## An edited receipt -/

/-- A cell whose status is edited. -/
def edited_cell (c : Cell) : Dict := Dict.set c.receipt "execution_status" (.str "completed")

/-- A receipt that names an edited cell. -/
def edited_receipt (c : Cell) : Dict :=
  Dict.of [("hypothesis_tree", .arr [.obj (edited_cell c)]),
    ("selected_proof_sha256", .str c.proof_sha256)]

section Edited

variable {floats : Floats} {c : Cell}

theorem get_edited_cell {key : String} (hkey : key ≠ "execution_status") :
    Dict.get (edited_cell c) key = Dict.get c.receipt key :=
  Dict.get_set_of_ne (Ne.symm hkey)

theorem proved_edited_cell : Proved (edited_cell c) := by
  obtain ⟨hindex, hproposal, hscore, hcost, hfailures, hhash, -⟩ := get_cell_receipt c
  refine ⟨c.proof, replayed_proof_eq_ok.mpr ⟨_, _, _, _, _, ?_, ?_, ?_, ?_, ?_, rfl⟩, ?_⟩
  · rw [get_edited_cell (by decide), hindex]
  · rw [get_edited_cell (by decide), hproposal]
  · rw [get_edited_cell (by decide), hscore]
  · rw [get_edited_cell (by decide), hcost]
  · rw [get_edited_cell (by decide), hfailures]
  · rw [get_edited_cell (by decide), hhash]
    rfl

theorem scored_edited_cell : Scored floats (edited_cell c) := by
  obtain ⟨hscore, hcost⟩ := scored_receipt floats c
  constructor
  · rw [HasNumber, number_field, get_edited_cell (by decide)]
    exact hscore
  · rw [HasNumber, number_field, get_edited_cell (by decide)]
    exact hcost

theorem marked_edited_cell (haction : Dict.get c.proposal "action" ≠ some (.str "reject")) :
    Marked (edited_cell c) := by
  obtain ⟨-, hproposal, -⟩ := get_cell_receipt c
  unfold Marked replay_eligible replayed_action
  rw [@get_edited_cell c "proposal" (by decide), hproposal, edited_cell, Dict.get_set_self]
  simp [as_dict, haction]

theorem replay_edited (haction : Dict.get c.proposal "action" ≠ some (.str "reject")) :
    replay_swarm floats (edited_receipt c) = .ok [] := by
  have hcells : receipt_cells (edited_receipt c) = .ok ([edited_cell c].map Json.obj) := by
    simp [receipt_cells, edited_receipt, Dict.of, Dict.get_set]
  have hmarked := marked_edited_cell haction
  refine (replay_swarm_iff hcells ?_ ?_ ?_).mpr (.inr ⟨_, List.mem_singleton_self _, hmarked, ?_, ?_⟩)
  · exact List.forall_mem_singleton.mpr proved_edited_cell
  · exact List.forall_mem_singleton.mpr ⟨true, hmarked⟩
  · exact List.forall_mem_singleton.mpr fun _ => scored_edited_cell
  · obtain ⟨-, -, -, -, -, hhash, -⟩ := get_cell_receipt c
    simp [edited_receipt, Dict.of, text_field, get_edited_cell, hhash]
  · exact List.forall_mem_singleton.mpr fun _ => le_rfl

end Edited

/-- A cell that is blocked by its cost. -/
def blocked_cell : Cell :=
  ⟨1, write_proposal "a" 20000, 1, 20000, [(.str "1", "candidate exceeds swarm cost budget")]⟩

/-- The blocked cell is edited to be completed, and the replay certifies it as the winner. -/
theorem blocked_cell_certified :
    replay_swarm (fun _ => none) (edited_receipt blocked_cell) = .ok [] ∧
      receipt_cells (edited_receipt blocked_cell) = .ok [.obj (edited_cell blocked_cell)] ∧
      Dict.get (edited_receipt blocked_cell) "selected_proof_sha256" =
        some (.str blocked_cell.proof_sha256) ∧
      text_field (edited_cell blocked_cell) "proof_sha256" = blocked_cell.proof_sha256 ∧
      ¬ Certified (fun _ => none) [edited_cell blocked_cell] blocked_cell.proof_sha256 := by
  obtain ⟨-, -, -, -, hfailures, hhash, -⟩ := get_cell_receipt blocked_cell
  have hselected : text_field (edited_cell blocked_cell) "proof_sha256" = blocked_cell.proof_sha256 := by
    rw [text_field, get_edited_cell (by decide), hhash]
  refine ⟨replay_edited ?_, ?_, ?_, hselected, fun hcertified => ?_⟩
  · simp [blocked_cell, write_proposal, Dict.of, Dict.get_set]
  · simp [receipt_cells, edited_receipt, Dict.of, Dict.get_set]
  · simp [edited_receipt, Dict.of]
  · obtain ⟨hclean, -⟩ := hcertified _ (List.mem_singleton_self _) hselected
    have hnil := hclean.failures
    rw [get_edited_cell (by decide), hfailures] at hnil
    simp [blocked_cell, failures_json] at hnil

end Bogbin.Bogvm
