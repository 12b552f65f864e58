import Bogbin.Bogvm.MeshStore
import Bogbin.Library.Ranking
import Mathlib.Data.Prod.Lex

/-!
# The policy of a context

The claims of a context that all have a value and an authority other than NaN give a lawful outcome
(`outcome_of_lawful`): they converge on one value, or the value that outweighs the others wins, or
the context is split.
-/

namespace Bogbin.Bogvm

open Grouping Ranking StateExcept

/-! ## What the claims say -/

/-- A claim with the fields that a resolution reads, its authority a number. -/
structure ClaimUsable (floats : Floats) (claim : Dict) : Prop where
  context : ∃ context, Dict.get claim "context" = some context
  value : ∃ value, Dict.get claim "value" = some value
  authority : ∃ authority x, Dict.get claim "authority" = some authority ∧
    number floats authority = .ok (some x)

/-- The canonical text of the context of a claim. -/
def context_text (claim : Dict) : List Char := ((Dict.get claim "context").getD .null).dumps

def value_of (claim : Dict) : Json := (Dict.get claim "value").getD .null

def value_key (claim : Dict) : String := stable_hash (.obj [("value", value_of claim)])

/-- The number of an authority. -/
def number_of (floats : Floats) (authority : Json) : Number :=
  match number floats authority with
  | .ok (some x) => x
  | _ => ⊥

def authority_of (floats : Floats) (claim : Dict) : Number :=
  number_of floats ((Dict.get claim "authority").getD .null)

def support_of (claim : Dict) : ℤ := (support_value claim).getD 0

/-- The claims for a value. -/
def supporters (claims : List Dict) (value : Json) : List Dict :=
  claims.filter fun claim => value_of claim = value

/-- The authority of a value, and then its total support. -/
def weight (floats : Floats) (claims : List Dict) (value : Json) : Number ×ₗ ℤ :=
  toLex (top (authority_of floats) (supporters claims value),
    ((supporters claims value).map support_of).sum)

/-- The claims agree on the value. -/
def OneValue (claims : List Dict) : Prop :=
  ∀ c ∈ claims, ∀ c' ∈ claims, value_of c = value_of c'

/-- The value that outweighs all the others. -/
def Outweighs (floats : Floats) (claims : List Dict) (value : Json) : Prop :=
  Dominant (weight floats claims) (claims.map value_of) value

/-- The outcome for the claims of a context. -/
structure LawfulOutcome (floats : Floats) (claims : List Dict) (outcome : MeshOutcome) : Prop where
  converge : OneValue claims → outcome.policy = "converge" ∧
    ∃ x, outcome.selected = some x ∧ ∀ c ∈ claims, value_of c = x.value
  winner : ¬OneValue claims → ∀ value, Outweighs floats claims value →
    outcome.policy = "winner" ∧ ∃ x, outcome.selected = some x ∧ x.value = value
  split : ¬OneValue claims → (¬∃ value, Outweighs floats claims value) →
    outcome.policy = "split" ∧ outcome.selected = none

/-- No two values of these claims have one hash. -/
def DistinctValues (claims : List Dict) : Prop :=
  ∀ c ∈ claims, ∀ c' ∈ claims, value_key c = value_key c' → value_of c = value_of c'

section Usable

variable {floats : Floats} {claim : Dict} {claims : List Dict}

theorem ClaimUsable.item_context (h : ClaimUsable floats claim) :
    ∃ context, Dict.item claim "context" = .ok context ∧ context.dumps = context_text claim := by
  obtain ⟨context, hget⟩ := h.context
  refine ⟨context, Dict.item_eq_ok.mpr hget, ?_⟩
  rw [context_text, hget]
  rfl

theorem ClaimUsable.context_key (h : ClaimUsable floats claim) :
    context_key claim = .ok (context_text claim) := by
  obtain ⟨context, hitem, htext⟩ := h.item_context
  rw [Bogvm.context_key, hitem, ok_bind, htext]

theorem ClaimUsable.item_value (h : ClaimUsable floats claim) :
    Dict.item claim "value" = .ok (value_of claim) := by
  obtain ⟨value, hget⟩ := h.value
  rw [value_of, hget]
  exact Dict.item_eq_ok.mpr hget

theorem ClaimUsable.value_hash (h : ClaimUsable floats claim) :
    value_hash claim = .ok (value_key claim) := by
  rw [Bogvm.value_hash, h.item_value, ok_bind]
  rfl

theorem ClaimUsable.item_authority (h : ClaimUsable floats claim) :
    ∃ authority, Dict.item claim "authority" = .ok authority ∧
      number floats authority = .ok (some (authority_of floats claim)) := by
  obtain ⟨authority, x, hget, hnumber⟩ := h.authority
  refine ⟨authority, Dict.item_eq_ok.mpr hget, ?_⟩
  rw [authority_of, hget, Option.getD_some, number_of, hnumber]

/-! ## The greatest authority -/

theorem foldlM_greater {authorities : List Json} {current : Json} {x : Number}
    (hcurrent : number floats current = .ok (some x))
    (h : ∀ a ∈ authorities, number floats a = .ok (some (number_of floats a))) :
    ∃ authority, authorities.foldlM (greater floats) current = .ok authority ∧
      number floats authority = .ok (some (authorities.foldl (fun x a => max x (number_of floats a)) x)) := by
  induction authorities generalizing current x with
  | nil => exact ⟨current, rfl, hcurrent⟩
  | cons a rest ih =>
    obtain ⟨ha, hrest⟩ := List.forall_mem_cons.mp h
    have hstep : greater floats current a =
        .ok (if x < number_of floats a then a else current) := by
      unfold greater
      rw [ha, ok_bind, hcurrent, ok_bind]
      simp [exceeds]
    rw [List.foldlM_cons, hstep, ok_bind, List.foldl_cons]
    by_cases hlt : x < number_of floats a
    · rw [if_pos hlt, max_eq_right hlt.le]
      exact ih ha hrest
    · rw [if_neg hlt, max_eq_left (not_lt.mp hlt)]
      exact ih hcurrent hrest

theorem max_number_eq {authorities : List Json} (hne : authorities ≠ [])
    (h : ∀ a ∈ authorities, number floats a = .ok (some (number_of floats a))) :
    ∃ authority, max_number floats authorities = .ok authority ∧
      number floats authority = .ok (some (top (number_of floats) authorities)) := by
  cases authorities with
  | nil => exact absurd rfl hne
  | cons first rest =>
    obtain ⟨hfirst, hrest⟩ := List.forall_mem_cons.mp h
    obtain ⟨authority, hfold, hnumber⟩ := foldlM_greater hfirst hrest
    refine ⟨authority, ?_, ?_⟩
    · rw [max_number, hfirst]
      exact hfold
    · rw [hnumber, foldl_max, top_cons]

/-- The authorities of usable claims. -/
theorem mapM_authority (h : ∀ c ∈ claims, ClaimUsable floats c) :
    ∃ authorities, claims.mapM (fun c => Dict.item c "authority") = .ok authorities ∧
      (∀ a ∈ authorities, number floats a = .ok (some (number_of floats a))) ∧
      top (number_of floats) authorities = top (authority_of floats) claims ∧
      authorities.length = claims.length := by
  induction claims with
  | nil => exact ⟨[], rfl, nofun, rfl, rfl⟩
  | cons c rest ih =>
    obtain ⟨hc, hrest⟩ := List.forall_mem_cons.mp h
    obtain ⟨authorities, hmap, hnumbers, htop, hlength⟩ := ih hrest
    obtain ⟨a, hitem, hnumber⟩ := hc.item_authority
    have hof : number_of floats a = authority_of floats c := by
      rw [number_of, hnumber]
    refine ⟨a :: authorities, ?_, List.forall_mem_cons.mpr ⟨by rw [hnumber, hof], hnumbers⟩, ?_, ?_⟩
    · rw [List.mapM_cons, hitem, ok_bind, hmap, ok_bind]
      rfl
    · rw [top_cons, top_cons, htop, hof]
    · rw [List.length_cons, List.length_cons, hlength]

end Usable

/-! ## The candidates -/

/-- The candidate stands for a value of the claims. -/
structure StandsFor (floats : Floats) (claims : List Dict) (x : Candidate) : Prop where
  value : ∃ c ∈ claims, x.value = value_of c ∧ value_key c = x.value_hash
  weight_eq : ∃ a, authority_value floats x = some a ∧
    toLex (a, x.pressure) = weight floats claims x.value

section Candidates

variable {floats : Floats} {claims : List Dict} {candidates : List Candidate}

theorem filter_value_key (hdistinct : DistinctValues claims) {c : Dict} (hc : c ∈ claims) :
    claims.filter (fun c' => value_key c' = value_key c) = supporters claims (value_of c) := by
  apply List.filter_congr
  intro c' hc'
  apply decide_eq_decide.mpr
  constructor
  · exact hdistinct c' hc' c hc
  · intro hvalue
    rw [value_key, value_key, hvalue]

theorem candidate_of_eq (h : ∀ c ∈ claims, ClaimUsable floats c) (hdistinct : DistinctValues claims)
    {group : String × List Dict} (hgroup : group ∈ group_by (claims.map fun c => (value_key c, c))) :
    ∃ x, candidate_of floats group = .ok x ∧ StandsFor floats claims x ∧ x.value_hash = group.1 := by
  obtain ⟨hash, group⟩ := group
  obtain ⟨hkey, rfl⟩ := mem_group_by.mp hgroup
  have hne := values_ne_nil hkey
  rw [values_keyed] at hne ⊢
  cases hfilter : claims.filter (fun c => value_key c = hash) with
  | nil => exact absurd hfilter hne
  | cons first rest =>
    have hmem (c : Dict) (hc : c ∈ first :: rest) : c ∈ claims ∧ value_key c = hash := by
      rw [← hfilter] at hc
      exact ⟨(List.mem_filter.mp hc).1, of_decide_eq_true (List.mem_filter.mp hc).2⟩
    obtain ⟨hfirst, hhash⟩ := hmem first List.mem_cons_self
    have hsupporters : supporters claims (value_of first) = first :: rest := by
      rw [← filter_value_key hdistinct hfirst, hhash, hfilter]
    obtain ⟨authorities, hmap, hnumbers, htop, hlength⟩ :=
      @mapM_authority floats _ fun c hc => h c (hmem c hc).1
    have hnil : authorities ≠ [] := by
      rintro rfl
      cases hlength
    obtain ⟨authority, hmax, hauthority⟩ := max_number_eq hnil hnumbers
    refine ⟨⟨hash, value_of first, ((first :: rest).map support_of).sum, authority,
      ((first :: rest).map claim_id).mergeSort fun a b => a.dumps ≤ b.dumps⟩, ?_,
      ⟨⟨first, hfirst, rfl, hhash⟩, top (authority_of floats) (first :: rest), ?_, ?_⟩, rfl⟩
    · dsimp only [candidate_of]
      rw [(h first hfirst).item_value, ok_bind, hmap, ok_bind, hmax, ok_bind]
      rfl
    · rw [authority_value, hauthority, htop]
    · show toLex (_, _) = weight floats claims (value_of first)
      unfold weight
      rw [hsupporters]

/-- The candidates of a context, one for every value. -/
theorem mapM_candidates (h : ∀ c ∈ claims, ClaimUsable floats c) (hdistinct : DistinctValues claims) :
    ∃ candidates, (group_by (claims.map fun c => (value_key c, c))).mapM (candidate_of floats) =
        .ok candidates ∧
      (∀ x ∈ candidates, StandsFor floats claims x) ∧
      (candidates.map Candidate.value_hash).Nodup ∧
      ∀ c ∈ claims, ∃ x ∈ candidates, x.value = value_of c := by
  obtain ⟨candidates, hmap, hrelated⟩ := exists_mapM_forall₂ fun group hgroup =>
    @candidate_of_eq _ _ h hdistinct group hgroup
  have hhashes : candidates.map Candidate.value_hash =
      (group_by (claims.map fun c => (value_key c, c))).map Prod.fst :=
    forall₂_map hrelated fun _ _ hr => hr.2
  have hstands : ∀ x ∈ candidates, StandsFor floats claims x := by
    intro x hx
    obtain ⟨group, -, hx, -⟩ := forall₂_mem hrelated x hx
    exact hx
  refine ⟨candidates, hmap, hstands, ?_, ?_⟩
  · rw [hhashes]
    exact nodup_group_by
  · intro c hc
    have hkey : value_key c ∈ candidates.map Candidate.value_hash := by
      rw [hhashes, mem_keys_group_by, List.map_map]
      exact List.mem_map_of_mem hc
    obtain ⟨x, hx, hhash⟩ := List.mem_map.mp hkey
    obtain ⟨c', hc', hvalue, hhash'⟩ := (hstands x hx).value
    refine ⟨x, hx, ?_⟩
    rw [hvalue]
    exact hdistinct c' hc' c hc (by rw [hhash', hhash])

end Candidates

/-! ## The ranking -/

/-- The authority of a candidate, and then its pressure. -/
def weight_of (floats : Floats) (x : Candidate) : Number ×ₗ ℤ :=
  toLex ((authority_value floats x).getD ⊥, x.pressure)

/-- Heavier candidates come first; the hashes of the values decide between equal weights. -/
def rank (floats : Floats) (x : Candidate) : (Number ×ₗ ℤ)ᵒᵈ ×ₗ List Char :=
  toLex (OrderDual.toDual (weight_of floats x), x.value_hash.toList)

section Ranked

variable {floats : Floats} {claims : List Dict} {candidates : List Candidate} {a b : Candidate}

theorem StandsFor.weight_of (h : StandsFor floats claims a) :
    weight_of floats a = weight floats claims a.value := by
  obtain ⟨x, hx, hweight⟩ := h.weight_eq
  rw [Bogvm.weight_of, hx, Option.getD_some, hweight]

theorem rank_le_eq (ha : StandsFor floats claims a) (hb : StandsFor floats claims b) :
    rank_le floats a b = decide (rank floats a ≤ rank floats b) := by
  obtain ⟨x, hx, -⟩ := ha.weight_eq
  obtain ⟨y, hy, -⟩ := hb.weight_eq
  rw [Bool.eq_iff_iff, decide_eq_true_iff, rank, rank, Prod.Lex.toLex_le_toLex,
    OrderDual.toDual_lt_toDual, Bogvm.weight_of, Bogvm.weight_of, hx, hy, Option.getD_some,
    Option.getD_some, Prod.Lex.toLex_lt_toLex]
  simp only [rank_le, exceeds, hx, hy, Bool.or_eq_true, Bool.and_eq_true, decide_eq_true_eq,
    Option.some.injEq, OrderDual.toDual_inj, toLex_inj, Prod.mk.injEq]
  constructor
  · rintro (hlt | ⟨heq, hlt | ⟨heq', hle⟩⟩)
    · exact .inl (.inl hlt)
    · exact .inl (.inr ⟨heq.symm, hlt⟩)
    · exact .inr ⟨⟨heq, heq'⟩, hle⟩
  · rintro ((hlt | ⟨heq, hlt⟩) | ⟨⟨heq, heq'⟩, hle⟩)
    · exact .inl hlt
    · exact .inr ⟨heq.symm, .inl hlt⟩
    · exact .inr ⟨heq, .inr ⟨heq', hle⟩⟩

/-- The candidates in the order of their ranks. -/
theorem pairwise_ranked (h : ∀ x ∈ candidates, StandsFor floats claims x) :
    (candidates.mergeSort (rank_le floats)).Pairwise fun a b => weight_of floats b ≤ weight_of floats a := by
  have hsame : candidates.mergeSort (rank_le floats) =
      candidates.mergeSort fun a b => decide (rank floats a ≤ rank floats b) := by
    have hmap := @List.map_mergeSort _ _ (rank_le floats)
      (fun a b => decide (rank floats a ≤ rank floats b)) id candidates
      fun a ha b hb => rank_le_eq (h a ha) (h b hb)
    rwa [List.map_id, List.map_id] at hmap
  rw [hsame]
  have hsorted := @List.pairwise_mergeSort _ (fun a b => decide (rank floats a ≤ rank floats b))
    (fun a b c hab hbc => decide_eq_true ((of_decide_eq_true hab).trans (of_decide_eq_true hbc)))
    (fun a b => by simpa using le_total (rank floats a) (rank floats b)) candidates
  refine hsorted.imp fun {a b} hab => ?_
  rcases Prod.Lex.toLex_le_toLex.mp (of_decide_eq_true hab) with hlt | ⟨heq, -⟩
  · exact (OrderDual.toDual_lt_toDual.mp hlt).le
  · exact (OrderDual.toDual_inj.mp heq).symm.le

/-- The comparison of the first two of a ranking. -/
theorem outweighs_second (ha : StandsFor floats claims a) (hb : StandsFor floats claims b)
    (hle : weight_of floats b ≤ weight_of floats a) :
    (exceeds (authority_value floats a) (authority_value floats b) = true ∨ b.pressure < a.pressure) ↔
      weight_of floats b < weight_of floats a := by
  obtain ⟨x, hx, -⟩ := ha.weight_eq
  obtain ⟨y, hy, -⟩ := hb.weight_eq
  rw [Bogvm.weight_of, Bogvm.weight_of, hx, hy, Option.getD_some, Option.getD_some] at hle ⊢
  rw [Prod.Lex.toLex_le_toLex] at hle
  rw [Prod.Lex.toLex_lt_toLex]
  simp only [exceeds, decide_eq_true_eq]
  constructor
  · rintro (hlt | hpressure)
    · exact .inl hlt
    · exact hle.imp_right fun ⟨heq, _⟩ => ⟨heq, hpressure⟩
  · rintro (hlt | ⟨-, hpressure⟩)
    · exact .inl hlt
    · exact .inr hpressure

end Ranked

/-! ## The outcome -/

section Outcomes

variable {floats : Floats} {claims : List Dict}

/-- The candidates of a context in the order of their ranks. -/
structure Ranked (floats : Floats) (claims : List Dict) (ranked : List Candidate) : Prop where
  stands : ∀ x ∈ ranked, StandsFor floats claims x
  cover : ∀ c ∈ claims, ∃ x ∈ ranked, x.value = value_of c
  nodup : (ranked.map Candidate.value_hash).Nodup
  falling : ranked.Pairwise fun a b => weight_of floats b ≤ weight_of floats a

variable {ranked : List Candidate}

/-- A value has one candidate. -/
theorem Ranked.eq_of_value (h : Ranked floats claims ranked) {x y : Candidate} (hx : x ∈ ranked)
    (hy : y ∈ ranked) (hvalue : x.value = y.value) : x = y := by
  obtain ⟨c, -, hc, hkey⟩ := (h.stands x hx).value
  obtain ⟨c', -, hc', hkey'⟩ := (h.stands y hy).value
  apply List.inj_on_of_nodup_map h.nodup hx hy
  rw [← hkey, ← hkey', value_key, value_key, ← hc, ← hc', hvalue]

/-- Whether a value outweighs the others shows at its candidate. -/
theorem Ranked.outweighs_iff (h : Ranked floats claims ranked) {value : Json} :
    Outweighs floats claims value ↔
      ∃ x, x.value = value ∧ Dominant (weight_of floats) ranked x := by
  constructor
  · rintro ⟨hmem, hless⟩
    obtain ⟨c, hc, rfl⟩ := List.mem_map.mp hmem
    obtain ⟨x, hx, hvalue⟩ := h.cover c hc
    refine ⟨x, hvalue, hx, fun y hy hne => ?_⟩
    obtain ⟨c', hc', hvalue', -⟩ := (h.stands y hy).value
    rw [(h.stands y hy).weight_of, (h.stands x hx).weight_of, hvalue, hvalue']
    refine hless _ (List.mem_map_of_mem hc') fun heq => hne ?_
    exact h.eq_of_value hy hx (by rw [hvalue, hvalue', heq])
  · rintro ⟨x, rfl, hx, hless⟩
    obtain ⟨c, hc, hvalue, -⟩ := (h.stands x hx).value
    refine ⟨hvalue ▸ List.mem_map_of_mem hc, fun value' hmem hne => ?_⟩
    obtain ⟨c', hc', rfl⟩ := List.mem_map.mp hmem
    obtain ⟨y, hy, hvalue'⟩ := h.cover c' hc'
    have hyx : y ≠ x := by
      rintro rfl
      exact hne hvalue'.symm
    have hlt := hless y hy hyx
    rwa [(h.stands y hy).weight_of, (h.stands x hx).weight_of, hvalue'] at hlt

/-- The policy of a ranking is the lawful one. -/
theorem policy_of_lawful (h : Ranked floats claims ranked) (hne : claims ≠ []) (context : Json) :
    ∃ policy selected, policy_of floats ranked = .ok (policy, selected) ∧
      LawfulOutcome floats claims ⟨context, policy, selected, ranked⟩ := by
  cases ranked with
  | nil =>
    obtain ⟨c, hc⟩ := List.exists_mem_of_ne_nil claims hne
    obtain ⟨x, hx, -⟩ := h.cover c hc
    exact absurd hx List.not_mem_nil
  | cons x rest =>
    cases rest with
    | nil =>
      have hvalue : ∀ c ∈ claims, value_of c = x.value := by
        intro c hc
        obtain ⟨y, hy, hvalue⟩ := h.cover c hc
        rw [← hvalue, List.mem_singleton.mp hy]
      have hagree : OneValue claims := fun c hc c' hc' => (hvalue c hc).trans (hvalue c' hc').symm
      refine ⟨_, _, rfl, fun _ => ⟨rfl, x, rfl, hvalue⟩, fun hnot => absurd hagree hnot,
        fun hnot => absurd hagree hnot⟩
    | cons y rest =>
      have hx : x ∈ x :: y :: rest := List.mem_cons_self
      have hy : y ∈ x :: y :: rest := List.mem_cons_of_mem _ List.mem_cons_self
      have hxy : x ≠ y := by
        rintro rfl
        exact (List.nodup_cons.mp h.nodup).1 List.mem_cons_self
      have hnot : ¬OneValue claims := by
        intro hagree
        obtain ⟨c, hc, hvalue, -⟩ := (h.stands x hx).value
        obtain ⟨c', hc', hvalue', -⟩ := (h.stands y hy).value
        exact hxy (h.eq_of_value hx hy (by rw [hvalue, hvalue', hagree c hc c' hc']))
      have hsecond := outweighs_second (h.stands x hx) (h.stands y hy)
        ((List.pairwise_cons.mp h.falling).1 y List.mem_cons_self)
      have hdominant (z : Candidate) := dominant_iff (z := z) h.falling hxy
      unfold policy_of
      by_cases hlt : weight_of floats y < weight_of floats x
      · refine ⟨_, _, if_pos (hsecond.mpr hlt), fun hagree => absurd hagree hnot, ?_, ?_⟩
        · intro _ value hvalue
          obtain ⟨z, hz, hdom⟩ := h.outweighs_iff.mp hvalue
          obtain ⟨rfl, -⟩ := (hdominant z).mp hdom
          exact ⟨rfl, z, rfl, hz⟩
        · intro _ hnone
          exact absurd ⟨x.value, h.outweighs_iff.mpr ⟨x, rfl, (hdominant x).mpr ⟨rfl, hlt⟩⟩⟩ hnone
      · refine ⟨_, _, if_neg fun hor => hlt (hsecond.mp hor), fun hagree => absurd hagree hnot, ?_,
          fun _ _ => ⟨rfl, rfl⟩⟩
        intro _ value hvalue
        obtain ⟨z, -, hdom⟩ := h.outweighs_iff.mp hvalue
        exact absurd ((hdominant z).mp hdom).2 hlt

theorem outcome_of_lawful (h : ∀ c ∈ claims, ClaimUsable floats c) (hdistinct : DistinctValues claims)
    {key : List Char} (hne : claims ≠ []) (hkey : ∀ c ∈ claims, context_text c = key) :
    ∃ outcome, outcome_of floats (key, claims) = .ok outcome ∧ outcome.context.dumps = key ∧
      LawfulOutcome floats claims outcome := by
  have hentries : claims.mapM (fun c => do
      let hash ← value_hash c
      .ok (hash, c)) = .ok (claims.map fun c => (value_key c, c)) := by
    apply mapM_eq_map
    intro c hc
    rw [(h c hc).value_hash]
    rfl
  obtain ⟨candidates, hcandidates, hstands, hnodup, hcover⟩ := mapM_candidates h hdistinct
  have hranked : Ranked floats claims (candidates.mergeSort (rank_le floats)) := by
    constructor
    case stands => exact fun x hx => hstands x (List.mem_mergeSort.mp hx)
    case cover =>
      intro c hc
      obtain ⟨x, hx, hvalue⟩ := hcover c hc
      exact ⟨x, List.mem_mergeSort.mpr hx, hvalue⟩
    case nodup => exact (((List.mergeSort_perm _ _).map _).nodup_iff).mpr hnodup
    case falling => exact pairwise_ranked hstands
  obtain ⟨first, rest, rfl⟩ := List.exists_cons_of_ne_nil hne
  obtain ⟨context, hcontext, htext⟩ := (h first List.mem_cons_self).item_context
  obtain ⟨policy, selected, hpolicy, hlawful⟩ := policy_of_lawful hranked hne context
  refine ⟨⟨context, policy, selected, _⟩, ?_, ?_, hlawful⟩
  · unfold outcome_of
    dsimp only
    rw [hentries, ok_bind, hcandidates, ok_bind, hpolicy, ok_bind]
    dsimp only
    rw [hcontext, ok_bind]
  · exact htext.trans (hkey first List.mem_cons_self)

/-- The claims of a context. -/
def in_context (valid : List Dict) (context : List Char) : List Dict :=
  valid.filter fun claim => context_text claim = context

/-- Every context of usable claims has one outcome, and it is lawful. -/
theorem outcomes_lawful {valid : List Dict} (h : ∀ c ∈ valid, ClaimUsable floats c)
    (hdistinct : DistinctValues valid) :
    ∃ found, outcomes floats valid = .ok found ∧
      (found.map fun outcome => outcome.context.dumps).Nodup ∧
      (∀ c ∈ valid, ∃ outcome ∈ found, outcome.context.dumps = context_text c) ∧
      ∀ outcome ∈ found, LawfulOutcome floats (in_context valid outcome.context.dumps) outcome := by
  have hentries : valid.mapM (fun c => do
      let key ← context_key c
      .ok (key, c)) = .ok (valid.map fun c => (context_text c, c)) := by
    apply mapM_eq_map
    intro c hc
    rw [(h c hc).context_key]
    rfl
  let groups := group_by (valid.map fun c => (context_text c, c))
  have hgroup : ∀ group ∈ groups.mergeSort fun a b => a.1 ≤ b.1,
      ∃ outcome, outcome_of floats group = .ok outcome ∧ outcome.context.dumps = group.1 ∧
        LawfulOutcome floats (in_context valid group.1) outcome := by
    rintro ⟨key, group⟩ hmem
    obtain ⟨hkey, rfl⟩ := mem_group_by.mp (List.mem_mergeSort.mp hmem)
    have hne := values_ne_nil hkey
    rw [values_keyed] at hne ⊢
    have hsub : ∀ c ∈ valid.filter (fun c => context_text c = key), c ∈ valid ∧ context_text c = key :=
      fun c hc => ⟨(List.mem_filter.mp hc).1, of_decide_eq_true (List.mem_filter.mp hc).2⟩
    exact outcome_of_lawful (fun c hc => h c (hsub c hc).1)
      (fun c hc c' hc' => hdistinct c (hsub c hc).1 c' (hsub c' hc').1) hne fun c hc => (hsub c hc).2
  obtain ⟨found, hfound, hrelated⟩ := exists_mapM_forall₂ hgroup
  have hcontexts := forall₂_map hrelated fun (group : List Char × List Dict) (outcome : MeshOutcome) hr => hr.1
  have hperm := ((List.mergeSort_perm groups fun a b => a.1 ≤ b.1).map Prod.fst)
  refine ⟨found, ?_, ?_, ?_, ?_⟩
  · unfold outcomes
    rw [hentries]
    exact hfound
  · rw [hcontexts]
    exact hperm.nodup_iff.mpr nodup_group_by
  · intro c hc
    have hkey : context_text c ∈ found.map fun outcome => outcome.context.dumps := by
      rw [hcontexts]
      refine hperm.mem_iff.mpr (mem_keys_group_by.mpr ?_)
      rw [List.map_map]
      exact List.mem_map_of_mem hc
    exact List.mem_map.mp hkey
  · intro outcome hmem
    obtain ⟨group, -, hcontext, hlawful⟩ := forall₂_mem hrelated outcome hmem
    rwa [hcontext]

end Outcomes

end Bogbin.Bogvm
