import Bogbin.Bogvm.MeshStore

/-!
# Runs of a node

The calls that admit claims, and what the directory of the claims holds after them: under the hash
of every admitted material a claim that has been admitted with this hash (`Holds`).
-/

namespace Bogbin.Bogvm

open StateExcept

/-- A call that admits a claim.  The fields of a file are listed by key. -/
inductive Admission
  | propose (proposal : Proposal)
  | import_claim (claim : Dict) (sorted : Dict.Sorted claim)

def Admission.call (floats : Floats) (keys : Keys) : Admission → MeshM Dict
  | .propose proposal => Bogvm.propose floats keys proposal
  | .import_claim claim _ => Bogvm.import_claim keys claim

/-- The node after the calls, whether they return or raise. -/
def admit_calls (floats : Floats) (keys : Keys) (m : Mesh) (calls : List Admission) : Mesh :=
  calls.foldl (fun m a => after (a.call floats keys m)) m

/-- The claim that a call writes. -/
def Admission.written (keys : Keys) : Admission → List Dict
  | .propose proposal =>
    match proposed_material keys proposal with
    | .ok material => [signed_claim keys material]
    | .error _ => []
  | .import_claim claim _ => if verify_mesh_claim keys claim = .ok [] then [claim] else []

def admitted (keys : Keys) (calls : List Admission) : List Dict :=
  calls.flatMap (Admission.written keys)

/-- The hash that names the file of a claim. -/
def material_hash (claim : Dict) : String := stable_hash (.obj (claim_material claim))

/-- A claim as a node writes it. -/
structure Admitted (keys : Keys) (claim : Dict) : Prop where
  sorted : Dict.Sorted claim
  signed : ClaimSigned keys claim
  id : claim_id claim = .str (material_hash claim)

/-- The directory of a node that has admitted these claims. -/
structure Holds (claims : Dict) (past : List Dict) : Prop where
  sorted : Dict.Sorted claims
  found : ∀ id v, Dict.get claims id = some v → ∃ c ∈ past, v = .obj c ∧ id = material_hash c
  stored : ∀ c ∈ past, ∃ v, Dict.get claims (material_hash c) = some v

section Steps

variable {floats : Floats} {keys : Keys} {m : Mesh} {material claim : Dict} {past : List Dict}

/-! ## One call -/

theorem resolve_claims (space : String) :
    (after (resolve floats keys space m)).claims = m.claims := by
  let P : Mesh → Prop := fun m' => m'.claims = m.claims
  show P (after (resolve floats keys space m))
  unfold resolve
  refine after_bind rfl fun m₀ m₁ (h₁ : P m₁) => ?_
  refine after_ofExcept_bind h₁ fun found _ => ?_
  refine after_bind h₁ fun _ m₂ (h₂ : P m₂) => ?_
  refine after_bind h₂ fun m₃ m₄ (h₄ : P m₄) => ?_
  refine after_ofExcept_bind h₄ fun signed _ => ?_
  exact after_bind h₄ fun _ m₅ (h₅ : P m₅) => h₅

theorem get_proposed_material {proposal : Proposal}
    (h : proposed_material keys proposal = .ok material) :
    Dict.Sorted material ∧ Dict.get material "claim_id" = none ∧
      Dict.get material "signature" = none := by
  unfold proposed_material at h
  split at h
  · cases h
  · obtain rfl := Except.ok.inj h
    refine ⟨Dict.sorted_of _, ?_, ?_⟩ <;> simp [Dict.of, Dict.get_set, Dict.get]

theorem unsigned_signed_claim (h : Dict.get material "signature" = none) :
    unsigned_claim (signed_claim keys material) =
      Dict.set material "claim_id" (.str (stable_hash (.obj material))) := by
  have hnone : Dict.get (Dict.set material "claim_id" (.str (stable_hash (.obj material))))
      "signature" = none := by
    rw [Dict.get_set_of_ne (by decide), h]
  rw [unsigned_claim, signed_claim, Dict.pop_set, Dict.pop_of_get_none hnone]

theorem material_signed_claim (hid : Dict.get material "claim_id" = none)
    (hsignature : Dict.get material "signature" = none) :
    claim_material (signed_claim keys material) = material := by
  rw [claim_material, unsigned_signed_claim hsignature, Dict.pop_set, Dict.pop_of_get_none hid]

/-- What a node makes of a proposal is a claim that it accepts. -/
theorem admitted_signed_claim (hkeys : keys.Lawful) (hsorted : Dict.Sorted material)
    (hid : Dict.get material "claim_id" = none) (hsignature : Dict.get material "signature" = none) :
    Admitted keys (signed_claim keys material) := by
  refine ⟨Dict.sorted_set (Dict.sorted_set hsorted), ?_, ?_⟩
  · have hget : Dict.get (signed_claim keys material) "signature" = some (.obj (sign_object keys
        (Dict.set material "claim_id" (.str (stable_hash (.obj material)))))) :=
      Dict.get_set_self
    unfold ClaimSigned
    rw [unsigned_signed_claim hsignature, hget]
    exact verify_sign_object hkeys
  · rw [material_hash, material_signed_claim hid hsignature, claim_id, signed_claim,
      Dict.get_set_of_ne (by decide), Dict.get_set_self]
    rfl

theorem admitted_written (hkeys : keys.Lawful) {call : Admission} (h : claim ∈ call.written keys) :
    Admitted keys claim := by
  cases call with
  | propose proposal =>
    dsimp only [Admission.written] at h
    split at h
    · next material hmaterial =>
      obtain rfl := List.mem_singleton.mp h
      obtain ⟨hsorted, hid, hsignature⟩ := get_proposed_material hmaterial
      exact admitted_signed_claim hkeys hsorted hid hsignature
    · exact absurd h List.not_mem_nil
  | import_claim c sorted =>
    dsimp only [Admission.written] at h
    split_ifs at h with hverify
    · obtain rfl := List.mem_singleton.mp h
      obtain ⟨hsigned, hsound⟩ := verify_mesh_claim_eq_nil.mp hverify
      exact ⟨sorted, hsigned, hsound.2.1⟩
    · exact absurd h List.not_mem_nil

/-- A call writes its claim under the hash of the material. -/
theorem call_claims (call : Admission) :
    (after (call.call floats keys m)).claims =
      (call.written keys).foldl (fun d c => Dict.set d (material_hash c) (.obj c)) m.claims := by
  cases call with
  | propose proposal =>
    dsimp only [Admission.call, Admission.written]
    unfold Bogvm.propose
    cases hmaterial : proposed_material keys proposal with
    | error e => rfl
    | ok material =>
      obtain ⟨-, hid, hsignature⟩ := get_proposed_material hmaterial
      rw [bind_of_ok ofExcept_ok]
      show (after (resolve floats keys proposal.space _)).claims = _
      rw [resolve_claims, List.foldl_cons, List.foldl_nil, material_hash,
        material_signed_claim hid hsignature]
  | import_claim claim sorted =>
    dsimp only [Admission.call, Admission.written]
    unfold Bogvm.import_claim
    cases hverify : verify_mesh_claim keys claim with
    | error e => rfl
    | ok failures =>
      rw [bind_of_ok ofExcept_ok]
      by_cases hnil : failures = []
      · subst hnil
        have hid : claim_id claim = .str (material_hash claim) :=
          (verify_mesh_claim_eq_nil.mp hverify).2.2.1
        rw [if_pos rfl, if_pos rfl, hid]
        rfl
      · rw [if_neg hnil, if_neg fun heq => hnil (Except.ok.inj heq)]
        rfl

theorem Holds.set (h : Holds m.claims past) :
    Holds (Dict.set m.claims (material_hash claim) (.obj claim)) (past ++ [claim]) := by
  constructor
  case sorted => exact Dict.sorted_set h.sorted
  case found =>
    intro id v hget
    rw [Dict.get_set] at hget
    split_ifs at hget with hid
    · obtain rfl := Option.some.inj hget
      exact ⟨claim, List.mem_append_right _ (List.mem_singleton.mpr rfl), rfl, hid.symm⟩
    · obtain ⟨c, hc, hv, hid⟩ := h.found id v hget
      exact ⟨c, List.mem_append_left _ hc, hv, hid⟩
  case stored =>
    intro c hc
    rw [Dict.get_set]
    split_ifs with hid
    · exact ⟨_, rfl⟩
    · rcases List.mem_append.mp hc with hc | hc
      · exact h.stored c hc
      · rw [List.mem_singleton.mp hc] at hid
        exact absurd rfl hid

theorem Holds.call (h : Holds m.claims past) (call : Admission) :
    Holds (after (call.call floats keys m)).claims (past ++ call.written keys) := by
  rw [call_claims]
  have hwritten : call.written keys = [] ∨ ∃ c, call.written keys = [c] := by
    cases call with
    | propose proposal =>
      dsimp only [Admission.written]
      split
      · exact .inr ⟨_, rfl⟩
      · exact .inl rfl
    | import_claim claim sorted =>
      dsimp only [Admission.written]
      split_ifs
      · exact .inr ⟨_, rfl⟩
      · exact .inl rfl
  rcases hwritten with hnil | ⟨c, hc⟩
  · rw [hnil, List.append_nil]
    exact h
  · rw [hc]
    exact h.set

/-! ## Runs -/

theorem Holds.admit_calls (h : Holds m.claims past) (calls : List Admission) :
    Holds (admit_calls floats keys m calls).claims (past ++ admitted keys calls) := by
  induction calls generalizing m past with
  | nil =>
    show Holds m.claims (past ++ [])
    rw [List.append_nil]
    exact h
  | cons call rest ih =>
    have hrest := ih (@Holds.call floats keys m past h call)
    rw [List.append_assoc] at hrest
    exact hrest

theorem holds_nil : Holds [] [] :=
  ⟨Dict.sorted_nil, nofun, nofun⟩

/-- The claims of a node that had none. -/
theorem holds_admitted (hempty : m.claims = []) (calls : List Admission) :
    Holds (admit_calls floats keys m calls).claims (admitted keys calls) := by
  have hstart : Holds m.claims [] := by
    rw [hempty]
    exact holds_nil
  have h := @Holds.admit_calls floats keys m [] hstart calls
  rwa [List.nil_append] at h

theorem admitted_of_mem (hkeys : keys.Lawful) {calls : List Admission} :
    ∀ c ∈ admitted keys calls, Admitted keys c := by
  intro c hc
  obtain ⟨call, -, hc⟩ := List.mem_flatMap.mp hc
  exact admitted_written hkeys hc

end Steps

/-! ## Nodes with the same claims -/

/-- No two of these claims have different materials with one hash. -/
def DistinctHashes (claims : List Dict) : Prop :=
  ∀ c ∈ claims, ∀ c' ∈ claims, material_hash c = material_hash c' →
    claim_material c = claim_material c'

section Same

variable {floats : Floats} {keys keys' : Keys} {claims claims' claim claim' : Dict}
  {past past' : List Dict}

/-- The directory of a node is one of signed claims. -/
theorem Holds.files (h : Holds claims past) (hpast : ∀ c ∈ past, Admitted keys c) :
    ∃ files, claims = claim_files files ∧ ∀ file ∈ files, file.2 ∈ past ∧ ClaimSigned keys file.2 := by
  have hall : ∀ d : Dict, (∀ field ∈ d, ∃ c ∈ past, field.2 = .obj c) →
      ∃ files, d = claim_files files ∧ ∀ file ∈ files, file.2 ∈ past := by
    intro d hd
    induction d with
    | nil => exact ⟨[], rfl, nofun⟩
    | cons field rest ih =>
      obtain ⟨⟨c, hc, hfield⟩, hrest⟩ := List.forall_mem_cons.mp hd
      obtain ⟨files, rfl, hfiles⟩ := ih hrest
      refine ⟨(field.1, c) :: files, ?_, List.forall_mem_cons.mpr ⟨hc, hfiles⟩⟩
      show field :: claim_files files = (field.1, .obj c) :: claim_files files
      rw [← hfield]
  obtain ⟨files, hfiles, hmem⟩ := hall claims fun field hfield => by
    obtain ⟨c, hc, hv, -⟩ := h.found field.1 field.2 (Dict.get_of_mem h.sorted hfield)
    exact ⟨c, hc, hv⟩
  exact ⟨files, hfiles, fun file hfile => ⟨hmem file hfile, (hpast _ (hmem file hfile)).signed⟩⟩

theorem unsigned_eq (h : Admitted keys claim) (h' : Admitted keys' claim')
    (hmaterial : claim_material claim = claim_material claim') :
    unsigned_claim claim = unsigned_claim claim' := by
  apply Dict.ext_of_sorted (Dict.sorted_pop h.sorted) (Dict.sorted_pop h'.sorted)
  intro k
  show Dict.get (unsigned_claim claim) k = Dict.get (unsigned_claim claim') k
  by_cases hk : "claim_id" = k
  · subst hk
    have hid : claim_id claim = claim_id claim' := by
      rw [h.id, h'.id, material_hash, material_hash, hmaterial]
    have hget (c : Dict) (s : String) (hc : claim_id c = .str s) :
        Dict.get (unsigned_claim c) "claim_id" = some (.str s) := by
      rw [get_unsigned_claim (by decide)]
      exact getD_eq_str.mp hc
    rw [hget claim _ h.id, hget claim' _ (hid ▸ h.id)]
  · rw [← Dict.get_pop_of_ne hk, ← Dict.get_pop_of_ne (d := unsigned_claim claim') hk]
    exact congrArg (fun d => Dict.get d k) hmaterial

/-- The text of a file without the signature. -/
def unsigned_json : Json → Json
  | .obj claim => .obj (unsigned_claim claim)
  | v => v

theorem same_lookup (h : Holds claims past) (h' : Holds claims' past')
    (hpast : ∀ c ∈ past, Admitted keys c) (hpast' : ∀ c ∈ past', Admitted keys' c)
    (hsame : ∀ c, c ∈ past ↔ c ∈ past') (hhash : DistinctHashes past) {k : String} {v : Json}
    (hget : Dict.get claims k = some v) :
    ∃ v', Dict.get claims' k = some v' ∧ unsigned_json v = unsigned_json v' := by
  obtain ⟨c, hc, rfl, rfl⟩ := h.found k v hget
  obtain ⟨v', hv'⟩ := h'.stored c ((hsame c).mp hc)
  obtain ⟨c', hc', rfl, hid⟩ := h'.found _ v' hv'
  have hmaterial := hhash c hc c' ((hsame c').mpr hc') hid
  exact ⟨_, hv', congrArg Json.obj (unsigned_eq (hpast c hc) (hpast' c' hc') hmaterial)⟩

/-- Nodes that have admitted the same claims resolve them alike. -/
theorem same_resolution (h : Holds claims past) (h' : Holds claims' past')
    (hpast : ∀ c ∈ past, Admitted keys c) (hpast' : ∀ c ∈ past', Admitted keys' c)
    (hsame : ∀ c, c ∈ past ↔ c ∈ past') (hhash : DistinctHashes past) (space : String) :
    resolution floats keys claims space = resolution floats keys' claims' space := by
  have hhash' : DistinctHashes past' := fun c hc c' hc' =>
    hhash c ((hsame c).mpr hc) c' ((hsame c').mpr hc')
  have hmap : claims.map (Prod.map id unsigned_json) = claims'.map (Prod.map id unsigned_json) := by
    apply Dict.ext_of_sorted (Dict.sorted_map _ h.sorted) (Dict.sorted_map _ h'.sorted)
    intro k
    rw [Dict.get_map, Dict.get_map]
    cases hget : Dict.get claims k with
    | some v =>
      obtain ⟨v', hv', heq⟩ := same_lookup h h' hpast hpast' hsame hhash hget
      rw [hv']
      exact congrArg some heq
    | none =>
      cases hget' : Dict.get claims' k with
      | none => rfl
      | some v' =>
        obtain ⟨v, hv, -⟩ := same_lookup h' h hpast' hpast (fun c => (hsame c).symm) hhash' hget'
        rw [hget] at hv
        cases hv
  obtain ⟨files, rfl, hfiles⟩ := h.files hpast
  obtain ⟨files', rfl, hfiles'⟩ := h'.files hpast'
  rw [resolution_eq fun file hfile => (hfiles file hfile).2,
    resolution_eq fun file hfile => (hfiles' file hfile).2]
  have hobj : files.map (fun file => Json.obj (unsigned_claim file.2)) =
      files'.map (fun file => Json.obj (unsigned_claim file.2)) := by
    have hsnd := congrArg (List.map Prod.snd) hmap
    simp only [claim_files, List.map_map] at hsnd
    exact hsnd
  have hunsigned : files.map (fun file => unsigned_claim file.2) =
      files'.map (fun file => unsigned_claim file.2) := by
    apply List.map_injective_iff.mpr (fun a b => Json.obj.inj)
    rw [List.map_map, List.map_map]
    exact hobj
  rw [hunsigned]

/-- The claims of a node, each once and without its signature. -/
structure IsHeld (past held : List Dict) : Prop where
  nodup : held.Nodup
  mem_iff : ∀ c, c ∈ held ↔ ∃ a ∈ past, unsigned_claim a = c

/-- What a node resolves is what it has admitted. -/
theorem Holds.held (h : Holds claims past) (hpast : ∀ c ∈ past, Admitted keys c)
    (hhash : DistinctHashes past) : ∃ held, IsHeld past held ∧
      ∀ space, resolution floats keys claims space = resolution_of floats space held := by
  obtain ⟨files, rfl, hfiles⟩ := h.files hpast
  have hname : ∀ file ∈ files, file.1 = material_hash file.2 := by
    intro file hfile
    have hmem : (file.1, Json.obj file.2) ∈ claim_files files := List.mem_map_of_mem hfile
    obtain ⟨c, -, hc, hid⟩ := h.found file.1 _ (Dict.get_of_mem h.sorted hmem)
    rw [hid, Json.obj.inj hc]
  have hsorted : files.Pairwise fun a b => a.1.toList < b.1.toList := by
    have hfields := h.sorted
    unfold Dict.Sorted claim_files at hfields
    rwa [List.pairwise_map] at hfields
  refine ⟨files.map fun file => unsigned_claim file.2, ⟨?_, fun c => ?_⟩,
    fun space => resolution_eq fun file hfile => (hfiles file hfile).2⟩
  · -- two files of one unsigned claim have one name
    refine List.pairwise_map.mpr (hsorted.imp_of_mem fun {a b} ha hb hlt heq => ?_)
    have hab : a.1 = b.1 := by
      rw [hname a ha, hname b hb, material_hash, material_hash, ← claim_material_unsigned, heq,
        claim_material_unsigned]
    rw [hab] at hlt
    exact lt_irrefl _ hlt
  · rw [List.mem_map]
    constructor
    · rintro ⟨file, hfile, rfl⟩
      exact ⟨file.2, (hfiles file hfile).1, rfl⟩
    · rintro ⟨a, ha, rfl⟩
      obtain ⟨v, hv⟩ := h.stored a ha
      obtain ⟨file, hfile, heq⟩ := List.mem_map.mp (Dict.mem_of_get hv)
      obtain ⟨hid, rfl⟩ := Prod.mk.inj heq
      have hmaterial := hhash _ (hfiles file hfile).1 a ha (by rw [← hname file hfile]; exact hid)
      exact ⟨file, hfile, unsigned_eq (hpast _ (hfiles file hfile).1) (hpast a ha) hmaterial⟩

end Same

end Bogbin.Bogvm
