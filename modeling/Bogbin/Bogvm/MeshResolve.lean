import Bogbin.Bogvm.LedgerAppend
import Bogbin.Bogvm.MeshPolicy
import Bogbin.Bogvm.MeshRun

/-!
# Convergence of the mesh

Nodes that have admitted the same claims resolve a namespace alike.  `import_claim` does not look at
the context, the value and the authority of a claim, which `resolve` reads: where one of the claims
that it resolves lacks them, or has an authority that is no number, it raises.
-/

namespace Bogbin.Bogvm

open Grouping StateExcept

/-! ## Fields that a resolution cannot do without -/

/-- A claim with the fields that a resolution reads, its authority a number or NaN. -/
structure ClaimReadable (floats : Floats) (claim : Dict) : Prop where
  context : ∃ context, Dict.item claim "context" = .ok context
  value : ∃ value, Dict.item claim "value" = .ok value
  authority : ∃ authority x, Dict.item claim "authority" = .ok authority ∧
    number floats authority = .ok x

section Readable

variable {floats : Floats} {claims valid : List Dict}

theorem number_of_max {authorities : List Json} {authority : Json}
    (h : max_number floats authorities = .ok authority) :
    ∀ a ∈ authorities, ∃ x, number floats a = .ok x := by
  cases authorities with
  | nil => exact nofun
  | cons first rest =>
    obtain ⟨x, hx, hfold⟩ := bind_eq_ok.mp h
    refine List.forall_mem_cons.mpr ⟨⟨x, hx⟩, ?_⟩
    clear h hx
    induction rest generalizing first with
    | nil => exact nofun
    | cons a rest ih =>
      rw [List.foldlM_cons] at hfold
      obtain ⟨next, hnext, hfold⟩ := bind_eq_ok.mp hfold
      obtain ⟨y, hy, -⟩ := bind_eq_ok.mp hnext
      exact List.forall_mem_cons.mpr ⟨⟨y, hy⟩, ih next hfold⟩

theorem authority_of_candidate {group : String × List Dict} {x : Candidate}
    (h : candidate_of floats group = .ok x) :
    ∀ c ∈ group.2, ∃ authority y, Dict.item c "authority" = .ok authority ∧
      number floats authority = .ok y := by
  obtain ⟨hash, claims⟩ := group
  cases claims with
  | nil => exact nofun
  | cons first rest =>
    obtain ⟨value, -, h⟩ := bind_eq_ok.mp h
    obtain ⟨authorities, hauthorities, h⟩ := bind_eq_ok.mp h
    obtain ⟨authority, hmax, -⟩ := bind_eq_ok.mp h
    intro c hc
    obtain ⟨a, hmem, ha⟩ := exists_of_mapM_eq_ok hauthorities hc
    obtain ⟨y, hy⟩ := number_of_max hmax a hmem
    exact ⟨a, y, ha, hy⟩

/-- The claims with their keys, when every claim has its key. -/
theorem keyed_eq {κ : Type} {key : Dict → Except PyError κ} {l : List Dict} {entries : List (κ × Dict)}
    (h : l.mapM (fun c => do
      let k ← key c
      .ok (k, c)) = .ok entries) : ∀ c ∈ l, ∃ k, key c = .ok k ∧ (k, c) ∈ entries := by
  have hall := forall_of_mapM_eq_ok h
  clear h
  induction hall with
  | nil => exact nofun
  | cons hb _ ih =>
    obtain ⟨k, hk, heq⟩ := bind_eq_ok.mp hb
    obtain rfl := Except.ok.inj heq
    refine List.forall_mem_cons.mpr ⟨⟨k, hk, List.mem_cons_self⟩, fun c hc => ?_⟩
    obtain ⟨k', hk', hmem⟩ := ih c hc
    exact ⟨k', hk', List.mem_cons_of_mem _ hmem⟩

/-- A value with a key is in the group of the key. -/
theorem exists_group {κ : Type} [DecidableEq κ] {entries : List (κ × Dict)} {k : κ} {c : Dict}
    (h : (k, c) ∈ entries) : ∃ group ∈ group_by entries, c ∈ group.2 :=
  ⟨(k, values entries k), mem_group_by.mpr ⟨List.mem_map_of_mem h, rfl⟩, mem_values.mpr h⟩

theorem readable_of_outcome {group : List Char × List Dict} {outcome : MeshOutcome}
    (h : outcome_of floats group = .ok outcome) :
    ∀ c ∈ group.2, (∃ value, Dict.item c "value" = .ok value) ∧ ∃ authority x,
      Dict.item c "authority" = .ok authority ∧ number floats authority = .ok x := by
  intro c hc
  obtain ⟨entries, hentries, h⟩ := bind_eq_ok.mp h
  obtain ⟨candidates, hcandidates, -⟩ := bind_eq_ok.mp h
  obtain ⟨hash, hhash, hmem⟩ := keyed_eq hentries c hc
  obtain ⟨value, hvalue, -⟩ := bind_eq_ok.mp hhash
  obtain ⟨group', hgroup, hc'⟩ := exists_group hmem
  obtain ⟨x, -, hx⟩ := exists_of_mapM_eq_ok hcandidates hgroup
  exact ⟨⟨value, hvalue⟩, authority_of_candidate hx c hc'⟩

/-- A resolution that returns has read all the fields. -/
theorem readable_of_outcomes {found : List MeshOutcome} (h : outcomes floats valid = .ok found) :
    ∀ c ∈ valid, ClaimReadable floats c := by
  intro c hc
  obtain ⟨entries, hentries, h⟩ := bind_eq_ok.mp h
  obtain ⟨key, hkey, hmem⟩ := keyed_eq hentries c hc
  obtain ⟨context, hcontext, -⟩ := bind_eq_ok.mp hkey
  obtain ⟨group, hgroup, hc'⟩ := exists_group hmem
  obtain ⟨outcome, -, houtcome⟩ := exists_of_mapM_eq_ok h (List.mem_mergeSort.mpr hgroup)
  obtain ⟨hvalue, hauthority⟩ := readable_of_outcome houtcome c hc'
  exact ⟨⟨context, hcontext⟩, hvalue, hauthority⟩

end Readable

/-! ## A call of `resolve` -/

section Resolve

variable {floats : Floats} {keys : Keys} {m m' : Mesh} {space : String} {receipt : Dict}

theorem resolve_eq_ok : resolve floats keys space m = .ok receipt m' ↔
    ∃ found state genesis, resolution floats keys m.claims space = .ok (found, state) ∧
      record keys m.genesis "mesh-resolve" (conflict_receipt state found) = .ok (receipt, genesis) ∧
      m' = { m with state := some state, genesis := genesis } := by
  unfold resolve
  rw [bind_of_ok get_apply, ofExcept_bind_eq_ok]
  constructor
  · rintro ⟨⟨found, state⟩, hresolution, h⟩
    dsimp only at h
    rw [bind_of_ok (modify_apply _), bind_of_ok get_apply] at h
    obtain ⟨⟨signed, genesis⟩, hrecord, h⟩ := ofExcept_bind_eq_ok.mp h
    obtain ⟨rfl, rfl⟩ := EStateM.Result.ok.inj h
    exact ⟨found, state, genesis, hresolution, hrecord, rfl⟩
  · rintro ⟨found, state, genesis, hresolution, hrecord, rfl⟩
    refine ⟨(found, state), hresolution, ?_⟩
    dsimp only
    rw [bind_of_ok (modify_apply _), bind_of_ok get_apply]
    exact ofExcept_bind_eq_ok.mpr ⟨(receipt, genesis), hrecord, rfl⟩

theorem recordable_conflict_receipt {state : Dict} {found : List MeshOutcome} :
    Recordable (conflict_receipt state found) := by
  constructor
  case format =>
    rw [str_field_of_get (s := "BOGMESH-conflict-receipt-11.0")
      (by simp [conflict_receipt, Dict.get_set])]
    decide
  case status =>
    rw [str_field_of_get (s := "completed") (by simp [conflict_receipt])]
    rfl

/-- In a sound ledger, `resolve` returns when there is a resolution. -/
theorem resolve_returns (hkeys : keys.Lawful) (hledger : Ledgered m.genesis.ledger)
    {found : List MeshOutcome} {state : Dict}
    (h : resolution floats keys m.claims space = .ok (found, state)) :
    ∃ receipt m', resolve floats keys space m = .ok receipt m' := by
  obtain ⟨receipt, ledger, hrecord, -⟩ := @record_returns _ _ "mesh-resolve" _ hkeys hledger
    (@recordable_conflict_receipt state found) (by decide)
  exact ⟨receipt, _, resolve_eq_ok.mpr ⟨found, state, _, h, hrecord, rfl⟩⟩

/-- The receipt has the outcomes and the root of the resolution. -/
theorem receipt_of_resolve (h : resolve floats keys space m = .ok receipt m') {found : List MeshOutcome}
    {state : Dict} (hresolution : resolution floats keys m.claims space = .ok (found, state)) :
    Dict.get receipt "outcomes" = Dict.get state "outcomes" ∧
      Dict.get receipt "state_root_sha256" = Dict.get state "state_root_sha256" := by
  obtain ⟨found', state', genesis, hresolution', hrecord, -⟩ := resolve_eq_ok.mp h
  rw [hresolution] at hresolution'
  obtain ⟨rfl, rfl⟩ := Prod.mk.inj (Except.ok.inj hresolution')
  obtain ⟨-, previous, -, -, rfl, -, -⟩ := record_eq_ok.mp hrecord
  constructor <;>
    simp [get_signed_entry, get_ledger_payload, conflict_receipt, Dict.get_set]

/-- The ledger of a node stays sound. -/
theorem Ledgered.admit_calls (h : Ledgered m.genesis.ledger) (calls : List Admission) :
    Ledgered (Bogvm.admit_calls floats keys m calls).genesis.ledger := by
  let P : Mesh → Prop := fun m' => Ledgered m'.genesis.ledger
  have hresolve (space : String) (m₀ : Mesh) (h₀ : P m₀) : P (after (resolve floats keys space m₀)) := by
    unfold resolve
    refine after_bind h₀ fun m₁ m₂ (h₂ : P m₂) => ?_
    refine after_ofExcept_bind h₂ fun found _ => ?_
    refine after_bind h₂ fun _ m₃ (h₃ : P m₃) => ?_
    rw [bind_of_ok get_apply]
    refine after_ofExcept_bind h₃ fun signed hsigned => ?_
    exact h₃.record hsigned
  have hcall (call : Admission) (m₀ : Mesh) (h₀ : P m₀) : P (after (call.call floats keys m₀)) := by
    cases call with
    | propose proposal =>
      dsimp only [Admission.call]
      unfold propose
      refine after_ofExcept_bind h₀ fun material _ => ?_
      exact after_bind h₀ fun _ m₁ (h₁ : P m₁) => hresolve proposal.space m₁ h₁
    | import_claim claim sorted =>
      dsimp only [Admission.call]
      unfold import_claim
      refine after_ofExcept_bind h₀ fun failures _ => ?_
      split_ifs
      · cases claim_id claim
        case str id => exact after_bind h₀ fun _ m₁ (h₁ : P m₁) => h₁
        all_goals exact h₀
      · exact h₀
  show P (Bogvm.admit_calls floats keys m calls)
  unfold Bogvm.admit_calls
  induction calls generalizing m with
  | nil => exact h
  | cons call rest ih => exact ih (hcall call m h)

end Resolve

/-! ## Two nodes -/

/-- The outcomes of a namespace, for its valid claims. -/
structure LawfulOutcomes (floats : Floats) (valid : List Dict) (found : List MeshOutcome) : Prop where
  nodup : (found.map fun outcome => outcome.context.dumps).Nodup
  cover : ∀ c ∈ valid, ∃ outcome ∈ found, outcome.context.dumps = context_text c
  lawful : ∀ outcome ∈ found, LawfulOutcome floats (in_context valid outcome.context.dumps) outcome

section Nodes

variable {floats : Floats} {keys keys' : Keys} {m m' : Mesh} {calls calls' : List Admission}
  {past held : List Dict} {space : String} {claim : Dict}

theorem ClaimUsable.unsigned (h : ClaimUsable floats claim) :
    ClaimUsable floats (unsigned_claim claim) := by
  obtain ⟨hcontext, hvalue, hauthority⟩ := h
  refine ⟨?_, ?_, ?_⟩
  · rwa [get_unsigned_claim (by decide)]
  · rwa [get_unsigned_claim (by decide)]
  · rwa [get_unsigned_claim (by decide)]

theorem value_of_unsigned : value_of (unsigned_claim claim) = value_of claim := by
  rw [value_of, get_unsigned_claim (by decide), value_of]

/-- The valid claims that a node holds have been admitted as valid ones. -/
theorem IsHeld.mem_valid (h : IsHeld past held) {c : Dict} :
    c ∈ valid_claims space held ↔ ∃ a ∈ valid_claims space past, unsigned_claim a = c := by
  unfold valid_claims
  simp only [List.mem_filter, decide_eq_true_eq, h.mem_iff]
  constructor
  · rintro ⟨⟨a, ha, rfl⟩, hspace, hsound⟩
    rw [get_unsigned_claim (by decide)] at hspace
    exact ⟨a, ⟨ha, hspace, claimSound_unsigned.mp hsound⟩, rfl⟩
  · rintro ⟨a, ⟨ha, hspace, hsound⟩, rfl⟩
    refine ⟨⟨a, ha, rfl⟩, ?_, claimSound_unsigned.mpr hsound⟩
    rwa [get_unsigned_claim (by decide)]

/-- Usable claims resolve lawfully. -/
theorem resolution_lawful (hheld : IsHeld past held)
    (husable : ∀ c ∈ valid_claims space past, ClaimUsable floats c)
    (hvalues : DistinctValues (valid_claims space past)) :
    ∃ found state, resolution_of floats space held = .ok (found, state) ∧
      LawfulOutcomes floats (valid_claims space held) found := by
  have husable' : ∀ c ∈ valid_claims space held, ClaimUsable floats c := by
    intro c hc
    obtain ⟨a, ha, rfl⟩ := hheld.mem_valid.mp hc
    exact (husable a ha).unsigned
  have hvalues' : DistinctValues (valid_claims space held) := by
    intro c hc c' hc' hkey
    obtain ⟨a, ha, rfl⟩ := hheld.mem_valid.mp hc
    obtain ⟨a', ha', rfl⟩ := hheld.mem_valid.mp hc'
    rw [value_key, value_key, value_of_unsigned, value_of_unsigned] at hkey
    rw [value_of_unsigned, value_of_unsigned]
    exact hvalues a ha a' ha' hkey
  obtain ⟨found, hfound, hnodup, hcover, hlawful⟩ := outcomes_lawful husable' hvalues'
  refine ⟨found, state_of space found (quarantined_claims space held), ?_, hnodup, hcover, hlawful⟩
  unfold resolution_of
  rw [hfound, ok_bind]

/-- A valid claim without one of the fields makes every resolution raise. -/
theorem resolution_unreadable (hheld : IsHeld past held)
    (h : ∃ c ∈ valid_claims space past, ¬ClaimReadable floats c) (found : List MeshOutcome) (state : Dict) :
    resolution_of floats space held ≠ .ok (found, state) := by
  intro hresolution
  obtain ⟨c, hc, hnot⟩ := h
  obtain ⟨outcomes, houtcomes, -⟩ := bind_eq_ok.mp hresolution
  obtain ⟨hcontext, hvalue, hauthority⟩ :=
    readable_of_outcomes houtcomes _ (hheld.mem_valid.mpr ⟨c, hc, rfl⟩)
  apply hnot
  rw [item_unsigned_claim (by decide)] at hcontext hvalue hauthority
  exact ⟨hcontext, hvalue, hauthority⟩

/-- A node raises where a valid claim that it has admitted lacks one of the fields. -/
theorem resolve_unreadable (hkeys : keys.Lawful) (hempty : m.claims = [])
    (hhash : DistinctHashes (admitted keys calls))
    (h : ∃ c ∈ valid_claims space (admitted keys calls), ¬ClaimReadable floats c) (receipt : Dict)
    (n : Mesh) : resolve floats keys space (admit_calls floats keys m calls) ≠ .ok receipt n := by
  intro hok
  obtain ⟨found, state, -, hresolution, -⟩ := resolve_eq_ok.mp hok
  obtain ⟨held, hheld, heq⟩ := @Holds.held floats keys _ _ (holds_admitted hempty calls)
    (admitted_of_mem hkeys) hhash
  rw [heq] at hresolution
  exact resolution_unreadable hheld h found state hresolution

/-- Two nodes that have admitted the same claims agree.  They resolve a namespace lawfully when every
valid claim of it has a context, a value and an authority that is a number other than NaN; `resolve`
raises where one lacks a field or its authority is no number. -/
theorem mesh_converges (hkeys : keys.Lawful) (hkeys' : keys'.Lawful) (hempty : m.claims = [])
    (hempty' : m'.claims = []) (hledger : Ledgered m.genesis.ledger)
    (hledger' : Ledgered m'.genesis.ledger)
    (hsame : ∀ c, c ∈ admitted keys calls ↔ c ∈ admitted keys' calls')
    (hhash : DistinctHashes (admitted keys calls))
    (hvalues : DistinctValues (valid_claims space (admitted keys calls))) :
    resolution floats keys (admit_calls floats keys m calls).claims space =
        resolution floats keys' (admit_calls floats keys' m' calls').claims space ∧
      ((∀ c ∈ valid_claims space (admitted keys calls), ClaimUsable floats c) →
        ∃ held found r n r' n', IsHeld (admitted keys calls) held ∧
          resolve floats keys space (admit_calls floats keys m calls) = .ok r n ∧
          resolve floats keys' space (admit_calls floats keys' m' calls') = .ok r' n' ∧
          Dict.get r "outcomes" = some (.arr (found.map outcome_json)) ∧
          Dict.get r' "outcomes" = Dict.get r "outcomes" ∧
          Dict.get r' "state_root_sha256" = Dict.get r "state_root_sha256" ∧
          LawfulOutcomes floats (valid_claims space held) found) ∧
      ((∃ c ∈ valid_claims space (admitted keys calls), ¬ClaimReadable floats c) →
        ∀ r n, resolve floats keys space (admit_calls floats keys m calls) ≠ .ok r n) := by
  have hholds := @holds_admitted floats keys m hempty calls
  have hholds' := @holds_admitted floats keys' m' hempty' calls'
  have heq := @same_resolution floats _ _ _ _ _ _ hholds hholds' (admitted_of_mem hkeys)
    (admitted_of_mem hkeys') hsame hhash space
  refine ⟨heq, fun husable => ?_, resolve_unreadable hkeys hempty hhash⟩
  obtain ⟨held, hheld, hresolution⟩ := @Holds.held floats keys _ _ hholds (admitted_of_mem hkeys) hhash
  obtain ⟨found, state, hok, hlawful⟩ := resolution_lawful hheld husable hvalues
  have hleft := (hresolution space).trans hok
  have hright := heq.symm.trans hleft
  obtain ⟨r, n, hr⟩ := resolve_returns hkeys (hledger.admit_calls calls) hleft
  obtain ⟨r', n', hr'⟩ := resolve_returns hkeys' (hledger'.admit_calls calls') hright
  obtain ⟨houtcomes, hroot⟩ := receipt_of_resolve hr hleft
  obtain ⟨houtcomes', hroot'⟩ := receipt_of_resolve hr' hright
  refine ⟨held, found, r, n, r', n', hheld, hr, hr', ?_, houtcomes'.trans houtcomes.symm,
    hroot'.trans hroot.symm, hlawful⟩
  obtain ⟨outcomes, -, hstate⟩ := bind_eq_ok.mp hok
  obtain ⟨rfl, rfl⟩ := Prod.mk.inj (Except.ok.inj hstate)
  rw [houtcomes]
  simp [state_of, Dict.of, Dict.get_set]

end Nodes

/-! ## A claim of a peer -/

/-- The material of a claim with this authority. -/
def peer_material (authority : Json) : Dict :=
  Dict.of [("format", .str CLAIM_FORMAT), ("namespace", .str "main"), ("value", .str "up"),
    ("context", .obj []), ("authority", authority), ("support", .int 1),
    ("capability_scope", .arr [.str "mesh"])]

def peer_claim (authority : Json) : Dict := signed_claim plain_keys (peer_material authority)

theorem sorted_peer_claim (authority : Json) : Dict.Sorted (peer_claim authority) :=
  Dict.sorted_set (Dict.sorted_set (Dict.sorted_of _))

/-- The node imports the claim this often. -/
def imports (authority : Json) (n : ℕ) : List Admission :=
  List.replicate n (.import_claim (peer_claim authority) (sorted_peer_claim authority))

/-- A node without claims. -/
def new_mesh : Mesh := ⟨[], none, Genesis.fresh⟩

section Peer

variable {authority : Json}

theorem get_peer_claim {key : String} (h : "signature" ≠ key) (h' : "claim_id" ≠ key) :
    Dict.get (peer_claim authority) key = Dict.get (peer_material authority) key := by
  rw [peer_claim, signed_claim, Dict.get_set_of_ne h, Dict.get_set_of_ne h']

theorem admitted_peer_claim : Admitted plain_keys (peer_claim authority) := by
  apply admitted_signed_claim plain_keys_lawful (Dict.sorted_of _)
  · simp [Dict.of, Dict.get_set, Dict.get]
  · simp [Dict.of, Dict.get_set, Dict.get]

theorem claimSound_peer_claim : ClaimSound (peer_claim authority) := by
  refine ⟨?_, admitted_peer_claim.id, ⟨1, ?_, le_rfl⟩, ?_⟩
  · rw [get_peer_claim (by decide) (by decide)]
    simp [peer_material, Dict.of, Dict.get_set]
  · rw [support_value, get_peer_claim (by decide) (by decide)]
    simp [peer_material, Dict.of, Dict.get_set, int_value]
  · rw [get_peer_claim (by decide) (by decide)]
    simp [peer_material, Dict.of, Json.truthy]

theorem admitted_imports (n : ℕ) :
    admitted plain_keys (imports authority n) = List.replicate n (peer_claim authority) := by
  have hverify : verify_mesh_claim plain_keys (peer_claim authority) = .ok [] :=
    verify_mesh_claim_eq_nil.mpr ⟨admitted_peer_claim.signed, claimSound_peer_claim⟩
  unfold admitted imports
  induction n with
  | zero => rfl
  | succ n ih =>
    rw [List.replicate_succ, List.flatMap_cons, ih, List.replicate_succ]
    show (if verify_mesh_claim plain_keys (peer_claim authority) = .ok [] then _ else _) ++ _ = _
    rw [if_pos hverify]
    rfl

theorem distinctHashes_imports (n : ℕ) : DistinctHashes (admitted plain_keys (imports authority n)) := by
  rw [admitted_imports]
  intro c hc c' hc' _
  rw [List.eq_of_mem_replicate hc, List.eq_of_mem_replicate hc']

theorem mem_valid_imports {n : ℕ} {c : Dict}
    (h : c ∈ valid_claims "main" (admitted plain_keys (imports authority n))) :
    c = peer_claim authority := by
  rw [admitted_imports] at h
  exact List.eq_of_mem_replicate (List.mem_filter.mp h).1

end Peer

/-- A node that imports a claim once and one that imports it three times agree. -/
theorem mesh_converges_imports :
    ∃ r n r' n', resolve (fun _ => none) plain_keys "main"
        (admit_calls (fun _ => none) plain_keys new_mesh (imports (.int 2) 1)) = .ok r n ∧
      resolve (fun _ => none) plain_keys "main"
        (admit_calls (fun _ => none) plain_keys new_mesh (imports (.int 2) 3)) = .ok r' n' ∧
      Dict.get r' "state_root_sha256" = Dict.get r "state_root_sha256" := by
  obtain ⟨-, husable, -⟩ := @mesh_converges (fun _ => none) _ _ new_mesh new_mesh (imports (.int 2) 1)
    (imports (.int 2) 3) "main" plain_keys_lawful plain_keys_lawful rfl rfl ledgered_nil ledgered_nil
    (fun c => by rw [admitted_imports, admitted_imports, List.mem_replicate, List.mem_replicate]; simp)
    (distinctHashes_imports 1)
    (fun c hc c' hc' _ => by rw [mem_valid_imports hc, mem_valid_imports hc'])
  obtain ⟨-, -, r, n, r', n', -, hr, hr', -, -, hroot, -⟩ := husable fun c hc => by
    obtain rfl := mem_valid_imports hc
    refine ⟨⟨.obj [], ?_⟩, ⟨.str "up", ?_⟩, ⟨.int 2, Number.of_int 2, ?_, rfl⟩⟩
    all_goals
      rw [get_peer_claim (by decide) (by decide)]
      simp [peer_material, Dict.of, Dict.get_set]
  exact ⟨r, n, r', n', hr, hr', hroot⟩

/-- A claim that a node has imported makes its resolution raise. -/
theorem mesh_resolve_raises :
    admitted plain_keys (imports (.str "high") 1) = [peer_claim (.str "high")] ∧
      ∀ r n, resolve (fun _ => none) plain_keys "main"
        (admit_calls (fun _ => none) plain_keys new_mesh (imports (.str "high") 1)) ≠ .ok r n := by
  refine ⟨admitted_imports 1, resolve_unreadable plain_keys_lawful rfl (distinctHashes_imports 1)
    ⟨peer_claim (.str "high"), ?_, fun hreadable => ?_⟩⟩
  · rw [admitted_imports]
    refine List.mem_filter.mpr ⟨List.mem_singleton.mpr rfl, decide_eq_true ⟨?_, claimSound_peer_claim⟩⟩
    rw [get_peer_claim (by decide) (by decide)]
    simp [peer_material, Dict.of, Dict.get_set]
  · obtain ⟨authority, x, hitem, hnumber⟩ := hreadable.authority
    rw [Dict.item_eq_ok, get_peer_claim (by decide) (by decide)] at hitem
    obtain rfl : Json.str "high" = authority := by
      simpa [peer_material, Dict.of, Dict.get_set] using hitem
    cases hnumber

end Bogbin.Bogvm
