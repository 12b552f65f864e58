import Bogbin.Bogvm.StorePackage
import Bogbin.Library.Grouping
import Bogbin.Library.StateExcept
import Mathlib.Algebra.Order.Ring.Rat
import Mathlib.Order.WithBot

/-!
# The mesh

`BogMesh`: signed claims that nodes exchange as files, and the resolution of the claims of a
namespace.  The directory of the claims is a dictionary by the ids in their file names.  What the
text of a float stands for is a parameter; an authority that is not a number raises where the code
compares it or takes its negative.
-/

namespace Bogbin.Bogvm

open Grouping

def CLAIM_FORMAT : String := "BOGMESH-signed-claim-11.0"

/-- The values of numbers, with the infinities. -/
abbrev Number := WithBot (WithTop ℚ)

def Number.of_int (n : ℤ) : Number := ((n : ℚ) : WithTop ℚ)

/-- The value of a float by its text; NaN has none. -/
abbrev Floats := String → Option Number

/-- A node: the directory of the claims, the file of the state and the ledger. -/
structure Mesh where
  claims : Dict
  state : Option Dict
  genesis : Genesis

abbrev MeshM := EStateM PyError Mesh

/-! ## Claims -/

/-- The claim without its signature. -/
def unsigned_claim (claim : Dict) : Dict := Dict.pop claim "signature"

/-- What the id of a claim is the hash of. -/
def claim_material (claim : Dict) : Dict := Dict.pop (unsigned_claim claim) "claim_id"

def claim_id (claim : Dict) : Json := (Dict.get claim "claim_id").getD .null

/-- `claim.get("support")` -/
def support_value (claim : Dict) : Option ℤ := (Dict.get claim "support").bind int_value

/-- `_verify_claim`; the path of a failure is the id of the claim. -/
def verify_mesh_claim (keys : Keys) (claim : Dict) : Except PyError (List Failure) := do
  let signature := (Dict.get claim "signature").getD (.obj [])
  let unsigned := unsigned_claim claim
  let path := claim_id unsigned
  let verified ← verify_object_signature keys unsigned signature
  .ok (failure_if (Dict.get claim "format" ≠ some (.str CLAIM_FORMAT) ∨
        path ≠ .str (stable_hash (.obj (claim_material claim))))
        (path, "mesh claim format or hash mismatch") ++
      failure_if (!verified) (path, "mesh claim signature is not trusted") ++
      failure_if (¬ ∃ n ∈ support_value claim, 1 ≤ n) (path, "mesh support must be a positive integer") ++
      failure_if (!((Dict.get claim "capability_scope").getD .null).truthy)
        (path, "mesh claim has no capability scope"))

/-! ## Resolving -/

section Resolve

variable (floats : Floats)

/-- The value of a number; a value that is no number raises. -/
def number : Json → Except PyError (Option Number)
  | .int n => .ok (some (Number.of_int n))
  | .bool b => .ok (some (Number.of_int (if b then 1 else 0)))
  | .float r => .ok (floats r)
  | _ => .error .TypeError

/-- `a > b` -/
def exceeds : Option Number → Option Number → Bool
  | some x, some y => y < x
  | _, _ => false

/-- The step of `max` for an item. -/
def greater (current item : Json) : Except PyError Json := do
  let x ← number floats item
  let y ← number floats current
  .ok (if exceeds x y then item else current)

/-- `max(values)`, where the values are numbers. -/
def max_number : List Json → Except PyError Json
  | [] => .error .ValueError
  | first :: rest => do
    let _ ← number floats first
    rest.foldlM (greater floats) first

structure Candidate where
  value_hash : String
  value : Json
  pressure : ℤ
  authority : Json
  claims : List Json

/-- The claims with one value. -/
def candidate_of (group : String × List Dict) : Except PyError Candidate :=
  match group.2 with
  | [] => .error .IndexError
  | first :: rest => do
    let value ← Dict.item first "value"
    let authorities ← (first :: rest).mapM fun claim => Dict.item claim "authority"
    let authority ← max_number floats authorities
    .ok ⟨group.1, value, ((first :: rest).map fun claim => (support_value claim).getD 0).sum, authority,
      ((first :: rest).map claim_id).mergeSort fun a b => a.dumps ≤ b.dumps⟩

/-- The value of an authority that is a number. -/
def authority_value (candidate : Candidate) : Option Number :=
  match number floats candidate.authority with
  | .ok value => value
  | .error _ => none

/-- The order of the key `(-authority, -pressure, value_hash)`. -/
def rank_le (a b : Candidate) : Bool :=
  exceeds (authority_value floats a) (authority_value floats b) ||
    (authority_value floats a = authority_value floats b &&
      (b.pressure < a.pressure || (a.pressure = b.pressure && a.value_hash.toList ≤ b.value_hash.toList)))

structure MeshOutcome where
  context : Json
  policy : String
  selected : Option Candidate
  candidates : List Candidate

/-- The policy for the ranked candidates, and the candidate that it selects. -/
def policy_of : List Candidate → Except PyError (String × Option Candidate)
  | [] => .error .IndexError
  | [first] => .ok ("converge", some first)
  | first :: second :: _ =>
    if exceeds (authority_value floats first) (authority_value floats second) ∨
        second.pressure < first.pressure then .ok ("winner", some first)
    else .ok ("split", none)

/-- The hash of the value of a claim. -/
def value_hash (claim : Dict) : Except PyError String := do
  let value ← Dict.item claim "value"
  .ok (stable_hash (.obj [("value", value)]))

/-- The claims of one context. -/
def outcome_of (group : List Char × List Dict) : Except PyError MeshOutcome := do
  let entries ← group.2.mapM fun claim => do
    let hash ← value_hash claim
    .ok (hash, claim)
  let candidates ← (group_by entries).mapM (candidate_of floats)
  let ranked := candidates.mergeSort (rank_le floats)
  let (policy, selected) ← policy_of floats ranked
  -- the key is the text of the context of each claim of the group
  let context ← match group.2 with
    | [] => .error .IndexError
    | first :: _ => Dict.item first "context"
  .ok ⟨context, policy, selected, ranked⟩

/-- The canonical text of the context of a claim. -/
def context_key (claim : Dict) : Except PyError (List Char) := do
  let context ← Dict.item claim "context"
  .ok context.dumps

def outcomes (valid : List Dict) : Except PyError (List MeshOutcome) := do
  let entries ← valid.mapM fun claim => do
    let key ← context_key claim
    .ok (key, claim)
  ((group_by entries).mergeSort fun a b => a.1 ≤ b.1).mapM (outcome_of floats)

/-- The valid and the quarantined claims of a namespace. -/
def read_claims (keys : Keys) (space : String) : Dict → Except PyError (List Dict × List Dict)
  | [] => .ok ([], [])
  | (_, claim) :: rest => do
    let claim ← as_dict claim
    if Dict.get claim "namespace" ≠ some (.str space) then read_claims keys space rest
    else
      let failures ← verify_mesh_claim keys claim
      let (valid, quarantined) ← read_claims keys space rest
      if failures = [] then .ok (claim :: valid, quarantined)
      else .ok (valid, claim :: quarantined)

def candidate_json (candidate : Candidate) : Json :=
  .obj (Dict.of [("value_hash", .str candidate.value_hash), ("value", candidate.value),
    ("pressure", .int candidate.pressure), ("authority", candidate.authority),
    ("claims", .arr candidate.claims)])

def outcome_json (outcome : MeshOutcome) : Json :=
  .obj (Dict.of [("context", outcome.context), ("policy", .str outcome.policy),
    ("selected", (outcome.selected.map candidate_json).getD .null),
    ("candidates", .arr (outcome.candidates.map candidate_json))])

/-- The state of a namespace with its root. -/
def state_of (space : String) (found : List MeshOutcome) (quarantined : List Dict) : Dict :=
  let state := Dict.of [("format", .str "BOGMESH-state-11.0"), ("namespace", .str space),
    ("outcomes", .arr (found.map outcome_json)),
    ("quarantined_claims", .arr (quarantined.map claim_id))]
  Dict.set state "state_root_sha256" (.str (stable_hash (.obj state)))

def conflict_receipt (state : Dict) (found : List MeshOutcome) : Dict :=
  Dict.set (Dict.set (Dict.set (Dict.set state "format" (.str "BOGMESH-conflict-receipt-11.0"))
    "conflict_detected" (.bool (found.any fun outcome => 1 < outcome.candidates.length)))
    "context_split" (.bool (found.any (fun outcome => outcome.policy = "split") || 1 < found.length)))
    "execution_status" (.str "completed")

/-- The outcomes of a namespace, with the state that has them. -/
def resolution (keys : Keys) (claims : Dict) (space : String) :
    Except PyError (List MeshOutcome × Dict) := do
  let (valid, quarantined) ← read_claims keys space claims
  let found ← outcomes floats valid
  .ok (found, state_of space found quarantined)

def resolve (keys : Keys) (space : String) : MeshM Dict := do
  let (found, state) ← MonadExcept.ofExcept (resolution floats keys (← get).claims space)
  modify fun m => { m with state := some state }
  let (signed, genesis) ← MonadExcept.ofExcept
    (record keys (← get).genesis "mesh-resolve" (conflict_receipt state found))
  modify fun m => { m with genesis := genesis }
  pure signed

end Resolve

/-! ## Admitting claims -/

/-- The arguments of `propose`. -/
structure Proposal where
  space : String
  value : Json
  context : Option Dict
  authority : ℤ
  support : ℤ
  capability_scope : List String

/-- The claim that a node makes of a proposal, with the hash of its material as its id. -/
def proposed_material (keys : Keys) (proposal : Proposal) : Except PyError Dict :=
  match keys.trusted_keys with
  | [] => .error .IndexError
  | first :: _ =>
    .ok (Dict.of [("format", .str CLAIM_FORMAT), ("namespace", .str proposal.space),
      ("value", proposal.value), ("context", .obj (proposal.context.getD [])),
      ("authority", .int proposal.authority), ("support", .int proposal.support),
      ("capability_scope", .arr ((sorted_set proposal.capability_scope).map .str)),
      ("proposer_key_id", .str (key_id first))])

def signed_claim (keys : Keys) (material : Dict) : Dict :=
  let unsigned := Dict.set material "claim_id" (.str (stable_hash (.obj material)))
  Dict.set unsigned "signature" (.obj (sign_object keys unsigned))

/-- Write the file of a claim. -/
def store_claim (id : String) (claim : Dict) : MeshM Unit :=
  modify fun m => { m with claims := Dict.set m.claims id (.obj claim) }

def propose (floats : Floats) (keys : Keys) (proposal : Proposal) : MeshM Dict := do
  let material ← MonadExcept.ofExcept (proposed_material keys proposal)
  store_claim (stable_hash (.obj material)) (signed_claim keys material)
  resolve floats keys proposal.space

/-- The receipt of an import. -/
def import_receipt (claim : Dict) (failures : List Failure) : Dict :=
  Dict.of [("format", .str "BOGMESH-import-receipt-11.0"), ("claim_id", claim_id claim),
    ("failures", .arr (failures.map fun failure =>
      .obj (Dict.of [("path", failure.1), ("reason", .str failure.2)]))),
    ("execution_status", .str (execution_status failures))]

/-- A file with a JSON object; another value raises before anything is stored. -/
def import_claim (keys : Keys) (claim : Dict) : MeshM Dict := do
  let failures ← MonadExcept.ofExcept (verify_mesh_claim keys claim)
  if failures = [] then
    match claim_id claim with
    | .str id => store_claim id claim
    | _ => pure ()
  pure (import_receipt claim failures)

end Bogbin.Bogvm
