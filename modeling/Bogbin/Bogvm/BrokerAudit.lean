import Bogbin.Bogvm.BrokerHandle

/-!
# Records of calls

The record of a call holds the evidence of its operation beside the fields that `_handle` adds, and
the evidence can be taken out of it again (`evidence_of_call_record`).
-/

namespace Bogbin.Bogvm

open StateExcept

namespace Dict

variable {d e : Dict} {k : String}

theorem sorted_update (h : Sorted d) : Sorted (update d e) := by
  unfold update
  induction e generalizing d with
  | nil => exact h
  | cons field rest ih => exact ih (sorted_set h)

/-- The second dictionary of an update comes first. -/
theorem get_update (h : Sorted e) : get (update d e) k = (get e k).or (get d k) := by
  unfold update
  induction e generalizing d with
  | nil => rfl
  | cons field rest ih =>
    obtain ⟨key, value⟩ := field
    obtain ⟨hkey, hrest⟩ := List.pairwise_cons.mp h
    rw [List.foldl_cons, ih hrest, get_set, get_cons]
    by_cases hk : key = k
    · subst hk
      rw [get_eq_none_of_lt hkey, if_pos rfl, if_pos rfl]
      rfl
    · rw [if_neg hk, if_neg hk]

theorem sorted_pops {keys : List String} (h : Sorted d) : Sorted (keys.foldl pop d) := by
  induction keys generalizing d with
  | nil => exact h
  | cons key keys ih => exact ih (sorted_pop h)

theorem get_pops {keys : List String} :
    get (keys.foldl pop d) k = if k ∈ keys then none else get d k := by
  induction keys generalizing d with
  | nil => simp
  | cons key keys ih =>
    rw [List.foldl_cons, ih, get_pop]
    by_cases hkeys : k ∈ keys
    · simp [hkeys]
    · by_cases hk : key = k
      · simp [hk]
      · simp [hkeys, hk, Ne.symm hk]

end Dict

/-! ## Evidence -/

/-- The keys that the record of a call has beside its evidence. -/
def record_keys : List String := ["format", "sequence", "app", "evidence_sha256", "failures"]

/-- The evidence in the record of a call. -/
def evidence_of (call : Dict) : Dict := record_keys.foldl Dict.pop call

/-- Evidence in the order of its keys, none of which is a key of the record. -/
structure PlainEvidence (d : Dict) : Prop where
  sorted : Dict.Sorted d
  plain : ∀ key ∈ record_keys, Dict.get d key = none

section Plain

variable {d evidence : Dict} {key : String} {value : Json}

theorem plain_set (h : PlainEvidence d) (hkey : key ∉ record_keys) : PlainEvidence (Dict.set d key value) := by
  refine ⟨Dict.sorted_set h.sorted, fun k hk => ?_⟩
  have hne : key ≠ k := by
    rintro rfl
    exact hkey hk
  rw [Dict.get_set_of_ne hne]
  exact h.plain k hk

theorem plain_operation : PlainEvidence (Dict.of [("operation", value)]) :=
  @plain_set [] "operation" value ⟨Dict.sorted_nil, fun _ _ => rfl⟩ (by decide)

theorem plain_path_evidence {allowed : List String} (h : PlainEvidence evidence) :
    PlainEvidence (path_evidence evidence allowed value) :=
  plain_set (plain_set h (by decide)) (by decide)

theorem plain_package_evidence {b : Broker} (h : PlainEvidence evidence) :
    PlainEvidence (package_evidence b evidence value) :=
  plain_set (plain_set h (by decide)) (by decide)

theorem plain_env_evidence {b : Broker} (h : PlainEvidence evidence) : PlainEvidence (env_evidence b evidence value) :=
  plain_set (plain_set (plain_set h (by decide)) (by decide)) (by decide)

variable {b : Broker} {site : Site} {request : Dict} {failures : List StoreFailure}
  {outcome : Outcome} {state state' : BrokerState}

theorem plain_check_request (h : check_request b site request = .ok (evidence, failures)) :
    PlainEvidence evidence := by
  cases htoken : valid_token b request with
  | false =>
    obtain ⟨rfl, -⟩ := Prod.mk.inj (Except.ok.inj ((check_request_invalid htoken).symm.trans h))
    exact plain_operation
  | true =>
    obtain ⟨-, ⟨-, -, rfl⟩ | ⟨v, -, -, -, rfl⟩⟩ := check_request_ok htoken h
    · exact plain_operation
    · exact plain_set (plain_set plain_operation (by decide)) (by decide)

theorem plain_perform (hevidence : PlainEvidence evidence)
    (h : perform b site request evidence failures state = .ok outcome state') :
    PlainEvidence outcome.evidence := by
  have hbranch : Branch b site request evidence failures (perform b site request evidence failures) :=
    branch_perform
  generalize perform b site request evidence failures = x at h hbranch
  cases hbranch with
  | unauthorized | unknown =>
    obtain ⟨rfl, -⟩ := EStateM.Result.ok.inj h
    exact hevidence
  | read =>
    rcases read_call_ok (ofExcept_eq_ok.mp h).1 with hrefused | ⟨text, data, -, -, -, rfl⟩
    · rw [hrefused.evidence]
      exact plain_path_evidence hevidence
    · exact plain_set (plain_path_evidence hevidence) (by decide)
  | write =>
    rcases write_call_ok h with ⟨-, sha256, hrefused⟩ | ⟨hex, text, target, data, -, -, -, -, -, -, rfl⟩
    · rw [hrefused.evidence]
      exact plain_set (plain_path_evidence hevidence) (by decide)
    · exact plain_set (plain_path_evidence hevidence) (by decide)
  | env =>
    rw [(env_call_ok (ofExcept_eq_ok.mp h).1).1]
    exact plain_env_evidence hevidence
  | dependency =>
    rcases dependency_call_ok (ofExcept_eq_ok.mp h).1 with ⟨hrefused, -⟩ |
      ⟨name, v, -, -, -, -, hverified, -⟩
    · rw [hrefused.evidence]
      exact plain_package_evidence hevidence
    · rw [hverified]
      exact plain_set (plain_set (plain_package_evidence hevidence) (by decide)) (by decide)
  | receipt =>
    obtain ⟨rfl, -⟩ := EStateM.Result.ok.inj h
    exact plain_set hevidence (by decide)

theorem plain_final_evidence (h : PlainEvidence outcome.evidence) : PlainEvidence (final_evidence outcome) :=
  plain_set h (by decide)

end Plain

/-! ## Records -/

section Records

variable {b : Broker} {sequence : ℕ} {outcome : Outcome} {k : String}

/-- The fields of a record. -/
theorem get_call_record (h : PlainEvidence outcome.evidence) :
    Dict.get (call_record b sequence outcome) k =
      if k = "format" then some (.str "BOGK-capability-syscall-receipt-8.0")
      else if k = "sequence" then some (.int sequence)
      else if k = "app" then some (.str b.app_info.name)
      else if k = "evidence_sha256" then some (.str (stable_hash (.obj (final_evidence outcome))))
      else if k = "failures" then some (.arr (outcome.failures.map failure_json))
      else Dict.get (final_evidence outcome) k := by
  have hplain := plain_final_evidence h
  have hstatus : Dict.get (final_evidence outcome) "execution_status" =
      some (status_json outcome.failures) := Dict.get_set_self
  unfold call_record
  rw [Dict.get_update (Dict.sorted_of _), Dict.get_update hplain.sorted]
  generalize stable_hash (.obj (final_evidence outcome)) = hash
  generalize final_evidence outcome = evidence at hplain hstatus
  simp only [Dict.of, List.foldl_cons, List.foldl_nil, Dict.get_set]
  by_cases hformat : k = "format"
  · simp [hformat, hplain.plain "format" (by decide), Dict.get]
  by_cases hsequence : k = "sequence"
  · simp [hsequence, hplain.plain "sequence" (by decide), Dict.get]
  by_cases happ : k = "app"
  · simp [happ, hplain.plain "app" (by decide), Dict.get]
  by_cases hhash : k = "evidence_sha256"
  · simp [hhash, Dict.get]
  by_cases hfailures : k = "failures"
  · simp [hfailures, Dict.get]
  by_cases hkey : k = "execution_status"
  · simp [hkey, hstatus, Dict.get]
  · simp [hformat, hsequence, happ, hhash, hfailures, Ne.symm hformat, Ne.symm hsequence,
      Ne.symm happ, Ne.symm hhash, Ne.symm hfailures, Ne.symm hkey, Dict.get]

/-- The evidence can be taken out of a record. -/
theorem evidence_of_call_record (h : PlainEvidence outcome.evidence) :
    evidence_of (call_record b sequence outcome) = final_evidence outcome := by
  have hplain := plain_final_evidence h
  refine Dict.ext_of_sorted (Dict.sorted_pops ?_) hplain.sorted fun k => ?_
  · exact Dict.sorted_update (Dict.sorted_update (Dict.sorted_of _))
  · unfold evidence_of
    rw [Dict.get_pops]
    split_ifs with hk
    · exact (hplain.plain k hk).symm
    · rw [get_call_record h]
      simp only [record_keys, List.mem_cons, List.not_mem_nil, or_false, not_or] at hk
      obtain ⟨hformat, hsequence, happ, hhash, hfailures⟩ := hk
      rw [if_neg hformat, if_neg hsequence, if_neg happ, if_neg hhash, if_neg hfailures]

end Records

/-- The records of calls are numbered, and each holds the hash of its own evidence. -/
def Audited (calls : List Dict) : Prop :=
  ∀ i (h : i < calls.length), Dict.get calls[i] "sequence" = some (.int (i + 1)) ∧
    Dict.get calls[i] "evidence_sha256" = some (.str (stable_hash (.obj (evidence_of calls[i]))))

theorem audited_append {b : Broker} {calls : List Dict} {outcome : Outcome} (hcalls : Audited calls)
    (h : PlainEvidence outcome.evidence) :
    Audited (calls ++ [call_record b (calls.length + 1) outcome]) := by
  intro i hi
  by_cases hlast : i < calls.length
  · rw [List.getElem_append_left hlast]
    exact hcalls i hlast
  · have hlength : i = calls.length := by
      rw [List.length_append, List.length_singleton] at hi
      omega
    subst hlength
    rw [List.getElem_append_right le_rfl]
    simp only [Nat.sub_self, List.getElem_singleton]
    rw [evidence_of_call_record h, get_call_record h, get_call_record h]
    exact ⟨rfl, rfl⟩

end Bogbin.Bogvm
