import Bogbin.Bogvm.BrokerAudit
import Bogbin.Bogvm.BrokerProcess

/-!
# Replay of a call

`_replay_call` makes the evidence of a recorded call again (`replay_evidence_eq`), where the request
had the token of the broker and a known operation, and the file of a completed write still has its
hash.
-/

namespace Bogbin.Bogvm

open StateExcept

/-! ## The status of a call among its evidence -/

section Status

variable {d : Dict} {status value : Json}

/-- The status can be set before or after another field. -/
theorem set_status {key : String} (h : Dict.Sorted d) (hkey : "execution_status" ≠ key) :
    Dict.set (Dict.set d "execution_status" status) key value =
      Dict.set (Dict.set d key value) "execution_status" status :=
  Dict.set_comm h hkey

theorem status_path_evidence {allowed : List String} {path : Json} (h : Dict.Sorted d) :
    path_evidence (Dict.set d "execution_status" status) allowed path =
      Dict.set (path_evidence d allowed path) "execution_status" status := by
  rw [path_evidence, set_status h (by decide), set_status (Dict.sorted_set h) (by decide)]
  rfl

theorem status_verified_evidence {v : Verification} (h : Dict.Sorted d) :
    verified_evidence (Dict.set d "execution_status" status) v =
      Dict.set (verified_evidence d v) "execution_status" status := by
  rw [verified_evidence, set_status h (by decide), set_status (Dict.sorted_set h) (by decide)]
  rfl

theorem status_env_evidence {b : Broker} {name : Json} (h : Dict.Sorted d) :
    env_evidence b (Dict.set d "execution_status" status) name =
      Dict.set (env_evidence b d name) "execution_status" status := by
  rw [env_evidence, set_status h (by decide), set_status (Dict.sorted_set h) (by decide),
    set_status (Dict.sorted_set (Dict.sorted_set h)) (by decide)]
  rfl

theorem status_package_evidence {b : Broker} {package : Json} (h : Dict.Sorted d) :
    package_evidence b (Dict.set d "execution_status" status) package =
      Dict.set (package_evidence b d package) "execution_status" status := by
  rw [package_evidence, set_status h (by decide), set_status (Dict.sorted_set h) (by decide)]
  rfl

theorem status_verification_evidence {v : Verification} (h : Dict.Sorted d) :
    verification_evidence (Dict.set d "execution_status" status) v =
      Dict.set (verification_evidence d v) "execution_status" status := by
  rw [verification_evidence, set_status h (by decide), set_status (Dict.sorted_set h) (by decide)]
  rfl

end Status

/-! ## Calls -/

/-- The record of a request with the token and a known operation. -/
structure CallRecorded (b : Broker) (site : Site) (call : Dict) (sequence : ℕ) (request evidence : Dict)
    (failures : List StoreFailure) (outcome : Outcome) (before after : BrokerState) : Prop where
  token : valid_token b request = true
  known : listed ["read", "write", "env", "dependency", "receipt"] (requested request "operation") = true
  checked : check_request b site request = .ok (evidence, failures)
  performed : perform b site request evidence failures before = .ok outcome after
  plain : PlainEvidence outcome.evidence
  record : call = call_record b sequence outcome

section Calls

variable {b : Broker} {site : Site} {runtime : Tree Bytes} {call : Dict} {sequence : ℕ}
  {request evidence : Dict} {failures : List StoreFailure} {outcome : Outcome}
  {before after : BrokerState} {verify : Bool}

theorem get_operation (htoken : valid_token b request = true)
    (hcheck : check_request b site request = .ok (evidence, failures)) :
    Dict.get evidence "operation" = some (requested request "operation") := by
  obtain ⟨-, ⟨-, -, rfl⟩ | ⟨v, -, -, -, rfl⟩⟩ := check_request_ok htoken hcheck
  · rfl
  · rw [verified_evidence, Dict.get_set_of_ne (by decide), Dict.get_set_of_ne (by decide)]
    rfl

namespace CallRecorded

variable (h : CallRecorded b site call sequence request evidence failures outcome before after)

include h

theorem sorted_evidence : Dict.Sorted evidence := (plain_check_request h.checked).sorted

/-- With an intact package the check of a request finds nothing. -/
theorem failures_eq_nil (hintact : PackageIntact b site) : failures = [] := by
  obtain ⟨-, ⟨-, hnil, -⟩ | ⟨v, hneeds, -⟩⟩ := check_request_ok h.token h.checked
  · exact hnil
  · exact (failures_iff_intact h.token hneeds h.checked).mpr hintact

/-- A field of the evidence is a field of the record. -/
theorem item_eq {key : String} {value : Json} (hget : Dict.get outcome.evidence key = some value)
    (hkey : key ∉ record_keys) (hstatus : "execution_status" ≠ key) :
    Dict.item call key = .ok value := by
  rw [Dict.item_eq_ok, h.record, get_call_record h.plain]
  simp only [record_keys, List.mem_cons, List.not_mem_nil, or_false, not_or] at hkey
  obtain ⟨hformat, hsequence, happ, hhash, hfailures⟩ := hkey
  rw [if_neg hformat, if_neg hsequence, if_neg happ, if_neg hhash, if_neg hfailures, final_evidence,
    Dict.get_set_of_ne hstatus, hget]

theorem item_status : Dict.item call "execution_status" = .ok (status_json outcome.failures) := by
  rw [Dict.item_eq_ok, h.record, get_call_record h.plain, if_neg (by decide), if_neg (by decide),
    if_neg (by decide), if_neg (by decide), if_neg (by decide)]
  exact Dict.get_set_self

/-- The evidence of the check, with the status. -/
theorem replay_check_eq :
    replay_check b site (requested request "operation") (status_json outcome.failures) =
      .ok (Dict.set evidence "execution_status" (status_json outcome.failures)) := by
  have hbase : Dict.of [("operation", requested request "operation"),
      ("execution_status", status_json outcome.failures)] =
      Dict.set (Dict.of [("operation", requested request "operation")]) "execution_status"
        (status_json outcome.failures) := rfl
  obtain ⟨hhash, ⟨hneeds, -, rfl⟩ | ⟨v, hneeds, hv, -, rfl⟩⟩ := check_request_ok h.token h.checked
  · rw [replay_check, hhash, hneeds, if_neg (by decide), if_neg (by decide), hbase]
  · rw [replay_check, hhash, hneeds, if_neg (by decide), if_pos rfl, hv, ok_bind, hbase]
    exact congrArg Except.ok (status_verified_evidence (Dict.sorted_of _))

end CallRecorded

/-! ## The operations -/

theorem get_path_evidence {allowed : List String} {path : Json} :
    Dict.get (path_evidence evidence allowed path) "path" = some path := by
  rw [path_evidence, Dict.get_set_of_ne (by decide), Dict.get_set_self]

theorem write_call_evidence
    (h : write_call b site request evidence failures before = .ok outcome after) :
    ∃ sha256, outcome.evidence = Dict.set (path_evidence evidence b.app_info.capabilities.write
      (requested request "path")) "sha256" (.str sha256) := by
  rcases write_call_ok h with ⟨-, sha256, hrefused⟩ |
    ⟨_, text, _, data, -, -, -, htext, -, -, houtcome⟩
  · exact ⟨sha256, hrefused.evidence⟩
  · exact ⟨hexdigest data, by rw [houtcome, htext]⟩

theorem status_of_failures (h : outcome.failures ≠ []) :
    status_json outcome.failures = .str "blocked" := by
  rw [status_json, if_neg h]

theorem status_of_no_failures (h : outcome.failures = []) :
    status_json outcome.failures = .str "completed" := by
  rw [status_json, if_pos h]

namespace CallRecorded

variable (h : CallRecorded b site call sequence request evidence failures outcome before after)

include h

theorem replay_read_call_eq (hread : read_call b site request evidence failures = .ok outcome) :
    replay_read_call b site (Dict.set evidence "execution_status" (status_json outcome.failures)) call
      (status_json outcome.failures) = .ok (final_evidence outcome) := by
  rw [replay_read_call, final_evidence]
  rcases read_call_ok hread with hrefused | ⟨text, data, -, htext, hreadable, houtcome⟩
  · have hpath : Dict.get outcome.evidence "path" = some (requested request "path") := by
      rw [hrefused.evidence]
      exact get_path_evidence
    rw [h.item_eq hpath (by decide) (by decide), ok_bind,
      status_path_evidence h.sorted_evidence, hrefused.evidence,
      status_of_failures hrefused.failures, if_pos (by decide)]
  · have hpath : Dict.get outcome.evidence "path" = some (.str text) := by
      rw [houtcome, Dict.get_set_of_ne (by decide)]
      exact get_path_evidence
    obtain ⟨target, hresolve⟩ := hreadable.contained
    have hcompleted : outcome.failures = [] := by rw [houtcome]
    rw [h.item_eq hpath (by decide) (by decide), ok_bind, status_path_evidence h.sorted_evidence,
      status_of_no_failures hcompleted, if_neg (by decide)]
    dsimp only
    rw [hreadable.not_symlink, if_neg (by decide), hresolve, ok_bind, hreadable.file, houtcome]
    exact congrArg Except.ok (set_status (plain_path_evidence
      (plain_check_request h.checked)).sorted (by decide))

/-- A write is replayed, where the file of a completed one still has its hash. -/
theorem replay_write_call_eq
    (hwrite : write_call b site request evidence failures before = .ok outcome after)
    (hfile : outcome.failures = [] → verify = true → ∃ hash,
      runtime_hash site runtime (requested request "path") = .ok (some (some hash)) ∧
        Dict.get outcome.evidence "sha256" = some (.str hash)) :
    replay_write_call b site runtime (Dict.set evidence "execution_status"
      (status_json outcome.failures)) call (status_json outcome.failures) verify =
        .ok (final_evidence outcome) := by
  obtain ⟨sha256, hevidence⟩ := write_call_evidence hwrite
  have hpath : Dict.get outcome.evidence "path" = some (requested request "path") := by
    rw [hevidence, Dict.get_set_of_ne (by decide)]
    exact get_path_evidence
  have hsha256 : Dict.get outcome.evidence "sha256" = some (.str sha256) := by
    rw [hevidence, Dict.get_set_self]
  have hset : Dict.set (Dict.set (path_evidence evidence b.app_info.capabilities.write
      (requested request "path")) "execution_status" (status_json outcome.failures)) "sha256"
      (.str sha256) = final_evidence outcome := by
    rw [final_evidence, hevidence]
    exact set_status (plain_path_evidence (plain_check_request h.checked)).sorted (by decide)
  have hrecorded := h.item_eq hsha256 (by decide) (by decide)
  rw [Dict.item_eq_ok] at hrecorded
  rw [replay_write_call, h.item_eq hpath (by decide) (by decide), ok_bind,
    status_path_evidence h.sorted_evidence]
  dsimp only
  split_ifs with hverify
  · rw [Bool.and_eq_true, decide_eq_true_iff] at hverify
    have hcompleted : outcome.failures = [] := by
      by_contra hfailures
      rw [status_of_failures hfailures] at hverify
      exact absurd (Json.str.inj hverify.1) (by decide)
    obtain ⟨hash, hruntime, hget⟩ := hfile hcompleted hverify.2
    obtain rfl := Json.str.inj (Option.some.inj (hsha256.symm.trans hget))
    rw [hruntime, ok_bind]
    exact congrArg Except.ok hset
  · rw [hrecorded]
    exact congrArg Except.ok hset

theorem replay_env_call_eq (henv : env_call b request evidence failures = .ok outcome) :
    replay_env_call b (Dict.set evidence "execution_status" (status_json outcome.failures)) call =
      .ok (final_evidence outcome) := by
  have hevidence := (env_call_ok henv).1
  have hname : Dict.get outcome.evidence "name" = some (requested request "name") := by
    rw [hevidence, env_evidence, Dict.get_set_of_ne (by decide), Dict.get_set_of_ne (by decide),
      Dict.get_set_self]
  have hhash := env_call_ok_iff.mp ⟨outcome, henv⟩
  rw [replay_env_call, h.item_eq hname (by decide) (by decide), ok_bind, hhash, if_neg (by decide),
    final_evidence, hevidence]
  exact congrArg Except.ok (status_env_evidence h.sorted_evidence)

/-- A request for a package is replayed, since the package of the app was intact. -/
theorem replay_dependency_call_eq (hintact : PackageIntact b site)
    (hdependency : dependency_call b site request evidence failures = .ok outcome) :
    replay_dependency_call b site (Dict.set evidence "execution_status"
      (status_json outcome.failures)) call = .ok (final_evidence outcome) := by
  rw [replay_dependency_call, final_evidence]
  rcases dependency_call_ok hdependency with ⟨hrefused, hcause⟩ |
    ⟨name, v, -, hname, hlisted, hv, hevidence, -⟩
  · have hnot : listed b.app_info.capabilities.dependencies (requested request "package") = false :=
      hcause.resolve_left (not_not.mpr (h.failures_eq_nil hintact))
    have hpackage : Dict.get outcome.evidence "package" = some (requested request "package") := by
      rw [hrefused.evidence, package_evidence, Dict.get_set_of_ne (by decide), Dict.get_set_self]
    rw [h.item_eq hpackage (by decide) (by decide), ok_bind, hrefused.evidence]
    have hset : package_evidence b (Dict.set evidence "execution_status"
        (status_json outcome.failures)) (requested request "package") =
        Dict.set (package_evidence b evidence (requested request "package")) "execution_status"
          (status_json outcome.failures) := status_package_evidence h.sorted_evidence
    rw [package_evidence, hnot] at hset
    rw [hnot]
    generalize requested request "package" = package at hset hnot ⊢
    cases package with
    | null | bool | int | float | arr | obj => exact congrArg Except.ok hset
    | str name => exact congrArg Except.ok hset
  · have hpackage : Dict.get outcome.evidence "package" = some (.str name) := by
      rw [hevidence, verification_evidence, Dict.get_set_of_ne (by decide),
        Dict.get_set_of_ne (by decide), package_evidence, Dict.get_set_of_ne (by decide),
        Dict.get_set_self]
    have hallowed : listed b.app_info.capabilities.dependencies (.str name) = true :=
      decide_eq_true hlisted
    rw [h.item_eq hpackage (by decide) (by decide), ok_bind]
    dsimp only
    rw [hallowed, if_neg (by decide), hv, ok_bind, hevidence]
    have hset : package_evidence b (Dict.set evidence "execution_status"
        (status_json outcome.failures)) (.str name) =
        Dict.set (package_evidence b evidence (.str name)) "execution_status"
          (status_json outcome.failures) := status_package_evidence h.sorted_evidence
    rw [package_evidence, hallowed] at hset
    rw [hset]
    exact congrArg Except.ok (status_verification_evidence
      (plain_package_evidence (plain_check_request h.checked)).sorted)

theorem get_operation_outcome :
    Dict.get outcome.evidence "operation" = some (requested request "operation") := by
  have hget := get_operation h.token h.checked
  have hperform := h.performed
  have hbranch : Branch b site request evidence failures (perform b site request evidence failures) :=
    branch_perform
  generalize perform b site request evidence failures = x at hperform hbranch
  cases hbranch with
  | unauthorized htoken =>
    rw [h.token] at htoken
    cases htoken
  | unknown _ hunknown =>
    rw [h.known] at hunknown
    cases hunknown
  | read =>
    rcases read_call_ok (ofExcept_eq_ok.mp hperform).1 with hrefused | ⟨text, data, -, -, -, houtcome⟩
    · rw [hrefused.evidence, path_evidence, Dict.get_set_of_ne (by decide),
        Dict.get_set_of_ne (by decide), hget]
    · rw [houtcome, Dict.get_set_of_ne (by decide), path_evidence, Dict.get_set_of_ne (by decide),
        Dict.get_set_of_ne (by decide), hget]
  | write =>
    rcases write_call_ok hperform with ⟨-, sha256, hrefused⟩ |
      ⟨_, text, _, data, -, -, -, -, -, -, houtcome⟩
    · rw [hrefused.evidence, Dict.get_set_of_ne (by decide), path_evidence,
        Dict.get_set_of_ne (by decide), Dict.get_set_of_ne (by decide), hget]
    · rw [houtcome, Dict.get_set_of_ne (by decide), path_evidence, Dict.get_set_of_ne (by decide),
        Dict.get_set_of_ne (by decide), hget]
  | env =>
    rw [(env_call_ok (ofExcept_eq_ok.mp hperform).1).1, env_evidence, Dict.get_set_of_ne (by decide),
      Dict.get_set_of_ne (by decide), Dict.get_set_of_ne (by decide), hget]
  | dependency =>
    rcases dependency_call_ok (ofExcept_eq_ok.mp hperform).1 with ⟨hrefused, -⟩ |
      ⟨name, v, -, -, -, -, hevidence, -⟩
    · rw [hrefused.evidence, package_evidence, Dict.get_set_of_ne (by decide),
        Dict.get_set_of_ne (by decide), hget]
    · rw [hevidence, verification_evidence, Dict.get_set_of_ne (by decide),
        Dict.get_set_of_ne (by decide), package_evidence, Dict.get_set_of_ne (by decide),
        Dict.get_set_of_ne (by decide), hget]
  | receipt =>
    obtain ⟨houtcome, -⟩ := EStateM.Result.ok.inj hperform
    rw [← houtcome, receipt_call, Dict.get_set_of_ne (by decide), hget]

/-- Replay makes the recorded evidence again. -/
theorem replay_evidence_eq (hintact : PackageIntact b site)
    (hfile : requested request "operation" = .str "write" → outcome.failures = [] → verify = true →
      ∃ hash, runtime_hash site runtime (requested request "path") = .ok (some (some hash)) ∧
        Dict.get outcome.evidence "sha256" = some (.str hash)) :
    replay_evidence b site runtime call verify = .ok (final_evidence outcome) := by
  rw [replay_evidence, h.item_eq h.get_operation_outcome (by decide) (by decide), ok_bind,
    h.item_status, ok_bind, h.replay_check_eq, ok_bind]
  have hperform := h.performed
  have hbranch : Branch b site request evidence failures (perform b site request evidence failures) :=
    branch_perform
  generalize perform b site request evidence failures = x at hperform hbranch
  cases hbranch with
  | unauthorized htoken =>
    rw [h.token] at htoken
    cases htoken
  | unknown _ hunknown =>
    rw [h.known] at hunknown
    cases hunknown
  | read _ hoperation =>
    rw [hoperation, if_pos rfl]
    exact h.replay_read_call_eq (ofExcept_eq_ok.mp hperform).1
  | write _ hoperation =>
    rw [hoperation, if_neg (by decide), if_pos rfl]
    exact h.replay_write_call_eq hperform (hfile hoperation)
  | env _ hoperation =>
    rw [hoperation, if_neg (by decide), if_neg (by decide), if_pos rfl]
    exact h.replay_env_call_eq (ofExcept_eq_ok.mp hperform).1
  | dependency _ hoperation =>
    rw [hoperation, if_neg (by decide), if_neg (by decide), if_neg (by decide), if_pos rfl]
    exact h.replay_dependency_call_eq hintact (ofExcept_eq_ok.mp hperform).1
  | receipt _ hoperation =>
    rw [hoperation, if_neg (by decide), if_neg (by decide), if_neg (by decide), if_neg (by decide)]
    obtain ⟨houtcome, -⟩ := EStateM.Result.ok.inj hperform
    have hcount : Dict.get outcome.evidence "call_count" = some (.int before.calls.length) := by
      rw [← houtcome, receipt_call, Dict.get_set_self]
    have hrecorded := h.item_eq hcount (by decide) (by decide)
    rw [Dict.item_eq_ok] at hrecorded
    rw [hrecorded, final_evidence]
    refine congrArg Except.ok ((set_status h.sorted_evidence (by decide)).trans ?_)
    rw [← houtcome]
    rfl

end CallRecorded

end Calls

end Bogbin.Bogvm
