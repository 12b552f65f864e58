import Bogbin.Bogvm.BrokerAudit
import Bogbin.Bogvm.StoreInstall

/-!
# Mediation by the broker

A run of a brokered process is a sequence of requests, between which the store, the links and the
runtime directory can change (`Serving`).  In every run each exchange is `Mediated` and each request
recorded exactly when every request is `Answered` and none `Reveals` a value of the environment:
`_serve` answers an exception without a record, and the record of a blocked request for a name of the
environment holds its value.
-/

namespace Bogbin.Bogvm

open StateExcept

/-! ## Runs -/

/-- A request, its answer, and the states around it. -/
structure Exchange where
  site : Site
  line : Content
  before : BrokerState
  response : Response
  after : BrokerState

/-- The exchange of a broker over a line. -/
def exchange (b : Broker) (site : Site) (line : Content) (before : BrokerState) : Exchange :=
  ⟨site, line, before, (serve b site line before).1, (serve b site line before).2⟩

/-- The exchanges of a process, and the state after them. -/
inductive Serving (b : Broker) : List Exchange → BrokerState → Prop
  | start (runtime : Tree Bytes) : Serving b [] ⟨[], runtime⟩
  | request {log : List Exchange} {state : BrokerState} (site : Site) (line : Content)
      (runtime : Tree Bytes) (run : Serving b log state) :
      Serving b (log ++ [exchange b site line { state with runtime := runtime }])
        (serve b site line { state with runtime := runtime }).2

/-! ## What the broker is for -/

/-- The request names a resource that is listed in the capability manifest. -/
structure NamesListed (b : Broker) (request : Dict) : Prop where
  read : requested request "operation" = .str "read" →
    ∃ path ∈ b.app_info.capabilities.read, requested request "path" = .str path
  write : requested request "operation" = .str "write" →
    ∃ path ∈ b.app_info.capabilities.write, requested request "path" = .str path
  env : requested request "operation" = .str "env" →
    ∃ name ∈ b.app_info.capabilities.env, requested request "name" = .str name
  dependency : requested request "operation" = .str "dependency" →
    ∃ name ∈ b.app_info.capabilities.dependencies, requested request "package" = .str name

/-- The response holds no data of a file and no value of the environment. -/
def Undisclosed : Response → Prop
  | .raised _ => True
  | .answered reply receipt _ => reply.data_hex = none ∧ reply.value = none ∧
      ∀ value, Dict.get receipt "value" ≠ some (.str value)

/-- What the broker lets through. -/
structure Mediated (b : Broker) (e : Exchange) : Prop where
  named : ∀ request, e.line = .value (.obj request) → e.response.completed = true → NamesListed b request
  read : ∀ reply receipt failures data_hex, e.response = .answered reply receipt failures →
    reply.data_hex = some data_hex → ∃ request text data, e.line = .value (.obj request) ∧
      requested request "path" = .str text ∧ Readable b e.site text data ∧ data_hex = to_hex data
  write : ∀ p, e.after.runtime.file p ≠ e.before.runtime.file p → ∃ request text,
    e.line = .value (.obj request) ∧ requested request "path" = .str text ∧ Granted b e.site text p
  blocked : e.response.completed = false →
    e.after.runtime.files = e.before.runtime.files ∧ Undisclosed e.response

/-! ## What it needs -/

/-- The line is a request that the broker answers. -/
def Answered (b : Broker) (e : Exchange) : Prop :=
  ∃ request, e.line = .value (.obj request) ∧
    (valid_token b request = true → Answerable b e.site request e.before)

/-- The request is for a name with a value that the app must not have. -/
def Reveals (b : Broker) (e : Exchange) : Prop :=
  ∃ request, e.line = .value (.obj request) ∧ valid_token b request = true ∧
    requested request "operation" = .str "env" ∧
    (environment_get b (requested request "name")).isSome = true ∧
    ¬(PackageIntact b e.site ∧ listed b.app_info.capabilities.env (requested request "name") = true)

/-! ## One request -/

section Step

variable {b : Broker} {site : Site} {request evidence : Dict} {failures : List StoreFailure}
  {outcome : Outcome} {state state' : BrokerState} {line : Content}

theorem completed_answered {reply : Reply} {receipt : Dict} :
    (Response.answered reply receipt failures).completed = true ↔ failures = [] := by
  simp [Response.completed]

theorem value_check_request (h : check_request b site request = .ok (evidence, failures)) :
    Dict.get evidence "value" = none := by
  cases htoken : valid_token b request with
  | false =>
    obtain ⟨rfl, -⟩ := Prod.mk.inj (Except.ok.inj ((check_request_invalid htoken).symm.trans h))
    rfl
  | true =>
    obtain ⟨-, ⟨-, -, rfl⟩ | ⟨v, -, -, -, rfl⟩⟩ := check_request_ok htoken h
    · rfl
    · rw [verified_evidence, Dict.get_set_of_ne (by decide), Dict.get_set_of_ne (by decide)]
      rfl

theorem value_path_evidence {allowed : List String} {path : Json} :
    Dict.get (path_evidence evidence allowed path) "value" = Dict.get evidence "value" := by
  rw [path_evidence, Dict.get_set_of_ne (by decide), Dict.get_set_of_ne (by decide)]

theorem value_package_evidence {package : Json} :
    Dict.get (package_evidence b evidence package) "value" = Dict.get evidence "value" := by
  rw [package_evidence, Dict.get_set_of_ne (by decide), Dict.get_set_of_ne (by decide)]

/-- Only a request for a name of the environment has a value in its evidence. -/
theorem value_perform (hcheck : check_request b site request = .ok (evidence, failures))
    (h : perform b site request evidence failures state = .ok outcome state') :
    Dict.get outcome.evidence "value" = none ∨ valid_token b request = true ∧
      requested request "operation" = .str "env" ∧ Dict.get outcome.evidence "value" =
        some ((environment_get b (requested request "name")).elim .null .str) := by
  have hvalue := value_check_request hcheck
  have hbranch : Branch b site request evidence failures (perform b site request evidence failures) :=
    branch_perform
  generalize perform b site request evidence failures = x at h hbranch
  cases hbranch with
  | unauthorized | unknown =>
    obtain ⟨rfl, -⟩ := EStateM.Result.ok.inj h
    exact .inl hvalue
  | read =>
    rcases read_call_ok (ofExcept_eq_ok.mp h).1 with hrefused | ⟨text, data, -, -, -, rfl⟩
    · rw [hrefused.evidence, value_path_evidence]
      exact .inl hvalue
    · rw [Dict.get_set_of_ne (by decide), value_path_evidence]
      exact .inl hvalue
  | write =>
    rcases write_call_ok h with ⟨-, sha256, hrefused⟩ | ⟨hex, text, target, data, -, -, -, -, -, -, rfl⟩
    · rw [hrefused.evidence, Dict.get_set_of_ne (by decide), value_path_evidence]
      exact .inl hvalue
    · rw [Dict.get_set_of_ne (by decide), value_path_evidence]
      exact .inl hvalue
  | env htoken hoperation =>
    rw [(env_call_ok (ofExcept_eq_ok.mp h).1).1]
    exact .inr ⟨htoken, hoperation, Dict.get_set_self⟩
  | dependency =>
    rcases dependency_call_ok (ofExcept_eq_ok.mp h).1 with ⟨hrefused, -⟩ |
      ⟨name, v, -, -, -, -, hverified, -⟩
    · rw [hrefused.evidence, value_package_evidence]
      exact .inl hvalue
    · rw [hverified, verification_evidence, Dict.get_set_of_ne (by decide),
        Dict.get_set_of_ne (by decide), value_package_evidence]
      exact .inl hvalue
  | receipt =>
    obtain ⟨rfl, -⟩ := EStateM.Result.ok.inj h
    refine .inl ?_
    rw [receipt_call, Dict.get_set_of_ne (by decide)]
    exact hvalue

theorem perform_env (htoken : valid_token b request = true)
    (hoperation : requested request "operation" = .str "env") :
    perform b site request evidence failures =
      MonadExcept.ofExcept (env_call b request evidence failures) := by
  simp [perform, htoken, hoperation]

/-- The failures of a request for a name of the environment, and the value in its evidence. -/
theorem env_performed (htoken : valid_token b request = true)
    (hoperation : requested request "operation" = .str "env")
    (hcheck : check_request b site request = .ok (evidence, failures))
    (h : perform b site request evidence failures state = .ok outcome state') :
    (outcome.failures = [] ↔
        PackageIntact b site ∧ listed b.app_info.capabilities.env (requested request "name") = true) ∧
      Dict.get outcome.evidence "value" =
        some ((environment_get b (requested request "name")).elim .null .str) := by
  have hintact := failures_iff_intact htoken (by rw [hoperation]; rfl) hcheck
  rw [perform_env htoken hoperation] at h
  obtain ⟨hevidence, hcases⟩ := env_call_ok (ofExcept_eq_ok.mp h).1
  refine ⟨?_, hevidence ▸ Dict.get_set_self⟩
  rcases hcases with ⟨hfailures, -, hcause⟩ | ⟨name, value, hnil, hname, hlisted, hfailures, -⟩
  · refine ⟨fun hnil => absurd hnil hfailures, ?_⟩
    rintro ⟨hverified, hlisted⟩
    rcases hcause with hcause | hcause
    · exact absurd (hintact.mpr hverified) hcause
    · rw [hlisted] at hcause
      cases hcause
  · refine ⟨fun _ => ⟨hintact.mp hnil, ?_⟩, fun _ => hfailures⟩
    rw [hname]
    exact decide_eq_true hlisted

theorem calls_perform (hcheck : check_request b site request = .ok (evidence, failures))
    (h : perform b site request evidence failures state = .ok outcome state') :
    state'.calls = state.calls := by
  rcases perform_ok hcheck h with ⟨-, -, rfl⟩ | ⟨-, -, hcompletes⟩
  · rfl
  · generalize outcome.reply = reply at hcompletes
    cases hcompletes with
    | read | env | dependency | receipt => rfl
    | write _ _ _ hwritten => exact (write_target_ok hwritten).1

/-- What an answer has done. -/
structure Served (b : Broker) (request evidence : Dict) (failures : List StoreFailure)
    (outcome : Outcome) (middle : BrokerState) (e : Exchange) : Prop where
  line : e.line = .value (.obj request)
  checked : check_request b e.site request = .ok (evidence, failures)
  performed : perform b e.site request evidence failures e.before = .ok outcome middle
  response : e.response = .answered outcome.reply
    (call_record b (e.before.calls.length + 1) outcome) outcome.failures
  calls : e.after.calls = e.before.calls ++ [call_record b (e.before.calls.length + 1) outcome]
  runtime : e.after.runtime = middle.runtime
  plain : PlainEvidence outcome.evidence

theorem served_of_answered (h : Answered b (exchange b site line state)) :
    ∃ request evidence failures outcome middle,
      Served b request evidence failures outcome middle (exchange b site line state) := by
  obtain ⟨request, hline, hanswerable⟩ := h
  obtain ⟨response, after, hhandle⟩ : ∃ response after, handle b site request state =
      .ok response after := ends_handle_iff.mpr hanswerable
  obtain ⟨evidence, failures, outcome, middle, hcheck, hperform, rfl, rfl⟩ := handle_ok hhandle
  have hcalls := calls_perform hcheck hperform
  have hserve : serve b site line state = (.answered outcome.reply
      (call_record b (middle.calls.length + 1) outcome) outcome.failures,
      { middle with calls := middle.calls ++
        [call_record b (middle.calls.length + 1) outcome] }) := by
    obtain rfl : line = .value (.obj request) := hline
    rw [serve, hhandle]
  rw [hcalls] at hserve
  refine ⟨request, evidence, failures, outcome, middle, hline, hcheck, hperform, ?_, ?_, ?_,
    plain_perform (plain_check_request hcheck) hperform⟩
  · exact congrArg Prod.fst hserve
  · exact congrArg (fun r : Response × BrokerState => r.2.calls) hserve
  · exact congrArg (fun r : Response × BrokerState => r.2.runtime) hserve

/-- A request that is not answered raises, and leaves no trace. -/
theorem raised_of_not_answered (h : ¬Answered b (exchange b site line state)) :
    (∃ e, (exchange b site line state).response = .raised e) ∧
      (exchange b site line state).after.calls = state.calls ∧
      (exchange b site line state).after.runtime.files = state.runtime.files := by
  unfold exchange serve at *
  cases line with
  | undecodable | unparsable => exact ⟨⟨_, rfl⟩, rfl, rfl⟩
  | value v =>
    cases v with
    | null | bool | int | float | str | arr => exact ⟨⟨_, rfl⟩, rfl, rfl⟩
    | obj request =>
      dsimp only
      cases hhandle : handle b site request state with
      | ok response after => exact absurd ⟨request, rfl, ends_handle_iff.mp ⟨_, _, hhandle⟩⟩ h
      | error e after =>
        obtain ⟨hcalls, hfiles⟩ := handle_error hhandle
        exact ⟨⟨e, rfl⟩, hcalls, hfiles⟩

theorem mediated_of_not_answered (h : ¬Answered b (exchange b site line state)) :
    Mediated b (exchange b site line state) := by
  obtain ⟨⟨e, hresponse⟩, -, hfiles⟩ := raised_of_not_answered h
  refine ⟨fun request _ hcompleted => ?_, fun reply receipt failures data_hex heq => ?_,
    fun p hp => ?_, fun _ => ⟨hfiles, ?_⟩⟩
  · rw [hresponse] at hcompleted
    cases hcompleted
  · rw [hresponse] at heq
    cases heq
  · refine absurd ?_ hp
    unfold Tree.file
    rw [hfiles]
    rfl
  · rw [hresponse]
    trivial

section Completed

variable {reply : Reply}

theorem Performed.named (h : Performed b site request state reply state') : NamesListed b request := by
  cases h with
  | read hoperation hpath hreadable =>
    refine ⟨fun _ => ⟨_, hreadable.listed, hpath⟩, ?_, ?_, ?_⟩ <;> (rw [hoperation]; exact nofun)
  | write hoperation hpath hgranted =>
    refine ⟨?_, fun _ => ⟨_, hgranted.listed, hpath⟩, ?_, ?_⟩ <;> (rw [hoperation]; exact nofun)
  | env hoperation hname hlisted =>
    refine ⟨?_, ?_, fun _ => ⟨_, hlisted, hname⟩, ?_⟩ <;> (rw [hoperation]; exact nofun)
  | dependency hoperation hpackage hlisted =>
    refine ⟨?_, ?_, ?_, fun _ => ⟨_, hlisted, hpackage⟩⟩ <;> (rw [hoperation]; exact nofun)
  | receipt hoperation => refine ⟨?_, ?_, ?_, ?_⟩ <;> (rw [hoperation]; exact nofun)

theorem Performed.read_data {data_hex : String} (h : Performed b site request state reply state')
    (hdata : reply.data_hex = some data_hex) : ∃ text data, requested request "path" = .str text ∧
      Readable b site text data ∧ data_hex = to_hex data := by
  cases h with
  | read _ hpath hreadable => exact ⟨_, _, hpath, hreadable, (Option.some.inj hdata).symm⟩
  | write | env | dependency | receipt => cases hdata

theorem Performed.written {p : Path} (h : Performed b site request state reply state')
    (hp : state'.runtime.file p ≠ state.runtime.file p) : ∃ text,
      requested request "path" = .str text ∧ Granted b site text p := by
  cases h with
  | read | env | dependency | receipt => exact absurd rfl hp
  | @write text target data _ _ hpath hgranted hwritten =>
    have hfile : state'.runtime.file p = (state.runtime.put target data).file p := by
      unfold Tree.file
      rw [(write_target_ok hwritten).2.1]
    rw [hfile, Tree.file_put] at hp
    split_ifs at hp with htarget
    · subst htarget
      exact ⟨text, hpath, hgranted⟩
    · exact absurd rfl hp

end Completed

/-- An answer is as it must be exactly when it reveals nothing. -/
theorem mediated_iff {middle : BrokerState} {e : Exchange}
    (h : Served b request evidence failures outcome middle e) : Mediated b e ↔ ¬Reveals b e := by
  have hline {request' : Dict} (hline' : e.line = .value (.obj request')) : request' = request :=
    Json.obj.inj (Content.value.inj (hline'.symm.trans h.line))
  have hvalue : Dict.get (call_record b (e.before.calls.length + 1) outcome) "value" =
      Dict.get outcome.evidence "value" := by
    rw [get_call_record h.plain, if_neg (by decide), if_neg (by decide), if_neg (by decide),
      if_neg (by decide), if_neg (by decide)]
    exact Dict.get_set_of_ne (by decide)
  have hcompleted : e.response.completed = true ↔ outcome.failures = [] := by
    rw [h.response, completed_answered]
  constructor
  · rintro hmediated ⟨request', hline', htoken, hoperation, hsome, hrefused⟩
    obtain rfl := hline hline'
    obtain ⟨hfailures, hget⟩ := env_performed htoken hoperation h.checked h.performed
    obtain ⟨-, hundisclosed⟩ := hmediated.blocked
      (Bool.eq_false_iff.mpr fun htrue => hrefused (hfailures.mp (hcompleted.mp htrue)))
    obtain ⟨value, hsome⟩ := Option.isSome_iff_exists.mp hsome
    rw [h.response] at hundisclosed
    refine hundisclosed.2.2 value ?_
    rw [hvalue, hget, hsome]
    rfl
  · intro hreveals
    rcases perform_ok h.checked h.performed with ⟨hfailures, hreply, hstate⟩ |
      ⟨hfailures, -, hcompletes⟩
    · -- a refused request
      have hruntime : e.after.runtime = e.before.runtime := by rw [h.runtime, hstate]
      refine ⟨fun request' _ htrue => absurd (hcompleted.mp htrue) hfailures,
        fun reply receipt failures' data_hex heq hdata => ?_,
        fun p hp => absurd (by rw [hruntime]) hp, fun _ => ⟨by rw [hruntime], ?_⟩⟩
      · rw [h.response] at heq
        obtain ⟨rfl, -⟩ := Response.answered.inj heq
        rw [hreply] at hdata
        cases hdata
      · rw [h.response]
        refine ⟨by rw [hreply]; rfl, by rw [hreply]; rfl, fun value hget => ?_⟩
        rw [hvalue] at hget
        rcases value_perform h.checked h.performed with hnone | ⟨htoken, hoperation, hsome⟩
        · rw [hnone] at hget
          cases hget
        · refine hreveals ⟨request, h.line, htoken, hoperation, ?_, fun hallowed => hfailures
            ((env_performed htoken hoperation h.checked h.performed).1.mpr hallowed)⟩
          rw [hsome] at hget
          cases henvironment : environment_get b (requested request "name") with
          | none =>
            rw [henvironment] at hget
            cases hget
          | some value' => rfl
    · -- a completed request
      refine ⟨fun request' hline' _ => hline hline' ▸ hcompletes.named,
        fun reply receipt failures' data_hex heq hdata => ?_, fun p hp => ?_, fun hblocked => ?_⟩
      · rw [h.response] at heq
        obtain ⟨rfl, -⟩ := Response.answered.inj heq
        obtain ⟨text, data, hread⟩ := hcompletes.read_data hdata
        exact ⟨request, text, data, h.line, hread⟩
      · rw [h.runtime] at hp
        obtain ⟨text, hwritten⟩ := hcompletes.written hp
        exact ⟨request, text, h.line, hwritten⟩
      · rw [hcompleted.mpr hfailures] at hblocked
        cases hblocked

end Step

/-! ## All requests -/

section Runs

variable {b : Broker} {log : List Exchange} {state : BrokerState}

theorem serving_audited (h : Serving b log state) : Audited state.calls := by
  induction h with
  | start runtime => exact fun i hi => absurd hi (Nat.not_lt_zero i)
  | @request log state site line runtime run ih =>
    by_cases hanswered : Answered b (exchange b site line { state with runtime := runtime })
    · obtain ⟨request, evidence, failures, outcome, middle, hserved⟩ := served_of_answered hanswered
      change Audited (exchange b site line { state with runtime := runtime }).after.calls
      rw [hserved.calls]
      exact audited_append ih hserved.plain
    · obtain ⟨-, hcalls, -⟩ := raised_of_not_answered hanswered
      change Audited (exchange b site line { state with runtime := runtime }).after.calls
      rw [hcalls]
      exact ih

theorem serving_calls (h : Serving b log state) : state.calls.length ≤ log.length ∧
    (state.calls.length = log.length ↔ ∀ e ∈ log, Answered b e) := by
  induction h with
  | start runtime => exact ⟨le_rfl, by simp⟩
  | @request log state site line runtime run ih =>
    obtain ⟨hle, hiff⟩ := ih
    change (exchange b site line { state with runtime := runtime }).after.calls.length ≤ _ ∧
      ((exchange b site line { state with runtime := runtime }).after.calls.length = _ ↔ _)
    rw [List.forall_mem_append, List.forall_mem_singleton, List.length_append, List.length_singleton]
    by_cases hanswered : Answered b (exchange b site line { state with runtime := runtime })
    · obtain ⟨request, evidence, failures, outcome, middle, hserved⟩ := served_of_answered hanswered
      rw [hserved.calls, List.length_append, List.length_singleton]
      refine ⟨Nat.succ_le_succ hle, ?_⟩
      rw [Nat.add_right_cancel_iff]
      exact hiff.trans (and_iff_left hanswered).symm
    · obtain ⟨-, hcalls, -⟩ := raised_of_not_answered hanswered
      rw [hcalls]
      refine ⟨hle.trans (Nat.le_succ _), fun heq => ?_, fun hall => absurd hall.2 hanswered⟩
      change state.calls.length = _ at heq
      omega

theorem serving_mediated (h : Serving b log state) (hanswered : ∀ e ∈ log, Answered b e) :
    (∀ e ∈ log, Mediated b e) ↔ ∀ e ∈ log, ¬Reveals b e := by
  induction h with
  | start runtime => simp
  | @request log state site line runtime run ih =>
    rw [List.forall_mem_append, List.forall_mem_singleton] at hanswered ⊢
    rw [List.forall_mem_append, List.forall_mem_singleton, ih hanswered.1]
    obtain ⟨request, evidence, failures, outcome, middle, hserved⟩ := served_of_answered hanswered.2
    rw [mediated_iff hserved]

end Runs

/-! ## A request that is not recorded -/

def plain_app : AppInfo :=
  ⟨"app", "a-1", "a-1", ⟨["input"], ["output"], ["NAME"], []⟩, [("NAME", "value"), ("SECRET", "value")],
    by decide, by decide, by decide⟩

def plain_links : Links := ⟨fun _ => false, fun path => .ok (some path)⟩

def plain_broker : Broker := ⟨plain_host, plain_keys, plain_app, "token"⟩

def plain_site : Site := ⟨new_store, plain_links, plain_links⟩

end Bogbin.Bogvm
