import Bogbin.Bogvm.BrokerServe

/-!
# Answers of the broker

What an operation does, over all five of them (`Performs`), and the record that `_handle` adds for it
(`handle_ok`).  A request is answered exactly when it is `Answerable` (`ends_handle_iff`); the others
make `_handle` raise, and nothing is recorded of them.
-/

namespace Bogbin.Bogvm

open StateExcept

section Operations

variable {b : Broker} {site : Site} {request evidence : Dict} {failures : List StoreFailure}
  {outcome : Outcome} {state state' : BrokerState} {e : PyError}

/-! ## The environment and the dependencies -/

theorem completed_iff_failures {v : Verification} : v.completed = true ↔ v.failures = [] := by
  cases v with
  | blocked package reason => simp [Verification.completed, Verification.failures]
  | checked => simp [Verification.completed, Verification.failures]

/-- The evidence of a request for a name of the environment. -/
def env_evidence (b : Broker) (evidence : Dict) (name : Json) : Dict :=
  Dict.set (Dict.set (Dict.set evidence "name" name) "allowed"
    (.bool (listed b.app_info.capabilities.env name))) "value" ((environment_get b name).elim .null .str)

theorem env_call_ok (h : env_call b request evidence failures = .ok outcome) :
    outcome.evidence = env_evidence b evidence (requested request "name") ∧
      ((outcome.failures ≠ [] ∧ outcome.reply = .empty ∧ (failures ≠ [] ∨
          listed b.app_info.capabilities.env (requested request "name") = false)) ∨
        ∃ name value, failures = [] ∧ requested request "name" = .str name ∧
          name ∈ b.app_info.capabilities.env ∧ outcome.failures = [] ∧
          outcome.reply = { Reply.empty with value := some value }) := by
  unfold env_call at h
  generalize requested request "name" = name at h ⊢
  dsimp only at h
  split_ifs at h with hhash hallowed hfailures
  · obtain rfl := Except.ok.inj h
    exact ⟨rfl, .inl ⟨by simp, rfl, .inr (by simpa using hallowed)⟩⟩
  · obtain rfl := Except.ok.inj h
    exact ⟨rfl, .inl ⟨hfailures, rfl, .inl hfailures⟩⟩
  · rw [not_not] at hfailures
    cases hvalue : environment_get b name with
    | none =>
      rw [hvalue] at h
      cases h
    | some value =>
      rw [hvalue] at h
      obtain rfl := Except.ok.inj h
      cases name with
      | null | bool | int | float | arr | obj => exact absurd rfl hallowed
      | str text =>
        have hlisted : text ∈ b.app_info.capabilities.env := by simpa [listed] using hallowed
        refine ⟨?_, .inr ⟨text, value, hfailures, rfl, hlisted, hfailures, rfl⟩⟩
        rw [env_evidence, hvalue]

/-- A request for a name of the environment raises exactly where the name has no hash. -/
theorem env_call_ok_iff : (∃ outcome, env_call b request evidence failures = .ok outcome) ↔
    hashable (requested request "name") = true := by
  unfold env_call
  generalize requested request "name" = name
  dsimp only
  cases hhash : hashable name with
  | false => simp
  | true =>
    simp only [Bool.not_true, Bool.false_eq_true, if_false, iff_true]
    split_ifs with hallowed hfailures
    · exact ⟨_, rfl⟩
    · exact ⟨_, rfl⟩
    · cases name with
      | null | bool | int | float | arr | obj => exact absurd rfl hallowed
      | str text =>
        have hlisted : text ∈ b.app_info.capabilities.env := by simpa [listed] using hallowed
        obtain ⟨value, hvalue⟩ := Option.isSome_iff_exists.mp (b.app_info.declared text hlisted)
        rw [show environment_get b (.str text) = some value from hvalue]
        exact ⟨_, rfl⟩

/-- The evidence of a request for a package. -/
def package_evidence (b : Broker) (evidence : Dict) (package : Json) : Dict :=
  Dict.set (Dict.set evidence "package" package) "allowed"
    (.bool (listed b.app_info.capabilities.dependencies package))

/-- The evidence of a request for a package that was verified. -/
def verification_evidence (evidence : Dict) (v : Verification) : Dict :=
  Dict.set (Dict.set evidence "bundle_sha256" v.bundle_sha256) "verification_status" (.str v.status)

theorem dependency_call_ok (h : dependency_call b site request evidence failures = .ok outcome) :
    (Refused (package_evidence b evidence (requested request "package")) outcome ∧ (failures ≠ [] ∨
        listed b.app_info.capabilities.dependencies (requested request "package") = false)) ∨
      ∃ name v, failures = [] ∧ requested request "package" = .str name ∧
        name ∈ b.app_info.capabilities.dependencies ∧ workspace_verify b site name = .ok v ∧
        outcome.evidence = verification_evidence (package_evidence b evidence (.str name)) v ∧
        (v.completed = true ∧ outcome.failures = [] ∧
            outcome.reply = { Reply.empty with verification := some v } ∨
          v.completed = false ∧ outcome.failures ≠ [] ∧ outcome.reply = .empty) := by
  unfold dependency_call at h
  generalize requested request "package" = package at h ⊢
  cases package with
  | null | bool | int | float | arr | obj =>
    obtain rfl := Except.ok.inj h
    exact .inl ⟨refused_append, .inr rfl⟩
  | str name =>
    dsimp only at h
    split_ifs at h with hallowed hfailures
    · obtain rfl := Except.ok.inj h
      exact .inl ⟨refused_append, .inr (by simpa using hallowed)⟩
    · obtain rfl := Except.ok.inj h
      exact .inl ⟨⟨rfl, hfailures, rfl⟩, .inl hfailures⟩
    · obtain ⟨v, hv, h⟩ := bind_eq_ok.mp h
      rw [not_not] at hfailures
      subst hfailures
      have hlisted : name ∈ b.app_info.capabilities.dependencies := by simpa [listed] using hallowed
      cases hcompleted : v.completed with
      | false =>
        rw [hcompleted] at h
        obtain rfl := Except.ok.inj h
        refine .inr ⟨name, v, rfl, rfl, hlisted, hv, rfl, .inr ⟨hcompleted, ?_, rfl⟩⟩
        intro hnil
        rw [completed_iff_failures.mpr hnil] at hcompleted
        cases hcompleted
      | true =>
        rw [hcompleted] at h
        obtain rfl := Except.ok.inj h
        exact .inr ⟨name, v, rfl, rfl, hlisted, hv, rfl, .inl ⟨hcompleted, rfl, rfl⟩⟩

/-- A request for a package raises exactly where the verification of a listed package does. -/
theorem dependency_call_ok_iff :
    (∃ outcome, dependency_call b site request evidence failures = .ok outcome) ↔
      (failures = [] → ∀ name ∈ b.app_info.capabilities.dependencies,
        requested request "package" = .str name → ∃ v, workspace_verify b site name = .ok v) := by
  unfold dependency_call
  generalize requested request "package" = package
  cases package with
  | null | bool | int | float | arr | obj => exact ⟨fun _ _ _ _ h => (by cases h), fun _ => ⟨_, rfl⟩⟩
  | str name =>
    dsimp only
    split_ifs with hallowed hfailures
    · refine ⟨fun _ _ name' hlisted heq => ?_, fun _ => ⟨_, rfl⟩⟩
      obtain rfl := Json.str.inj heq
      simp [listed, hlisted] at hallowed
    · exact ⟨fun _ hnil => absurd hnil hfailures, fun _ => ⟨_, rfl⟩⟩
    · have hlisted : name ∈ b.app_info.capabilities.dependencies := by simpa [listed] using hallowed
      constructor
      · rintro ⟨outcome, h⟩ - name' - heq
        obtain rfl := Json.str.inj heq
        obtain ⟨v, hv, -⟩ := bind_eq_ok.mp h
        exact ⟨v, hv⟩
      · intro h
        obtain ⟨v, hv⟩ := h (not_not.mp hfailures) name hlisted rfl
        rw [hv, ok_bind]
        split_ifs
        · exact ⟨_, rfl⟩
        · exact ⟨_, rfl⟩

/-! ## The check of a request -/

/-- The evidence of an operation on the package of the app. -/
def verified_evidence (evidence : Dict) (v : Verification) : Dict :=
  Dict.set (Dict.set evidence "package_verification_status" (.str v.status)) "package_tree_sha256"
    v.installed_tree

theorem check_request_invalid (h : valid_token b request = false) :
    check_request b site request = .ok (Dict.of [("operation", requested request "operation")],
      [("broker", "invalid broker capability token")]) := by
  simp [check_request, h]

theorem check_request_ok (htoken : valid_token b request = true)
    (h : check_request b site request = .ok (evidence, failures)) :
    hashable (requested request "operation") = true ∧
      ((needs_package (requested request "operation") = false ∧ failures = [] ∧
          evidence = Dict.of [("operation", requested request "operation")]) ∨
        ∃ v, needs_package (requested request "operation") = true ∧
          workspace_verify b site b.app_info.package = .ok v ∧ (failures = [] ↔ v.completed = true) ∧
          evidence = verified_evidence (Dict.of [("operation", requested request "operation")]) v) := by
  simp only [check_request, htoken, Bool.not_true, Bool.false_eq_true, if_false] at h
  split_ifs at h with hhash hpackage
  · obtain ⟨v, hv, h⟩ := bind_eq_ok.mp h
    obtain ⟨rfl, rfl⟩ := Prod.mk.inj (Except.ok.inj h)
    refine ⟨by simpa using hhash, .inr ⟨v, hpackage, hv, ?_, rfl⟩⟩
    cases hcompleted : v.completed with
    | false =>
      simp only [Bool.false_eq_true, if_false, iff_false]
      intro hnil
      rw [completed_iff_failures.mpr hnil] at hcompleted
      cases hcompleted
    | true => simp
  · obtain ⟨rfl, rfl⟩ := Prod.mk.inj (Except.ok.inj h)
    exact ⟨by simpa using hhash, .inl ⟨by simpa using hpackage, rfl, rfl⟩⟩

theorem check_request_ok_iff : (∃ result, check_request b site request = .ok result) ↔
    (valid_token b request = true → hashable (requested request "operation") = true ∧
      (needs_package (requested request "operation") = true →
        ∃ v, workspace_verify b site b.app_info.package = .ok v)) := by
  cases htoken : valid_token b request with
  | false => simp [check_request_invalid htoken]
  | true =>
    constructor
    · rintro ⟨⟨evidence, failures⟩, h⟩ -
      obtain ⟨hhash, ⟨hpackage, -⟩ | ⟨v, -, hv, -⟩⟩ := check_request_ok htoken h
      · exact ⟨hhash, fun htrue => by rw [hpackage] at htrue; exact nomatch htrue⟩
      · exact ⟨hhash, fun _ => ⟨v, hv⟩⟩
    · intro h
      obtain ⟨hhash, hverify⟩ := h rfl
      simp only [check_request, htoken, hhash, Bool.not_true, Bool.false_eq_true, if_false]
      split_ifs with hpackage
      · obtain ⟨v, hv⟩ := hverify hpackage
        rw [hv]
        exact ⟨_, rfl⟩
      · exact ⟨_, rfl⟩

/-! ## The operations together -/

/-- The branches of an operation. -/
inductive Branch (b : Broker) (site : Site) (request evidence : Dict) (failures : List StoreFailure) :
    EStateM PyError BrokerState Outcome → Prop
  | unauthorized (token : valid_token b request = false) :
      Branch b site request evidence failures (pure ⟨evidence, failures, .empty⟩)
  | read (token : valid_token b request = true) (operation : requested request "operation" = .str "read") :
      Branch b site request evidence failures
        (MonadExcept.ofExcept (read_call b site request evidence failures))
  | write (token : valid_token b request = true)
      (operation : requested request "operation" = .str "write") :
      Branch b site request evidence failures (write_call b site request evidence failures)
  | env (token : valid_token b request = true) (operation : requested request "operation" = .str "env") :
      Branch b site request evidence failures
        (MonadExcept.ofExcept (env_call b request evidence failures))
  | dependency (token : valid_token b request = true)
      (operation : requested request "operation" = .str "dependency") :
      Branch b site request evidence failures
        (MonadExcept.ofExcept (dependency_call b site request evidence failures))
  | receipt (token : valid_token b request = true)
      (operation : requested request "operation" = .str "receipt") :
      Branch b site request evidence failures
        (do let state ← get; return receipt_call evidence failures state.calls)
  | unknown (token : valid_token b request = true)
      (operation : listed ["read", "write", "env", "dependency", "receipt"]
        (requested request "operation") = false) :
      Branch b site request evidence failures (pure ⟨evidence,
        failures ++ [(py_str (requested request "operation"), "unknown broker capability operation")],
        .empty⟩)

theorem branch_perform :
    Branch b site request evidence failures (perform b site request evidence failures) := by
  unfold perform
  dsimp only
  split_ifs with htoken hread hwrite henv hdependency hreceipt
  · exact .unauthorized (by simpa using htoken)
  · exact .read (by simpa using htoken) hread
  · exact .write (by simpa using htoken) hwrite
  · exact .env (by simpa using htoken) henv
  · exact .dependency (by simpa using htoken) hdependency
  · exact .receipt (by simpa using htoken) hreceipt
  · refine .unknown (by simpa using htoken) ?_
    generalize requested request "operation" = operation at *
    cases operation with
    | null | bool | int | float | arr | obj => rfl
    | str text =>
      simp only [Json.str.injEq] at hread hwrite henv hdependency hreceipt
      simp [listed, hread, hwrite, henv, hdependency, hreceipt]

/-- What a completed operation gives and leaves. -/
inductive Performed (b : Broker) (site : Site) (request : Dict) (state : BrokerState) :
    Reply → BrokerState → Prop
  | read {text : String} {data : Bytes} (operation : requested request "operation" = .str "read")
      (path : requested request "path" = .str text) (readable : Readable b site text data) :
      Performed b site request state { Reply.empty with data_hex := some (to_hex data) } state
  | write {text : String} {target : Path} {data : Bytes} {state' : BrokerState}
      (operation : requested request "operation" = .str "write")
      (path : requested request "path" = .str text) (granted : Granted b site text target)
      (written : write_target b target data state = .ok ⟨⟩ state') :
      Performed b site request state
        { Reply.empty with size := some data.length, sha256 := some (hexdigest data) } state'
  | env {name value : String} (operation : requested request "operation" = .str "env")
      (named : requested request "name" = .str name)
      (listed : name ∈ b.app_info.capabilities.env) :
      Performed b site request state { Reply.empty with value := some value } state
  | dependency {name : String} {v : Verification}
      (operation : requested request "operation" = .str "dependency")
      (package : requested request "package" = .str name)
      (listed : name ∈ b.app_info.capabilities.dependencies) :
      Performed b site request state { Reply.empty with verification := some v } state
  | receipt (operation : requested request "operation" = .str "receipt") :
      Performed b site request state { Reply.empty with calls := some state.calls } state

/-- An operation is either refused, with an empty reply and all files as they were, or completed. -/
theorem perform_ok (hcheck : check_request b site request = .ok (evidence, failures))
    (h : perform b site request evidence failures state = .ok outcome state') :
    (outcome.failures ≠ [] ∧ outcome.reply = .empty ∧ state' = state) ∨
      (outcome.failures = [] ∧ valid_token b request = true ∧
        Performed b site request state outcome.reply state') := by
  have hbranch : Branch b site request evidence failures (perform b site request evidence failures) :=
    branch_perform
  generalize perform b site request evidence failures = x at h hbranch
  cases hbranch with
  | unauthorized htoken =>
    obtain ⟨rfl, rfl⟩ := EStateM.Result.ok.inj h
    obtain ⟨-, rfl⟩ :=
      Prod.mk.inj (Except.ok.inj ((check_request_invalid htoken).symm.trans hcheck))
    exact .inl ⟨by simp, rfl, rfl⟩
  | read htoken hoperation =>
    obtain ⟨hcall, rfl⟩ := ofExcept_eq_ok.mp h
    rcases read_call_ok hcall with hrefused | ⟨text, data, -, hpath, hreadable, rfl⟩
    · exact .inl ⟨hrefused.failures, hrefused.reply, rfl⟩
    · exact .inr ⟨rfl, htoken, .read hoperation hpath hreadable⟩
  | write htoken hoperation =>
    rcases write_call_ok h with ⟨rfl, sha256, hrefused⟩ |
      ⟨hex, text, target, data, -, -, -, hpath, hgranted, hwritten, rfl⟩
    · exact .inl ⟨hrefused.failures, hrefused.reply, rfl⟩
    · exact .inr ⟨rfl, htoken, .write hoperation hpath hgranted hwritten⟩
  | env htoken hoperation =>
    obtain ⟨hcall, rfl⟩ := ofExcept_eq_ok.mp h
    obtain ⟨-, ⟨hfailures, hreply, -⟩ | ⟨name, value, -, hname, hlisted, hfailures, hreply⟩⟩ :=
      env_call_ok hcall
    · exact .inl ⟨hfailures, hreply, rfl⟩
    · refine .inr ⟨hfailures, htoken, ?_⟩
      rw [hreply]
      exact .env hoperation hname hlisted
  | dependency htoken hoperation =>
    obtain ⟨hcall, rfl⟩ := ofExcept_eq_ok.mp h
    rcases dependency_call_ok hcall with ⟨hrefused, -⟩ |
      ⟨name, v, -, hpackage, hlisted, -, -, ⟨-, hfailures, hreply⟩ | ⟨-, hfailures, hreply⟩⟩
    · exact .inl ⟨hrefused.failures, hrefused.reply, rfl⟩
    · refine .inr ⟨hfailures, htoken, ?_⟩
      rw [hreply]
      exact .dependency hoperation hpackage hlisted
    · exact .inl ⟨hfailures, hreply, rfl⟩
  | receipt htoken hoperation =>
    obtain ⟨rfl, rfl⟩ := EStateM.Result.ok.inj h
    obtain ⟨-, ⟨-, rfl, -⟩ | ⟨v, hpackage, -⟩⟩ := check_request_ok htoken hcheck
    · exact .inr ⟨rfl, htoken, .receipt hoperation⟩
    · rw [hoperation] at hpackage
      cases hpackage
  | unknown htoken hoperation =>
    obtain ⟨rfl, rfl⟩ := EStateM.Result.ok.inj h
    exact .inl ⟨by simp, rfl, rfl⟩

theorem perform_error (h : perform b site request evidence failures state = .error e state') :
    state'.calls = state.calls ∧ state'.runtime.files = state.runtime.files := by
  have hbranch : Branch b site request evidence failures (perform b site request evidence failures) :=
    branch_perform
  generalize perform b site request evidence failures = x at h hbranch
  cases hbranch with
  | unauthorized | receipt | unknown => cases h
  | read | env | dependency =>
    obtain ⟨-, rfl⟩ := ofExcept_eq_error.mp h
    exact ⟨rfl, rfl⟩
  | write => exact write_call_error h

/-! ## Requests that are answered -/

/-- The package of the app passes its verification. -/
def PackageIntact (b : Broker) (site : Site) : Prop :=
  ∃ v, workspace_verify b site b.app_info.package = .ok v ∧ v.completed = true

/-- No step of the request raises. -/
structure Answerable (b : Broker) (site : Site) (request : Dict) (state : BrokerState) : Prop where
  operation : hashable (requested request "operation") = true
  package : needs_package (requested request "operation") = true →
    ∃ v, workspace_verify b site b.app_info.package = .ok v
  read : requested request "operation" = .str "read" → PackageIntact b site →
    ∀ text ∈ b.app_info.capabilities.read, requested request "path" = .str text →
      site.install_links.is_symlink (path_parts text) = false →
        ∃ target, site.install_links.resolve (path_parts text) = .ok target
  write : requested request "operation" = .str "write" → ∃ hex, data_text request = .str hex ∧
    (PackageIntact b site → ∀ text ∈ b.app_info.capabilities.write, requested request "path" = .str text →
      (from_hex hex.toList).isSome = true → ∃ target,
        site.runtime_links.resolve (path_parts text) = .ok target ∧
          ∀ p, target = some p → Writable b.host state.runtime p)
  env : requested request "operation" = .str "env" → hashable (requested request "name") = true
  dependency : requested request "operation" = .str "dependency" → PackageIntact b site →
    ∀ name ∈ b.app_info.capabilities.dependencies, requested request "package" = .str name →
      ∃ v, workspace_verify b site name = .ok v

theorem failures_iff_intact (htoken : valid_token b request = true)
    (hpackage : needs_package (requested request "operation") = true)
    (hcheck : check_request b site request = .ok (evidence, failures)) :
    failures = [] ↔ PackageIntact b site := by
  obtain ⟨-, ⟨hneeds, -⟩ | ⟨v, -, hv, hfailures, -⟩⟩ := check_request_ok htoken hcheck
  · rw [hpackage] at hneeds
    cases hneeds
  · rw [hfailures]
    constructor
    · exact fun hcompleted => ⟨v, hv, hcompleted⟩
    · rintro ⟨v', hv', hcompleted⟩
      obtain rfl := Except.ok.inj (hv.symm.trans hv')
      exact hcompleted

theorem ends_ofExcept {α : Type} {r : Except PyError α} :
    Ends (MonadExcept.ofExcept r : EStateM PyError BrokerState α) state ↔ ∃ a, r = .ok a := by
  constructor
  · rintro ⟨a, state', h⟩
    exact ⟨a, (ofExcept_eq_ok.mp h).1⟩
  · rintro ⟨a, rfl⟩
    exact ⟨a, state, rfl⟩

theorem ends_perform_iff (hcheck : check_request b site request = .ok (evidence, failures)) :
    Ends (perform b site request evidence failures) state ↔
      (valid_token b request = true → Answerable b site request state) := by
  have hbranch : Branch b site request evidence failures (perform b site request evidence failures) :=
    branch_perform
  have hchecked := check_request_ok_iff.mp ⟨_, hcheck⟩
  have hintact := fun htoken hpackage => failures_iff_intact (b := b) htoken hpackage hcheck
  generalize perform b site request evidence failures = x at hbranch
  cases hbranch with
  | unauthorized htoken =>
    refine ⟨fun _ htrue => ?_, fun _ => ⟨_, _, rfl⟩⟩
    rw [htoken] at htrue
    cases htrue
  | read htoken hoperation =>
    obtain ⟨hhash, hverify⟩ := hchecked htoken
    rw [ends_ofExcept, read_call_ok_iff, hintact htoken (by rw [hoperation]; rfl)]
    refine ⟨fun h _ => ⟨hhash, hverify, fun _ => h, ?_, ?_, ?_⟩, fun h => (h htoken).read hoperation⟩
      <;> (rw [hoperation]; exact nofun)
  | write htoken hoperation =>
    obtain ⟨hhash, hverify⟩ := hchecked htoken
    rw [ends_write_call_iff, hintact htoken (by rw [hoperation]; rfl)]
    refine ⟨fun h _ => ⟨hhash, hverify, ?_, fun _ => h, ?_, ?_⟩, fun h => (h htoken).write hoperation⟩
      <;> (rw [hoperation]; exact nofun)
  | env htoken hoperation =>
    obtain ⟨hhash, hverify⟩ := hchecked htoken
    rw [ends_ofExcept, env_call_ok_iff]
    refine ⟨fun h _ => ⟨hhash, hverify, ?_, ?_, fun _ => h, ?_⟩, fun h => (h htoken).env hoperation⟩
      <;> (rw [hoperation]; exact nofun)
  | dependency htoken hoperation =>
    obtain ⟨hhash, hverify⟩ := hchecked htoken
    rw [ends_ofExcept, dependency_call_ok_iff, hintact htoken (by rw [hoperation]; rfl)]
    refine ⟨fun h _ => ⟨hhash, hverify, ?_, ?_, ?_, fun _ => h⟩,
      fun h => (h htoken).dependency hoperation⟩ <;> (rw [hoperation]; exact nofun)
  | receipt htoken hoperation =>
    obtain ⟨hhash, hverify⟩ := hchecked htoken
    refine ⟨fun _ _ => ⟨hhash, hverify, ?_, ?_, ?_, ?_⟩, fun _ => ⟨_, _, rfl⟩⟩
      <;> (rw [hoperation]; exact nofun)
  | unknown htoken hoperation =>
    obtain ⟨hhash, hverify⟩ := hchecked htoken
    refine ⟨fun _ _ => ⟨hhash, hverify, ?_, ?_, ?_, ?_⟩, fun _ => ⟨_, _, rfl⟩⟩ <;>
    · intro hknown
      rw [hknown] at hoperation
      cases hoperation

/-! ## `_handle` -/

theorem handle_ok {response : Response} (h : handle b site request state = .ok response state') :
    ∃ evidence failures outcome middle,
      check_request b site request = .ok (evidence, failures) ∧
      perform b site request evidence failures state = .ok outcome middle ∧
      response = .answered outcome.reply (call_record b (middle.calls.length + 1) outcome)
        outcome.failures ∧
      state' = { middle with
        calls := middle.calls ++ [call_record b (middle.calls.length + 1) outcome] } := by
  unfold handle at h
  obtain ⟨⟨evidence, failures⟩, first, hfirst, hrest⟩ := StateExcept.bind_eq_ok.mp h
  obtain ⟨hcheck, rfl⟩ := ofExcept_eq_ok.mp hfirst
  obtain ⟨outcome, middle, hperform, hrecord⟩ := StateExcept.bind_eq_ok.mp hrest
  obtain ⟨rfl, rfl⟩ := EStateM.Result.ok.inj hrecord
  exact ⟨evidence, failures, outcome, middle, hcheck, hperform, rfl, rfl⟩

/-- A request that raises is not recorded, and changes no file. -/
theorem handle_error (h : handle b site request state = .error e state') :
    state'.calls = state.calls ∧ state'.runtime.files = state.runtime.files := by
  unfold handle at h
  rcases StateExcept.bind_eq_error.mp h with hraise | ⟨result, middle, hcheck, hrest⟩
  · obtain ⟨-, rfl⟩ := ofExcept_eq_error.mp hraise
    exact ⟨rfl, rfl⟩
  · obtain ⟨-, rfl⟩ := ofExcept_eq_ok.mp hcheck
    rcases StateExcept.bind_eq_error.mp hrest with hraise | ⟨outcome, last, -, hrecord⟩
    · exact perform_error hraise
    · cases hrecord

/-- The broker answers exactly the requests of strangers and the answerable ones. -/
theorem ends_handle_iff : Ends (handle b site request) state ↔
    (valid_token b request = true → Answerable b site request state) := by
  constructor
  · rintro ⟨response, state', h⟩
    obtain ⟨evidence, failures, outcome, middle, hcheck, hperform, -⟩ := handle_ok h
    exact (ends_perform_iff hcheck).mp ⟨_, _, hperform⟩
  · intro h
    have hchecked : ∃ result, check_request b site request = .ok result :=
      check_request_ok_iff.mpr fun htoken => ⟨(h htoken).operation, (h htoken).package⟩
    obtain ⟨⟨evidence, failures⟩, hcheck⟩ := hchecked
    obtain ⟨outcome, middle, hperform⟩ := (ends_perform_iff hcheck).mpr h
    unfold handle
    exact ends_bind.mpr ⟨_, state, ofExcept_eq_ok.mpr ⟨hcheck, rfl⟩,
      ends_bind.mpr ⟨_, _, hperform, _, _, rfl⟩⟩

end Operations

end Bogbin.Bogvm
