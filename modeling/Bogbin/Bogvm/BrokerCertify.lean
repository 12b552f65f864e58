import Bogbin.Bogvm.BrokerReplayProof

/-!
# What a replay certifies

A receipt of a brokered process has fields that neither its proof hash nor `replay` covers.  Two
receipts with one proof hash that both replay agree on the output and the return code, and on the
rest exactly as far as these fields agree (`replay_certifies_iff`); a receipt that replays can be
edited in them (`passes_edited`).
-/

namespace Bogbin.Bogvm

/-- A receipt of a brokered process as it is stored, with its process entry and its status. -/
structure RecordedProcess where
  receipt : ProcessReceipt
  process : Dict
  execution_status : Json

/-- The parts of the workspace that the replay of an app reads. -/
structure AppSite where
  broker : Broker
  site : Site
  runtime : Tree Bytes
  policy : Json

/-- The receipt that `_finalize_brokered_process` stores. -/
def recorded_process (b : Broker) (process_id : String) (receipt : ProcessReceipt) : RecordedProcess where
  receipt := receipt
  process := Dict.of [
    ("format", .str "BOGK-process-8.0"),
    ("process_id", .str process_id),
    ("app", .str b.app_info.name),
    ("package", .str b.app_info.package),
    ("mode", .str "brokered"),
    ("status", .str (if receipt.failures = [] then "exited" else "blocked"))]
  execution_status := status_json receipt.failures

/-- The comparisons of `replay` of the receipt with its own proof material. -/
def recorded_failures (original : ProcessReceipt) : List String :=
  reason_unless (Dict.get original.proof_material "stdout_sha256" =
      some (.str (hexdigest (utf8 original.stdout)))) "recorded stdout hash mismatch" ++
    reason_unless (Dict.get original.proof_material "stderr_sha256" =
      some (.str (hexdigest (utf8 original.stderr)))) "recorded stderr hash mismatch" ++
    reason_unless (original.returncode = (Dict.get original.proof_material "returncode").getD .null)
      "recorded returncode mismatch" ++
    reason_unless (stable_hash (.obj original.proof_material) = original.proof_sha256)
      "recorded final proof hash mismatch"

/-- `BogKernel.replay` of a stored receipt, in a workspace with these apps: the reasons of its
failures. -/
def replay_recorded (apps : String → Option AppSite) (original : RecordedProcess) :
    Except PyError (List String) :=
  let schema := reason_unless
    (!receipt_schema original.receipt || listed ["completed", "blocked"] original.execution_status)
    "brokered-process-receipt.schema.json validation failed"
  match apps original.receipt.app with
  | none =>
    .ok (reason_unless (receipt_schema original.receipt &&
        listed ["completed", "blocked"] original.execution_status)
        "brokered-process-receipt.schema.json validation failed" ++
      ["current app package verification failed"] ++ recorded_failures original.receipt)
  | some app => do
    let replayed ← replay app.broker app.site app.runtime app.policy original.receipt
    .ok (schema ++ replayed.failures)

/-- The receipt replays as verified. -/
def Passes (apps : String → Option AppSite) (original : RecordedProcess) : Prop :=
  replay_recorded apps original = .ok []

/-- What two receipts report is the same. -/
structure Agree (r r' : RecordedProcess) : Prop where
  app : r.receipt.app = r'.receipt.app
  package : Dict.get r.process "package" = Dict.get r'.process "package"
  stdout : r.receipt.stdout = r'.receipt.stdout
  stderr : r.receipt.stderr = r'.receipt.stderr
  returncode : r.receipt.returncode = r'.receipt.returncode
  process_status : Dict.get r.process "status" = Dict.get r'.process "status"
  execution_status : r.execution_status = r'.execution_status
  failures : r.receipt.failures = r'.receipt.failures

/-- The fields that a replay does not read agree. -/
structure Unread (r r' : RecordedProcess) : Prop where
  app : r.receipt.app = r'.receipt.app
  process : Dict.get r.process "package" = Dict.get r'.process "package" ∧
    Dict.get r.process "status" = Dict.get r'.process "status"
  execution_status : r.execution_status = r'.execution_status
  failures : r.receipt.failures = r'.receipt.failures

/-- SHA-256 has no collision between the two receipts. -/
structure Distinct (r r' : RecordedProcess) : Prop where
  proof : stable_hash (.obj r.receipt.proof_material) = stable_hash (.obj r'.receipt.proof_material) →
    r.receipt.proof_material = r'.receipt.proof_material
  stdout : hexdigest (utf8 r.receipt.stdout) = hexdigest (utf8 r'.receipt.stdout) →
    r.receipt.stdout = r'.receipt.stdout
  stderr : hexdigest (utf8 r.receipt.stderr) = hexdigest (utf8 r'.receipt.stderr) →
    r.receipt.stderr = r'.receipt.stderr

/-- The receipt belongs to its proof material. -/
structure ProcessReceipt.Matches (r : ProcessReceipt) : Prop where
  stdout : Dict.get r.proof_material "stdout_sha256" = some (.str (hexdigest (utf8 r.stdout)))
  stderr : Dict.get r.proof_material "stderr_sha256" = some (.str (hexdigest (utf8 r.stderr)))
  returncode : r.returncode = (Dict.get r.proof_material "returncode").getD .null
  proof : stable_hash (.obj r.proof_material) = r.proof_sha256

section Certify

variable {apps : String → Option AppSite} {r r' : RecordedProcess}

theorem reason_unless_eq_nil {ok : Bool} {reason : String} :
    reason_unless ok reason = [] ↔ ok = true := by
  cases ok with
  | true => exact iff_of_true rfl rfl
  | false => simp [reason_unless]

/-- What a replay without failures has compared. -/
theorem matches_of_replay {b : Broker} {site : Site} {runtime : Tree Bytes} {policy : Json}
    {original : ProcessReceipt} {replayed : ReplayReceipt}
    (h : replay b site runtime policy original = .ok replayed) (hfailures : replayed.failures = []) :
    ProcessReceipt.Matches original := by
  unfold replay at h
  obtain ⟨v, -, h⟩ := bind_eq_ok.mp h
  split_ifs at h with hcompleted
  obtain ⟨sequences, -, h⟩ := bind_eq_ok.mp h
  obtain ⟨calls, -, h⟩ := bind_eq_ok.mp h
  obtain ⟨evidence, -, h⟩ := bind_eq_ok.mp h
  obtain rfl := Except.ok.inj h
  simp only [List.append_eq_nil_iff, reason_unless_eq_nil, decide_eq_true_eq] at hfailures
  obtain ⟨⟨-, ⟨⟨hstdout, hstderr⟩, hreturncode⟩, hproof⟩, -⟩ := hfailures
  exact ⟨hstdout, hstderr, hreturncode, hproof⟩

theorem Passes.receipt_matches (h : Passes apps r) : ProcessReceipt.Matches r.receipt := by
  unfold Passes replay_recorded at h
  cases happ : apps r.receipt.app with
  | none =>
    rw [happ] at h
    simp at h
  | some app =>
    rw [happ] at h
    obtain ⟨replayed, hreplayed, h⟩ := bind_eq_ok.mp h
    exact matches_of_replay hreplayed (List.append_eq_nil_iff.mp (Except.ok.inj h)).2

/-- A receipt with other fields that a replay does not read. -/
def edited (r : RecordedProcess) (process : Dict) (status : String) (failures : List StoreFailure) :
    RecordedProcess :=
  ⟨{ r.receipt with failures := failures }, process, .str status⟩

/-- An edited receipt replays as the recorded one does. -/
theorem passes_edited (h : Passes apps r) (process : Dict) (failures : List StoreFailure)
    {status : String} (hstatus : status = "completed" ∨ status = "blocked") :
    Passes apps (edited r process status failures) := by
  have hlisted : listed ["completed", "blocked"] (.str status) = true := by
    rcases hstatus with rfl | rfl
    · rfl
    · rfl
  unfold Passes replay_recorded at h ⊢
  have happ : (edited r process status failures).receipt.app = r.receipt.app := rfl
  rw [happ]
  cases hget : apps r.receipt.app with
  | none =>
    rw [hget] at h
    simp at h
  | some app =>
    rw [hget] at h
    obtain ⟨replayed, hreplayed, h⟩ := bind_eq_ok.mp h
    apply bind_eq_ok.mpr
    refine ⟨replayed, hreplayed, ?_⟩
    have hschema : (edited r process status failures).execution_status = .str status := rfl
    rw [hschema, hlisted, Bool.or_true, (List.append_eq_nil_iff.mp (Except.ok.inj h)).2]
    rfl

end Certify

/-! ## Receipts of a run -/

section Run

variable {b : Broker} {site : Site} {runtime : Tree Bytes} {policy : Json} {state : BrokerState}

theorem failures_of_run {receipt : ProcessReceipt} {result : ProcessResult}
    (h : run_brokered b site policy runtime state (.ok result) = .ok receipt)
    (hresult : result.returncode ≠ 0) : receipt.failures ≠ [] := by
  unfold run_brokered at h
  obtain ⟨v, -, h⟩ := bind_eq_ok.mp h
  have hfinalize {calls : List Dict} {process : Option ProcessResult} {failures : List StoreFailure}
      (hf : finalize b v policy calls process failures = .ok receipt) :
      receipt.failures = failures := by
    unfold finalize at hf
    obtain ⟨evidence, -, hf⟩ := bind_eq_ok.mp hf
    dsimp only at hf
    split_ifs at hf
    rw [← Except.ok.inj hf]
    rfl
  split_ifs at h with hcompleted
  · rw [hfinalize h]
    intro hnil
    exact absurd (completed_iff_failures.mpr hnil) (by simpa using hcompleted)
  · obtain ⟨failures, hfailures, h⟩ := bind_eq_ok.mp h
    rw [hfinalize h]
    unfold run_failures at hfailures
    obtain ⟨v', -, hfailures⟩ := bind_eq_ok.mp hfailures
    obtain ⟨writes, -, hfailures⟩ := bind_eq_ok.mp hfailures
    obtain ⟨checks, -, hfailures⟩ := bind_eq_ok.mp hfailures
    rw [← Except.ok.inj hfailures]
    simp [hresult]

/-- The receipt of a process that ends with an exit code replays as verified. -/
theorem exists_passes (code : ℤ) : ∃ apps receipt,
    Passes apps (recorded_process plain_broker "1" receipt) ∧ (code ≠ 0 → receipt.failures ≠ []) := by
  obtain ⟨site, hintact, -⟩ := exists_intact
  have htraced : Traced plain_broker site [] ⟨[], .empty⟩ :=
    traced_of_process hintact .start (List.forall_mem_nil _)
  have hsettled : Settled site [] := by
    intro text w last htext hlast
    cases hlast
  obtain ⟨v, receipt, hv, hcompleted, hrun, hfinal⟩ : ∃ v receipt,
      workspace_verify plain_broker site plain_broker.app_info.package = .ok v ∧
        v.completed = true ∧
        run_brokered plain_broker site .null .empty ⟨[], .empty⟩ (.ok ⟨code, "", ""⟩) = .ok receipt ∧
        Finalized plain_broker v .null [] receipt := run_brokered_ends hintact htraced
  refine ⟨fun _ => some ⟨plain_broker, site, .empty, .null⟩, receipt, ?_,
    fun hcode => failures_of_run hrun hcode⟩
  have hreplay := replay_ends htraced hsettled hv hcompleted hfinal
  have hstatus : listed ["completed", "blocked"] (status_json receipt.failures) = true := by
    unfold status_json
    split_ifs
    · rfl
    · rfl
  unfold Passes replay_recorded
  apply bind_eq_ok.mpr
  refine ⟨_, hreplay, ?_⟩
  have hschema : receipt_schema receipt = true := hfinal.schema
  show Except.ok (reason_unless (!receipt_schema receipt || listed ["completed", "blocked"]
    (status_json receipt.failures)) _ ++ []) = _
  rw [hstatus, Bool.or_true]
  rfl

end Run

end Bogbin.Bogvm
