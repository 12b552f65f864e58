import Bogbin.Bogvm.BrokerRun

/-!
# Replay of a brokered process

After a run in which every line is `Replayable` and the writes are `Settled`, `run_brokered` returns a
receipt that follows its schema, and `replay` of it finds for every call the hash of the evidence that
was recorded (`brokered_run_replays`).
-/

namespace Bogbin.Bogvm

open StateExcept

/-- The last write of each path is to a file that is no symbolic link, and the last write to this file
wrote data with the same hash. -/
def Settled (site : Site) (ws : List Write) : Prop :=
  ∀ text w last, last_text ws text = some w → last_write ws w.target = some last →
    site.runtime_links.is_symlink (path_parts text) = false ∧ hexdigest last.data = hexdigest w.data

/-! ## The completed writes of the calls -/

/-- Related elements are found together. -/
theorem forall₂_find? {α β : Type} {R : α → β → Prop} {p : α → Bool} {q : β → Bool} {l : List α}
    {m : List β} (h : List.Forall₂ R l m) (hpq : ∀ a b, R a b → p a = q b) :
    (l.find? p = none ∧ m.find? q = none) ∨
      ∃ a b, l.find? p = some a ∧ m.find? q = some b ∧ R a b := by
  induction h with
  | nil => exact .inl ⟨rfl, rfl⟩
  | @cons a b l m hab _ ih =>
    rw [List.find?_cons, List.find?_cons, hpq a b hab]
    cases q b with
    | true => exact .inr ⟨a, b, rfl, rfl, hab⟩
    | false => exact ih

theorem exists_of_forall₂ {α β : Type} {R : α → β → Prop} {l : List α} {m : List β}
    (h : List.Forall₂ R l m) {a : α} (ha : a ∈ l) : ∃ b ∈ m, R a b := by
  induction h with
  | nil => cases ha
  | @cons a' b l m hab _ ih =>
    rcases List.mem_cons.mp ha with rfl | ha
    · exact ⟨b, List.mem_cons_self, hab⟩
    · obtain ⟨b', hb', hR⟩ := ih ha
      exact ⟨b', List.mem_cons_of_mem _ hb', hR⟩

section Writes

variable {b : Broker} {site : Site} {ws : List Write} {state : BrokerState} {calls : List Dict}

/-- A call of a request with the token and a known operation. -/
def IsRecorded (b : Broker) (site : Site) (call : Dict) : Prop :=
  ∃ sequence request evidence failures outcome before after,
    CallRecorded b site call sequence request evidence failures outcome before after

theorem completed_write_eq {call : Dict} (h : IsRecorded b site call) :
    completed_write call = .ok (is_completed_write call) := by
  obtain ⟨sequence, request, evidence, failures, outcome, before, after, hcall⟩ := h
  have hoperation := hcall.item_eq hcall.get_operation_outcome (by decide) (by decide)
  have hstatus := hcall.item_status
  rw [completed_write, hoperation, ok_bind, is_completed_write, Dict.item_eq_ok.mp hoperation,
    Dict.item_eq_ok.mp hstatus]
  by_cases hwrite : requested request "operation" = .str "write"
  · rw [if_neg (not_not.mpr hwrite), hstatus, ok_bind, hwrite]
    simp
  · rw [if_pos hwrite]
    simp [hwrite]

/-- The dictionary of the completed writes. -/
theorem final_writes_eq {α : Type} {value : Dict → Except PyError α} {R : α → Write → Prop}
    (hcalls : ∀ call ∈ calls, completed_write call = .ok (is_completed_write call))
    (hvalue : ∀ call w, WriteCall call w → ∃ a, value call = .ok a ∧ R a w)
    (h : List.Forall₂ WriteCall (calls.filter is_completed_write) ws) :
    ∃ entries, final_writes value calls = .ok entries ∧
      List.Forall₂ (fun entry w => entry.1 = .str w.text ∧ R entry.2 w) entries ws := by
  induction calls generalizing ws with
  | nil =>
    cases h
    exact ⟨[], rfl, .nil⟩
  | cons call calls ih =>
    obtain ⟨hcall, hcalls⟩ := List.forall_mem_cons.mp hcalls
    rw [final_writes, hcall, ok_bind]
    cases hcompleted : is_completed_write call with
    | false =>
      rw [List.filter_cons_of_neg (by simp [hcompleted])] at h
      exact ih hcalls h
    | true =>
      rw [List.filter_cons_of_pos hcompleted] at h
      obtain ⟨w, ws, hw, hws, rfl⟩ := List.forall₂_cons_left_iff.mp h
      obtain ⟨entries, hentries, hrel⟩ := ih hcalls hws
      obtain ⟨a, ha, hR⟩ := hvalue call w hw
      refine ⟨(.str w.text, a) :: entries, ?_, .cons ⟨rfl, hR⟩ hrel⟩
      rw [Dict.item_eq_ok.mpr hw.path]
      simp only [Bool.not_true, Bool.false_eq_true, if_false, ok_bind, ha, hentries]
      rfl

theorem final_write_eq {α : Type} {R : α → Write → Prop} {entries : List (Json × α)}
    (h : List.Forall₂ (fun entry w => entry.1 = .str w.text ∧ R entry.2 w) entries ws)
    (text : String) :
    (final_write entries (.str text) = none ∧ last_text ws text = none) ∨
      ∃ a w, final_write entries (.str text) = some a ∧ last_text ws text = some w ∧ R a w := by
  have hfind := forall₂_find? (p := fun entry => Json.py_eq entry.1 (.str text))
    (q := fun w => decide (w.text = text)) (List.rel_reverse h) fun entry w hentry => by
      rw [hentry.1, Json.py_eq_str]
      exact decide_eq_decide.mpr (by rw [Json.str.injEq])
  rw [final_write, last_text]
  rcases hfind with ⟨hl, hm⟩ | ⟨entry, w, hl, hm, -, hR⟩
  · exact .inl ⟨by rw [hl]; rfl, hm⟩
  · exact .inr ⟨entry.2, w, by rw [hl]; rfl, hm, hR⟩

theorem text_of_last_text {text : String} {w : Write} (h : last_text ws text = some w) :
    w.text = text := by
  simpa using List.find?_some h

theorem mem_of_last_text {text : String} {w : Write} (h : last_text ws text = some w) : w ∈ ws :=
  List.mem_reverse.mp (List.mem_of_find?_eq_some h)

/-- A write to a file is not before the last one. -/
theorem exists_last_write {w : Write} (h : w ∈ ws) : ∃ last, last_write ws w.target = some last := by
  refine Option.isSome_iff_exists.mp (List.find?_isSome.mpr ⟨w, List.mem_reverse.mpr h, ?_⟩)
  exact decide_eq_true rfl

/-- A number of the sequence belongs to one write. -/
theorem eq_of_sequence (h : ws.Pairwise fun w w' => w.sequence < w'.sequence) {w w' : Write}
    (hw : w ∈ ws) (hw' : w' ∈ ws) (hsequence : w.sequence = w'.sequence) : w = w' := by
  have hnodup : (ws.map Write.sequence).Nodup := List.pairwise_map.mpr (h.imp ne_of_lt)
  exact List.inj_on_of_nodup_map hnodup hw hw' hsequence

end Writes

/-! ## The receipt of the run -/

section Receipt

variable {b : Broker} {site : Site} {ws : List Write} {state : BrokerState} {runtime : Tree Bytes}
  {policy : Json} {result : Except String ProcessResult}

theorem runtime_hash_ends {w : Write} (h : Granted b site w.text w.target) :
    ∃ hash, runtime_hash site runtime (.str w.text) = .ok hash := by
  rw [runtime_hash]
  split_ifs
  · exact ⟨_, rfl⟩
  · rw [h.contained, ok_bind]
    exact ⟨_, rfl⟩

theorem check_write_ends {call : Dict} {w : Write} (hcall : WriteCall call w)
    (h : Granted b site w.text w.target) :
    ∃ failures, check_write site runtime (.str w.text) call = .ok failures := by
  obtain ⟨hash, hhash⟩ : ∃ hash, runtime_hash site runtime (.str w.text) = .ok hash :=
    runtime_hash_ends h
  rw [check_write, hhash, ok_bind]
  cases hash with
  | none => exact ⟨_, rfl⟩
  | some actual =>
    dsimp only
    rw [Dict.item_eq_ok.mpr hcall.sha256, ok_bind]
    exact ⟨_, rfl⟩

theorem run_failures_ends (hintact : PackageIntact b site) (h : Traced b site ws state) :
    ∃ failures, run_failures b site runtime state result = .ok failures := by
  obtain ⟨v, hv, -⟩ := hintact
  obtain ⟨entries, hentries, hrel⟩ := @final_writes_eq ws _ _ .ok WriteCall
    (fun call hcall => completed_write_eq (h.recorded call hcall)) (fun call w hcall => ⟨call, rfl, hcall⟩) h.writes
  obtain ⟨checks, hchecks⟩ : ∃ checks, (entries.map (·.1)).dedup.mapM (fun path =>
      check_write site state.runtime path ((final_write entries path).getD [])) = .ok checks := by
    refine exists_mapM_eq_ok fun path hpath => ?_
    obtain ⟨entry, hentry, rfl⟩ := List.mem_map.mp (List.mem_dedup.mp hpath)
    obtain ⟨w, hw, htext, -⟩ := exists_of_forall₂ hrel hentry
    rw [htext]
    rcases final_write_eq hrel w.text with ⟨-, hnone⟩ | ⟨call, w', hcall, hlast, hwrite⟩
    · have hfound := List.find?_eq_none.mp hnone w (List.mem_reverse.mpr hw)
      exact absurd (decide_eq_true rfl) hfound
    · rw [hcall, ← text_of_last_text hlast]
      exact check_write_ends hwrite (h.granted w' (mem_of_last_text hlast))
  unfold run_failures
  rw [hv, ok_bind, hentries, ok_bind]
  dsimp only
  rw [hchecks, ok_bind]
  exact ⟨_, rfl⟩

theorem syscall_schema_of_recorded {call : Dict} {n : ℕ} (h : IsRecorded b site call)
    (hsequence : Dict.get call "sequence" = some (.int (n + 1))) : syscall_schema call = true := by
  obtain ⟨sequence, request, evidence, failures, outcome, before, after, hcall⟩ := h
  have hoperation := Dict.item_eq_ok.mp (hcall.item_eq hcall.get_operation_outcome (by decide) (by decide))
  have hstatus := Dict.item_eq_ok.mp hcall.item_status
  have hknown := hcall.known
  have hget (k : String) : Dict.get call k = Dict.get (call_record b sequence outcome) k :=
    congrArg (Dict.get · k) hcall.record
  have hcompleted : listed ["completed", "blocked"] (status_json outcome.failures) = true := by
    rw [status_json]
    split_ifs <;> rfl
  have hhex : hex_pattern 64 (stable_hash (.obj (final_evidence outcome))) = true :=
    hex_pattern_hexdigest _
  have hformat : Dict.get call "format" = some (.str "BOGK-capability-syscall-receipt-8.0") := by
    rw [hget, get_call_record hcall.plain, if_pos rfl]
  have happ : Dict.get call "app" = some (.str b.app_info.name) := by
    rw [hget, get_call_record hcall.plain, if_neg (by decide), if_neg (by decide), if_pos rfl]
  have hhash : Dict.get call "evidence_sha256" =
      some (.str (stable_hash (.obj (final_evidence outcome)))) := by
    rw [hget, get_call_record hcall.plain, if_neg (by decide), if_neg (by decide),
      if_neg (by decide), if_pos rfl]
  have hfailures : Dict.get call "failures" = some (.arr (outcome.failures.map failure_json)) := by
    rw [hget, get_call_record hcall.plain, if_neg (by decide), if_neg (by decide),
      if_neg (by decide), if_neg (by decide), if_pos rfl]
  generalize stable_hash (.obj (final_evidence outcome)) = hash at hhex hhash
  have hpositive : (1 : ℤ) ≤ (n : ℤ) + 1 := by omega
  rw [syscall_schema, hformat, hsequence, happ, hoperation, hhash, hfailures, hstatus]
  simp [hpositive, hknown, hhex, hcompleted]

/-- The recorded hashes of the evidence. -/
def evidence_hashes (calls : List Dict) : List Json :=
  calls.map fun call => (Dict.get call "evidence_sha256").getD .null

theorem mapM_evidence_hashes {calls : List Dict} (h : Audited calls) :
    calls.mapM (fun call => Dict.item call "evidence_sha256") = .ok (evidence_hashes calls) := by
  refine mapM_eq_ok (List.forall₂_iff_get.mpr ⟨(List.length_map _).symm, fun i hi hi' => ?_⟩)
  have hget := (h i hi).2
  unfold evidence_hashes
  rw [Dict.item_eq_ok]
  simp only [List.get_eq_getElem, List.getElem_map, hget, Option.getD_some]

/-- The fields of a receipt that `_finalize_brokered_process` has filled. -/
structure Finalized (b : Broker) (v : Verification) (policy : Json) (calls : List Dict)
    (receipt : ProcessReceipt) : Prop where
  schema : receipt_schema receipt = true
  policy_sha256 : receipt.policy_sha256 = stable_hash policy
  bundle_sha256 : receipt.package_bundle_sha256 = v.bundle_sha256
  receipts : receipt.syscall_receipts = calls
  stdout : Dict.get receipt.proof_material "stdout_sha256" =
    some (.str (hexdigest (utf8 receipt.stdout)))
  stderr : Dict.get receipt.proof_material "stderr_sha256" =
    some (.str (hexdigest (utf8 receipt.stderr)))
  returncode : Dict.get receipt.proof_material "returncode" = some receipt.returncode
  proof : receipt.proof_sha256 = stable_hash (.obj receipt.proof_material)
  sorted : Dict.Sorted receipt.proof_material
  bundle : Dict.get receipt.proof_material "package_bundle_sha256" = some v.bundle_sha256
  tree : Dict.get receipt.proof_material "installed_tree_sha256" = some v.installed_tree
  policy : Dict.get receipt.proof_material "policy_sha256" = some (.str (stable_hash policy))
  evidence : Dict.get receipt.proof_material "syscall_evidence" = some (.arr (evidence_hashes calls))

theorem finalize_ends {v : Verification} {calls : List Dict} {process : Option ProcessResult}
    {failures : List StoreFailure} (haudited : Audited calls)
    (hrecorded : ∀ call ∈ calls, IsRecorded b site call) :
    ∃ receipt, finalize b v policy calls process failures = .ok receipt ∧
      Finalized b v policy calls receipt := by
  have hschema : calls.all syscall_schema = true := by
    refine List.all_eq_true.mpr fun call hcall => ?_
    obtain ⟨i, hi, rfl⟩ := List.getElem_of_mem hcall
    exact syscall_schema_of_recorded (hrecorded _ hcall) (haudited i hi).1
  have hreceipt : receipt_schema (process_receipt b v policy calls process failures
      (evidence_hashes calls)) = true := by
    have hhex : hex_pattern 64 (stable_hash (.obj (proof_material b v policy process
        (evidence_hashes calls)))) = true := hex_pattern_hexdigest _
    unfold receipt_schema process_receipt
    dsimp only
    rw [hschema, hhex, decide_eq_true b.app_info.named]
    cases process <;> rfl
  have hsorted : Dict.Sorted (process_receipt b v policy calls process failures
      (evidence_hashes calls)).proof_material := by
    simp only [process_receipt, proof_material]
    exact Dict.sorted_of _
  refine ⟨process_receipt b v policy calls process failures (evidence_hashes calls), ?_,
    ⟨hreceipt, ?_, ?_, ?_, ?_, ?_, ?_, ?_, hsorted, ?_, ?_, ?_, ?_⟩⟩
  · unfold finalize
    rw [mapM_evidence_hashes haudited, ok_bind]
    dsimp only
    rw [hreceipt]
    rfl
  all_goals simp [process_receipt, proof_material, Dict.of, Dict.get_set]

theorem run_brokered_ends (hintact : PackageIntact b site) (h : Traced b site ws state) :
    ∃ v receipt, workspace_verify b site b.app_info.package = .ok v ∧ v.completed = true ∧
      run_brokered b site policy runtime state result = .ok receipt ∧
      Finalized b v policy state.calls receipt := by
  obtain ⟨failures, hfailures⟩ : ∃ failures, run_failures b site runtime state result = .ok failures :=
    run_failures_ends hintact h
  obtain ⟨v, hv, hcompleted⟩ := hintact
  obtain ⟨receipt, hreceipt, hfinal⟩ : ∃ receipt,
      finalize b v policy state.calls result.toOption failures = .ok receipt ∧
        Finalized b v policy state.calls receipt := finalize_ends h.audited h.recorded
  refine ⟨v, receipt, hv, hcompleted, ?_, hfinal⟩
  rw [run_brokered, hv, ok_bind, hcompleted, if_neg (by decide), hfailures, ok_bind, hreceipt]

/-! ## The replay of the receipt -/

/-- A call as it is replayed. -/
def replayed_call (call : Dict) : Dict :=
  Dict.set (evidence_of call) "evidence_sha256" ((Dict.get call "evidence_sha256").getD .null)

/-- The record of a write has the path of the request and the hash of the evidence. -/
theorem CallRecorded.write_fields {call : Dict} {sequence : ℕ} {request evidence : Dict}
    {failures : List StoreFailure} {outcome : Outcome} {before after : BrokerState}
    (h : CallRecorded b site call sequence request evidence failures outcome before after)
    (hoperation : requested request "operation" = .str "write") :
    Dict.get call "path" = some (requested request "path") ∧
      Dict.get call "sha256" = Dict.get outcome.evidence "sha256" := by
  have hperform := h.performed
  rw [perform_write h.token hoperation] at hperform
  obtain ⟨sha256, hevidence⟩ := write_call_evidence hperform
  have hpath : Dict.get outcome.evidence "path" = some (requested request "path") := by
    rw [hevidence, Dict.get_set_of_ne (by decide)]
    exact get_path_evidence
  have hsha256 : Dict.get outcome.evidence "sha256" = some (.str sha256) := by
    rw [hevidence, Dict.get_set_self]
  rw [hsha256]
  exact ⟨Dict.item_eq_ok.mp (h.item_eq hpath (by decide) (by decide)),
    Dict.item_eq_ok.mp (h.item_eq hsha256 (by decide) (by decide))⟩

/-- The file of the last write of a path has the recorded hash. -/
theorem runtime_hash_of_settled (h : Traced b site ws state) (hsettled : Settled site ws) {w : Write}
    (hlast : last_text ws w.text = some w) :
    runtime_hash site state.runtime (.str w.text) = .ok (some (some (hexdigest w.data))) := by
  have hmem := mem_of_last_text hlast
  obtain ⟨last, hwrite⟩ := exists_last_write hmem
  obtain ⟨hsymlink, hdata⟩ := hsettled w.text w last hlast hwrite
  rw [runtime_hash, hsymlink, if_neg (by decide), (h.granted w hmem).contained, ok_bind]
  dsimp only
  rw [h.files w.target last hwrite, Option.map_some, hdata]

theorem replay_one_eq (hintact : PackageIntact b site) (h : Traced b site ws state)
    (hsettled : Settled site ws) {sequences : List (Json × Json)}
    (hsequences : List.Forall₂ (fun entry w => entry.1 = .str w.text ∧ entry.2 = .int w.sequence)
      sequences ws) {call : Dict} (hcall : call ∈ state.calls) :
    replay_one b site state.runtime sequences call = .ok (replayed_call call, true) := by
  obtain ⟨sequence, request, evidence, failures, outcome, before, after, hrecorded⟩ :=
    h.recorded call hcall
  have hhash : Dict.get call "evidence_sha256" =
      some (.str (stable_hash (.obj (final_evidence outcome)))) := by
    rw [hrecorded.record, get_call_record hrecorded.plain, if_neg (by decide), if_neg (by decide),
      if_neg (by decide), if_pos rfl]
  have hevidence : evidence_of call = final_evidence outcome := by
    rw [hrecorded.record, evidence_of_call_record hrecorded.plain]
  have hreplayed (verify : Bool) (hfile : is_completed_write call = true → verify = true → ∃ hash,
      runtime_hash site state.runtime (requested request "path") = .ok (some (some hash)) ∧
        Dict.get outcome.evidence "sha256" = some (.str hash)) :
      replay_call b site state.runtime call verify = .ok (replayed_call call) := by
    rw [replay_call, hrecorded.replay_evidence_eq hintact fun hoperation hfailures =>
      hfile (hrecorded.is_completed_iff.mpr ⟨hoperation, hfailures⟩), ok_bind, replayed_call,
      hevidence, hhash]
    rfl
  have hsame : Dict.get (replayed_call call) "evidence_sha256" =
      some (.str (stable_hash (.obj (final_evidence outcome)))) := by
    rw [replayed_call, Dict.get_set_self, hhash]
    rfl
  obtain ⟨verify, hverify, hfile⟩ : ∃ verify, verify_write_output sequences call = .ok verify ∧
      (is_completed_write call = true → verify = true → ∃ hash,
        runtime_hash site state.runtime (requested request "path") = .ok (some (some hash)) ∧
          Dict.get outcome.evidence "sha256" = some (.str hash)) := by
    rw [verify_write_output, completed_write_eq ⟨_, _, _, _, _, _, _, hrecorded⟩, ok_bind]
    cases hcompleted : is_completed_write call with
    | false => exact ⟨true, rfl, nofun⟩
    | true =>
      obtain ⟨w, hw, hwrite⟩ := exists_of_forall₂ h.writes
        (List.mem_filter.mpr ⟨hcall, hcompleted⟩)
      rw [Dict.item_eq_ok.mpr hwrite.sequence, hwrite.path, Bool.not_true, if_neg (by decide), ok_bind]
      refine ⟨_, rfl, fun _ hlast => ?_⟩
      obtain ⟨hpath, hsha256⟩ := hrecorded.write_fields (hrecorded.is_completed_iff.mp hcompleted).1
      rw [hwrite.path] at hpath
      rw [hwrite.sha256] at hsha256
      rcases final_write_eq (R := fun last w => last = Json.int w.sequence) hsequences w.text with
        ⟨hnone, -⟩ | ⟨last, w', hfinal, htext, rfl⟩
      · rw [Option.getD_some, hnone] at hlast
        cases hlast
      · rw [Option.getD_some, hfinal, Option.getD_some, Json.py_eq_int, decide_eq_true_iff,
          Int.natCast_inj] at hlast
        obtain rfl := eq_of_sequence h.increasing (mem_of_last_text htext) hw hlast
        rw [← Option.some.inj hpath]
        exact ⟨_, runtime_hash_of_settled h hsettled htext, hsha256.symm⟩
  rw [replay_one, hverify, ok_bind, hreplayed verify hfile, ok_bind, Dict.item_eq_ok.mpr hhash,
    ok_bind, hsame]
  simp

theorem contiguous_of_audited {calls : List Dict} (h : Audited calls) : contiguous calls = true := by
  refine List.all_eq_true.mpr fun ok hok => ?_
  obtain ⟨i, hi, rfl⟩ := List.mem_mapIdx.mp hok
  rw [(h i hi).1, Option.getD_some, Json.py_eq_int, decide_eq_true rfl]
  rfl

/-- A field that is set to its own value stays. -/
theorem set_get {d : Dict} {key : String} {value : Json} (h : Dict.Sorted d)
    (hget : Dict.get d key = some value) : Dict.set d key value = d := by
  refine Dict.ext_of_sorted (Dict.sorted_set h) h fun k => ?_
  rw [Dict.get_set]
  split_ifs with hk
  · rw [← hk, hget]
  · rfl

theorem replay_ends {v : Verification} {receipt : ProcessReceipt} (h : Traced b site ws state)
    (hsettled : Settled site ws) (hv : workspace_verify b site b.app_info.package = .ok v)
    (hcompleted : v.completed = true) (hfinal : Finalized b v policy state.calls receipt) :
    replay b site state.runtime policy receipt =
      .ok ⟨receipt.proof_sha256, state.calls.map replayed_call, []⟩ := by
  obtain ⟨sequences, hsequences, hrel⟩ := @final_writes_eq ws _ _
    (fun call => Dict.item call "sequence") (fun last w => last = Json.int w.sequence)
    (fun call hcall => completed_write_eq (h.recorded call hcall)) (fun call w hcall => ⟨_, Dict.item_eq_ok.mpr hcall.sequence, rfl⟩) h.writes
  have hreplayed : state.calls.mapM (replay_one b site state.runtime sequences) =
      .ok (state.calls.map fun call => (replayed_call call, true)) := by
    refine mapM_eq_ok (List.forall₂_map_right_iff.mpr (List.forall₂_same.mpr fun call hcall => ?_))
    exact replay_one_eq ⟨v, hv, hcompleted⟩ h hsettled hrel hcall
  have hevidence : ((state.calls.map fun call => (replayed_call call, true)).map (·.1)).mapM
      (fun call => Dict.item call "evidence_sha256") = .ok (evidence_hashes state.calls) := by
    refine mapM_eq_ok ?_
    unfold evidence_hashes
    rw [List.map_map, List.forall₂_map_left_iff, List.forall₂_map_right_iff, List.forall₂_same]
    exact fun call _ => Dict.item_eq_ok.mpr Dict.get_set_self
  have hmaterial : Dict.set (Dict.set (Dict.set (Dict.set receipt.proof_material
      "package_bundle_sha256" v.bundle_sha256) "installed_tree_sha256" v.installed_tree)
      "policy_sha256" (.str (stable_hash policy))) "syscall_evidence"
      (.arr (evidence_hashes state.calls)) = receipt.proof_material := by
    rw [set_get hfinal.sorted hfinal.bundle, set_get hfinal.sorted hfinal.tree,
      set_get hfinal.sorted hfinal.policy, set_get hfinal.sorted hfinal.evidence]
  unfold replay
  rw [hv, ok_bind, hcompleted, if_neg (by decide)]
  dsimp only
  rw [hfinal.receipts, hsequences, ok_bind, hreplayed, ok_bind, hevidence, ok_bind, hmaterial, hfinal.schema, hfinal.stdout, hfinal.stderr, hfinal.returncode,
    hfinal.policy_sha256, hfinal.bundle_sha256, hfinal.proof, contiguous_of_audited h.audited]
  simp [reason_unless]

/-- `run_brokered` returns a receipt that follows its schema, and its replay finds every recorded hash
again. -/
def Replays (b : Broker) (site : Site) (policy : Json) (runtime : Tree Bytes) (state : BrokerState)
    (result : Except String ProcessResult) : Prop :=
  ∃ receipt replayed, run_brokered b site policy runtime state result = .ok receipt ∧
    receipt_schema receipt = true ∧ receipt.syscall_receipts = state.calls ∧
    replay b site state.runtime policy receipt = .ok replayed ∧
    evidence_hashes replayed.replayed_syscall_receipts = evidence_hashes state.calls ∧
    replayed.replay_verified = true

end Receipt

/-! ## Runs of an app -/

theorem exists_intact : ∃ site, PackageIntact plain_broker site ∧ site.runtime_links = plain_links := by
  obtain ⟨store, hcomplete⟩ := complete_first
  exact ⟨⟨store, plain_links, plain_links⟩, hcomplete, rfl⟩

end Bogbin.Bogvm
