import Bogbin.Bogvm.BrokerMediation
import Bogbin.Bogvm.BrokerReplay

/-!
# Runs of a brokered process

While a process runs, only the broker changes the runtime directory (`Process`).  Each call that is
recorded can be replayed, and the completed writes are those of the requests, in their order
(`traced_of_process`).
-/

namespace Bogbin.Bogvm

open StateExcept

/-! ## Writes -/

/-- A write that the broker performs. -/
structure Write where
  sequence : ℕ
  text : String
  target : Path
  data : Bytes

/-- The line asks for a write that the broker performs. -/
structure Writes (b : Broker) (site : Site) (line : Content) (state : BrokerState) (w : Write) :
    Prop where
  request : ∃ request hex, line = .value (.obj request) ∧ valid_token b request = true ∧
    requested request "operation" = .str "write" ∧ requested request "path" = .str w.text ∧
    data_text request = .str hex ∧ from_hex hex.toList = some w.data
  granted : Granted b site w.text w.target
  writable : Writable b.host state.runtime w.target
  sequence : w.sequence = state.calls.length + 1

/-- The requests of a process, the writes that the broker performs, and the state after them. -/
inductive Process (b : Broker) (site : Site) (runtime : Tree Bytes) :
    List Content → List Write → BrokerState → Prop
  | start : Process b site runtime [] [] ⟨[], runtime⟩
  | write {lines : List Content} {ws : List Write} {state : BrokerState} {line : Content} {w : Write}
      (run : Process b site runtime lines ws state) (writes : Writes b site line state w) :
      Process b site runtime (lines ++ [line]) (ws ++ [w]) (serve b site line state).2
  | other {lines : List Content} {ws : List Write} {state : BrokerState} {line : Content}
      (run : Process b site runtime lines ws state) (others : ∀ w, ¬Writes b site line state w) :
      Process b site runtime (lines ++ [line]) ws (serve b site line state).2

/-- Every sequence of requests is served. -/
theorem exists_process (b : Broker) (site : Site) (runtime : Tree Bytes) (lines : List Content) :
    ∃ ws state, Process b site runtime lines ws state := by
  induction lines using List.reverseRecOn with
  | nil => exact ⟨_, _, .start⟩
  | append_singleton lines line ih =>
    obtain ⟨ws, state, run⟩ := ih
    by_cases h : ∃ w, Writes b site line state w
    · obtain ⟨w, hw⟩ := h
      exact ⟨_, _, .write run hw⟩
    · exact ⟨_, _, .other run fun w hw => h ⟨w, hw⟩⟩

section Step

variable {b : Broker} {site : Site} {request evidence : Dict} {failures : List StoreFailure}
  {outcome : Outcome} {state state' : BrokerState} {line : Content} {w : Write}

theorem perform_write (htoken : valid_token b request = true)
    (hoperation : requested request "operation" = .str "write") :
    perform b site request evidence failures = write_call b site request evidence failures := by
  simp [perform, htoken, hoperation]

/-- A granted write. -/
theorem write_call_granted {text hex : String} {target : Path} {data : Bytes}
    (hpath : requested request "path" = .str text) (hdata : data_text request = .str hex)
    (hhex : from_hex hex.toList = some data) (hgranted : Granted b site text target)
    (hwritten : write_target b target data state = .ok ⟨⟩ state') :
    write_call b site request evidence [] state = .ok ⟨Dict.set (path_evidence evidence
      b.app_info.capabilities.write (.str text)) "sha256" (.str (hexdigest data)), [],
      { Reply.empty with size := some data.length, sha256 := some (hexdigest data) }⟩ state' := by
  have hwrite : write_data request [] (requested request "path") = .ok (data, []) := by
    rw [write_data, ← data_text, hdata]
    dsimp only
    rw [hhex]
  have hlisted : listed b.app_info.capabilities.write (.str text) = true :=
    decide_eq_true hgranted.listed
  rw [write_call_of_data hwrite, hpath]
  dsimp only
  rw [hgranted.safe, hlisted, if_neg (by decide), if_neg (not_not.mpr rfl),
    bind_of_ok (ofExcept_eq_ok.mpr ⟨hgranted.contained, rfl⟩)]
  dsimp only
  rw [bind_of_ok hwritten]
  rfl

theorem answered_of_writes (hintact : PackageIntact b site) (h : Writes b site line state w) :
    Answered b (exchange b site line state) := by
  obtain ⟨request, hex, hline, htoken, hoperation, hpath, hdata, hhex⟩ := h.request
  obtain ⟨⟨⟩, after, hwritten⟩ := ends_write_target_iff.mpr h.writable
  have hchecked : ∃ result, check_request b site request = .ok result := by
    refine check_request_ok_iff.mpr fun _ => ?_
    rw [hoperation]
    obtain ⟨v, hv, -⟩ := hintact
    exact ⟨rfl, fun _ => ⟨v, hv⟩⟩
  obtain ⟨⟨evidence, failures⟩, hcheck⟩ := hchecked
  obtain rfl := (failures_iff_intact htoken (by rw [hoperation]; rfl) hcheck).mpr hintact
  refine ⟨request, hline, (ends_perform_iff hcheck).mp ?_⟩
  rw [perform_write htoken hoperation]
  exact ⟨_, _, write_call_granted hpath hdata hhex h.granted hwritten⟩

/-- What the broker does with such a line. -/
theorem served_of_writes {middle : BrokerState} (hintact : PackageIntact b site)
    (h : Writes b site line state w)
    (hserved : Served b request evidence failures outcome middle (exchange b site line state)) :
    valid_token b request = true ∧ requested request "operation" = .str "write" ∧
      requested request "path" = .str w.text ∧ outcome.failures = [] ∧
      Dict.get outcome.evidence "path" = some (.str w.text) ∧
      Dict.get outcome.evidence "sha256" = some (.str (hexdigest w.data)) ∧
      middle.runtime.files = (state.runtime.put w.target w.data).files := by
  obtain ⟨request', hex, hline, htoken, hoperation, hpath, hdata, hhex⟩ := h.request
  obtain rfl : request' = request := Json.obj.inj (Content.value.inj (hline.symm.trans hserved.line))
  obtain ⟨⟨⟩, after, hwritten⟩ := ends_write_target_iff.mpr h.writable
  obtain rfl := (failures_iff_intact htoken (by rw [hoperation]; rfl) hserved.checked).mpr hintact
  have hperform := hserved.performed
  rw [perform_write htoken hoperation] at hperform
  obtain ⟨houtcome, rfl⟩ := EStateM.Result.ok.inj
    ((write_call_granted hpath hdata hhex h.granted hwritten).symm.trans hperform)
  refine ⟨htoken, hoperation, hpath, ?_, ?_, ?_, (write_target_ok hwritten).2.1⟩
  · rw [← houtcome]
  · rw [← houtcome, Dict.get_set_of_ne (by decide)]
    exact get_path_evidence
  · rw [← houtcome, Dict.get_set_self]

/-- Any other line changes no file, and its call is no completed write. -/
theorem served_of_others {middle : BrokerState} (hothers : ∀ w, ¬Writes b site line state w)
    (hserved : Served b request evidence failures outcome middle (exchange b site line state)) :
    ¬(valid_token b request = true ∧ requested request "operation" = .str "write" ∧
      outcome.failures = []) ∧ middle.runtime = state.runtime := by
  have hnot : ¬(valid_token b request = true ∧ requested request "operation" = .str "write" ∧
      outcome.failures = []) := by
    rintro ⟨htoken, hoperation, hfailures⟩
    have hperform := hserved.performed
    rw [perform_write htoken hoperation] at hperform
    rcases write_call_ok hperform with ⟨-, sha256, hrefused⟩ |
      ⟨hex, text, target, data, -, hdata, hhex, hpath, hgranted, hwritten, -⟩
    · exact hrefused.failures hfailures
    · exact hothers ⟨_, text, target, data⟩
        ⟨⟨request, hex, hserved.line, htoken, hoperation, hpath, hdata, hhex⟩, hgranted,
          (write_target_ok hwritten).2.2, rfl⟩
  refine ⟨hnot, ?_⟩
  rcases perform_ok hserved.checked hserved.performed with ⟨-, -, hstate⟩ |
    ⟨hfailures, htoken, hperformed⟩
  · rw [hstate]
    rfl
  · generalize outcome.reply = reply at hperformed
    cases hperformed with
    | read | env | dependency | receipt => rfl
    | write hoperation => exact absurd ⟨htoken, hoperation, hfailures⟩ hnot

end Step

/-! ## The calls of a run -/

/-- The last write that a request with this path made. -/
def last_text (ws : List Write) (text : String) : Option Write := ws.reverse.find? (·.text = text)

/-- The last write to this file. -/
def last_write (ws : List Write) (target : Path) : Option Write :=
  ws.reverse.find? (·.target = target)

def is_completed_write (call : Dict) : Bool :=
  Dict.get call "operation" = some (.str "write") &&
    Dict.get call "execution_status" = some (.str "completed")

/-- The call records the write. -/
structure WriteCall (call : Dict) (w : Write) : Prop where
  path : Dict.get call "path" = some (.str w.text)
  sequence : Dict.get call "sequence" = some (.int w.sequence)
  sha256 : Dict.get call "sha256" = some (.str (hexdigest w.data))

/-- A request line with the token of the broker, and with a known operation or one that makes `_handle`
raise. -/
def Replayable (b : Broker) (line : Content) : Prop :=
  ∀ request, line = .value (.obj request) → valid_token b request = true ∧
    (listed ["read", "write", "env", "dependency", "receipt"] (requested request "operation") = true ∨
      hashable (requested request "operation") = false)

/-- What the calls of a run record. -/
structure Traced (b : Broker) (site : Site) (ws : List Write) (state : BrokerState) : Prop where
  recorded : ∀ call ∈ state.calls, ∃ sequence request evidence failures outcome before after,
    CallRecorded b site call sequence request evidence failures outcome before after
  audited : Audited state.calls
  writes : List.Forall₂ WriteCall (state.calls.filter is_completed_write) ws
  granted : ∀ w ∈ ws, Granted b site w.text w.target
  increasing : ws.Pairwise fun w w' => w.sequence < w'.sequence
  bounded : ∀ w ∈ ws, w.sequence ≤ state.calls.length
  files : ∀ target w, last_write ws target = some w → state.runtime.file target = some w.data

theorem last_write_append {ws : List Write} {w : Write} {target : Path} :
    last_write (ws ++ [w]) target = if w.target = target then some w else last_write ws target := by
  unfold last_write
  rw [List.reverse_append, List.reverse_singleton, List.singleton_append, List.find?_cons]
  split_ifs with h
  · rw [decide_eq_true h]
  · rw [decide_eq_false h]

section Trace

variable {b : Broker} {site : Site} {runtime : Tree Bytes} {request evidence : Dict}
  {failures : List StoreFailure} {outcome : Outcome} {state middle : BrokerState} {line : Content}
  {ws : List Write} {w : Write}

theorem recorded_of_served (hreplayable : Replayable b line)
    (h : Served b request evidence failures outcome middle (exchange b site line state)) :
    CallRecorded b site (call_record b (state.calls.length + 1) outcome) (state.calls.length + 1)
      request evidence failures outcome state middle := by
  obtain ⟨htoken, hknown⟩ := hreplayable request h.line
  refine ⟨htoken, hknown.resolve_right fun hhash => ?_, h.checked, h.performed, h.plain, rfl⟩
  rw [(check_request_ok htoken h.checked).1] at hhash
  cases hhash

theorem CallRecorded.is_completed_iff {call : Dict} {sequence : ℕ} {before after : BrokerState}
    (h : CallRecorded b site call sequence request evidence failures outcome before after) :
    is_completed_write call = true ↔
      requested request "operation" = .str "write" ∧ outcome.failures = [] := by
  have hoperation := h.item_eq h.get_operation_outcome (by decide) (by decide)
  have hstatus := h.item_status
  rw [Dict.item_eq_ok] at hoperation hstatus
  rw [is_completed_write, hoperation, hstatus, Bool.and_eq_true, decide_eq_true_iff,
    decide_eq_true_iff, Option.some.injEq, Option.some.injEq]
  refine and_congr_right' ?_
  by_cases hfailures : outcome.failures = []
  · exact iff_of_true (status_of_no_failures hfailures) hfailures
  · refine iff_of_false (fun hstatus => ?_) hfailures
    rw [status_of_failures hfailures] at hstatus
    exact absurd (Json.str.inj hstatus) (by decide)

/-- A line that the broker does not answer leaves the calls and the files. -/
theorem traced_of_same {state' : BrokerState} (h : Traced b site ws state)
    (hcalls : state'.calls = state.calls) (hfiles : state'.runtime.files = state.runtime.files) :
    Traced b site ws state' := by
  refine ⟨?_, ?_, ?_, h.granted, h.increasing, ?_, fun target w hlast => ?_⟩
  · rw [hcalls]
    exact h.recorded
  · rw [hcalls]
    exact h.audited
  · rw [hcalls]
    exact h.writes
  · rw [hcalls]
    exact h.bounded
  · have hfile := h.files target w hlast
    unfold Tree.file at hfile ⊢
    rw [hfiles, hfile]

theorem traced_other (h : Traced b site ws state) (hreplayable : Replayable b line)
    (hothers : ∀ w, ¬Writes b site line state w) :
    Traced b site ws (exchange b site line state).after := by
  by_cases hanswered : Answered b (exchange b site line state)
  · obtain ⟨request, evidence, failures, outcome, middle, hserved⟩ := served_of_answered hanswered
    have hcall := recorded_of_served hreplayable hserved
    obtain ⟨hnot, hruntime⟩ := served_of_others hothers hserved
    have hincomplete : is_completed_write (call_record b (state.calls.length + 1) outcome) = false := by
      refine Bool.eq_false_iff.mpr fun hcompleted => hnot ⟨hcall.token, ?_⟩
      exact hcall.is_completed_iff.mp hcompleted
    refine ⟨?_, ?_, ?_, h.granted, h.increasing, fun w hw => ?_, fun target w hlast => ?_⟩
    · rw [hserved.calls, List.forall_mem_append, List.forall_mem_singleton]
      exact ⟨h.recorded, _, _, _, _, _, _, _, hcall⟩
    · rw [hserved.calls]
      exact audited_append h.audited hserved.plain
    · have hfilter : (exchange b site line state).before.calls = state.calls := rfl
      rw [hserved.calls, hfilter, List.filter_append, List.filter_singleton, hincomplete,
        cond_false, List.append_nil]
      exact h.writes
    · rw [hserved.calls, List.length_append]
      exact (h.bounded w hw).trans (Nat.le_add_right _ _)
    · rw [hserved.runtime, hruntime]
      exact h.files target w hlast
  · obtain ⟨-, hcalls, hfiles⟩ := raised_of_not_answered hanswered
    exact traced_of_same h hcalls hfiles

theorem traced_write (hintact : PackageIntact b site) (h : Traced b site ws state)
    (hreplayable : Replayable b line) (hw : Writes b site line state w) :
    Traced b site (ws ++ [w]) (exchange b site line state).after := by
  obtain ⟨request, evidence, failures, outcome, middle, hserved⟩ :=
    served_of_answered (answered_of_writes hintact hw)
  have hcall := recorded_of_served hreplayable hserved
  obtain ⟨-, hoperation, -, hfailures, hpath, hsha256, hfiles⟩ := served_of_writes hintact hw hserved
  have hcompleted := hcall.is_completed_iff.mpr ⟨hoperation, hfailures⟩
  have hbefore : (exchange b site line state).before.calls = state.calls := rfl
  refine ⟨?_, ?_, ?_, ?_, ?_, ?_, fun target w' hlast => ?_⟩
  · rw [hserved.calls, List.forall_mem_append, List.forall_mem_singleton]
    exact ⟨h.recorded, _, _, _, _, _, _, _, hcall⟩
  · rw [hserved.calls]
    exact audited_append h.audited hserved.plain
  · rw [hserved.calls, hbefore, List.filter_append, List.filter_singleton, hcompleted, cond_true]
    refine List.rel_append h.writes (.cons ⟨?_, ?_, ?_⟩ .nil)
    · exact Dict.item_eq_ok.mp (hcall.item_eq hpath (by decide) (by decide))
    · rw [get_call_record hserved.plain, if_neg (by decide), if_pos rfl, hw.sequence]
    · exact Dict.item_eq_ok.mp (hcall.item_eq hsha256 (by decide) (by decide))
  · rw [List.forall_mem_append, List.forall_mem_singleton]
    exact ⟨h.granted, hw.granted⟩
  · refine List.pairwise_append.mpr ⟨h.increasing, List.pairwise_singleton _ _, fun w' hw' w'' hw'' => ?_⟩
    obtain rfl := List.mem_singleton.mp hw''
    rw [hw.sequence]
    exact Nat.lt_succ_of_le (h.bounded w' hw')
  · rw [hserved.calls, hbefore, List.length_append, List.length_singleton, List.forall_mem_append,
      List.forall_mem_singleton]
    exact ⟨fun w' hw' => (h.bounded w' hw').trans (Nat.le_succ _), hw.sequence.le⟩
  · have hfile : (exchange b site line state).after.runtime.file target =
        (state.runtime.put w.target w.data).file target := by
      rw [hserved.runtime]
      unfold Tree.file
      rw [hfiles]
    rw [hfile, Tree.file_put]
    rw [last_write_append] at hlast
    by_cases htarget : w.target = target
    · rw [if_pos htarget] at hlast
      obtain rfl := Option.some.inj hlast
      rw [if_pos htarget.symm]
    · rw [if_neg htarget] at hlast
      rw [if_neg (Ne.symm htarget)]
      exact h.files target w' hlast

theorem traced_of_process {lines : List Content} (hintact : PackageIntact b site)
    (h : Process b site runtime lines ws state) (hreplayable : ∀ line ∈ lines, Replayable b line) :
    Traced b site ws state := by
  induction h with
  | start => exact ⟨nofun, fun i hi => absurd hi (Nat.not_lt_zero i), .nil, nofun, .nil, nofun, nofun⟩
  | write run hwrites ih =>
    rw [List.forall_mem_append, List.forall_mem_singleton] at hreplayable
    exact traced_write hintact (ih hreplayable.1) hreplayable.2 hwrites
  | other run hothers ih =>
    rw [List.forall_mem_append, List.forall_mem_singleton] at hreplayable
    exact traced_other (ih hreplayable.1) hreplayable.2 hothers

end Trace

end Bogbin.Bogvm
