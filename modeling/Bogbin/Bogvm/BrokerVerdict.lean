import Bogbin.Bogvm.BrokerReplayProof

/-!
# The verdict on a brokered run

A process talks to the broker and can change the files of its app itself (`MixedRun`).  `run_brokered`
compares the files before and after with the texts of the paths that the broker was asked to write, so
that the verdict depends on how a path is spelled (`brokered_verdict_iff`).
-/

namespace Bogbin.Bogvm

open StateExcept

/-- A path that a scan of a directory finds. -/
def Proper (p : Path) : Prop := p ≠ [] ∧ ∀ part ∈ p, PlainPart part

def ProperTree (t : Tree Bytes) : Prop := ∀ p ∈ t.paths, Proper p

/-- What a process does: it sends a line to the broker, or it changes its files. -/
inductive ProcessEvent
  | request (line : Content)
  | direct (runtime : Tree Bytes) (proper : ProperTree runtime)

/-- The events of a process, the writes that the broker performs, and the state after them. -/
inductive MixedRun (b : Broker) (site : Site) (runtime : Tree Bytes) :
    List ProcessEvent → List Write → BrokerState → Prop
  | start : MixedRun b site runtime [] [] ⟨[], runtime⟩
  | write {events : List ProcessEvent} {ws : List Write} {state : BrokerState} {line : Content}
      {w : Write} (run : MixedRun b site runtime events ws state)
      (writes : Writes b site line state w) :
      MixedRun b site runtime (events ++ [.request line]) (ws ++ [w]) (serve b site line state).2
  | other {events : List ProcessEvent} {ws : List Write} {state : BrokerState} {line : Content}
      (run : MixedRun b site runtime events ws state) (others : ∀ w, ¬Writes b site line state w) :
      MixedRun b site runtime (events ++ [.request line]) ws (serve b site line state).2
  | direct {events : List ProcessEvent} {ws : List Write} {state : BrokerState}
      (run : MixedRun b site runtime events ws state) (tree : Tree Bytes) (proper : ProperTree tree) :
      MixedRun b site runtime (events ++ [.direct tree proper]) ws { state with runtime := tree }

/-- Every sequence of events is a run. -/
theorem exists_mixedRun (b : Broker) (site : Site) (runtime : Tree Bytes)
    (events : List ProcessEvent) : ∃ ws state, MixedRun b site runtime events ws state := by
  induction events using List.reverseRecOn with
  | nil => exact ⟨_, _, .start⟩
  | append_singleton events event ih =>
    obtain ⟨ws, state, run⟩ := ih
    cases event with
    | direct tree proper => exact ⟨_, _, .direct run tree proper⟩
    | request line =>
      by_cases h : ∃ w, Writes b site line state w
      · obtain ⟨w, hw⟩ := h
        exact ⟨_, _, .write run hw⟩
      · exact ⟨_, _, .other run fun w hw => h ⟨w, hw⟩⟩

/-- The operations that the schema of a process receipt admits. -/
def known_operations : List String := ["read", "write", "env", "dependency", "receipt"]

/-- The line is not recorded with an operation that the schema refuses: the operation is known, or it
makes `_handle` raise. -/
def Known (b : Broker) (line : Content) : Prop :=
  ∀ request, line = .value (.obj request) →
    listed known_operations (requested request "operation") = true ∨
      (valid_token b request = true ∧ hashable (requested request "operation") = false)

/-! ## The recorded calls -/

section Calls

variable {b : Broker} {site : Site} {request evidence : Dict} {failures : List StoreFailure}
  {outcome : Outcome} {state middle : BrokerState} {line : Content} {ws : List Write} {w : Write}

/-- The operation in the evidence of an answer. -/
theorem get_performed_operation (hcheck : check_request b site request = .ok (evidence, failures))
    (hperform : perform b site request evidence failures state = .ok outcome middle) :
    Dict.get outcome.evidence "operation" = some (requested request "operation") := by
  cases htoken : valid_token b request with
  | false =>
    obtain ⟨rfl, rfl⟩ :=
      Prod.mk.inj (Except.ok.inj ((check_request_invalid htoken).symm.trans hcheck))
    unfold perform at hperform
    rw [htoken] at hperform
    obtain ⟨rfl, -⟩ := EStateM.Result.ok.inj hperform
    rfl
  | true =>
    by_cases hknown : listed known_operations (requested request "operation") = true
    · have hcall : CallRecorded b site (call_record b 0 outcome) 0 request evidence failures outcome
          state middle :=
        ⟨htoken, hknown, hcheck, hperform, plain_perform (plain_check_request hcheck) hperform, rfl⟩
      exact hcall.get_operation_outcome
    · have hget := get_operation htoken hcheck
      have hbranch : Branch b site request evidence failures
          (perform b site request evidence failures) := branch_perform
      generalize perform b site request evidence failures = x at hperform hbranch
      cases hbranch with
      | unauthorized hno =>
        rw [htoken] at hno
        cases hno
      | unknown =>
        obtain ⟨rfl, -⟩ := EStateM.Result.ok.inj hperform
        exact hget
      | read _ hoperation | write _ hoperation | env _ hoperation | dependency _ hoperation
      | receipt _ hoperation =>
        rw [hoperation] at hknown
        exact absurd rfl hknown

/-- The fields of a record that the verdict looks at. -/
structure RecordFields (request : Dict) (outcome : Outcome) (call : Dict) : Prop where
  operation : Dict.get call "operation" = some (requested request "operation")
  status : Dict.get call "execution_status" = some (status_json outcome.failures)

theorem recordFields_of_served
    (h : Served b request evidence failures outcome middle (exchange b site line state)) {n : ℕ} :
    RecordFields request outcome (call_record b n outcome) := by
  have hget {key : String} (hkey : key ∉ record_keys) :
      Dict.get (call_record b n outcome) key = Dict.get (final_evidence outcome) key := by
    rw [get_call_record h.plain]
    simp only [record_keys, List.mem_cons, List.not_mem_nil, or_false, not_or] at hkey
    obtain ⟨hformat, hsequence, happ, hhash, hfailures⟩ := hkey
    rw [if_neg hformat, if_neg hsequence, if_neg happ, if_neg hhash, if_neg hfailures]
  constructor
  · rw [hget (by decide), final_evidence, Dict.get_set_of_ne (by decide)]
    exact get_performed_operation h.checked h.performed
  · rw [hget (by decide)]
    exact Dict.get_set_self

theorem RecordFields.is_completed_write_iff {call : Dict} (h : RecordFields request outcome call) :
    is_completed_write call = true ↔
      requested request "operation" = .str "write" ∧ outcome.failures = [] := by
  rw [is_completed_write, h.operation, h.status, Bool.and_eq_true, decide_eq_true_iff,
    decide_eq_true_iff, Option.some.injEq, Option.some.injEq]
  refine and_congr_right' ?_
  by_cases hfailures : outcome.failures = []
  · exact iff_of_true (status_of_no_failures hfailures) hfailures
  · refine iff_of_false (fun hstatus => ?_) hfailures
    rw [status_of_failures hfailures] at hstatus
    exact absurd (Json.str.inj hstatus) (by decide)

theorem RecordFields.completed_write_eq {call : Dict} (h : RecordFields request outcome call) :
    completed_write call = .ok (is_completed_write call) := by
  rw [completed_write, Dict.item_eq_ok.mpr h.operation, ok_bind, is_completed_write, h.operation,
    h.status]
  by_cases hwrite : requested request "operation" = .str "write"
  · rw [if_neg (not_not.mpr hwrite), Dict.item_eq_ok.mpr h.status, ok_bind, hwrite]
    simp
  · rw [if_pos hwrite]
    simp [hwrite]

theorem syscall_schema_of_served {n : ℕ}
    (h : Served b request evidence failures outcome middle (exchange b site line state)) :
    syscall_schema (call_record b (n + 1) outcome) =
      listed known_operations (requested request "operation") := by
  have hfields := @recordFields_of_served _ _ _ _ _ _ _ _ _ h (n + 1)
  have hhex : hex_pattern 64 (stable_hash (.obj (final_evidence outcome))) = true :=
    hex_pattern_hexdigest _
  have hstatus : listed ["completed", "blocked"] (status_json outcome.failures) = true := by
    rw [status_json]
    split_ifs <;> rfl
  have hpositive : (1 : ℤ) ≤ (n : ℤ) + 1 := by omega
  rw [syscall_schema, hfields.operation, hfields.status, get_call_record h.plain,
    get_call_record h.plain, get_call_record h.plain, get_call_record h.plain,
    get_call_record h.plain]
  generalize stable_hash (.obj (final_evidence outcome)) = hash at hhex
  simp [hhex, hstatus, hpositive, known_operations]

/-- An answered line is known exactly when its operation is. -/
theorem known_iff_of_served
    (h : Served b request evidence failures outcome middle (exchange b site line state)) :
    Known b line ↔ listed known_operations (requested request "operation") = true := by
  constructor
  · intro hknown
    refine (hknown request h.line).resolve_right ?_
    rintro ⟨htoken, hhash⟩
    rw [(check_request_ok htoken h.checked).1] at hhash
    cases hhash
  · intro hlisted request' hline
    obtain rfl : request' = request := Json.obj.inj (Content.value.inj (hline.symm.trans h.line))
    exact .inl hlisted

/-- A line that is not answered is known. -/
theorem known_of_not_answered (h : ¬Answered b (exchange b site line state)) : Known b line := by
  intro request hline
  by_contra hunknown
  push Not at hunknown
  obtain ⟨hlisted, hhash⟩ := hunknown
  refine h ⟨request, hline, fun htoken => ?_⟩
  have hname {name : String} (hname : name ∈ known_operations)
      (hoperation : requested request "operation" = .str name) : False := by
    rw [hoperation] at hlisted
    exact hlisted (decide_eq_true hname)
  refine ⟨by simpa using hhash htoken, fun hneeds => ?_, fun hread => (hname (by decide) hread).elim,
    fun hwrite => (hname (by decide) hwrite).elim, fun henv => (hname (by decide) henv).elim,
    fun hdependency => (hname (by decide) hdependency).elim⟩
  refine absurd ?_ hlisted
  unfold needs_package at hneeds
  unfold listed at hneeds ⊢
  split at hneeds
  · next name _ =>
    have hmem := of_decide_eq_true hneeds
    exact decide_eq_true (by simp only [known_operations, List.mem_cons] at hmem ⊢; tauto)
  · cases hneeds

end Calls

/-! ## What a run leaves -/

/-- What the calls of a run record. -/
structure Logged (b : Broker) (site : Site) (events : List ProcessEvent) (ws : List Write)
    (calls : List Dict) : Prop where
  completed : ∀ call ∈ calls, completed_write call = .ok (is_completed_write call)
  writes : List.Forall₂ WriteCall (calls.filter is_completed_write) ws
  granted : ∀ w ∈ ws, Granted b site w.text w.target
  audited : Audited calls
  schema : calls.all syscall_schema = true ↔ ∀ line, .request line ∈ events → Known b line

section Run

variable {b : Broker} {site : Site} {runtime : Tree Bytes} {events : List ProcessEvent}
  {ws : List Write} {state : BrokerState} {line : Content} {w : Write}

theorem known_append : (∀ line', ProcessEvent.request line' ∈ events ++ [.request line] → Known b line') ↔
    (∀ line', .request line' ∈ events → Known b line') ∧ Known b line := by
  constructor
  · exact fun h => ⟨fun line' hline => h line' (List.mem_append_left _ hline), h line (by simp)⟩
  · rintro ⟨hevents, hline⟩ line' hmem
    rcases List.mem_append.mp hmem with hmem | hmem
    · exact hevents line' hmem
    · obtain rfl := ProcessEvent.request.inj (List.mem_singleton.mp hmem)
      exact hline

theorem known_append_direct {tree : Tree Bytes} {proper : ProperTree tree} :
    (∀ line, ProcessEvent.request line ∈ events ++ [.direct tree proper] → Known b line) ↔
      ∀ line, .request line ∈ events → Known b line := by
  simp

/-- An answered line adds its call. -/
theorem logged_served {request evidence : Dict} {failures : List StoreFailure} {outcome : Outcome}
    {middle : BrokerState} {ws' : List Write} (h : Logged b site events ws state.calls)
    (hserved : Served b request evidence failures outcome middle (exchange b site line state))
    (hwrites : List.Forall₂ WriteCall
      ((state.calls ++ [call_record b (state.calls.length + 1) outcome]).filter is_completed_write) ws')
    (hgranted : ∀ w ∈ ws', Granted b site w.text w.target) :
    Logged b site (events ++ [.request line]) ws' (exchange b site line state).after.calls := by
  have hfields := @recordFields_of_served _ _ _ _ _ _ _ _ _ hserved (state.calls.length + 1)
  have hbefore : (exchange b site line state).before.calls = state.calls := rfl
  rw [hserved.calls, hbefore]
  refine ⟨?_, hwrites, hgranted, audited_append h.audited hserved.plain, ?_⟩
  · rw [List.forall_mem_append, List.forall_mem_singleton]
    exact ⟨h.completed, hfields.completed_write_eq⟩
  · rw [List.all_append, Bool.and_eq_true, h.schema, known_append, known_iff_of_served hserved,
      List.all_cons, List.all_nil, Bool.and_true, syscall_schema_of_served hserved]

theorem logged_other (h : Logged b site events ws state.calls)
    (hothers : ∀ w, ¬Writes b site line state w) :
    Logged b site (events ++ [.request line]) ws (exchange b site line state).after.calls := by
  by_cases hanswered : Answered b (exchange b site line state)
  · obtain ⟨request, evidence, failures, outcome, middle, hserved⟩ := served_of_answered hanswered
    obtain ⟨hnot, -⟩ := served_of_others hothers hserved
    refine logged_served h hserved ?_ h.granted
    have hincomplete : is_completed_write (call_record b (state.calls.length + 1) outcome) = false := by
      refine Bool.eq_false_iff.mpr fun hcompleted => hnot ?_
      obtain ⟨hoperation, hfailures⟩ :=
        (recordFields_of_served hserved).is_completed_write_iff.mp hcompleted
      rcases perform_ok hserved.checked hserved.performed with ⟨hne, -⟩ | ⟨-, htoken, -⟩
      · exact absurd hfailures hne
      · exact ⟨htoken, hoperation, hfailures⟩
    rw [List.filter_append, List.filter_singleton, hincomplete, cond_false, List.append_nil]
    exact h.writes
  · obtain ⟨-, hcalls, -⟩ := raised_of_not_answered hanswered
    rw [hcalls]
    refine ⟨h.completed, h.writes, h.granted, h.audited, ?_⟩
    rw [h.schema, known_append]
    exact ⟨fun hknown => ⟨hknown, known_of_not_answered hanswered⟩, And.left⟩

theorem logged_write (hintact : PackageIntact b site) (h : Logged b site events ws state.calls)
    (hw : Writes b site line state w) :
    Logged b site (events ++ [.request line]) (ws ++ [w]) (exchange b site line state).after.calls := by
  obtain ⟨request, evidence, failures, outcome, middle, hserved⟩ :=
    served_of_answered (answered_of_writes hintact hw)
  have hfields := @recordFields_of_served _ _ _ _ _ _ _ _ _ hserved (state.calls.length + 1)
  obtain ⟨-, hoperation, -, hfailures, hpath, hsha256, -⟩ := served_of_writes hintact hw hserved
  have hcompleted := hfields.is_completed_write_iff.mpr ⟨hoperation, hfailures⟩
  refine logged_served h hserved ?_ ?_
  · rw [List.filter_append, List.filter_singleton, hcompleted, cond_true]
    have hevidence {key : String} (hkey : key ∉ record_keys) (hne : "execution_status" ≠ key) :
        Dict.get (call_record b (state.calls.length + 1) outcome) key =
          Dict.get outcome.evidence key := by
      rw [get_call_record hserved.plain]
      simp only [record_keys, List.mem_cons, List.not_mem_nil, or_false, not_or] at hkey
      obtain ⟨hformat, hsequence, happ, hhash, hfailures⟩ := hkey
      rw [if_neg hformat, if_neg hsequence, if_neg happ, if_neg hhash, if_neg hfailures,
        final_evidence, Dict.get_set_of_ne hne]
    refine List.rel_append h.writes (.cons ⟨?_, ?_, ?_⟩ .nil)
    · rw [hevidence (by decide) (by decide), hpath]
    · rw [get_call_record hserved.plain, if_neg (by decide), if_pos rfl, hw.sequence]
    · rw [hevidence (by decide) (by decide), hsha256]
  · rw [List.forall_mem_append, List.forall_mem_singleton]
    exact ⟨h.granted, hw.granted⟩

theorem logged_of_run (hintact : PackageIntact b site) (h : MixedRun b site runtime events ws state) :
    Logged b site events ws state.calls := by
  induction h with
  | start =>
    exact ⟨nofun, .nil, nofun, fun i hi => absurd hi (Nat.not_lt_zero i), by simp⟩
  | write run hw ih => exact logged_write hintact ih hw
  | other run hothers ih => exact logged_other ih hothers
  | direct run tree proper ih =>
    exact ⟨ih.completed, ih.writes, ih.granted, ih.audited, ih.schema.trans known_append_direct.symm⟩

end Run

/-! ## Files and snapshots -/

/-- The directory has no symbolic link. -/
structure NoLinks (links : Links) : Prop where
  plain : ∀ p, links.is_symlink p = false
  inside : ∀ p, ['.', '.'] ∉ p → links.resolve p = .ok (some p)

/-- The initial files with the writes applied in order. -/
def applied (runtime : Tree Bytes) (ws : List Write) : Tree Bytes :=
  ws.foldl (fun t w => t.put w.target w.data) runtime

section Snapshots

variable {b : Broker} {site : Site} {runtime t t' : Tree Bytes} {events : List ProcessEvent}
  {ws : List Write} {state : BrokerState} {w : Write} {p : Path} {text : String}

theorem applied_append : applied runtime (ws ++ [w]) = (applied runtime ws).put w.target w.data := by
  rw [applied, List.foldl_append]
  rfl

theorem file_applied :
    (applied runtime ws).file p = ((last_write ws p).map Write.data).or (runtime.file p) := by
  induction ws using List.reverseRecOn with
  | nil => rfl
  | append_singleton ws w ih =>
    rw [applied_append, Tree.file_put, last_write_append, ih]
    by_cases h : p = w.target
    · rw [if_pos h, if_pos h.symm]
      rfl
    · rw [if_neg h, if_neg (Ne.symm h)]

theorem lookup_map_posix {files : List (Path × Bytes)} (h : ∀ f ∈ files, Proper f.1) (hp : Proper p) :
    (files.map fun file => (as_posix file.1, hexdigest file.2)).lookup (as_posix p) =
      (files.lookup p).map hexdigest := by
  induction files with
  | nil => rfl
  | cons f files ih =>
    obtain ⟨hf, hfiles⟩ := List.forall_mem_cons.mp h
    rw [List.map_cons, List.lookup_cons, List.lookup_cons]
    by_cases heq : p = f.1
    · rw [heq, beq_self_eq_true, beq_self_eq_true]
      rfl
    · have hposix : as_posix p ≠ as_posix f.1 := fun hposix => heq <| by
        rw [← path_parts_as_posix hp.1 hp.2, hposix, path_parts_as_posix hf.1 hf.2]
      rw [beq_false_of_ne heq, beq_false_of_ne hposix]
      exact ih hfiles

/-- The snapshot has the hash of each file under the text of its path. -/
theorem lookup_snapshot (h : ProperTree t) (hp : Proper p) :
    (snapshot t).lookup (as_posix p) = (t.file p).map hexdigest :=
  lookup_map_posix (fun f hf => h f.1 (List.mem_map_of_mem hf)) hp

/-- The snapshot has no other text. -/
theorem exists_of_lookup_snapshot (h : ProperTree t) {hash : String}
    (hlookup : (snapshot t).lookup text = some hash) : ∃ p, Proper p ∧ as_posix p = text := by
  obtain ⟨l, l', hsplit, -⟩ := List.lookup_eq_some_iff.mp hlookup
  have hmem : (text, hash) ∈ snapshot t := by simp [hsplit]
  obtain ⟨f, hf, heq⟩ := List.mem_map.mp hmem
  exact ⟨f.1, h f.1 (List.mem_map_of_mem hf), congrArg Prod.fst heq⟩

theorem mem_snapshot_changes {before after : List (String × String)} :
    text ∈ snapshot_changes before after ↔ before.lookup text ≠ after.lookup text := by
  rw [snapshot_changes, mem_sorted_set, List.mem_filter, decide_eq_true_iff, and_iff_right_iff_imp]
  intro hne
  by_contra hmem
  have hnone {l : List (String × String)} (hl : ∀ f ∈ l, f ∈ before ++ after) :
      l.lookup text = none := by
    refine List.lookup_eq_none_iff.mpr fun f hf => ?_
    have hne : text ≠ f.1 := fun heq => hmem (heq ▸ List.mem_map_of_mem (hl f hf))
    simpa using hne
  rw [hnone fun f => List.mem_append_left _, hnone fun f => List.mem_append_right _] at hne
  exact hne rfl

/-! ## The files of a run -/

/-- The paths of the writes and of the files are proper. -/
structure Placed (site : Site) (ws : List Write) (state : BrokerState) : Prop where
  targets : ∀ w ∈ ws, w.target = path_parts w.text ∧ Proper w.target
  files : ProperTree state.runtime

theorem target_of_writes (hlinks : NoLinks site.runtime_links) {line : Content}
    (hw : Writes b site line state w) : w.target = path_parts w.text ∧ Proper w.target := by
  have hsafe := hw.granted.safe
  rw [is_safe_relpath, is_contained, Bool.and_eq_true, Bool.and_eq_true, decide_eq_true_iff] at hsafe
  have hinside := hlinks.inside (path_parts w.text) (of_decide_eq_true hsafe.2.2)
  have htarget : w.target = path_parts w.text :=
    (Option.some.inj (Except.ok.inj (hinside.symm.trans hw.granted.contained))).symm
  obtain ⟨init, name, hname, -⟩ := hw.writable.name
  refine ⟨htarget, by simp [hname], fun part hpart => ?_⟩
  rw [htarget] at hpart
  exact plainPart_of_mem hpart

theorem properTree_of_files (h : ProperTree t) (hfiles : t'.files = t.files) : ProperTree t' := by
  unfold ProperTree Tree.paths at *
  rwa [hfiles]

theorem files_of_others {line : Content} (hothers : ∀ w, ¬Writes b site line state w) :
    (serve b site line state).2.runtime.files = state.runtime.files := by
  by_cases hanswered : Answered b (exchange b site line state)
  · obtain ⟨request, evidence, failures, outcome, middle, hserved⟩ := served_of_answered hanswered
    have hruntime := hserved.runtime
    rw [(served_of_others hothers hserved).2] at hruntime
    exact congrArg Tree.files hruntime
  · exact (raised_of_not_answered hanswered).2.2

theorem files_of_writes (hintact : PackageIntact b site) {line : Content}
    (hw : Writes b site line state w) :
    (serve b site line state).2.runtime.files = (state.runtime.put w.target w.data).files := by
  obtain ⟨request, evidence, failures, outcome, middle, hserved⟩ :=
    served_of_answered (answered_of_writes hintact hw)
  have hruntime := hserved.runtime
  obtain ⟨-, -, -, -, -, -, hfiles⟩ := served_of_writes hintact hw hserved
  rw [← hfiles]
  exact congrArg Tree.files hruntime

theorem placed_of_run (hintact : PackageIntact b site) (hlinks : NoLinks site.runtime_links)
    (hruntime : ProperTree runtime) (h : MixedRun b site runtime events ws state) :
    Placed site ws state := by
  induction h with
  | start => exact ⟨nofun, hruntime⟩
  | direct run tree proper ih => exact ⟨ih.targets, proper⟩
  | other run hothers ih => exact ⟨ih.targets, properTree_of_files ih.files (files_of_others hothers)⟩
  | write run hw ih =>
    have htarget := target_of_writes hlinks hw
    refine ⟨?_, properTree_of_files (fun p hp => ?_) (files_of_writes hintact hw)⟩
    · rw [List.forall_mem_append, List.forall_mem_singleton]
      exact ⟨ih.targets, htarget⟩
    · rcases Tree.mem_paths_put.mp hp with hp | rfl
      · exact ih.files p hp
      · exact htarget.2

/-- No event changes the files directly. -/
def Undisturbed (events : List ProcessEvent) : Prop := ∀ tree proper, .direct tree proper ∉ events

theorem undisturbed_append {event : ProcessEvent} (h : Undisturbed (events ++ [event])) :
    Undisturbed events :=
  fun tree proper hmem => h tree proper (List.mem_append_left _ hmem)

/-- Without direct changes the files are the initial ones with the writes applied. -/
theorem file_of_run (hintact : PackageIntact b site) (h : MixedRun b site runtime events ws state)
    (hundisturbed : Undisturbed events) (p : Path) :
    state.runtime.file p = (applied runtime ws).file p := by
  have hfile {t t' : Tree Bytes} (hfiles : t'.files = t.files) : t'.file p = t.file p := by
    unfold Tree.file
    rw [hfiles]
  induction h with
  | start => rfl
  | direct run tree proper =>
    exact absurd (by simp) (hundisturbed tree proper)
  | other run hothers ih =>
    rw [hfile (files_of_others hothers)]
    exact ih (undisturbed_append hundisturbed)
  | write run hw ih =>
    rw [hfile (files_of_writes hintact hw), applied_append, Tree.file_put, Tree.file_put,
      ih (undisturbed_append hundisturbed)]

end Snapshots

/-! ## The verdict -/

/-- Each change of a snapshot is at the text of a completed write. -/
def NamedChanges (before after : Tree Bytes) (ws : List Write) : Prop :=
  ∀ text, (snapshot before).lookup text ≠ (snapshot after).lookup text → ∃ w ∈ ws, w.text = text

/-- The file of the last write of each text has the hash of its data. -/
def Checked (after : Tree Bytes) (ws : List Write) : Prop :=
  ∀ text w, last_text ws text = some w →
    (after.file w.target).map hexdigest = some (hexdigest w.data)

/-- The run has a receipt with this status. -/
def Reports (report : Except PyError ProcessReceipt) (status : String) : Prop :=
  ∃ receipt, report = .ok receipt ∧ status_json receipt.failures = .str status

section Verdict

variable {b : Broker} {site : Site} {runtime after : Tree Bytes} {events : List ProcessEvent}
  {ws : List Write} {calls : List Dict} {state : BrokerState} {w : Write} {text : String}
  {policy : Json} {result : ProcessResult}

theorem last_text_eq_none_iff : last_text ws text = none ↔ ∀ w ∈ ws, w.text ≠ text := by
  rw [last_text, List.find?_eq_none]
  simp

/-- The check of a write finds a file with another hash. -/
theorem check_write_eq (hlinks : NoLinks site.runtime_links) {call : Dict} (hcall : WriteCall call w)
    (hgranted : Granted b site w.text w.target) :
    ∃ failures, check_write site after (.str w.text) call = .ok failures ∧
      (failures = [] ↔ (after.file w.target).map hexdigest = some (hexdigest w.data)) := by
  rw [check_write, runtime_hash, hlinks.plain, if_neg (by decide), hgranted.contained, ok_bind]
  dsimp only
  rw [ok_bind]
  dsimp only
  rw [Dict.item_eq_ok.mpr hcall.sha256, ok_bind]
  refine ⟨_, rfl, ?_⟩
  cases (after.file w.target).map hexdigest with
  | none => simp
  | some hash => simp

/-- The checks of the completed writes. -/
theorem checks_eq (hlinks : NoLinks site.runtime_links)
    (hgranted : ∀ w ∈ ws, Granted b site w.text w.target) {entries : List (Json × Dict)}
    (h : List.Forall₂ (fun entry w => entry.1 = .str w.text ∧ WriteCall entry.2 w) entries ws) :
    ∃ checks, (entries.map (·.1)).dedup.mapM (fun path =>
        check_write site after path ((final_write entries path).getD [])) = .ok checks ∧
      (checks.flatten = [] ↔ Checked after ws) := by
  obtain ⟨checks, hchecks, hrel⟩ : ∃ checks, (entries.map (·.1)).dedup.mapM (fun path =>
        check_write site after path ((final_write entries path).getD [])) = .ok checks ∧
      List.Forall₂ (fun path failures => ∃ w, path = .str w.text ∧ last_text ws w.text = some w ∧
        (failures = [] ↔ (after.file w.target).map hexdigest = some (hexdigest w.data)))
        (entries.map (·.1)).dedup checks := by
    refine exists_mapM_forall₂ fun path hpath => ?_
    obtain ⟨entry, hentry, rfl⟩ := List.mem_map.mp (List.mem_dedup.mp hpath)
    obtain ⟨w, hw, htext, -⟩ := exists_of_forall₂ h hentry
    rw [htext]
    rcases final_write_eq h w.text with ⟨-, hnone⟩ | ⟨call, last, hcall, hlast, hwrite⟩
    · exact absurd rfl (last_text_eq_none_iff.mp hnone w hw)
    · have hsame := text_of_last_text hlast
      rw [hcall, ← hsame]
      obtain ⟨failures, hfailures, hiff⟩ : ∃ failures,
          check_write site after (.str last.text) call = .ok failures ∧
            (failures = [] ↔ (after.file last.target).map hexdigest = some (hexdigest last.data)) :=
        check_write_eq hlinks hwrite (hgranted last (mem_of_last_text hlast))
      refine ⟨failures, hfailures, last, rfl, ?_, hiff⟩
      rw [hsame, hlast]
  refine ⟨checks, hchecks, ?_⟩
  rw [List.flatten_eq_nil_iff]
  constructor
  · intro hnil text w hlast
    have hw := mem_of_last_text hlast
    obtain ⟨entry, hentry, htext, -⟩ := exists_of_forall₂ h.flip hw
    have hmem : Json.str w.text ∈ (entries.map (·.1)).dedup := by
      rw [List.mem_dedup, ← htext]
      exact List.mem_map_of_mem hentry
    obtain ⟨failures, hfailures, w', heq, hlast', hiff⟩ := exists_of_forall₂ hrel hmem
    rw [← Json.str.inj heq, text_of_last_text hlast, hlast] at hlast'
    obtain rfl := Option.some.inj hlast'
    exact hiff.mp (hnil failures hfailures)
  · intro hchecked failures hfailures
    obtain ⟨path, -, w, -, hlast, hiff⟩ := exists_of_forall₂ hrel.flip hfailures
    exact hiff.mpr (hchecked _ _ hlast)

/-- What a run that exits with 0 finds. -/
theorem run_failures_eq (hintact : PackageIntact b site) (hlinks : NoLinks site.runtime_links)
    (h : Logged b site events ws state.calls) (hexit : result.returncode = 0) :
    ∃ failures, run_failures b site runtime state (.ok result) = .ok failures ∧
      (failures = [] ↔ NamedChanges runtime state.runtime ws ∧ Checked state.runtime ws) := by
  obtain ⟨v, hv, hcompleted⟩ := hintact
  obtain ⟨entries, hentries, hrel⟩ := @final_writes_eq ws _ _ .ok WriteCall h.completed
    (fun call w hcall => ⟨call, rfl, hcall⟩) h.writes
  obtain ⟨checks, hchecks, hchecked⟩ : ∃ checks, (entries.map (·.1)).dedup.mapM (fun path =>
        check_write site state.runtime path ((final_write entries path).getD [])) = .ok checks ∧
      (checks.flatten = [] ↔ Checked state.runtime ws) := checks_eq hlinks h.granted hrel
  have hisNone (text : String) :
      (final_write entries (.str text)).isNone = true ↔ ¬∃ w ∈ ws, w.text = text := by
    push Not
    rcases final_write_eq hrel text with ⟨hfinal, hlast⟩ | ⟨call, w, hfinal, hlast, -⟩
    · exact iff_of_true (by rw [hfinal]; rfl) (last_text_eq_none_iff.mp hlast)
    · refine iff_of_false (by simp [hfinal]) fun hall => ?_
      exact hall w (mem_of_last_text hlast) (text_of_last_text hlast)
  unfold run_failures
  rw [hv, ok_bind, hentries, ok_bind]
  dsimp only
  rw [hchecks, ok_bind, if_neg (not_not.mpr hexit)]
  refine ⟨_, rfl, ?_⟩
  rw [List.append_eq_nil_iff, List.append_eq_nil_iff, List.append_eq_nil_iff, hchecked,
    completed_iff_failures.mp hcompleted, List.map_eq_nil_iff, List.filter_eq_nil_iff]
  refine and_congr_left' ?_
  simp only [true_and, mem_snapshot_changes, hisNone, not_not]
  exact Iff.rfl

/-- A receipt is written exactly when its calls follow their schema. -/
theorem finalize_eq {v : Verification} {process : Option ProcessResult} {failures : List StoreFailure}
    (h : Audited calls) :
    finalize b v policy calls process failures =
      if calls.all syscall_schema = true then
        .ok (process_receipt b v policy calls process failures (evidence_hashes calls))
      else .error .KernelError := by
  have hreceipt : receipt_schema (process_receipt b v policy calls process failures
      (evidence_hashes calls)) = calls.all syscall_schema := by
    have hhex : hex_pattern 64 (stable_hash (.obj (proof_material b v policy process
        (evidence_hashes calls)))) = true := hex_pattern_hexdigest _
    unfold receipt_schema process_receipt
    dsimp only
    rw [hhex, decide_eq_true b.app_info.named]
    cases process <;> simp [returncode_of]
  unfold finalize
  rw [mapM_evidence_hashes h, ok_bind]
  dsimp only
  rw [hreceipt]
  cases calls.all syscall_schema <;> rfl

theorem status_eq_completed_iff {failures : List StoreFailure} :
    status_json failures = .str "completed" ↔ failures = [] := by
  rw [status_json]
  split_ifs with h <;> simp [h]

theorem status_eq_blocked_iff {failures : List StoreFailure} :
    status_json failures = .str "blocked" ↔ failures ≠ [] := by
  rw [status_json]
  split_ifs with h <;> simp [h]

/-- What a run reports. -/
theorem reports_iff (hintact : PackageIntact b site) (hlinks : NoLinks site.runtime_links)
    (h : Logged b site events ws state.calls) (hexit : result.returncode = 0) {status : String} :
    Reports (run_brokered b site policy runtime state (.ok result)) status ↔
      (∀ line, .request line ∈ events → Known b line) ∧ ∃ failures,
        (failures = [] ↔ NamedChanges runtime state.runtime ws ∧ Checked state.runtime ws) ∧
        status_json failures = .str status := by
  obtain ⟨failures, hfailures, hiff⟩ : ∃ failures,
      run_failures b site runtime state (.ok result) = .ok failures ∧
        (failures = [] ↔ NamedChanges runtime state.runtime ws ∧ Checked state.runtime ws) :=
    run_failures_eq hintact hlinks h hexit
  obtain ⟨v, hv, hcompleted⟩ := hintact
  have hstatus (failures' : List StoreFailure)
      (hiff' : failures' = [] ↔ NamedChanges runtime state.runtime ws ∧ Checked state.runtime ws) :
      status_json failures' = status_json failures := by
    rw [status_json, status_json, if_congr (hiff'.trans hiff.symm) rfl rfl]
  unfold Reports run_brokered
  rw [hv, ok_bind, hcompleted, if_neg (by decide), hfailures, ok_bind, finalize_eq h.audited,
    ← h.schema]
  constructor
  · rintro ⟨receipt, hreceipt, hreported⟩
    split_ifs at hreceipt with hschema
    obtain rfl := Except.ok.inj hreceipt
    exact ⟨hschema, failures, hiff, hreported⟩
  · rintro ⟨hschema, failures', hiff', hreported⟩
    rw [hstatus failures' hiff'] at hreported
    exact ⟨_, if_pos hschema, hreported⟩

theorem reports_completed_iff (hintact : PackageIntact b site) (hlinks : NoLinks site.runtime_links)
    (h : Logged b site events ws state.calls) (hexit : result.returncode = 0) :
    Reports (run_brokered b site policy runtime state (.ok result)) "completed" ↔
      (∀ line, .request line ∈ events → Known b line) ∧
        NamedChanges runtime state.runtime ws ∧ Checked state.runtime ws := by
  rw [reports_iff hintact hlinks h hexit]
  refine and_congr_right' ⟨?_, fun hboth => ⟨[], iff_of_true rfl hboth, rfl⟩⟩
  rintro ⟨failures, hiff, hstatus⟩
  exact hiff.mp (status_eq_completed_iff.mp hstatus)

theorem reports_blocked_iff (hintact : PackageIntact b site) (hlinks : NoLinks site.runtime_links)
    (h : Logged b site events ws state.calls) (hexit : result.returncode = 0) :
    Reports (run_brokered b site policy runtime state (.ok result)) "blocked" ↔
      (∀ line, .request line ∈ events → Known b line) ∧
        ¬(NamedChanges runtime state.runtime ws ∧ Checked state.runtime ws) := by
  rw [reports_iff hintact hlinks h hexit]
  refine and_congr_right' ⟨?_, fun hnot => ⟨[("", "")], iff_of_false (by simp) hnot, rfl⟩⟩
  rintro ⟨failures, hiff, hstatus⟩
  exact fun hboth => status_eq_blocked_iff.mp hstatus (hiff.mpr hboth)

/-- The final files are not the initial ones with the completed writes applied. -/
def Differs (runtime after : Tree Bytes) (ws : List Write) : Prop :=
  ∃ p, after.file p ≠ (applied runtime ws).file p

/-- A run without direct changes completes, and one with other files is blocked. -/
structure ExactVerdict (b : Broker) (site : Site) (policy : Json) (runtime : Tree Bytes)
    (events : List ProcessEvent) (ws : List Write) (state : BrokerState) (result : ProcessResult) :
    Prop where
  completes : Undisturbed events →
    Reports (run_brokered b site policy runtime state (.ok result)) "completed"
  blocks : Differs runtime state.runtime ws →
    Reports (run_brokered b site policy runtime state (.ok result)) "blocked"

/-- The last write of each text wrote data with the hash of the last write to its file. -/
def Agreeing (ws : List Write) : Prop :=
  ∀ text w last, last_text ws text = some w → last_write ws w.target = some last →
    hexdigest last.data = hexdigest w.data

/-- Each file whose hash the writes change was written under the text of its path. -/
def Spelled (runtime : Tree Bytes) (ws : List Write) : Prop :=
  ∀ p, Proper p → (runtime.file p).map hexdigest ≠ ((applied runtime ws).file p).map hexdigest →
    ∃ w ∈ ws, w.text = as_posix p

/-- The requests that the verdict is right about. -/
structure Telling (b : Broker) (runtime : Tree Bytes) (events : List ProcessEvent) (ws : List Write)
    (state : BrokerState) : Prop where
  known : Undisturbed events ∨ Differs runtime state.runtime ws →
    ∀ line, .request line ∈ events → Known b line
  spelled : Undisturbed events → Spelled runtime ws
  agreeing : Undisturbed events → Agreeing ws

/-- SHA-256 has no collision between the files at a path. -/
def Distinguished (t t' : Tree Bytes) : Prop :=
  ∀ p data data', t.file p = some data → t'.file p = some data' → hexdigest data = hexdigest data' →
    data = data'

theorem last_text_append : last_text (ws ++ [w]) text =
    if w.text = text then some w else last_text ws text := by
  unfold last_text
  rw [List.reverse_append, List.reverse_singleton, List.singleton_append, List.find?_cons]
  split_ifs with h
  · rw [decide_eq_true h]
  · rw [decide_eq_false h]

/-- The last write to a file is the last one of its text. -/
theorem last_text_of_last_write {p : Path} (htargets : ∀ w ∈ ws, w.target = path_parts w.text)
    (h : last_write ws p = some w) : last_text ws w.text = some w := by
  induction ws using List.reverseRecOn with
  | nil => cases h
  | append_singleton ws last ih =>
    rw [List.forall_mem_append, List.forall_mem_singleton] at htargets
    rw [last_write_append] at h
    rw [last_text_append]
    split_ifs at h with htarget
    · obtain rfl := Option.some.inj h
      exact if_pos rfl
    · have hlast := ih htargets.1 h
      have hwrite : w.target = p := by simpa using List.find?_some h
      rw [if_neg, hlast]
      intro htext
      refine htarget ?_
      rw [← hwrite, htargets.2, htext, htargets.1 w (mem_of_last_text hlast)]

theorem named_changes_iff_spelled (hruntime : ProperTree runtime) (hafter : ProperTree after)
    (hfile : ∀ p, after.file p = (applied runtime ws).file p) :
    NamedChanges runtime after ws ↔ Spelled runtime ws := by
  constructor
  · intro hnamed p hp hne
    refine hnamed (as_posix p) ?_
    rwa [lookup_snapshot hruntime hp, lookup_snapshot hafter hp, hfile]
  · intro hspelled text hne
    obtain ⟨p, hp, rfl⟩ : ∃ p, Proper p ∧ as_posix p = text := by
      cases hbefore : (snapshot runtime).lookup text with
      | some hash => exact exists_of_lookup_snapshot hruntime hbefore
      | none =>
        rw [hbefore] at hne
        obtain ⟨hash, hhash⟩ := Option.ne_none_iff_exists'.mp hne.symm
        exact exists_of_lookup_snapshot hafter hhash
    rw [lookup_snapshot hruntime hp, lookup_snapshot hafter hp, hfile] at hne
    exact hspelled p hp hne

theorem checked_iff_agreeing (hfile : ∀ p, after.file p = (applied runtime ws).file p) :
    Checked after ws ↔ Agreeing ws := by
  have hlast {w last : Write} (h : last_write ws w.target = some last) :
      (after.file w.target).map hexdigest = some (hexdigest last.data) := by
    rw [hfile, file_applied, h]
    rfl
  constructor
  · intro hchecked text w last htext hwrite
    exact Option.some.inj ((hlast hwrite).symm.trans (hchecked text w htext))
  · intro hagreeing text w htext
    obtain ⟨last, hwrite⟩ := exists_last_write (mem_of_last_text htext)
    rw [hlast hwrite, hagreeing text w last htext hwrite]

/-- Other files are found by their snapshots or by the check of a write. -/
theorem not_named_and_checked (hruntime : ProperTree runtime) (hplaced : Placed site ws state)
    (hdistinct : Distinguished state.runtime (applied runtime ws))
    (hdiffers : Differs runtime state.runtime ws) :
    ¬(NamedChanges runtime state.runtime ws ∧ Checked state.runtime ws) := by
  rintro ⟨hnamed, hchecked⟩
  obtain ⟨p, hp⟩ := hdiffers
  have hsame (h : (state.runtime.file p).map hexdigest = ((applied runtime ws).file p).map hexdigest) :
      False := by
    refine hp ?_
    cases hfinal : state.runtime.file p with
    | none =>
      rw [hfinal, Option.map_none, eq_comm, Option.map_eq_none_iff] at h
      rw [h]
    | some data =>
      rw [hfinal, Option.map_some, eq_comm, Option.map_eq_some_iff] at h
      obtain ⟨data', hexpected, hhash⟩ := h
      rw [hexpected, hdistinct p data data' hfinal hexpected hhash.symm]
  rw [file_applied] at hsame
  cases hlast : last_write ws p with
  | some w =>
    have htarget : w.target = p := by simpa using List.find?_some hlast
    have hhash := hchecked w.text w (last_text_of_last_write (fun w hw => (hplaced.targets w hw).1) hlast)
    rw [htarget] at hhash
    rw [hlast] at hsame
    exact hsame hhash
  | none =>
    rw [hlast] at hsame
    have hproper : Proper p := by
      by_contra hnot
      have hnone {t : Tree Bytes} (ht : ProperTree t) : t.file p = none := by
        rw [← Option.not_isSome_iff_eq_none, Tree.isSome_file]
        exact fun hmem => hnot (ht p hmem)
      rw [hnone hruntime, hnone hplaced.files] at hsame
      exact hsame rfl
    obtain ⟨w, hw, htext⟩ := hnamed (as_posix p) fun heq => by
      rw [lookup_snapshot hruntime hproper, lookup_snapshot hplaced.files hproper] at heq
      exact hsame heq.symm
    have htarget : w.target = p := by
      rw [(hplaced.targets w hw).1, htext, path_parts_as_posix hproper.1 hproper.2]
    obtain ⟨last, hwrite⟩ := exists_last_write hw
    rw [htarget, hlast] at hwrite
    cases hwrite

end Verdict

/-! ## A path with two spellings -/

/-- An app that may write a file under two texts. -/
def spelled_broker : Broker :=
  ⟨plain_host, plain_keys, ⟨"app", "a-1", "a-1", ⟨[], ["output", "./output"], [], []⟩, [],
    plain_app.named, by decide, by decide⟩, "token"⟩

def write_request (text : String) : Dict := Dict.of [("token", .str "token"),
  ("operation", .str "write"), ("path", .str text), ("data_hex", .str "00")]

theorem requested_write_request {text : String} :
    valid_token spelled_broker (write_request text) = true ∧
      requested (write_request text) "operation" = .str "write" ∧
      requested (write_request text) "path" = .str text := by
  simp [valid_token, requested, write_request, spelled_broker, Dict.of, Dict.get_set]

theorem exists_spelled : ∃ site, PackageIntact spelled_broker site ∧ site.runtime_links = plain_links := by
  obtain ⟨store, hcomplete⟩ := complete_first
  exact ⟨⟨store, plain_links, plain_links⟩, hcomplete, rfl⟩

theorem properTree_empty : ProperTree .empty := fun _ h => absurd h List.not_mem_nil

theorem noLinks_plain : NoLinks plain_links := ⟨fun _ => rfl, fun _ _ => rfl⟩

/-- The broker performs the write under both texts. -/
theorem writes_spelled {site : Site} (hlinks : site.runtime_links = plain_links) {text : String}
    (htext : text = "output" ∨ text = "./output") :
    Writes spelled_broker site (.value (.obj (write_request text))) ⟨[], .empty⟩
      ⟨1, text, ["output".toList], [0]⟩ := by
  have hparts : path_parts text = ["output".toList] := by
    rcases htext with rfl | rfl <;> decide
  have hdata : data_text (write_request text) = .str "00" := by
    simp [data_text, write_request, Dict.of]
  refine ⟨⟨write_request text, "00", rfl, requested_write_request.1, requested_write_request.2.1,
    requested_write_request.2.2, hdata, rfl⟩, ⟨?_, ?_, ?_⟩, ?_, rfl⟩
  · rcases htext with rfl | rfl <;> decide
  · rcases htext with rfl | rfl <;> decide
  · rw [hlinks]
    exact congrArg (fun path => Except.ok (some path)) hparts
  · exact ⟨fun _ _ _ => List.not_mem_nil, fun _ _ _ => .inr rfl, ⟨[], _, rfl, rfl⟩,
      List.not_mem_nil⟩

theorem known_write_request {text : String} {line : Content}
    (h : ProcessEvent.request line ∈ [.request (.value (.obj (write_request text)))]) :
    Known spelled_broker line := by
  intro request hline
  obtain rfl := ProcessEvent.request.inj (List.mem_singleton.mp h)
  obtain rfl := Json.obj.inj (Content.value.inj hline)
  rw [requested_write_request.2.1]
  exact .inl rfl

end Bogbin.Bogvm
