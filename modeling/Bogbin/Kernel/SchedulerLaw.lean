import Bogbin.Kernel.EffectProof
import Bogbin.Library.ArrayQueue

/-!
# The scheduler over whole runs

In every run from the boot a ready process is queued once, at most one process is in user mode, and the
processes are selected in the order in which they were queued.
-/

namespace Bogbin.Kernel

open Buffer ArrayQueue Bogbin.Core Bogbin.Core.ProcessTable

namespace Machine

variable {m m' : Machine} {pid : ℕ} {L : Layout} {event : Event} {events more : List Event}
  {overflow_checks : Bool}

/-- One process has another state; the queue and the phase follow. -/
theorem Consistent.update (h : m.Consistent) {queue : List ProcessId} {phase : Phase}
    {state : ProcessState} (hnumbered : m'.process_table.Numbered)
    (hstates : ∀ q, m'.process_table.state_of q =
      if q = pid then some state else m.process_table.state_of q)
    (after : After m m' queue phase) (hnodup : queue.Nodup)
    (hqueue : ∀ q, q ∈ queue ↔ if q = pid then state = .Ready else q ∈ m.scheduler.run_queue)
    (hphase : ∀ q, phase.pid = some q ↔ if q = pid then state = .Running else m.phase.pid = some q) :
    m'.Consistent where
  numbered := hnumbered
  nodup := after.queue ▸ hnodup
  queue q := by
    rw [after.queue, hqueue, hstates]
    split_ifs
    · exact Option.some_inj.symm
    · exact h.queue q
  running q := by
    rw [after.phase, hphase, hstates]
    split_ifs
    · exact Option.some_inj
    · exact h.running q
  aligned := after.aligned
  staged := after.staged h.staged

theorem Consistent.stays (h : m.Consistent) (stays : Stays m.process_table m'.process_table)
    (after : After m m' m.scheduler.run_queue m.phase) : m'.Consistent where
  numbered := stays.numbered h.numbered
  nodup := after.queue ▸ h.nodup
  queue q := by rw [after.queue, stays.states, h.queue]
  running q := by rw [after.phase, stays.states, h.running]
  aligned := after.aligned
  staged := after.staged h.staged

theorem Consistent.not_queued (h : m.Consistent) (hpid : m.phase.pid = some pid) :
    pid ∉ m.scheduler.run_queue := by
  rw [h.queue, (h.running pid).mpr hpid]
  exact fun heq => ProcessState.noConfusion (Option.some.inj heq)

theorem consistent_of_effect (h : m.Consistent) (effect : Effect L m event m') : m'.Consistent := by
  cases effect with
  | queued idle adds state loaded after =>
    obtain ⟨-, hnot⟩ := h.room adds
    refine h.update adds.numbered (adds.map (·.state)) after ?_ (fun q => ?_) fun q => ?_
    · exact List.nodup_append.mpr ⟨h.nodup, List.nodup_singleton _, fun a ha b hb hab =>
        hnot (List.mem_singleton.mp hb ▸ hab ▸ ha)⟩
    · rw [List.mem_append, List.mem_singleton, state]
      split_ifs with hq
      · simp [hq]
      · simp [hq]
    · rw [idle, state]
      simp [Phase.pid]
  | refused idle adds state memory after event_eq =>
    obtain ⟨-, hnot⟩ := h.room adds
    refine h.update adds.numbered (adds.map (·.state)) after h.nodup (fun q => ?_) fun q => ?_
    · rw [state]
      split_ifs with hq
      · simp [hq, hnot]
      · rfl
    · rw [idle, state]
      simp [Phase.pid]
  | entered idle adds state memory after =>
    obtain ⟨-, hnot⟩ := h.room adds
    refine h.update adds.numbered (adds.map (·.state)) after h.nodup (fun q => ?_) fun q => ?_
    · rw [state]
      split_ifs with hq
      · simp [hq, hnot]
      · rfl
    · rw [idle, state]
      simp [Phase.pid, eq_comm]
  | declined idle stays after memory event_eq => exact h.stays stays (idle ▸ after)
  | @selected _ pid rest _ _ idle queue moves found saved cr3_ne cr3 after memory =>
    have hnodup := h.nodup
    rw [queue] at hnodup
    obtain ⟨hnot, hrest⟩ := List.nodup_cons.mp hnodup
    refine h.update (moves.numbered h.numbered) moves.states after hrest (fun q => ?_) fun q => ?_
    · rw [queue, List.mem_cons]
      split_ifs with hq
      · simp [hq, hnot]
      · simp [hq]
    · rw [idle]
      simp [Phase.pid, eq_comm]
  | @stuck _ pid rest _ idle queue moves found unmapped after memory =>
    have hnodup := h.nodup
    rw [queue] at hnodup
    obtain ⟨hnot, hrest⟩ := List.nodup_cons.mp hnodup
    refine h.update (moves.numbered h.numbered) moves.states after hrest (fun q => ?_) fun q => ?_
    · rw [queue, List.mem_cons]
      split_ifs with hq
      · simp [hq, hnot]
      · simp [hq]
    · rw [idle]
      simp [Phase.pid]
  | empty idle queue stays after memory => exact h.stays stays (idle ▸ queue ▸ after)
  | user stays after paging cr3 writes event_eq => exact h.stays stays after
  | @requeued _ pid context busy moves valid after memory =>
    have hpid : m.phase.pid = some pid := by rw [busy]; rfl
    have hnot := h.not_queued hpid
    refine h.update (moves.numbered h.numbered) moves.states after ?_ (fun q => ?_) fun q => ?_
    · exact List.nodup_append.mpr ⟨h.nodup, List.nodup_singleton _, fun a ha b hb hab =>
        hnot (List.mem_singleton.mp hb ▸ hab ▸ ha)⟩
    · rw [List.mem_append, List.mem_singleton]
      split_ifs with hq
      · simp [hq]
      · simp [hq]
    · rw [hpid]
      split_ifs with hq
      · simp [Phase.pid]
      · simp [Phase.pid, Ne.symm hq]
  | @ended _ pid state busy moves settled after memory =>
    have hnot := h.not_queued busy
    refine h.update (moves.numbered h.numbered) moves.states after h.nodup (fun q => ?_) fun q => ?_
    · split_ifs with hq
      · rcases settled with rfl | rfl
        · simp [hq, hnot]
        · simp [hq, hnot]
      · rfl
    · rw [busy]
      split_ifs with hq
      · rcases settled with rfl | rfl
        · simp [Phase.pid]
        · simp [Phase.pid]
      · simp [Phase.pid, Ne.symm hq]

/-! ## Runs -/

theorem v39_code_hash {content : Bytes} {app : V39App} (h : v39_parse_app content = .ok app) :
    app.code_hash = sha256_standard app.code := by
  unfold v39_parse_app at h
  simp only [bind_eq_ok, reject_if_eq_ok] at h
  obtain ⟨-, -, -, -, -, -, -, -, -, -, -, -, -, -, -, -, -, -, -, -, -, -, -, -, name, -,
    version, -, -, -, -, -, -, -, h⟩ := h
  rw [← Except.ok.inj h]

theorem v39_load_path_cases (m : Machine) (d : Disk) (state : V38State) (path : Bytes) :
    m.v39_load_path d state path = m ∨
      ∃ staging : Staged, staging.code_hash = sha256_standard staging.code.val ∧
        m.v39_load_path d state path =
          { m with v39_staging := staging, v39_execution_pending := true } := by
  unfold v39_load_path
  split
  · exact .inl rfl
  · dsimp only
    split_ifs
    · exact .inl rfl
    · exact .inl rfl
    · split
      · exact .inl rfl
      · rename_i hparse
        exact .inr ⟨_, v39_code_hash hparse, rfl⟩

/-- The machine behind the boot: as without a disk, but for the staged code. -/
theorem boot_cases (entries : Option (List BogFsEntry)) (kernel_cr3 : ℕ) (paging_enabled : Bool)
    (d : Option Disk) :
    boot entries kernel_cr3 paging_enabled d = boot entries kernel_cr3 paging_enabled none ∨
      ∃ staging : Staged, staging.code_hash = sha256_standard staging.code.val ∧
        boot entries kernel_cr3 paging_enabled d =
          { boot entries kernel_cr3 paging_enabled none with
            v39_staging := staging
            v39_execution_pending := true } := by
  cases d with
  | none => exact .inl rfl
  | some d =>
    unfold boot
    dsimp only
    split
    · exact v39_load_path_cases _ d _ V39_APP_PATH
    · exact .inl rfl

theorem consistent_boot (entries : Option (List BogFsEntry)) (kernel_cr3 : ℕ) (paging_enabled : Bool)
    (d : Option Disk) : (boot entries kernel_cr3 paging_enabled d).Consistent := by
  have hnone (pid : ℕ) (state : ProcessState) : ProcessTable.new.state_of pid ≠ some state := by
    intro heq
    cases heq
  have hqueue (pid : ℕ) : pid ∈ ([] : List ℕ) ↔ ProcessTable.new.state_of pid = some .Ready :=
    iff_of_false List.not_mem_nil (hnone pid _)
  have hrunning (pid : ℕ) : ProcessTable.new.state_of pid = some .Running ↔ Phase.shell.pid = some pid :=
    iff_of_false (hnone pid _) fun heq => by cases heq
  rcases boot_cases entries kernel_cr3 paging_enabled d with heq | ⟨staging, hash, heq⟩
  · rw [heq]
    exact ⟨numbered_new, List.nodup_nil, hqueue, hrunning, ⟨rfl, rfl⟩, Bool.noConfusion⟩
  · rw [heq]
    exact ⟨numbered_new, List.nodup_nil, hqueue, hrunning, ⟨rfl, rfl⟩, fun _ => hash⟩

/-- The machine at the start of a run has the processes of the boot: none. -/
theorem consistent_of_runs {start : Machine} (hstart : start.Consistent)
    (run : Runs overflow_checks L start events m) : m.Consistent := by
  induction run with
  | nil => exact hstart
  | step run step ih => exact consistent_of_effect ih (effect_of_step ih step)

theorem runs_concat {start : Machine} (run : Runs overflow_checks L start (events ++ [event]) m) :
    ∃ before, Runs overflow_checks L start events before ∧ Step overflow_checks L before event m := by
  generalize hall : events ++ [event] = all at run
  cases run with
  | nil => simp at hall
  | step run step =>
    obtain ⟨rfl, hevent⟩ := List.append_inj' hall rfl
    obtain rfl := List.head_eq_of_cons_eq hevent
    exact ⟨_, run, step⟩

/-! ## First in, first out -/

/-- The process that an event puts into the run queue. -/
def Event.queued : Event → List ProcessId
  | .command queued => queued.toList
  | .left pid saved => if saved.isSome then [pid] else []
  | .run_app | .scheduled .. | .user | .call .. => []

/-- The process that an event takes from the run queue. -/
def Event.selected : Event → List ProcessId
  | .scheduled selected _ => selected.toList
  | .command _ | .run_app | .user | .call .. | .left .. => []

theorem balanced_of_effect {ins outs : List ProcessId} (effect : Effect L m event m')
    (h : Balanced ins outs m.scheduler.run_queue) :
    Balanced (ins ++ event.queued) (outs ++ event.selected) m'.scheduler.run_queue := by
  have hsame (hqueue : m'.scheduler.run_queue = m.scheduler.run_queue) (hin : event.queued = [])
      (hout : event.selected = []) :
      Balanced (ins ++ event.queued) (outs ++ event.selected) m'.scheduler.run_queue := by
    rw [hqueue, hin, hout, List.append_nil, List.append_nil]
    exact h
  cases effect with
  | queued idle adds state loaded after =>
    rw [after.queue, Event.selected, List.append_nil]
    exact h.enqueue _
  | refused idle adds state memory after event_eq =>
    rcases event_eq with rfl | rfl
    · exact hsame after.queue rfl rfl
    · exact hsame after.queue rfl rfl
  | entered idle adds state memory after => exact hsame after.queue rfl rfl
  | declined idle stays after memory event_eq =>
    rcases event_eq with rfl | rfl
    · exact hsame after.queue rfl rfl
    · exact hsame after.queue rfl rfl
  | selected idle queue moves found saved cr3_ne cr3 after memory =>
    rw [queue] at h
    rw [after.queue, Event.queued, List.append_nil]
    exact h.dequeue
  | stuck idle queue moves found unmapped after memory =>
    rw [queue] at h
    rw [after.queue, Event.queued, List.append_nil]
    exact h.dequeue
  | empty idle queue stays after memory => exact hsame (after.queue.trans queue.symm) rfl rfl
  | user stays after paging cr3 writes event_eq =>
    rcases event_eq with rfl | ⟨number, admitted, rfl⟩
    · exact hsame after.queue rfl rfl
    · exact hsame after.queue rfl rfl
  | requeued busy moves valid after memory =>
    rw [after.queue, Event.selected, List.append_nil]
    exact h.enqueue _
  | ended busy moves settled after memory => exact hsame after.queue rfl rfl

/-- Over a run from a consistent machine, the queue at its start and what was queued since are what was
selected and the queue at its end. -/
theorem balanced_of_runs {start : Machine} (hstart : start.Consistent)
    (run : Runs overflow_checks L start events m) :
    Balanced (start.scheduler.run_queue ++ events.flatMap Event.queued)
      (events.flatMap Event.selected) m.scheduler.run_queue := by
  induction run with
  | nil => exact List.append_nil _
  | @step events event m m' run step ih =>
    have hstep := balanced_of_effect (effect_of_step (consistent_of_runs hstart run) step) ih
    simpa only [List.flatMap_append, List.flatMap_singleton, List.append_assoc] using hstep

/-- Over every run from the boot the processes are selected in the order in which they were queued, and
the process at a place of the queue is selected after exactly those in front of it. -/
theorem selected_in_order {entries : Option (List BogFsEntry)} {kernel_cr3 : ℕ} {paging_enabled : Bool}
    {d : Option Disk}
    (run : Runs overflow_checks L (boot entries kernel_cr3 paging_enabled d) events m) :
    events.flatMap Event.queued = events.flatMap Event.selected ++ m.scheduler.run_queue ∧
      m.scheduler.run_queue.length ≤ MAX_PROCESSES ∧
      ∀ more m', Runs overflow_checks L m more m' → ∀ i < (more.flatMap Event.selected).length,
        ∀ pid, m.scheduler.run_queue[i]? = some pid →
          (more.flatMap Event.selected)[i]? = some pid := by
  have hboot := consistent_boot entries kernel_cr3 paging_enabled d
  have hm := consistent_of_runs hboot run
  have hempty : (boot entries kernel_cr3 paging_enabled d).scheduler.run_queue = [] := by
    rcases boot_cases entries kernel_cr3 paging_enabled d with heq | ⟨staging, -, heq⟩
    · rw [heq]
      rfl
    · rw [heq]
      rfl
  refine ⟨?_, ?_, fun more m' run' i hi pid hpid => ?_⟩
  · have hbalanced := balanced_of_runs hboot run
    rwa [hempty, List.nil_append] at hbalanced
  · cases hqueue : m.scheduler.run_queue with
    | nil => exact Nat.zero_le _
    | cons pid rest =>
      have hnodup := hm.nodup
      rw [hqueue] at hnodup
      obtain ⟨hnot, hrest⟩ := List.nodup_cons.mp hnodup
      have hsome (q : ℕ) (hq : q ∈ pid :: rest) : (m.process_table.get q).isSome := by
        obtain ⟨record, hget, -⟩ := hm.get_of_ready (hqueue ▸ hq)
        rw [hget]
        rfl
      exact Scheduler.length_lt_max hm.numbered hrest (fun q hq => hsome q (List.mem_cons_of_mem _ hq))
        (hsome pid List.mem_cons_self) hnot
  · exact (balanced_of_runs hm run').getElem?_outs hi hpid

/-! ## A run of one process -/

def demo_layout : Layout where
  page_directories := 0x80000
  low_page_tables := 0xa6000
  private_page_tables := 0xcc000
  code_slots := 0x13e000
  stack_slots := 0xf2000
  private_test_pages := 0x118000
  positive := by decide
  aligned := by decide
  fits := by decide
  apart := by decide

/-- A kernel with one application, which is spawned and selected. -/
def demo_boot : Machine := boot (some [⟨ascii "/apps/a.bogapp", [0x90], true⟩]) 4096 true none
def demo_spawned : Machine :=
  ((demo_boot.spawn_app_command demo_layout (ascii "a")).map (·.1)).getD demo_boot
def demo_slice : Machine := (demo_spawned.scheduler_step.map (·.1)).getD demo_spawned

theorem eq_some_of_parts {α β : Type} {x : Option (α × β)} {a : α} {b : β} (h : x.map (·.2) = some b) :
    x = some ((x.map (·.1)).getD a, b) := by
  obtain ⟨⟨a', b'⟩, hx, hb⟩ := Option.map_eq_some_iff.mp h
  rw [hx, ← hb]
  rfl

theorem demo_spawn : demo_boot.spawn_app_command demo_layout (ascii "a") = some (demo_spawned, some 1) := by
  have hqueued : (demo_boot.spawn_app_command demo_layout (ascii "a")).map (·.2) = some (some 1) := by
    decide +kernel
  exact eq_some_of_parts hqueued

theorem demo_spawned_run : Runs true demo_layout demo_boot [.command (some 1)] demo_spawned :=
  .step .nil (.spawn rfl demo_spawn)

theorem demo_selected :
    ∃ entry, demo_spawned.scheduler_step = some (demo_slice, some 1, some entry) := by
  have hparts : demo_spawned.scheduler_step.map (fun r => (r.2.1, r.2.2.isSome)) =
      some (some 1, true) := by
    decide +kernel
  obtain ⟨⟨m, selected, entry⟩, hstep, heq⟩ := Option.map_eq_some_iff.mp hparts
  obtain ⟨rfl, hentry⟩ := Prod.mk.inj heq
  obtain ⟨e, rfl⟩ := Option.isSome_iff_exists.mp hentry
  refine ⟨e, ?_⟩
  rw [demo_slice, hstep]
  rfl

/-- A step of the scheduler that leaves the memory as it is. -/
theorem step_schedule {selected : Option ProcessId} {entry : Option Entry} (idle : m.phase = .shell)
    (call : m.scheduler_step = some (m', selected, entry)) :
    Step overflow_checks L m (.scheduled selected entry) m' := .schedule idle call m'.kernel.memory

theorem demo_slice_step : ∃ entry,
    Step true demo_layout demo_spawned (.scheduled (some 1) (some entry)) demo_slice := by
  have hidle : demo_spawned.phase = .shell := by decide +kernel
  obtain ⟨entry, hstep⟩ := demo_selected
  exact ⟨entry, step_schedule hidle hstep⟩

theorem demo_slice_run : ∃ entry, Runs true demo_layout demo_boot
    [.command (some 1), .scheduled (some 1) (some entry)] demo_slice := by
  obtain ⟨entry, hstep⟩ := demo_slice_step
  exact ⟨entry, .step demo_spawned_run hstep⟩

/-- The queued process of the run is the one that is selected. -/
theorem selected_in_order_one_process :
    ∃ entry m', Runs true demo_layout demo_spawned [.scheduled (some 1) entry] m' ∧
      ([.scheduled (some 1) entry].flatMap Event.selected)[0]? = some 1 := by
  obtain ⟨entry, hstep⟩ := demo_slice_step
  have hrun : Runs true demo_layout demo_spawned [.scheduled (some 1) (some entry)] demo_slice :=
    .step .nil hstep
  have hqueue : demo_spawned.scheduler.run_queue[0]? = some 1 := by decide +kernel
  exact ⟨_, _, hrun, (selected_in_order demo_spawned_run).2.2 _ _ hrun 0 Nat.one_pos 1 hqueue⟩

/-! ## Processes that are over -/

/-- A process that was rejected, or has left user mode for good. -/
def Over (m : Machine) (pid : ℕ) : Prop :=
  ∃ state, m.process_table.state_of pid = some state ∧
    (state = .Rejected ∨ state = .Exited ∨ state = .Blocked)

/-- The process that an event queues, selects or stops. -/
def Event.pids : Event → List ProcessId
  | .command queued => queued.toList
  | .scheduled selected _ => selected.toList
  | .left pid _ => [pid]
  | .run_app | .user | .call .. => []

theorem Consistent.not_over_of_ready (h : m.Consistent) (hpid : pid ∈ m.scheduler.run_queue) :
    ¬ m.Over pid := by
  rintro ⟨state, hstate, hover⟩
  rw [(h.queue pid).mp hpid] at hstate
  obtain rfl := Option.some.inj hstate
  rcases hover with h | h | h
  all_goals cases h

theorem Consistent.not_over_of_running (h : m.Consistent) (hpid : m.phase.pid = some pid) :
    ¬ m.Over pid := by
  rintro ⟨state, hstate, hover⟩
  rw [(h.running pid).mpr hpid] at hstate
  obtain rfl := Option.some.inj hstate
  rcases hover with h | h | h
  all_goals cases h

theorem not_over_of_adds {table : ProcessTable} {record : ProcessRecord}
    (adds : Adds m.process_table table pid record) : ¬ m.Over pid := by
  rintro ⟨state, hstate, -⟩
  rw [state_of, adds.fresh] at hstate
  cases hstate

/-- A process that is over stays so, and no step is about it. -/
theorem over_of_effect (h : m.Consistent) (effect : Effect L m event m') (hover : m.Over pid) :
    m'.Over pid ∧ pid ∉ event.pids := by
  obtain ⟨state, hstate, hcases⟩ := hover
  have hover : m.Over pid := ⟨state, hstate, hcases⟩
  -- a step on another process
  have hother {q : ℕ} {state' : ProcessState} (hq : ¬ m.Over q) (hpids : event.pids ⊆ [q])
      (hstates : m'.process_table.state_of pid =
        if pid = q then some state' else m.process_table.state_of pid) :
      m'.Over pid ∧ pid ∉ event.pids := by
    have hne : pid ≠ q := fun heq => hq (heq ▸ hover)
    rw [if_neg hne] at hstates
    exact ⟨⟨state, hstates.trans hstate, hcases⟩, fun hmem => hne (List.mem_singleton.mp (hpids hmem))⟩
  have hstays (stays : Stays m.process_table m'.process_table) (hpids : event.pids = []) :
      m'.Over pid ∧ pid ∉ event.pids := by
    rw [hpids]
    exact ⟨⟨state, (stays.states pid).trans hstate, hcases⟩, List.not_mem_nil⟩
  have hhead {q : ℕ} {rest : List ProcessId} (hqueue : m.scheduler.run_queue = q :: rest) : ¬ m.Over q :=
    h.not_over_of_ready (hqueue ▸ List.mem_cons_self)
  cases effect with
  | queued idle adds state' loaded after =>
    exact hother (not_over_of_adds adds) (List.Subset.refl _) (adds.map (·.state) pid)
  | refused idle adds state' memory after event_eq =>
    rcases event_eq with rfl | rfl
    · exact hother (not_over_of_adds adds) (List.nil_subset _) (adds.map (·.state) pid)
    · exact hother (not_over_of_adds adds) (List.nil_subset _) (adds.map (·.state) pid)
  | entered idle adds state' memory after =>
    exact hother (not_over_of_adds adds) (List.nil_subset _) (adds.map (·.state) pid)
  | declined idle stays after memory event_eq =>
    rcases event_eq with rfl | rfl
    · exact hstays stays rfl
    · exact hstays stays rfl
  | selected idle queue moves found saved cr3_ne cr3 after memory =>
    exact hother (hhead queue) (List.Subset.refl _) (moves.states pid)
  | stuck idle queue moves found unmapped after memory =>
    exact hother (hhead queue) (List.Subset.refl _) (moves.states pid)
  | empty idle queue stays after memory => exact hstays stays rfl
  | user stays after paging cr3 writes event_eq =>
    rcases event_eq with rfl | ⟨number, admitted, rfl⟩
    · exact hstays stays rfl
    · exact hstays stays rfl
  | requeued busy moves valid after memory =>
    exact hother (h.not_over_of_running (by rw [busy]; rfl)) (List.Subset.refl _) (moves.states pid)
  | ended busy moves settled after memory =>
    exact hother (h.not_over_of_running busy) (List.Subset.refl _) (moves.states pid)

theorem over_of_runs {start : Machine} (hstart : start.Consistent) (hover : start.Over pid)
    (run : Runs overflow_checks L start events m) :
    m.Over pid ∧ ∀ event ∈ events, pid ∉ event.pids := by
  induction run with
  | nil => exact ⟨hover, fun event hevent => absurd hevent List.not_mem_nil⟩
  | step run step ih =>
    have hm := consistent_of_runs hstart run
    obtain ⟨hover', hpids⟩ := over_of_effect hm (effect_of_step hm step) ih.1
    refine ⟨hover', fun event hevent => ?_⟩
    rcases List.mem_append.mp hevent with hevent | hevent
    · exact ih.2 event hevent
    · exact List.mem_singleton.mp hevent ▸ hpids

/-- A process that has left user mode without a saved context is over: in no later step it is queued,
selected or in user mode. -/
theorem ended_never_returns {entries : Option (List BogFsEntry)} {kernel_cr3 : ℕ} {paging_enabled : Bool}
    {d : Option Disk} {ended : Machine}
    (run : Runs overflow_checks L (boot entries kernel_cr3 paging_enabled d)
      (events ++ [.left pid none]) ended)
    (later : Runs overflow_checks L ended more m) :
    m.Over pid ∧ ∀ event ∈ more, pid ∉ event.pids := by
  obtain ⟨before, hrun, step⟩ := runs_concat run
  have hboot := consistent_boot entries kernel_cr3 paging_enabled d
  have hc := consistent_of_runs hboot hrun
  refine over_of_runs (consistent_of_runs hboot run) ?_ later
  cases effect_of_step hc step with
  | ended busy moves settled after memory =>
    exact ⟨_, (moves.states pid).trans (if_pos rfl), .inr settled⟩
  | user stays after paging cr3 writes event_eq =>
    rcases event_eq with heq | ⟨number, admitted, heq⟩
    · cases heq
    · cases heq
  | refused idle adds state memory after event_eq =>
    rcases event_eq with heq | heq
    · cases heq
    · cases heq
  | declined idle stays after memory event_eq =>
    rcases event_eq with heq | heq
    · cases heq
    · cases heq

/-- A general protection fault ends the process of the slice; the scheduler then finds none. -/
theorem ended_never_returns_fault :
    ∃ entry ended m, Runs true demo_layout demo_boot
        [.command (some 1), .scheduled (some 1) (some entry), .left 1 none] ended ∧
      Runs true demo_layout ended [.scheduled none none] m ∧ m.Over 1 := by
  obtain ⟨entry, hrun⟩ := demo_slice_run
  have hphase : demo_slice.phase.pid = some 1 := by decide +kernel
  have hleft : ((demo_slice.common_exception_handler 13 3).bind (·.longjmp_to_kernel 1)).isSome := by
    decide +kernel
  obtain ⟨ended, hended⟩ := Option.isSome_iff_exists.mp hleft
  obtain ⟨faulted, hfault, hjump⟩ := Option.bind_eq_some_iff.mp hended
  have hended_run := Runs.step hrun (.faulted hphase hfault hjump)
  -- the queue is empty behind it
  have hempty : (((demo_slice.common_exception_handler 13 3).bind (·.longjmp_to_kernel 1)).bind
      (·.scheduler_step)).map (·.2) = some (none, none) := by
    decide +kernel
  rw [hended] at hempty
  obtain ⟨⟨m, selected, none_entry⟩, hstep, heq⟩ := Option.map_eq_some_iff.mp hempty
  obtain ⟨rfl, rfl⟩ := Prod.mk.inj heq
  have hidle : (((demo_slice.common_exception_handler 13 3).bind (·.longjmp_to_kernel 1)).map
      (·.phase)) = some .shell := by
    decide +kernel
  rw [hended] at hidle
  have hlater : Runs true demo_layout ended [.scheduled none none] m :=
    .step .nil (step_schedule (Option.some.inj hidle) hstep)
  exact ⟨entry, ended, m, hended_run, hlater, (ended_never_returns hended_run hlater).1⟩

/-- Where a process is: queued once, in user mode, over, or without page tables because paging is off. -/
inductive Place (m : Machine) (pid : ℕ) : ProcessState → Prop
  | ready (queue : m.scheduler.run_queue.count pid = 1) (phase : m.phase.pid ≠ some pid) :
      Place m pid .Ready
  | running (queue : pid ∉ m.scheduler.run_queue) (phase : m.phase.pid = some pid) :
      Place m pid .Running
  | over {state : ProcessState} (queue : pid ∉ m.scheduler.run_queue) (phase : m.phase.pid ≠ some pid)
      (settled : state = .Rejected ∨ state = .Exited ∨ state = .Blocked) : Place m pid state
  | unmapped (queue : pid ∉ m.scheduler.run_queue) (phase : m.phase.pid ≠ some pid)
      (paging : m.paging_enabled = false) : Place m pid .Scheduled

end Machine

end Bogbin.Kernel
