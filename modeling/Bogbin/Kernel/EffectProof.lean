import Bogbin.Kernel.Effect

/-!
# The effect of a slice and of its end

What a step of the scheduler, user code, a call, a tick and a fault do to a consistent machine, and with
the loaders that every step has an `Effect`.
-/

namespace Bogbin.Kernel

open Buffer Bogbin.Core Bogbin.Core.ProcessTable

namespace Machine

variable {m m' : Machine} {pid : ℕ} {f : ProcessRecord → ProcessRecord} {L : Layout}

/-! ## The scheduler -/

section Schedule

variable {record : ProcessRecord} {selected : Option ProcessId} {entry : Option Entry}

theorem mark_scheduled_of_ready (hstate : record.state = .Ready) :
    record.mark_scheduled.1 = { record with state := .Scheduled, state_scheduled := true } := by
  have hcond : ¬ record.state ≠ .Ready := fun hne => hne hstate
  unfold ProcessRecord.mark_scheduled
  rw [if_neg hcond]

theorem mark_running_of_scheduled (hstate : record.state = .Scheduled) :
    record.mark_running.1 = { record with state := .Running, state_running := true } := by
  have hcond : ¬ (record.state ≠ .Verified ∧ record.state ≠ .Scheduled) := fun hne => hne.2 hstate
  unfold ProcessRecord.mark_running
  rw [if_neg hcond]

theorem mark_rejected_of_scheduled (hstate : record.state = .Scheduled) (reason : String) :
    (record.mark_rejected reason).1 = record := by
  have hcond : record.state ≠ .Created ∧ record.state ≠ .Verified := by
    rw [hstate]
    exact ⟨ProcessState.noConfusion, ProcessState.noConfusion⟩
  unfold ProcessRecord.mark_rejected
  rw [if_pos hcond]

/-- Without memory or page tables a process stays scheduled. -/
theorem execute_of_unmapped (hget : m.process_table.get pid = some record)
    (hstate : record.state = .Scheduled)
    (hcond : record.execution_memory.assigned = false ∨ record.address_space.cr3 = 0) :
    ∃ table, Moves m.process_table table pid .Scheduled none ∧
      m.execute_scheduled_process pid =
        some ({ m.with_table table with scheduler := m.scheduler.finish_current }, none) := by
  have hsome : (m.process_table.get pid).isSome := by
    rw [hget]
    rfl
  have hreject (reason : String) : Moves m.process_table
      (m.process_table.modify pid fun r => (r.mark_rejected reason).1) pid .Scheduled none := by
    have hmark := mark_rejected_of_scheduled hstate reason
    exact moves_modify (fun r => ProcessRecord.kept_mark_rejected reason) hget (by rw [hmark, hstate])
      (by rw [hmark]; rfl)
  have hcond' : (!record.execution_memory.assigned) = true ∨ record.address_space.cr3 = 0 := by
    simpa using hcond
  unfold execute_scheduled_process
  rw [hget]
  dsimp only
  rw [if_pos hcond', update_eq_some.mpr ⟨hsome, rfl⟩]
  exact ⟨_, hreject _, rfl⟩

/-- The machine in the slice of a process. -/
def with_slice (m : Machine) (pid cr3 : ℕ) : Machine :=
  { m with
    kernel := { m.kernel with
      process_table := m.process_table.modify pid fun record => record.mark_running.1
      active_block_reason := "none"
      active_cr3 := cr3
      active_scheduled_pid := pid }
    scheduler := { m.scheduler with quantum_ticks := 0 }
    phase := .slice pid }

theorem execute_of_mapped (hget : m.process_table.get pid = some record)
    (hstate : record.state = .Scheduled) (hassigned : record.execution_memory.assigned = true)
    (hcr3 : record.address_space.cr3 ≠ 0) :
    m.execute_scheduled_process pid =
      some (m.with_slice pid record.address_space.cr3,
        some (entry_of record.identity record.context)) := by
  have hsome : (m.process_table.get pid).isSome := by
    rw [hget]
    rfl
  have hcond : ¬ ((!record.execution_memory.assigned) = true ∨ record.address_space.cr3 = 0) := by
    simp [hassigned, hcr3]
  have heligible : record.restore_eligible = record.context.valid := by
    simp [ProcessRecord.restore_eligible, hstate, hassigned]
  unfold execute_scheduled_process
  rw [hget]
  dsimp only
  rw [if_neg hcond, update_eq_some.mpr ⟨hsome, rfl⟩, heligible]
  rfl

/-- A selected process that has memory and page tables runs; another one stays scheduled. -/
theorem effect_schedule (h : m.Consistent) (idle : m.phase = .shell) (memory : UInt32 → UInt8)
    (call : m.scheduler_step = some (m', selected, entry)) :
    Effect L m (.scheduled selected entry) { m' with kernel := { m'.kernel with memory := memory } } := by
  unfold scheduler_step at call
  cases hqueue : m.scheduler.run_queue with
  | nil =>
    rw [Scheduler.select_next_nil hqueue] at call
    obtain ⟨rfl, heq⟩ := Prod.mk.inj (Option.some.inj call)
    obtain ⟨rfl, rfl⟩ := Prod.mk.inj heq
    have hcurrent : none = m.phase.slice_pid := by rw [idle]; rfl
    exact .empty idle hqueue (.refl _) ⟨rfl, idle, ⟨h.aligned.active, hcurrent⟩, rfl, id⟩ ⟨rfl, rfl⟩
  | cons pid rest =>
    have hmem : pid ∈ m.scheduler.run_queue := by
      rw [hqueue]
      exact List.mem_cons_self
    obtain ⟨record, hget, hready⟩ := h.get_of_ready hmem
    have hmark := mark_scheduled_of_ready hready
    set m1 : Machine := { m.with_table (m.process_table.modify pid fun r => r.mark_scheduled.1) with
      scheduler := { m.scheduler with
        schedule_step := saturating_succ m.scheduler.schedule_step
        current_pid := some pid
        run_queue := rest
        last_selected_pid := some pid } } with hm1
    have hscheduled : Moves m.process_table m1.process_table pid .Scheduled none :=
      moves_modify (fun r => ProcessRecord.kept_mark_scheduled) hget (by rw [hmark]) (by rw [hmark]; rfl)
    have hget1 : m1.process_table.get pid =
        some { record with state := .Scheduled, state_scheduled := true } := by
      rw [← hmark]
      refine (get_modify_self _ _ fun r => (ProcessRecord.kept_mark_scheduled (r := r)).pid).trans ?_
      rw [hget]
      rfl
    have hfound : m.process_table.identity_of pid = some record.identity := by
      rw [identity_of, hget]
      rfl
    have hcontext : m.process_table.context_of pid = some record.context := by
      rw [context_of, hget]
      rfl
    rw [Scheduler.select_next_cons hqueue ((h.queue pid).mp hmem)] at call
    obtain ⟨⟨m2, entry2⟩, hexecute, heq⟩ := Option.map_eq_some_iff.mp call
    cases heq
    by_cases hmapped : record.execution_memory.assigned = false ∨ record.address_space.cr3 = 0
    · obtain ⟨table, hmoves, hstuck⟩ := execute_of_unmapped hget1 rfl hmapped
      obtain ⟨rfl, rfl⟩ := Prod.mk.inj (Option.some.inj (hstuck.symm.trans hexecute))
      have hcurrent : none = m.phase.slice_pid := by rw [idle]; rfl
      exact .stuck idle hqueue (hscheduled.trans hmoves) hfound hmapped
        ⟨rfl, idle, ⟨h.aligned.active, hcurrent⟩, rfl, id⟩ ⟨rfl, rfl⟩
    · simp only [not_or, Bool.not_eq_false] at hmapped
      have hrun := execute_of_mapped hget1 rfl hmapped.1 hmapped.2
      obtain ⟨rfl, rfl⟩ := Prod.mk.inj (Option.some.inj (hrun.symm.trans hexecute))
      have hrunning : Moves m1.process_table
          (m1.with_slice pid record.address_space.cr3).process_table pid .Running none :=
        moves_modify (fun r => ProcessRecord.kept_mark_running) hget1
          (by rw [mark_running_of_scheduled rfl]) (by rw [mark_running_of_scheduled rfl]; rfl)
      exact .selected idle hqueue (hscheduled.trans hrunning) hfound hcontext hmapped.2 rfl
        ⟨rfl, rfl, ⟨rfl, rfl⟩, rfl, id⟩ ⟨rfl, rfl⟩

end Schedule

/-! ## User code -/

section User

variable {regs : SyscallRegisters} {k : KernelState} {receipts : List Receipt} {eax : UInt32}
  {slots : ℕ → ℕ → UInt8}

theorem effect_user (h : m.Consistent) (busy : m.phase ≠ .shell) (memory : UInt32 → UInt8)
    (writes : m.UserWrites L slots) :
    Effect L m .user { m with kernel := { m.kernel with memory := memory }, process_code_slots := slots } := by
  refine .user (.refl _) (h.after rfl rfl rfl rfl rfl id) rfl rfl (fun slot offset hne => ?_) (.inl rfl)
  have hwrite := writes slot offset hne
  cases hphase : m.phase with
  | shell => exact absurd hphase busy
  | app pid => exact .inl ⟨pid, hphase⟩
  | slice pid =>
    rw [hphase] at hwrite
    obtain ⟨page, hpage⟩ := hwrite
    exact .inr (.inr (.inl ⟨pid, page, hphase, hpage⟩))

theorem effect_returned {overflow_checks : Bool} (h : m.Consistent) (busy : m.phase ≠ .shell)
    (call : handle_syscall overflow_checks m.kernel regs = .returned eax receipts k)
    (writes : m.CallWrites L k.memory slots) :
    Effect L m (.call regs.eax m.kernel.dynamic_loader_admitted)
      { m with kernel := k, process_code_slots := slots } := by
  have hends := KernelState.handle_syscall_ends m.kernel regs overflow_checks
  rw [call] at hends
  cases hends with
  | confined hconfined =>
    obtain ⟨hprocesses, hmemory⟩ := hconfined
    simp only [KernelState.processes, Prod.mk.injEq] at hprocesses
    obtain ⟨htable, hpaging, hactive, hcr3, -, -⟩ := hprocesses
    refine .user (.of_eq htable) (h.after rfl rfl hactive rfl rfl id) hpaging hcr3
      (fun slot offset hne => ?_) (.inr ⟨_, _, rfl⟩)
    obtain ⟨a, ha, hpage⟩ := writes slot offset hne
    cases hphase : m.phase with
    | shell => exact absurd hphase busy
    | app pid => exact .inl ⟨pid, hphase⟩
    | slice pid =>
      rcases hmemory a ha with hwritable | hunchecked
      · exact .inr (.inr (.inr ⟨pid, a, hphase, hwritable, hpage⟩))
      · exact .inr (.inl (by rw [Event.Unchecked, hunchecked.1, hunchecked.2]))

theorem effect_tick (h : m.Consistent) (call : m.handle_timer_interrupt regs = some (m', none)) :
    Effect L m .user m' := by
  unfold handle_timer_interrupt at call
  dsimp only at call
  split_ifs at call
  · obtain ⟨rfl, -⟩ := Prod.mk.inj (Option.some.inj call)
    exact .user (.refl _) (h.after rfl rfl rfl rfl rfl id) rfl rfl (fun _ _ hne => absurd rfl hne)
      (.inl rfl)
  · obtain ⟨rfl, -⟩ := Prod.mk.inj (Option.some.inj call)
    exact .user (.refl _) (h.after rfl rfl rfl rfl rfl id) rfl rfl (fun _ _ hne => absurd rfl hne)
      (.inl rfl)
  · obtain ⟨m1, -, heq⟩ := Option.map_eq_some_iff.mp call
    cases heq

end User

/-! ## Leaving user mode -/

section Leave

variable {record : ProcessRecord} {exit_code : UInt32} {regs : SyscallRegisters}

/-- A process that leaves is exited or blocked, unless a fault has blocked it before. -/
theorem ended_of_get (exit_code : UInt32) (reason : String) (hget : m.process_table.get pid = some record)
    (hstate : record.state = .Running ∨ record.state = .Blocked) :
    ∃ state, (state = .Exited ∨ state = .Blocked) ∧
      Moves m.process_table (m.process_table.modify pid fun record =>
        if reason = "exit" ∨ exit_code = 0 then (record.mark_exited exit_code.toInt32).1
        else (record.mark_blocked exit_code.toInt32
          (if reason = "none" then "nonzero_exit" else reason)).1) pid state none := by
  have hkept (r : ProcessRecord) : r.Kept
      (if reason = "exit" ∨ exit_code = 0 then (r.mark_exited exit_code.toInt32).1
      else (r.mark_blocked exit_code.toInt32 (if reason = "none" then "nonzero_exit" else reason)).1) := by
    split_ifs
    · exact ProcessRecord.kept_mark_exited _
    · exact ProcessRecord.kept_mark_blocked _ _
    · exact ProcessRecord.kept_mark_blocked _ _
  rcases hstate with hrunning | hblocked
  · have hcond : ¬ record.state ≠ .Running := fun hne => hne hrunning
    by_cases hexit : reason = "exit" ∨ exit_code = 0
    · refine ⟨.Exited, .inl rfl, moves_modify hkept hget ?_ ?_⟩
      · rw [if_pos hexit, ProcessRecord.mark_exited, if_neg hcond]
      · rw [if_pos hexit, ProcessRecord.mark_exited, if_neg hcond]
        rfl
    · refine ⟨.Blocked, .inr rfl, moves_modify hkept hget ?_ ?_⟩
      · rw [if_neg hexit, ProcessRecord.mark_blocked, if_neg hcond]
      · rw [if_neg hexit, ProcessRecord.mark_blocked, if_neg hcond]
        rfl
  · have hcond : record.state ≠ .Running := by
      rw [hblocked]
      exact ProcessState.noConfusion
    have hsame : (if reason = "exit" ∨ exit_code = 0 then (record.mark_exited exit_code.toInt32).1
        else (record.mark_blocked exit_code.toInt32
          (if reason = "none" then "nonzero_exit" else reason)).1) = record := by
      rw [ProcessRecord.mark_exited, ProcessRecord.mark_blocked, if_pos hcond, if_pos hcond, ite_self]
    refine ⟨.Blocked, .inr rfl, moves_modify hkept hget ?_ ?_⟩
    · rw [hsame, hblocked]
    · rw [hsame]
      rfl

/-- The machine back in the shell from a slice. -/
def back_to_shell (m : Machine) (table : ProcessTable) (queue : List ProcessId) : Machine :=
  { m with
    kernel := { m.kernel with active_scheduled_pid := 0, process_table := table }
    scheduler := { m.scheduler with current_pid := none, run_queue := queue }
    phase := .shell }

theorem finish_ended (exit_code : UInt32) (hget : m.process_table.get pid = some record)
    (hstate : record.state = .Running ∨ record.state = .Blocked)
    (hyield : m.kernel.active_block_reason ≠ "yield")
    (hpreempt : m.kernel.active_block_reason ≠ "preempt") :
    ∃ table state, (state = .Exited ∨ state = .Blocked) ∧ Moves m.process_table table pid state none ∧
      m.finish_scheduled_process pid exit_code =
        some (m.back_to_shell table m.scheduler.run_queue) := by
  obtain ⟨state, hended, hmoves⟩ := ended_of_get exit_code
    m.kernel.active_block_reason hget hstate
  have hsome : (({ m with kernel := { m.kernel with active_scheduled_pid := 0 }, phase := .shell } :
      Machine).process_table.get pid).isSome := by
    have hget' : ({ m with kernel := { m.kernel with active_scheduled_pid := 0 }, phase := .shell } :
      Machine).process_table.get pid = some record := hget
    rw [hget']
    rfl
  refine ⟨_, state, hended, hmoves, ?_⟩
  unfold finish_scheduled_process
  dsimp only
  rw [if_neg fun h => hyield h.2, if_neg fun h => hpreempt h.2, update_eq_some.mpr ⟨hsome, rfl⟩]
  rfl

theorem finish_app_ended (exit_code : UInt32) (hget : m.process_table.get pid = some record)
    (hstate : record.state = .Running ∨ record.state = .Blocked) :
    ∃ table state, (state = .Exited ∨ state = .Blocked) ∧ Moves m.process_table table pid state none ∧
      m.finish_app pid exit_code = some { m.with_table table with phase := .shell } := by
  obtain ⟨state, hended, hmoves⟩ := ended_of_get exit_code
    m.kernel.active_block_reason hget hstate
  have hsome : (({ m with phase := .shell } : Machine).process_table.get pid).isSome := by
    have hget' : ({ m with phase := .shell } : Machine).process_table.get pid = some record := hget
    rw [hget']
    rfl
  refine ⟨_, state, hended, hmoves, ?_⟩
  unfold finish_app
  dsimp only
  rw [update_eq_some.mpr ⟨hsome, rfl⟩]
  rfl

/-- A yielded or preempted process is queued again. -/
theorem finish_requeued (hroom : m.scheduler.run_queue.length < MAX_PROCESSES)
    (hnot : pid ∉ m.scheduler.run_queue) (hready : m.process_table.state_of pid = some .Ready)
    (hreason : (exit_code = YIELD_EXIT_CODE ∧ m.kernel.active_block_reason = "yield") ∨
      (exit_code = PREEMPT_EXIT_CODE ∧ m.kernel.active_block_reason = "preempt")) :
    m.finish_scheduled_process pid exit_code =
      some (m.back_to_shell m.process_table (m.scheduler.run_queue ++ [pid])) := by
  have hqueue := Scheduler.enqueue_of_ready (s := m.scheduler.finish_current) (t := m.process_table)
    hroom hnot hready
  unfold finish_scheduled_process
  dsimp only
  have htable : ({ m with kernel := { m.kernel with active_scheduled_pid := 0 }, phase := .shell } :
    Machine).process_table = m.process_table := rfl
  rw [htable, hqueue]
  rcases hreason with hyield | hpreempt
  · rw [if_pos hyield]
    rfl
  · have hnot : ¬ (exit_code = YIELD_EXIT_CODE ∧ m.kernel.active_block_reason = "yield") := by
      rw [hpreempt.2]
      exact fun h => absurd h.2 (by decide)
    rw [if_neg hnot, if_pos hpreempt]
    rfl

/-- A process that has left a slice or an application is over. -/
theorem effect_ended {m1 : Machine} (h : m.Consistent) (busy : m.phase.pid = some pid)
    (jump : m1.longjmp_to_kernel exit_code = some m')
    (hget : m1.process_table.get pid = some record)
    (hstate : record.state = .Running ∨ record.state = .Blocked)
    (moved : ∀ t state, Moves m1.process_table t pid state none →
      Moves m.process_table t pid state none)
    (hyield : m1.kernel.active_block_reason ≠ "yield")
    (hpreempt : m1.kernel.active_block_reason ≠ "preempt") (hscheduler : m1.scheduler = m.scheduler)
    (hphase : m1.phase = m.phase)
    (hactive : m1.kernel.active_scheduled_pid = m.kernel.active_scheduled_pid)
    (hpaging : m1.paging_enabled = m.paging_enabled) (hstaged : m.StagedHashed → m1.StagedHashed)
    (memory : SameMemory m m1) : Effect L m (.left pid none) m' := by
  have hqueue : m1.scheduler.run_queue = m.scheduler.run_queue := congrArg (·.run_queue) hscheduler
  unfold longjmp_to_kernel at jump
  cases hp : m.phase with
  | shell =>
    rw [hp] at busy
    cases busy
  | slice q =>
    rw [hp] at busy
    obtain rfl := Option.some.inj busy
    obtain ⟨table, state, hended, hmoves, hfinish⟩ := finish_ended exit_code hget hstate
      hyield hpreempt
    rw [hphase, hp] at jump
    dsimp only at jump
    obtain rfl := Option.some.inj (hfinish.symm.trans jump)
    exact .ended (by rw [hp]; rfl) (moved _ _ hmoves) hended
      ⟨hqueue, rfl, ⟨rfl, rfl⟩, hpaging, hstaged⟩ ⟨memory.paging, memory.slots⟩
  | app q =>
    rw [hp] at busy
    obtain rfl := Option.some.inj busy
    obtain ⟨table, state, hended, hmoves, hfinish⟩ := finish_app_ended exit_code hget hstate
    rw [hphase, hp] at jump
    dsimp only at jump
    obtain rfl := Option.some.inj (hfinish.symm.trans jump)
    refine .ended (by rw [hp]; rfl) (moved _ _ hmoves) hended ⟨hqueue, rfl, ⟨?_, ?_⟩, hpaging, hstaged⟩
      ⟨memory.paging, memory.slots⟩
    · exact hactive.trans (h.aligned.active.trans (by rw [hp]; rfl))
    · exact (congrArg (·.current_pid) hscheduler).trans (h.aligned.current.trans (by rw [hp]))

/-- A process that has yielded or was preempted is queued with its context. -/
theorem effect_requeued {m1 : Machine} {context : SavedContext} (h : m.Consistent)
    (busy : m.phase = .slice pid) (jump : m1.longjmp_to_kernel exit_code = some m')
    (moves : Moves m.process_table m1.process_table pid .Ready (some context))
    (valid : context.valid = true)
    (hreason : (exit_code = YIELD_EXIT_CODE ∧ m1.kernel.active_block_reason = "yield") ∨
      (exit_code = PREEMPT_EXIT_CODE ∧ m1.kernel.active_block_reason = "preempt"))
    (hqueue : m1.scheduler.run_queue = m.scheduler.run_queue) (hphase : m1.phase = m.phase)
    (hpaging : m1.paging_enabled = m.paging_enabled) (hstaged : m.StagedHashed → m1.StagedHashed)
    (memory : SameMemory m m1) : Effect L m (.left pid (some context)) m' := by
  have hpid : m.phase.pid = some pid := by
    rw [busy]
    rfl
  obtain ⟨record, hget, hrunning⟩ := h.get_of_running hpid
  have hnot : pid ∉ m.scheduler.run_queue := by
    rw [h.queue, (h.running pid).mpr hpid]
    exact fun heq => ProcessState.noConfusion (Option.some.inj heq)
  have hroom : m.scheduler.run_queue.length < MAX_PROCESSES := by
    refine Scheduler.length_lt_max h.numbered h.nodup (fun q hq => ?_) (by rw [hget]; rfl) hnot
    obtain ⟨r, hr, -⟩ := h.get_of_ready hq
    rw [hr]
    rfl
  have hready : m1.process_table.state_of pid = some .Ready := by
    rw [moves.states, if_pos rfl]
  rw [← hqueue] at hroom hnot
  have hfinish := finish_requeued hroom hnot hready hreason
  unfold longjmp_to_kernel at jump
  rw [hphase, busy] at jump
  dsimp only at jump
  obtain rfl := Option.some.inj (hfinish.symm.trans jump)
  exact .requeued busy moves valid
    ⟨congrArg (· ++ [pid]) hqueue, rfl, ⟨rfl, rfl⟩, hpaging, hstaged⟩ ⟨memory.paging, memory.slots⟩

/-! ## The ways out of user mode -/

variable {k : KernelState} {receipts : List Receipt} {context : SavedContext}

theorem mark_yielded_of_running (context : SavedContext) (hstate : record.state = .Running)
    (hvalid : context.valid = true) :
    ((record.save_context context).1.mark_yielded.1.mark_ready.1).state = .Ready ∧
      ((record.save_context context).1.mark_yielded.1.mark_ready.1).context = context := by
  have hsave : ¬ (record.state ≠ .Running ∨ (!context.valid) = true) := by simp [hstate, hvalid]
  have hmark : ¬ ({ record with context := context } : ProcessRecord).state ≠ .Running :=
    fun hne => hne hstate
  unfold ProcessRecord.save_context
  rw [if_neg hsave]
  dsimp only
  unfold ProcessRecord.mark_yielded
  rw [if_neg hmark]
  exact ⟨rfl, rfl⟩

theorem mark_preempted_of_running (context : SavedContext) (hstate : record.state = .Running)
    (hvalid : context.valid = true) :
    ((record.save_context context).1.mark_preempted.1.mark_ready.1).state = .Ready ∧
      ((record.save_context context).1.mark_preempted.1.mark_ready.1).context = context := by
  have hsave : ¬ (record.state ≠ .Running ∨ (!context.valid) = true) := by simp [hstate, hvalid]
  have hmark : ¬ ({ record with context := context } : ProcessRecord).state ≠ .Running :=
    fun hne => hne hstate
  unfold ProcessRecord.save_context
  rw [if_neg hsave]
  dsimp only
  unfold ProcessRecord.mark_preempted
  rw [if_neg hmark]
  exact ⟨rfl, rfl⟩

/-- The process of a slice is the active one. -/
theorem Aligned.slice_of_active (h : m.Aligned) (hactive : m.kernel.active_scheduled_pid ≠ 0) :
    m.phase = .slice m.kernel.active_scheduled_pid := by
  have heq := h.active
  cases hp : m.phase with
  | shell =>
    rw [hp] at heq
    exact absurd heq hactive
  | app pid =>
    rw [hp] at heq
    exact absurd heq hactive
  | slice pid =>
    rw [hp] at heq
    rw [heq]
    rfl

theorem effect_left {overflow_checks : Bool} (h : m.Consistent) (busy : m.phase.pid = some pid)
    (call : handle_syscall overflow_checks m.kernel regs = .left exit_code receipts k)
    (jump : ({ m with kernel := k } : Machine).longjmp_to_kernel exit_code = some m') :
    Effect L m (.left pid (saved_context receipts)) m' := by
  obtain ⟨record, hget, hrunning⟩ := h.get_of_running busy
  have hends := KernelState.handle_syscall_ends m.kernel regs overflow_checks
  rw [call] at hends
  cases hends with
  | confined hconfined => exact hconfined.elim
  | exited receipt silent =>
    have hsaved : saved_context [receipt] = none := by
      cases receipt with
      | context_save q context => exact absurd rfl (silent q context)
      | _ => rfl
    rw [hsaved]
    have hyield : "exit" ≠ "yield" := by decide
    have hpreempt : "exit" ≠ "preempt" := by decide
    exact effect_ended h busy jump hget (.inl hrunning) (fun _ _ hm => hm) hyield hpreempt rfl rfl rfl
      rfl id ⟨rfl, rfl⟩
  | yielded receipt active found =>
    have hslice := h.aligned.slice_of_active active
    rw [hslice] at busy
    obtain rfl := Option.some.inj busy
    obtain ⟨hready, hcontext⟩ := mark_yielded_of_running (KernelState.yield_context regs) hrunning
      rfl
    refine effect_requeued h hslice jump ?_ rfl (.inl ⟨rfl, rfl⟩) rfl rfl rfl id ⟨rfl, rfl⟩
    exact moves_modify (fun r => ((ProcessRecord.kept_save_context _).trans
      ProcessRecord.kept_mark_yielded).trans ProcessRecord.kept_mark_ready) hget hready hcontext

theorem effect_preempted {m1 : Machine} (h : m.Consistent) (busy : m.phase.pid = some pid)
    (call : m.handle_timer_interrupt regs = some (m1, some context))
    (jump : m1.longjmp_to_kernel PREEMPT_EXIT_CODE = some m') :
    Effect L m (.left pid (some context)) m' := by
  obtain ⟨record, hget, hrunning⟩ := h.get_of_running busy
  unfold handle_timer_interrupt at call
  dsimp only at call
  split_ifs at call with hidle hquantum
  · cases call
  · cases call
  · have hactive : m.kernel.active_scheduled_pid ≠ 0 := fun hzero => hidle (.inl hzero)
    have hslice := h.aligned.slice_of_active hactive
    rw [hslice] at busy
    obtain rfl := Option.some.inj busy
    obtain ⟨m2, hupdate, heq⟩ := Option.map_eq_some_iff.mp call
    obtain ⟨rfl, hcontext⟩ := Prod.mk.inj heq
    obtain rfl := Option.some.inj hcontext
    obtain ⟨-, rfl⟩ := update_eq_some.mp hupdate
    obtain ⟨hready, hcontext⟩ := mark_preempted_of_running (preempt_context regs) hrunning rfl
    refine effect_requeued h hslice jump ?_ rfl (.inr ⟨rfl, rfl⟩) rfl rfl rfl id ⟨rfl, rfl⟩
    exact moves_modify (fun r => ((ProcessRecord.kept_save_context _).trans
      ProcessRecord.kept_mark_preempted).trans ProcessRecord.kept_mark_ready) hget hready hcontext

theorem block_reason_ne (vector : UInt32) :
    block_reason vector ≠ "yield" ∧ block_reason vector ≠ "preempt" := by
  unfold block_reason
  split_ifs
  all_goals decide

theorem prove_isolation_stays (table : ProcessTable) (pids : List ℕ) :
    Stays table (pids.foldl (fun table pid => table.modify pid (·.mark_process_isolation_proven)) table) := by
  induction pids generalizing table with
  | nil => exact .refl table
  | cons pid pids ih =>
    have hmark := ProcessRecord.mark_process_isolation_proven_facts
    exact (stays_modify (fun r => (hmark r).1) (fun r => (hmark r).2.1) fun r => (hmark r).2.2).trans
      (ih _)

/-- Only the flags of the faults and marks of isolation differ. -/
structure Marked (m m' : Machine) : Prop where
  stays : Stays m.process_table m'.process_table
  reason : m'.kernel.active_block_reason = m.kernel.active_block_reason
  active : m'.kernel.active_scheduled_pid = m.kernel.active_scheduled_pid
  scheduler : m'.scheduler = m.scheduler
  phase : m'.phase = m.phase
  paging_enabled : m'.paging_enabled = m.paging_enabled
  staged : m.StagedHashed → m'.StagedHashed
  memory : SameMemory m m'

theorem Marked.refl (m : Machine) : Marked m m :=
  ⟨.refl _, rfl, rfl, rfl, rfl, rfl, id, ⟨rfl, rfl⟩⟩

theorem marked_prove_isolation (m : Machine) : Marked m m.prove_isolation := by
  have hstays := prove_isolation_stays m.process_table (List.range' 1 MAX_PROCESSES)
  unfold prove_isolation
  split_ifs
  · generalize (List.range' 1 MAX_PROCESSES).foldl
      (fun table proof_pid => table.modify proof_pid (·.mark_process_isolation_proven)) m.process_table =
      table at hstays
    exact ⟨hstays, rfl, rfl, rfl, rfl, rfl, id, ⟨rfl, rfl⟩⟩
  · exact .refl m

theorem marked_record_fault (m : Machine) (path : Bytes) : Marked m (m.record_fault path).prove_isolation := by
  have hprove (flagged : Machine) (hm : Marked m flagged) : Marked m flagged.prove_isolation := by
    have hmarked := marked_prove_isolation flagged
    exact ⟨hm.stays.trans hmarked.stays, hmarked.reason.trans hm.reason, hmarked.active.trans hm.active,
      hmarked.scheduler.trans hm.scheduler, hmarked.phase.trans hm.phase,
      hmarked.paging_enabled.trans hm.paging_enabled, hmarked.staged ∘ hm.staged,
      hmarked.memory.paging.trans hm.memory.paging, hmarked.memory.slots.trans hm.memory.slots⟩
  refine hprove _ ?_
  unfold record_fault
  split_ifs
  · exact ⟨.refl _, rfl, rfl, rfl, rfl, rfl, id, ⟨rfl, rfl⟩⟩
  · exact ⟨.refl _, rfl, rfl, rfl, rfl, rfl, id, ⟨rfl, rfl⟩⟩
  · exact ⟨.refl _, rfl, rfl, rfl, rfl, rfl, id, ⟨rfl, rfl⟩⟩
  · exact ⟨.refl _, rfl, rfl, rfl, rfl, rfl, id, ⟨rfl, rfl⟩⟩
  · exact .refl m

theorem effect_faulted {m1 : Machine} {vector cs : UInt32} (h : m.Consistent)
    (busy : m.phase.pid = some pid) (call : m.common_exception_handler vector cs = some m1)
    (jump : m1.longjmp_to_kernel 1 = some m') : Effect L m (.left pid none) m' := by
  obtain ⟨record, hget, hrunning⟩ := h.get_of_running busy
  obtain ⟨hyield, hpreempt⟩ := block_reason_ne vector
  unfold common_exception_handler at call
  dsimp only at call
  split_ifs at call with hring hplain
  · obtain rfl := Option.some.inj call
    exact effect_ended h busy jump hget (.inl hrunning) (fun _ _ hm => hm) hyield hpreempt rfl rfl rfl rfl
      id ⟨rfl, rfl⟩
  · -- a page fault in a slice blocks its process before it leaves
    have hactive : m.kernel.active_scheduled_pid ≠ 0 := fun hzero => hplain (.inr hzero)
    have hslice := h.aligned.slice_of_active hactive
    have hpid : m.phase.pid = some m.kernel.active_scheduled_pid := by
      rw [hslice]
      rfl
    obtain rfl : m.kernel.active_scheduled_pid = pid := Option.some.inj (hpid.symm.trans busy)
    split at call
    · cases call
    · obtain ⟨m2, hupdate, rfl⟩ := Option.map_eq_some_iff.mp call
      obtain ⟨-, rfl⟩ := update_eq_some.mp hupdate
      have hcond : ¬ record.record_page_fault.state ≠ .Running := fun hne => hne hrunning
      have hmark : (record.record_page_fault.mark_blocked 1 "page_fault").1.state = .Blocked := by
        rw [ProcessRecord.mark_blocked, if_neg hcond]
      have hcontext : (record.record_page_fault.mark_blocked 1 "page_fault").1.context = record.context := by
        rw [ProcessRecord.mark_blocked, if_neg hcond]
        rfl
      have hmoves : Moves m.process_table (m.process_table.modify m.kernel.active_scheduled_pid
          fun r => (r.record_page_fault.mark_blocked 1 "page_fault").1)
          m.kernel.active_scheduled_pid .Blocked none :=
        moves_modify (fun r => ProcessRecord.kept_record_page_fault.trans
          (ProcessRecord.kept_mark_blocked _ _)) hget hmark hcontext
      have hmarked := marked_record_fault (({ m with kernel := { m.kernel with
        active_block_reason := block_reason vector } } : Machine).with_table
          (m.process_table.modify m.kernel.active_scheduled_pid fun r =>
            (r.record_page_fault.mark_blocked 1 "page_fault").1)) (ProcessRecord.app_path ‹_›)
      have hmoved := hmoves.stays hmarked.stays
      obtain ⟨record1, hget1, hblocked⟩ := Option.map_eq_some_iff.mp
        ((hmoved.states m.kernel.active_scheduled_pid).trans (if_pos rfl))
      exact effect_ended h busy jump hget1 (.inr hblocked) (fun _ _ hm => hmoved.trans hm)
        (by rw [hmarked.reason]; exact hyield) (by rw [hmarked.reason]; exact hpreempt)
        hmarked.scheduler hmarked.phase hmarked.active hmarked.paging_enabled hmarked.staged
        ⟨hmarked.memory.paging, hmarked.memory.slots⟩

end Leave

/-- Every step from a consistent machine has an effect. -/
theorem effect_of_step {overflow_checks : Bool} {event : Event} (h : m.Consistent)
    (step : Step overflow_checks L m event m') : Effect L m event m' := by
  cases step with
  | spawn idle call => exact effect_spawn h idle call
  | load idle call => exact effect_load h idle call
  | staged idle call => exact effect_staged h idle call
  | run idle call => exact effect_run h idle call
  | schedule idle call memory => exact effect_schedule h idle memory call
  | user busy memory writes => exact effect_user h busy memory writes
  | returned busy call writes => exact effect_returned h busy call writes
  | left busy call jump => exact effect_left h busy call jump
  | tick call => exact effect_tick h call
  | preempted busy call jump => exact effect_preempted h busy call jump
  | faulted busy call jump => exact effect_faulted h busy call jump

end Machine

end Bogbin.Kernel
