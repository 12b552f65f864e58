import Bogbin.Kernel.Launch
import Bogbin.Kernel.UserWrites

/-!
# What a step of the machine does

`Effect` says what each event does to the run queue, the processes, the page tables and the code slots.
A step from a consistent machine has one; the invariants are proved from it.  The loaders are here.
-/

namespace Bogbin.Kernel

open Buffer Bogbin.Core Bogbin.Core.ProcessTable

/-- The process of a slice. -/
def Phase.slice_pid : Phase → Option ProcessId
  | .slice pid => some pid
  | _ => none

/-- A call that writes through a pointer without a check. -/
def Machine.Event.Unchecked (event : Machine.Event) : Prop := event = .call 4 false

namespace Machine

/-- The kernel and the scheduler name the process of the slice. -/
structure Aligned (m : Machine) : Prop where
  active : m.kernel.active_scheduled_pid = m.phase.slice_pid.getD 0
  current : m.scheduler.current_pid = m.phase.slice_pid

/-- The staged code has its hash. -/
def StagedHashed (m : Machine) : Prop :=
  m.v39_execution_pending = true → m.v39_staging.code_hash = sha256_standard m.v39_staging.code.val

/-- A ready process is queued once, and a running one is in user mode. -/
structure Consistent (m : Machine) : Prop where
  numbered : m.process_table.Numbered
  nodup : m.scheduler.run_queue.Nodup
  queue : ∀ pid, pid ∈ m.scheduler.run_queue ↔ m.process_table.state_of pid = some .Ready
  running : ∀ pid, m.process_table.state_of pid = some .Running ↔ m.phase.pid = some pid
  aligned : m.Aligned
  staged : m.StagedHashed

/-- The queue and the phase after a step. -/
structure After (m m' : Machine) (queue : List ProcessId) (phase : Phase) : Prop where
  queue : m'.scheduler.run_queue = queue
  phase : m'.phase = phase
  aligned : m'.Aligned
  paging_enabled : m'.paging_enabled = m.paging_enabled
  staged : m.StagedHashed → m'.StagedHashed

/-- The page tables and the code slots stay. -/
structure SameMemory (m m' : Machine) : Prop where
  paging : m'.paging = m.paging
  slots : m'.process_code_slots = m.process_code_slots

/-- A new process with its code and page tables in its slot. -/
structure Loaded (L : Layout) (m m' : Machine) (pid : ℕ) (record : ProcessRecord)
    (image : Image) : Prop where
  context : record.context = .empty
  sound : record.Sound
  memory : record.execution_memory = slot_memory L (pid - 1) image.code.length
  app_hash : record.app_hash = some image.app_hash
  cr3 : record.address_space.cr3 = if m.paging_enabled then L.page_directory (pid - 1) else 0
  mappings : record.address_space.private_user_mappings = true →
    m'.paging.Verified L (pid - 1) image.code.length (L.page_directory (pid - 1))
  paging : m'.paging = (m.paging.map_process L (pid - 1) image.code.length).1
  slots : m'.process_code_slots = m.copy_code (pid - 1) image.code
  hashed : HashedCode image.app_hash image.code

/-- A new process without memory. -/
structure Unloaded (m m' : Machine) (record : ProcessRecord) : Prop where
  context : record.context = .empty
  memory : record.execution_memory = .unassigned
  space : record.address_space = .unassigned
  same : SameMemory m m'

/-- A slice starts where the process was left, or at its code with a fresh stack. -/
def entry_of (identity : Identity) (context : SavedContext) : Entry :=
  if context.valid then .restore_user_context context
  else .enter_ring3 identity.execution_memory.code_base identity.execution_memory.stack_top

/-- User code or a call of it may change a byte of a code slot. -/
def MayWrite (L : Layout) (m : Machine) (event : Event) (slot offset : ℕ) : Prop :=
  (∃ pid, m.phase = .app pid) ∨ event.Unchecked ∨
    (∃ pid page, m.phase = .slice pid ∧ m.paging.user_page L m.kernel.active_cr3 page =
      some (slot_address L slot offset / PAGE_SIZE, true)) ∨
    ∃ pid a, m.phase = .slice pid ∧ m.kernel.UserWritable a ∧
      (m.physical_page L (a.toNat / PAGE_SIZE) = none ∨
        m.physical_page L (a.toNat / PAGE_SIZE) = some (slot_address L slot offset / PAGE_SIZE))

inductive Effect (L : Layout) (m : Machine) : Event → Machine → Prop
  | queued {m' : Machine} {pid : ProcessId} {record : ProcessRecord} {image : Image}
      (idle : m.phase = .shell) (adds : Adds m.process_table m'.process_table pid record)
      (state : record.state = .Ready) (loaded : Loaded L m m' pid record image)
      (after : After m m' (m.scheduler.run_queue ++ [pid]) .shell) :
      Effect L m (.command (some pid)) m'
  | refused {m' : Machine} {event : Event} {pid : ProcessId} {record : ProcessRecord}
      (idle : m.phase = .shell) (adds : Adds m.process_table m'.process_table pid record)
      (state : record.state = .Rejected)
      (memory : (∃ image, Loaded L m m' pid record image) ∨ Unloaded m m' record)
      (after : After m m' m.scheduler.run_queue .shell)
      (event_eq : event = .command none ∨ event = .run_app) : Effect L m event m'
  | entered {m' : Machine} {pid : ProcessId} {record : ProcessRecord} (idle : m.phase = .shell)
      (adds : Adds m.process_table m'.process_table pid record) (state : record.state = .Running)
      (memory : Unloaded m m' record) (after : After m m' m.scheduler.run_queue (.app pid)) :
      Effect L m .run_app m'
  | declined {m' : Machine} {event : Event} (idle : m.phase = .shell)
      (stays : Stays m.process_table m'.process_table) (after : After m m' m.scheduler.run_queue .shell)
      (memory : SameMemory m m') (event_eq : event = .command none ∨ event = .run_app) :
      Effect L m event m'
  | selected {m' : Machine} {pid : ProcessId} {rest : List ProcessId} {identity : Identity}
      {context : SavedContext} (idle : m.phase = .shell)
      (queue : m.scheduler.run_queue = pid :: rest)
      (moves : Moves m.process_table m'.process_table pid .Running none)
      (found : m.process_table.identity_of pid = some identity)
      (saved : m.process_table.context_of pid = some context) (cr3_ne : identity.cr3 ≠ 0)
      (cr3 : m'.kernel.active_cr3 = identity.cr3) (after : After m m' rest (.slice pid))
      (memory : SameMemory m m') :
      Effect L m (.scheduled (some pid) (some (entry_of identity context))) m'
  | stuck {m' : Machine} {pid : ProcessId} {rest : List ProcessId} {identity : Identity}
      (idle : m.phase = .shell) (queue : m.scheduler.run_queue = pid :: rest)
      (moves : Moves m.process_table m'.process_table pid .Scheduled none)
      (found : m.process_table.identity_of pid = some identity)
      (unmapped : identity.execution_memory.assigned = false ∨ identity.cr3 = 0)
      (after : After m m' rest .shell) (memory : SameMemory m m') :
      Effect L m (.scheduled (some pid) none) m'
  | empty {m' : Machine} (idle : m.phase = .shell) (queue : m.scheduler.run_queue = [])
      (stays : Stays m.process_table m'.process_table) (after : After m m' [] .shell)
      (memory : SameMemory m m') : Effect L m (.scheduled none none) m'
  | user {m' : Machine} {event : Event} (stays : Stays m.process_table m'.process_table)
      (after : After m m' m.scheduler.run_queue m.phase) (paging : m'.paging = m.paging)
      (cr3 : m'.kernel.active_cr3 = m.kernel.active_cr3)
      (writes : ∀ slot offset, m'.process_code_slots slot offset ≠ m.process_code_slots slot offset →
        MayWrite L m event slot offset)
      (event_eq : event = .user ∨ ∃ number admitted, event = .call number admitted) :
      Effect L m event m'
  | requeued {m' : Machine} {pid : ProcessId} {context : SavedContext} (busy : m.phase = .slice pid)
      (moves : Moves m.process_table m'.process_table pid .Ready (some context))
      (valid : context.valid = true) (after : After m m' (m.scheduler.run_queue ++ [pid]) .shell)
      (memory : SameMemory m m') : Effect L m (.left pid (some context)) m'
  | ended {m' : Machine} {pid : ProcessId} {state : ProcessState} (busy : m.phase.pid = some pid)
      (moves : Moves m.process_table m'.process_table pid state none)
      (settled : state = .Exited ∨ state = .Blocked) (after : After m m' m.scheduler.run_queue .shell)
      (memory : SameMemory m m') : Effect L m (.left pid none) m'

variable {m m' : Machine} {pid : ℕ} {f : ProcessRecord → ProcessRecord} {L : Layout}

/-! ## Writes to the table -/

theorem update_eq_some :
    m.update pid f = some m' ↔
      (m.process_table.get pid).isSome ∧ m' = m.with_table (m.process_table.modify pid f) := by
  unfold update
  split
  · rename_i record hget
    rw [hget]
    exact ⟨fun h => ⟨rfl, (Option.some.inj h).symm⟩, fun h => congrArg some h.2.symm⟩
  · rename_i hget
    rw [hget]
    simp

theorem Consistent.get_of_running (h : m.Consistent) (hpid : m.phase.pid = some pid) :
    ∃ record, m.process_table.get pid = some record ∧ record.state = .Running :=
  Option.map_eq_some_iff.mp ((h.running pid).mpr hpid)

theorem Consistent.get_of_ready (h : m.Consistent) (hpid : pid ∈ m.scheduler.run_queue) :
    ∃ record, m.process_table.get pid = some record ∧ record.state = .Ready :=
  Option.map_eq_some_iff.mp ((h.queue pid).mp hpid)

theorem Consistent.room (h : m.Consistent) {table : ProcessTable} {record : ProcessRecord}
    (adds : Adds m.process_table table pid record) :
    m.scheduler.run_queue.length < MAX_PROCESSES ∧ pid ∉ m.scheduler.run_queue := by
  have hnot : pid ∉ m.scheduler.run_queue := fun hmem => by
    obtain ⟨r, hget, -⟩ := h.get_of_ready hmem
    rw [adds.fresh] at hget
    cases hget
  refine ⟨Scheduler.length_lt_max adds.numbered h.nodup (fun q hq => ?_) ?_ hnot, hnot⟩
  · obtain ⟨r, hget, -⟩ := h.get_of_ready hq
    have hne : q ≠ pid := fun heq => hnot (heq ▸ hq)
    rw [adds.get, if_neg hne, hget]
    rfl
  · rw [adds.get_self]
    rfl

/-! ## Launching -/

/-- The machine with the code and the page tables of a new process. -/
def with_slot (L : Layout) (m : Machine) (pid : ℕ) (image : Image) (table : ProcessTable) : Machine :=
  { m with
    process_code_slots := m.copy_code (pid - 1) image.code
    kernel := { m.kernel with
      paging := (m.paging.map_process L (pid - 1) image.code.length).1
      process_table := table } }

theorem map_process_cr3 (P : Paging) {slot : ℕ} (code_length : ℕ) (hslot : slot < MAX_PROCESSES) :
    (P.map_process L slot code_length).2.1 = L.page_directory slot := by
  unfold Paging.map_process Paging.create_process_page_directory
  rw [if_neg (Nat.not_le.mpr hslot)]
  rfl

/-- A loader fills the slot and the record of a process that it has created. -/
theorem launch_eq_some {t table : ProcessTable} {path : Bytes} (image : Image) (isolation_proven : Bool)
    (adds : Adds t table pid (.new pid path)) :
    ∃ table' record, (m.with_table table).launch L pid image isolation_proven =
        some (m.with_slot L pid image table') ∧
      Adds t table' pid record ∧
      LaunchFacts record pid (slot_memory L (pid - 1) image.code.length) image.app_hash
        (if m.paging_enabled then L.page_directory (pid - 1) else 0)
        ((m.with_slot L pid image table').paging.verify_process_mapping_invariants L (pid - 1)
          (L.code_base (pid - 1)) image.code.length (L.stack_base (pid - 1))
          (L.page_directory (pid - 1))) := by
  have hslot : pid - 1 < MAX_PROCESSES := by
    have hbounds := adds.bounds
    omega
  have hpositive := L.positive
  have hdirectory : L.page_directory (pid - 1) ≠ 0 := by
    unfold Layout.page_directory
    omega
  have hcr3 := map_process_cr3 (L := L) m.paging image.code.length hslot
  unfold launch
  dsimp only
  rw [if_neg (Nat.not_le.mpr hslot)]
  have hpaging : (m.with_table table).paging = m.paging := rfl
  rw [hpaging, hcr3]
  unfold update
  have hget' : (m.with_table table).kernel.process_table.get pid = some (.new pid path) := adds.get_self
  rw [hget']
  refine ⟨_, _, rfl, adds.modify fun r => launched_record_pid r, launched_facts rfl _ hdirectory ..⟩

section Ready

variable {table : ProcessTable} {record : ProcessRecord}

/-- The machine with a new process in the queue. -/
def with_ready (m : Machine) (pid : ℕ) : Machine :=
  { m with
    kernel := { m.kernel with process_table := m.process_table.modify pid fun r => r.mark_ready.1 }
    scheduler := { m.scheduler with run_queue := m.scheduler.run_queue ++ [pid] } }

theorem mark_ready_state (hstate : record.state = .Verified) :
    record.mark_ready.1 = { record with state := .Ready, state_ready := true } := by
  have hcond : ¬ (record.state ≠ .Verified ∧ record.state ≠ .Yielded ∧ record.state ≠ .Preempted) :=
    fun h => h.1 hstate
  unfold ProcessRecord.mark_ready
  rw [if_neg hcond]

theorem make_ready_eq_some (h : m.Consistent) (adds : Adds m.process_table m'.process_table pid record)
    (hstate : record.state = .Verified) (hscheduler : m'.scheduler = m.scheduler) :
    m'.make_ready pid = some (m'.with_ready pid) ∧
      Adds m.process_table (m'.with_ready pid).process_table pid record.mark_ready.1 := by
  have hready := adds.modify fun r => (ProcessRecord.kept_mark_ready (r := r)).pid
  have hget : (m'.process_table.get pid).isSome := by
    rw [adds.get_self]
    rfl
  obtain ⟨hroom, hnot⟩ := h.room hready
  rw [← hscheduler] at hroom hnot
  have hqueue := Scheduler.enqueue_of_ready (s := m'.scheduler) hroom hnot
    (t := m'.process_table.modify pid fun r => r.mark_ready.1) <| by
      rw [state_of, hready.get_self, mark_ready_state hstate]
      rfl
  refine ⟨?_, hready⟩
  unfold make_ready
  rw [update_eq_some.mpr ⟨hget, rfl⟩]
  refine congrArg some ?_
  have htable : (m'.with_table (m'.process_table.modify pid fun r => r.mark_ready.1)).process_table =
    m'.process_table.modify pid fun r => r.mark_ready.1 := rfl
  have hsame : (m'.with_table (m'.process_table.modify pid fun r => r.mark_ready.1)).scheduler =
    m'.scheduler := rfl
  rw [htable, hsame, hqueue]
  rfl

end Ready

/-! ## The loaders -/

theorem Consistent.after (h : m.Consistent) {queue : List ProcessId}
    (hqueue : m'.scheduler.run_queue = queue) (hphase : m'.phase = m.phase)
    (hactive : m'.kernel.active_scheduled_pid = m.kernel.active_scheduled_pid)
    (hcurrent : m'.scheduler.current_pid = m.scheduler.current_pid)
    (hpaging : m'.paging_enabled = m.paging_enabled) (hstaged : m.StagedHashed → m'.StagedHashed) :
    After m m' queue m.phase :=
  ⟨hqueue, hphase, ⟨by rw [hactive, hphase, h.aligned.active],
    by rw [hcurrent, hphase, h.aligned.current]⟩, hpaging, hstaged⟩

theorem loaded_of_facts {table : ProcessTable} {record record' : ProcessRecord} {image : Image}
    (hm' : m'.process_code_slots = m.copy_code (pid - 1) image.code ∧
      m'.paging = (m.paging.map_process L (pid - 1) image.code.length).1)
    (facts : LaunchFacts record pid (slot_memory L (pid - 1) image.code.length) image.app_hash
      (if m.paging_enabled then L.page_directory (pid - 1) else 0)
      ((m.with_slot L pid image table).paging.verify_process_mapping_invariants L (pid - 1)
        (L.code_base (pid - 1)) image.code.length (L.stack_base (pid - 1)) (L.page_directory (pid - 1))))
    (kept : record.Kept record') (hcontext : record'.context = record.context)
    (hashed : HashedCode image.app_hash image.code) : Loaded L m m' pid record' image where
  context := hcontext.trans facts.context
  sound := kept.sound facts.sound
  memory := (congrArg Identity.execution_memory kept.identity).trans facts.memory
  app_hash := (congrArg Identity.app_hash kept.identity).trans facts.app_hash
  cr3 := (congrArg Identity.cr3 kept.identity).trans facts.cr3
  mappings hm := by
    rw [hm'.2]
    exact facts.mappings ((congrArg Identity.private_user_mappings kept.identity).symm.trans hm)
  paging := hm'.2
  slots := hm'.1
  hashed := hashed

/-- A process that was created and rejected at once. -/
theorem refused_of_create (h : m.Consistent) (idle : m.phase = .shell) {event : Event} {path : Bytes}
    {table : ProcessTable} {reason : String} (hcreate : m.process_table.create path = some (table, pid))
    (hm' : (m.with_table table).update pid (fun record => (record.mark_rejected reason).1) = some m')
    (event_eq : event = .command none ∨ event = .run_app) : Effect L m event m' := by
  have adds := adds_of_create h.numbered hcreate
  obtain ⟨-, rfl⟩ := update_eq_some.mp hm'
  have hadds := adds.modify fun r => (ProcessRecord.kept_mark_rejected (r := r) reason).pid
  refine .refused idle hadds rfl (.inr ⟨rfl, rfl, rfl, rfl, rfl⟩) ?_ event_eq
  rw [← idle]
  exact h.after rfl rfl rfl rfl rfl id

theorem declined_self (h : m.Consistent) (idle : m.phase = .shell) {event : Event}
    (event_eq : event = .command none ∨ event = .run_app) : Effect L m event m := by
  refine .declined idle (.refl _) ?_ ⟨rfl, rfl⟩ event_eq
  rw [← idle]
  exact h.after rfl rfl rfl rfl rfl id

theorem spawned_hashed (content : Bytes) :
    HashedCode (spawned_image content).app_hash (spawned_image content).code := by
  intro hlength
  refine .inl ?_
  have hall : content.take PROCESS_CODE_SLOT_SIZE = content := by
    refine List.take_of_length_le ?_
    simp only [spawned_image, List.length_take] at hlength
    omega
  simp only [spawned_image, hall]

section Loader

variable {m1 : Machine} {table : ProcessTable} {record : ProcessRecord} {image : Image}
  {queued : Option ProcessId}

/-- A machine that differs from another by a process with its code and page tables. -/
structure Launched (L : Layout) (m m1 : Machine) (pid : ℕ) (record : ProcessRecord) (image : Image) :
    Prop where
  adds : Adds m.process_table m1.process_table pid record
  facts : ∃ table, LaunchFacts record pid (slot_memory L (pid - 1) image.code.length) image.app_hash
    (if m.paging_enabled then L.page_directory (pid - 1) else 0)
    ((m.with_slot L pid image table).paging.verify_process_mapping_invariants L (pid - 1)
      (L.code_base (pid - 1)) image.code.length (L.stack_base (pid - 1)) (L.page_directory (pid - 1)))
  slots : m1.process_code_slots = m.copy_code (pid - 1) image.code
  paging : m1.paging = (m.paging.map_process L (pid - 1) image.code.length).1
  scheduler : m1.scheduler = m.scheduler
  phase : m1.phase = m.phase
  active : m1.kernel.active_scheduled_pid = m.kernel.active_scheduled_pid
  paging_enabled : m1.paging_enabled = m.paging_enabled
  staged : m.StagedHashed → m1.StagedHashed
  hashed : HashedCode image.app_hash image.code

theorem effect_ready (h : m.Consistent) (idle : m.phase = .shell)
    (launched : Launched L m m1 pid record image) (call : m1.make_ready pid = some m') :
    Effect L m (.command (some pid)) m' := by
  obtain ⟨table, facts⟩ := launched.facts
  obtain ⟨hready, hadds⟩ := make_ready_eq_some h launched.adds facts.state launched.scheduler
  rw [hready] at call
  obtain rfl := Option.some.inj call
  have hstate := mark_ready_state facts.state
  refine .queued idle hadds (by rw [hstate])
    (loaded_of_facts ⟨launched.slots, launched.paging⟩ facts ProcessRecord.kept_mark_ready
      (by rw [hstate]) launched.hashed) ?_
  rw [← idle]
  refine h.after ?_ launched.phase launched.active ?_ launched.paging_enabled launched.staged
  · exact congrArg (·.run_queue ++ [pid]) launched.scheduler
  · exact congrArg (·.current_pid) launched.scheduler

/-- A process whose isolation is not proven is rejected. -/
theorem effect_admit (h : m.Consistent) (idle : m.phase = .shell)
    (launched : Launched L m m1 pid record image)
    (call : m1.admit_isolated pid = some (m', queued)) : Effect L m (.command queued) m' := by
  unfold admit_isolated at call
  rw [launched.adds.get_self] at call
  dsimp only at call
  split_ifs at call
  · obtain ⟨m2, hm2, heq⟩ := Option.map_eq_some_iff.mp call
    obtain ⟨rfl, rfl⟩ := Prod.mk.inj heq
    exact effect_ready h idle launched hm2
  · obtain ⟨m2, hm2, heq⟩ := Option.map_eq_some_iff.mp call
    obtain ⟨rfl, rfl⟩ := Prod.mk.inj heq
    obtain ⟨-, rfl⟩ := update_eq_some.mp hm2
    obtain ⟨table, facts⟩ := launched.facts
    have hadds := launched.adds.modify fun r =>
      (ProcessRecord.kept_mark_rejected (r := r) "isolation_not_proven").pid
    have hcond : ¬ (record.state ≠ .Created ∧ record.state ≠ .Verified) := fun hne => hne.2 facts.state
    have hmark : (record.mark_rejected "isolation_not_proven").1 =
        { record with
          state := .Rejected
          exit_status := .Rejected "isolation_not_proven"
          state_rejected := true } := by
      unfold ProcessRecord.mark_rejected
      rw [if_neg hcond]
    refine .refused idle hadds (by rw [hmark]) (.inl ⟨image, loaded_of_facts
      ⟨launched.slots, launched.paging⟩ facts (ProcessRecord.kept_mark_rejected _) (by rw [hmark])
      launched.hashed⟩) ?_ (.inl rfl)
    rw [← idle]
    exact h.after (congrArg (·.run_queue) launched.scheduler) launched.phase launched.active
      (congrArg (·.current_pid) launched.scheduler) launched.paging_enabled launched.staged

theorem launched_of_launch {isolation_proven : Bool} {path : Bytes} (h : m.Consistent)
    (hcreate : m.process_table.create path = some (table, pid))
    (hashed : HashedCode image.app_hash image.code)
    (hlaunch : (m.with_table table).launch L pid image isolation_proven = some m1) :
    ∃ record, Launched L m m1 pid record image := by
  obtain ⟨table', record, hsome, adds, facts⟩ := launch_eq_some (L := L) (m := m) image isolation_proven
    (adds_of_create h.numbered hcreate)
  rw [hsome] at hlaunch
  obtain rfl := Option.some.inj hlaunch
  exact ⟨record, adds, ⟨_, facts⟩, rfl, rfl, rfl, rfl, rfl, rfl, id, hashed⟩

theorem effect_spawn (h : m.Consistent) (idle : m.phase = .shell) {app : Bytes}
    (call : m.spawn_app_command L app = some (m', queued)) : Effect L m (.command queued) m' := by
  unfold spawn_app_command at call
  dsimp only at call
  split at call
  · obtain ⟨rfl, rfl⟩ := Prod.mk.inj (Option.some.inj call)
    exact declined_self h idle (.inl rfl)
  · rename_i table pid hcreate
    split at call
    · rename_i content _
      obtain ⟨m1, hm1, call⟩ := Option.bind_eq_some_iff.mp call
      obtain ⟨m2, hm2, call⟩ := Option.bind_eq_some_iff.mp call
      obtain ⟨rfl, rfl⟩ := Prod.mk.inj (Option.some.inj call)
      obtain ⟨record, launched⟩ := launched_of_launch h hcreate (spawned_hashed content) hm1
      exact effect_ready h idle launched hm2
    · obtain ⟨m1, hm1, heq⟩ := Option.map_eq_some_iff.mp call
      obtain ⟨rfl, rfl⟩ := Prod.mk.inj heq
      exact refused_of_create h idle hcreate hm1 (.inl rfl)

theorem dynamic_code_hash {content : Bytes} {app : DynamicApp}
    (h : parse_dynamic_app content = .ok app) : app.actual_code_hash = sha256 app.code := by
  unfold parse_dynamic_app at h
  simp only [bind_eq_ok, reject_if_eq_ok] at h
  obtain ⟨-, -, -, -, -, -, -, -, name, -, version, -, -, -, -, -, -, -, -, -, -, -, -, -,
    -, -, -, -, -, -, h⟩ := h
  rw [← Except.ok.inj h]

theorem effect_load (h : m.Consistent) (idle : m.phase = .shell) {app_name : Bytes}
    (call : m.load_dynamic_app_command L app_name = some (m', queued)) :
    Effect L m (.command queued) m' := by
  unfold load_dynamic_app_command at call
  dsimp only at call
  split at call
  · obtain ⟨rfl, rfl⟩ := Prod.mk.inj (Option.some.inj call)
    exact declined_self h idle (.inl rfl)
  · split at call
    · obtain ⟨rfl, rfl⟩ := Prod.mk.inj (Option.some.inj call)
      exact declined_self h idle (.inl rfl)
    · rename_i hparse
      split at call
      · obtain ⟨rfl, rfl⟩ := Prod.mk.inj (Option.some.inj call)
        exact declined_self h idle (.inl rfl)
      · rename_i table pid hcreate
        obtain ⟨m1, hm1, call⟩ := Option.bind_eq_some_iff.mp call
        have hashed : HashedCode (dynamic_image hparse).app_hash (dynamic_image hparse).code :=
          fun _ => .inl (dynamic_code_hash hparse)
        obtain ⟨record, launched⟩ := launched_of_launch h hcreate hashed hm1
        exact effect_admit h idle launched call

/-- The launch of the staged code, which `run_v39_staged_app` marks as done before it. -/
theorem staged_launched (h : m.Consistent) (hpending : m.v39_execution_pending = true)
    (hcreate : m.process_table.create V39_APP_PATH = some (table, pid)) :
    ∃ m1 record, (({ m with v39_execution_done := true } : Machine).with_table table).launch L pid
        m.staged_image true = some m1 ∧ Launched L m m1 pid record m.staged_image := by
  have hashed : HashedCode m.staged_image.app_hash m.staged_image.code :=
    fun _ => .inr (h.staged hpending)
  obtain ⟨table', record, hsome, adds, facts⟩ := launch_eq_some (L := L)
    (m := { m with v39_execution_done := true }) m.staged_image true (adds_of_create h.numbered hcreate)
  exact ⟨_, record, hsome, adds, ⟨table', facts⟩, rfl, rfl, rfl, rfl, rfl, rfl, id, hashed⟩

theorem effect_staged (h : m.Consistent) (idle : m.phase = .shell)
    (call : m.run_v39_staged_app L = some (m', queued)) : Effect L m (.command queued) m' := by
  unfold run_v39_staged_app at call
  split_ifs at call with hpending
  · obtain ⟨rfl, rfl⟩ := Prod.mk.inj (Option.some.inj call)
    exact declined_self h idle (.inl rfl)
  · simp only [Bool.or_eq_true, Bool.not_eq_true', not_or, Bool.not_eq_false] at hpending
    dsimp only at call
    split at call
    · obtain ⟨rfl, rfl⟩ := Prod.mk.inj (Option.some.inj call)
      refine .declined idle (.refl _) ?_ ⟨rfl, rfl⟩ (.inl rfl)
      rw [← idle]
      exact h.after rfl rfl rfl rfl rfl id
    · rename_i table pid hcreate
      obtain ⟨m1, hm1, call⟩ := Option.bind_eq_some_iff.mp call
      obtain ⟨m2, record, hsome, launched⟩ := staged_launched (L := L) h hpending.1 hcreate
      obtain rfl := Option.some.inj (hsome.symm.trans hm1)
      exact effect_admit h idle launched call

theorem effect_run (h : m.Consistent) (idle : m.phase = .shell) {app : Bytes}
    (call : m.run_app_command app = some m') : Effect L m .run_app m' := by
  unfold run_app_command at call
  dsimp only at call
  split at call
  · obtain rfl := Option.some.inj call
    exact declined_self h idle (.inr rfl)
  · rename_i table pid hcreate
    split at call
    · rename_i content _
      obtain ⟨m1, hm1, call⟩ := Option.bind_eq_some_iff.mp call
      obtain ⟨-, rfl⟩ := update_eq_some.mp hm1
      obtain rfl := Option.some.inj call
      have adds := (adds_of_create h.numbered hcreate).modify
        (f := fun r => (r.mark_verified (sha256 content)).1.mark_running.1) fun r => by
          unfold ProcessRecord.mark_verified ProcessRecord.mark_running
          split_ifs
          all_goals rfl
      refine .entered idle adds rfl ⟨rfl, rfl, rfl, rfl, rfl⟩ ⟨rfl, rfl, ⟨?_, ?_⟩, rfl, id⟩
      · exact h.aligned.active.trans (by rw [idle]; rfl)
      · exact h.aligned.current.trans (by rw [idle]; rfl)
    · exact refused_of_create h idle hcreate call (.inr rfl)

end Loader

end Machine

end Bogbin.Kernel
