import Bogbin.Kernel.SchedulerLaw

/-!
# The memory of the processes over whole runs

In every run from the boot a launched process keeps the slot, the page tables and the directory that its
loader gave it, a slice runs under the directory of its process, and isolation is enforced only over
mappings that pass the check of the loaders.
-/

namespace Bogbin.Kernel

open Buffer Bogbin.Core Bogbin.Core.ProcessTable

theorem verified_congr {L : Layout} {P P' : Paging} {slot code_length cr3 : ℕ} (hsame : SameSlot P P' slot)
    (h : P.Verified L slot code_length cr3) : P'.Verified L slot code_length cr3 := by
  obtain ⟨-, hlow, hprivate⟩ := hsame
  unfold Paging.Verified Paging.verify_process_mapping_invariants at h ⊢
  rw [hlow, hprivate]
  exact h

namespace Machine

variable {m m' : Machine} {pid : ℕ} {L : Layout} {event : Event} {events : List Event}
  {overflow_checks : Bool} {identity : Identity} {code_length : ℕ}

/-- A process with a code of a length, in its slot. -/
structure InSlot (L : Layout) (m : Machine) (pid : ℕ) (identity : Identity) (code_length : ℕ) : Prop where
  length : code_length ≤ PROCESS_CODE_SLOT_SIZE
  memory : identity.execution_memory = slot_memory L (pid - 1) code_length
  cr3 : identity.cr3 = if m.paging_enabled then L.page_directory (pid - 1) else 0
  built : Built L m.paging (pid - 1) code_length
  verified : identity.private_user_mappings = true →
    m.paging.Verified L (pid - 1) code_length (L.page_directory (pid - 1))

theorem InSlot.congr (h : InSlot L m pid identity code_length)
    (hsame : SameSlot m.paging m'.paging (pid - 1)) (hpaging : m'.paging_enabled = m.paging_enabled) :
    InSlot L m' pid identity code_length where
  length := h.length
  memory := h.memory
  cr3 := by rw [hpaging, h.cr3]
  built := h.built.congr hsame
  verified hprivate := verified_congr hsame (h.verified hprivate)

/-- A process that no loader has put into a slot. -/
structure NoSlot (identity : Identity) : Prop where
  memory : identity.execution_memory = .unassigned
  cr3 : identity.cr3 = 0
  mappings : identity.private_user_mappings = false

def settled_states : List ProcessState := [.Ready, .Running, .Scheduled, .Rejected, .Exited, .Blocked]

/-- The memory of all processes is as their loaders left it. -/
structure Mapped (L : Layout) (m : Machine) : Prop where
  sound : m.process_table.Sound
  states : ∀ pid state, m.process_table.state_of pid = some state → state ∈ settled_states
  memory : ∀ pid identity, m.process_table.identity_of pid = some identity →
    (∃ code_length, InSlot L m pid identity code_length) ∨ NoSlot identity
  ready : ∀ pid identity, m.process_table.state_of pid = some .Ready →
    m.process_table.identity_of pid = some identity → ∃ code_length, InSlot L m pid identity code_length
  stuck : ∀ pid, m.process_table.state_of pid = some .Scheduled → m.paging_enabled = false
  slice : ∀ pid, m.phase = .slice pid → ∃ identity code_length,
    m.process_table.identity_of pid = some identity ∧ InSlot L m pid identity code_length ∧
      m.kernel.active_cr3 = L.page_directory (pid - 1)

theorem sameSlot_of_eq {slot : ℕ} (h : m'.paging = m.paging) : SameSlot m.paging m'.paging slot := by
  rw [h]
  exact ⟨rfl, rfl, rfl⟩

theorem SameMemory.slot {slot : ℕ} (h : SameMemory m m') : SameSlot m.paging m'.paging slot :=
  sameSlot_of_eq h.paging

/-- A slot is not that of a new process. -/
theorem Loaded.other {record : ProcessRecord} {image : Image} {q : ℕ} (h : Loaded L m m' pid record image)
    (hbounds : 1 ≤ pid ∧ pid ≤ MAX_PROCESSES) (hq : 1 ≤ q) (hne : q ≠ pid) :
    SameSlot m.paging m'.paging (q - 1) := by
  rw [h.paging]
  exact map_process_other L _ _ (by omega) (by omega)

theorem Loaded.inSlot {record : ProcessRecord} {image : Image} (h : Loaded L m m' pid record image)
    (hbounds : 1 ≤ pid ∧ pid ≤ MAX_PROCESSES) (hpaging : m'.paging_enabled = m.paging_enabled) :
    InSlot L m' pid record.identity image.code.length where
  length := image.fits
  memory := h.memory
  cr3 := by rw [hpaging]; exact h.cr3
  built := by
    rw [h.paging]
    exact map_process_built L _ _ (by omega)
  verified := h.mappings

theorem Unloaded.noSlot {record : ProcessRecord} (h : Unloaded m m' record) : NoSlot record.identity where
  memory := h.memory
  cr3 := congrArg AddressSpaceMetadata.cr3 h.space
  mappings := congrArg AddressSpaceMetadata.private_user_mappings h.space

theorem pos_of_identity (h : m.Consistent) (hpid : m.process_table.identity_of pid = some identity) :
    1 ≤ pid ∧ pid ≤ MAX_PROCESSES := by
  obtain ⟨record, hget, -⟩ := Option.map_eq_some_iff.mp hpid
  have hbounds := bounds_of_get h.numbered hget
  exact ⟨hbounds.1, hbounds.2.trans h.numbered.bounded⟩

/-- The memory behind a new process. -/
theorem mapped_of_adds {record : ProcessRecord} (hc : m.Consistent) (h : Mapped L m)
    (adds : Adds m.process_table m'.process_table pid record)
    (memory : (∃ image, Loaded L m m' pid record image) ∨ Unloaded m m' record)
    (hpaging : m'.paging_enabled = m.paging_enabled) (hstate : record.state ∈ settled_states)
    (hready : record.state = .Ready → ∃ image, Loaded L m m' pid record image)
    (hscheduled : record.state ≠ .Scheduled) (hphase : ∀ q, m'.phase ≠ .slice q) : Mapped L m' := by
  have hother (q : ℕ) (hq : 1 ≤ q) (hne : q ≠ pid) : SameSlot m.paging m'.paging (q - 1) := by
    rcases memory with ⟨image, hloaded⟩ | hunloaded
    · exact hloaded.other adds.bounds hq hne
    · exact hunloaded.same.slot
  have hidentity (q : ℕ) (i : Identity) (hne : q ≠ pid)
      (hi : m'.process_table.identity_of q = some i) : m.process_table.identity_of q = some i := by
    rwa [identity_of, adds.map, if_neg hne] at hi
  refine ⟨fun q r hget => ?_, fun q s hs => ?_, fun q i hi => ?_, fun q i hs hi => ?_, fun q hs => ?_,
    fun q hq => absurd hq (hphase q)⟩
  · rw [adds.get] at hget
    split_ifs at hget
    · obtain rfl := Option.some.inj hget
      rcases memory with ⟨image, hloaded⟩ | hunloaded
      · exact hloaded.sound
      · intro henforced
        rw [hunloaded.space] at henforced
        cases henforced
    · exact h.sound q r hget
  · rw [state_of, adds.map] at hs
    split_ifs at hs
    · exact Option.some.inj hs ▸ hstate
    · exact h.states q s hs
  · by_cases hq : q = pid
    · subst hq
      rw [identity_of, adds.get_self] at hi
      obtain rfl := Option.some.inj hi
      rcases memory with ⟨image, hloaded⟩ | hunloaded
      · exact .inl ⟨_, hloaded.inSlot adds.bounds hpaging⟩
      · exact .inr hunloaded.noSlot
    · have hi' := hidentity q i hq hi
      rcases h.memory q i hi' with ⟨len, hslot⟩ | hnone
      · exact .inl ⟨len, hslot.congr (hother q (pos_of_identity hc hi').1 hq) hpaging⟩
      · exact .inr hnone
  · by_cases hq : q = pid
    · subst hq
      rw [state_of, adds.get_self] at hs
      rw [identity_of, adds.get_self] at hi
      obtain rfl := Option.some.inj hi
      obtain ⟨image, hloaded⟩ := hready (Option.some.inj hs)
      exact ⟨_, hloaded.inSlot adds.bounds hpaging⟩
    · have hi' := hidentity q i hq hi
      rw [state_of, adds.map, if_neg hq] at hs
      obtain ⟨len, hslot⟩ := h.ready q i hs hi'
      exact ⟨len, hslot.congr (hother q (pos_of_identity hc hi').1 hq) hpaging⟩
  · rw [state_of, adds.map] at hs
    split_ifs at hs
    · exact absurd (Option.some.inj hs) hscheduled
    · rw [hpaging]
      exact h.stuck q hs

/-- The memory behind a step that adds no process. -/
theorem mapped_of_same (h : Mapped L m)
    (identities : ∀ q, m'.process_table.identity_of q = m.process_table.identity_of q)
    (sound : m.process_table.Sound → m'.process_table.Sound) (paging : m'.paging = m.paging)
    (hpaging : m'.paging_enabled = m.paging_enabled)
    (hstates : ∀ q state, m'.process_table.state_of q = some state → state ∈ settled_states)
    (hready : ∀ q identity, m'.process_table.state_of q = some .Ready →
      m.process_table.identity_of q = some identity → ∃ code_length, InSlot L m q identity code_length)
    (hstuck : ∀ q, m'.process_table.state_of q = some .Scheduled → m.paging_enabled = false)
    (hslice : ∀ q, m'.phase = .slice q → ∃ identity code_length,
      m.process_table.identity_of q = some identity ∧ InSlot L m q identity code_length ∧
        m'.kernel.active_cr3 = L.page_directory (q - 1)) : Mapped L m' where
  sound := sound h.sound
  states := hstates
  memory q i hi := by
    rw [identities] at hi
    rcases h.memory q i hi with ⟨len, hslot⟩ | hnone
    · exact .inl ⟨len, hslot.congr (sameSlot_of_eq paging) hpaging⟩
    · exact .inr hnone
  ready q i hs hi := by
    rw [identities] at hi
    obtain ⟨len, hslot⟩ := hready q i hs hi
    exact ⟨len, hslot.congr (sameSlot_of_eq paging) hpaging⟩
  stuck q hs := hpaging.trans (hstuck q hs)
  slice q hq := by
    obtain ⟨i, len, hi, hslot, hcr3⟩ := hslice q hq
    exact ⟨i, len, (identities q).trans hi, hslot.congr (sameSlot_of_eq paging) hpaging, hcr3⟩

/-- The memory behind a move that does not queue a process. -/
theorem mapped_of_moves {state : ProcessState} {context : Option SavedContext} {queue : List ProcessId}
    {phase : Phase} (h : Mapped L m) (moves : Moves m.process_table m'.process_table pid state context)
    (memory : SameMemory m m') (after : After m m' queue phase) (hstate : state ∈ settled_states)
    (hready : state = .Ready → ∀ identity, m.process_table.identity_of pid = some identity →
      ∃ code_length, InSlot L m pid identity code_length)
    (hstuck : state = .Scheduled → m.paging_enabled = false)
    (hslice : ∀ q, phase = .slice q → ∃ identity code_length,
      m.process_table.identity_of q = some identity ∧ InSlot L m q identity code_length ∧
        m'.kernel.active_cr3 = L.page_directory (q - 1)) : Mapped L m' := by
  refine mapped_of_same h moves.identities moves.sound memory.paging after.paging_enabled
    (fun q s hs => ?_) (fun q i hs hi => ?_) (fun q hs => ?_) fun q hq => hslice q (after.phase ▸ hq)
  · rw [moves.states] at hs
    split_ifs at hs
    · exact Option.some.inj hs ▸ hstate
    · exact h.states q s hs
  · rw [moves.states] at hs
    split_ifs at hs with hq
    · subst hq
      exact hready (Option.some.inj hs) i hi
    · exact h.ready q i hs hi
  · rw [moves.states] at hs
    split_ifs at hs
    · exact hstuck (Option.some.inj hs)
    · exact h.stuck q hs

theorem mapped_of_stays {queue : List ProcessId} {phase : Phase} (h : Mapped L m)
    (stays : Stays m.process_table m'.process_table) (paging : m'.paging = m.paging)
    (after : After m m' queue phase)
    (hslice : ∀ q, phase = .slice q → m.phase = .slice q ∧ m'.kernel.active_cr3 = m.kernel.active_cr3) :
    Mapped L m' := by
  refine mapped_of_same h stays.identities stays.sound paging after.paging_enabled
    (fun q s hs => h.states q s ((stays.states q).symm.trans hs))
    (fun q i hs hi => h.ready q i ((stays.states q).symm.trans hs) hi)
    (fun q hs => h.stuck q ((stays.states q).symm.trans hs)) fun q hq => ?_
  obtain ⟨hphase, hcr3⟩ := hslice q (after.phase ▸ hq)
  obtain ⟨i, len, hi, hslot, hactive⟩ := h.slice q hphase
  exact ⟨i, len, hi, hslot, hcr3.trans hactive⟩

theorem slot_cr3 (h : InSlot L m pid identity code_length) :
    identity.execution_memory.assigned = true ∧
      (identity.cr3 ≠ 0 → identity.cr3 = L.page_directory (pid - 1)) ∧
      (identity.cr3 = 0 → m.paging_enabled = false) := by
  have hpositive := L.positive
  have hdirectory : L.page_directory (pid - 1) ≠ 0 := by
    unfold Layout.page_directory
    omega
  have hcr3 := h.cr3
  refine ⟨by rw [h.memory]; rfl, fun hne => ?_, fun hzero => ?_⟩
  · split_ifs at hcr3
    · exact hcr3
    · exact absurd hcr3 hne
  · split_ifs at hcr3 with hpaging
    · exact absurd (hcr3.symm.trans hzero) hdirectory
    · exact Bool.not_eq_true _ ▸ hpaging

theorem mapped_of_effect (hc : m.Consistent) (h : Mapped L m) (effect : Effect L m event m') :
    Mapped L m' := by
  have hshell (q : ℕ) (hphase : m'.phase = .shell) : m'.phase ≠ .slice q := by
    rw [hphase]
    exact Phase.noConfusion
  have hnone (q : ℕ) (hphase : Phase.shell = .slice q) : False := Phase.noConfusion hphase
  cases effect with
  | queued idle adds state loaded after =>
    exact mapped_of_adds hc h adds (.inl ⟨_, loaded⟩) after.paging_enabled (by rw [state]; decide)
      (fun _ => ⟨_, loaded⟩) (by rw [state]; decide) fun q => hshell q after.phase
  | refused idle adds state memory after event_eq =>
    exact mapped_of_adds hc h adds memory after.paging_enabled (by rw [state]; decide)
      (fun hready => by rw [state] at hready; cases hready) (by rw [state]; decide)
      fun q => hshell q after.phase
  | entered idle adds state memory after =>
    exact mapped_of_adds hc h adds (.inr memory) after.paging_enabled (by rw [state]; decide)
      (fun hready => by rw [state] at hready; cases hready) (by rw [state]; decide)
      fun q => by rw [after.phase]; exact Phase.noConfusion
  | declined idle stays after memory event_eq =>
    exact mapped_of_stays h stays memory.paging after fun q hq => (hnone q hq).elim
  | @selected _ pid rest identity context idle queue moves found saved cr3_ne cr3 after memory =>
    have hready := (hc.queue pid).mp (queue ▸ List.mem_cons_self)
    obtain ⟨len, hslot⟩ := h.ready pid identity hready found
    refine mapped_of_moves h moves memory after (by decide) ProcessState.noConfusion
      ProcessState.noConfusion fun q hq => ?_
    obtain rfl : pid = q := Phase.slice.inj hq
    exact ⟨identity, len, found, hslot, cr3.trans ((slot_cr3 hslot).2.1 cr3_ne)⟩
  | @stuck _ pid rest identity idle queue moves found unmapped after memory =>
    have hready := (hc.queue pid).mp (queue ▸ List.mem_cons_self)
    obtain ⟨len, hslot⟩ := h.ready pid identity hready found
    obtain ⟨hassigned, -, hoff⟩ := slot_cr3 hslot
    refine mapped_of_moves h moves memory after (by decide) ProcessState.noConfusion (fun _ => ?_)
      fun q hq => (hnone q hq).elim
    rcases unmapped with hunassigned | hzero
    · rw [hassigned] at hunassigned
      cases hunassigned
    · exact hoff hzero
  | empty idle queue stays after memory =>
    exact mapped_of_stays h stays memory.paging after fun q hq => (hnone q hq).elim
  | user stays after paging cr3 writes event_eq =>
    exact mapped_of_stays h stays paging after fun q hq => ⟨hq, cr3⟩
  | @requeued _ pid context busy moves valid after memory =>
    obtain ⟨i, len, hi, hslot, -⟩ := h.slice pid busy
    refine mapped_of_moves h moves memory after (by decide) (fun _ j hj => ?_) ProcessState.noConfusion
      fun q hq => (hnone q hq).elim
    obtain rfl := Option.some.inj (hi.symm.trans hj)
    exact ⟨len, hslot⟩
  | ended busy moves settled after memory =>
    refine mapped_of_moves h moves memory after ?_ ?_ ?_ fun q hq => (hnone q hq).elim
    · rcases settled with rfl | rfl
      · decide
      · decide
    · rintro rfl
      rcases settled with heq | heq
      · cases heq
      · cases heq
    · rintro rfl
      rcases settled with heq | heq
      · cases heq
      · cases heq

theorem mapped_boot (entries : Option (List BogFsEntry)) (kernel_cr3 : ℕ) (paging_enabled : Bool)
    (d : Option Disk) : Mapped L (boot entries kernel_cr3 paging_enabled d) := by
  have hbase (m : Machine) (htable : m.process_table = .new) (hphase : m.phase = .shell) : Mapped L m := by
    have hget (q : ℕ) : m.process_table.get q = none := by
      rw [htable]
      rfl
    refine ⟨fun q r hr => ?_, fun q s hs => ?_, fun q i hi => ?_, fun q i hs _ => ?_, fun q hs => ?_,
      fun q hq => ?_⟩
    · rw [hget] at hr
      cases hr
    · rw [state_of, hget] at hs
      cases hs
    · rw [identity_of, hget] at hi
      cases hi
    · rw [state_of, hget] at hs
      cases hs
    · rw [state_of, hget] at hs
      cases hs
    · rw [hphase] at hq
      cases hq
  rcases boot_cases entries kernel_cr3 paging_enabled d with heq | ⟨staging, -, heq⟩
  · exact heq ▸ hbase _ rfl rfl
  · exact heq ▸ hbase _ rfl rfl

theorem mapped_of_runs {start : Machine} (hc : start.Consistent) (hstart : Mapped L start)
    (run : Runs overflow_checks L start events m) : Mapped L m := by
  induction run with
  | nil => exact hstart
  | step run step ih =>
    have hm := consistent_of_runs hc run
    exact mapped_of_effect hm ih (effect_of_step hm step)

/-! ## Where a process is -/

/-- In every run from the boot each process is in one place: queued once, in user mode, over, or, with
paging off, selected without page tables. -/
theorem place_of_process {entries : Option (List BogFsEntry)} {kernel_cr3 : ℕ} {paging_enabled : Bool}
    {d : Option Disk} {state : ProcessState}
    (run : Runs overflow_checks L (boot entries kernel_cr3 paging_enabled d) events m)
    (hpid : m.process_table.state_of pid = some state) : Place m pid state := by
  have hboot := consistent_boot entries kernel_cr3 paging_enabled d
  have hc := consistent_of_runs hboot run
  have hmapped := mapped_of_runs hboot (mapped_boot (L := L) entries kernel_cr3 paging_enabled d) run
  have hqueue (hne : state ≠ .Ready) : pid ∉ m.scheduler.run_queue := by
    rw [hc.queue, hpid]
    exact fun heq => hne (Option.some.inj heq)
  have hphase (hne : state ≠ .Running) : m.phase.pid ≠ some pid := by
    intro hrunning
    rw [← hc.running, hpid] at hrunning
    exact hne (Option.some.inj hrunning)
  have hstate := hmapped.states pid state hpid
  unfold settled_states at hstate
  simp only [List.mem_cons, List.not_mem_nil, or_false] at hstate
  rcases hstate with rfl | rfl | rfl | rfl | rfl | rfl
  · exact .ready (List.count_eq_one_of_mem hc.nodup ((hc.queue pid).mpr hpid))
      (hphase ProcessState.noConfusion)
  · exact .running (hqueue ProcessState.noConfusion) ((hc.running pid).mp hpid)
  · exact .unmapped (hqueue ProcessState.noConfusion) (hphase ProcessState.noConfusion)
      (hmapped.stuck pid hpid)
  · exact .over (hqueue ProcessState.noConfusion) (hphase ProcessState.noConfusion) (.inl rfl)
  · exact .over (hqueue ProcessState.noConfusion) (hphase ProcessState.noConfusion) (.inr (.inl rfl))
  · exact .over (hqueue ProcessState.noConfusion) (hphase ProcessState.noConfusion) (.inr (.inr rfl))

theorem place_of_process_spawned : Place demo_spawned 1 .Ready :=
  place_of_process demo_spawned_run (by decide +kernel)

/-! ## Contexts -/

/-- The context that a process has left in an event. -/
def Event.saved_by (pid : ProcessId) : Event → Option SavedContext
  | .left q saved => if q = pid then saved else none
  | _ => none

/-- The contexts that a process has left, in their order. -/
def saved_contexts (pid : ProcessId) (events : List Event) : List SavedContext :=
  events.filterMap (Event.saved_by pid)

/-- The context of a record is the last one that its process has left. -/
structure Contexts (events : List Event) (m : Machine) : Prop where
  absent : ∀ pid, m.process_table.get pid = none → saved_contexts pid events = []
  present : ∀ pid context, m.process_table.context_of pid = some context →
    context = (saved_contexts pid events).getLast?.getD .empty
  valid : ∀ pid, ∀ context ∈ saved_contexts pid events, context.valid = true

theorem saved_contexts_concat (events : List Event) (event : Event) :
    saved_contexts pid (events ++ [event]) =
      saved_contexts pid events ++ (event.saved_by pid).toList := by
  unfold saved_contexts
  rw [List.filterMap_append]
  cases hsaved : event.saved_by pid with
  | none => simp [hsaved]
  | some context => simp [hsaved]

theorem Contexts.silent (h : Contexts events m) (hsilent : ∀ pid, event.saved_by pid = none)
    (hget : ∀ pid, m'.process_table.get pid = none → m.process_table.get pid = none)
    (hcontext : ∀ pid context, m'.process_table.context_of pid = some context →
      m.process_table.context_of pid = some context ∨
        m.process_table.get pid = none ∧ context = .empty) :
    Contexts (events ++ [event]) m' := by
  have hsame (pid : ℕ) : saved_contexts pid (events ++ [event]) = saved_contexts pid events := by
    rw [saved_contexts_concat, hsilent]
    exact List.append_nil _
  refine ⟨fun pid hnone => ?_, fun pid context hsome => ?_, fun pid => ?_⟩
  · rw [hsame]
    exact h.absent pid (hget pid hnone)
  · rw [hsame]
    rcases hcontext pid context hsome with hold | ⟨hnone, rfl⟩
    · exact h.present pid context hold
    · rw [h.absent pid hnone]
      rfl
  · rw [hsame]
    exact h.valid pid

theorem get_eq_none_iff {table : ProcessTable} : table.get pid = none ↔ table.context_of pid = none := by
  rw [context_of, Option.map_eq_none_iff]

theorem Contexts.stays (h : Contexts events m) (hsilent : ∀ pid, event.saved_by pid = none)
    (contexts : ∀ q, m'.process_table.context_of q = m.process_table.context_of q) :
    Contexts (events ++ [event]) m' := by
  refine h.silent hsilent (fun q hnone => ?_) fun q context hsome => .inl ((contexts q).symm.trans hsome)
  rw [get_eq_none_iff] at hnone ⊢
  exact (contexts q).symm.trans hnone

theorem Contexts.adds {record : ProcessRecord} (h : Contexts events m)
    (hsilent : ∀ pid, event.saved_by pid = none)
    (adds : Adds m.process_table m'.process_table pid record) (hcontext : record.context = .empty) :
    Contexts (events ++ [event]) m' := by
  refine h.silent hsilent (fun q hnone => ?_) fun q context hsome => ?_
  · rw [adds.get] at hnone
    split_ifs at hnone
    exact hnone
  · rw [context_of, adds.map] at hsome
    split_ifs at hsome with hq
    · exact .inr ⟨hq ▸ adds.fresh, (Option.some.inj hsome).symm.trans hcontext⟩
    · exact .inl hsome

theorem contexts_of_moves {table : ProcessTable} {state : ProcessState}
    (moves : Moves m.process_table table pid state none) (q : ℕ) :
    table.context_of q = m.process_table.context_of q := by
  rw [moves.contexts]
  simp only [Option.getD_none, ite_self]
  exact Option.map_id'

theorem contexts_of_effect (h : Contexts events m) (effect : Effect L m event m') :
    Contexts (events ++ [event]) m' := by
  have hnone (hevent : event = .command none ∨ event = .run_app) (q : ℕ) : event.saved_by q = none := by
    rcases hevent with rfl | rfl
    · rfl
    · rfl
  cases effect with
  | queued idle adds state loaded after => exact h.adds (fun q => rfl) adds loaded.context
  | refused idle adds state memory after event_eq =>
    refine h.adds (hnone event_eq) adds ?_
    rcases memory with ⟨image, loaded⟩ | unloaded
    · exact loaded.context
    · exact unloaded.context
  | entered idle adds state memory after => exact h.adds (fun q => rfl) adds memory.context
  | declined idle stays after memory event_eq => exact h.stays (hnone event_eq) stays.contexts
  | selected idle queue moves found saved cr3_ne cr3 after memory =>
    exact h.stays (fun q => rfl) (contexts_of_moves moves)
  | stuck idle queue moves found unmapped after memory =>
    exact h.stays (fun q => rfl) (contexts_of_moves moves)
  | empty idle queue stays after memory => exact h.stays (fun q => rfl) stays.contexts
  | user stays after paging cr3 writes event_eq =>
    refine h.stays (fun q => ?_) stays.contexts
    rcases event_eq with rfl | ⟨number, admitted, rfl⟩
    · rfl
    · rfl
  | @requeued _ pid context busy moves valid after memory =>
    have hsaved (q : ℕ) : (Event.left pid (some context)).saved_by q =
        if pid = q then some context else none := rfl
    refine ⟨fun q hq => ?_, fun q c hq => ?_, fun q c hq => ?_⟩
    · have hpid : q ≠ pid := fun heq => by
        have hstate := moves.states q
        rw [if_pos heq, state_of, hq] at hstate
        cases hstate
      rw [get_eq_none_iff, moves.contexts, Option.map_eq_none_iff, ← get_eq_none_iff] at hq
      rw [saved_contexts_concat, h.absent q hq, hsaved, if_neg (Ne.symm hpid)]
      rfl
    · rw [moves.contexts] at hq
      obtain ⟨c', hc', heq⟩ := Option.map_eq_some_iff.mp hq
      rw [saved_contexts_concat, hsaved]
      by_cases hpid : q = pid
      · rw [if_pos hpid] at heq
        rw [if_pos hpid.symm, ← heq]
        simp
      · rw [if_neg hpid] at heq
        rw [if_neg (Ne.symm hpid), Option.toList_none, List.append_nil, ← heq]
        exact h.present q c' hc'
    · rw [saved_contexts_concat, hsaved, List.mem_append] at hq
      rcases hq with hq | hq
      · exact h.valid q c hq
      · split_ifs at hq
        · exact List.mem_singleton.mp hq ▸ valid
        · exact absurd hq List.not_mem_nil
  | @ended _ pid state busy moves settled after memory =>
    refine h.stays (fun q => ?_) (contexts_of_moves moves)
    exact ite_self _

theorem contexts_of_runs {entries : Option (List BogFsEntry)} {kernel_cr3 : ℕ} {paging_enabled : Bool}
    {d : Option Disk}
    (run : Runs overflow_checks L (boot entries kernel_cr3 paging_enabled d) events m) :
    Contexts events m := by
  have hboot := consistent_boot entries kernel_cr3 paging_enabled d
  induction run with
  | nil =>
    have htable : (boot entries kernel_cr3 paging_enabled d).process_table = .new := by
      rcases boot_cases entries kernel_cr3 paging_enabled d with heq | ⟨staging, -, heq⟩
      · rw [heq]
        rfl
      · rw [heq]
        rfl
    refine ⟨fun q _ => rfl, fun q context hq => ?_, fun q context hq => absurd hq List.not_mem_nil⟩
    rw [htable] at hq
    cases hq
  | step run step ih =>
    exact contexts_of_effect ih (effect_of_step (consistent_of_runs hboot run) step)

/-- A slice enters user mode with the context that its process has left last, whatever ran in between;
the first slice enters at the start of the code with an empty stack. -/
theorem slice_entry {entries : Option (List BogFsEntry)} {kernel_cr3 : ℕ} {paging_enabled : Bool}
    {d : Option Disk} {entry : Entry}
    (run : Runs overflow_checks L (boot entries kernel_cr3 paging_enabled d)
      (events ++ [.scheduled (some pid) (some entry)]) m) :
    entry = match (saved_contexts pid events).getLast? with
      | some context => .restore_user_context context
      | none => .enter_ring3 (L.code_base (pid - 1)) (L.stack_base (pid - 1) + PROCESS_STACK_SLOT_SIZE) := by
  obtain ⟨before, hrun, step⟩ := runs_concat run
  have hboot := consistent_boot entries kernel_cr3 paging_enabled d
  have hc := consistent_of_runs hboot hrun
  have hmapped := mapped_of_runs hboot (mapped_boot (L := L) entries kernel_cr3 paging_enabled d) hrun
  have hcontexts := contexts_of_runs hrun
  cases effect_of_step hc step with
  | @selected _ _ _ identity context idle queue moves found saved cr3_ne cr3 after memory =>
    have hready := (hc.queue pid).mp (queue ▸ List.mem_cons_self)
    obtain ⟨len, hslot⟩ := hmapped.ready pid identity hready found
    have hlast := hcontexts.present pid context saved
    cases hsaved : (saved_contexts pid events).getLast? with
    | none =>
      rw [hsaved] at hlast
      rw [hlast, entry_of, if_neg Bool.noConfusion, hslot.memory]
      rfl
    | some last =>
      rw [hsaved] at hlast
      have hvalid := hcontexts.valid pid last (List.mem_of_getLast? hsaved)
      rw [hlast, entry_of, Option.getD_some, if_pos hvalid]
  | user stays after paging cr3 writes event_eq =>
    rcases event_eq with heq | ⟨number, admitted, heq⟩
    · cases heq
    · cases heq
  | refused idle adds state memory after event_eq =>
    rcases event_eq with heq | heq
    · cases heq
    · cases heq
  | declined idle stays after memory event_eq =>
    rcases event_eq with heq | heq
    · cases heq
    · cases heq

/-- The process of the run is interrupted in its second tick. -/
def demo_regs : SyscallRegisters := ⟨0, 0, 0, 0, 0, 0, 0, 0, 5, 3, 0, 0, 0⟩
def demo_ticked : Machine := ((demo_slice.handle_timer_interrupt demo_regs).map (·.1)).getD demo_slice
def demo_interrupted : Machine :=
  ((demo_ticked.handle_timer_interrupt demo_regs).map (·.1)).getD demo_slice
def demo_preempted : Machine := (demo_interrupted.longjmp_to_kernel PREEMPT_EXIT_CODE).getD demo_slice

theorem demo_preempted_run : ∃ entry, Runs true demo_layout demo_boot
    [.command (some 1), .scheduled (some 1) (some entry), .user, .left 1 (some (preempt_context demo_regs))]
    demo_preempted := by
  obtain ⟨entry, hrun⟩ := demo_slice_run
  have htick : demo_slice.handle_timer_interrupt demo_regs = some (demo_ticked, none) := by
    have hnone : (demo_slice.handle_timer_interrupt demo_regs).map (·.2) = some none := by decide +kernel
    exact eq_some_of_parts hnone
  have hinterrupt : demo_ticked.handle_timer_interrupt demo_regs =
      some (demo_interrupted, some (preempt_context demo_regs)) := by
    have hsaved : (demo_ticked.handle_timer_interrupt demo_regs).map (·.2) =
        some (some (preempt_context demo_regs)) := by
      decide +kernel
    exact eq_some_of_parts hsaved
  have hphase : demo_ticked.phase.pid = some 1 := by decide +kernel
  have hjump : (demo_interrupted.longjmp_to_kernel PREEMPT_EXIT_CODE).isSome := by decide +kernel
  obtain ⟨m, hm⟩ := Option.isSome_iff_exists.mp hjump
  have heq : demo_preempted = m := by
    rw [demo_preempted, hm]
    rfl
  rw [← heq] at hm
  exact ⟨entry, .step (.step hrun (.tick htick)) (.preempted hphase hinterrupt hm)⟩

theorem slice_entry_preempted : ∃ entry entry' m, Runs true demo_layout demo_boot
      ([.command (some 1), .scheduled (some 1) (some entry), .user,
        .left 1 (some (preempt_context demo_regs))] ++ [.scheduled (some 1) (some entry')]) m ∧
    entry' = .restore_user_context (preempt_context demo_regs) := by
  obtain ⟨entry, hrun⟩ := demo_preempted_run
  have hidle : demo_preempted.phase = .shell := by decide +kernel
  have hparts : demo_preempted.scheduler_step.map (fun r => (r.2.1, r.2.2.isSome)) =
      some (some 1, true) := by
    decide +kernel
  obtain ⟨⟨m, selected, entered⟩, hstep, heq⟩ := Option.map_eq_some_iff.mp hparts
  obtain ⟨rfl, hentered⟩ := Prod.mk.inj heq
  obtain ⟨entry', rfl⟩ := Option.isSome_iff_exists.mp hentered
  have hrun' := Runs.step hrun (step_schedule hidle hstep)
  exact ⟨entry, entry', m, hrun', slice_entry hrun'⟩

end Machine

end Bogbin.Kernel
