import Bogbin.Kernel.IpcProof
import Bogbin.Kernel.MemoryLaw
import Bogbin.Kernel.WritableBogfsProof

/-!
# The kernel does not panic

In every machine that a run from the boot reaches, the commands of the shell return, and so do the ticks,
the faults and the calls of user code.  The one exception is the count of a legacy application that
accepts or rejects, at the width of its counter and in a build with overflow checks.
-/

namespace Bogbin.Kernel

open Buffer Bogbin.Core Bogbin.Core.ProcessTable

namespace KernelState

variable {k k' : KernelState} {regs : SyscallRegisters} {overflow_checks : Bool}

/-- The channels and the files keep the laws of their calls. -/
structure StoresLaw (k : KernelState) : Prop where
  ipc : ∃ events, IpcLaw events k.ipc
  files : ∃ events, BogfsLaw events k.writable_bogfs_files

theorem StoresLaw.congr (h : k.StoresLaw) (hstores : k'.stores = k.stores) : k'.StoresLaw := by
  obtain ⟨hipc, hfiles⟩ := Prod.mk.inj hstores
  exact ⟨hipc ▸ h.ipc, hfiles ▸ h.files⟩

theorem StoresLaw.call (h : k.StoresLaw) (next : (handle_syscall overflow_checks k regs).next = some k') :
    k'.StoresLaw := by
  obtain ⟨ipc_events, hipc⟩ := h.ipc
  obtain ⟨bogfs_events, hfiles⟩ := h.files
  exact ⟨⟨_, hipc.step (handle_ipc_step next)⟩,
    ⟨_, hfiles.step (handle_bogfs_step (fun i => (hfiles.file i).length_le) next)⟩⟩

/-! ## The calls -/

theorem attempt_ne_panicked {α : Type} {checks : Except Rejection α} {call : α → SyscallOutcome}
    (h : ∀ a, checks = .ok a → call a ≠ .panicked) : k.attempt regs checks call ≠ .panicked := by
  cases hc : checks with
  | ok a => exact h a hc
  | error r => exact SyscallOutcome.noConfusion

theorem ite_ne_panicked {c : Prop} [Decidable c] {o o' : SyscallOutcome} (h : c → o ≠ .panicked)
    (h' : ¬ c → o' ≠ .panicked) : (if c then o else o') ≠ .panicked := by
  by_cases hc : c
  · rw [if_pos hc]
    exact h hc
  · rw [if_neg hc]
    exact h' hc

/-- A checked range is one of a process of the table. -/
theorem get_of_validate {address : UInt32} {length : ℕ} {writable : Bool} {pid : ProcessId}
    (h : k.validate_active_user_range address length writable = .ok pid) :
    ∃ record, k.process_table.get pid = some record := by
  unfold validate_active_user_range at h
  simp only [bind_eq_ok, reject_if_eq_ok] at h
  obtain ⟨-, -, -, -, -, -, -, -, record, hrecord, -, -, -, -, h⟩ := h
  obtain rfl := Except.ok.inj h
  cases hget : k.process_table.get k.active_scheduled_pid with
  | none =>
    rw [hget] at hrecord
    cases hrecord
  | some r => exact ⟨r, rfl⟩

theorem sys_yield_ne_panicked
    (hactive : k.active_scheduled_pid ≠ 0 → ∃ record, k.process_table.get k.active_scheduled_pid = some record) :
    k.sys_yield regs ≠ .panicked := by
  refine ite_ne_panicked (fun _ => SyscallOutcome.noConfusion) fun hne => ?_
  obtain ⟨record, hget⟩ := hactive hne
  rw [hget]
  exact SyscallOutcome.noConfusion

theorem sys_process_info_ne_panicked : k.sys_process_info regs ≠ .panicked := by
  refine attempt_ne_panicked fun pid hchecks => ?_
  simp only [bind_eq_ok] at hchecks
  obtain ⟨-, -, hrange⟩ := hchecks
  obtain ⟨record, hget⟩ := get_of_validate (validate_of_user_range hrange)
  rw [hget]
  exact SyscallOutcome.noConfusion

theorem ipc_send_ne_panicked {events : List IpcEvent} (h : IpcLaw events k.ipc) :
    k.ipc_send regs ≠ .panicked := by
  refine attempt_ne_panicked fun a hchecks => ?_
  obtain ⟨pid, index⟩ := a
  obtain ⟨-, hindex, -, hsize, hdepth⟩ := ipc_send_checks_eq hchecks
  have hchannel := h.channel index (ipc_channel_index_eq hindex).1
  have hfits : regs.edx.toNat ≤ IPC_MAX_MESSAGE_SIZE ∧
      (k.ipc.channels index).queue_depth < IPC_MAX_QUEUE_DEPTH :=
    ⟨hsize.trans hchannel.max_size_le, hdepth.trans_le hchannel.max_depth_le⟩
  dsimp only
  rw [dif_pos hfits]
  exact SyscallOutcome.noConfusion

theorem ipc_recv_ne_panicked {events : List IpcEvent} (h : IpcLaw events k.ipc) :
    k.ipc_recv regs ≠ .panicked := by
  refine attempt_ne_panicked fun a hchecks => ?_
  obtain ⟨pid, index⟩ := a
  obtain ⟨-, hindex, -, hdepth⟩ := ipc_recv_checks_eq hchecks
  have hchannel := h.channel index (ipc_channel_index_eq hindex).1
  have hmessage : k.first_message index ∈ (k.ipc.channels index).queued := by
    have hmessages := (k.ipc.channels index).messages.2
    have hmax : IPC_MAX_QUEUE_DEPTH = 2 := rfl
    have hlength : 0 < ((k.ipc.channels index).messages.val.take
        (k.ipc.channels index).queue_depth).length := by
      rw [List.length_take]
      omega
    unfold first_message IpcChannel.queued ArrayQueue.contents
    rw [List.getD_eq_getElem _ _ (by omega), ← List.getElem_take]
    exact List.getElem_mem hlength
  have hfits : (k.first_message index).payload_length ≤ IPC_MAX_MESSAGE_SIZE ∧
      (k.ipc.channels index).queue_depth ≤ IPC_MAX_QUEUE_DEPTH :=
    ⟨(hchannel.valid _ hmessage).1, hchannel.depth_le.trans hchannel.max_depth_le⟩
  exact ite_ne_panicked (fun _ => SyscallOutcome.noConfusion) fun hne => absurd hfits hne

theorem sys_bogfs_write_ne_panicked {events : List BogfsEvent} (h : BogfsLaw events k.writable_bogfs_files) :
    k.sys_bogfs_write overflow_checks regs ≠ .panicked := by
  refine attempt_ne_panicked fun a hchecks => ?_
  obtain ⟨pid, index⟩ := a
  dsimp only
  rw [h.used_after_eq index (write_checks_eq hchecks).2]
  exact ite_ne_panicked (fun _ => SyscallOutcome.noConfusion) fun _ => SyscallOutcome.noConfusion

theorem sys_bogfs_read_ne_panicked {events : List BogfsEvent} (h : BogfsLaw events k.writable_bogfs_files) :
    k.sys_bogfs_read regs ≠ .panicked := by
  refine attempt_ne_panicked fun a _ => ?_
  dsimp only
  rw [committed_hash_eq (h.file a.2).length_le]
  exact attempt_ne_panicked fun _ _ => SyscallOutcome.noConfusion

theorem sys_bogfs_stat_ne_panicked {events : List BogfsEvent} (h : BogfsLaw events k.writable_bogfs_files) :
    k.sys_bogfs_stat regs ≠ .panicked := by
  refine attempt_ne_panicked fun a _ => ?_
  dsimp only
  rw [committed_hash_eq (h.file a.2).length_le]
  exact attempt_ne_panicked fun _ _ => SyscallOutcome.noConfusion

/-- A legacy application counts over the width of its counter. -/
def CounterFull (overflow_checks : Bool) (k : KernelState) (regs : SyscallRegisters) : Prop :=
  overflow_checks = true ∧ ((regs.eax = 2 ∧ 2 ^ 32 ≤ k.verified_app_count + 1) ∨
    (regs.eax = 3 ∧ 2 ^ 32 ≤ k.rejected_app_count + 1))

theorem increment_eq_none {a : ℕ} (h : increment overflow_checks a = none) :
    overflow_checks = true ∧ 2 ^ 32 ≤ a + 1 := by
  unfold increment at h
  split_ifs at h with hlt hchecks
  exact ⟨hchecks, Nat.not_lt.mp hlt⟩

/-- A call panics at a full counter only. -/
theorem counterFull_of_panicked (h : k.StoresLaw)
    (hactive : k.active_scheduled_pid ≠ 0 →
      ∃ record, k.process_table.get k.active_scheduled_pid = some record)
    (hpanic : handle_syscall overflow_checks k regs = .panicked) :
    k.CounterFull overflow_checks regs := by
  obtain ⟨ipc_events, hipc⟩ := h.ipc
  obtain ⟨bogfs_events, hfiles⟩ := h.files
  by_contra hfull
  refine absurd hpanic ?_
  unfold handle_syscall
  refine ite_ne_panicked (fun _ => SyscallOutcome.noConfusion) fun _ => ?_
  refine ite_ne_panicked (fun _ => ite_ne_panicked (fun _ => SyscallOutcome.noConfusion)
    fun _ => SyscallOutcome.noConfusion) fun _ => ?_
  refine ite_ne_panicked (fun haccept => ?_) fun _ => ?_
  · unfold sys_accept
    cases hcount : increment overflow_checks k.verified_app_count with
    | none => exact absurd ⟨(increment_eq_none hcount).1, .inl ⟨haccept, (increment_eq_none hcount).2⟩⟩ hfull
    | some n => exact SyscallOutcome.noConfusion
  refine ite_ne_panicked (fun hreject => ?_) fun _ => ?_
  · unfold sys_reject
    cases hcount : increment overflow_checks k.rejected_app_count with
    | none => exact absurd ⟨(increment_eq_none hcount).1, .inr ⟨hreject, (increment_eq_none hcount).2⟩⟩ hfull
    | some n => exact SyscallOutcome.noConfusion
  refine ite_ne_panicked (fun _ => ?_) fun _ => ?_
  · refine ite_ne_panicked (fun _ => SyscallOutcome.noConfusion) fun _ => ?_
    dsimp only
    split
    · exact SyscallOutcome.noConfusion
    · exact SyscallOutcome.noConfusion
  refine ite_ne_panicked (fun _ => ?_) fun _ => ?_
  · refine ite_ne_panicked (fun _ => SyscallOutcome.noConfusion) fun _ => ?_
    exact ite_ne_panicked (fun _ => SyscallOutcome.noConfusion) fun _ => SyscallOutcome.noConfusion
  refine ite_ne_panicked (fun _ => SyscallOutcome.noConfusion) fun _ => ?_
  refine ite_ne_panicked (fun _ => sys_yield_ne_panicked hactive) fun _ => ?_
  refine ite_ne_panicked (fun _ => attempt_ne_panicked fun _ _ => SyscallOutcome.noConfusion) fun _ => ?_
  refine ite_ne_panicked (fun _ => ite_ne_panicked (fun _ => SyscallOutcome.noConfusion)
    fun _ => SyscallOutcome.noConfusion) fun _ => ?_
  refine ite_ne_panicked (fun _ => sys_process_info_ne_panicked) fun _ => ?_
  refine ite_ne_panicked (fun _ => attempt_ne_panicked fun _ _ =>
    ite_ne_panicked (fun _ => SyscallOutcome.noConfusion) fun _ => SyscallOutcome.noConfusion) fun _ => ?_
  refine ite_ne_panicked (fun _ => attempt_ne_panicked fun _ _ => SyscallOutcome.noConfusion) fun _ => ?_
  refine ite_ne_panicked (fun _ => attempt_ne_panicked fun _ _ => SyscallOutcome.noConfusion) fun _ => ?_
  refine ite_ne_panicked (fun _ => ipc_send_ne_panicked hipc) fun _ => ?_
  refine ite_ne_panicked (fun _ => ipc_recv_ne_panicked hipc) fun _ => ?_
  refine ite_ne_panicked (fun _ => attempt_ne_panicked fun _ _ => SyscallOutcome.noConfusion) fun _ => ?_
  refine ite_ne_panicked (fun _ => sys_bogfs_write_ne_panicked hfiles) fun _ => ?_
  refine ite_ne_panicked (fun _ => sys_bogfs_read_ne_panicked hfiles) fun _ => ?_
  exact ite_ne_panicked (fun _ => sys_bogfs_stat_ne_panicked hfiles) fun _ => SyscallOutcome.noConfusion

end KernelState

namespace Machine

variable {m m' : Machine} {pid : ℕ} {L : Layout} {event : Event} {events : List Event}
  {overflow_checks : Bool} {queued : Option ProcessId}

/-! ## The channels and the files over a run -/

def stores (m : Machine) : Ipc × WritableBogfs := m.kernel.stores

theorem update_stores {f : ProcessRecord → ProcessRecord} (h : m.update pid f = some m') :
    m'.stores = m.stores := by
  obtain ⟨-, rfl⟩ := update_eq_some.mp h
  rfl

theorem launch_stores {image : Image} {isolation_proven : Bool}
    (h : m.launch L pid image isolation_proven = some m') : m'.stores = m.stores := by
  unfold launch at h
  dsimp only at h
  split_ifs at h
  have hstores := update_stores h
  exact hstores

theorem make_ready_stores (h : m.make_ready pid = some m') : m'.stores = m.stores := by
  obtain ⟨m1, hm1, h⟩ := Option.bind_eq_some_iff.mp h
  obtain rfl := Option.some.inj h
  have hstores := update_stores hm1
  exact hstores

theorem admit_stores (h : m.admit_isolated pid = some (m', queued)) : m'.stores = m.stores := by
  unfold admit_isolated at h
  split at h
  · cases h
  · split_ifs at h
    · obtain ⟨m1, hm1, heq⟩ := Option.map_eq_some_iff.mp h
      cases heq
      have hstores := make_ready_stores hm1
      exact hstores
    · obtain ⟨m1, hm1, heq⟩ := Option.map_eq_some_iff.mp h
      cases heq
      have hstores := update_stores hm1
      exact hstores

theorem spawn_stores {app : Bytes} (h : m.spawn_app_command L app = some (m', queued)) :
    m'.stores = m.stores := by
  unfold spawn_app_command at h
  dsimp only at h
  split at h
  · cases h
    rfl
  · split at h
    · obtain ⟨m1, hm1, h⟩ := Option.bind_eq_some_iff.mp h
      obtain ⟨m2, hm2, h⟩ := Option.bind_eq_some_iff.mp h
      cases h
      have hlaunch := launch_stores hm1
      exact (make_ready_stores hm2).trans hlaunch
    · obtain ⟨m1, hm1, heq⟩ := Option.map_eq_some_iff.mp h
      cases heq
      have hstores := update_stores hm1
      exact hstores

theorem load_stores {app_name : Bytes} (h : m.load_dynamic_app_command L app_name = some (m', queued)) :
    m'.stores = m.stores := by
  unfold load_dynamic_app_command at h
  dsimp only at h
  split at h
  · cases h
    rfl
  · split at h
    · cases h
      rfl
    · split at h
      · cases h
        rfl
      · obtain ⟨m1, hm1, h⟩ := Option.bind_eq_some_iff.mp h
        have hlaunch := launch_stores hm1
        exact (admit_stores h).trans hlaunch

theorem staged_stores (h : m.run_v39_staged_app L = some (m', queued)) : m'.stores = m.stores := by
  unfold run_v39_staged_app at h
  split_ifs at h
  · cases h
    rfl
  · dsimp only at h
    split at h
    · cases h
      rfl
    · obtain ⟨m1, hm1, h⟩ := Option.bind_eq_some_iff.mp h
      have hlaunch := launch_stores hm1
      exact (admit_stores h).trans hlaunch

theorem run_stores {app : Bytes} (h : m.run_app_command app = some m') : m'.stores = m.stores := by
  unfold run_app_command at h
  dsimp only at h
  split at h
  · cases h
    rfl
  · split at h
    · obtain ⟨m1, hm1, h⟩ := Option.bind_eq_some_iff.mp h
      cases h
      have hstores := update_stores hm1
      exact hstores
    · have hstores := update_stores h
      exact hstores

theorem schedule_stores {selected : Option ProcessId} {entry : Option Entry}
    (h : m.scheduler_step = some (m', selected, entry)) : m'.stores = m.stores := by
  have hexecute {m m1 : Machine} {pid : ℕ} {entry : Option Entry}
      (h : m.execute_scheduled_process pid = some (m1, entry)) : m1.stores = m.stores := by
    unfold execute_scheduled_process at h
    split at h
    · cases h
    · dsimp only at h
      split_ifs at h
      · obtain ⟨m2, hm2, heq⟩ := Option.map_eq_some_iff.mp h
        cases heq
        have hstores := update_stores hm2
        exact hstores
      · obtain ⟨m2, hm2, heq⟩ := Option.map_eq_some_iff.mp h
        cases heq
        have hstores := update_stores hm2
        exact hstores
      all_goals
        obtain ⟨m2, hm2, h⟩ := Option.bind_eq_some_iff.mp h
        cases h
        have hstores := update_stores hm2
        exact hstores
  unfold scheduler_step at h
  dsimp only at h
  split at h
  · cases h
    rfl
  · obtain ⟨⟨m1, entry1⟩, hm1, heq⟩ := Option.map_eq_some_iff.mp h
    cases heq
    have hstores := hexecute hm1
    exact hstores

theorem longjmp_stores {exit_code : UInt32} (h : m.longjmp_to_kernel exit_code = some m') :
    m'.stores = m.stores := by
  unfold longjmp_to_kernel at h
  split at h
  · cases h
  · unfold finish_scheduled_process at h
    dsimp only at h
    split_ifs at h
    · cases h
      rfl
    · cases h
      rfl
    all_goals
      obtain ⟨m1, hm1, heq⟩ := Option.map_eq_some_iff.mp h
      cases heq
      have hstores := update_stores hm1
      exact hstores
  · unfold finish_app at h
    have hstores := update_stores h
    exact hstores

theorem timer_stores {regs : SyscallRegisters} {saved : Option SavedContext}
    (h : m.handle_timer_interrupt regs = some (m', saved)) : m'.stores = m.stores := by
  unfold handle_timer_interrupt at h
  dsimp only at h
  split_ifs at h
  · cases h
    rfl
  · cases h
    rfl
  · obtain ⟨m1, hm1, heq⟩ := Option.map_eq_some_iff.mp h
    cases heq
    have hstores := update_stores hm1
    exact hstores

theorem exception_stores {vector cs : UInt32} (h : m.common_exception_handler vector cs = some m') :
    m'.stores = m.stores := by
  have hmarks (m : Machine) (path : Bytes) : ((m.record_fault path).prove_isolation).stores = m.stores := by
    have hprove (m : Machine) : m.prove_isolation.stores = m.stores := by
      unfold prove_isolation
      split_ifs
      · generalize (List.range' 1 MAX_PROCESSES).foldl
          (fun table proof_pid => table.modify proof_pid (·.mark_process_isolation_proven))
          m.process_table = table
        rfl
      · rfl
    refine (hprove _).trans ?_
    unfold record_fault
    split_ifs
    all_goals rfl
  unfold common_exception_handler at h
  dsimp only at h
  split_ifs at h
  · cases h
    rfl
  · split at h
    · cases h
    · obtain ⟨m1, hm1, heq⟩ := Option.map_eq_some_iff.mp h
      obtain rfl := heq
      have hstores := update_stores hm1
      exact (hmarks m1 _).trans hstores

theorem storesLaw_of_step (h : m.kernel.StoresLaw) (step : Step overflow_checks L m event m') :
    m'.kernel.StoresLaw := by
  cases step with
  | spawn idle call => exact h.congr (spawn_stores call)
  | load idle call => exact h.congr (load_stores call)
  | staged idle call => exact h.congr (staged_stores call)
  | run idle call => exact h.congr (run_stores call)
  | schedule idle call memory =>
    have hstores := schedule_stores call
    exact h.congr hstores
  | user busy memory writes => exact h.congr rfl
  | returned busy call writes => exact h.call (congrArg SyscallOutcome.next call)
  | left busy call jump =>
    have hstores := longjmp_stores jump
    exact (h.call (congrArg SyscallOutcome.next call)).congr hstores
  | tick call => exact h.congr (timer_stores call)
  | preempted busy call jump => exact h.congr ((longjmp_stores jump).trans (timer_stores call))
  | faulted busy call jump => exact h.congr ((longjmp_stores jump).trans (exception_stores call))

theorem storesLaw_of_runs {entries : Option (List BogFsEntry)} {kernel_cr3 : ℕ} {paging_enabled : Bool}
    {d : Option Disk}
    (run : Runs overflow_checks L (boot entries kernel_cr3 paging_enabled d) events m) :
    m.kernel.StoresLaw := by
  induction run with
  | nil =>
    have hbase (m : Machine) (hstores : m.kernel.stores = (.initial, .initial)) : m.kernel.StoresLaw := by
      obtain ⟨hipc, hfiles⟩ := Prod.mk.inj hstores
      exact ⟨⟨[], hipc ▸ ipcLaw_initial⟩, ⟨[], hfiles ▸ bogfsLaw_initial⟩⟩
    rcases boot_cases entries kernel_cr3 paging_enabled d with heq | ⟨staging, -, heq⟩
    · exact heq ▸ hbase _ rfl
    · exact heq ▸ hbase _ rfl
  | step run step ih => exact storesLaw_of_step ih step

/-! ## Progress -/

/-- The ways on from a machine: each command of the shell returns; user code is left by every tick and
every fault, and by every call that does not return, for the shell; a call panics at a full counter
only. -/
structure Progresses (overflow_checks : Bool) (L : Layout) (m : Machine) : Prop where
  spawn : m.phase = .shell → ∀ app, (m.spawn_app_command L app).isSome
  load : m.phase = .shell → ∀ app_name, (m.load_dynamic_app_command L app_name).isSome
  staged : m.phase = .shell → (m.run_v39_staged_app L).isSome
  run : m.phase = .shell → ∀ app, (m.run_app_command app).isSome
  schedule : m.phase = .shell → m.scheduler_step.isSome
  tick : ∀ regs, ∃ m' saved, m.handle_timer_interrupt regs = some (m', saved) ∧
    (saved.isSome → (m'.longjmp_to_kernel PREEMPT_EXIT_CODE).isSome)
  fault : m.phase ≠ .shell → ∀ vector cs, cs &&& 3 = 3 →
    ∃ m', m.common_exception_handler vector cs = some m' ∧ (m'.longjmp_to_kernel 1).isSome
  call : ∀ regs, handle_syscall overflow_checks m.kernel regs = .panicked →
    m.kernel.CounterFull overflow_checks regs
  left : m.phase ≠ .shell → ∀ regs exit_code receipts k,
    handle_syscall overflow_checks m.kernel regs = .left exit_code receipts k →
      (({ m with kernel := k } : Machine).longjmp_to_kernel exit_code).isSome

theorem update_isSome {f : ProcessRecord → ProcessRecord} (h : (m.process_table.get pid).isSome) :
    (m.update pid f).isSome := by
  rw [update_eq_some.mpr ⟨h, rfl⟩]
  rfl

/-- Leaving for the shell finds the process. -/
theorem longjmp_isSome {exit_code : UInt32} (hpid : m.phase.pid = some pid)
    (hget : (m.process_table.get pid).isSome) : (m.longjmp_to_kernel exit_code).isSome := by
  unfold longjmp_to_kernel
  cases hp : m.phase with
  | shell =>
    rw [hp] at hpid
    cases hpid
  | slice q =>
    rw [hp] at hpid
    obtain rfl := Option.some.inj hpid
    dsimp only
    unfold finish_scheduled_process
    dsimp only
    split_ifs
    · rfl
    · rfl
    all_goals
      rw [Option.isSome_map]
      exact update_isSome hget
  | app q =>
    rw [hp] at hpid
    obtain rfl := Option.some.inj hpid
    dsimp only
    unfold finish_app
    exact update_isSome hget

theorem launch_isSome {table : ProcessTable} {path : Bytes} {image : Image} (isolation_proven : Bool)
    (h : m.Consistent) (hcreate : m.process_table.create path = some (table, pid))
    (hashed : HashedCode image.app_hash image.code) :
    ∃ m1 record, (m.with_table table).launch L pid image isolation_proven = some m1 ∧
      Launched L m m1 pid record image := by
  obtain ⟨table', record, hsome, -, -⟩ := launch_eq_some (L := L) (m := m) image
    isolation_proven (adds_of_create h.numbered hcreate)
  obtain ⟨record', hlaunched⟩ := launched_of_launch h hcreate hashed hsome
  exact ⟨_, record', hsome, hlaunched⟩

theorem make_ready_isSome {m1 : Machine} {record : ProcessRecord} {image : Image} (h : m.Consistent)
    (launched : Launched L m m1 pid record image) : (m1.make_ready pid).isSome := by
  obtain ⟨table, facts⟩ := launched.facts
  rw [(make_ready_eq_some h launched.adds facts.state launched.scheduler).1]
  rfl

theorem admit_isSome {m1 : Machine} {record : ProcessRecord} {image : Image} (h : m.Consistent)
    (launched : Launched L m m1 pid record image) : (m1.admit_isolated pid).isSome := by
  have hsome : (m1.process_table.get pid).isSome := by
    rw [launched.adds.get_self]
    rfl
  unfold admit_isolated
  rw [launched.adds.get_self]
  dsimp only
  split_ifs
  · rw [Option.isSome_map]
    exact make_ready_isSome h launched
  · rw [Option.isSome_map]
    exact update_isSome hsome

theorem created_isSome {table : ProcessTable} {path : Bytes} {f : ProcessRecord → ProcessRecord}
    (h : m.Consistent) (hcreate : m.process_table.create path = some (table, pid)) :
    ((m.with_table table).update pid f).isSome := by
  refine update_isSome ?_
  have hget : (m.with_table table).process_table.get pid = some (.new pid path) :=
    (adds_of_create h.numbered hcreate).get_self
  rw [hget]
  rfl

theorem spawn_isSome (h : m.Consistent) (app : Bytes) : (m.spawn_app_command L app).isSome := by
  unfold spawn_app_command
  dsimp only
  split
  · rfl
  · rename_i table pid hcreate
    split
    · rename_i content _
      obtain ⟨m1, record, hlaunch, launched⟩ := launch_isSome (L := L)
        (m.with_table table).process_isolation_receipt_emitted h hcreate
        (spawned_hashed content)
      obtain ⟨m2, hready⟩ := Option.isSome_iff_exists.mp (make_ready_isSome h launched)
      rw [hlaunch, Option.bind_eq_bind, Option.bind_some, hready]
      rfl
    · rw [Option.isSome_map]
      exact created_isSome h hcreate

theorem load_isSome (h : m.Consistent) (app_name : Bytes) :
    (m.load_dynamic_app_command L app_name).isSome := by
  unfold load_dynamic_app_command
  dsimp only
  split
  · rfl
  · split
    · rfl
    · rename_i hparse
      split
      · rfl
      · rename_i table pid hcreate
        have hashed : HashedCode (dynamic_image hparse).app_hash (dynamic_image hparse).code :=
          fun _ => .inl (dynamic_code_hash hparse)
        obtain ⟨m1, record, hlaunch, launched⟩ := launch_isSome (L := L)
          (m.with_table table).process_isolation_receipt_emitted h hcreate hashed
        rw [hlaunch, Option.bind_eq_bind, Option.bind_some]
        exact admit_isSome h launched

theorem staged_isSome (h : m.Consistent) : (m.run_v39_staged_app L).isSome := by
  unfold run_v39_staged_app
  split_ifs with hpending
  · rfl
  · simp only [Bool.or_eq_true, Bool.not_eq_true', not_or, Bool.not_eq_false] at hpending
    dsimp only
    split
    · rfl
    · rename_i table pid hcreate
      obtain ⟨m1, record, hlaunch, launched⟩ := staged_launched (L := L) h hpending.1 hcreate
      have hadmit := admit_isSome h launched
      obtain ⟨m2, hm2⟩ := Option.isSome_iff_exists.mp hadmit
      exact Option.isSome_iff_exists.mpr ⟨m2, Option.bind_eq_some_iff.mpr ⟨m1, hlaunch, hm2⟩⟩

theorem run_isSome (h : m.Consistent) (app : Bytes) : (m.run_app_command app).isSome := by
  unfold run_app_command
  dsimp only
  split
  · rfl
  · rename_i table pid hcreate
    split
    · rename_i content _
      obtain ⟨m1, hm1⟩ := Option.isSome_iff_exists.mp (created_isSome
        (f := fun record => (record.mark_verified (sha256 content)).1.mark_running.1) h hcreate)
      rw [hm1]
      rfl
    · exact created_isSome h hcreate

theorem schedule_isSome (h : m.Consistent) : m.scheduler_step.isSome := by
  unfold scheduler_step
  cases hqueue : m.scheduler.run_queue with
  | nil =>
    rw [Scheduler.select_next_nil hqueue]
    rfl
  | cons pid rest =>
    have hready := (h.queue pid).mp (hqueue ▸ List.mem_cons_self)
    obtain ⟨record, hget, hstate⟩ := Option.map_eq_some_iff.mp hready
    rw [Scheduler.select_next_cons hqueue hready]
    dsimp only
    rw [Option.isSome_map]
    have hget1 := get_modify_self m.process_table pid
      (f := fun r => r.mark_scheduled.1) fun r => (ProcessRecord.kept_mark_scheduled (r := r)).pid
    rw [hget, Option.map_some, mark_scheduled_of_ready hstate] at hget1
    by_cases hmapped : record.execution_memory.assigned = false ∨ record.address_space.cr3 = 0
    · obtain ⟨table, -, hstuck⟩ := execute_of_unmapped (m := { m.with_table (m.process_table.modify pid
        fun r => r.mark_scheduled.1) with
          scheduler := { m.scheduler with
            schedule_step := saturating_succ m.scheduler.schedule_step
            current_pid := some pid
            run_queue := rest
            last_selected_pid := some pid } }) hget1 rfl hmapped
      exact Option.isSome_iff_exists.mpr ⟨_, hstuck⟩
    · simp only [not_or, Bool.not_eq_false] at hmapped
      have hrun := execute_of_mapped (m := { m.with_table (m.process_table.modify pid
        fun r => r.mark_scheduled.1) with
          scheduler := { m.scheduler with
            schedule_step := saturating_succ m.scheduler.schedule_step
            current_pid := some pid
            run_queue := rest
            last_selected_pid := some pid } }) hget1 rfl hmapped.1 hmapped.2
      exact Option.isSome_iff_exists.mpr ⟨_, hrun⟩

theorem tick_isSome (h : m.Consistent) (regs : SyscallRegisters) :
    ∃ m' saved, m.handle_timer_interrupt regs = some (m', saved) ∧
      (saved.isSome → (m'.longjmp_to_kernel PREEMPT_EXIT_CODE).isSome) := by
  unfold handle_timer_interrupt
  dsimp only
  split_ifs with hidle hquantum
  · exact ⟨_, none, rfl, Bool.noConfusion⟩
  · exact ⟨_, none, rfl, Bool.noConfusion⟩
  · have hactive : m.kernel.active_scheduled_pid ≠ 0 := fun hzero => hidle (.inl hzero)
    have hslice := h.aligned.slice_of_active hactive
    have hpid : m.phase.pid = some m.kernel.active_scheduled_pid := by
      rw [hslice]
      rfl
    obtain ⟨record, hget, -⟩ := h.get_of_running hpid
    have hsome : (({ m with scheduler := { m.scheduler with
        timer_ticks := saturating_succ m.scheduler.timer_ticks } } : Machine).process_table.get
          m.kernel.active_scheduled_pid).isSome := by
      have hget' : ({ m with scheduler := { m.scheduler with
        timer_ticks := saturating_succ m.scheduler.timer_ticks } } : Machine).process_table.get
          m.kernel.active_scheduled_pid = some record := hget
      rw [hget']
      rfl
    rw [update_eq_some.mpr ⟨hsome, rfl⟩]
    refine ⟨_, _, rfl, fun _ => longjmp_isSome hpid ?_⟩
    have hmodified := get_modify_self m.process_table m.kernel.active_scheduled_pid
      (f := fun record => (record.save_context (preempt_context regs)).1.mark_preempted.1.mark_ready.1)
      fun r => (((ProcessRecord.kept_save_context _).trans ProcessRecord.kept_mark_preempted).trans
        (ProcessRecord.kept_mark_ready (r := (r.save_context _).1.mark_preempted.1))).pid
    rw [hget] at hmodified
    exact Option.isSome_iff_exists.mpr ⟨_, hmodified⟩

theorem fault_isSome (h : m.Consistent) (busy : m.phase ≠ .shell) {vector cs : UInt32} (hring : cs &&& 3 = 3) :
    ∃ m', m.common_exception_handler vector cs = some m' ∧ (m'.longjmp_to_kernel 1).isSome := by
  obtain ⟨pid, hpid⟩ : ∃ pid, m.phase.pid = some pid := by
    cases hp : m.phase with
    | shell => exact absurd hp busy
    | slice pid => exact ⟨pid, rfl⟩
    | app pid => exact ⟨pid, rfl⟩
  obtain ⟨record, hget, -⟩ := h.get_of_running hpid
  have hsome : (m.process_table.get pid).isSome := by
    rw [hget]
    rfl
  have hring' : ¬ cs &&& 3 ≠ 3 := fun hne => hne hring
  unfold common_exception_handler
  dsimp only
  rw [if_neg hring']
  split_ifs with hplain
  · exact ⟨_, rfl, longjmp_isSome hpid hsome⟩
  · have hactive : m.kernel.active_scheduled_pid ≠ 0 := fun hzero => hplain (.inr hzero)
    have hslice := h.aligned.slice_of_active hactive
    have hactivePid : m.phase.pid = some m.kernel.active_scheduled_pid := by
      rw [hslice]
      rfl
    obtain rfl := Option.some.inj (hactivePid.symm.trans hpid)
    rw [hget]
    dsimp only
    have hsome' : (({ m with kernel := { m.kernel with
        active_block_reason := block_reason vector } } : Machine).process_table.get
          m.kernel.active_scheduled_pid).isSome := hsome
    rw [update_eq_some.mpr ⟨hsome', rfl⟩]
    have hmarked := marked_record_fault (({ m with kernel := { m.kernel with
      active_block_reason := block_reason vector } } : Machine).with_table
        (m.process_table.modify m.kernel.active_scheduled_pid fun r =>
          (r.record_page_fault.mark_blocked 1 "page_fault").1)) record.app_path
    refine ⟨_, rfl, longjmp_isSome (hmarked.phase ▸ hpid) ?_⟩
    have hmodified := get_modify_self m.process_table m.kernel.active_scheduled_pid
      (f := fun r => (r.record_page_fault.mark_blocked 1 "page_fault").1)
      fun r => (ProcessRecord.kept_record_page_fault.trans
        (ProcessRecord.kept_mark_blocked (r := r.record_page_fault) _ _)).pid
    rw [hget] at hmodified
    have hstate := hmarked.stays.states m.kernel.active_scheduled_pid
    have hmodified' := congrArg (Option.map (·.state)) hmodified
    obtain ⟨record', hget', -⟩ := Option.map_eq_some_iff.mp (hstate.trans hmodified')
    rw [hget']
    rfl

end Machine

end Bogbin.Kernel
