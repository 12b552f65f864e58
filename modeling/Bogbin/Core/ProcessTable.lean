import Bogbin.Core.Process

/-!
# Looking up processes

What `create` and a write through `get_mut` do to the lookups of a table, and what the run queue does
with a table whose pids are counted up (`Numbered`).
-/

namespace Bogbin.Core

/-! ## Writes through a lookup -/

theorem find?_modify_first {α κ : Type} [DecidableEq κ] {key : α → κ} {f : α → α}
    (hf : ∀ a, key (f a) = key a) (l : List α) (k q : κ) :
    (match l.findIdx? fun a => key a = k with
      | some i => l.modify i f
      | none => l).find? (fun a => key a = q) =
      if q = k then (l.find? fun a => key a = q).map f else l.find? fun a => key a = q := by
  induction l with
  | nil => simp
  | cons a l ih =>
    rw [List.findIdx?_cons]
    by_cases ha : key a = k
    · simp only [ha, decide_true, if_true, List.modify_zero_cons, List.find?_cons, hf]
      by_cases hq : q = k
      · subst hq
        simp
      · simp [hq, Ne.symm hq]
    · simp only [ha, decide_false, Bool.false_eq_true, if_false]
      cases hfind : l.findIdx? fun a => key a = k with
      | none =>
        simp only [hfind, Option.map_none, List.find?_cons] at ih ⊢
        by_cases hq : key a = q
        · have hne : q ≠ k := fun h => ha (hq.trans h)
          simp [hq, hne]
        · simpa [hq] using ih
      | some i =>
        simp only [hfind, Option.map_some, List.modify_succ_cons, List.find?_cons] at ih ⊢
        by_cases hq : key a = q
        · have hne : q ≠ k := fun h => ha (hq.trans h)
          simp [hq, hne]
        · simpa [hq] using ih

namespace ProcessTable

variable {t t' : ProcessTable} {pid q : ℕ} {f : ProcessRecord → ProcessRecord}
  {record : ProcessRecord}

theorem get_modify (hf : ∀ r, (f r).pid = r.pid) :
    (t.modify pid f).get q = if q = pid then (t.get q).map f else t.get q := by
  have h := @find?_modify_first ProcessRecord ProcessId _ (·.pid) f hf t.records pid q
  unfold modify get
  cases hfind : t.records.findIdx? (·.pid = pid) with
  | none =>
    simp only [hfind] at h
    exact h
  | some i =>
    simp only [hfind] at h
    exact h

theorem get_modify_self (t : ProcessTable) (pid : ℕ) (hf : ∀ r, (f r).pid = r.pid) :
    (t.modify pid f).get pid = (t.get pid).map f := by
  rw [get_modify hf, if_pos rfl]

theorem get_modify_of_ne (hf : ∀ r, (f r).pid = r.pid) (h : q ≠ pid) :
    (t.modify pid f).get q = t.get q := by
  rw [get_modify hf, if_neg h]

theorem pid_of_get (h : t.get pid = some record) : record.pid = pid := by
  unfold get at h
  simpa using List.find?_some h

/-- The pids are counted up from 1. -/
structure Numbered (t : ProcessTable) : Prop where
  pids : t.records.map (·.pid) = List.range' 1 t.records.length
  next : t.records.length + 1 = t.next_pid
  bounded : t.records.length ≤ MAX_PROCESSES

theorem numbered_new : Numbered .new := ⟨rfl, rfl, Nat.zero_le _⟩

theorem records_modify_length : (t.modify pid f).records.length = t.records.length := by
  unfold modify
  split <;> simp

theorem numbered_modify (h : t.Numbered) (hf : ∀ r, (f r).pid = r.pid) : (t.modify pid f).Numbered := by
  have hnext : (t.modify pid f).next_pid = t.next_pid := by
    unfold modify
    split <;> rfl
  have hpids : (t.modify pid f).records.map (·.pid) = t.records.map (·.pid) := by
    unfold modify
    split
    · apply List.ext_getElem?
      intro i
      simp only [List.getElem?_map, List.getElem?_modify]
      split_ifs <;> simp [Function.comp_def, hf]
    · rfl
  exact ⟨by rw [hpids, records_modify_length, h.pids], by rw [hnext, records_modify_length, h.next],
    by rw [records_modify_length]; exact h.bounded⟩

theorem get_isSome_iff (h : t.Numbered) : (t.get pid).isSome ↔ 1 ≤ pid ∧ pid ≤ t.records.length := by
  have hmem : pid ∈ t.records.map (·.pid) ↔ 1 ≤ pid ∧ pid ≤ t.records.length := by
    rw [h.pids, List.mem_range'_1]
    omega
  rw [← hmem, get, List.find?_isSome]
  simp

theorem bounds_of_get (h : t.Numbered) (hget : t.get pid = some record) :
    1 ≤ pid ∧ pid ≤ t.records.length :=
  (get_isSome_iff h).mp (by rw [hget]; rfl)

/-- A new process has the next pid and is looked up under it. -/
theorem create_eq_some {path : Bytes} (h : t.Numbered) (hcreate : t.create path = some (t', pid)) :
    pid = t.records.length + 1 ∧ pid ≤ MAX_PROCESSES ∧ t'.Numbered ∧
      t.get pid = none ∧ ∀ q, t'.get q = if q = pid then some (.new pid path) else t.get q := by
  unfold create at hcreate
  split_ifs at hcreate with hfull
  obtain ⟨rfl, rfl⟩ := Prod.mk.inj (Option.some.inj hcreate)
  have hbound := h.bounded
  have hmax : MAX_PROCESSES = 38 := rfl
  have hnone : t.get t.next_pid = none := by
    rw [← Option.not_isSome_iff_eq_none, get_isSome_iff h, ← h.next]
    omega
  refine ⟨h.next.symm, by rw [← h.next]; omega, ⟨?_, ?_, ?_⟩, hnone, fun q => ?_⟩
  · simp only [List.map_append, List.map_cons, List.map_nil, List.length_append, List.length_singleton]
    rw [h.pids, ← h.next, List.range'_1_concat, Nat.add_comm 1]
    rfl
  · simp only [saturating_succ, ← h.next, List.length_append, List.length_singleton]
    omega
  · simp only [List.length_append, List.length_singleton]
    omega
  · have hnew : (ProcessRecord.new t.next_pid path).pid = t.next_pid := rfl
    unfold get at hnone ⊢
    rw [List.find?_append, List.find?_cons, hnew]
    by_cases hq : q = t.next_pid
    · subst hq
      rw [hnone]
      simp
    · rw [if_neg hq]
      simp [Ne.symm hq]

/-- The state of a process. -/
def state_of (t : ProcessTable) (pid : ProcessId) : Option ProcessState := (t.get pid).map (·.state)

end ProcessTable

/-! ## What stays with a process -/

/-- What a process keeps from its launch on. -/
structure Identity where
  pid : ProcessId
  path : Bytes
  app_hash : Option Digest
  execution_memory : ProcessExecutionMemory
  dynamic_loader_admitted : Bool
  cr3 : ℕ
  private_user_mappings : Bool
  kernel_protection_enforced : Bool

namespace ProcessRecord

def identity (r : ProcessRecord) : Identity where
  pid := r.pid
  path := r.path
  app_hash := r.app_hash
  execution_memory := r.execution_memory
  dynamic_loader_admitted := r.dynamic_loader_admitted
  cr3 := r.address_space.cr3
  private_user_mappings := r.address_space.private_user_mappings
  kernel_protection_enforced := r.address_space.kernel_protection_enforced

/-- Isolation is enforced only over private mappings. -/
def Sound (r : ProcessRecord) : Prop :=
  r.address_space.process_isolation_enforced = true → r.address_space.private_user_mappings = true

/-- A mark that leaves the launch of a process as it is. -/
structure Kept (r r' : ProcessRecord) : Prop where
  identity : r'.identity = r.identity
  sound : r.Sound → r'.Sound

variable {r r' r'' : ProcessRecord}

theorem Kept.refl (r : ProcessRecord) : Kept r r := ⟨rfl, id⟩

theorem Kept.trans (h : Kept r r') (h' : Kept r' r'') : Kept r r'' :=
  ⟨h'.identity.trans h.identity, h'.sound ∘ h.sound⟩

theorem Kept.pid (h : Kept r r') : r'.pid = r.pid := congrArg Identity.pid h.identity

theorem kept_ite {c : Prop} [Decidable c] {a b : ProcessRecord} {p q : Bool} (ha : Kept r a)
    (hb : Kept r b) : Kept r (if c then (a, p) else (b, q)).1 := by
  by_cases hc : c
  · rw [if_pos hc]
    exact ha
  · rw [if_neg hc]
    exact hb

theorem kept_mark_running : Kept r r.mark_running.1 := kept_ite (.refl r) ⟨rfl, id⟩
theorem kept_mark_ready : Kept r r.mark_ready.1 := kept_ite (.refl r) ⟨rfl, id⟩
theorem kept_mark_scheduled : Kept r r.mark_scheduled.1 := kept_ite (.refl r) ⟨rfl, id⟩
theorem kept_mark_yielded : Kept r r.mark_yielded.1 := kept_ite (.refl r) ⟨rfl, id⟩
theorem kept_mark_preempted : Kept r r.mark_preempted.1 := kept_ite (.refl r) ⟨rfl, id⟩
theorem kept_save_context (context : SavedContext) : Kept r (r.save_context context).1 :=
  kept_ite (.refl r) ⟨rfl, id⟩
theorem kept_mark_exited (code : Int32) : Kept r (r.mark_exited code).1 := kept_ite (.refl r) ⟨rfl, id⟩
theorem kept_mark_blocked (code : Int32) (reason : String) : Kept r (r.mark_blocked code reason).1 :=
  kept_ite (.refl r) ⟨rfl, id⟩
theorem kept_mark_rejected (reason : String) : Kept r (r.mark_rejected reason).1 :=
  kept_ite (.refl r) ⟨rfl, id⟩
theorem kept_record_page_fault : Kept r r.record_page_fault := ⟨rfl, id⟩

/-- The proof of isolation changes neither the state nor the context of a process. -/
theorem mark_process_isolation_proven_facts (r : ProcessRecord) :
    Kept r r.mark_process_isolation_proven ∧ r.mark_process_isolation_proven.state = r.state ∧
      r.mark_process_isolation_proven.context = r.context := by
  have hmark (app_hash : Digest) :
      (r.address_space.mark_process_isolation_proven app_hash).cr3 = r.address_space.cr3 ∧
        (r.address_space.mark_process_isolation_proven app_hash).private_user_mappings =
          r.address_space.private_user_mappings ∧
        (r.address_space.mark_process_isolation_proven app_hash).kernel_protection_enforced =
          r.address_space.kernel_protection_enforced ∧
        (r.Sound → (r.address_space.mark_process_isolation_proven app_hash).process_isolation_enforced =
          true → r.address_space.private_user_mappings = true) := by
    unfold AddressSpaceMetadata.mark_process_isolation_proven
    by_cases h : (!r.address_space.private_user_mappings || !r.address_space.kernel_protection_enforced) =
        true
    · rw [if_pos h]
      exact ⟨rfl, rfl, rfl, id⟩
    · rw [if_neg h]
      simp only [Bool.or_eq_true, Bool.not_eq_true', not_or, Bool.not_eq_false] at h
      exact ⟨rfl, rfl, rfl, fun _ _ => h.1⟩
  unfold mark_process_isolation_proven mark_address_space
  split
  · rename_i app_hash hhash
    obtain ⟨hcr3, hprivate, hkernel, hsound⟩ := hmark app_hash
    refine ⟨⟨?_, fun h => ?_⟩, rfl, rfl⟩
    · simp only [identity, hcr3, hprivate, hkernel]
    · exact fun henforced => hprivate.trans (hsound h henforced)
  · exact ⟨.refl r, rfl, rfl⟩

end ProcessRecord

namespace ProcessTable

variable {t t' t'' : ProcessTable} {pid q : ℕ} {f : ProcessRecord → ProcessRecord}
  {record : ProcessRecord} {state : ProcessState} {context : Option SavedContext}

def context_of (t : ProcessTable) (pid : ProcessId) : Option SavedContext := (t.get pid).map (·.context)

def identity_of (t : ProcessTable) (pid : ProcessId) : Option Identity := (t.get pid).map (·.identity)

/-- Isolation is enforced only over private mappings, in all records. -/
def Sound (t : ProcessTable) : Prop := ∀ q record, t.get q = some record → record.Sound

/-- A process moves to a state, with a new context when there is one; the others stay. -/
structure Moves (t t' : ProcessTable) (pid : ℕ) (state : ProcessState)
    (context : Option SavedContext) : Prop where
  numbered : t.Numbered → t'.Numbered
  states : ∀ q, t'.state_of q = if q = pid then some state else t.state_of q
  contexts : ∀ q, t'.context_of q = (t.context_of q).map fun c =>
    if q = pid then context.getD c else c
  identities : ∀ q, t'.identity_of q = t.identity_of q
  sound : t.Sound → t'.Sound

/-- No process moves. -/
structure Stays (t t' : ProcessTable) : Prop where
  numbered : t.Numbered → t'.Numbered
  states : ∀ q, t'.state_of q = t.state_of q
  contexts : ∀ q, t'.context_of q = t.context_of q
  identities : ∀ q, t'.identity_of q = t.identity_of q
  sound : t.Sound → t'.Sound

theorem Stays.refl (t : ProcessTable) : Stays t t := ⟨id, fun _ => rfl, fun _ => rfl, fun _ => rfl, id⟩

theorem Stays.of_eq (h : t' = t) : Stays t t' := h ▸ .refl t'

theorem Stays.trans (h : Stays t t') (h' : Stays t' t'') : Stays t t'' where
  numbered := h'.numbered ∘ h.numbered
  states q := (h'.states q).trans (h.states q)
  contexts q := (h'.contexts q).trans (h.contexts q)
  identities q := (h'.identities q).trans (h.identities q)
  sound := h'.sound ∘ h.sound

theorem Moves.stays (h : Moves t t' pid state context) (h' : Stays t' t'') :
    Moves t t'' pid state context where
  numbered := h'.numbered ∘ h.numbered
  states q := (h'.states q).trans (h.states q)
  contexts q := (h'.contexts q).trans (h.contexts q)
  identities q := (h'.identities q).trans (h.identities q)
  sound := h'.sound ∘ h.sound

theorem sound_modify (hf : ∀ r, ProcessRecord.Kept r (f r)) (h : t.Sound) : (t.modify pid f).Sound := by
  intro q record hget
  rw [get_modify fun r => (hf r).pid] at hget
  split_ifs at hget
  · obtain ⟨r, hr, rfl⟩ := Option.map_eq_some_iff.mp hget
    exact (hf r).sound (h q r hr)
  · exact h q record hget

theorem stays_modify (hf : ∀ r, ProcessRecord.Kept r (f r)) (hstate : ∀ r, (f r).state = r.state)
    (hcontext : ∀ r, (f r).context = r.context) : Stays t (t.modify pid f) := by
  have hget (q : ℕ) : (t.modify pid f).get q = if q = pid then (t.get q).map f else t.get q :=
    get_modify fun r => (hf r).pid
  refine ⟨fun h => numbered_modify h fun r => (hf r).pid, fun q => ?_, fun q => ?_, fun q => ?_,
    sound_modify hf⟩
  · rw [state_of, state_of, hget]
    split_ifs
    · rw [Option.map_map]
      exact congrArg (Option.map · _) (funext hstate)
    · rfl
  · rw [context_of, context_of, hget]
    split_ifs
    · rw [Option.map_map]
      exact congrArg (Option.map · _) (funext hcontext)
    · rfl
  · rw [identity_of, identity_of, hget]
    split_ifs
    · rw [Option.map_map]
      exact congrArg (Option.map · _) (funext fun r => (hf r).identity)
    · rfl

theorem moves_modify (hf : ∀ r, ProcessRecord.Kept r (f r)) (hget : t.get pid = some record)
    (hstate : (f record).state = state) (hcontext : (f record).context = context.getD record.context) :
    Moves t (t.modify pid f) pid state context := by
  have hmod (q : ℕ) : (t.modify pid f).get q = if q = pid then (t.get q).map f else t.get q :=
    get_modify fun r => (hf r).pid
  refine ⟨fun h => numbered_modify h fun r => (hf r).pid, fun q => ?_, fun q => ?_, fun q => ?_,
    sound_modify hf⟩
  · rw [state_of, state_of, hmod]
    split_ifs with hq
    · rw [hq, hget, ← hstate]
      rfl
    · rfl
  · rw [context_of, context_of, hmod]
    split_ifs with hq
    · rw [hq, hget]
      exact congrArg some hcontext
    · exact Option.map_id'.symm
  · rw [identity_of, identity_of, hmod]
    split_ifs with hq
    · rw [Option.map_map]
      exact congrArg (Option.map · _) (funext fun r => (hf r).identity)
    · rfl

/-- Two moves of the same process; the second one keeps its context. -/
theorem Moves.trans {state' : ProcessState} (h : Moves t t' pid state context)
    (h' : Moves t' t'' pid state' none) : Moves t t'' pid state' context where
  numbered := h'.numbered ∘ h.numbered
  states q := by
    rw [h'.states, h.states]
    split_ifs
    · rfl
    · rfl
  contexts q := by
    rw [h'.contexts, h.contexts, Option.map_map]
    refine congrArg (Option.map · _) (funext fun c => ?_)
    simp only [Function.comp_apply, Option.getD_none, ite_self]
  identities q := (h'.identities q).trans (h.identities q)
  sound := h'.sound ∘ h.sound

/-- A process that was not there is added with a record. -/
structure Adds (t t' : ProcessTable) (pid : ℕ) (record : ProcessRecord) : Prop where
  bounds : 1 ≤ pid ∧ pid ≤ MAX_PROCESSES
  numbered : t'.Numbered
  fresh : t.get pid = none
  get : ∀ q, t'.get q = if q = pid then some record else t.get q

theorem adds_of_create {path : Bytes} (h : t.Numbered) (hcreate : t.create path = some (t', pid)) :
    Adds t t' pid (.new pid path) := by
  obtain ⟨hpid, hmax, hnumbered, hfresh, hget⟩ := create_eq_some h hcreate
  exact ⟨⟨by omega, hmax⟩, hnumbered, hfresh, hget⟩

theorem Adds.get_self (h : Adds t t' pid record) : t'.get pid = some record := by
  rw [h.get, if_pos rfl]

theorem Adds.modify (h : Adds t t' pid record) (hf : ∀ r, (f r).pid = r.pid) :
    Adds t (t'.modify pid f) pid (f record) := by
  refine ⟨h.bounds, numbered_modify h.numbered hf, h.fresh, fun q => ?_⟩
  rw [get_modify hf, h.get]
  split_ifs with hq
  · rfl
  · rfl

theorem Adds.map {α : Type} (h : Adds t t' pid record) (g : ProcessRecord → α) (q : ℕ) :
    (t'.get q).map g = if q = pid then some (g record) else (t.get q).map g := by
  rw [h.get]
  split_ifs
  · rfl
  · rfl

end ProcessTable

/-! ## The run queue -/

namespace Scheduler

variable {s : Scheduler} {t : ProcessTable} {pid : ℕ}

/-- A queue of different processes of the table has room for one more. -/
theorem length_lt_max {queue : List ℕ} (h : t.Numbered) (hnodup : queue.Nodup)
    (hqueue : ∀ q ∈ queue, (t.get q).isSome) (hpid : (t.get pid).isSome) (hnot : pid ∉ queue) :
    queue.length < MAX_PROCESSES := by
  have hcons : (pid :: queue).Nodup := List.nodup_cons.mpr ⟨hnot, hnodup⟩
  have hsub : (pid :: queue) ⊆ List.range' 1 t.records.length := by
    intro q hq
    have hsome : (t.get q).isSome := by
      rcases List.mem_cons.mp hq with rfl | hq
      · exact hpid
      · exact hqueue q hq
    have hbounds := (ProcessTable.get_isSome_iff h).mp hsome
    rw [List.mem_range'_1]
    omega
  have hle := hcons.length_le_of_subset hsub
  rw [List.length_cons, List.length_range'] at hle
  have hbound := h.bounded
  omega

theorem enqueue_of_ready (hroom : s.run_queue.length < MAX_PROCESSES) (hnot : pid ∉ s.run_queue)
    (hready : t.state_of pid = some .Ready) :
    (s.enqueue pid t).1 = { s with run_queue := s.run_queue ++ [pid] } := by
  have hcond : ¬ (s.run_queue.length = MAX_PROCESSES ∨ pid ∈ s.run_queue ∨
      (t.get pid).map (·.state) ≠ some .Ready) := by
    rintro (hfull | hmem | hstate)
    · omega
    · exact hnot hmem
    · exact hstate hready
  unfold enqueue
  rw [if_neg hcond]

/-- With a queue of ready processes the first one is selected. -/
theorem select_next_cons {queue : List ℕ} (hqueue : s.run_queue = pid :: queue)
    (hready : t.state_of pid = some .Ready) :
    s.select_next t = ({ s with
      schedule_step := saturating_succ s.schedule_step
      current_pid := some pid
      run_queue := queue
      last_selected_pid := some pid }, t.modify pid fun r => r.mark_scheduled.1, some pid) := by
  obtain ⟨record, hget, hstate⟩ := Option.map_eq_some_iff.mp hready
  have hmark : record.mark_scheduled.2 = true := by
    unfold ProcessRecord.mark_scheduled
    rw [if_neg (by rw [hstate]; exact fun h => h rfl)]
  unfold select_next
  rw [hqueue, pop_ready, hget]
  dsimp only
  rw [if_pos hmark]
  rfl

theorem select_next_nil (hqueue : s.run_queue = []) :
    s.select_next t = ({ s with
      schedule_step := saturating_succ s.schedule_step
      current_pid := none
      run_queue := [] }, t, none) := by
  unfold select_next
  rw [hqueue]
  rfl

end Scheduler

end Bogbin.Core
