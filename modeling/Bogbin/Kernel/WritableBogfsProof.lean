import Bogbin.Kernel.IpcProof
import Bogbin.Kernel.WritableBogfsLaw

/-!
# The calls on writable files follow the law

Every call is a step on the files, with the event that its caller sees: the path and the bytes at
its pointers and what its receipt says (`handle_bogfs_step`).  `writable_bogfs_store` is the law for
every sequence of calls.
-/

namespace Bogbin.Kernel

open Buffer Bogbin.Core KernelState

/-- The version and the hash that the receipt of a read names. -/
def receipt_file (receipts : List Receipt) : Option UInt32 × Option Digest :=
  (receipts.findSome? fun
    | .writable_bogfs _ _ _ _ _ version hash _ _ _ _ => some (version, hash)
    | _ => none).getD (none, none)

/-- The reason of a refused call. -/
def receipt_reason (receipts : List Receipt) : String :=
  match receipts.getLast? with
  | some (.syscall _ _ _ _ _ _ reject_reason) => reject_reason
  | _ => "none"

/-- What a call does on the writable files and answers, as its caller sees it. -/
def bogfs_event (overflow_checks : Bool) (k : KernelState) (regs : SyscallRegisters) :
    BogfsEvent :=
  let path := k.read_memory regs.ebx regs.ecx.toNat
  match handle_syscall overflow_checks k regs with
  | .returned eax receipts k' =>
    let accepted := (SyscallOutcome.returned eax receipts k').accepted
    if regs.eax = SYSCALL_V2_BOGFS_WRITE then
      if accepted then .wrote path (k.read_memory regs.edx regs.esi.toNat) else .quiet
    else if regs.eax = SYSCALL_V2_BOGFS_READ then
      if accepted then
        .read path eax.toNat (k'.read_memory regs.edx eax.toNat) (receipt_file receipts).1
          (receipt_file receipts).2
      else .refused (receipt_reason receipts)
    else if regs.eax = SYSCALL_V2_BOGFS_STAT then
      if accepted then .stat path (k'.read_memory regs.edx eax.toNat)
      else .refused (receipt_reason receipts)
    else .quiet
  | .left .. => .quiet
  | .panicked => .quiet

/-! ## Reasons -/

/-- Every error of a check has a property. -/
def Errors {ε α : Type} (P : ε → Prop) (x : Except ε α) : Prop := ∀ e, x = .error e → P e

namespace Errors

variable {ε ε' α β : Type} {P : ε → Prop} {x : Except ε α}

theorem of_ok (a : α) : Errors P (.ok a : Except ε α) := fun _ h => nomatch h

theorem of_error {e : ε} (h : P e) : Errors P (.error e : Except ε α) := by
  intro e' he
  obtain rfl := Except.error.inj he
  exact h

theorem reject_if {c : Prop} [Decidable c] {e : ε} (h : P e) : Errors P (reject_if c e) := by
  unfold Bogbin.reject_if
  split_ifs
  · exact of_error h
  · exact of_ok ()

theorem bind {f : α → Except ε β} (hx : Errors P x) (hf : ∀ a, x = .ok a → Errors P (f a)) :
    Errors P (x >>= f) := by
  cases x with
  | error e => exact of_error (hx e rfl)
  | ok a => exact hf a rfl

theorem ok_or {y : Option α} {reason : String} {P : String → Prop} (h : P reason) :
    Errors P (Kernel.ok_or y reason) := by
  cases y with
  | none => exact of_error h
  | some a => exact of_ok a

theorem forM {l : List β} {f : β → Except ε Unit} (h : ∀ b, Errors P (f b)) :
    Errors P (l.forM f) := by
  induction l with
  | nil => exact of_ok ()
  | cons b l ih => exact (h b).bind fun _ _ => ih

theorem mapError {f : ε → ε'} {Q : ε' → Prop} (h : Errors P x) (hf : ∀ e, P e → Q (f e)) :
    Errors Q (x.mapError f) := by
  cases x with
  | ok a => exact of_ok a
  | error e => exact of_error (hf e (h e rfl))

end Errors

/-- The reason is not that the contents do not have their hash. -/
def NoMismatch (reason : String) : Prop := reason ≠ "committed_hash_mismatch"

namespace KernelState

variable {k : KernelState} {regs : SyscallRegisters}

theorem user_range_reasons {address : UInt32} {length : ℕ} {writable : Bool} :
    Errors NoMismatch (k.validate_active_user_range address length writable) := by
  unfold validate_active_user_range NoMismatch
  refine (Errors.reject_if (by decide)).bind fun _ _ => ?_
  refine (Errors.reject_if (by decide)).bind fun _ _ => ?_
  refine (Errors.reject_if (by decide)).bind fun _ _ => ?_
  refine (Errors.reject_if (by decide)).bind fun _ _ => ?_
  refine (Errors.ok_or (by decide)).bind fun _ _ => ?_
  refine (Errors.reject_if (by decide)).bind fun _ _ => ?_
  refine (Errors.forM fun page => ?_).bind fun _ _ => .of_ok _
  exact (Errors.reject_if (by decide)).bind fun _ _ => Errors.reject_if (by decide)

theorem path_index_reasons {address : UInt32} {length : ℕ} :
    Errors NoMismatch (k.writable_bogfs_path_index address length) := by
  unfold writable_bogfs_path_index
  refine (Errors.reject_if (by unfold NoMismatch; decide)).bind fun _ _ => ?_
  refine user_range_reasons.bind fun _ _ => ?_
  refine (Errors.reject_if (by unfold NoMismatch; decide)).bind fun _ _ => ?_
  split
  · exact .of_ok _
  refine (Errors.reject_if (by unfold NoMismatch; decide)).bind fun _ _ => ?_
  refine (Errors.reject_if (by unfold NoMismatch; decide)).bind fun _ _ => ?_
  exact .of_error (by unfold NoMismatch; decide)

theorem caller_reasons : Errors NoMismatch k.active_writable_bogfs_pid := by
  unfold active_writable_bogfs_pid active_admitted_pid NoMismatch
  refine (Errors.reject_if (by decide)).bind fun _ _ => ?_
  refine (Errors.ok_or (by decide)).bind fun _ _ => ?_
  exact (Errors.reject_if (by decide)).bind fun _ _ => .of_ok _

/-- A refusal that does not blame the contents. -/
def Innocent (r : Rejection) : Prop := NoMismatch r.reject_reason

theorem caller_refusals {receipts : String → List Receipt} :
    Errors Innocent (k.bogfs_caller receipts) :=
  caller_reasons.mapError fun _ h => h

theorem user_range_refusals {address : UInt32} {length : ℕ} {writable : Bool}
    {receipts : String → List Receipt} :
    Errors Innocent (k.user_range address length writable receipts) :=
  user_range_reasons.mapError fun _ h => h

theorem file_refusals {receipts : String → List Receipt} :
    Errors Innocent (k.bogfs_file regs receipts) :=
  path_index_reasons.mapError fun _ h => h

theorem read_file_refusals : Errors Innocent (k.bogfs_read_file regs) := by
  refine caller_refusals.bind fun _ _ => ?_
  exact file_refusals.bind fun _ _ => .of_ok _

theorem read_checks_reasons {pid : ProcessId} {file : WritableBogFsFile} {actual : Digest} :
    Errors (fun r => r.reject_reason = "committed_hash_mismatch" → actual ≠ file.hash)
      (k.bogfs_read_checks regs pid file actual) := by
  by_cases hactual : actual ≠ file.hash
  · exact fun _ _ _ => hactual
  have hinnocent : Errors Innocent (k.bogfs_read_checks regs pid file actual) := by
    unfold bogfs_read_checks
    dsimp only
    rw [reject_if, if_neg hactual]
    have hreason : "buffer_too_small" ≠ "committed_hash_mismatch" := by decide
    refine (Errors.of_ok ()).bind fun _ _ => ?_
    refine (Errors.reject_if (by exact hreason)).bind fun _ _ => ?_
    split_ifs
    · exact user_range_refusals.bind fun _ _ => .of_ok _
    · exact .of_ok _
  exact fun r hr hreason => absurd hreason (hinnocent r hr)

theorem stat_file_refusals : Errors Innocent (k.bogfs_stat_file regs) := by
  refine caller_refusals.bind fun _ _ => ?_
  refine file_refusals.bind fun _ _ => ?_
  exact (Errors.reject_if (by unfold Innocent NoMismatch; decide)).bind fun _ _ => .of_ok _

theorem stat_checks_reasons {file : WritableBogFsFile} {actual : Digest} :
    Errors (fun r => r.reject_reason = "committed_hash_mismatch" → actual ≠ file.hash)
      (k.bogfs_stat_checks regs file actual) := by
  by_cases hactual : actual ≠ file.hash
  · exact fun _ _ _ => hactual
  have hinnocent : Errors Innocent (k.bogfs_stat_checks regs file actual) := by
    unfold bogfs_stat_checks
    rw [reject_if, if_neg hactual]
    refine (Errors.of_ok ()).bind fun _ _ => ?_
    exact user_range_refusals.bind fun _ _ => .of_ok _
  exact fun r hr hreason => absurd hreason (hinnocent r hr)

/-! ## Checks -/

/-- The file of a call has the path that the call names. -/
theorem bogfs_file_path {receipts : String → List Receipt} {index : Fin WRITABLE_BOGFS_MAX_FILES}
    (h : k.bogfs_file regs receipts = .ok index) :
    (k.writable_bogfs_files index).path = k.read_memory regs.ebx regs.ecx.toNat := by
  have hindex := mapError_eq_ok.mp h
  simp only [writable_bogfs_path_index, bind_eq_ok] at hindex
  obtain ⟨_, -, _, -, _, -, hfind⟩ := hindex
  split at hfind
  · rename_i i hi
    obtain rfl := Except.ok.inj hfind
    simpa using List.find?_some hi
  · simp only [reject_bind_eq_ok] at hfind
    cases hfind.2.2

theorem write_checks_eq {pid : ProcessId} {index : Fin WRITABLE_BOGFS_MAX_FILES}
    (h : k.bogfs_write_checks regs = .ok (pid, index)) :
    (k.writable_bogfs_files index).path = k.read_memory regs.ebx regs.ecx.toNat ∧
      regs.esi.toNat ≤ WRITABLE_BOGFS_MAX_FILE_SIZE := by
  simp only [bogfs_write_checks, bind_eq_ok, reject_if_eq_ok, Except.ok.injEq, Prod.mk.injEq] at h
  obtain ⟨_, -, _, hlength, _, hfile, _, -, _, -, _, -, -, rfl⟩ := h
  exact ⟨bogfs_file_path hfile, by omega⟩

theorem read_file_eq {pid : ProcessId} {index : Fin WRITABLE_BOGFS_MAX_FILES}
    (h : k.bogfs_read_file regs = .ok (pid, index)) :
    (k.writable_bogfs_files index).path = k.read_memory regs.ebx regs.ecx.toNat := by
  simp only [bogfs_read_file, bind_eq_ok, Except.ok.injEq, Prod.mk.injEq] at h
  obtain ⟨_, -, _, hfile, -, rfl⟩ := h
  exact bogfs_file_path hfile

theorem stat_file_eq {pid : ProcessId} {index : Fin WRITABLE_BOGFS_MAX_FILES}
    (h : k.bogfs_stat_file regs = .ok (pid, index)) :
    (k.writable_bogfs_files index).path = k.read_memory regs.ebx regs.ecx.toNat := by
  simp only [bogfs_stat_file, bind_eq_ok, Except.ok.injEq, Prod.mk.injEq] at h
  obtain ⟨_, -, _, hfile, _, -, -, rfl⟩ := h
  exact bogfs_file_path hfile

theorem take_staged (h : regs.esi.toNat ≤ WRITABLE_BOGFS_MAX_FILE_SIZE) :
    (k.staged regs).val.take regs.esi.toNat = k.read_memory regs.edx regs.esi.toNat := by
  have hlength : (k.read_memory regs.edx regs.esi.toNat).length = regs.esi.toNat :=
    length_read_memory ..
  rw [staged]
  dsimp only
  rw [List.take_take, min_eq_left h, List.take_append_of_le_length hlength.ge,
    List.take_of_length_le hlength.le]

end KernelState

section Step

variable {overflow_checks : Bool} {k k' k₂ : KernelState} {regs : SyscallRegisters}

theorem receipt_reason_of_reject {r : Rejection} :
    receipt_reason (r.receipts ++ [k.syscall_receipt regs r.result "rejected" r.reject_reason]) =
      r.reject_reason := by
  rw [receipt_reason, List.getLast?_concat]
  rfl

theorem bogfs_event_of_reject {r : Rejection}
    (h : handle_syscall overflow_checks k regs = k.reject regs r) :
    bogfs_event overflow_checks k regs =
      if regs.eax = SYSCALL_V2_BOGFS_WRITE then .quiet
      else if regs.eax = SYSCALL_V2_BOGFS_READ then .refused r.reject_reason
      else if regs.eax = SYSCALL_V2_BOGFS_STAT then .refused r.reject_reason
      else .quiet := by
  have haccepted := k.reject_accepted regs r
  unfold bogfs_event
  rw [h]
  unfold KernelState.reject at haccepted ⊢
  dsimp only
  rw [haccepted, receipt_reason_of_reject]
  rfl

theorem bogfs_event_of_accept {receipts : List Receipt} {result : UInt32}
    (h : handle_syscall overflow_checks k regs = k₂.accept regs receipts result) :
    bogfs_event overflow_checks k regs =
      if regs.eax = SYSCALL_V2_BOGFS_WRITE then
        .wrote (k.read_memory regs.ebx regs.ecx.toNat) (k.read_memory regs.edx regs.esi.toNat)
      else if regs.eax = SYSCALL_V2_BOGFS_READ then
        let file := receipt_file
          (receipts ++ [k₂.syscall_receipt regs result.toInt32 "accepted" "none"])
        .read (k.read_memory regs.ebx regs.ecx.toNat) result.toNat
          (k₂.read_memory regs.edx result.toNat) file.1 file.2
      else if regs.eax = SYSCALL_V2_BOGFS_STAT then
        .stat (k.read_memory regs.ebx regs.ecx.toNat) (k₂.read_memory regs.edx result.toNat)
      else .quiet := by
  have haccepted := k₂.accept_accepted regs receipts result
  unfold bogfs_event
  rw [h]
  unfold KernelState.accept at haccepted ⊢
  dsimp only
  rw [haccepted]
  rfl

theorem bogfs_event_quiet (hwrite : regs.eax ≠ SYSCALL_V2_BOGFS_WRITE)
    (hread : regs.eax ≠ SYSCALL_V2_BOGFS_READ) (hstat : regs.eax ≠ SYSCALL_V2_BOGFS_STAT) :
    bogfs_event overflow_checks k regs = .quiet := by
  unfold bogfs_event
  simp only [hwrite, hread, hstat, if_false]
  split <;> rfl

/-- A write stores the bytes at its pointer under the path at its pointer or does nothing. -/
theorem sys_bogfs_write_step (hnum : regs.eax = SYSCALL_V2_BOGFS_WRITE)
    (h : (k.sys_bogfs_write overflow_checks regs).next = some k') :
    BogfsStep overflow_checks k.writable_bogfs_files (bogfs_event overflow_checks k regs)
      k'.writable_bogfs_files := by
  have hcall := @handle_bogfs_write overflow_checks k regs hnum
  unfold sys_bogfs_write at h hcall
  cases hc : k.bogfs_write_checks regs with
  | error r =>
    rw [hc] at h hcall
    obtain rfl := Option.some.inj h
    rw [bogfs_event_of_reject hcall, if_pos hnum]
    exact .quiet _
  | ok a =>
    obtain ⟨pid, index⟩ := a
    rw [hc] at h hcall
    obtain ⟨hpath, hlength⟩ := write_checks_eq hc
    simp only [attempt] at h hcall
    cases hused : used_after overflow_checks k.writable_bogfs_files index regs.esi.toNat with
    | none =>
      rw [hused] at h
      cases h
    | some after =>
      simp only [hused] at h hcall
      split_ifs at h hcall with hroom
      · obtain rfl := Option.some.inj h
        rw [bogfs_event_of_reject hcall, if_pos hnum]
        exact .quiet _
      · obtain rfl := Option.some.inj h
        have hcontents := length_read_memory (k := k) regs.edx regs.esi.toNat
        have hstaged := take_staged (k := k) hlength
        rw [bogfs_event_of_accept hcall, if_pos hnum, ← hpath]
        have hstep := @BogfsStep.write overflow_checks k.writable_bogfs_files index
          (k.read_memory regs.edx regs.esi.toNat) (k.staged regs) after (by rw [hcontents]; exact hlength)
          (by rw [hcontents]; exact hstaged) (by rw [hcontents]; exact hused) (by omega)
        rw [hcontents, ← hstaged] at hstep
        rw [← hstaged]
        exact hstep

/-- The hash of a file that holds at most the maximum. -/
theorem committed_hash_eq {file : WritableBogFsFile}
    (h : file.length ≤ WRITABLE_BOGFS_MAX_FILE_SIZE) :
    committed_hash file = some (sha256 (file.data.val.take file.length)) :=
  if_pos h

/-- A read hands out the file at its path or is refused. -/
theorem sys_bogfs_read_step (hnum : regs.eax = SYSCALL_V2_BOGFS_READ)
    (hlength : ∀ i, (k.writable_bogfs_files i).length ≤ WRITABLE_BOGFS_MAX_FILE_SIZE) :
    BogfsStep overflow_checks k.writable_bogfs_files (bogfs_event overflow_checks k regs)
      k.writable_bogfs_files := by
  have hcall := @handle_bogfs_read overflow_checks k regs hnum
  have hnotwrite : regs.eax ≠ SYSCALL_V2_BOGFS_WRITE := by
    rw [hnum]
    decide
  unfold sys_bogfs_read at hcall
  cases hf : k.bogfs_read_file regs with
  | error r =>
    rw [hf] at hcall
    rw [bogfs_event_of_reject hcall, if_neg hnotwrite, if_pos hnum]
    exact .refused fun hreason => absurd hreason (read_file_refusals r hf)
  | ok a =>
    obtain ⟨pid, index⟩ := a
    rw [hf] at hcall
    simp only [attempt, committed_hash_eq (hlength index)] at hcall
    cases hc : k.bogfs_read_checks regs pid (k.writable_bogfs_files index)
        (sha256 ((k.writable_bogfs_files index).data.val.take
          (k.writable_bogfs_files index).length)) with
    | error r =>
      rw [hc] at hcall
      rw [bogfs_event_of_reject hcall, if_neg hnotwrite, if_pos hnum]
      exact .refused fun hreason => ⟨index, read_checks_reasons r hc hreason⟩
    | ok _ =>
      rw [hc] at hcall
      have hmax : WRITABLE_BOGFS_MAX_FILE_SIZE = 64 := rfl
      have hle := hlength index
      have hsize : (UInt32.ofNat (k.writable_bogfs_files index).length).toNat =
          (k.writable_bogfs_files index).length :=
        UInt32.toNat_ofNat_of_lt' (by unfold UInt32.size; omega)
      have htake : ((k.writable_bogfs_files index).data.val.take
          (k.writable_bogfs_files index).length).length = (k.writable_bogfs_files index).length := by
        have hdata := (k.writable_bogfs_files index).data.2
        rw [List.length_take]
        omega
      have hread := @read_write_memory k regs.edx ((k.writable_bogfs_files index).data.val.take
        (k.writable_bogfs_files index).length) (by omega)
      rw [htake] at hread
      rw [bogfs_event_of_accept hcall, if_neg hnotwrite, if_pos hnum, hsize, hread,
        ← read_file_eq hf]
      exact .read _ index

/-- A stat describes the file at its path or is refused. -/
theorem sys_bogfs_stat_step (hnum : regs.eax = SYSCALL_V2_BOGFS_STAT)
    (hlength : ∀ i, (k.writable_bogfs_files i).length ≤ WRITABLE_BOGFS_MAX_FILE_SIZE) :
    BogfsStep overflow_checks k.writable_bogfs_files (bogfs_event overflow_checks k regs)
      k.writable_bogfs_files := by
  have hcall := @handle_bogfs_stat overflow_checks k regs hnum
  have hnotwrite : regs.eax ≠ SYSCALL_V2_BOGFS_WRITE := by
    rw [hnum]
    decide
  have hnotread : regs.eax ≠ SYSCALL_V2_BOGFS_READ := by
    rw [hnum]
    decide
  unfold sys_bogfs_stat at hcall
  cases hf : k.bogfs_stat_file regs with
  | error r =>
    rw [hf] at hcall
    rw [bogfs_event_of_reject hcall, if_neg hnotwrite, if_neg hnotread, if_pos hnum]
    exact .refused fun hreason => absurd hreason (stat_file_refusals r hf)
  | ok a =>
    obtain ⟨pid, index⟩ := a
    rw [hf] at hcall
    simp only [attempt, committed_hash_eq (hlength index)] at hcall
    cases hc : k.bogfs_stat_checks regs (k.writable_bogfs_files index)
        (sha256 ((k.writable_bogfs_files index).data.val.take
          (k.writable_bogfs_files index).length)) with
    | error r =>
      rw [hc] at hcall
      rw [bogfs_event_of_reject hcall, if_neg hnotwrite, if_neg hnotread, if_pos hnum]
      exact .refused fun hreason => ⟨index, stat_checks_reasons r hc hreason⟩
    | ok _ =>
      rw [hc] at hcall
      have hbytes : (stat_bytes (k.writable_bogfs_files index)).length = WRITABLE_BOGFS_STAT_SIZE := by
        have hhash := (k.writable_bogfs_files index).hash.2
        simp only [stat_bytes, List.length_append, length_leBytes, hhash]
        rfl
      have hsize : (UInt32.ofNat WRITABLE_BOGFS_STAT_SIZE).toNat = WRITABLE_BOGFS_STAT_SIZE := rfl
      have hread := @read_write_memory k regs.edx (stat_bytes (k.writable_bogfs_files index))
        (by rw [hbytes]; decide)
      rw [hbytes] at hread
      rw [bogfs_event_of_accept hcall, if_neg hnotwrite, if_neg hnotread, if_pos hnum, hsize, hread,
        ← stat_file_eq hf]
      exact .stat _ index

/-- Every call is a step on the files, with the event that its caller sees. -/
theorem handle_bogfs_step
    (hlength : ∀ i, (k.writable_bogfs_files i).length ≤ WRITABLE_BOGFS_MAX_FILE_SIZE)
    (h : (handle_syscall overflow_checks k regs).next = some k') :
    BogfsStep overflow_checks k.writable_bogfs_files (bogfs_event overflow_checks k regs)
      k'.writable_bogfs_files := by
  by_cases hwrite : regs.eax = SYSCALL_V2_BOGFS_WRITE
  · rw [handle_bogfs_write hwrite] at h
    exact sys_bogfs_write_step hwrite h
  have hkeeps : (handle_syscall overflow_checks k regs).Keeps (fun k => Prod.snd k.stores) k :=
    handle_keeps (fun _ => ipc_register_keeps_files) (fun _ => ipc_send_keeps_files)
      (fun _ => ipc_recv_keeps_files) (absurd · hwrite)
  have hsame : k'.writable_bogfs_files = k.writable_bogfs_files := hkeeps k' h
  rw [hsame]
  by_cases hread : regs.eax = SYSCALL_V2_BOGFS_READ
  · exact sys_bogfs_read_step hread hlength
  by_cases hstat : regs.eax = SYSCALL_V2_BOGFS_STAT
  · exact sys_bogfs_stat_step hstat hlength
  rw [bogfs_event_quiet hwrite hread hstat]
  exact .quiet _

end Step

/-! ## Sequences of calls -/

/-- A sequence of calls of admitted processes, from the start of the kernel on.  Between two calls
everything but the writable files may change; a call that panics ends the sequence. -/
inductive BogfsRun (overflow_checks : Bool) : KernelState → List BogfsEvent → Prop
  | start {k : KernelState} (h : k.writable_bogfs_files = .initial) : BogfsRun overflow_checks k []
  | call {k k₁ k₂ : KernelState} {regs : SyscallRegisters} {events : List BogfsEvent}
      (run : BogfsRun overflow_checks k events)
      (between : k₁.writable_bogfs_files = k.writable_bogfs_files)
      (admitted : k₁.dynamic_loader_admitted = true)
      (next : (handle_syscall overflow_checks k₁ regs).next = some k₂) :
      BogfsRun overflow_checks k₂ (events ++ [bogfs_event overflow_checks k₁ regs])

theorem BogfsRun.law {overflow_checks : Bool} {k : KernelState} {events : List BogfsEvent}
    (h : BogfsRun overflow_checks k events) : BogfsLaw events k.writable_bogfs_files := by
  induction h with
  | start h =>
    rw [h]
    exact bogfsLaw_initial
  | call run between admitted next ih =>
    rw [← between] at ih
    exact ih.step (handle_bogfs_step (fun i => (ih.file i).length_le) next)

/-- Every answer of a run is true of the events before it. -/
theorem BogfsRun.truthful {overflow_checks : Bool} {k : KernelState} {events : List BogfsEvent}
    (h : BogfsRun overflow_checks k events) {before after : List BogfsEvent} {e : BogfsEvent}
    (hevents : events = before ++ e :: after) : Truthful before e := by
  induction h generalizing after with
  | start => simp at hevents
  | call run between admitted next ih =>
    have hlaw := run.law
    rw [← between] at hlaw
    -- the event is the last one or one of the calls before
    rcases List.eq_nil_or_concat after with rfl | ⟨after', last, rfl⟩
    · obtain ⟨rfl, he⟩ := List.append_inj' hevents rfl
      obtain rfl := List.singleton_inj.mp he
      exact hlaw.truthful (handle_bogfs_step (fun i => (hlaw.file i).length_le) next)
    · rw [List.concat_eq_append, ← List.cons_append, ← List.append_assoc] at hevents
      exact ih (List.append_inj' hevents rfl).1

/-- After every sequence of calls the hash of a file is the digest of its bytes, its version counts
the writes to its path, the files fit into the capacity and its computation is exact.  Every answer
of a read or a stat is the last write to its path, and none blames the contents. -/
theorem writable_bogfs_store {overflow_checks : Bool} {k : KernelState} {events : List BogfsEvent}
    (h : BogfsRun overflow_checks k events) :
    (∀ i, let file := k.writable_bogfs_files i
      file.path = (WritableBogfs.initial i).path ∧
      file.length ≤ WRITABLE_BOGFS_MAX_FILE_SIZE ∧
      file.hash = sha256 (file.data.val.take file.length) ∧
      file.data.val.take file.length = last_write file.path events ∧
      file.version.toNat = (writes_to file.path events).length % 2 ^ 32) ∧
    writable_bogfs_used_bytes k.writable_bogfs_files ≤ WRITABLE_BOGFS_TOTAL_CAPACITY ∧
    (∀ i length, length ≤ WRITABLE_BOGFS_MAX_FILE_SIZE →
      (k.writable_bogfs_files i).length ≤ writable_bogfs_used_bytes k.writable_bogfs_files ∧
      used_after overflow_checks k.writable_bogfs_files i length =
        some (writable_bogfs_used_bytes k.writable_bogfs_files - (k.writable_bogfs_files i).length +
          length)) ∧
    ∀ before e after, events = before ++ e :: after → Truthful before e := by
  have hlaw := h.law
  refine ⟨fun i => ?_, hlaw.used_le, fun i length hlength => ?_, fun _ _ _ => h.truthful⟩
  · have hfile := hlaw.file i
    refine ⟨hlaw.path i, hfile.length_le, ?_, hfile.contents, ?_⟩
    · rw [hfile.contents, hfile.hash]
    · rw [hfile.version, UInt32.toNat_ofNat']
  · exact ⟨length_le_used_bytes _ i, hlaw.used_after_eq i hlength⟩

/-! ## A write and a read -/

/-- The kernel of `ipc_kernel` with a path and the text `ABC` in its page. -/
def bogfs_kernel : KernelState :=
  { ipc_kernel with
    memory := fun a => (ascii "/data/shared.binABC").getD (a.toNat - 4096) 0 }

/-- The registers of a call on the file at this path, with a buffer in the page. -/
def bogfs_registers (eax edx esi : UInt32) : SyscallRegisters :=
  { ipc_registers eax 4096 16 edx with esi := esi }

/-- The process writes `ABC` and reads it behind the path. -/
def bogfs_written : KernelState :=
  after_call bogfs_kernel (bogfs_registers SYSCALL_V2_BOGFS_WRITE 4112 3)
def bogfs_reread : KernelState :=
  after_call bogfs_written (bogfs_registers SYSCALL_V2_BOGFS_READ 4128 64)

theorem writable_bogfs_store_one_write : ∃ events, BogfsRun true bogfs_reread events ∧
    last_write (ascii "/data/shared.bin") events = ascii "ABC" ∧
    bogfs_reread.read_memory 4128 3 = ascii "ABC" ∧
    writable_bogfs_used_bytes bogfs_reread.writable_bogfs_files ≤ WRITABLE_BOGFS_TOTAL_CAPACITY := by
  have hwritten := BogfsRun.call (.start rfl) rfl (by decide)
    (@next_after_call bogfs_kernel (bogfs_registers SYSCALL_V2_BOGFS_WRITE 4112 3)
      (by decide +kernel))
  have hreread := BogfsRun.call hwritten rfl (by decide +kernel)
    (@next_after_call bogfs_written (bogfs_registers SYSCALL_V2_BOGFS_READ 4128 64)
      (by decide +kernel))
  exact ⟨_, hreread, by decide +kernel, by decide +kernel, (writable_bogfs_store hreread).2.1⟩

end Bogbin.Kernel
