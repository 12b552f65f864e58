import Bogbin.Kernel.IpcLaw

/-!
# The calls on channels follow the law

Every call is a step on the channels whose event is what the caller sees: the bytes at its pointer
when a send is accepted, the bytes at its pointer after an accepted receive (`handle_ipc_step`).
`ipc_channels_fifo` is the law for every sequence of calls.
-/

namespace Bogbin.Kernel

open Buffer Bogbin.Core ArrayQueue

/-- The sender that the receipt of a receive names. -/
def receipt_sender (receipts : List Receipt) : ProcessId :=
  (receipts.findSome? fun
    | .ipc_recv _ from_pid _ _ _ _ _ _ _ _ _ => from_pid
    | _ => none).getD 0

/-- What a call does on the channels, as its caller sees it. -/
def ipc_event (overflow_checks : Bool) (k : KernelState) (regs : SyscallRegisters) : IpcEvent :=
  match handle_syscall overflow_checks k regs with
  | .returned eax receipts k' =>
    if (SyscallOutcome.returned eax receipts k').accepted = false then .quiet
    else if regs.eax = SYSCALL_V2_IPC_SEND then
      .sent regs.ebx ⟨k.active_scheduled_pid, k.read_memory regs.ecx regs.edx.toNat⟩
    else if regs.eax = SYSCALL_V2_IPC_RECV then
      .received regs.ebx k.active_scheduled_pid
        ⟨receipt_sender receipts, k'.read_memory regs.ecx eax.toNat⟩
    else .quiet
  | .left .. => .quiet
  | .panicked => .quiet

namespace KernelState

variable {k : KernelState} {regs : SyscallRegisters}

@[simp] theorem length_read_memory (address : UInt32) (length : ℕ) :
    (k.read_memory address length).length = length := by
  simp [read_memory]

/-- What was written at a pointer is read there. -/
theorem read_write_memory (address : UInt32) {bytes : Bytes} (h : bytes.length ≤ 2 ^ 32) :
    (k.write_memory address bytes).read_memory address bytes.length = bytes := by
  apply List.ext_getElem
  · simp
  · intro i hi hi'
    have hmod : i % 4294967296 = i := Nat.mod_eq_of_lt (by omega)
    simp [read_memory, write_memory, hmod, hi']

theorem active_admitted_pid_eq {pid : ProcessId} (h : k.active_admitted_pid = .ok pid) :
    pid = k.active_scheduled_pid := by
  simp only [active_admitted_pid, bind_eq_ok, reject_if_eq_ok, Except.ok.injEq] at h
  obtain ⟨_, -, _, -, _, -, rfl⟩ := h
  rfl

theorem mapError_eq_ok {ε ε' α : Type} {x : Except ε α} {f : ε → ε'} {a : α} :
    x.mapError f = .ok a ↔ x = .ok a := by
  cases x <;> simp [Except.mapError]

theorem ipc_caller_eq {pid : ProcessId} (h : k.ipc_caller = .ok pid) :
    pid = k.active_scheduled_pid :=
  active_admitted_pid_eq (mapError_eq_ok.mp h)

theorem ipc_channel_index_eq {channel_id : UInt32} {index : Fin IPC_MAX_CHANNELS}
    (h : k.ipc_channel_index channel_id = some index) :
    (k.ipc.channels index).used = true ∧ (k.ipc.channels index).channel_id = channel_id := by
  simpa using List.find?_some h

theorem ipc_free_index_eq {index : Fin IPC_MAX_CHANNELS} (h : k.ipc_free_index = some index) :
    (k.ipc.channels index).used = false ∧ ∀ i < index, (k.ipc.channels i).used = true := by
  refine ⟨by simpa using List.find?_some h, fun i hi => ?_⟩
  obtain ⟨-, n, hn, hget, hbefore⟩ := List.find?_eq_some_iff_getElem.mp h
  have hindex : index.val = n := by
    rw [← hget]
    simp
  have hused := hbefore i.val (by omega)
  simpa using hused

/-- What the checks of a registration say. -/
theorem ipc_register_checks_eq {pid : ProcessId} {index : Fin IPC_MAX_CHANNELS}
    (h : k.ipc_register_checks regs = .ok (pid, index)) :
    regs.ecx.toNat ≤ IPC_MAX_MESSAGE_SIZE ∧ regs.edx.toNat ≤ IPC_MAX_QUEUE_DEPTH ∧
      k.ipc_free_index = some index := by
  simp only [ipc_register_checks, bind_eq_ok, reject_if_eq_ok] at h
  obtain ⟨_, -, _, -, _, hsize, _, -, hfree⟩ := h
  cases hindex : k.ipc_free_index with
  | none => simp [hindex] at hfree
  | some i =>
    simp only [hindex, Except.ok.injEq, Prod.mk.injEq] at hfree
    refine ⟨by omega, by omega, by rw [hfree.2]⟩

/-- What the checks of a send say. -/
theorem ipc_send_checks_eq {pid : ProcessId} {index : Fin IPC_MAX_CHANNELS}
    (h : k.ipc_send_checks regs = .ok (pid, index)) :
    pid = k.active_scheduled_pid ∧ k.ipc_channel_index regs.ebx = some index ∧
      (k.ipc.channels index).owner_pid = pid ∧
      regs.edx.toNat ≤ (k.ipc.channels index).max_message_size ∧
      (k.ipc.channels index).queue_depth < (k.ipc.channels index).max_queue_depth := by
  simp only [ipc_send_checks, bind_eq_ok] at h
  obtain ⟨_, hpid, hindex⟩ := h
  have hactive := ipc_caller_eq hpid
  cases hi : k.ipc_channel_index regs.ebx with
  | none => simp [hi] at hindex
  | some i =>
    simp only [hi, bind_eq_ok, reject_if_eq_ok, Except.ok.injEq, Prod.mk.injEq] at hindex
    obtain ⟨_, howner, _, -, _, hlength, _, hdepth, _, -, _, -, rfl, rfl⟩ := hindex
    exact ⟨hactive, rfl, not_not.mp howner, by omega, by omega⟩

/-- A sent message holds the bytes at the pointer of the call and their digest. -/
theorem ipc_message_spec (k : KernelState) (regs : SyscallRegisters) (pid : ProcessId)
    (h : regs.edx.toNat ≤ IPC_MAX_MESSAGE_SIZE) :
    (k.ipc_message regs pid h).transfer = ⟨pid, k.read_memory regs.ecx regs.edx.toNat⟩ ∧
      (k.ipc_message regs pid h).Valid := by
  refine ⟨?_, h, rfl⟩
  have htake : (patch (zeros IPC_MAX_MESSAGE_SIZE) 0
      (k.read_memory regs.ecx regs.edx.toNat)).take regs.edx.toNat =
        k.read_memory regs.ecx regs.edx.toNat := by
    simp [patch]
  exact congrArg (Transfer.mk pid) htake

/-- What the checks of a receive say. -/
theorem ipc_recv_checks_eq {pid : ProcessId} {index : Fin IPC_MAX_CHANNELS}
    (h : k.ipc_recv_checks regs = .ok (pid, index)) :
    pid = k.active_scheduled_pid ∧ k.ipc_channel_index regs.ebx = some index ∧
      (k.ipc.channels index).peer_pid = pid ∧ (k.ipc.channels index).queue_depth ≠ 0 := by
  simp only [ipc_recv_checks, bind_eq_ok] at h
  obtain ⟨_, hpid, hindex⟩ := h
  have hactive := ipc_caller_eq hpid
  cases hi : k.ipc_channel_index regs.ebx with
  | none => simp [hi] at hindex
  | some i =>
    simp only [hi, bind_eq_ok, reject_if_eq_ok, Except.ok.injEq, Prod.mk.injEq] at hindex
    obtain ⟨_, hpeer, _, -, _, hdepth, _, -, _, -, rfl, rfl⟩ := hindex
    exact ⟨hactive, rfl, not_not.mp hpeer, hdepth⟩

/-- What a receive leaves at its pointer is the payload of the first message. -/
theorem first_message_transfer (k : KernelState) {index : Fin IPC_MAX_CHANNELS}
    (h : (k.first_message index).payload_length ≤ IPC_MAX_MESSAGE_SIZE) (address : UInt32) :
    (k.first_message index).transfer = ⟨(k.first_message index).from_pid,
      (k.write_memory address ((k.first_message index).payload.val.take
        (k.first_message index).payload_length)).read_memory address
          (UInt32.ofNat (k.first_message index).payload_length).toNat⟩ := by
  have hpayload := (k.first_message index).payload.2
  have hmax : IPC_MAX_MESSAGE_SIZE = 64 := rfl
  have hlen : ((k.first_message index).payload.val.take
      (k.first_message index).payload_length).length = (k.first_message index).payload_length := by
    rw [List.length_take, hpayload]
    omega
  have hread := @read_write_memory k address ((k.first_message index).payload.val.take
    (k.first_message index).payload_length) (by omega)
  rw [hlen] at hread
  rw [UInt32.toNat_ofNat_of_lt' (by unfold UInt32.size; omega), hread]
  rfl

end KernelState

section Step

variable {overflow_checks : Bool} {k k' : KernelState} {regs : SyscallRegisters}

theorem ipc_event_of_reject {r : Rejection}
    (h : handle_syscall overflow_checks k regs = k.reject regs r) :
    ipc_event overflow_checks k regs = .quiet := by
  have haccepted := k.reject_accepted regs r
  unfold ipc_event
  rw [h]
  exact if_pos haccepted

theorem ipc_event_of_accept {k₂ : KernelState} {receipts : List Receipt} {result : UInt32}
    (h : handle_syscall overflow_checks k regs = k₂.accept regs receipts result) :
    ipc_event overflow_checks k regs =
      if regs.eax = SYSCALL_V2_IPC_SEND then
        .sent regs.ebx ⟨k.active_scheduled_pid, k.read_memory regs.ecx regs.edx.toNat⟩
      else if regs.eax = SYSCALL_V2_IPC_RECV then
        .received regs.ebx k.active_scheduled_pid
          ⟨receipt_sender (receipts ++ [k₂.syscall_receipt regs result.toInt32 "accepted" "none"]),
            k₂.read_memory regs.ecx result.toNat⟩
      else .quiet := by
  have haccepted := k₂.accept_accepted regs receipts result
  unfold ipc_event
  rw [h]
  exact if_neg (by rw [← Bool.not_eq_true, not_not]; exact haccepted)

theorem ipc_event_quiet (hsend : regs.eax ≠ SYSCALL_V2_IPC_SEND)
    (hrecv : regs.eax ≠ SYSCALL_V2_IPC_RECV) : ipc_event overflow_checks k regs = .quiet := by
  unfold ipc_event
  simp only [hsend, hrecv, if_false]
  split
  · exact ite_self _
  · rfl
  · rfl

/-- A registration opens the first free channel or does nothing. -/
theorem ipc_register_step (h : (k.ipc_register regs).next = some k') :
    IpcStep k.ipc .quiet k'.ipc := by
  unfold KernelState.ipc_register at h
  cases hc : k.ipc_register_checks regs with
  | error r =>
    rw [hc] at h
    obtain rfl := Option.some.inj h
    exact .quiet _
  | ok a =>
    obtain ⟨pid, index⟩ := a
    rw [hc] at h
    obtain rfl := Option.some.inj h
    obtain ⟨hsize, hdepth, hfree⟩ := KernelState.ipc_register_checks_eq hc
    obtain ⟨hunused, hfirst⟩ := KernelState.ipc_free_index_eq hfree
    exact .register hunused hfirst rfl rfl rfl hdepth hsize

/-- A send takes the bytes at its pointer in or does nothing. -/
theorem ipc_send_step (hnum : regs.eax = SYSCALL_V2_IPC_SEND)
    (h : (k.ipc_send regs).next = some k') :
    IpcStep k.ipc (ipc_event overflow_checks k regs) k'.ipc := by
  have hcall := @handle_ipc_send overflow_checks k regs hnum
  unfold KernelState.ipc_send at h hcall
  cases hc : k.ipc_send_checks regs with
  | error r =>
    rw [hc] at h hcall
    obtain rfl := Option.some.inj h
    rw [ipc_event_of_reject hcall]
    exact .quiet _
  | ok a =>
    obtain ⟨pid, index⟩ := a
    rw [hc] at h hcall
    obtain ⟨rfl, hindex, howner, -, hroom⟩ := KernelState.ipc_send_checks_eq hc
    obtain ⟨hused, hid⟩ := KernelState.ipc_channel_index_eq hindex
    simp only [KernelState.attempt] at h hcall
    split_ifs at h hcall with hfits
    · obtain rfl := Option.some.inj h
      obtain ⟨htransfer, hvalid⟩ :=
        k.ipc_message_spec regs k.active_scheduled_pid hfits.1
      rw [ipc_event_of_accept hcall, if_pos hnum, ← hid, ← htransfer]
      exact .send hused hvalid howner.symm hroom
    · cases h

/-- A receive hands the first message out at its pointer or does nothing. -/
theorem ipc_recv_step (hnum : regs.eax = SYSCALL_V2_IPC_RECV)
    (h : (k.ipc_recv regs).next = some k') :
    IpcStep k.ipc (ipc_event overflow_checks k regs) k'.ipc := by
  have hcall := @handle_ipc_recv overflow_checks k regs hnum
  unfold KernelState.ipc_recv at h hcall
  cases hc : k.ipc_recv_checks regs with
  | error r =>
    rw [hc] at h hcall
    obtain rfl := Option.some.inj h
    rw [ipc_event_of_reject hcall]
    exact .quiet _
  | ok a =>
    obtain ⟨pid, index⟩ := a
    rw [hc] at h hcall
    obtain ⟨rfl, hindex, hpeer, hnonempty⟩ := KernelState.ipc_recv_checks_eq hc
    obtain ⟨hused, hid⟩ := KernelState.ipc_channel_index_eq hindex
    simp only [KernelState.attempt] at h hcall
    split_ifs at h hcall with hfits
    · obtain rfl := Option.some.inj h
      have hnotsend : regs.eax ≠ SYSCALL_V2_IPC_SEND := by
        rw [hnum]
        decide
      have hstep := @IpcStep.receive k.ipc index (k.first_message index) hused rfl hnonempty
      rw [k.first_message_transfer hfits.1 regs.ecx] at hstep
      rw [ipc_event_of_accept hcall, if_neg hnotsend, if_pos hnum, ← hid, ← hpeer]
      exact hstep
    · cases h

/-- Every call is a step on the channels, with the event that its caller sees. -/
theorem handle_ipc_step (h : (handle_syscall overflow_checks k regs).next = some k') :
    IpcStep k.ipc (ipc_event overflow_checks k regs) k'.ipc := by
  by_cases hregister : regs.eax = SYSCALL_V2_IPC_REGISTER_CHANNEL
  · rw [handle_ipc_register hregister] at h
    rw [ipc_event_quiet (by rw [hregister]; decide) (by rw [hregister]; decide)]
    exact ipc_register_step h
  by_cases hsend : regs.eax = SYSCALL_V2_IPC_SEND
  · rw [handle_ipc_send hsend] at h
    exact ipc_send_step hsend h
  by_cases hrecv : regs.eax = SYSCALL_V2_IPC_RECV
  · rw [handle_ipc_recv hrecv] at h
    exact ipc_recv_step hrecv h
  have hkeeps : (handle_syscall overflow_checks k regs).Keeps (fun k => Prod.fst k.stores) k :=
    handle_keeps (absurd · hregister) (absurd · hsend) (absurd · hrecv) fun _ =>
      KernelState.sys_bogfs_write_keeps_ipc overflow_checks
  have hsame : k'.ipc = k.ipc := hkeeps k' h
  rw [ipc_event_quiet hsend hrecv, hsame]
  exact .quiet _

end Step

/-! ## Sequences of calls -/

/-- A sequence of calls of admitted processes, from the start of the kernel on.  Between two calls
everything but the channels may change; a call that panics ends the sequence. -/
inductive IpcRun (overflow_checks : Bool) : KernelState → List IpcEvent → Prop
  | start {k : KernelState} (h : k.ipc = .initial) : IpcRun overflow_checks k []
  | call {k k₁ k₂ : KernelState} {regs : SyscallRegisters} {events : List IpcEvent}
      (run : IpcRun overflow_checks k events) (between : k₁.ipc = k.ipc)
      (admitted : k₁.dynamic_loader_admitted = true)
      (next : (handle_syscall overflow_checks k₁ regs).next = some k₂) :
      IpcRun overflow_checks k₂ (events ++ [ipc_event overflow_checks k₁ regs])

theorem IpcRun.law {overflow_checks : Bool} {k : KernelState} {events : List IpcEvent}
    (h : IpcRun overflow_checks k events) : IpcLaw events k.ipc := by
  induction h with
  | start h =>
    rw [h]
    exact ipcLaw_initial
  | call run between admitted next ih =>
    rw [← between] at ih
    exact ih.step (handle_ipc_step next)

/-- On every channel, after every sequence of calls: what was received is a prefix of what was sent,
the queue is the rest, its depth is bounded, the hash of a queued message is the digest of its
payload, only the owner has sent and only the peer has received.  Nothing was sent or received on an
id without a channel. -/
theorem ipc_channels_fifo {overflow_checks : Bool} {k : KernelState} {events : List IpcEvent}
    (h : IpcRun overflow_checks k events) :
    (∀ i, (k.ipc.channels i).used = true →
      let channel := k.ipc.channels i
      let c := channel.channel_id
      received_on c events <+: sent_on c events ∧
      sent_on c events = received_on c events ++ channel.queue ∧
      (sent_on c events).length - (received_on c events).length = channel.queue_depth ∧
      channel.queue_depth ≤ channel.max_queue_depth ∧ channel.max_queue_depth ≤ 2 ∧
      (∀ t ∈ sent_on c events, t.sender = channel.owner_pid) ∧
      (∀ p ∈ receivers_on c events, p = channel.peer_pid) ∧
      ∀ m ∈ channel.queued, m.payload_hash = sha256 (m.payload.val.take m.payload_length)) ∧
    (∀ i j, (k.ipc.channels i).used = true → (k.ipc.channels j).used = true → i ≠ j →
      (k.ipc.channels i).channel_id ≠ (k.ipc.channels j).channel_id) ∧
    ∀ c, (∀ i, (k.ipc.channels i).used = true → (k.ipc.channels i).channel_id ≠ c) →
      sent_on c events = [] ∧ received_on c events = [] := by
  have hlaw := h.law
  refine ⟨fun i hi => ?_, fun i j => hlaw.id_ne, fun c hc => ?_⟩
  · have hchannel := hlaw.channel i hi
    have hlength : (k.ipc.channels i).queue.length = (k.ipc.channels i).queue_depth := by
      have hmessages := (k.ipc.channels i).messages.2
      have hdepth := hchannel.depth_le
      have hmax := hchannel.max_depth_le
      rw [IpcChannel.queue, List.length_map, IpcChannel.queued, contents, List.length_take]
      omega
    refine ⟨hchannel.balanced.outs_prefix, hchannel.balanced, ?_, hchannel.depth_le,
      hchannel.max_depth_le, hchannel.senders, hchannel.receivers,
      fun m hm => (hchannel.valid m hm).2⟩
    have hbalance := hchannel.balanced.length_eq
    omega
  · obtain ⟨hsent, hreceived, -⟩ := hlaw.no_channel c hc
    exact ⟨hsent, hreceived⟩

/-! ## A message to oneself -/

/-- A process that the dynamic loader admitted, in an address space of its own. -/
def ipc_process : ProcessRecord :=
  { ProcessRecord.new 1 (ascii "/apps/a.bogapp") with
    state := .Running
    dynamic_loader_admitted := true
    address_space := { AddressSpaceMetadata.unassigned with
      cr3 := 4096
      process_isolation_enforced := true } }

/-- A kernel that runs this process, whose page 1 is open to it and holds the text `ABC`. -/
def ipc_kernel : KernelState where
  active_scheduled_pid := 1
  active_cr3 := 4096
  active_block_reason := "none"
  process_table := ⟨[ipc_process], 2⟩
  paging := { Paging.initial with low_page_tables := fun _ page => if page = 1 then 4103 else 0 }
  memory := fun a => (ascii "ABC").getD (a.toNat - 4096) 0
  bogfs_entries := none
  verified_app_count := 1
  rejected_app_count := 1
  last_receipt := ⟨false, ⟨zeros 1024, length_zero_buffer⟩, 0⟩
  ipc := .initial
  writable_bogfs_files := .initial

def ipc_registers (eax ebx ecx edx : UInt32) : SyscallRegisters where
  edi := 0
  esi := 0
  ebp := 0
  esp := 0
  ebx := ebx
  edx := edx
  ecx := ecx
  eax := eax
  eip := 0
  cs := 0
  eflags := 0
  user_esp := 0
  user_ss := 0

/-- The state after a call. -/
def after_call (k : KernelState) (regs : SyscallRegisters) : KernelState :=
  ((handle_syscall true k regs).next).getD k

/-- The process opens a channel to itself, sends `ABC` and receives it. -/
def ipc_registered : KernelState := after_call ipc_kernel (ipc_registers 13 0 8 2)
def ipc_sent : KernelState := after_call ipc_registered (ipc_registers 14 1 4096 3)
def ipc_received : KernelState := after_call ipc_sent (ipc_registers 15 1 4096 8)

theorem next_after_call {k : KernelState} {regs : SyscallRegisters}
    (h : (handle_syscall true k regs).next.isSome = true) :
    (handle_syscall true k regs).next = some (after_call k regs) := by
  obtain ⟨k', hk⟩ := Option.isSome_iff_exists.mp h
  rw [after_call, hk]
  rfl

theorem ipc_channels_fifo_one_message : ∃ events, IpcRun true ipc_received events ∧
    sent_on 1 events = [⟨1, ascii "ABC"⟩] ∧ received_on 1 events = [⟨1, ascii "ABC"⟩] ∧
    (ipc_received.ipc.channels 0).used = true ∧
    received_on (ipc_received.ipc.channels 0).channel_id events <+:
      sent_on (ipc_received.ipc.channels 0).channel_id events := by
  have hregistered := IpcRun.call (.start rfl) rfl (by decide)
    (@next_after_call ipc_kernel (ipc_registers 13 0 8 2) (by decide))
  have hsent := IpcRun.call hregistered rfl (by decide)
    (@next_after_call ipc_registered (ipc_registers 14 1 4096 3) (by decide))
  have hreceived := IpcRun.call hsent rfl (by decide)
    (@next_after_call ipc_sent (ipc_registers 15 1 4096 8) (by decide))
  exact ⟨_, hreceived, by decide, by decide, by decide,
    ((ipc_channels_fifo hreceived).1 0 (by decide)).1⟩

end Bogbin.Kernel
