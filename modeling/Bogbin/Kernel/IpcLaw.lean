import Bogbin.Kernel.SyscallFrame

/-!
# The law of the channels

What the calls do to the channels is one of four steps (`IpcStep`): nothing, opening a channel,
taking a message in or handing one out.  `IpcLaw` says what any sequence of these steps keeps: on
every channel what was taken in is what was handed out, followed by the queue.
-/

namespace Bogbin.Kernel

open Buffer Bogbin.Core ArrayQueue

/-- A message as its sender and its receiver see it. -/
structure Transfer where
  sender : ProcessId
  payload : Bytes
  deriving DecidableEq

/-- What a call does on the channels. -/
inductive IpcEvent
  | quiet
  | sent (channel_id : UInt32) (transfer : Transfer)
  | received (channel_id : UInt32) (receiver : ProcessId) (transfer : Transfer)
  deriving DecidableEq

/-- The messages taken in on a channel. -/
def sent_on (channel_id : UInt32) (events : List IpcEvent) : List Transfer :=
  events.filterMap fun
    | .sent c transfer => if c = channel_id then some transfer else none
    | _ => none

/-- The messages handed out on a channel. -/
def received_on (channel_id : UInt32) (events : List IpcEvent) : List Transfer :=
  events.filterMap fun
    | .received c _ transfer => if c = channel_id then some transfer else none
    | _ => none

/-- The processes that messages of a channel were handed to. -/
def receivers_on (channel_id : UInt32) (events : List IpcEvent) : List ProcessId :=
  events.filterMap fun
    | .received c receiver _ => if c = channel_id then some receiver else none
    | _ => none

def IpcMessage.transfer (m : IpcMessage) : Transfer :=
  ⟨m.from_pid, m.payload.val.take m.payload_length⟩

/-- The stored hash of a message is the digest of its payload. -/
def IpcMessage.Valid (m : IpcMessage) : Prop :=
  m.payload_length ≤ IPC_MAX_MESSAGE_SIZE ∧
    m.payload_hash = sha256 (m.payload.val.take m.payload_length)

namespace IpcChannel

/-- The queued messages of a channel. -/
def queued (channel : IpcChannel) : List IpcMessage :=
  contents channel.messages.val channel.queue_depth

def queue (channel : IpcChannel) : List Transfer := channel.queued.map (·.transfer)

/-- The channel after a message was stored. -/
def enqueue (channel : IpcChannel) (m : IpcMessage) : IpcChannel :=
  { channel with
    messages := ⟨push channel.messages.val channel.queue_depth m, by
      rw [length_push, channel.messages.2]⟩
    queue_depth := channel.queue_depth + 1 }

/-- The channel after its first message was taken out. -/
def dequeue (channel : IpcChannel) : IpcChannel :=
  { channel with
    messages := ⟨pop .empty channel.messages.val channel.queue_depth, by
      rw [length_pop, channel.messages.2]⟩
    queue_depth := channel.queue_depth - 1 }

end IpcChannel

/-- A step on the channels, with its event. -/
inductive IpcStep : Ipc → IpcEvent → Ipc → Prop
  | quiet (ipc : Ipc) : IpcStep ipc .quiet ipc
  | register {ipc : Ipc} {index : Fin IPC_MAX_CHANNELS} {channel : IpcChannel}
      (free : (ipc.channels index).used = false)
      (first : ∀ i < index, (ipc.channels i).used = true)
      (used : channel.used = true) (id : channel.channel_id = ipc.next_channel_id)
      (depth : channel.queue_depth = 0) (max_depth : channel.max_queue_depth ≤ IPC_MAX_QUEUE_DEPTH)
      (max_size : channel.max_message_size ≤ IPC_MAX_MESSAGE_SIZE) :
      IpcStep ipc .quiet { ipc with
        next_channel_id := ipc.next_channel_id + 1
        channels := Function.update ipc.channels index channel }
  | send {ipc : Ipc} {index : Fin IPC_MAX_CHANNELS} {m : IpcMessage}
      (used : (ipc.channels index).used = true) (valid : m.Valid)
      (owner : m.from_pid = (ipc.channels index).owner_pid)
      (room : (ipc.channels index).queue_depth < (ipc.channels index).max_queue_depth) :
      IpcStep ipc (.sent (ipc.channels index).channel_id m.transfer) { ipc with
        next_message_id := ipc.next_message_id + 1
        channels := Function.update ipc.channels index ((ipc.channels index).enqueue m) }
  | receive {ipc : Ipc} {index : Fin IPC_MAX_CHANNELS} {m : IpcMessage}
      (used : (ipc.channels index).used = true)
      (first : (ipc.channels index).messages.val.getD 0 .empty = m)
      (nonempty : (ipc.channels index).queue_depth ≠ 0) :
      IpcStep ipc (.received (ipc.channels index).channel_id (ipc.channels index).peer_pid
        m.transfer) { ipc with
        channels := Function.update ipc.channels index (ipc.channels index).dequeue }

/-- What a channel and the history of the channels have to do with each other. -/
structure ChannelLaw (events : List IpcEvent) (channel : IpcChannel) : Prop where
  balanced : Balanced (sent_on channel.channel_id events) (received_on channel.channel_id events)
    channel.queue
  depth_le : channel.queue_depth ≤ channel.max_queue_depth
  max_depth_le : channel.max_queue_depth ≤ IPC_MAX_QUEUE_DEPTH
  max_size_le : channel.max_message_size ≤ IPC_MAX_MESSAGE_SIZE
  valid : ∀ m ∈ channel.queued, m.Valid
  senders : ∀ t ∈ sent_on channel.channel_id events, t.sender = channel.owner_pid
  receivers : ∀ p ∈ receivers_on channel.channel_id events, p = channel.peer_pid

/-- The channels in use are the first ones, numbered from 1 on; an id without a channel has no
history. -/
structure IpcLaw (events : List IpcEvent) (ipc : Ipc) : Prop where
  next_pos : 1 ≤ ipc.next_channel_id.toNat
  next_le : ipc.next_channel_id.toNat ≤ IPC_MAX_CHANNELS + 1
  used_iff : ∀ i, (ipc.channels i).used = true ↔ i.val + 1 < ipc.next_channel_id.toNat
  id_eq : ∀ i, (ipc.channels i).used = true → (ipc.channels i).channel_id.toNat = i.val + 1
  channel : ∀ i, (ipc.channels i).used = true → ChannelLaw events (ipc.channels i)
  no_channel : ∀ c, (∀ i, (ipc.channels i).used = true → (ipc.channels i).channel_id ≠ c) →
    sent_on c events = [] ∧ received_on c events = [] ∧ receivers_on c events = []

/-! ## Histories -/

section Histories

variable {c : UInt32} {events : List IpcEvent}

theorem sent_on_append (e : IpcEvent) : sent_on c (events ++ [e]) = sent_on c events ++ sent_on c [e] :=
  List.filterMap_append

theorem received_on_append (e : IpcEvent) :
    received_on c (events ++ [e]) = received_on c events ++ received_on c [e] :=
  List.filterMap_append

theorem receivers_on_append (e : IpcEvent) :
    receivers_on c (events ++ [e]) = receivers_on c events ++ receivers_on c [e] :=
  List.filterMap_append

/-- An event does not belong to a channel. -/
def IpcEvent.Apart (c : UInt32) (e : IpcEvent) : Prop :=
  sent_on c [e] = [] ∧ received_on c [e] = [] ∧ receivers_on c [e] = []

theorem apart_quiet : IpcEvent.Apart c .quiet := ⟨rfl, rfl, rfl⟩

theorem apart_sent {c' : UInt32} {t : Transfer} (h : c' ≠ c) : IpcEvent.Apart c (.sent c' t) := by
  refine ⟨?_, rfl, rfl⟩
  simp [sent_on, h]

theorem apart_received {c' : UInt32} {p : ProcessId} {t : Transfer} (h : c' ≠ c) :
    IpcEvent.Apart c (.received c' p t) := by
  refine ⟨rfl, ?_, ?_⟩
  · simp [received_on, h]
  · simp [receivers_on, h]

theorem ChannelLaw.append {channel : IpcChannel} (h : ChannelLaw events channel) {e : IpcEvent}
    (he : e.Apart channel.channel_id) : ChannelLaw (events ++ [e]) channel := by
  obtain ⟨hsent, hreceived, hreceivers⟩ := he
  constructor
  case balanced => simpa only [sent_on_append, received_on_append, hsent, hreceived, List.append_nil]
    using h.balanced
  case senders => simpa only [sent_on_append, hsent, List.append_nil] using h.senders
  case receivers => simpa only [receivers_on_append, hreceivers, List.append_nil] using h.receivers
  case depth_le => exact h.depth_le
  case max_depth_le => exact h.max_depth_le
  case max_size_le => exact h.max_size_le
  case valid => exact h.valid

end Histories

/-! ## Steps keep the law -/

namespace IpcLaw

variable {events : List IpcEvent} {ipc : Ipc} (h : IpcLaw events ipc)

include h

/-- Two channels have different ids. -/
theorem id_ne {i j : Fin IPC_MAX_CHANNELS} (hi : (ipc.channels i).used = true)
    (hj : (ipc.channels j).used = true) (hij : i ≠ j) :
    (ipc.channels i).channel_id ≠ (ipc.channels j).channel_id := by
  intro heq
  have hid := h.id_eq i hi
  rw [heq, h.id_eq j hj] at hid
  exact hij (Fin.ext (by omega))

theorem quiet : IpcLaw (events ++ [.quiet]) ipc where
  next_pos := h.next_pos
  next_le := h.next_le
  used_iff := h.used_iff
  id_eq := h.id_eq
  channel i hi := (h.channel i hi).append apart_quiet
  no_channel c hc := by
    obtain ⟨hsent, hreceived, hreceivers⟩ := h.no_channel c hc
    rw [sent_on_append, received_on_append, receivers_on_append, hsent, hreceived, hreceivers]
    exact ⟨rfl, rfl, rfl⟩

/-- The next id is one behind the first free channel. -/
theorem next_eq {index : Fin IPC_MAX_CHANNELS} (free : (ipc.channels index).used = false)
    (first : ∀ i < index, (ipc.channels i).used = true) :
    ipc.next_channel_id.toNat = index.val + 1 := by
  have hnotused : ¬ index.val + 1 < ipc.next_channel_id.toNat := by
    rw [← h.used_iff, free]
    exact Bool.false_ne_true
  have hpos := h.next_pos
  rcases Nat.eq_zero_or_pos index.val with hzero | hindex
  · omega
  · have hlast := (h.used_iff ⟨index.val - 1, by omega⟩).mp
      (first _ (Fin.lt_def.mpr (Nat.sub_lt hindex one_pos)))
    dsimp only at hlast
    omega

/-- A new channel has no history. -/
theorem register {index : Fin IPC_MAX_CHANNELS} {channel : IpcChannel}
    (free : (ipc.channels index).used = false)
    (first : ∀ i < index, (ipc.channels i).used = true)
    (used : channel.used = true) (id : channel.channel_id = ipc.next_channel_id)
    (depth : channel.queue_depth = 0) (max_depth : channel.max_queue_depth ≤ IPC_MAX_QUEUE_DEPTH)
    (max_size : channel.max_message_size ≤ IPC_MAX_MESSAGE_SIZE) :
    IpcLaw events { ipc with
      next_channel_id := ipc.next_channel_id + 1
      channels := Function.update ipc.channels index channel } := by
  have hnext := h.next_eq free first
  have hlt := index.isLt
  have hchannels : IPC_MAX_CHANNELS = 4 := rfl
  have hsucc : (ipc.next_channel_id + 1).toNat = index.val + 2 := by
    have hone : (1 : UInt32).toNat = 1 := rfl
    rw [UInt32.toNat_add, hnext, hone, Nat.mod_eq_of_lt (by omega)]
  have hfresh : ∀ i, (ipc.channels i).used = true →
      (ipc.channels i).channel_id ≠ ipc.next_channel_id := by
    intro i hi heq
    have hid := h.id_eq i hi
    have hused := (h.used_iff i).mp hi
    rw [heq] at hid
    omega
  constructor
  case next_pos =>
    dsimp only
    omega
  case next_le =>
    dsimp only
    omega
  case used_iff =>
    intro i
    dsimp only
    rw [hsucc]
    by_cases hi : i = index
    · subst hi
      rw [Function.update_self]
      exact iff_of_true used (by omega)
    · have hne : i.val ≠ index.val := fun heq => hi (Fin.ext heq)
      rw [Function.update_of_ne hi, h.used_iff i]
      omega
  case id_eq =>
    intro i hused
    dsimp only at hused ⊢
    by_cases hi : i = index
    · subst hi
      rw [Function.update_self, id, hnext]
    · rw [Function.update_of_ne hi] at hused ⊢
      exact h.id_eq i hused
  case channel =>
    intro i hused
    dsimp only at hused ⊢
    by_cases hi : i = index
    · subst hi
      rw [Function.update_self]
      obtain ⟨hsent, hreceived, hreceivers⟩ := h.no_channel _ hfresh
      rw [← id] at hsent hreceived hreceivers
      have hqueued : channel.queued = [] := by
        rw [IpcChannel.queued, depth]
        rfl
      constructor
      case balanced =>
        rw [hsent, hreceived, IpcChannel.queue, hqueued]
        exact .start
      case depth_le => omega
      case max_depth_le => exact max_depth
      case max_size_le => exact max_size
      case valid => simp [hqueued]
      case senders => simp [hsent]
      case receivers => simp [hreceivers]
    · rw [Function.update_of_ne hi] at hused ⊢
      exact h.channel i hused
  case no_channel =>
    intro c hc
    refine h.no_channel c fun i hi heq => ?_
    have hne : i ≠ index := fun hii => by
      rw [hii, free] at hi
      exact Bool.false_ne_true hi
    have hci := hc i
    dsimp only at hci
    rw [Function.update_of_ne hne] at hci
    exact hci hi heq

/-- A step on one channel whose event belongs to it keeps the law when the channel keeps its own. -/
theorem update {index : Fin IPC_MAX_CHANNELS} {channel : IpcChannel} {e : IpcEvent}
    (used : (ipc.channels index).used = true) (hlaw : ChannelLaw (events ++ [e]) channel)
    (hused : channel.used = true) (hid : channel.channel_id = (ipc.channels index).channel_id)
    (hapart : ∀ c, (ipc.channels index).channel_id ≠ c → e.Apart c) (next_message_id : UInt32) :
    IpcLaw (events ++ [e]) { ipc with
      next_message_id := next_message_id
      channels := Function.update ipc.channels index channel } := by
  constructor
  case next_pos => exact h.next_pos
  case next_le => exact h.next_le
  case used_iff =>
    intro i
    dsimp only
    by_cases hi : i = index
    · subst hi
      rw [Function.update_self, ← h.used_iff i, used, hused]
    · rw [Function.update_of_ne hi, h.used_iff i]
  case id_eq =>
    intro i hiused
    dsimp only at hiused ⊢
    by_cases hi : i = index
    · subst hi
      rw [Function.update_self, hid, h.id_eq i used]
    · rw [Function.update_of_ne hi] at hiused ⊢
      exact h.id_eq i hiused
  case channel =>
    intro i hiused
    dsimp only at hiused ⊢
    by_cases hi : i = index
    · subst hi
      rw [Function.update_self]
      exact hlaw
    · rw [Function.update_of_ne hi] at hiused ⊢
      exact (h.channel i hiused).append (hapart _ (h.id_ne used hiused (Ne.symm hi)))
  case no_channel =>
    intro c hc
    have hindex := hc index
    dsimp only at hindex
    rw [Function.update_self, hid] at hindex
    obtain ⟨hsent, hreceived, hreceivers⟩ := h.no_channel c fun i hi heq => by
      have hi' := hc i
      dsimp only at hi'
      by_cases hii : i = index
      · exact hindex hused (hii ▸ heq)
      · rw [Function.update_of_ne hii] at hi'
        exact hi' hi heq
    obtain ⟨hsent', hreceived', hreceivers'⟩ := hapart c (hindex hused)
    rw [sent_on_append, received_on_append, receivers_on_append, hsent, hreceived, hreceivers,
      hsent', hreceived', hreceivers']
    exact ⟨rfl, rfl, rfl⟩

/-- The channel of an accepted send. -/
theorem send {index : Fin IPC_MAX_CHANNELS} {m : IpcMessage}
    (used : (ipc.channels index).used = true) (valid : m.Valid)
    (owner : m.from_pid = (ipc.channels index).owner_pid)
    (room : (ipc.channels index).queue_depth < (ipc.channels index).max_queue_depth) :
    ChannelLaw (events ++ [.sent (ipc.channels index).channel_id m.transfer])
      ((ipc.channels index).enqueue m) := by
  have hlaw := h.channel index used
  have hlength := (ipc.channels index).messages.2
  have hmax := hlaw.max_depth_le
  have hqueued : ((ipc.channels index).enqueue m).queued = (ipc.channels index).queued ++ [m] :=
    contents_push (by omega) m
  have hsent : sent_on (ipc.channels index).channel_id
      [.sent (ipc.channels index).channel_id m.transfer] = [m.transfer] := by
    simp [sent_on]
  have hid : ((ipc.channels index).enqueue m).channel_id = (ipc.channels index).channel_id := rfl
  constructor
  case balanced =>
    rw [hid, sent_on_append, received_on_append, hsent, IpcChannel.queue, hqueued, List.map_append]
    have hreceived : received_on (ipc.channels index).channel_id
        [.sent (ipc.channels index).channel_id m.transfer] = [] := rfl
    rw [hreceived, List.append_nil]
    exact hlaw.balanced.enqueue m.transfer
  case depth_le => exact room
  case max_depth_le => exact hmax
  case max_size_le => exact hlaw.max_size_le
  case valid =>
    intro m' hm'
    rw [hqueued, List.mem_append, List.mem_singleton] at hm'
    rcases hm' with hm' | rfl
    · exact hlaw.valid m' hm'
    · exact valid
  case senders =>
    intro t ht
    rw [hid, sent_on_append, hsent, List.mem_append, List.mem_singleton] at ht
    rcases ht with ht | rfl
    · exact hlaw.senders t ht
    · exact owner
  case receivers =>
    have hreceivers : receivers_on (ipc.channels index).channel_id
        [.sent (ipc.channels index).channel_id m.transfer] = [] := rfl
    rw [hid, receivers_on_append, hreceivers, List.append_nil]
    exact hlaw.receivers

/-- The channel of an accepted receive. -/
theorem receive {index : Fin IPC_MAX_CHANNELS} {m : IpcMessage}
    (used : (ipc.channels index).used = true)
    (first : (ipc.channels index).messages.val.getD 0 .empty = m)
    (nonempty : (ipc.channels index).queue_depth ≠ 0) :
    ChannelLaw (events ++ [.received (ipc.channels index).channel_id (ipc.channels index).peer_pid
      m.transfer]) (ipc.channels index).dequeue := by
  have hlaw := h.channel index used
  have hlength := (ipc.channels index).messages.2
  have hmax := hlaw.max_depth_le
  have hdepth := hlaw.depth_le
  have hqueued : (ipc.channels index).queued = m :: (ipc.channels index).dequeue.queued := by
    have hpop := @contents_pop _ IpcMessage.empty (ipc.channels index).messages.val
      (ipc.channels index).queue_depth (by omega) (by omega)
    rw [List.getD_eq_getElem _ _ (by omega)] at first
    rw [first] at hpop
    exact hpop
  have hid : (ipc.channels index).dequeue.channel_id = (ipc.channels index).channel_id := rfl
  have hsent : sent_on (ipc.channels index).channel_id
      [.received (ipc.channels index).channel_id (ipc.channels index).peer_pid m.transfer] = [] := rfl
  have hreceived : received_on (ipc.channels index).channel_id
      [.received (ipc.channels index).channel_id (ipc.channels index).peer_pid m.transfer] =
        [m.transfer] := by
    simp [received_on]
  constructor
  case balanced =>
    have hbalanced := hlaw.balanced
    rw [IpcChannel.queue, hqueued, List.map_cons] at hbalanced
    rw [hid, sent_on_append, received_on_append, hsent, hreceived, List.append_nil]
    exact hbalanced.dequeue
  case depth_le => exact (Nat.sub_le _ _).trans hdepth
  case max_depth_le => exact hmax
  case max_size_le => exact hlaw.max_size_le
  case valid => exact fun m' hm' => hlaw.valid m' (hqueued ▸ List.mem_cons_of_mem _ hm')
  case senders =>
    rw [hid, sent_on_append, hsent, List.append_nil]
    exact hlaw.senders
  case receivers =>
    intro p hp
    rw [hid, receivers_on_append, List.mem_append] at hp
    rcases hp with hp | hp
    · exact hlaw.receivers p hp
    · have heq : p = (ipc.channels index).peer_pid := by simpa [receivers_on] using hp
      exact heq

/-- Every step on the channels keeps the law. -/
theorem step {e : IpcEvent} {ipc' : Ipc} (hs : IpcStep ipc e ipc') : IpcLaw (events ++ [e]) ipc' := by
  cases hs with
  | quiet => exact h.quiet
  | register free first used id depth max_depth max_size =>
    exact h.quiet.register free first used id depth max_depth max_size
  | send used valid owner room =>
    have hlaw := h.send used valid owner room
    exact h.update used hlaw used rfl (fun _ => apart_sent) _
  | receive used first nonempty =>
    have hlaw := h.receive used first nonempty
    exact h.update used hlaw used rfl (fun _ => apart_received) _

end IpcLaw

theorem ipcLaw_initial : IpcLaw [] .initial where
  next_pos := by decide
  next_le := by decide
  used_iff i := by
    have : (1 : UInt32).toNat = 1 := rfl
    simp [Ipc.initial, IpcChannel.empty]
  id_eq i hi := nomatch hi
  channel i hi := nomatch hi
  no_channel c _ := ⟨rfl, rfl, rfl⟩

end Bogbin.Kernel
