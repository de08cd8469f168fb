import BareKit.Channel
import BareKit.Circular

/-! The queue refines the channel. A ring is read as the list of buffers between
its tail and its head, and every locked section of the queue does to those lists
and to the states of the ends what the channel's operation does. -/
namespace BareKit

def Buffer.message (buffer : Buffer) : Message := ⟨some buffer, buffer.bytes.length⟩

theorem Buffer.message_base (buffer : Buffer) : buffer.message.base = some buffer := rfl

def Ring.contents (ring : Ring) : List Message :=
  Circular.contents ring.slots ring.head ring.tail

def Ring.buffers (ring : Ring) : List Buffer := ring.contents.filterMap Message.base

/-- What a write enqueues: never an empty message, which would read as an end of
stream, and never more than fits the `int` result. -/
def Message.Whole (message : Message) : Prop :=
  ∃ buffer : Buffer, message = buffer.message ∧ 0 < message.len ∧ message.len ≤ intMax

structure Ring.WellFormed (ring : Ring) : Prop where
  head_lt : ring.head < bareQueueCapacity
  tail_lt : ring.tail < bareQueueCapacity
  whole : ∀ message ∈ ring.contents, message.Whole

structure Queue.WellFormed (queue : Queue) : Prop where
  ring : ∀ port, (bareQueueInbox queue port).WellFormed

def Queue.channel (queue : Queue) : Channel Buffer where
  inbox port := (bareQueueInbox queue port).buffers
  state port := bareQueueState queue port

theorem mask_eq (i : Nat) : i &&& bareQueueMask = i % bareQueueCapacity :=
  Circular.mask_eq_mod 10 i

namespace Ring

variable {ring next : Ring} {buffer : Buffer}

theorem WellFormed.contents_eq (h : ring.WellFormed) :
    ring.contents = ring.buffers.map Buffer.message := by
  have hbases : ∀ messages : List Message, (∀ message ∈ messages, message.Whole) →
      messages = (messages.filterMap Message.base).map Buffer.message := by
    intro messages hwhole
    induction messages with
    | nil => rfl
    | cons message rest ih =>
      obtain ⟨buffer, rfl, -⟩ := hwhole message (by simp)
      simp only [List.filterMap_cons, Buffer.message_base, List.map_cons]
      rw [← ih fun other hother => hwhole other (by simp [hother])]
  exact hbases ring.contents h.whole

theorem WellFormed.sized (h : ring.WellFormed) (hmem : buffer ∈ ring.buffers) :
    0 < buffer.bytes.length ∧ buffer.bytes.length ≤ intMax := by
  obtain ⟨message, hmessage, hbase⟩ := List.mem_filterMap.mp hmem
  obtain ⟨other, rfl, hlen⟩ := h.whole message hmessage
  cases hbase
  exact hlen

theorem WellFormed.buffers_length (h : ring.WellFormed) :
    ring.buffers.length = Circular.occupied bareQueueCapacity ring.head ring.tail := by
  rw [← List.length_map (f := Buffer.message), ← h.contents_eq]
  exact Circular.contents_length (by decide)

theorem WellFormed.length_le (h : ring.WellFormed) : ring.buffers.length ≤ Channel.bound := by
  have hlt : Circular.occupied bareQueueCapacity ring.head ring.tail < bareQueueCapacity :=
    Circular.occupied_lt (by decide)
  rw [h.buffers_length]
  exact Nat.le_pred_of_lt hlt

theorem WellFormed.empty_iff (h : ring.WellFormed) :
    bareQueueRingEmpty ring = true ↔ ring.buffers = [] := by
  rw [← List.length_eq_zero_iff, h.buffers_length,
    Circular.occupied_eq_zero h.head_lt h.tail_lt, bareQueueRingEmpty, beq_iff_eq]

theorem WellFormed.full_iff (h : ring.WellFormed) :
    bareQueueRingFull ring = true ↔ ring.buffers.length = Channel.bound := by
  rw [bareQueueRingFull, beq_iff_eq, mask_eq, Circular.occupied_full h.head_lt h.tail_lt,
    h.buffers_length, Channel.bound]
  have : 0 < bareQueueCapacity := by decide
  omega

theorem WellFormed.contents_push (h : ring.WellFormed) {len : Nat}
    (hpush : bareQueueRingPush ring buffer len = some next) :
    next.contents = ring.contents ++ [⟨some buffer, len⟩] ∧
      next.head < bareQueueCapacity ∧ next.tail = ring.tail := by
  unfold bareQueueRingPush at hpush
  split at hpush
  · contradiction
  · rename_i hroom
    cases Option.some.inj hpush
    simp only [bareQueueRingFull, beq_iff_eq, mask_eq] at hroom
    refine ⟨?_, ?_, rfl⟩
    · simp only [contents, mask_eq]
      exact Circular.contents_push _ h.head_lt h.tail_lt hroom
    · rw [mask_eq]
      exact Nat.mod_lt _ (by decide)

theorem WellFormed.push (h : ring.WellFormed) (hpos : 0 < buffer.bytes.length)
    (hle : buffer.bytes.length ≤ intMax)
    (hpush : bareQueueRingPush ring buffer buffer.bytes.length = some next) :
    next.WellFormed ∧ next.buffers = ring.buffers ++ [buffer] := by
  obtain ⟨hcontents, hhead, htail⟩ := h.contents_push hpush
  refine ⟨⟨hhead, htail ▸ h.tail_lt, ?_⟩, ?_⟩
  · intro message hmem
    rw [hcontents, List.mem_append, List.mem_singleton] at hmem
    rcases hmem with hold | rfl
    · exact h.whole message hold
    · exact ⟨buffer, rfl, hpos, hle⟩
  · simp [buffers, hcontents]

theorem WellFormed.push_isSome (h : ring.WellFormed) (buffer : Buffer) (len : Nat) :
    bareQueueRingPush ring buffer len = none ↔ ring.buffers.length = Channel.bound := by
  rw [← h.full_iff, bareQueueRingPush]
  split <;> simp_all

theorem WellFormed.shift (h : ring.WellFormed) :
    match ring.buffers with
    | [] => bareQueueRingShift ring = none
    | buffer :: rest => ∃ next, bareQueueRingShift ring = some (buffer.message, next) ∧
        next.WellFormed ∧ next.buffers = rest := by
  have hempty := h.empty_iff
  cases hbuffers : ring.buffers with
  | nil => simp [bareQueueRingShift, hempty.mpr hbuffers]
  | cons buffer rest =>
    have hne : ring.head ≠ ring.tail := by
      intro heq
      have : bareQueueRingEmpty ring = true := by simp [bareQueueRingEmpty, heq]
      simp [hempty.mp this] at hbuffers
    have hshift := Circular.contents_shift ring.slots h.head_lt h.tail_lt hne
    have hcontents := h.contents_eq
    rw [contents, hshift, hbuffers, List.map_cons, List.cons.injEq] at hcontents
    obtain ⟨hfirst, hrest⟩ := hcontents
    have hwhole := h.whole
    rw [contents, hshift] at hwhole
    refine ⟨{ ring with tail := (ring.tail + 1) &&& bareQueueMask }, ?_, ?_, ?_⟩
    · simp [bareQueueRingShift, bareQueueRingEmpty, hne, h.tail_lt, hfirst]
    · refine ⟨h.head_lt, ?_, ?_⟩
      · simp only [mask_eq]
        exact Nat.mod_lt _ (by decide)
      · intro message hmem
        simp only [contents, mask_eq] at hmem
        exact hwhole message (List.mem_cons_of_mem _ hmem)
    · simp only [buffers, contents, mask_eq, hrest]
      rw [List.filterMap_map]
      exact List.filterMap_some

end Ring

namespace Queue

variable {queue : Queue} (port : Port) (addr : Pointer) (data : Bytes)

theorem channel_inbox :
    queue.channel.inbox port = (bareQueueInbox queue port).buffers := rfl

theorem channel_state : queue.channel.state port = bareQueueState queue port := rfl

theorem channel_refused : queue.channel.Refused port ↔
    EndState.ended ≤ bareQueueState queue port ∨ bareQueuePeerState queue port = .closed := by
  rw [bareQueuePeerState_eq]
  rfl

theorem channel_finished :
    queue.channel.Finished port ↔ EndState.ended ≤ bareQueuePeerState queue port := by
  rw [bareQueuePeerState_eq]
  rfl

/-! Setting one inbox or one state touches nothing else. -/

section Setters

variable (ring : Ring) (state : EndState)

@[simp] theorem setInbox_inbox_self : bareQueueInbox (queue.setInbox port ring) port = ring := by
  cases port <;> rfl

@[simp] theorem setInbox_inbox_peer :
    bareQueueInbox (queue.setInbox port ring) port.peer = bareQueueInbox queue port.peer := by
  cases port <;> rfl

@[simp] theorem setInbox_state (other : Port) :
    bareQueueState (queue.setInbox port ring) other = bareQueueState queue other := by
  cases port <;> rfl

@[simp] theorem setState_inbox (other : Port) :
    bareQueueInbox (queue.setState port state) other = bareQueueInbox queue other := by
  cases port <;> rfl

@[simp] theorem setState_state_self :
    bareQueueState (queue.setState port state) port = state := by
  cases port <;> rfl

@[simp] theorem setState_state_peer :
    bareQueueState (queue.setState port state) port.peer = bareQueueState queue port.peer := by
  cases port <;> rfl

@[simp] theorem setState_destroyed :
    (queue.setState port state).destroyed = queue.destroyed := by
  cases port <;> rfl

@[simp] theorem setState_onSignalThread :
    (queue.setState port state).onSignalThread = queue.onSignalThread := by
  cases port <;> rfl

@[simp] theorem setState_unchanged : queue.setState port (bareQueueState queue port) = queue := by
  cases port <;> rfl

theorem channel_setState :
    (queue.setState port state).channel = queue.channel.setState port state := by
  apply Channel.ext
  · intro other
    simp [channel_inbox]
  · intro other
    rcases port.eq_or_eq_peer other with rfl | rfl <;> simp [channel_state]

theorem channel_setInbox : (queue.setInbox port ring).channel =
    { queue.channel with inbox := Function.update queue.channel.inbox port ring.buffers } := by
  apply Channel.ext
  · intro other
    rcases port.eq_or_eq_peer other with rfl | rfl
    · simp [channel_inbox]
    · simp [channel_inbox, Function.update_of_ne]
  · intro other
    simp [channel_state]

theorem WellFormed.setInbox (h : queue.WellFormed) (hring : ring.WellFormed) :
    (queue.setInbox port ring).WellFormed := by
  constructor
  intro other
  rcases port.eq_or_eq_peer other with rfl | rfl
  · simpa using hring
  · simpa using h.ring port.peer

theorem WellFormed.setState (h : queue.WellFormed) : (queue.setState port state).WellFormed := by
  constructor
  intro other
  simpa using h.ring other

end Setters

/-! An end only moves forward, and nothing else moves with it. -/

section Advance

variable (state : EndState)

theorem advance_queue : (bareQueueAdvance queue port state).queue = queue.setState port
    (if bareQueueState queue port < state then state else bareQueueState queue port) := by
  simp only [bareQueueAdvance]
  by_cases hlt : bareQueueState queue port < state <;> simp [hlt]

@[simp] theorem advance_inbox (other : Port) :
    bareQueueInbox (bareQueueAdvance queue port state).queue other =
      bareQueueInbox queue other := by
  rw [advance_queue, setState_inbox]

@[simp] theorem advance_destroyed :
    (bareQueueAdvance queue port state).queue.destroyed = queue.destroyed := by
  rw [advance_queue, setState_destroyed]

@[simp] theorem advance_onSignalThread :
    (bareQueueAdvance queue port state).queue.onSignalThread = queue.onSignalThread := by
  rw [advance_queue, setState_onSignalThread]

theorem advance_state_self : bareQueueState (bareQueueAdvance queue port state).queue port =
    if bareQueueState queue port < state then state else bareQueueState queue port := by
  rw [advance_queue, setState_state_self]

@[simp] theorem advance_state_peer :
    bareQueueState (bareQueueAdvance queue port state).queue port.peer =
      bareQueueState queue port.peer := by
  rw [advance_queue, setState_state_peer]

theorem advance_state (other : Port) :
    bareQueueState (bareQueueAdvance queue port state).queue other =
    if other = port ∧ bareQueueState queue other < state then state
    else bareQueueState queue other := by
  rcases port.eq_or_eq_peer other with rfl | rfl
  · simp only [advance_state_self, true_and]
  · simp

theorem advance_closed (h : bareQueueState queue port = .closed) :
    bareQueueState (bareQueueAdvance queue port state).queue port = .closed := by
  rw [advance_state_self, h, if_neg EndState.not_closed_lt]

theorem close_state : bareQueueState (bareQueueClose queue port).queue port = .closed := by
  rw [bareQueueClose, advance_state_self]
  cases bareQueueState queue port <;> decide

end Advance

/-- The number of bytes that a write of `data` offers to the queue. -/
def offered (data : Bytes) : Nat := min data.length intMax

theorem offered_eq : (if data.length > intMax then intMax else data.length) = offered data := by
  unfold offered
  split <;> omega

theorem take_offered (data : Bytes) : data.take (offered data) = data.take intMax := by
  unfold offered
  rcases Nat.le_total data.length intMax with hle | hle
  · rw [Nat.min_eq_left hle, List.take_length, List.take_of_length_le hle]
  · rw [Nat.min_eq_right hle]

theorem take_offered_length : (data.take (offered data)).length = offered data := by
  simp [offered]

theorem write_nil (hdata : data = []) :
    bareQueueWrite queue port addr data = ⟨queue, 0, none, none⟩ := by
  simp [bareQueueWrite, hdata]

/-- The one description of a write that is not empty: refused for a closed end,
refused for a full ring, or appended to the peer's inbox. -/
theorem WellFormed.write_cases (h : queue.WellFormed) (hdata : data ≠ []) :
    (queue.channel.sendResult port = .closed ∧ bareQueueWrite queue port addr data =
        ⟨queue, bareQueueClosed, none, some ⟨addr, data.take (offered data)⟩⟩) ∨
    (queue.channel.sendResult port = .blocked ∧ bareQueueWrite queue port addr data =
        ⟨queue, bareQueueWouldBlock, none, some ⟨addr, data.take (offered data)⟩⟩) ∨
    (queue.channel.sendResult port = .accepted ∧ ∃ next : Ring, next.WellFormed ∧
        next.buffers = queue.channel.inbox port.peer ++ [⟨addr, data.take (offered data)⟩] ∧
        bareQueueWrite queue port addr data =
          ⟨queue.setInbox port.peer next, (offered data : Int),
            if queue.channel.inbox port.peer = [] then bareQueueSignalPeer queue port else none,
            none⟩) := by
  have hlength : data.length ≠ 0 := by simpa using hdata
  have hring := h.ring port.peer
  have hpos : 0 < (data.take (offered data)).length := by
    rw [take_offered_length]
    have : 0 < intMax := by decide
    unfold offered
    omega
  have hle : (data.take (offered data)).length ≤ intMax := by
    rw [take_offered_length]
    exact Nat.min_le_right _ _
  unfold bareQueueWrite
  simp only [hlength, if_false, offered_eq, ← channel_refused, bareQueueOutbox_eq_inbox]
  by_cases hrefused : queue.channel.Refused port
  · left
    simp [Channel.sendResult_closed, hrefused]
  · right
    simp only [hrefused, if_false]
    have hpush := hring.push_isSome ⟨addr, data.take (offered data)⟩ (offered data)
    cases hcase : bareQueueRingPush (bareQueueInbox queue port.peer)
        ⟨addr, data.take (offered data)⟩ (offered data) with
    | none =>
      left
      simp [Channel.sendResult_blocked, hrefused, Channel.outbox, channel_inbox, hpush.mp hcase]
    | some next =>
      right
      have hroom : (bareQueueInbox queue port.peer).buffers.length ≠ Channel.bound := by
        intro hfull
        simp [hpush.mpr hfull] at hcase
      have hsized : bareQueueRingPush (bareQueueInbox queue port.peer)
          ⟨addr, data.take (offered data)⟩ (data.take (offered data)).length = some next := by
        rwa [take_offered_length]
      obtain ⟨hnext, hbuffers⟩ := hring.push hpos hle hsized
      refine ⟨?_, next, hnext, hbuffers, ?_⟩
      · simp [Channel.sendResult_accepted, hrefused, Channel.outbox, channel_inbox, hroom]
      · simp only [channel_inbox, ← hring.empty_iff]
        cases port <;> rfl

theorem WellFormed.write (h : queue.WellFormed) :
    (bareQueueWrite queue port addr data).queue.WellFormed := by
  by_cases hdata : data = []
  · rwa [write_nil port addr data hdata]
  · rcases h.write_cases port addr data hdata with ⟨_, hw⟩ | ⟨_, hw⟩ | ⟨_, next, hnext, _, hw⟩
    · rwa [hw]
    · rwa [hw]
    · rw [hw]
      exact h.setInbox _ _ hnext

theorem WellFormed.channel_write (h : queue.WellFormed) (hdata : data ≠ []) :
    (bareQueueWrite queue port addr data).queue.channel =
      queue.channel.send port ⟨addr, data.take (offered data)⟩ := by
  rcases h.write_cases port addr data hdata with ⟨hs, hw⟩ | ⟨hs, hw⟩ | ⟨hs, next, _, hbuffers, hw⟩
  · rw [hw, Channel.send_eq_self _ _ _ (by simp [hs])]
  · rw [hw, Channel.send_eq_self _ _ _ (by simp [hs])]
  · rw [hw, Channel.send, if_pos hs, channel_setInbox, hbuffers]
    rfl

theorem WellFormed.write_result (h : queue.WellFormed) (hdata : data ≠ []) :
    (bareQueueWrite queue port addr data).result =
      match queue.channel.sendResult port with
      | .closed => bareQueueClosed
      | .blocked => bareQueueWouldBlock
      | .accepted => (offered data : Int) := by
  rcases h.write_cases port addr data hdata with ⟨hs, hw⟩ | ⟨hs, hw⟩ | ⟨hs, next, _, _, hw⟩ <;>
    simp [hs, hw]

/-- The one description of a read: the oldest message, the end of the stream, or
nothing yet. -/
theorem WellFormed.read_cases (h : queue.WellFormed) :
    (∃ buffer rest, ∃ next : Ring, queue.channel.inbox port = buffer :: rest ∧
        next.WellFormed ∧ next.buffers = rest ∧ bareQueueRead queue port =
          ⟨queue.setInbox port next, .ok buffer.message,
            if (queue.channel.inbox port).length = Channel.bound then
              bareQueueSignalPeer queue port else none, none⟩) ∨
    (queue.channel.inbox port = [] ∧ queue.channel.Finished port ∧
        bareQueueRead queue port = ⟨queue, .ok ⟨none, 0⟩, none, none⟩) ∨
    (queue.channel.inbox port = [] ∧ ¬ queue.channel.Finished port ∧
        bareQueueRead queue port = ⟨queue, .wouldBlock, none, none⟩) := by
  have hring := h.ring port
  have hshift := hring.shift
  have hfull := hring.full_iff
  unfold bareQueueRead
  simp only [channel_inbox, channel_finished]
  by_cases hnil : (bareQueueInbox queue port).buffers = []
  · right
    rw [hnil] at hshift
    simp only [hshift, hnil]
    by_cases hended : EndState.ended ≤ bareQueuePeerState queue port <;> simp [hended]
  · left
    obtain ⟨buffer, rest, hcons⟩ := List.exists_cons_of_ne_nil hnil
    rw [hcons] at hshift
    obtain ⟨next, hnext, hwell, hrest⟩ := hshift
    refine ⟨buffer, rest, next, hcons, hwell, hrest, ?_⟩
    simp only [hnext, ← hfull]
    congr 1
    cases port <;> rfl

theorem WellFormed.read (h : queue.WellFormed) : (bareQueueRead queue port).queue.WellFormed := by
  rcases h.read_cases port with ⟨_, _, next, _, hnext, _, hr⟩ | ⟨_, _, hr⟩ | ⟨_, _, hr⟩
  · rw [hr]
    exact h.setInbox _ _ hnext
  · rwa [hr]
  · rwa [hr]

theorem WellFormed.channel_read (h : queue.WellFormed) :
    (bareQueueRead queue port).queue.channel = queue.channel.receive port := by
  have hself : queue.channel.inbox port = [] → queue.channel = queue.channel.receive port := by
    intro hinbox
    apply Channel.ext
    · intro other
      rcases port.eq_or_eq_peer other with rfl | rfl <;> simp [hinbox]
    · intro other
      rfl
  rcases h.read_cases port with ⟨_, rest, next, hinbox, _, hrest, hr⟩ | ⟨hinbox, _, hr⟩ |
    ⟨hinbox, _, hr⟩
  · rw [hr, channel_setInbox, hrest, Channel.receive, hinbox, List.tail_cons]
  · rw [hr]
    exact hself hinbox
  · rw [hr]
    exact hself hinbox

theorem WellFormed.read_result (h : queue.WellFormed) :
    (bareQueueRead queue port).result =
      match queue.channel.receiveResult port with
      | .message buffer => .ok buffer.message
      | .endOfStream => .ok ⟨none, 0⟩
      | .blocked => .wouldBlock := by
  rcases h.read_cases port with ⟨_, rest, next, hinbox, _, hrest, hr⟩ | ⟨hinbox, hfin, hr⟩ |
    ⟨hinbox, hfin, hr⟩
  · rw [hr, Channel.receiveResult, hinbox]
  · rw [hr, Channel.receiveResult, hinbox]
    simp [hfin]
  · rw [hr, Channel.receiveResult, hinbox]
    simp [hfin]

theorem WellFormed.advance (h : queue.WellFormed) (state : EndState) :
    (bareQueueAdvance queue port state).queue.WellFormed := by
  rw [advance_queue]
  exact h.setState _ _

theorem channel_advance (state : EndState) :
    (bareQueueAdvance queue port state).queue.channel = queue.channel.advance port state := by
  rw [advance_queue, channel_setState, Channel.advance, channel_state]
  by_cases hlt : bareQueueState queue port < state
  · simp only [hlt, if_true]
  · rw [if_neg hlt, if_neg hlt, ← channel_setState, setState_unchanged]

theorem WellFormed.readable_eq (h : queue.WellFormed) :
    bareQueueReadable queue port = queue.channel.readable port := by
  have hempty := (h.ring port).empty_iff
  rw [bareQueueReadable, Channel.readable, ← decide_eq_decide.mpr (channel_finished port)]
  congr 2
  rw [Bool.eq_iff_iff, hempty, List.isEmpty_iff]
  rfl

theorem WellFormed.writable_eq (h : queue.WellFormed) :
    bareQueueWritable queue port = queue.channel.writable port := by
  have hfull := (h.ring port.peer).full_iff
  rw [bareQueueWritable, Channel.writable, decide_eq_decide.mpr (channel_refused port),
    Bool.decide_or, Bool.or_assoc, bareQueueOutbox_eq_inbox]
  congr 1
  rw [Bool.eq_iff_iff, Bool.not_eq_true', ← Bool.not_eq_true, hfull, decide_eq_true_iff]
  rfl

end Queue

end BareKit
