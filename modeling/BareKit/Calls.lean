import BareKit.Refinement
import BareKit.Transition

/-! The calls that both ends make on a queue, one locked section each, run against
the channel. The queue answers every list of calls as the channel does. -/
namespace BareKit

inductive Call where
  | openUv (onRecv data : Option Pointer)
  | openThread (onSignal data : Option Pointer)
  | write (port : Port) (addr : Pointer) (data : Bytes)
  | read (port : Port)
  | endPort (port : Port)
  | closePort (port : Port)
  | readable (port : Port)
  | writable (port : Port)
  deriving DecidableEq, Repr

inductive Answer where
  | done
  | port (opened : Bool)
  | count (result : Int)
  | message (result : ReadResult)
  | flag (value : Bool)
  deriving DecidableEq, Repr

def Outcome.answer {ρ : Type} (outcome : Outcome ρ) (answer : ρ → Answer) : Outcome Answer :=
  ⟨outcome.queue, answer outcome.result, outcome.wake, outcome.freed⟩

def Queue.call (queue : Queue) : Call → Outcome Answer
  | .openUv onRecv data => (bareQueueOpenUv queue onRecv data).answer fun _ => .port true
  | .openThread onSignal data => (bareQueueOpenThread queue onSignal data).answer .port
  | .write port addr data => (bareQueueWrite queue port addr data).answer .count
  | .read port => (bareQueueRead queue port).answer .message
  | .endPort port => (bareQueueEnd queue port).answer fun _ => .done
  | .closePort port => (bareQueueClose queue port).answer fun _ => .done
  | .readable port => ⟨queue, .flag (bareQueueReadable queue port), none, none⟩
  | .writable port => ⟨queue, .flag (bareQueueWritable queue port), none, none⟩

def Queue.machine : Transition.Machine Queue Call Answer :=
  fun queue call => ((queue.call call).queue, (queue.call call).result)

namespace Channel

def sendCount (data : Bytes) : SendResult → Int
  | .closed => bareQueueClosed
  | .blocked => bareQueueWouldBlock
  | .accepted => (min data.length intMax : Nat)

def receiveAnswer : ReceiveResult Buffer → ReadResult
  | .message buffer => .ok ⟨some buffer, buffer.bytes.length⟩
  | .endOfStream => .ok ⟨none, 0⟩
  | .blocked => .wouldBlock

/-- What a call means: opening is the only way back, and a write that is not empty
offers at most `INT_MAX` bytes as one message. -/
def machine : Transition.Machine (Channel Buffer) Call Answer := fun channel call =>
  match call with
  | .openUv _ _ => (channel.setState .uv .opened, .port true)
  | .openThread _ _ =>
    if channel.state .thread ≠ .idle then (channel, .port false)
    else (channel.setState .thread .opened, .port true)
  | .write port addr data =>
    if data = [] then (channel, .count 0)
    else (channel.send port ⟨addr, data.take intMax⟩,
      .count (sendCount data (channel.sendResult port)))
  | .read port => (channel.receive port, .message (receiveAnswer (channel.receiveResult port)))
  | .endPort port => (channel.advance port .ended, .done)
  | .closePort port => (channel.advance port .closed, .done)
  | .readable port => (channel, .flag (channel.readable port))
  | .writable port => (channel, .flag (channel.writable port))

end Channel

namespace Queue

variable {queue : Queue}

def Refines (queue : Queue) (channel : Channel Buffer) : Prop :=
  queue.WellFormed ∧ queue.channel = channel

theorem WellFormed.openUv (h : queue.WellFormed) (onRecv data : Option Pointer) :
    (bareQueueOpenUv queue onRecv data).queue.WellFormed :=
  ⟨fun port => by cases port <;> [exact h.ring .uv; exact h.ring .thread]⟩

theorem channel_openUv (queue : Queue) (onRecv data : Option Pointer) :
    (bareQueueOpenUv queue onRecv data).queue.channel = queue.channel.setState .uv .opened := by
  apply Channel.ext <;> intro port <;> cases port <;> rfl

theorem WellFormed.openThread (h : queue.WellFormed) (onSignal data : Option Pointer) :
    (bareQueueOpenThread queue onSignal data).queue.WellFormed := by
  unfold bareQueueOpenThread
  split
  · exact h
  · exact ⟨fun port => by cases port <;> [exact h.ring .uv; exact h.ring .thread]⟩

theorem channel_openThread (queue : Queue) (onSignal data : Option Pointer) :
    (bareQueueOpenThread queue onSignal data).queue.channel =
      if queue.channel.state .thread ≠ .idle then queue.channel
      else queue.channel.setState .thread .opened := by
  unfold bareQueueOpenThread
  by_cases hidle : queue.threadState = .idle
  · rw [if_neg (by simpa using hidle),
      if_neg (by simpa [Queue.channel_state, bareQueueState] using hidle)]
    apply Channel.ext <;> intro port <;> cases port <;> rfl
  · rw [if_pos hidle, if_pos (by simpa [Queue.channel_state, bareQueueState] using hidle)]

theorem openThread_result (queue : Queue) (onSignal data : Option Pointer) :
    (bareQueueOpenThread queue onSignal data).result =
      decide (queue.channel.state .thread = .idle) := by
  unfold bareQueueOpenThread
  by_cases hidle : queue.threadState = .idle <;> simp [hidle, channel_state, bareQueueState]

theorem WellFormed.call (h : queue.WellFormed) (call : Call) :
    (queue.call call).queue.WellFormed := by
  cases call with
  | openUv onRecv data => exact h.openUv onRecv data
  | openThread onSignal data => exact h.openThread onSignal data
  | write port addr data => exact h.write port addr data
  | read port => exact h.read port
  | endPort port => exact h.advance port .ended
  | closePort port => exact h.advance port .closed
  | readable port => exact h
  | writable port => exact h

/-- One call: the queue and its channel give the same answer and agree afterwards. -/
theorem WellFormed.call_channel (h : queue.WellFormed) (call : Call) :
    (queue.call call).result = (Channel.machine queue.channel call).2 ∧
      (queue.call call).queue.channel = (Channel.machine queue.channel call).1 := by
  cases call with
  | openUv onRecv data => exact ⟨rfl, channel_openUv queue onRecv data⟩
  | openThread onSignal data =>
    have hresult := openThread_result queue onSignal data
    have hchannel := channel_openThread queue onSignal data
    simp only [Queue.call, Outcome.answer, hresult, hchannel, Channel.machine]
    split <;> simp_all
  | write port addr data =>
    by_cases hdata : data = []
    · simp [Queue.call, Outcome.answer, Channel.machine, hdata, write_nil]
    · have hresult := h.write_result port addr data hdata
      have hchannel := h.channel_write port addr data hdata
      rw [take_offered] at hchannel
      simp only [Queue.call, Outcome.answer, hresult, hchannel, Channel.machine, hdata,
        if_false, and_true]
      cases queue.channel.sendResult port <;> rfl
  | read port =>
    have hresult := h.read_result port
    refine ⟨?_, h.channel_read port⟩
    simp only [Queue.call, Outcome.answer, hresult, Channel.machine]
    cases queue.channel.receiveResult port <;> rfl
  | endPort port => exact ⟨rfl, channel_advance port .ended⟩
  | closePort port => exact ⟨rfl, channel_advance port .closed⟩
  | readable port => exact ⟨congrArg Answer.flag (h.readable_eq port), rfl⟩
  | writable port => exact ⟨congrArg Answer.flag (h.writable_eq port), rfl⟩

theorem simulates : Transition.Machine.Simulates machine Channel.machine Refines := by
  rintro queue _ call ⟨h, rfl⟩
  obtain ⟨hresult, hchannel⟩ := h.call_channel call
  exact ⟨hresult, h.call call, hchannel⟩

theorem refines_create (toUv toThread : Slots) :
    (bareQueueCreate toUv toThread).Refines Channel.empty := by
  have hring : ∀ slots : Slots, Ring.contents ⟨slots, 0, 0⟩ = [] :=
    fun slots => Circular.contents_self slots 0
  constructor
  · constructor
    intro port
    cases port
    all_goals 
      refine ⟨show 0 < bareQueueCapacity by decide, show 0 < bareQueueCapacity by decide, ?_⟩
      simp [bareQueueInbox, bareQueueCreate, hring]
  · apply Channel.ext
    · intro port
      cases port <;>
        simp [channel_inbox, bareQueueInbox, bareQueueCreate, Ring.buffers, hring, Channel.empty]
    · intro port
      cases port <;> rfl

structure Implements (queue : Queue) (channel : Channel Buffer) : Prop where
  state : ∀ port, bareQueueState queue port = channel.state port
  head_lt : ∀ port, (bareQueueInbox queue port).head < bareQueueCapacity
  tail_lt : ∀ port, (bareQueueInbox queue port).tail < bareQueueCapacity
  bounded : ∀ port, (channel.inbox port).length ≤ bareQueueCapacity - 1
  empty_iff : ∀ port,
    bareQueueRingEmpty (bareQueueInbox queue port) = true ↔ channel.inbox port = []
  full_iff : ∀ port, bareQueueRingFull (bareQueueInbox queue port) = true ↔
    (channel.inbox port).length = bareQueueCapacity - 1
  read_oldest : ∀ port buffer rest, channel.inbox port = buffer :: rest →
    (bareQueueRead queue port).result = .ok ⟨some buffer, buffer.bytes.length⟩ ∧
      (bareQueueRead queue port).queue.channel =
        { channel with inbox := Function.update channel.inbox port rest }
  read_empty : ∀ port, channel.inbox port = [] →
    (bareQueueRead queue port).queue = queue ∧ (bareQueueRead queue port).result =
      if EndState.ended ≤ channel.state port.peer then .ok ⟨none, 0⟩ else .wouldBlock
  write_empty : ∀ port addr, bareQueueWrite queue port addr [] = ⟨queue, 0, none, none⟩
  write_closed : ∀ port addr data, data ≠ [] →
    ((bareQueueWrite queue port addr data).result = bareQueueClosed ↔
      EndState.ended ≤ channel.state port ∨ channel.state port.peer = .closed)
  write_blocked : ∀ port addr data, data ≠ [] →
    ((bareQueueWrite queue port addr data).result = bareQueueWouldBlock ↔
      ¬ (EndState.ended ≤ channel.state port ∨ channel.state port.peer = .closed) ∧
        (channel.inbox port.peer).length = bareQueueCapacity - 1)
  write_refused : ∀ port addr data, (bareQueueWrite queue port addr data).result < 0 →
    (bareQueueWrite queue port addr data).queue = queue
  write_accepted : ∀ port addr data, data ≠ [] →
    0 ≤ (bareQueueWrite queue port addr data).result →
      (bareQueueWrite queue port addr data).result = (min data.length intMax : Nat) ∧
        (bareQueueWrite queue port addr data).queue.channel =
          { channel with
            inbox := Function.update channel.inbox port.peer
              (channel.inbox port.peer ++ [⟨addr, data.take intMax⟩]) }

theorem WellFormed.write_result_neg (h : queue.WellFormed) (port : Port) (addr : Pointer)
    {data : Bytes} (hdata : data ≠ []) :
    (bareQueueWrite queue port addr data).result < 0 ↔
      queue.channel.sendResult port ≠ .accepted := by
  rw [h.write_result port addr data hdata]
  cases queue.channel.sendResult port <;> simp [bareQueueClosed, bareQueueWouldBlock]

theorem WellFormed.write_refused (h : queue.WellFormed) {port : Port} {addr : Pointer}
    {data : Bytes} (hneg : (bareQueueWrite queue port addr data).result < 0) :
    (bareQueueWrite queue port addr data).queue = queue := by
  by_cases hdata : data = []
  · rw [write_nil port addr data hdata]
  · rcases h.write_cases port addr data hdata with ⟨_, hw⟩ | ⟨_, hw⟩ | ⟨hs, _⟩
    · rw [hw]
    · rw [hw]
    · exact absurd hs ((h.write_result_neg port addr hdata).mp hneg)

theorem WellFormed.write_accepted (h : queue.WellFormed) {port : Port} {addr : Pointer}
    {data : Bytes} (hdata : data ≠ []) (hpos : 0 ≤ (bareQueueWrite queue port addr data).result) :
    (bareQueueWrite queue port addr data).result = (min data.length intMax : Nat) ∧
      (bareQueueWrite queue port addr data).queue.channel =
        { queue.channel with
          inbox := Function.update queue.channel.inbox port.peer
            (queue.channel.inbox port.peer ++ [⟨addr, data.take intMax⟩]) } := by
  have hs : queue.channel.sendResult port = .accepted := by
    by_contra hs
    have := (h.write_result_neg port addr hdata).mpr hs
    omega
  constructor
  · rw [h.write_result port addr data hdata, hs]
    rfl
  · rw [h.channel_write port addr data hdata, take_offered, Channel.send, if_pos hs]
    rfl

theorem Refines.implements {channel : Channel Buffer} (hrefines : queue.Refines channel) :
    queue.Implements channel := by
  obtain ⟨h, rfl⟩ := hrefines
  refine
    { state := fun port => rfl
      head_lt := fun port => (h.ring port).head_lt
      tail_lt := fun port => (h.ring port).tail_lt
      bounded := fun port => (h.ring port).length_le
      empty_iff := fun port => (h.ring port).empty_iff
      full_iff := fun port => (h.ring port).full_iff
      read_oldest := ?_
      read_empty := ?_
      write_empty := fun port addr => write_nil port addr [] rfl
      write_closed := ?_
      write_blocked := ?_
      write_refused := fun port addr data hneg => h.write_refused hneg
      write_accepted := fun port addr data hdata hpos => h.write_accepted hdata hpos }
  · intro port buffer rest hinbox
    constructor
    · rw [h.read_result port, Channel.receiveResult, hinbox]
      rfl
    · rw [h.channel_read port, Channel.receive, hinbox]
      rfl
  · intro port hinbox
    rcases h.read_cases port with ⟨buffer, rest, _, hcons, _⟩ | ⟨_, hfin, hr⟩ | ⟨_, hfin, hr⟩
    · exact absurd (hcons.symm.trans hinbox) (List.cons_ne_nil buffer rest)
    · rw [hr]
      exact ⟨rfl, (if_pos hfin).symm⟩
    · rw [hr]
      exact ⟨rfl, (if_neg hfin).symm⟩
  · intro port addr data hdata
    rw [h.write_result port addr data hdata, ← Channel.Refused, ← Channel.sendResult_closed]
    cases queue.channel.sendResult port <;> simp [bareQueueClosed, bareQueueWouldBlock]
  · intro port addr data hdata
    have hblocked : queue.channel.sendResult port = .blocked ↔ _ := Channel.sendResult_blocked
    rw [h.write_result port addr data hdata, ← Channel.Refused]
    refine Iff.trans ?_ hblocked
    cases queue.channel.sendResult port <;> simp [bareQueueClosed, bareQueueWouldBlock]

end Queue

/-- Whatever the two ends call in whatever order, and however often the rings wrap
around, the queue gives the answers of the channel and stays an implementation of it. -/
theorem bareQueue_refines_channel (toUv toThread : Slots) (calls : List Call) :
    Queue.machine.answers (bareQueueCreate toUv toThread) calls =
        Channel.machine.answers Channel.empty calls ∧
      (Queue.machine.after (bareQueueCreate toUv toThread) calls).Implements
        (Channel.machine.after Channel.empty calls) := by
  have hcreate := Queue.refines_create toUv toThread
  exact ⟨Queue.simulates.answers hcreate calls, (Queue.simulates.after hcreate calls).implements⟩

end BareKit
