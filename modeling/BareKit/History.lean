import BareKit.Calls

/-! Sessions: a queue together with everything that was called on it. The only
calls left out are those that need a port nobody has been given yet: an end is
used once it is open, except that a worklet that never started is closed unopened. -/
namespace BareKit

structure Event where
  call : Call
  answer : Answer
  wake : Option Port

structure Session where
  queue : Queue
  /-- Latest first. -/
  history : List Event

def Call.Enabled (call : Call) (state : Port → EndState) : Prop :=
  match call with
  | .openUv _ _ => state .uv = .idle
  | .openThread _ _ => True
  | .write port _ _ => state port ≠ .idle
  | .read port => state port ≠ .idle
  | .endPort port => state port ≠ .idle
  | .closePort _ => True
  | .readable port => state port ≠ .idle
  | .writable port => state port ≠ .idle

instance (call : Call) (state : Port → EndState) : Decidable (call.Enabled state) :=
  match call with
  | .openUv _ _ => inferInstanceAs (Decidable (state .uv = .idle))
  | .openThread _ _ => isTrue trivial
  | .write port _ _ => inferInstanceAs (Decidable (state port ≠ .idle))
  | .read port => inferInstanceAs (Decidable (state port ≠ .idle))
  | .endPort port => inferInstanceAs (Decidable (state port ≠ .idle))
  | .closePort _ => isTrue trivial
  | .readable port => inferInstanceAs (Decidable (state port ≠ .idle))
  | .writable port => inferInstanceAs (Decidable (state port ≠ .idle))

namespace Session

def event (queue : Queue) (call : Call) : Event :=
  ⟨call, (queue.call call).result, (queue.call call).wake⟩

def system : Transition.System Session Call where
  init session :=
    (∃ toUv toThread, session.queue = bareQueueCreate toUv toThread) ∧ session.history = []
  step session call :=
    if call.Enabled (bareQueueState session.queue) then
      some ⟨(session.queue.call call).queue, event session.queue call :: session.history⟩
    else none

variable {session next : Session} {call : Call}

theorem step_eq_some : system.step session call = some next ↔
    call.Enabled (bareQueueState session.queue) ∧
      next = ⟨(session.queue.call call).queue, event session.queue call :: session.history⟩ := by
  simp only [system]
  split <;> simp_all [eq_comm]

theorem wellFormed (h : system.Reachable session) : session.queue.WellFormed := by
  refine h.invariant (I := fun session => session.queue.WellFormed) ?_ ?_
  · rintro session ⟨⟨toUv, toThread, hqueue⟩, -⟩
    rw [hqueue]
    exact (Queue.refines_create toUv toThread).1
  · intro session call next _ hwell hstep
    obtain ⟨-, rfl⟩ := step_eq_some.mp hstep
    exact hwell.call call

theorem step_channel (h : system.Reachable session) (hstep : system.step session call = some next) :
    next.queue.channel = (Channel.machine session.queue.channel call).1 ∧
      next.history = event session.queue call :: session.history ∧
      (event session.queue call).answer = (Channel.machine session.queue.channel call).2 := by
  obtain ⟨-, rfl⟩ := step_eq_some.mp hstep
  obtain ⟨hanswer, hchannel⟩ := (wellFormed h).call_channel call
  exact ⟨hchannel, rfl, hanswer⟩

end Session

namespace Event

def sent (port : Port) (event : Event) : List Bytes :=
  match event.call, event.answer with
  | .write writer _ data, .count count =>
    if writer = port ∧ 0 < count then [data.take count.toNat] else []
  | _, _ => []

def received (port : Port) (event : Event) : List Bytes :=
  match event.call, event.answer with
  | .read reader, .message (.ok ⟨some buffer, len⟩) =>
    if reader = port then [buffer.bytes.take len] else []
  | _, _ => []

end Event

namespace Session

def sent (port : Port) : List Event → List Bytes
  | [] => []
  | event :: rest => sent port rest ++ event.sent port

def received (port : Port) : List Event → List Bytes
  | [] => []
  | event :: rest => received port rest ++ event.received port

end Session

namespace Channel

variable {channel : Channel Buffer} {call : Call} {port : Port}

theorem machine_state_le (channel : Channel Buffer) (henabled : call.Enabled channel.state)
    (port : Port) :
    channel.state port ≤ (machine channel call).1.state port := by
  have hrefl : ∀ state : EndState, state ≤ state := fun state => Nat.le_refl state.rank
  have hopen : ∀ opening : Port, channel.state opening = .idle →
      channel.state port ≤ (channel.setState opening .opened).state port := by
    intro opening hidle
    rcases opening.eq_or_eq_peer port with rfl | rfl
    · simp only [hidle, setState_state_self]
      decide
    · simpa using hrefl _
  cases call with
  | openUv _ _ => exact hopen .uv henabled
  | openThread _ _ =>
    simp only [machine]
    split
    · exact hrefl _
    · exact hopen .thread (not_not.mp ‹_›)
  | write writer addr data =>
    simp only [machine]
    split <;> simpa using hrefl _
  | read reader => simpa [machine] using hrefl _
  | endPort ending => exact le_advance channel ending port .ended
  | closePort closing => exact le_advance channel closing port .closed
  | readable _ => exact hrefl _
  | writable _ => exact hrefl _

end Channel

namespace Session

variable {session next : Session}

theorem run_state_le (h : system.Reachable session) {calls : List Call}
    (hrun : system.run session calls = some next) (port : Port) :
    bareQueueState session.queue port ≤ bareQueueState next.queue port := by
  refine h.persists (P := fun other => bareQueueState session.queue port ≤
    bareQueueState other.queue port) (Nat.le_refl _) ?_ hrun
  intro session' call next' hreach hle hstep
  have henabled := (step_eq_some.mp hstep).1
  obtain ⟨hchannel, -⟩ := step_channel hreach hstep
  refine Nat.le_trans hle ?_
  have hport := Channel.machine_state_le session'.queue.channel henabled port
  rwa [← hchannel] at hport

end Session

end BareKit
