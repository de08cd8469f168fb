import BareKit.Wire

/-! Polls of an ipc. Any thread may start or stop a poll, by two stores that other
threads see one at a time. The poll's own thread takes wakes, finds out what is ready
and calls back, and the callback may use the ipc while the other threads do. -/
namespace BareKit

structure Poll where
  events : Events
  cb : Option Pointer
  deriving DecidableEq, Repr

def bareIpcPollCreate : Poll := ⟨Events.none, none⟩

/-- Where the poll's thread is in `bare_ipc__dispatch`. -/
inductive Dispatch where
  | idle
  | woken
  | loaded (cb : Pointer)
  | ready (cb : Pointer) (ready : Events)
  | locked (cb : Pointer) (ready : Events)
  | unlocked (cb : Pointer) (ready : Events)
  /-- In the callback, with whether it has read. -/
  | running (cb : Pointer) (ready : Events) (read : Bool)
  deriving DecidableEq, Repr

namespace Wire

/-- What `bare_ipc__dispatch` takes for writable: a closed ipc fails writes at once. -/
def hostWritable (wire : Wire) : Bool :=
  match wire.ipc with
  | none => true
  | some ipc => !ipc.port || bareQueueWritable wire.queue .thread

def first (wire : Wire) (chunk : Bytes) : Bool :=
  !chunk.isEmpty && !decide (EndState.ended ≤ bareQueueState wire.queue .uv) &&
    bareQueuePeerState wire.queue .uv != .closed &&
    bareQueueRingEmpty (bareQueueOutbox wire.queue .uv)

/-- The steps that signal the host: a read of the worklet from a full ring, a write of
it into an empty one, its end, and what a call of the host says itself. -/
def rouses (wire : Wire) : Step → Bool
  | .drain _ =>
    bareQueueListening wire.queue.threadState && wire.stream.reading &&
      bareQueueRingFull (bareQueueInbox wire.queue .uv)
  | .write _ chunk => bareQueueListening wire.queue.threadState && wire.first chunk
  | .retry _ =>
    bareQueueListening wire.queue.threadState &&
      wire.stream.pendingWrite.any fun parked => wire.first parked.chunk
  | .final | .exit | .abandon => bareQueueListening wire.queue.threadState
  | .ipcSignal => true
  | _ => false

end Wire

structure Polled where
  wire : Wire
  poll : Option Poll := none
  dispatch : Dispatch := .idle
  /-- The callbacks that starts have still to store. -/
  storing : List Pointer := []
  /-- The starts that have still to signal. -/
  signalling : Nat := 0
  /-- The stops that have still to store `NULL`. -/
  stopping : Nat := 0
  /-- The calls in progress are starts for readable, and so were those they overlapped. -/
  starting : Bool := false
  /-- The last start was for readable, has returned, and no start or stop has begun since. -/
  started : Bool := false
  /-- The ipc was not writable at some moment since the last wake was taken. -/
  stalled : Bool := false
  /-- The host was signalled since the last wake was taken. -/
  roused : Bool := false

inductive PollStep where
  /-- A step of the worklet or of a host thread. -/
  | wire (step : Step)
  /-- A step of the callback. The rest of a call that it makes is a step like any other. -/
  | callback (step : Step)
  | create
  | start (events : Events) (cb : Pointer)
  | startCb (cb : Pointer)
  | startSignal
  | stop
  | stopCb
  -- The poll's thread.
  | wake
  | loadCb
  | loadEvents
  | maskReadable
  | maskWritable
  | call
  | leave

def Step.ofDispatch : Step → Bool
  | .takeWake | .dispatch | .dispatchWritable => true
  | _ => false

def Step.ofCallback : Step → Bool
  | .ipcRead _ | .ipcWrite _ _ | .ipcEnd | .ipcClose => true
  | _ => false

def Step.reads : Step → Bool
  | .ipcRead _ => true
  | _ => false

namespace Polled

/-- Whether a start or a stop has begun and not returned. -/
def inFlight (polled : Polled) : Bool :=
  !polled.storing.isEmpty || polled.signalling != 0 || polled.stopping != 0

def advance (polled : Polled) (step : Step) (wire : Wire) : Polled :=
  { polled with
    wire
    stalled := polled.stalled || !wire.hostWritable
    roused := polled.roused || polled.wire.rouses step }

/-- The stores of `bare_ipc_poll_start` and `bare_ipc_poll_stop`. A start with no events
stops. -/
def stepPoll (polled : Polled) (poll : Poll) : PollStep → Option Polled
  | .start events cb =>
    if events = Events.none then none
    else some { polled with
      poll := some { poll with events }
      storing := cb :: polled.storing
      starting := (!polled.inFlight || polled.starting) && events.readable
      started := false }
  | .startCb cb =>
    if cb ∈ polled.storing then
      some { polled with
        poll := some { poll with cb := some cb }
        storing := polled.storing.erase cb
        signalling := polled.signalling + 1 }
    else none
  | .startSignal =>
    if 0 < polled.signalling then
      let polled :=
        { polled with
          wire := { polled.wire with wakeThread := true }
          signalling := polled.signalling - 1
          roused := true }
      some { polled with started := polled.starting && !polled.inFlight }
    else none
  | .stop =>
    some { polled with
      poll := some { poll with events := Events.none }
      stopping := polled.stopping + 1
      starting := false
      started := false }
  | .stopCb =>
    if 0 < polled.stopping then
      some { polled with
        poll := some { poll with cb := none }
        stopping := polled.stopping - 1 }
    else none
  | _ => none

/-- `bare_ipc__dispatch`. -/
def stepDispatch (polled : Polled) : Dispatch → PollStep → Option Polled
  | .idle, .wake =>
    (polled.wire.step .takeWake).map fun wire =>
      { polled with wire, dispatch := .woken, stalled := !wire.hostWritable, roused := false }
  | .woken, .loadCb =>
    match polled.poll.bind Poll.cb with
    | none => some { polled with dispatch := .idle }
    | some cb => some { polled with dispatch := .loaded cb }
  | .loaded cb, .loadEvents =>
    polled.poll.map fun poll => { polled with dispatch := .ready cb poll.events }
  | .ready cb ready, .maskReadable =>
    polled.wire.ipc.bind fun ipc => (polled.wire.step .dispatch).map fun wire =>
      { polled with
        wire, dispatch := .locked cb (bareIpcMaskReadable polled.wire.queue ipc ready) }
  | .locked cb ready, .maskWritable =>
    polled.wire.ipc.bind fun ipc => (polled.wire.step .dispatchWritable).map fun wire =>
      { polled with
        wire, dispatch := .unlocked cb (bareIpcMaskWritable polled.wire.queue ipc ready) }
  | .unlocked cb ready, .call =>
    some { polled with
      dispatch := if ready = Events.none then .idle else .running cb ready false }
  | .running cb ready read, .callback step =>
    if step.ofCallback then
      (polled.wire.step step).map fun wire =>
        { polled.advance step wire with dispatch := .running cb ready (read || step.reads) }
    else none
  | .running _ _ _, .leave => some { polled with dispatch := .idle }
  | _, _ => none

def step (polled : Polled) (label : PollStep) : Option Polled :=
  match label with
  | .wire step =>
    if step.ofDispatch then none else (polled.wire.step step).map (polled.advance step)
  | .create =>
    if polled.poll = none ∧ polled.wire.ipc.isSome then
      some { polled with poll := some bareIpcPollCreate }
    else none
  | .start _ _ | .startCb _ | .startSignal | .stop | .stopCb =>
    polled.poll.bind fun poll => polled.stepPoll poll label
  | .callback _ | .wake | .loadCb | .loadEvents | .maskReadable | .maskWritable | .call | .leave =>
    polled.stepDispatch polled.dispatch label

def system : Transition.System Polled PollStep where
  init polled := ∃ toUv toThread,
    polled = { wire := Wire.ofQueue (bareQueueCreate toUv toThread) }
  step := step

inductive Move (polled : Polled) : PollStep → Polled → Prop where
  | wire {step : Step} {wire : Wire} : step.ofDispatch = false →
      polled.wire.step step = some wire → Move polled (.wire step) (polled.advance step wire)
  | callback {step : Step} {wire : Wire} {cb : Pointer} {ready : Events} {read : Bool} :
      polled.dispatch = .running cb ready read → step.ofCallback = true →
      polled.wire.step step = some wire → Move polled (.callback step)
        { polled.advance step wire with dispatch := .running cb ready (read || step.reads) }
  | create : polled.poll = none → polled.wire.ipc.isSome = true →
      Move polled .create { polled with poll := some bareIpcPollCreate }
  | start {poll : Poll} {events : Events} {cb : Pointer} : polled.poll = some poll →
      events ≠ Events.none → Move polled (.start events cb)
        { polled with
          poll := some { poll with events }
          storing := cb :: polled.storing
          starting := (!polled.inFlight || polled.starting) && events.readable
          started := false }
  | startCb {poll : Poll} {cb : Pointer} : polled.poll = some poll → cb ∈ polled.storing →
      Move polled (.startCb cb)
        { polled with
          poll := some { poll with cb := some cb }
          storing := polled.storing.erase cb
          signalling := polled.signalling + 1 }
  | startSignal {signalled : Polled} : polled.poll ≠ none → 0 < polled.signalling → signalled =
        { polled with
          wire := { polled.wire with wakeThread := true }
          signalling := polled.signalling - 1
          roused := true } →
      Move polled .startSignal
        { signalled with started := signalled.starting && !signalled.inFlight }
  | stop {poll : Poll} : polled.poll = some poll → Move polled .stop
      { polled with
        poll := some { poll with events := Events.none }
        stopping := polled.stopping + 1
        starting := false
        started := false }
  | stopCb {poll : Poll} : polled.poll = some poll → 0 < polled.stopping → Move polled .stopCb
      { polled with poll := some { poll with cb := none }, stopping := polled.stopping - 1 }
  | wake : polled.dispatch = .idle → polled.wire.wakeThread = true → Move polled .wake
      { polled with
        wire := { polled.wire with wakeThread := false }
        dispatch := .woken
        stalled := !polled.wire.hostWritable
        roused := false }
  | loadNull : polled.dispatch = .woken → polled.poll.bind Poll.cb = none →
      Move polled .loadCb { polled with dispatch := .idle }
  | loadCb {cb : Pointer} : polled.dispatch = .woken → polled.poll.bind Poll.cb = some cb →
      Move polled .loadCb { polled with dispatch := .loaded cb }
  | loadEvents {poll : Poll} {cb : Pointer} : polled.dispatch = .loaded cb →
      polled.poll = some poll →
      Move polled .loadEvents { polled with dispatch := .ready cb poll.events }
  | maskReadable {ipc : Ipc} {cb : Pointer} {ready : Events} : polled.dispatch = .ready cb ready →
      polled.wire.ipc = some ipc → polled.wire.held = none → Move polled .maskReadable
        { polled with
          wire := { polled.wire with held := some .dispatching }
          dispatch := .locked cb (bareIpcMaskReadable polled.wire.queue ipc ready) }
  | maskWritable {ipc : Ipc} {cb : Pointer} {ready : Events} : polled.dispatch = .locked cb ready →
      polled.wire.ipc = some ipc → polled.wire.held = some .dispatching →
      Move polled .maskWritable
        { polled with
          wire := { polled.wire with held := none }
          dispatch := .unlocked cb (bareIpcMaskWritable polled.wire.queue ipc ready) }
  | skip {cb : Pointer} : polled.dispatch = .unlocked cb Events.none →
      Move polled .call { polled with dispatch := .idle }
  | call {cb : Pointer} {ready : Events} : polled.dispatch = .unlocked cb ready →
      ready ≠ Events.none → Move polled .call { polled with dispatch := .running cb ready false }
  | leave {cb : Pointer} {ready : Events} {read : Bool} : polled.dispatch = .running cb ready read →
      Move polled .leave { polled with dispatch := .idle }

variable {polled next : Polled} {label : PollStep}

theorem move_stepPoll {poll : Poll} (hpoll : polled.poll = some poll)
    (hstep : polled.stepPoll poll label = some next) : Move polled label next := by
  cases label with
  | start events cb =>
    simp only [stepPoll] at hstep
    split at hstep
    · contradiction
    · rename_i hevents
      cases hstep
      exact .start hpoll hevents
  | startCb cb =>
    simp only [stepPoll] at hstep
    split at hstep
    · rename_i hstoring
      cases hstep
      exact .startCb hpoll hstoring
    · contradiction
  | startSignal =>
    simp only [stepPoll] at hstep
    split at hstep
    · rename_i hsignalling
      cases hstep
      exact .startSignal (by simp [hpoll]) hsignalling rfl
    · contradiction
  | stop =>
    cases hstep
    exact .stop hpoll
  | stopCb =>
    simp only [stepPoll] at hstep
    split at hstep
    · rename_i hstopping
      cases hstep
      exact .stopCb hpoll hstopping
    · contradiction
  | _ => contradiction

theorem move_stepDispatch {dispatch : Dispatch} (hdispatch : polled.dispatch = dispatch)
    (hstep : polled.stepDispatch dispatch label = some next) : Move polled label next := by
  cases dispatch <;> cases label <;> try contradiction
  case idle.wake =>
    obtain ⟨wire, hwire, rfl⟩ := Option.map_eq_some_iff.mp hstep
    cases Wire.move_step hwire with
    | takeWake hwake => exact .wake hdispatch hwake
  case woken.loadCb =>
    simp only [stepDispatch] at hstep
    split at hstep
    · rename_i hnull
      cases hstep
      exact .loadNull hdispatch hnull
    · rename_i cb hcb
      cases hstep
      exact .loadCb hdispatch hcb
  case loaded.loadEvents cb =>
    obtain ⟨poll, hpoll, rfl⟩ := Option.map_eq_some_iff.mp hstep
    exact .loadEvents hdispatch hpoll
  case ready.maskReadable cb ready =>
    obtain ⟨ipc, hipc, hrest⟩ := Option.bind_eq_some_iff.mp hstep
    obtain ⟨wire, hwire, rfl⟩ := Option.map_eq_some_iff.mp hrest
    cases Wire.move_step hwire with
    | dispatch hheld _ => exact .maskReadable hdispatch hipc hheld
  case locked.maskWritable cb ready =>
    obtain ⟨ipc, hipc, hrest⟩ := Option.bind_eq_some_iff.mp hstep
    obtain ⟨wire, hwire, rfl⟩ := Option.map_eq_some_iff.mp hrest
    cases Wire.move_step hwire with
    | dispatchWritable _ hheld => exact .maskWritable hdispatch hipc hheld
  case unlocked.call cb ready =>
    cases hstep
    split
    · rename_i hnone
      exact .skip (by rw [hdispatch, hnone])
    · rename_i hsome
      exact .call hdispatch hsome
  case running.callback cb ready read step =>
    simp only [stepDispatch] at hstep
    split at hstep
    · rename_i hcallback
      obtain ⟨wire, hwire, rfl⟩ := Option.map_eq_some_iff.mp hstep
      exact .callback hdispatch hcallback hwire
    · contradiction
  case running.leave cb ready read =>
    cases hstep
    exact .leave hdispatch

theorem move_step (hstep : polled.step label = some next) : Move polled label next := by
  cases label with
  | wire step =>
    simp only [Polled.step] at hstep
    split at hstep
    · contradiction
    · rename_i hdispatch
      obtain ⟨wire, hwire, rfl⟩ := Option.map_eq_some_iff.mp hstep
      exact .wire (by simpa using hdispatch) hwire
  | create =>
    simp only [Polled.step] at hstep
    split at hstep
    · rename_i henabled
      cases hstep
      exact .create henabled.1 henabled.2
    · contradiction
  | start _ _ | startCb _ | startSignal | stop | stopCb =>
    obtain ⟨poll, hpoll, hnext⟩ := Option.bind_eq_some_iff.mp hstep
    exact move_stepPoll hpoll hnext
  | callback _ | wake | loadCb | loadEvents | maskReadable | maskWritable | call | leave =>
    exact move_stepDispatch rfl hstep

end Polled

end BareKit
