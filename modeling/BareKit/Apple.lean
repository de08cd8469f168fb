import BareKit.Destroy

/-! The polls of `src/apple/ipc.m`, which run on a serial queue of libdispatch. A source submits the
handler of the wakes to it and, once cancelled, its cancel handler. What the queue runs, it runs one
after the other, and `dispatch_sync` waits for its turn on it. -/
namespace BareKit

/-- What the event handler of the source does next, in `bare_ipc__dispatch`. -/
inductive OnEvent where
  | idle
  | loadingPoll
  | loadingCb
  | loadingEvents (cb : Pointer)
  | masking (cb : Pointer) (ready : Events)
  | maskingWritable (cb : Pointer) (ready : Events)
  | calling (cb : Pointer) (ready : Events)
  | running
  deriving DecidableEq, Repr

inductive Errand where
  | idle
  | calling
  | startingCb (cb : Pointer)
  | startingSignal
  | stoppingCb
  deriving DecidableEq, Repr

/-- What is next in `bare_ipc_poll_destroy`. -/
inductive PollRemoval where
  | stopping
  | stoppingCb
  | entering
  | detaching
  | freeing
  deriving DecidableEq, Repr

/-- What is next in `bare_ipc_destroy`. -/
inductive IpcRemoval where
  | closing
  | releasing
  | checking
  | watching
  | cancelling
  | awaiting
  | signalFreeing
  | freeing
  deriving DecidableEq, Repr

inductive Doom (stage : Type) where
  | alive
  | destroying (thread : Thread) (stage : stage)
  | destroyed (thread : Thread)
  deriving DecidableEq, Repr

namespace Doom

variable {stage : Type}

def freed : Doom stage → Bool
  | .destroyed _ => true
  | _ => false

def held (doom : Doom stage) (thread : Thread) : Bool :=
  match doom with
  | .destroying holder _ => holder == thread
  | _ => false

def takenBy (doom : Doom stage) (thread : Thread) : Bool :=
  match doom with
  | .destroying holder _ | .destroyed holder => holder == thread
  | .alive => false

/-- The destroy has come to a stage where `p` holds, or is over. -/
def past (doom : Doom stage) (p : stage → Bool) : Bool :=
  match doom with
  | .alive => false
  | .destroying _ stage => p stage
  | .destroyed _ => true

end Doom

def PollRemoval.detached : PollRemoval → Bool
  | .freeing => true
  | _ => false

namespace IpcRemoval

def shut : IpcRemoval → Bool
  | .closing => false
  | _ => true

def cancelled : IpcRemoval → Bool
  | .awaiting | .signalFreeing | .freeing => true
  | _ => false

def awaited : IpcRemoval → Bool
  | .signalFreeing | .freeing => true
  | _ => false

def signalFreed : IpcRemoval → Bool
  | .freeing => true
  | _ => false

end IpcRemoval

/-- `attached` is whether `ipc->poll` is set, `watched` whether the source has a cancel handler, and
`acknowledged` whether that has run. -/
structure Serial where
  handler : OnEvent := .idle
  callback : Errand := .idle
  pollDoom : Doom PollRemoval := .alive
  ipcDoom : Doom IpcRemoval := .alive
  attached : Bool := true
  cancelled : Bool := false
  watched : Bool := false
  acknowledged : Bool := false
  signalFrees : List Thread := []

/-- A `fault` is an access to what was freed. -/
structure Apple extends Serial where
  wire : Wire
  poll : Poll
  fault : Bool := false

inductive AppleStep where
  | worklet (step : Step)
  -- The queue of the signal.
  | event
  | dispatch
  | acknowledge
  -- The callback.
  | call (step : Step)
  | start (events : Events) (cb : Pointer)
  | stop
  | rest (step : Step)
  | leave
  -- The callback, or the host.
  | pollDestroy (thread : Thread)
  | ipcDestroy (thread : Thread)
  | onPollDestroy
  | onIpcDestroy

def Serial.free (serial : Serial) : Bool :=
  serial.handler == .running && serial.callback == .idle && !serial.pollDoom.held .poll &&
    !serial.ipcDoom.held .poll

namespace Apple

def touchPoll (apple : Apple) : Apple := { apple with fault := apple.fault || apple.pollDoom.freed }

def touchIpc (apple : Apple) : Apple := { apple with fault := apple.fault || apple.ipcDoom.freed }

def touchSignal (apple : Apple) : Apple :=
  { apple with fault := apple.fault || !apple.signalFrees.isEmpty }

/-- `bare_ipc__signal`, without the wake. -/
def signal (apple : Apple) : Apple := apple.touchIpc.touchSignal

def mayCall (apple : Apple) : Thread → Bool
  | .host => !apple.pollDoom.held .host
  | .poll => apple.free

/-- `bare_ipc__dispatch`. -/
def stepDispatch (apple : Apple) : Option Apple :=
  match apple.handler with
  | .loadingPoll =>
    some { apple.touchIpc with handler := if apple.attached then .loadingCb else .idle }
  | .loadingCb =>
    some { apple.touchPoll with
      handler :=
        match apple.poll.cb with
        | none => .idle
        | some cb => .loadingEvents cb }
  | .loadingEvents cb => some { apple.touchPoll with handler := .masking cb apple.poll.events }
  | .masking cb ready =>
    apple.wire.ipc.bind fun ipc => (apple.wire.step .dispatch).map fun wire =>
      { apple.touchIpc with
        wire, handler := .maskingWritable cb (bareIpcMaskReadable apple.wire.queue ipc ready) }
  | .maskingWritable cb ready =>
    apple.wire.ipc.bind fun ipc => (apple.wire.step .dispatchWritable).map fun wire =>
      { apple.touchIpc with
        wire, handler := .calling cb (bareIpcMaskWritable apple.wire.queue ipc ready) }
  | .calling _ ready =>
    some { apple with handler := if ready = Events.none then .idle else .running }
  | .idle | .running => none

def stepCallback (apple : Apple) : AppleStep → Option Apple
  | .call step =>
    if step.ofCallback ∧ apple.free ∧ apple.ipcDoom ≠ .destroyed .poll then
      (apple.wire.step step).map fun wire =>
        { apple.touchIpc with wire, callback := if wire.held = none then .idle else .calling }
    else none
  | .rest step =>
    if step.ofRest ∧ apple.callback = .calling then
      (apple.wire.step step).map fun wire =>
        { apple.signal with wire, callback := if wire.held = none then .idle else .calling }
    else
      match apple.callback with
      | .startingCb cb =>
        some { apple.touchPoll with
          poll := { apple.poll with cb := some cb }, callback := .startingSignal }
      | .startingSignal =>
        some { apple.touchPoll.signal with
          wire := { apple.wire with wakeThread := true }, callback := .idle }
      | .stoppingCb =>
        some { apple.touchPoll with poll := { apple.poll with cb := none }, callback := .idle }
      | _ => none
  | .start events cb =>
    if apple.free ∧ apple.pollDoom ≠ .destroyed .poll then
      some { apple.touchPoll with
        poll := { apple.poll with events }
        callback := if events = Events.none then .stoppingCb else .startingCb cb }
    else none
  | .stop =>
    if apple.free ∧ apple.pollDoom ≠ .destroyed .poll then
      some { apple.touchPoll with
        poll := { apple.poll with events := Events.none }, callback := .stoppingCb }
    else none
  | .leave => if apple.free then some { apple with handler := .idle } else none
  | _ => none

def toPoll (apple : Apple) (thread : Thread) (stage : PollRemoval) : Apple :=
  { apple with pollDoom := .destroying thread stage }

def toIpc (apple : Apple) (thread : Thread) (stage : IpcRemoval) : Apple :=
  { apple with ipcDoom := .destroying thread stage }

/-- The rest of `bare_ipc_poll_destroy`. -/
def stepPollDestroy (apple : Apple) (thread : Thread) : PollRemoval → Option Apple
  | .stopping =>
    some ({ apple.touchPoll with
      poll := { apple.poll with events := Events.none } }.toPoll thread .stoppingCb)
  | .stoppingCb =>
    some ({ apple.touchPoll with poll := { apple.poll with cb := none } }.toPoll thread .entering)
  | .entering => some (apple.touchPoll.signal.toPoll thread .detaching)
  | .detaching =>
    -- On the queue already, or in turn on it.
    if thread = .poll ∨ apple.handler = .idle then
      some ({ apple.touchIpc with attached := false }.toPoll thread .freeing)
    else none
  | .freeing => some { apple.touchPoll with pollDoom := .destroyed thread }

/-- A section of `bare_ipc_close`: the first one takes `ipc->lock`, and the last one lets
go of it. -/
def stepClose (apple : Apple) (thread : Thread) (step : Step) : Option Apple :=
  (apple.wire.step step).map fun wire =>
    { if step.signals then apple.signal else apple.touchIpc with wire }.toIpc thread
      (if wire.held = none then .checking else .releasing)

/-- The rest of `bare_ipc_destroy`. -/
def stepIpcDestroy (apple : Apple) (thread : Thread) : IpcRemoval → Option Apple
  | .closing => apple.stepClose thread .ipcClose
  | .releasing =>
    apple.stepClose thread (if apple.wire.held = some .closing then .ipcCloseRelease
      else .ipcSignal)
  | .checking =>
    some (apple.signal.toIpc thread
      (match thread with
      | .poll => .cancelling
      | .host => .watching))
  | .watching => some ({ apple with watched := true }.toIpc thread .cancelling)
  | .cancelling =>
    some ({ apple with cancelled := true }.toIpc thread
      (match thread with
      | .poll => .signalFreeing
      | .host => .awaiting))
  | .awaiting => if apple.acknowledged then some (apple.toIpc thread .signalFreeing) else none
  | .signalFreeing =>
    some ({ apple.touchSignal with signalFrees := thread :: apple.signalFrees }.toIpc
      thread .freeing)
  | .freeing => some { apple.touchIpc with ipcDoom := .destroyed thread }

def step (apple : Apple) (label : AppleStep) : Option Apple :=
  match label with
  | .worklet step =>
    if step.ofWorklet then
      (apple.wire.step step).map fun wire =>
        { if apple.wire.rouses step then apple.signal else apple with wire }
    else none
  | .event =>
    if apple.handler = .idle ∧ apple.cancelled = false then
      (apple.wire.step .takeWake).map fun wire => { apple with wire, handler := .loadingPoll }
    else none
  | .dispatch => apple.stepDispatch
  | .acknowledge =>
    if apple.handler = .idle ∧ apple.cancelled ∧ apple.watched then
      some { apple with acknowledged := true }
    else none
  | .call _ | .start _ _ | .stop | .rest _ | .leave => apple.stepCallback label
  | .pollDestroy thread =>
    if apple.mayCall thread ∧ apple.pollDoom = .alive then some (apple.toPoll thread .stopping)
    else none
  | .ipcDestroy thread =>
    if apple.mayCall thread ∧ apple.pollDoom.freed ∧ apple.ipcDoom = .alive then
      some (apple.toIpc thread .closing)
    else none
  | .onPollDestroy =>
    match apple.pollDoom with
    | .destroying thread stage => apple.stepPollDestroy thread stage
    | _ => none
  | .onIpcDestroy =>
    match apple.ipcDoom with
    | .destroying thread stage => apple.stepIpcDestroy thread stage
    | _ => none

def system : Transition.System Apple AppleStep where
  init apple := ∃ wire poll, Wire.system.Reachable wire ∧ wire.ipc ≠ none ∧ wire.held = none ∧
    apple = { wire, poll }
  step := step

inductive PollTear (apple : Apple) (thread : Thread) : PollRemoval → Apple → Prop where
  | stop : PollTear apple thread .stopping
      ({ apple.touchPoll with
        poll := { apple.poll with events := Events.none } }.toPoll thread .stoppingCb)
  | stopCb : PollTear apple thread .stoppingCb
      ({ apple.touchPoll with poll := { apple.poll with cb := none } }.toPoll thread .entering)
  | enter : PollTear apple thread .entering (apple.touchPoll.signal.toPoll thread .detaching)
  | detach (hturn : thread = .poll ∨ apple.handler = .idle) : PollTear apple thread .detaching
      ({ apple.touchIpc with attached := false }.toPoll thread .freeing)
  | free : PollTear apple thread .freeing { apple.touchPoll with pollDoom := .destroyed thread }

inductive IpcTear (apple : Apple) (thread : Thread) : IpcRemoval → Apple → Prop where
  | close {stage step wire}
      (hat : stage = .closing ∧ step = .ipcClose ∨ stage = .releasing ∧ step.ofRest = true)
      (hwire : apple.wire.step step = some wire) : IpcTear apple thread stage
      ({ if step.signals then apple.signal else apple.touchIpc with wire }.toIpc thread
        (if wire.held = none then .checking else .releasing))
  | check {stage} (hstage : stage = .watching ∧ thread = .host ∨ stage = .cancelling ∧
      thread = .poll) :
      IpcTear apple thread .checking (apple.signal.toIpc thread stage)
  | watch : IpcTear apple thread .watching ({ apple with watched := true }.toIpc thread .cancelling)
  | cancel {stage} (hstage : stage = .awaiting ∧ thread = .host ∨ stage = .signalFreeing ∧
      thread = .poll) :
      IpcTear apple thread .cancelling ({ apple with cancelled := true }.toIpc thread stage)
  | await (hacknowledged : apple.acknowledged = true) :
      IpcTear apple thread .awaiting (apple.toIpc thread .signalFreeing)
  | signalFree : IpcTear apple thread .signalFreeing
      ({ apple.touchSignal with signalFrees := thread :: apple.signalFrees }.toIpc thread .freeing)
  | free : IpcTear apple thread .freeing { apple.touchIpc with ipcDoom := .destroyed thread }

inductive Move (apple : Apple) : AppleStep → Apple → Prop where
  | worklet {step wire} (hworklet : step.ofWorklet = true)
      (hwire : apple.wire.step step = some wire) :
    Move apple (.worklet step) { if apple.wire.rouses step then apple.signal else apple with wire }
  | event {wire} (hidle : apple.handler = .idle) (hcancelled : apple.cancelled = false)
      (hwire : apple.wire.step .takeWake = some wire) :
    Move apple .event { apple with wire, handler := .loadingPoll }
  | loadPoll (hhandler : apple.handler = .loadingPoll) :
    Move apple .dispatch
      { apple.touchIpc with handler := if apple.attached then .loadingCb else .idle }
  | loadCb (hhandler : apple.handler = .loadingCb) :
    Move apple .dispatch
      { apple.touchPoll with
        handler :=
          match apple.poll.cb with
          | none => .idle
          | some cb => .loadingEvents cb }
  | loadEvents {cb} (hhandler : apple.handler = .loadingEvents cb) :
    Move apple .dispatch { apple.touchPoll with handler := .masking cb apple.poll.events }
  | mask {cb ready ipc wire} (hhandler : apple.handler = .masking cb ready)
      (hwire : apple.wire.step .dispatch = some wire) :
    Move apple .dispatch
      { apple.touchIpc with
        wire, handler := .maskingWritable cb (bareIpcMaskReadable apple.wire.queue ipc ready) }
  | maskWritable {cb ready ipc wire} (hhandler : apple.handler = .maskingWritable cb ready)
      (hwire : apple.wire.step .dispatchWritable = some wire) :
    Move apple .dispatch
      { apple.touchIpc with
        wire, handler := .calling cb (bareIpcMaskWritable apple.wire.queue ipc ready) }
  | callBack {cb ready} (hhandler : apple.handler = .calling cb ready) :
    Move apple .dispatch { apple with handler := if ready = Events.none then .idle else .running }
  | acknowledge (hidle : apple.handler = .idle) (hcancelled : apple.cancelled = true) :
    Move apple .acknowledge { apple with acknowledged := true }
  | call {step wire} (hcall : step.ofCallback = true) (hfree : apple.free = true)
      (hdoom : apple.ipcDoom ≠ .destroyed .poll)
      (hwire : apple.wire.step step = some wire) :
    Move apple (.call step)
      { apple.touchIpc with wire, callback := if wire.held = none then .idle else .calling }
  | rest {step wire} (hrest : step.ofRest = true) (hcallback : apple.callback = .calling)
      (hwire : apple.wire.step step = some wire) :
    Move apple (.rest step)
      { apple.signal with wire, callback := if wire.held = none then .idle else .calling }
  | startCb {step cb} (hcallback : apple.callback = .startingCb cb) :
    Move apple (.rest step)
      { apple.touchPoll with
        poll := { apple.poll with cb := some cb }, callback := .startingSignal }
  | startSignal {step} (hcallback : apple.callback = .startingSignal) :
    Move apple (.rest step)
      { apple.touchPoll.signal with
        wire := { apple.wire with wakeThread := true }, callback := .idle }
  | stopCb {step} (hcallback : apple.callback = .stoppingCb) :
    Move apple (.rest step)
      { apple.touchPoll with poll := { apple.poll with cb := none }, callback := .idle }
  | start {events cb} (hfree : apple.free = true) (hdoom : apple.pollDoom ≠ .destroyed .poll) :
    Move apple (.start events cb)
      { apple.touchPoll with
        poll := { apple.poll with events }
        callback := if events = Events.none then .stoppingCb else .startingCb cb }
  | stop (hfree : apple.free = true) (hdoom : apple.pollDoom ≠ .destroyed .poll) :
    Move apple .stop
      { apple.touchPoll with
        poll := { apple.poll with events := Events.none }, callback := .stoppingCb }
  | leave (hfree : apple.free = true) : Move apple .leave { apple with handler := .idle }
  | pollDestroy {thread} (hmay : apple.mayCall thread = true) (halive : apple.pollDoom = .alive) :
    Move apple (.pollDestroy thread) (apple.toPoll thread .stopping)
  | ipcDestroy {thread} (hmay : apple.mayCall thread = true) (hpoll : apple.pollDoom.freed = true)
      (halive : apple.ipcDoom = .alive) :
    Move apple (.ipcDestroy thread) (apple.toIpc thread .closing)
  | onPollDestroy {thread stage next} (hdoom : apple.pollDoom = .destroying thread stage)
      (htear : PollTear apple thread stage next) : Move apple .onPollDestroy next
  | onIpcDestroy {thread stage next} (hdoom : apple.ipcDoom = .destroying thread stage)
      (htear : IpcTear apple thread stage next) : Move apple .onIpcDestroy next

variable {apple next : Apple} {thread : Thread} {label : AppleStep}

theorem pollTear_step {stage : PollRemoval}
    (hstep : apple.stepPollDestroy thread stage = some next) :
    PollTear apple thread stage next := by
  cases stage with
  | stopping =>
    cases hstep
    exact .stop
  | stoppingCb =>
    cases hstep
    exact .stopCb
  | entering =>
    cases hstep
    exact .enter
  | detaching =>
    simp only [stepPollDestroy] at hstep
    split at hstep <;> cases hstep
    exact .detach ‹_›
  | freeing =>
    cases hstep
    exact .free

theorem ipcTear_step {stage : IpcRemoval} (hstep : apple.stepIpcDestroy thread stage = some next) :
    IpcTear apple thread stage next := by
  cases stage with
  | closing =>
    obtain ⟨wire, hwire, rfl⟩ := Option.map_eq_some_iff.mp hstep
    exact .close (Or.inl ⟨rfl, rfl⟩) hwire
  | releasing =>
    obtain ⟨wire, hwire, rfl⟩ := Option.map_eq_some_iff.mp hstep
    refine .close (Or.inr ⟨rfl, ?_⟩) hwire
    split <;> rfl
  | checking =>
    cases hstep
    cases thread with
    | host => exact .check (Or.inl ⟨rfl, rfl⟩)
    | poll => exact .check (Or.inr ⟨rfl, rfl⟩)
  | watching =>
    cases hstep
    exact .watch
  | cancelling =>
    cases hstep
    cases thread with
    | host => exact .cancel (Or.inl ⟨rfl, rfl⟩)
    | poll => exact .cancel (Or.inr ⟨rfl, rfl⟩)
  | awaiting =>
    simp only [stepIpcDestroy] at hstep
    split at hstep <;> cases hstep
    exact .await ‹_›
  | signalFreeing =>
    cases hstep
    exact .signalFree
  | freeing =>
    cases hstep
    exact .free

theorem move_stepDispatch (hstep : apple.stepDispatch = some next) : Move apple .dispatch next := by
  cases hhandler : apple.handler with
  | idle | running => simp [stepDispatch, hhandler] at hstep
  | loadingPoll =>
    simp only [stepDispatch, hhandler, Option.some.injEq] at hstep
    exact hstep ▸ .loadPoll hhandler
  | loadingCb =>
    simp only [stepDispatch, hhandler, Option.some.injEq] at hstep
    exact hstep ▸ .loadCb hhandler
  | loadingEvents cb =>
    simp only [stepDispatch, hhandler, Option.some.injEq] at hstep
    exact hstep ▸ .loadEvents hhandler
  | masking cb ready =>
    simp only [stepDispatch, hhandler] at hstep
    obtain ⟨ipc, -, hnext⟩ := Option.bind_eq_some_iff.mp hstep
    obtain ⟨wire, hwire, rfl⟩ := Option.map_eq_some_iff.mp hnext
    exact .mask hhandler hwire
  | maskingWritable cb ready =>
    simp only [stepDispatch, hhandler] at hstep
    obtain ⟨ipc, -, hnext⟩ := Option.bind_eq_some_iff.mp hstep
    obtain ⟨wire, hwire, rfl⟩ := Option.map_eq_some_iff.mp hnext
    exact .maskWritable hhandler hwire
  | calling cb ready =>
    simp only [stepDispatch, hhandler, Option.some.injEq] at hstep
    exact hstep ▸ .callBack hhandler

theorem move_stepCallback (hstep : apple.stepCallback label = some next) :
    Move apple label next := by
  cases label with
  | worklet _ | event | dispatch | acknowledge | pollDestroy _ | ipcDestroy _ | onPollDestroy
  | onIpcDestroy => contradiction
  | call step =>
    simp only [stepCallback] at hstep
    split at hstep
    · rename_i hready
      obtain ⟨wire, hwire, rfl⟩ := Option.map_eq_some_iff.mp hstep
      exact .call hready.1 hready.2.1 hready.2.2 hwire
    · contradiction
  | rest step =>
    simp only [stepCallback] at hstep
    split at hstep
    · rename_i hready
      obtain ⟨wire, hwire, rfl⟩ := Option.map_eq_some_iff.mp hstep
      exact .rest hready.1 hready.2 hwire
    · split at hstep <;> cases hstep
      · exact .startCb ‹_›
      · exact .startSignal ‹_›
      · exact .stopCb ‹_›
  | start events cb =>
    simp only [stepCallback] at hstep
    split at hstep
    · rename_i hready
      cases hstep
      exact .start hready.1 hready.2
    · contradiction
  | stop =>
    simp only [stepCallback] at hstep
    split at hstep
    · rename_i hready
      cases hstep
      exact .stop hready.1 hready.2
    · contradiction
  | leave =>
    simp only [stepCallback] at hstep
    split at hstep
    · cases hstep
      exact .leave ‹_›
    · contradiction

theorem move_step (hstep : apple.step label = some next) : Move apple label next := by
  cases label with
  | worklet step =>
    simp only [Apple.step] at hstep
    split at hstep
    · obtain ⟨wire, hwire, rfl⟩ := Option.map_eq_some_iff.mp hstep
      exact .worklet ‹_› hwire
    · contradiction
  | event =>
    simp only [Apple.step] at hstep
    split at hstep
    · rename_i hready
      obtain ⟨wire, hwire, rfl⟩ := Option.map_eq_some_iff.mp hstep
      exact .event hready.1 hready.2 hwire
    · contradiction
  | dispatch => exact move_stepDispatch hstep
  | acknowledge =>
    simp only [Apple.step] at hstep
    split at hstep
    · rename_i hready
      cases hstep
      exact .acknowledge hready.1 hready.2.1
    · contradiction
  | call _ | start _ _ | stop | rest _ | leave => exact move_stepCallback hstep
  | pollDestroy thread =>
    simp only [Apple.step] at hstep
    split at hstep
    · rename_i hready
      cases hstep
      exact .pollDestroy hready.1 hready.2
    · contradiction
  | ipcDestroy thread =>
    simp only [Apple.step] at hstep
    split at hstep
    · rename_i hready
      cases hstep
      exact .ipcDestroy hready.1 hready.2.1 hready.2.2
    · contradiction
  | onPollDestroy =>
    simp only [Apple.step] at hstep
    split at hstep
    · exact .onPollDestroy ‹_› (pollTear_step hstep)
    · contradiction
  | onIpcDestroy =>
    simp only [Apple.step] at hstep
    split at hstep
    · exact .onIpcDestroy ‹_› (ipcTear_step hstep)
    · contradiction

end Apple

namespace Serial

variable {serial : Serial} {thread : Thread}

/-- How far the destroys are, what that has left, and what it leaves the handler to do. -/
structure Ordered (serial : Serial) : Prop where
  attached : serial.attached = !serial.pollDoom.past PollRemoval.detached
  cancelled : serial.cancelled = serial.ipcDoom.past IpcRemoval.cancelled
  frees : ∀ thread, thread ∈ serial.signalFrees ↔
    serial.ipcDoom = .destroying thread .freeing ∨ serial.ipcDoom = .destroyed thread
  once : serial.signalFrees.length ≤ 1
  acknowledged : serial.acknowledged = true → serial.cancelled = true ∧ serial.handler = .idle
  awaited : serial.ipcDoom.takenBy .host = true → serial.ipcDoom.past IpcRemoval.awaited = true →
    serial.acknowledged = true
  order : serial.ipcDoom = .alive ∨ serial.pollDoom.freed = true
  own : serial.pollDoom.held .poll = true ∨ serial.ipcDoom.held .poll = true →
    serial.handler = .running ∧ serial.callback = .idle
  errand : serial.callback ≠ .idle → serial.handler = .running
  inside : serial.handler ≠ .idle → serial.handler ≠ .loadingPoll →
    serial.attached = true ∨ serial.handler = .running ∧ serial.pollDoom.takenBy .poll = true
  retired : serial.ipcDoom = .destroyed .poll → serial.handler = .idle ∨ serial.handler = .running
  pollKept : serial.callback ≠ .idle → serial.callback ≠ .calling →
    serial.pollDoom ≠ .destroyed .poll
  ipcKept : serial.callback = .calling → serial.ipcDoom ≠ .destroyed .poll

def Unheld (serial : Serial) : Prop :=
  serial.callback = .idle ∧ serial.pollDoom.held .poll = false ∧ serial.ipcDoom.held .poll = false

theorem free_iff : serial.free = true ↔ serial.handler = .running ∧ serial.Unheld := by
  simp [free, Unheld, and_assoc]

theorem Ordered.unheld (h : serial.Ordered) (hhandler : serial.handler ≠ .running) :
    serial.Unheld := by
  refine ⟨?_, ?_, ?_⟩
  · by_contra hcallback
    exact hhandler (h.errand hcallback)
  · exact eq_false_of_ne_true fun hheld => hhandler (h.own (Or.inl hheld)).1
  · exact eq_false_of_ne_true fun hheld => hhandler (h.own (Or.inr hheld)).1

theorem Ordered.handle (h : serial.Ordered) (hunheld : serial.Unheld) (handler : OnEvent)
    (hacknowledged : serial.acknowledged = true → handler = .idle)
    (hinside : handler ≠ .idle → handler ≠ .loadingPoll → serial.attached = true)
    (hretired : serial.ipcDoom = .destroyed .poll → handler = .idle) :
    Ordered { serial with handler } := by
  obtain ⟨hcallback, hpoll, hipc⟩ := hunheld
  refine ⟨h.attached, h.cancelled, h.frees, h.once, fun hnext => ?_, h.awaited, h.order,
    fun hheld => ?_, fun hnext => absurd hcallback hnext,
    fun hbusy hpast => Or.inl (hinside hbusy hpast), fun hdoom => Or.inl (hretired hdoom),
    fun hnext => absurd hcallback hnext, h.ipcKept⟩
  · exact ⟨(h.acknowledged hnext).1, hacknowledged hnext⟩
  · rcases hheld with hheld | hheld
    · exact absurd (hpoll.symm.trans hheld) (by decide)
    · exact absurd (hipc.symm.trans hheld) (by decide)

theorem Ordered.calls (h : serial.Ordered) (hhandler : serial.handler = .running)
    (hpoll : serial.pollDoom.held .poll = false) (hipc : serial.ipcDoom.held .poll = false)
    (callback : Errand)
    (hpollKept : callback ≠ .idle → callback ≠ .calling → serial.pollDoom ≠ .destroyed .poll)
    (hipcKept : callback = .calling → serial.ipcDoom ≠ .destroyed .poll) :
    Ordered { serial with callback } :=
  ⟨h.attached, h.cancelled, h.frees, h.once, h.acknowledged, h.awaited, h.order,
    fun hheld => by simp [hpoll, hipc] at hheld, fun _ => hhandler, h.inside, h.retired,
    hpollKept, hipcKept⟩

theorem held_of_freed {stage : Type} {doom : Doom stage} (hfreed : doom.freed = true) :
    doom.held thread = false := by
  cases doom with
  | alive | destroying _ _ => cases hfreed
  | destroyed _ => rfl

theorem Ordered.pollStage (h : serial.Ordered) (doom : Doom PollRemoval) (attached : Bool)
    (hattached : attached = !doom.past PollRemoval.detached)
    (hunfreed : serial.pollDoom.freed = false)
    (hown : doom.takenBy .poll = true → serial.handler = .running ∧ serial.callback = .idle)
    (hturn : serial.attached = true → attached = false →
      serial.handler = .idle ∨ serial.handler = .running ∧ doom.takenBy .poll = true)
    (htaken : serial.pollDoom.takenBy .poll = true → doom.takenBy .poll = true) :
    Ordered { serial with pollDoom := doom, attached } := by
  have halive : serial.ipcDoom = .alive := h.order.resolve_right (by simp [hunfreed])
  have hheld : doom.held .poll = true → doom.takenBy .poll = true := by
    cases doom <;> simp [Doom.held, Doom.takenBy]
  refine ⟨hattached, h.cancelled, h.frees, h.once, h.acknowledged, h.awaited, Or.inl halive,
    fun hnext => ?_, h.errand, fun hbusy hpast => ?_, h.retired,
    fun hcall _ (hdoom : doom = .destroyed .poll) => ?_, h.ipcKept⟩
  · rcases hnext with hnext | hnext
    · exact hown (hheld hnext)
    · simp [halive, Doom.held] at hnext
  · rcases h.inside hbusy hpast with hbefore | ⟨hrunning, hbefore⟩
    · cases hafter : attached with
      | true => exact Or.inl rfl
      | false => exact Or.inr ((hturn hbefore hafter).resolve_left hbusy)
    · exact Or.inr ⟨hrunning, htaken hbefore⟩
  · exact hcall (hown (hdoom ▸ rfl)).2

theorem Ordered.ipcStage (h : serial.Ordered) (doom : Doom IpcRemoval) (cancelled watched : Bool)
    (signalFrees : List Thread)
    (hcancelled : cancelled = doom.past IpcRemoval.cancelled)
    (hstays : serial.cancelled = true → cancelled = true)
    (hfrees : ∀ thread, thread ∈ signalFrees ↔ doom = .destroying thread .freeing ∨
      doom = .destroyed thread)
    (honce : signalFrees.length ≤ 1)
    (hawaited : doom.takenBy .host = true → doom.past IpcRemoval.awaited = true →
      serial.acknowledged = true)
    (hfreed : serial.pollDoom.freed = true)
    (hown : doom.takenBy .poll = true → serial.handler = .running ∧ serial.callback = .idle) :
    Ordered { serial with ipcDoom := doom, cancelled, watched, signalFrees } := by
  have hheld : doom.held .poll = true → doom.takenBy .poll = true := by
    cases doom <;> simp [Doom.held, Doom.takenBy]
  refine ⟨h.attached, hcancelled, hfrees, honce, fun hnext => ?_, hawaited, Or.inr hfreed,
    fun hnext => ?_, h.errand, h.inside, fun (hdoom : doom = .destroyed .poll) => ?_, h.pollKept,
    fun hcall (hdoom : doom = .destroyed .poll) => ?_⟩
  · exact ⟨hstays (h.acknowledged hnext).1, (h.acknowledged hnext).2⟩
  · rcases hnext with hnext | hnext
    · simp [held_of_freed hfreed] at hnext
    · exact hown (hheld hnext)
  · exact Or.inr (hown (hdoom ▸ rfl)).1
  · have hidle := (hown (hdoom ▸ rfl)).2
    simp [hidle] at hcall

theorem Ordered.acknowledge (h : serial.Ordered) (hidle : serial.handler = .idle)
    (hcancelled : serial.cancelled = true) : Ordered { serial with acknowledged := true } :=
  ⟨h.attached, h.cancelled, h.frees, h.once, fun _ => ⟨hcancelled, hidle⟩, fun _ _ => rfl,
    h.order, h.own, h.errand, h.inside, h.retired, h.pollKept, h.ipcKept⟩

theorem Ordered.pollBegin (h : serial.Ordered) (halive : serial.pollDoom = .alive)
    (hfree : thread = .poll → serial.free = true) :
    Ordered { serial with pollDoom := .destroying thread .stopping } := by
  have hattached := h.attached
  rw [halive] at hattached
  refine h.pollStage (.destroying thread .stopping) serial.attached hattached (halive ▸ rfl)
    (fun htaken => ?_)
    (fun hset hunset => ?_) fun htaken => ?_
  · obtain ⟨hrunning, hidle, -⟩ := free_iff.mp (hfree (by simpa [Doom.takenBy] using htaken))
    exact ⟨hrunning, hidle⟩
  · simp [hset] at hunset
  · simp [halive, Doom.takenBy] at htaken

theorem Ordered.ipcBegin (h : serial.Ordered) (halive : serial.ipcDoom = .alive)
    (hpoll : serial.pollDoom.freed = true) (hfree : thread = .poll → serial.free = true) :
    Ordered { serial with ipcDoom := .destroying thread .closing } := by
  have hcancelled := h.cancelled
  have hfrees := h.frees
  rw [halive] at hcancelled hfrees
  refine h.ipcStage (.destroying thread .closing) _ _ _ hcancelled id ?_ h.once nofun hpoll
    fun htaken => ?_
  · simpa using hfrees
  · obtain ⟨hrunning, hidle, -⟩ := free_iff.mp (hfree (by simpa [Doom.takenBy] using htaken))
    exact ⟨hrunning, hidle⟩

theorem Ordered.pollOwn (h : serial.Ordered) {stage : PollRemoval}
    (hdoom : serial.pollDoom = .destroying thread stage)
    (hthread : thread = .poll) : serial.handler = .running ∧ serial.callback = .idle :=
  h.own (Or.inl (by simp [hdoom, hthread, Doom.held]))

theorem Ordered.ipcOwn (h : serial.Ordered) {stage : IpcRemoval}
    (hdoom : serial.ipcDoom = .destroying thread stage)
    (hthread : thread = .poll) : serial.handler = .running ∧ serial.callback = .idle :=
  h.own (Or.inr (by simp [hdoom, hthread, Doom.held]))

theorem Ordered.pollNext (h : serial.Ordered) {stage : PollRemoval}
    (hdoom : serial.pollDoom = .destroying thread stage)
    (doom : Doom PollRemoval) (hsame : ∀ other, doom.takenBy other = (thread == other))
    (attached : Bool)
    (hattached : attached = !doom.past PollRemoval.detached)
    (hturn : serial.attached = true → attached = false → thread = .poll ∨ serial.handler = .idle) :
    Ordered { serial with pollDoom := doom, attached } := by
  have hown (htaken : doom.takenBy .poll = true) : serial.handler = .running ∧
      serial.callback = .idle := by
    rw [hsame, beq_iff_eq] at htaken
    exact h.pollOwn hdoom htaken
  refine h.pollStage doom attached hattached (by simp [hdoom, Doom.freed]) hown
    (fun hbefore hafter => ?_) ?_
  · rcases hturn hbefore hafter with hthread | hidle
    · exact Or.inr ⟨(h.pollOwn hdoom hthread).1, by simp [hsame, hthread]⟩
    · exact Or.inl hidle
  · rw [hdoom, hsame]
    exact id

theorem Ordered.ipcNext (h : serial.Ordered) {stage : IpcRemoval}
    (hdoom : serial.ipcDoom = .destroying thread stage)
    (doom : Doom IpcRemoval) (hsame : ∀ other, doom.takenBy other = (thread == other))
    (cancelled watched : Bool)
    (signalFrees : List Thread) (hcancelled : cancelled = doom.past IpcRemoval.cancelled)
    (hstays : serial.cancelled = true → cancelled = true)
    (hfrees : ∀ thread, thread ∈ signalFrees ↔ doom = .destroying thread .freeing ∨
      doom = .destroyed thread)
    (honce : signalFrees.length ≤ 1)
    (hawaited : thread = .host → doom.past IpcRemoval.awaited = true → serial.acknowledged = true) :
    Ordered { serial with ipcDoom := doom, cancelled, watched, signalFrees } := by
  refine h.ipcStage doom cancelled watched signalFrees hcancelled hstays hfrees honce
    (fun htaken => ?_)
    (h.order.resolve_left (by simp [hdoom])) fun htaken => ?_
  · rw [hsame, beq_iff_eq] at htaken
    exact hawaited htaken
  · rw [hsame, beq_iff_eq] at htaken
    exact h.ipcOwn hdoom htaken

theorem Ordered.unfreed (h : serial.Ordered)
    (hfreeing : ∀ thread, serial.ipcDoom ≠ .destroying thread .freeing)
    (hdestroyed : serial.ipcDoom.freed = false) : serial.signalFrees = [] := by
  rw [List.eq_nil_iff_forall_not_mem]
  intro thread hmem
  rcases (h.frees thread).mp hmem with hdoom | hdoom
  · exact hfreeing thread hdoom
  · simp [hdoom, Doom.freed] at hdestroyed

theorem Ordered.ipcAdvance (h : serial.Ordered) {before : IpcRemoval}
    (hdoom : serial.ipcDoom = .destroying thread before)
    (hbefore : before ≠ .freeing) (after : IpcRemoval) (hafter : after ≠ .freeing)
    (cancelled watched : Bool)
    (hcancelled : cancelled = after.cancelled) (hstays : before.cancelled = true → cancelled = true)
    (hawaited : thread = .host → after.awaited = true → serial.acknowledged = true) :
    Ordered { serial with ipcDoom := .destroying thread after, cancelled, watched } := by
  have hfrees : serial.signalFrees = [] := by
    apply h.unfreed
    · intro other hfreeing
      rw [hdoom] at hfreeing
      exact hbefore (Doom.destroying.inj hfreeing).2
    · simp [hdoom, Doom.freed]
  refine h.ipcNext hdoom _ (fun _ => rfl) cancelled watched serial.signalFrees hcancelled ?_ ?_
    h.once hawaited
  · rw [h.cancelled, hdoom]
    exact hstays
  · simp [hfrees, hafter]

theorem Ordered.unawaited (h : serial.Ordered) (hbusy : serial.handler ≠ .idle)
    (htaken : serial.ipcDoom.takenBy .host = true) :
    serial.ipcDoom.past IpcRemoval.awaited = false := by
  refine eq_false_of_ne_true fun hpast => hbusy ?_
  exact (h.acknowledged (h.awaited htaken hpast)).2

theorem Ordered.ipc_of_busy (h : serial.Ordered) (hbusy : serial.handler ≠ .idle)
    (hkept : serial.ipcDoom ≠ .destroyed .poll) : serial.ipcDoom.freed = false := by
  have hawaited := h.unawaited hbusy
  cases hdoom : serial.ipcDoom with
  | alive | destroying _ _ => rfl
  | destroyed thread =>
    cases thread with
    | host => simp [hdoom, Doom.takenBy, Doom.past] at hawaited
    | poll => exact absurd hdoom hkept

theorem Ordered.ipc_of_dispatch (h : serial.Ordered) (hbusy : serial.handler ≠ .idle)
    (hrunning : serial.handler ≠ .running) : serial.ipcDoom.freed = false := by
  apply h.ipc_of_busy hbusy
  intro hdoom
  exact (h.retired hdoom).elim hbusy hrunning

theorem Ordered.frees_of_busy (h : serial.Ordered) (hbusy : serial.handler ≠ .idle)
    (hheld : serial.ipcDoom.held .poll = false) (hkept : serial.ipcDoom ≠ .destroyed .poll) :
    serial.signalFrees = [] := by
  refine h.unfreed (fun thread hdoom => ?_) (h.ipc_of_busy hbusy hkept)
  cases thread with
  | host =>
    have hawaited := h.unawaited hbusy (by simp [hdoom, Doom.takenBy])
    simp [hdoom, Doom.past, IpcRemoval.awaited] at hawaited
  | poll => simp [hdoom, Doom.held] at hheld

theorem Ordered.poll_of_attached (h : serial.Ordered) (hattached : serial.attached = true) :
    serial.pollDoom.freed = false := by
  have hpast := h.attached
  cases hdoom : serial.pollDoom with
  | alive | destroying _ _ => rfl
  | destroyed thread => simp [hdoom, hattached, Doom.past] at hpast

theorem Ordered.poll_of_running (h : serial.Ordered) (hrunning : serial.handler = .running)
    (hkept : serial.pollDoom ≠ .destroyed .poll) : serial.pollDoom.freed = false := by
  rcases h.inside (by simp [hrunning]) (by simp [hrunning]) with hattached | ⟨-, htaken⟩
  · exact h.poll_of_attached hattached
  · cases hdoom : serial.pollDoom with
    | alive | destroying _ _ => rfl
    | destroyed thread => simp_all [Doom.takenBy]

end Serial

namespace Apple

variable {apple next : Apple} {thread : Thread} {label : AppleStep}

theorem ordered_pollTear (h : apple.toSerial.Ordered) {stage : PollRemoval}
    (hdoom : apple.pollDoom = .destroying thread stage) (htear : PollTear apple thread stage next) :
    next.toSerial.Ordered := by
  have hnext := h.pollNext hdoom
  have hattached := h.attached
  rw [hdoom] at hattached
  cases htear with
  | stop | stopCb | enter =>
    exact hnext _ (fun _ => rfl) apple.attached hattached fun hset hunset => by
      simp [hset] at hunset
  | detach hturn => exact hnext _ (fun _ => rfl) false rfl fun _ _ => hturn
  | free =>
    exact hnext _ (fun _ => rfl) apple.attached hattached fun hset hunset => by
      simp [hset] at hunset

theorem ordered_ipcTear (h : apple.toSerial.Ordered) {stage : IpcRemoval}
    (hdoom : apple.ipcDoom = .destroying thread stage) (htear : IpcTear apple thread stage next) :
    next.toSerial.Ordered := by
  have hadvance := h.ipcAdvance hdoom
  have hcancelled := h.cancelled
  rw [hdoom] at hcancelled
  cases htear with
  | close hat hwire =>
    rename_i step wire
    have hstage : stage ≠ .freeing ∧ apple.cancelled = false ∧ stage.cancelled = false := by
      rcases hat with ⟨rfl, -⟩ | ⟨rfl, -⟩ <;> exact ⟨by decide, hcancelled, rfl⟩
    have hthreads :
        (if step.signals then apple.signal else apple.touchIpc).toSerial = apple.toSerial := by
      split <;> rfl
    have hordered : Serial.Ordered { apple.toSerial with
        ipcDoom := .destroying thread (if wire.held = none then .checking else .releasing) } := by
      split
      · exact hadvance hstage.1 .checking (by decide) _ _ hstage.2.1 (by simp [hstage.2.2]) nofun
      · exact hadvance hstage.1 .releasing (by decide) _ _ hstage.2.1 (by simp [hstage.2.2]) nofun
    rw [← hthreads] at hordered
    exact hordered
  | check hstage =>
    rcases hstage with ⟨rfl, -⟩ | ⟨rfl, -⟩
    · exact hadvance (by decide) .watching (by decide) _ _ hcancelled nofun nofun
    · exact hadvance (by decide) .cancelling (by decide) _ _ hcancelled nofun nofun
  | watch => exact hadvance (by decide) .cancelling (by decide) _ true hcancelled nofun nofun
  | cancel hstage =>
    rcases hstage with ⟨rfl, -⟩ | ⟨rfl, rfl⟩
    · exact hadvance (by decide) .awaiting (by decide) true _ rfl nofun nofun
    · exact hadvance (by decide) .signalFreeing (by decide) true _ rfl nofun nofun
  | await hacknowledged =>
    exact hadvance (by decide) .signalFreeing (by decide) _ _ hcancelled (fun _ => hcancelled)
      fun _ _ => hacknowledged
  | signalFree =>
    have hfrees : apple.signalFrees = [] :=
      h.unfreed (by simp [hdoom]) (by simp [hdoom, Doom.freed])
    have hawaited (hthread : thread = .host) (_ : True) : apple.acknowledged = true :=
      h.awaited (by simp [hdoom, hthread, Doom.takenBy]) (by rw [hdoom]; rfl)
    refine h.ipcNext hdoom (.destroying thread .freeing) (fun _ => rfl) _ _ _ hcancelled id ?_ ?_
      fun hthread _ => hawaited hthread trivial
    · intro other
      simp [hfrees, eq_comm]
    · simp [hfrees]
  | free =>
    have hawaited (hthread : thread = .host) : apple.acknowledged = true :=
      h.awaited (by simp [hdoom, hthread, Doom.takenBy]) (by rw [hdoom]; rfl)
    refine h.ipcNext hdoom (.destroyed thread) (fun _ => rfl) _ _ _ hcancelled id ?_ h.once
      fun hthread _ => hawaited hthread
    intro other
    have hmem := h.frees other
    rw [hdoom] at hmem
    simpa [touchIpc] using hmem

def Shut (apple : Apple) : Prop := apple.ipcDoom.past IpcRemoval.shut = true

structure Safe (apple : Apple) : Prop where
  ordered : apple.toSerial.Ordered
  sound : apple.wire.Sound
  hosted : apple.wire.Hosted
  present : apple.wire.ipc ≠ none
  shut : apple.Shut → apple.wire.queue.threadState = .closed
  fault : apple.fault = false

theorem Safe.frame (h : apple.Safe) (hordered : next.toSerial.Ordered)
    (hwire : next.wire = apple.wire)
    (hshut : next.Shut → apple.Shut) (hfault : next.fault = false) : next.Safe := by
  refine ⟨hordered, ?_, ?_, ?_, ?_, hfault⟩
  · rw [hwire]
    exact h.sound
  · rw [hwire]
    exact h.hosted
  · rw [hwire]
    exact h.present
  · rw [hwire]
    exact fun hnext => h.shut (hshut hnext)

theorem Safe.call (h : apple.Safe) {step : Step} {wire : Wire}
    (hstep : apple.wire.step step = some wire)
    (hordered : next.toSerial.Ordered) (hwire : next.wire = wire)
    (hshut : next.Shut → apple.Shut ∨ wire.queue.threadState = .closed)
    (hfault : next.fault = false) :
    next.Safe := by
  refine ⟨hordered, ?_, ?_, ?_, ?_, hfault⟩
  · rw [hwire]
    exact h.sound.step hstep
  · rw [hwire]
    exact h.hosted.step h.sound hstep
  · rw [hwire]
    exact Wire.ipc_kept h.sound hstep h.present
  · rw [hwire]
    intro hnext
    rcases hshut hnext with hbefore | hclosed
    · exact Wire.closed_kept h.sound hstep (h.shut hbefore)
    · exact hclosed

section Touch

variable (h : apple.Safe)
include h

theorem Safe.touchPoll (hpoll : apple.pollDoom.freed = false) : apple.touchPoll.fault = false := by
  simp [Apple.touchPoll, h.fault, hpoll]

theorem Safe.touchIpc (hipc : apple.ipcDoom.freed = false) : apple.touchIpc.fault = false := by
  simp [Apple.touchIpc, h.fault, hipc]

theorem Safe.touchSignal (hsignal : apple.signalFrees = []) : apple.touchSignal.fault = false := by
  simp [Apple.touchSignal, h.fault, hsignal]

theorem Safe.signal (hipc : apple.ipcDoom.freed = false) (hsignal : apple.signalFrees = []) :
    apple.signal.fault = false := by
  simp [Apple.signal, Apple.touchSignal, Apple.touchIpc, h.fault, hipc, hsignal]

end Touch

theorem safe_dispatch (h : apple.Safe) (hmove : Move apple .dispatch next) : next.Safe := by
  have hordered := h.ordered
  have hhandle (handler : OnEvent) (hbusy : apple.handler ≠ .idle)
      (hpast : apple.handler ≠ .running)
      (hinside : handler ≠ .idle → apple.attached = true) :
      Serial.Ordered { apple.toSerial with handler } :=
    hordered.handle (hordered.unheld hpast) handler
      (fun hack => absurd (hordered.acknowledged hack).2 hbusy) (fun hnext _ => hinside hnext)
      fun hdoom => ((hordered.retired hdoom).elim hbusy hpast).elim
  have hattached (hbusy : apple.handler ≠ .idle) (hpast : apple.handler ≠ .running)
      (hloaded : apple.handler ≠ .loadingPoll) : apple.attached = true :=
    (hordered.inside hbusy hloaded).resolve_right fun hrunning => hpast hrunning.1
  cases hmove with
  | loadPoll hhandler =>
    refine h.frame (hhandle _ (by simp [hhandler]) (by simp [hhandler]) ?_) rfl id
      (h.touchIpc (hordered.ipc_of_dispatch (by simp [hhandler]) (by simp [hhandler])))
    split <;> simp_all
  | loadCb hhandler =>
    have hset := hattached (by simp [hhandler]) (by simp [hhandler]) (by simp [hhandler])
    exact h.frame (hhandle _ (by simp [hhandler]) (by simp [hhandler]) fun _ => hset) rfl id
      (h.touchPoll (hordered.poll_of_attached hset))
  | loadEvents hhandler =>
    have hset := hattached (by simp [hhandler]) (by simp [hhandler]) (by simp [hhandler])
    exact h.frame (hhandle _ (by simp [hhandler]) (by simp [hhandler]) fun _ => hset) rfl id
      (h.touchPoll (hordered.poll_of_attached hset))
  | mask hhandler hwire | maskWritable hhandler hwire =>
    have hset := hattached (by simp [hhandler]) (by simp [hhandler]) (by simp [hhandler])
    exact h.call hwire (hhandle _ (by simp [hhandler]) (by simp [hhandler])
      fun _ => hset) rfl Or.inl
      (h.touchIpc (hordered.ipc_of_dispatch (by simp [hhandler]) (by simp [hhandler])))
  | callBack hhandler =>
    have hset := hattached (by simp [hhandler]) (by simp [hhandler]) (by simp [hhandler])
    exact h.frame (hhandle _ (by simp [hhandler]) (by simp [hhandler]) fun _ => hset) rfl id h.fault

theorem safe_worklet (h : apple.Safe) {step : Step} {wire : Wire} (hworklet : step.ofWorklet = true)
    (hwire : apple.wire.step step = some wire) :
    Safe { if apple.wire.rouses step then apple.signal else apple with wire } := by
  by_cases hrouses : apple.wire.rouses step = true
  · have hopen : ¬ apple.Shut := by
      intro hshut
      have hlistening := Wire.rouses_listening hworklet hrouses
      rw [h.shut hshut] at hlistening
      contradiction
    have hipc : apple.ipcDoom.freed = false := by
      cases hdoom : apple.ipcDoom with
      | alive | destroying _ _ => rfl
      | destroyed _ => simp [Shut, hdoom, Doom.past] at hopen
    have hsignal : apple.signalFrees = [] := by
      refine h.ordered.unfreed (fun thread hdoom => hopen ?_) hipc
      simp [Shut, hdoom, Doom.past, IpcRemoval.shut]
    rw [if_pos hrouses]
    exact h.call hwire h.ordered rfl Or.inl (h.signal hipc hsignal)
  · rw [if_neg hrouses]
    exact h.call hwire h.ordered rfl Or.inl h.fault

theorem Safe.errand (h : apple.Safe) (hhandler : apple.handler = .running)
    (hpoll : apple.pollDoom.held .poll = false) (hipc : apple.ipcDoom.held .poll = false)
    (callback : Errand)
    (hpollKept : callback ≠ .idle → callback ≠ .calling → apple.pollDoom ≠ .destroyed .poll)
    (hipcKept : callback = .calling → apple.ipcDoom ≠ .destroyed .poll)
    (hnext : next.toSerial = { apple.toSerial with callback }) (hwire : next.wire = apple.wire)
    (hfault : next.fault = false) : next.Safe := by
  refine h.frame ?_ hwire (fun hshut => ?_) hfault
  · rw [hnext]
    exact h.ordered.calls hhandler hpoll hipc callback hpollKept hipcKept
  · rw [Shut, hnext] at hshut
    exact hshut

theorem Safe.errandCall (h : apple.Safe) (hhandler : apple.handler = .running)
    (hpoll : apple.pollDoom.held .poll = false) (hipc : apple.ipcDoom.held .poll = false)
    (hkept : apple.ipcDoom ≠ .destroyed .poll) {step : Step} {wire : Wire}
    (hstep : apple.wire.step step = some wire)
    (hnext : next.toSerial =
      { apple.toSerial with callback := if wire.held = none then .idle else .calling })
    (hwire : next.wire = wire) (hfault : next.fault = false) : next.Safe := by
  refine h.call hstep ?_ hwire (fun hshut => Or.inl ?_) hfault
  · rw [hnext]
    refine h.ordered.calls hhandler hpoll hipc _ (fun hbusy hcalling => ?_) fun _ => hkept
    split at hbusy
    · exact absurd rfl hbusy
    · rename_i hheld
      simp [hheld] at hcalling
  · rw [Shut, hnext] at hshut
    exact hshut

theorem Safe.inCall (h : apple.Safe) (hcallback : apple.callback ≠ .idle) :
    apple.handler = .running ∧ apple.pollDoom.held .poll = false ∧
      apple.ipcDoom.held .poll = false := by
  refine ⟨h.ordered.errand hcallback, ?_, ?_⟩
  · exact eq_false_of_ne_true fun hheld => hcallback (h.ordered.own (Or.inl hheld)).2
  · exact eq_false_of_ne_true fun hheld => hcallback (h.ordered.own (Or.inr hheld)).2

theorem safe_rest (h : apple.Safe) {step : Step} (hmove : Move apple (.rest step) next) :
    next.Safe := by
  cases hmove with
  | rest _ hcallback hwire =>
    obtain ⟨hhandler, hpoll, hipc⟩ := h.inCall (by simp [hcallback])
    have hkept := h.ordered.ipcKept hcallback
    have hbusy : apple.handler ≠ .idle := by simp [hhandler]
    exact h.errandCall hhandler hpoll hipc hkept hwire rfl rfl
      (h.signal (h.ordered.ipc_of_busy hbusy hkept) (h.ordered.frees_of_busy hbusy hipc hkept))
  | startCb hcallback =>
    obtain ⟨hhandler, hpoll, hipc⟩ := h.inCall (by simp [hcallback])
    have hkept := h.ordered.pollKept (by simp [hcallback]) (by simp [hcallback])
    exact h.errand hhandler hpoll hipc .startingSignal (fun _ _ => hkept) nofun rfl rfl
      (h.touchPoll (h.ordered.poll_of_running hhandler hkept))
  | stopCb hcallback =>
    obtain ⟨hhandler, hpoll, hipc⟩ := h.inCall (by simp [hcallback])
    have hkept := h.ordered.pollKept (by simp [hcallback]) (by simp [hcallback])
    exact h.errand hhandler hpoll hipc .idle (fun _ _ => hkept) nofun rfl rfl
      (h.touchPoll (h.ordered.poll_of_running hhandler hkept))
  | startSignal hcallback =>
    obtain ⟨hhandler, hpoll, hipc⟩ := h.inCall (by simp [hcallback])
    have hkept := h.ordered.pollKept (by simp [hcallback]) (by simp [hcallback])
    have hunfreed := h.ordered.poll_of_running hhandler hkept
    have halive : apple.ipcDoom = .alive := h.ordered.order.resolve_right (by simp [hunfreed])
    have hsignal := h.ordered.frees_of_busy (by simp [hhandler]) hipc (by simp [halive])
    have hipcFreed : apple.ipcDoom.freed = false := halive ▸ rfl
    refine ⟨h.ordered.calls hhandler hpoll hipc .idle (fun hidle => absurd rfl hidle) nofun,
      h.sound.woken true, h.hosted.frame rfl rfl rfl rfl, h.present, h.shut, ?_⟩
    simp [signal, touchPoll, touchIpc, touchSignal, h.fault, hunfreed, hipcFreed, hsignal]

theorem shut_of_doom {doom : Doom IpcRemoval} (hdoom : apple.ipcDoom = doom)
    (hpast : doom.past IpcRemoval.shut = true) : apple.Shut := by
  rw [Shut, hdoom]
  exact hpast

theorem safe_pollTear (h : apple.Safe) {stage : PollRemoval}
    (hdoom : apple.pollDoom = .destroying thread stage)
    (htear : PollTear apple thread stage next) : next.Safe := by
  have hordered := ordered_pollTear h.ordered hdoom htear
  have hpoll : apple.pollDoom.freed = false := by rw [hdoom]; rfl
  have halive : apple.ipcDoom = .alive := h.ordered.order.resolve_right (by simp [hpoll])
  have hipc : apple.ipcDoom.freed = false := by rw [halive]; rfl
  cases htear with
  | stop | stopCb | free => exact h.frame hordered rfl id (h.touchPoll hpoll)
  | enter =>
    have hsignal := h.ordered.unfreed (by simp [halive]) hipc
    refine h.frame hordered rfl id ?_
    simp [toPoll, signal, touchPoll, touchIpc, touchSignal, h.fault, hpoll, hipc, hsignal]
  | detach hturn => exact h.frame hordered rfl id (h.touchIpc hipc)

theorem safe_ipcTear (h : apple.Safe) {stage : IpcRemoval}
    (hdoom : apple.ipcDoom = .destroying thread stage)
    (htear : IpcTear apple thread stage next) : next.Safe := by
  have hordered := ordered_ipcTear h.ordered hdoom htear
  have hipc : apple.ipcDoom.freed = false := by rw [hdoom]; rfl
  have hsignal (hstage : stage ≠ .freeing) : apple.signalFrees = [] := by
    refine h.ordered.unfreed (fun other hother => ?_) hipc
    rw [hdoom] at hother
    exact hstage (Doom.destroying.inj hother).2
  have hshut (hstage : stage.shut = true) : apple.Shut := shut_of_doom hdoom hstage
  cases htear with
  | close hat hwire =>
    rename_i step wire
    have hstage : stage ≠ .freeing := by rcases hat with ⟨rfl, -⟩ | ⟨rfl, -⟩ <;> decide
    refine h.call hwire hordered rfl (fun _ => ?_) ?_
    · rcases hat with ⟨-, rfl⟩ | ⟨rfl, -⟩
      · exact Or.inr (Wire.ipcClose_closes h.hosted hwire)
      · exact Or.inl (hshut rfl)
    · have hfault : (if step.signals then apple.signal else apple.touchIpc).fault = false := by
        split
        · exact h.signal hipc (hsignal hstage)
        · exact h.touchIpc hipc
      exact hfault
  | check hstage =>
    exact h.frame hordered rfl (fun _ => hshut rfl) (h.signal hipc (hsignal (by decide)))
  | watch | cancel hstage | await hacknowledged =>
    exact h.frame hordered rfl (fun _ => hshut rfl) h.fault
  | signalFree =>
    exact h.frame hordered rfl (fun _ => hshut rfl) (h.touchSignal (hsignal (by decide)))
  | free => exact h.frame hordered rfl (fun _ => hshut rfl) (h.touchIpc hipc)

theorem free_of_mayCall (hmay : apple.mayCall thread = true) (hthread : thread = .poll) :
    apple.free = true := by
  rw [hthread] at hmay
  exact hmay

theorem Safe.step (h : apple.Safe) (hstep : apple.step label = some next) : next.Safe := by
  have hordered := h.ordered
  have hmove := move_step hstep
  cases hmove with
  | worklet hworklet hwire => exact safe_worklet h hworklet hwire
  | event hidle hcancelled hwire =>
    refine h.call hwire
      (hordered.handle (hordered.unheld (by simp [hidle])) .loadingPoll (fun hack => ?_)
      (fun _ hpast => absurd rfl hpast) fun hdoom => ?_) rfl Or.inl h.fault
    · exact absurd (hordered.acknowledged hack).1 (by simp [hcancelled])
    · have hpast := hordered.cancelled
      simp [hcancelled, hdoom, Doom.past] at hpast
  | loadPoll _ | loadCb _ | loadEvents _ | mask _ _ | maskWritable _ _ | callBack _ =>
    exact safe_dispatch h (move_step hstep)
  | acknowledge hidle hcancelled =>
    exact h.frame (hordered.acknowledge hidle hcancelled) rfl id h.fault
  | call _ hfree hdoom hwire =>
    obtain ⟨hhandler, -, hpoll, hipc⟩ := Serial.free_iff.mp hfree
    exact h.errandCall hhandler hpoll hipc hdoom hwire rfl rfl
      (h.touchIpc (hordered.ipc_of_busy (by simp [hhandler]) hdoom))
  | rest _ _ _ | startCb _ | startSignal _ | stopCb _ => exact safe_rest h (move_step hstep)
  | start hfree hdoom =>
    rename_i events cb
    obtain ⟨hhandler, -, hpoll, hipc⟩ := Serial.free_iff.mp hfree
    refine h.errand hhandler hpoll hipc _ (fun _ _ => hdoom) ?_ rfl rfl
      (h.touchPoll (hordered.poll_of_running hhandler hdoom))
    split <;> nofun
  | stop hfree hdoom =>
    obtain ⟨hhandler, -, hpoll, hipc⟩ := Serial.free_iff.mp hfree
    exact h.errand hhandler hpoll hipc .stoppingCb (fun _ _ => hdoom) nofun rfl rfl
      (h.touchPoll (hordered.poll_of_running hhandler hdoom))
  | leave hfree =>
    obtain ⟨hhandler, hunheld⟩ := Serial.free_iff.mp hfree
    exact h.frame (hordered.handle hunheld .idle (fun _ => rfl) (fun hidle => absurd rfl hidle)
      fun _ => rfl) rfl id h.fault
  | pollDestroy hmay halive =>
    exact h.frame (hordered.pollBegin halive fun hthread => free_of_mayCall hmay hthread)
      rfl id h.fault
  | ipcDestroy hmay hpoll halive =>
    refine h.frame (hordered.ipcBegin halive hpoll fun hthread => free_of_mayCall hmay hthread)
      rfl ?_ h.fault
    exact fun hshut => absurd hshut (by simp [Shut, toIpc, Doom.past, IpcRemoval.shut])
  | onPollDestroy hdoom htear => exact safe_pollTear h hdoom htear
  | onIpcDestroy hdoom htear => exact safe_ipcTear h hdoom htear

theorem ordered_initial : Serial.Ordered {} := by
  constructor <;> simp [Doom.past, Doom.takenBy, Doom.held]

theorem safe (h : system.Reachable apple) : apple.Safe := by
  apply h.invariant
  · rintro initial ⟨wire, poll, hwire, hipc, -, rfl⟩
    refine ⟨ordered_initial, Wire.sound hwire, Wire.hosted hwire, hipc, fun hshut => ?_, rfl⟩
    simp [Shut, Doom.past] at hshut
  · intro apple label next _ hsafe hstep
    exact hsafe.step hstep

theorem pollDestroyed_step (hstep : apple.step label = some next)
    (hdoom : apple.pollDoom = .destroyed thread) :
    next.pollDoom = .destroyed thread := by
  cases move_step hstep with
  | worklet _ _ => split <;> exact hdoom
  | pollDestroy _ halive => simp [hdoom] at halive
  | onPollDestroy hother _ => simp [hdoom] at hother
  | onIpcDestroy _ htear =>
    cases htear with
    | close _ _ => split <;> exact hdoom
    | _ => exact hdoom
  | _ => exact hdoom

theorem ipcDestroyed_step (hstep : apple.step label = some next)
    (hdoom : apple.ipcDoom = .destroyed thread) :
    next.ipcDoom = .destroyed thread := by
  cases move_step hstep with
  | worklet _ _ => split <;> exact hdoom
  | ipcDestroy _ _ halive => simp [hdoom] at halive
  | onIpcDestroy hother _ => simp [hdoom] at hother
  | onPollDestroy _ htear => cases htear <;> exact hdoom
  | _ => exact hdoom

end Apple

namespace Serial

variable {serial : Serial} {thread : Thread}

theorem Ordered.handler_of_pollDestroyed (h : serial.Ordered)
    (hdoom : serial.pollDoom = .destroyed .host) :
    serial.handler = .idle ∨ serial.handler = .loadingPoll := by
  by_contra hinside
  obtain ⟨hbusy, hpast⟩ := not_or.mp hinside
  rcases h.inside hbusy hpast with hattached | ⟨-, htaken⟩
  · have hunfreed := h.poll_of_attached hattached
    simp [hdoom, Doom.freed] at hunfreed
  · simp [hdoom, Doom.takenBy] at htaken

theorem Ordered.handler_of_ipcDestroyed (h : serial.Ordered)
    (hdoom : serial.ipcDoom = .destroyed thread) :
    serial.handler = .idle ∨ serial.handler = .running ∧ thread = .poll := by
  cases thread with
  | host =>
    refine Or.inl (h.acknowledged (h.awaited ?_ ?_)).2
    · simp [hdoom, Doom.takenBy]
    · simp [hdoom, Doom.past]
  | poll => exact (h.retired hdoom).imp_right fun hrunning => ⟨hrunning, rfl⟩

theorem Ordered.frees_of_destroyed (h : serial.Ordered)
    (hdoom : serial.ipcDoom = .destroyed thread) :
    serial.signalFrees = [thread] := by
  have hmem : thread ∈ serial.signalFrees := (h.frees thread).mpr (Or.inr hdoom)
  have honce := h.once
  match hfrees : serial.signalFrees with
  | [] => simp [hfrees] at hmem
  | [other] => simpa [hfrees, eq_comm] using hmem
  | _ :: _ :: _ => simp [hfrees] at honce

end Serial

/-- Whichever thread destroys the poll and the ipc, nothing of what was freed is used. From when the
host has destroyed the poll, the callback is called no more, and from when the ipc was destroyed no
handler runs but that of the callback that destroyed it. The signal is freed once. -/
theorem bareIpc_destroy_dispatched {apple : Apple} (h : Apple.system.Reachable apple) :
    apple.fault = false ∧
    (apple.pollDoom = .destroyed .host → ∀ labels later,
      Apple.system.run apple labels = some later →
      later.handler = .idle ∨ later.handler = .loadingPoll) ∧
    ∀ thread, apple.ipcDoom = .destroyed thread → apple.signalFrees = [thread] ∧
      ∀ labels later, Apple.system.run apple labels = some later →
        later.signalFrees = [thread] ∧
        (later.handler = .idle ∨ later.handler = .running ∧ thread = .poll) := by
  have hsafe := Apple.safe h
  refine ⟨hsafe.fault, fun hdoom labels later hrun => ?_,
    fun thread hdoom => ⟨?_, fun labels later hrun => ?_⟩⟩
  · apply (Apple.safe (h.run hrun)).ordered.handler_of_pollDestroyed
    exact h.persists (P := fun apple => apple.pollDoom = .destroyed .host) hdoom
      (fun _ _ _ _ hbefore hstep => Apple.pollDestroyed_step hstep hbefore) hrun
  · exact hsafe.ordered.frees_of_destroyed hdoom
  · have hlater : later.ipcDoom = .destroyed thread :=
      h.persists (P := fun apple => apple.ipcDoom = .destroyed thread) hdoom
        (fun _ _ _ _ hbefore hstep => Apple.ipcDestroyed_step hstep hbefore) hrun
    have hordered := (Apple.safe (h.run hrun)).ordered
    exact ⟨hordered.frees_of_destroyed hlater, hordered.handler_of_ipcDestroyed hlater⟩

def Apple.written : Apple where
  wire := Standalone.written.wire
  poll := Standalone.written.poll

def Apple.inCallback : Apple :=
  Apple.system.result Apple.written
    (.flatten [[.event], .replicate 6 .dispatch,
      [.call (.ipcRead 10), .rest .ipcReadPending, .pollDestroy .poll], .replicate 5 .onPollDestroy,
      [.ipcDestroy .poll], .replicate 7 .onIpcDestroy, [.leave]])
    (by decide +kernel)

def Apple.overCallback : Apple :=
  Apple.system.result Apple.written
    (.flatten [[.event], .replicate 6 .dispatch,
      [.call (.ipcRead 10), .rest .ipcReadPending, .pollDestroy .host], .replicate 3 .onPollDestroy,
      [.leave], .replicate 2 .onPollDestroy, [.ipcDestroy .host], .replicate 6 .onIpcDestroy,
      [.acknowledge], .replicate 3 .onIpcDestroy])
    (by decide +kernel)

theorem Apple.written_init : Apple.system.init Apple.written := by
  obtain ⟨wire, poll, hwire, hipc, hheld, hwritten⟩ := Standalone.written_init
  refine ⟨_, _, ?_, ?_, ?_, rfl⟩
  · rw [hwritten]
    exact hwire
  · rw [hwritten]
    exact hipc
  · rw [hwritten]
    exact hheld

theorem bareIpc_destroy_dispatched_inCallback :
    Apple.inCallback.signalFrees = [.poll] ∧ Apple.overCallback.signalFrees = [.host] ∧
      Apple.overCallback.handler ≠ .running := by
  have hin : Apple.system.Reachable Apple.inCallback :=
    .result (S := Apple.system) Apple.written_init _ _
  have hover : Apple.system.Reachable Apple.overCallback :=
    .result (S := Apple.system) Apple.written_init _ _
  refine ⟨?_, ?_, ?_⟩
  · exact ((bareIpc_destroy_dispatched hin).2.2 .poll (by decide +kernel)).1
  · exact ((bareIpc_destroy_dispatched hover).2.2 .host (by decide +kernel)).1
  · rcases (bareIpc_destroy_dispatched hover).2.1 (by decide +kernel) [] _ rfl with hidle | hloading
    · simp [hidle]
    · simp [hloading]

end BareKit
