import BareKit.HostView
import BareKit.Mutex

/-! The polls of `src/standalone/ipc.c`, which run on a thread of their own. That thread
and one thread of the host destroy the poll and then the ipc, each of which frees memory
that the other one uses, as the worklet does for as long as the port is open. A step is one
access to that memory, or one section under `ipc->lock`. -/
namespace BareKit

inductive Thread where
  | host
  | poll
  deriving DecidableEq, Repr

/-- What a thread does next in `bare_ipc_poll_destroy` or in `bare_ipc_destroy`. -/
inductive Teardown where
  | stopping
  | stoppingCb
  | pollLocking
  | detaching
  | pollUnlocking
  | pollFreeing
  | closing
  | releasing
  | locking
  | clearing
  | unlocking
  | sending
  | leaving
  | signalFreeing
  | freeing
  deriving DecidableEq, Repr

/-- What the thread of the poll does next: in its loop, in `bare_ipc__on_wake`, in
`bare_ipc__dispatch`, and once its loop is done. -/
inductive OnWake where
  | waiting
  | locking
  | checking
  | loadingPoll
  | loadingCb
  | loadingEvents (cb : Pointer)
  | masking (cb : Pointer) (ready : Events)
  | maskingWritable (cb : Pointer) (ready : Events)
  | calling (cb : Pointer) (ready : Events)
  | running
  | unlocking
  | finishing
  | exited
  deriving DecidableEq, Repr

inductive Activity where
  | idle
  | calling
  | startingCb (cb : Pointer)
  | startingSignal
  | stoppingCb
  | tearing (teardown : Teardown)
  deriving DecidableEq, Repr

inductive Fate where
  | alive
  | destroying (thread : Thread)
  | destroyed (thread : Thread)
  deriving DecidableEq, Repr

def Fate.freed : Fate → Bool
  | .destroyed _ => true
  | _ => false

/-- `running` is the lock of the signal. `attached` is whether `ipc->poll` is set and `ipc`
whether `signal->ipc` is. `close` is whether the loop was told to end. -/
structure Threads where
  onWake : OnWake := .waiting
  callback : Activity := .idle
  host : Option Teardown := none
  running : RecursiveMutex Thread := {}
  attached : Bool := true
  ipc : Bool := true
  detached : Bool := false
  close : Bool := false
  pollFate : Fate := .alive
  ipcFate : Fate := .alive
  signalFrees : List Thread := []

/-- A `fault` is an access to what was freed. -/
structure Standalone extends Threads where
  wire : Wire
  poll : Poll
  fault : Bool := false

inductive StandaloneStep where
  | worklet (step : Step)
  -- The thread of the poll.
  | wake
  | lock
  | check
  | dispatch
  | unlock
  | onClose
  | finish
  -- The callback.
  | call (step : Step)
  | start (events : Events) (cb : Pointer)
  | stop
  | rest (step : Step)
  | leave
  -- The thread of the poll, in its callback, or the host.
  | pollDestroy (thread : Thread)
  | ipcDestroy (thread : Thread)
  | teardown (thread : Thread)

def Step.signals : Step → Bool
  | .ipcSignal => true
  | _ => false

def Step.ofRest : Step → Bool
  | .ipcReadPending | .ipcCloseRelease | .ipcSignal => true
  | _ => false

def Threads.teardown (threads : Threads) : Thread → Option Teardown
  | .host => threads.host
  | .poll =>
    match threads.callback with
    | .tearing teardown => some teardown
    | _ => none

def Threads.setTeardown (threads : Threads) (thread : Thread) (teardown : Option Teardown) :
    Threads :=
  { threads with
    host :=
      match thread with
      | .host => teardown
      | .poll => threads.host
    callback :=
      match thread, teardown with
      | .host, _ => threads.callback
      | .poll, none => .idle
      | .poll, some teardown => .tearing teardown }

namespace Standalone

def touchPoll (standalone : Standalone) : Standalone :=
  { standalone with fault := standalone.fault || standalone.pollFate.freed }

def touchIpc (standalone : Standalone) : Standalone :=
  { standalone with fault := standalone.fault || standalone.ipcFate.freed }

def touchSignal (standalone : Standalone) : Standalone :=
  { standalone with fault := standalone.fault || !standalone.signalFrees.isEmpty }

/-- `bare_ipc__signal`, without the wake. -/
def signal (standalone : Standalone) : Standalone := standalone.touchIpc.touchSignal

def setTeardown (standalone : Standalone) (thread : Thread) (teardown : Option Teardown) :
    Standalone :=
  { standalone with toThreads := standalone.toThreads.setTeardown thread teardown }

def mayCall (standalone : Standalone) : Thread → Bool
  | .host => standalone.host == none
  | .poll => standalone.onWake == .running && standalone.callback == .idle

/-- A section of `bare_ipc_close`: the first one takes `ipc->lock`, and the last one lets
go of it. -/
def stepClose (standalone : Standalone) (thread : Thread) (step : Step) : Option Standalone :=
  (standalone.wire.step step).map fun wire =>
    { if step.signals then standalone.signal else standalone.touchIpc with wire }.setTeardown thread
      (some (if wire.held = none then .locking else .releasing))

/-- The rest of `bare_ipc_poll_destroy` and of `bare_ipc_destroy`. -/
def stepTeardown (standalone : Standalone) (thread : Thread) : Teardown → Option Standalone
  | .stopping =>
    some ({ standalone.touchPoll with
      poll := { standalone.poll with events := Events.none } }.setTeardown thread
      (some .stoppingCb))
  | .stoppingCb =>
    some ({ standalone.touchPoll with
      poll := { standalone.poll with cb := none } }.setTeardown thread (some .pollLocking))
  | .pollLocking =>
    (standalone.running.lock thread).map fun running =>
      { standalone.touchPoll.signal with running }.setTeardown thread (some .detaching)
  | .detaching =>
    some ({ standalone.touchIpc with attached := false }.setTeardown thread (some .pollUnlocking))
  | .pollUnlocking =>
    some ({ standalone.touchSignal with
      running := standalone.running.unlock }.setTeardown thread (some .pollFreeing))
  | .pollFreeing =>
    some ({ standalone.touchPoll with pollFate := .destroyed thread }.setTeardown thread none)
  | .closing => standalone.stepClose thread .ipcClose
  | .releasing =>
    standalone.stepClose thread
      (if standalone.wire.held = some .closing then .ipcCloseRelease else .ipcSignal)
  | .locking =>
    (standalone.running.lock thread).map fun running =>
      { standalone.signal with running }.setTeardown thread (some .clearing)
  | .clearing =>
    some ({ standalone.touchSignal with ipc := false }.setTeardown thread (some .unlocking))
  | .unlocking =>
    some ({ standalone.touchSignal with
      running := standalone.running.unlock }.setTeardown thread (some .sending))
  | .sending =>
    some ({ standalone.touchSignal with close := true }.setTeardown thread (some .leaving))
  | .leaving =>
    match thread with
    | .poll =>
      some ({ standalone.touchSignal with detached := true }.setTeardown thread (some .freeing))
    | .host =>
      -- The join.
      if standalone.onWake = .exited then
        some (standalone.touchSignal.setTeardown thread (some .signalFreeing))
      else none
  | .signalFreeing =>
    some ({ standalone.touchSignal with
      signalFrees := thread :: standalone.signalFrees }.setTeardown thread (some .freeing))
  | .freeing =>
    some ({ standalone.touchIpc with ipcFate := .destroyed thread }.setTeardown thread none)

/-- `bare_ipc__dispatch`. -/
def stepDispatch (standalone : Standalone) : OnWake → Option Standalone
  | .loadingPoll =>
    some { standalone.touchIpc with
      onWake := if standalone.attached then .loadingCb else .unlocking }
  | .loadingCb =>
    some { standalone.touchPoll with
      onWake :=
        match standalone.poll.cb with
        | none => .unlocking
        | some cb => .loadingEvents cb }
  | .loadingEvents cb =>
    some { standalone.touchPoll with onWake := .masking cb standalone.poll.events }
  | .masking cb ready =>
    standalone.wire.ipc.bind fun ipc => (standalone.wire.step .dispatch).map fun wire =>
      { standalone.touchIpc with
        wire
        onWake := .maskingWritable cb (bareIpcMaskReadable standalone.wire.queue ipc ready) }
  | .maskingWritable cb ready =>
    standalone.wire.ipc.bind fun ipc => (standalone.wire.step .dispatchWritable).map fun wire =>
      { standalone.touchIpc with
        wire, onWake := .calling cb (bareIpcMaskWritable standalone.wire.queue ipc ready) }
  | .calling _ ready =>
    some { standalone with onWake := if ready = Events.none then .unlocking else .running }
  | _ => none

def stepCallback (standalone : Standalone) : StandaloneStep → Option Standalone
  | .call step =>
    if step.ofCallback ∧ standalone.callback = .idle ∧ standalone.ipcFate ≠ .destroyed .poll then
      (standalone.wire.step step).map fun wire =>
        { standalone.touchIpc with
          wire, callback := if wire.held = none then .idle else .calling }
    else none
  | .rest step =>
    if step.ofRest ∧ standalone.callback = .calling then
      (standalone.wire.step step).map fun wire =>
        { standalone.signal with
          wire, callback := if wire.held = none then .idle else .calling }
    else
      match standalone.callback with
      | .startingCb cb =>
        some { standalone.touchPoll with
          poll := { standalone.poll with cb := some cb }, callback := .startingSignal }
      | .startingSignal =>
        some { standalone.touchPoll.signal with
          wire := { standalone.wire with wakeThread := true }, callback := .idle }
      | .stoppingCb =>
        some { standalone.touchPoll with
          poll := { standalone.poll with cb := none }, callback := .idle }
      | _ => none
  | .start events cb =>
    if standalone.callback = .idle ∧ standalone.pollFate ≠ .destroyed .poll then
      some { standalone.touchPoll with
        poll := { standalone.poll with events }
        callback := if events = Events.none then .stoppingCb else .startingCb cb }
    else none
  | .stop =>
    if standalone.callback = .idle ∧ standalone.pollFate ≠ .destroyed .poll then
      some { standalone.touchPoll with
        poll := { standalone.poll with events := Events.none }, callback := .stoppingCb }
    else none
  | .leave =>
    if standalone.callback = .idle then some { standalone with onWake := .unlocking } else none
  | _ => none

def step (standalone : Standalone) (label : StandaloneStep) : Option Standalone :=
  match label with
  | .worklet step =>
    if step.ofWorklet then
      (standalone.wire.step step).map fun wire =>
        { if standalone.wire.rouses step then standalone.signal else standalone with wire }
    else none
  | .wake =>
    if standalone.onWake = .waiting then
      (standalone.wire.step .takeWake).map fun wire =>
        { standalone.touchSignal with wire, onWake := .locking }
    else none
  | .lock =>
    if standalone.onWake = .locking then
      (standalone.running.lock .poll).map fun running =>
        { standalone.touchSignal with running, onWake := .checking }
    else none
  | .check =>
    if standalone.onWake = .checking then
      some { standalone.touchSignal with
        onWake := if standalone.ipc then .loadingPoll else .unlocking }
    else none
  | .dispatch => standalone.stepDispatch standalone.onWake
  | .unlock =>
    if standalone.onWake = .unlocking then
      some { standalone.touchSignal with running := standalone.running.unlock, onWake := .waiting }
    else none
  | .onClose =>
    if standalone.onWake = .waiting ∧ standalone.close then
      some { standalone.touchSignal with onWake := .finishing }
    else none
  | .finish =>
    if standalone.onWake = .finishing then
      some { standalone.touchSignal with
        onWake := .exited
        signalFrees :=
          if standalone.detached then .poll :: standalone.signalFrees else standalone.signalFrees }
    else none
  | .call _ | .start _ _ | .stop | .rest _ | .leave =>
    if standalone.onWake = .running then standalone.stepCallback label else none
  | .pollDestroy thread =>
    if standalone.mayCall thread ∧ standalone.pollFate = .alive then
      some ({ standalone with pollFate := .destroying thread }.setTeardown thread (some .stopping))
    else none
  | .ipcDestroy thread =>
    if standalone.mayCall thread ∧ standalone.pollFate.freed ∧ standalone.ipcFate = .alive then
      some ({ standalone with ipcFate := .destroying thread }.setTeardown thread (some .closing))
    else none
  | .teardown thread =>
    (standalone.teardown thread).bind fun teardown => standalone.stepTeardown thread teardown

def system : Transition.System Standalone StandaloneStep where
  init standalone := ∃ wire poll, Wire.system.Reachable wire ∧ wire.ipc ≠ none ∧
    wire.held = none ∧ standalone = { wire, poll }
  step := step

inductive Tear (standalone : Standalone) (thread : Thread) : Teardown → Standalone → Prop where
  | stop :
    Tear standalone thread .stopping
      ({ standalone.touchPoll with
        poll := { standalone.poll with events := Events.none } }.setTeardown thread
        (some .stoppingCb))
  | stopCb :
    Tear standalone thread .stoppingCb
      ({ standalone.touchPoll with
        poll := { standalone.poll with cb := none } }.setTeardown thread (some .pollLocking))
  | pollLock {running} (hlock : standalone.running.lock thread = some running) :
    Tear standalone thread .pollLocking
      ({ standalone.touchPoll.signal with running }.setTeardown thread (some .detaching))
  | detach :
    Tear standalone thread .detaching
      ({ standalone.touchIpc with attached := false }.setTeardown thread (some .pollUnlocking))
  | pollUnlock :
    Tear standalone thread .pollUnlocking
      ({ standalone.touchSignal with
        running := standalone.running.unlock }.setTeardown thread (some .pollFreeing))
  | pollFree :
    Tear standalone thread .pollFreeing
      ({ standalone.touchPoll with pollFate := .destroyed thread }.setTeardown thread none)
  | close {stage step wire} (hstage : stage = .closing ∧ step = .ipcClose ∨ stage = .releasing)
      (hwire : standalone.wire.step step = some wire) :
    Tear standalone thread stage
      ({ if step.signals then standalone.signal else standalone.touchIpc with
        wire }.setTeardown thread
        (some (if wire.held = none then .locking else .releasing)))
  | lock {running} (hlock : standalone.running.lock thread = some running) :
    Tear standalone thread .locking
      ({ standalone.signal with running }.setTeardown thread (some .clearing))
  | clear :
    Tear standalone thread .clearing
      ({ standalone.touchSignal with ipc := false }.setTeardown thread (some .unlocking))
  | unlock :
    Tear standalone thread .unlocking
      ({ standalone.touchSignal with
        running := standalone.running.unlock }.setTeardown thread (some .sending))
  | send :
    Tear standalone thread .sending
      ({ standalone.touchSignal with close := true }.setTeardown thread (some .leaving))
  | leave (hthread : thread = .poll) :
    Tear standalone thread .leaving
      ({ standalone.touchSignal with detached := true }.setTeardown thread (some .freeing))
  | join (hthread : thread = .host) (hexited : standalone.onWake = .exited) :
    Tear standalone thread .leaving
      (standalone.touchSignal.setTeardown thread (some .signalFreeing))
  | signalFree :
    Tear standalone thread .signalFreeing
      ({ standalone.touchSignal with
        signalFrees := thread :: standalone.signalFrees }.setTeardown thread (some .freeing))
  | free :
    Tear standalone thread .freeing
      ({ standalone.touchIpc with ipcFate := .destroyed thread }.setTeardown thread none)

inductive Move (standalone : Standalone) : StandaloneStep → Standalone → Prop where
  | worklet {step wire} (hworklet : step.ofWorklet = true)
      (hwire : standalone.wire.step step = some wire) :
    Move standalone (.worklet step)
      { if standalone.wire.rouses step then standalone.signal else standalone with wire }
  | wake {wire} (honWake : standalone.onWake = .waiting)
      (hwire : standalone.wire.step .takeWake = some wire) :
    Move standalone .wake { standalone.touchSignal with wire, onWake := .locking }
  | lock {running} (honWake : standalone.onWake = .locking)
      (hlock : standalone.running.lock .poll = some running) :
    Move standalone .lock { standalone.touchSignal with running, onWake := .checking }
  | check (honWake : standalone.onWake = .checking) :
    Move standalone .check
      { standalone.touchSignal with
        onWake := if standalone.ipc then .loadingPoll else .unlocking }
  | loadPoll (honWake : standalone.onWake = .loadingPoll) :
    Move standalone .dispatch
      { standalone.touchIpc with
        onWake := if standalone.attached then .loadingCb else .unlocking }
  | loadCb (honWake : standalone.onWake = .loadingCb) :
    Move standalone .dispatch
      { standalone.touchPoll with
        onWake :=
          match standalone.poll.cb with
          | none => .unlocking
          | some cb => .loadingEvents cb }
  | loadEvents {cb} (honWake : standalone.onWake = .loadingEvents cb) :
    Move standalone .dispatch
      { standalone.touchPoll with onWake := .masking cb standalone.poll.events }
  | mask {cb ready ipc wire} (honWake : standalone.onWake = .masking cb ready)
      (hwire : standalone.wire.step .dispatch = some wire) :
    Move standalone .dispatch
      { standalone.touchIpc with
        wire
        onWake := .maskingWritable cb (bareIpcMaskReadable standalone.wire.queue ipc ready) }
  | maskWritable {cb ready ipc wire} (honWake : standalone.onWake = .maskingWritable cb ready)
      (hwire : standalone.wire.step .dispatchWritable = some wire) :
    Move standalone .dispatch
      { standalone.touchIpc with
        wire, onWake := .calling cb (bareIpcMaskWritable standalone.wire.queue ipc ready) }
  | callBack {cb ready} (honWake : standalone.onWake = .calling cb ready) :
    Move standalone .dispatch
      { standalone with onWake := if ready = Events.none then .unlocking else .running }
  | unlock (honWake : standalone.onWake = .unlocking) :
    Move standalone .unlock
      { standalone.touchSignal with running := standalone.running.unlock, onWake := .waiting }
  | onClose (honWake : standalone.onWake = .waiting) (hclose : standalone.close = true) :
    Move standalone .onClose { standalone.touchSignal with onWake := .finishing }
  | finish (honWake : standalone.onWake = .finishing) :
    Move standalone .finish
      { standalone.touchSignal with
        onWake := .exited
        signalFrees :=
          if standalone.detached then .poll :: standalone.signalFrees else standalone.signalFrees }
  | call {step wire} (honWake : standalone.onWake = .running) (hidle : standalone.callback = .idle)
      (hfate : standalone.ipcFate ≠ .destroyed .poll)
      (hwire : standalone.wire.step step = some wire) :
    Move standalone (.call step)
      { standalone.touchIpc with
        wire, callback := if wire.held = none then .idle else .calling }
  | rest {step wire} (honWake : standalone.onWake = .running)
      (hcallback : standalone.callback = .calling) (hwire : standalone.wire.step step = some wire) :
    Move standalone (.rest step)
      { standalone.signal with
        wire, callback := if wire.held = none then .idle else .calling }
  | startCb {step cb} (honWake : standalone.onWake = .running)
      (hcallback : standalone.callback = .startingCb cb) :
    Move standalone (.rest step)
      { standalone.touchPoll with
        poll := { standalone.poll with cb := some cb }, callback := .startingSignal }
  | startSignal {step} (honWake : standalone.onWake = .running)
      (hcallback : standalone.callback = .startingSignal) :
    Move standalone (.rest step)
      { standalone.touchPoll.signal with
        wire := { standalone.wire with wakeThread := true }, callback := .idle }
  | stopCb {step} (honWake : standalone.onWake = .running)
      (hcallback : standalone.callback = .stoppingCb) :
    Move standalone (.rest step)
      { standalone.touchPoll with poll := { standalone.poll with cb := none }, callback := .idle }
  | start {events cb} (honWake : standalone.onWake = .running) (hidle : standalone.callback = .idle)
      (hfate : standalone.pollFate ≠ .destroyed .poll) :
    Move standalone (.start events cb)
      { standalone.touchPoll with
        poll := { standalone.poll with events }
        callback := if events = Events.none then .stoppingCb else .startingCb cb }
  | stop (honWake : standalone.onWake = .running) (hidle : standalone.callback = .idle)
      (hfate : standalone.pollFate ≠ .destroyed .poll) :
    Move standalone .stop
      { standalone.touchPoll with
        poll := { standalone.poll with events := Events.none }, callback := .stoppingCb }
  | leave (honWake : standalone.onWake = .running) (hidle : standalone.callback = .idle) :
    Move standalone .leave { standalone with onWake := .unlocking }
  | pollDestroy {thread} (hmay : standalone.mayCall thread = true)
      (hfate : standalone.pollFate = .alive) :
    Move standalone (.pollDestroy thread)
      ({ standalone with pollFate := .destroying thread }.setTeardown thread (some .stopping))
  | ipcDestroy {thread} (hmay : standalone.mayCall thread = true)
      (hpoll : standalone.pollFate.freed = true) (hfate : standalone.ipcFate = .alive) :
    Move standalone (.ipcDestroy thread)
      ({ standalone with ipcFate := .destroying thread }.setTeardown thread (some .closing))
  | teardown {thread stage next} (hstage : standalone.teardown thread = some stage)
      (hteardown : Tear standalone thread stage next) : Move standalone (.teardown thread) next

variable {standalone next : Standalone} {thread : Thread} {label : StandaloneStep}

theorem tear_step {stage : Teardown} (hstep : standalone.stepTeardown thread stage = some next) :
    Tear standalone thread stage next := by
  cases stage with
  | stopping =>
    cases hstep
    exact .stop
  | stoppingCb =>
    cases hstep
    exact .stopCb
  | pollLocking =>
    obtain ⟨running, hlock, rfl⟩ := Option.map_eq_some_iff.mp hstep
    exact .pollLock hlock
  | detaching =>
    cases hstep
    exact .detach
  | pollUnlocking =>
    cases hstep
    exact .pollUnlock
  | pollFreeing =>
    cases hstep
    exact .pollFree
  | closing =>
    obtain ⟨wire, hwire, rfl⟩ := Option.map_eq_some_iff.mp hstep
    exact .close (Or.inl ⟨rfl, rfl⟩) hwire
  | releasing =>
    obtain ⟨wire, hwire, rfl⟩ := Option.map_eq_some_iff.mp hstep
    exact .close (Or.inr rfl) hwire
  | locking =>
    obtain ⟨running, hlock, rfl⟩ := Option.map_eq_some_iff.mp hstep
    exact .lock hlock
  | clearing =>
    cases hstep
    exact .clear
  | unlocking =>
    cases hstep
    exact .unlock
  | sending =>
    cases hstep
    exact .send
  | leaving =>
    cases thread with
    | poll =>
      cases hstep
      exact .leave rfl
    | host =>
      simp only [stepTeardown] at hstep
      split at hstep
      · cases hstep
        exact .join rfl ‹_›
      · contradiction
  | signalFreeing =>
    cases hstep
    exact .signalFree
  | freeing =>
    cases hstep
    exact .free

theorem move_stepDispatch (hstep : standalone.stepDispatch standalone.onWake = some next) :
    Move standalone .dispatch next := by
  cases honWake : standalone.onWake with
  | waiting | locking | checking | running | unlocking | finishing | exited =>
    rw [honWake] at hstep
    contradiction
  | loadingPoll =>
    rw [honWake] at hstep
    cases hstep
    exact .loadPoll honWake
  | loadingCb =>
    rw [honWake] at hstep
    cases hstep
    exact .loadCb honWake
  | loadingEvents cb =>
    rw [honWake] at hstep
    cases hstep
    exact .loadEvents honWake
  | masking cb ready =>
    rw [honWake] at hstep
    obtain ⟨ipc, -, hnext⟩ := Option.bind_eq_some_iff.mp hstep
    obtain ⟨wire, hwire, rfl⟩ := Option.map_eq_some_iff.mp hnext
    exact .mask honWake hwire
  | maskingWritable cb ready =>
    rw [honWake] at hstep
    obtain ⟨ipc, -, hnext⟩ := Option.bind_eq_some_iff.mp hstep
    obtain ⟨wire, hwire, rfl⟩ := Option.map_eq_some_iff.mp hnext
    exact .maskWritable honWake hwire
  | calling cb ready =>
    rw [honWake] at hstep
    cases hstep
    exact .callBack honWake

theorem move_stepCallback (honWake : standalone.onWake = .running)
    (hstep : standalone.stepCallback label = some next) : Move standalone label next := by
  cases label with
  | worklet _ | wake | lock | check | dispatch | unlock | onClose | finish | pollDestroy _
  | ipcDestroy _ | teardown _ => contradiction
  | call step =>
    simp only [stepCallback] at hstep
    split at hstep
    · rename_i hready
      obtain ⟨wire, hwire, rfl⟩ := Option.map_eq_some_iff.mp hstep
      exact .call honWake hready.2.1 hready.2.2 hwire
    · contradiction
  | rest step =>
    simp only [stepCallback] at hstep
    split at hstep
    · rename_i hready
      obtain ⟨wire, hwire, rfl⟩ := Option.map_eq_some_iff.mp hstep
      exact .rest honWake hready.2 hwire
    · split at hstep <;> cases hstep
      · exact .startCb honWake ‹_›
      · exact .startSignal honWake ‹_›
      · exact .stopCb honWake ‹_›
  | start events cb =>
    simp only [stepCallback] at hstep
    split at hstep
    · rename_i hready
      cases hstep
      exact .start honWake hready.1 hready.2
    · contradiction
  | stop =>
    simp only [stepCallback] at hstep
    split at hstep
    · rename_i hready
      cases hstep
      exact .stop honWake hready.1 hready.2
    · contradiction
  | leave =>
    simp only [stepCallback] at hstep
    split at hstep
    · cases hstep
      exact .leave honWake ‹_›
    · contradiction

theorem move_step (hstep : standalone.step label = some next) : Move standalone label next := by
  cases label with
  | worklet step =>
    simp only [Standalone.step] at hstep
    split at hstep
    · obtain ⟨wire, hwire, rfl⟩ := Option.map_eq_some_iff.mp hstep
      exact .worklet ‹_› hwire
    · contradiction
  | wake =>
    simp only [Standalone.step] at hstep
    split at hstep
    · obtain ⟨wire, hwire, rfl⟩ := Option.map_eq_some_iff.mp hstep
      exact .wake ‹_› hwire
    · contradiction
  | lock =>
    simp only [Standalone.step] at hstep
    split at hstep
    · obtain ⟨running, hlock, rfl⟩ := Option.map_eq_some_iff.mp hstep
      exact .lock ‹_› hlock
    · contradiction
  | check =>
    simp only [Standalone.step] at hstep
    split at hstep
    · cases hstep
      exact .check ‹_›
    · contradiction
  | dispatch => exact move_stepDispatch hstep
  | unlock =>
    simp only [Standalone.step] at hstep
    split at hstep
    · cases hstep
      exact .unlock ‹_›
    · contradiction
  | onClose =>
    simp only [Standalone.step] at hstep
    split at hstep
    · rename_i hready
      cases hstep
      exact .onClose hready.1 hready.2
    · contradiction
  | finish =>
    simp only [Standalone.step] at hstep
    split at hstep
    · cases hstep
      exact .finish ‹_›
    · contradiction
  | call _ | start _ _ | stop | rest _ | leave =>
    simp only [Standalone.step] at hstep
    split at hstep
    · exact move_stepCallback ‹_› hstep
    · contradiction
  | pollDestroy thread =>
    simp only [Standalone.step] at hstep
    split at hstep
    · rename_i hready
      cases hstep
      exact .pollDestroy hready.1 hready.2
    · contradiction
  | ipcDestroy thread =>
    simp only [Standalone.step] at hstep
    split at hstep
    · rename_i hready
      cases hstep
      exact .ipcDestroy hready.1 hready.2.1 hready.2.2
    · contradiction
  | teardown thread =>
    obtain ⟨stage, hstage, hnext⟩ := Option.bind_eq_some_iff.mp hstep
    exact .teardown hstage (tear_step hnext)

end Standalone

end BareKit
