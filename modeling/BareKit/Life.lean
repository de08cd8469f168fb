import BareKit.HostView

/-! Who frees what: the calls of the host on a worklet, the thread of the worklet and
the calls on its ipc, which share the queue and the state of the worklet. The wire does
what is left of the ipc; the program counters here are those of `src/worklet.c`. A step
is one access to the queue or to the state, so another thread may free in between. -/
namespace BareKit

/-- The thread of the worklet, the host in its calls on the worklet, and the host in its
calls on the ipc. -/
inductive Party where
  | worklet
  | host
  | ipc
  deriving DecidableEq, Repr

/-- What `bare_worklet__on_thread` does next. -/
inductive OnThread where
  | absent
  | settingUp
  | publishing
  | opening
  | readying
  | running
  | closing
  | retracting
  | shuttingDown
  | tearingDown
  | waiting
  | destroying
  | freeing
  | gone
  deriving DecidableEq, Repr

/-- What `bare_worklet_destroy` does next, if it was called. -/
inductive OnDestroy where
  | alive
  | terminating
  | posting
  | freeing
  | closing
  | destroying
  | gone
  deriving DecidableEq, Repr

namespace OnThread

def starting : OnThread → Bool
  | .settingUp | .publishing | .opening | .readying => true
  | _ => false

def scripting : OnThread → Bool
  | .readying | .running | .tearingDown => true
  | _ => false

def opened : OnThread → Bool
  | .absent | .settingUp | .publishing | .opening => false
  | _ => true

def closed : OnThread → Bool
  | .retracting | .shuttingDown | .tearingDown | .waiting | .destroying | .freeing | .gone => true
  | _ => false

end OnThread

/-- `thread` is whether `worklet->thread` is set and `posted` whether `worklet->finished`
is. A thread in `freeing` found the queue unowned, and has yet to call `bare_queue__free`.
The frees are listed by who made them, and `fault` is an access to what was freed. -/
structure Life where
  wire : Wire
  worklet : OnThread := .absent
  host : OnDestroy := .alive
  thread : Bool := false
  posted : Bool := false
  freeing : List Party := []
  queueFrees : List Party := []
  stateFrees : List Party := []
  fault : Bool := false

inductive LifeStep where
  -- The host. A start may fail as the process is torn down, or for want of a thread.
  | start
  | startTornDown
  | startFails
  | call
  | destroy
  | onDestroy
  -- The worklet.
  | onThread
  | openUv (onRecv data : Option Pointer)
  | callback
  | ref
  -- The calls on the ipc, and those of the script.
  | wire (label : Step)
  | free (party : Party)

namespace Wire

/-- Whether the step accesses the queue. A read of the rest of a message only asks it
whether there is more. -/
def touches (wire : Wire) : Step → Bool
  | .ipcRead _ | .dispatch => wire.ipc.any fun ipc => ipc.port && ipc.pending.base.isNone
  | .ipcReadPending => wire.ipc.any fun ipc => ipc.pending.base.isSome
  | .ipcWrite _ _ | .ipcEnd | .ipcClose | .dispatchWritable => wire.ipc.any Ipc.port
  | .ipcCloseRelease | .ipcSignal | .takeWake | .read => false
  | _ => true

/-- Whether the step finds the queue unowned, which leaves the free to its thread. -/
def frees (wire : Wire) : Step → Bool
  | .ipcEnd => (wire.lock.bind (bareIpcEnd wire.queue)).any Outcome.result
  | .ipcClose => (wire.lock.bind (bareIpcClose wire.queue)).any Outcome.result
  | .final => (bareWorkletOnIpcEnd wire.queue).result
  | _ => false

end Wire

namespace Life

/-- `bare_queue__free` may be running, or have run. -/
def queueGone (life : Life) : Bool := !life.freeing.isEmpty || !life.queueFrees.isEmpty

def stateGone (life : Life) : Bool := !life.stateFrees.isEmpty

def touchQueue (life : Life) : Life := { life with fault := life.fault || life.queueGone }

def touchState (life : Life) : Life := { life with fault := life.fault || life.stateGone }

def onQueue (life : Life) (party : Party) (outcome : Outcome Bool) : Life :=
  { life.touchQueue with
    wire := life.wire.apply outcome
    freeing := if outcome.result then party :: life.freeing else life.freeing }

def freeState (life : Life) (party : Party) : Life :=
  { life.touchState with stateFrees := party :: life.stateFrees }

def onWire (life : Life) (party : Party) (label : Step) : Option Life :=
  (life.wire.step label).map fun next =>
    { life with
      wire := next
      freeing := if life.wire.frees label then party :: life.freeing else life.freeing
      fault := life.fault || life.wire.touches label && life.queueGone }

def stepWire (life : Life) (label : Step) : Option Life :=
  match label with
  | .openUv _ _ | .exit | .abandon | .destroy => none
  | .write _ _ | .final | .read | .onsignal | .retry _ | .drain _ =>
    if life.worklet.scripting ∧ .worklet ∉ life.freeing then life.onWire .worklet label else none
  | .ipcCreate _ _ => if life.host = .alive then life.onWire .host label else none
  | .takeWake => life.onWire .ipc label
  | _ => if .ipc ∉ life.freeing then life.onWire .ipc label else none

/-- The rest of `bare_worklet_destroy`. -/
def stepDestroy (life : Life) : Option Life :=
  match life.host with
  | .alive | .gone => none
  | .terminating => some { life.touchState with host := .posting }
  | .posting => some { life with posted := true, host := .gone }
  | .freeing => some { life.freeState .host with host := .closing }
  | .closing =>
    some { life.onQueue .host (bareQueueClose life.wire.queue .uv) with host := .destroying }
  | .destroying => some { life.onQueue .host (bareQueueDestroy life.wire.queue) with host := .gone }

/-- `bare_worklet__on_thread`, but for the opening of its end. -/
def stepThread (life : Life) : Option Life :=
  match life.worklet with
  | .absent | .opening | .gone => none
  | .settingUp => some { life.touchState with worklet := .publishing }
  | .publishing => some { life.touchState with worklet := .opening }
  | .readying => some { life with worklet := .running }
  | .running =>
    if life.wire.turn = .idle then some { life.touchState with worklet := .closing } else none
  | .closing =>
    some { life.onQueue .worklet (bareQueueClose life.wire.queue .uv) with worklet := .retracting }
  | .retracting => some { life.touchState with worklet := .shuttingDown }
  | .shuttingDown => some { life.touchQueue with worklet := .tearingDown }
  | .tearingDown =>
    if life.wire.turn = .idle then some { life.touchState with worklet := .waiting } else none
  | .waiting => if life.posted then some { life with worklet := .destroying } else none
  | .destroying =>
    some { life.onQueue .worklet (bareQueueDestroy life.wire.queue) with worklet := .freeing }
  | .freeing => some { life.freeState .worklet with worklet := .gone }

def step (life : Life) : LifeStep → Option Life
  | .start =>
    if life.host = .alive ∧ life.worklet = .absent then
      some { life with worklet := .settingUp, thread := true }
    else none
  | .startTornDown =>
    if life.host = .alive ∧ life.worklet.starting = false then some life else none
  | .startFails =>
    if life.host = .alive ∧ life.worklet.starting = false then some { life with thread := false }
    else none
  | .call => if life.host = .alive then some life.touchState else none
  | .destroy =>
    if life.host = .alive ∧ life.worklet.starting = false then
      some { life with host := if life.thread then .terminating else .freeing }
    else none
  | .onDestroy => if .host ∉ life.freeing then life.stepDestroy else none
  | .onThread => if .worklet ∉ life.freeing then life.stepThread else none
  | .openUv onRecv data =>
    if life.worklet = .opening then
      some { life.touchQueue with
        wire := { life.wire.apply (bareQueueOpenUv life.wire.queue onRecv data) with
          started := true }
        worklet := .readying }
    else none
  | .callback => if life.worklet.scripting then some life.touchState else none
  | .ref =>
    if life.worklet.scripting ∧ .worklet ∉ life.freeing then some life.touchQueue else none
  | .wire label => life.stepWire label
  | .free party =>
    if party ∈ life.freeing then
      some { life with
        freeing := life.freeing.erase party
        queueFrees := party :: life.queueFrees
        fault := life.fault || !(life.freeing.erase party).isEmpty || !life.queueFrees.isEmpty }
    else none

def ofWire (wire : Wire) : Life := { wire }

def system : Transition.System Life LifeStep where
  init life := ∃ toUv toThread, life = ofWire (Wire.ofQueue (bareQueueCreate toUv toThread))
  step := step

def Starts (life : Life) (label : LifeStep) : Prop :=
  match label with
  | .startFails => life.worklet = .absent
  | _ => True

instance (life : Life) (label : LifeStep) : Decidable (life.Starts label) := by
  unfold Starts
  split <;> infer_instance

/-- `bare_queue_destroy` was called for the worklet. -/
def LetGo (life : Life) : Prop :=
  life.worklet = .freeing ∨ life.worklet = .gone ∨ (life.worklet = .absent ∧ life.host = .gone)

instance (life : Life) : Decidable life.LetGo := inferInstanceAs (Decidable (_ ∨ _))

end Life

end BareKit
