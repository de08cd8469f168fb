import BareKit.Suspension
import BareKit.Shares
import BareKit.Process
import BareKit.Entry
import Mathlib.Logic.Function.Basic

/-! A worklet under the control of its host: any number of threads in the calls that suspend,
resume, wake, terminate and destroy it, against `bare_worklet__on_thread`, with `state->lock`
between them and the wire of its ipc beside them. The lock is held from one step to the next
only around a call of Bare: of each other section, the whole is one step. -/
namespace BareKit

inductive WorkletCall where
  | suspend (linger : Int)
  | resume
  | wakeup (deadline : Int)
  | terminate
  | destroy
  deriving DecidableEq, Repr

inductive Forward where
  | request (request : Request)
  | terminate
  deriving DecidableEq, Repr

/-- `bare_worklet_terminate`, also as the first half of `bare_worklet_destroy`. -/
def bareWorkletTerminate (state : WorkletState) : WorkletState × Option Forward :=
  (state, if state.bare then some .terminate else none)

/-- A call, and what had happened when it was issued: `bare_worklet_start` had returned, the
exit callback had been called. -/
structure Issue where
  call : WorkletCall
  started : Bool
  exited : Bool
  deriving DecidableEq, Repr

/-- Where a thread of the host is. It calls Bare with the lock held, and goes on to destroy a
worklet that was never started without it. -/
inductive OnCall where
  | out
  | waiting (issue : Issue)
  | forwarding (issue : Issue) (forward : Forward)
  | returning (issue : Issue) (forwarded : Bool) (err : Int)
  | abandoning
  | abandoned
  deriving DecidableEq, Repr

/-- Where `bare_worklet__on_thread` is: what it has done last, or is in. -/
inductive OnWorklet where
  | absent
  | settingUp
  | published
  | opened
  | starting
  | running
  | ran
  | closed
  | withdrawn
  | tearingDown
  | toreDown
  | exiting
  | exited
  | destroying
  | freeing
  | gone
  deriving DecidableEq, Repr

namespace WorkletCall

def terminates : WorkletCall → Bool
  | .terminate | .destroy => true
  | _ => false

def enter (call : WorkletCall) (state : WorkletState) (suspension : Nat) (granted : Bool)
    (remaining : Int) : WorkletState × Option Forward :=
  match call with
  | .suspend linger =>
    let entered := bareWorkletSuspend state suspension granted remaining linger
    (entered.1, entered.2.map .request)
  | .resume =>
    let entered := bareWorkletResume state
    (entered.1, entered.2.map .request)
  | .wakeup deadline =>
    let entered := bareWorkletWakeup state suspension granted remaining deadline
    (entered.1, entered.2.map .request)
  | .terminate | .destroy => bareWorkletTerminate state

end WorkletCall

def Step.exits : Step → Bool
  | .exit => true
  | _ => false

namespace OnCall

def forwards : OnCall → Bool
  | .forwarding _ _ => true
  | _ => false

end OnCall

namespace OnWorklet

def rank : OnWorklet → Nat
  | .absent => 0
  | .settingUp => 1
  | .published => 2
  | .opened => 3
  | .starting => 4
  | .running => 5
  | .ran => 6
  | .closed => 7
  | .withdrawn => 8
  | .tearingDown => 9
  | .toreDown => 10
  | .exiting => 11
  | .exited => 12
  | .destroying => 13
  | .freeing => 14
  | .gone => 15

instance : LE OnWorklet := ⟨fun left right => left.rank ≤ right.rank⟩
instance (left right : OnWorklet) : Decidable (left ≤ right) :=
  inferInstanceAs (Decidable (left.rank ≤ right.rank))

/-- `state->bare` is set. -/
def reachesBare (thread : OnWorklet) : Bool :=
  decide (.published ≤ thread) && !decide (.withdrawn ≤ thread)

def looping : OnWorklet → Bool
  | .running | .tearingDown => true
  | _ => false

def scripting : OnWorklet → Bool
  | .opened | .starting => true
  | thread => thread.looping

/-- The thread goes on without starting, publishing or withdrawing, and closes its end of
the queue on the way or not. -/
structure Advance (thread next : OnWorklet) (closes : Bool) : Prop where
  le : thread ≤ next
  reachesBare : next.reachesBare = thread.reachesBare
  present : thread = .absent → next = .absent
  withdrawn : .withdrawn ≤ next → .withdrawn ≤ thread
  closed : .closed ≤ next → closes = false → .closed ≤ thread

theorem Advance.refl (thread : OnWorklet) (closes : Bool) : Advance thread thread closes :=
  ⟨Nat.le_refl _, rfl, id, id, fun hclosed _ => hclosed⟩

end OnWorklet

/-- `start` is the call of `bare_worklet_start` that made the thread. `destroyed` is whether
`bare_worklet_destroy` was called, `released` whether it has freed the worklet, and `freed`
whether the state is. A suspension has the number of those started before it; a background
task goes by the suspension that it was asked for, and is `begun` when it is granted. -/
structure Controlled where
  state : WorkletState
  wire : Wire
  holder : Option Nat := none
  calls : Nat → OnCall := fun _ => .out
  start : Option Caller := none
  thread : OnWorklet := .absent
  posted : Bool := false
  destroyed : Bool := false
  released : Bool := false
  freed : Bool := false
  suspensions : Nat := 0
  begun : List Nat := []
  ended : List Nat := []

inductive ControlStep where
  -- The host, and the system.
  | start (made : Bool)
  | onStart
  | issue (n : Nat) (call : WorkletCall)
  | enter (n : Nat) (granted : Bool) (remaining : Int)
  | forwarded (n : Nat) (err : Int)
  | leave (n : Nat)
  | expire (task : Nat)
  -- The thread of the worklet.
  | onThread
  | onIdle
  | onResume
  /-- A step on the ipc, of either thread. -/
  | wire (label : Step)

namespace Controlled

def put (controlled : Controlled) (n : Nat) (call : OnCall) : Controlled :=
  { controlled with calls := Function.update controlled.calls n call }

def reported (controlled : Controlled) : Bool := decide (.exiting ≤ controlled.thread)

def task (controlled : Controlled) : List Nat :=
  if controlled.state.app then controlled.state.task.toList else []

def suspending (controlled : Controlled) (granted : Bool) : Forward → Controlled
  | .terminate => controlled
  | .request .resume => { controlled with ended := controlled.task ++ controlled.ended }
  | .request _ =>
    { controlled with
      suspensions := controlled.suspensions + 1
      begun := if controlled.state.app && granted then controlled.suspensions :: controlled.begun
        else controlled.begun
      ended := controlled.task ++ controlled.ended }

def stepIssue (controlled : Controlled) (n : Nat) (call : WorkletCall) : Controlled :=
  let issue : Issue := ⟨call, controlled.start == some .returned, controlled.reported⟩
  { controlled.put n (.waiting issue) with
    destroyed := controlled.destroyed || call == .destroy }

def stepEnter (controlled : Controlled) (n : Nat) (issue : Issue) (granted : Bool)
    (remaining : Int) : Option Controlled :=
  if controlled.holder = none ∧ controlled.freed = false then
    let entered := issue.call.enter controlled.state controlled.suspensions granted remaining
    match entered.2 with
    | none => some { controlled.put n (.returning issue false 0) with state := entered.1 }
    | some forward =>
      some { (controlled.suspending granted forward).put n (.forwarding issue forward) with
        state := entered.1, holder := some n }
  else none

def stepLeave (controlled : Controlled) (n : Nat) : OnCall → Option Controlled
  | .returning issue _ _ =>
    some { controlled.put n .out with
      posted := controlled.posted || issue.call == .destroy
      released := controlled.released || issue.call == .destroy }
  | .abandoning =>
    (controlled.wire.step .abandon).map fun wire => { controlled.put n .abandoned with wire }
  | .abandoned =>
    (controlled.wire.step .destroy).map fun wire =>
      { controlled.put n .out with wire, released := true }
  | _ => none

/-- `bare_worklet__on_thread`, but for what it does on the wire. -/
def stepThread (controlled : Controlled) : Option Controlled :=
  match controlled.thread with
  | .settingUp =>
    if controlled.holder = none then
      some { controlled with
        state := { controlled.state with bare := true }, thread := .published }
    else none
  | .opened =>
    if controlled.start = some .waiting then
      some { controlled with start := some .passed, thread := .starting }
    else none
  | .starting => some { controlled with thread := .running }
  | .running =>
    if controlled.wire.turn = .idle then some { controlled with thread := .ran } else none
  | .closed =>
    if controlled.holder = none then
      let ended := bareSuspensionEnd controlled.state
      some { controlled with
        state := { ended.1 with bare := false }
        ended := ended.2.toList ++ controlled.ended
        thread := .withdrawn }
    else none
  | .withdrawn => some { controlled with thread := .tearingDown }
  | .tearingDown =>
    if controlled.wire.turn = .idle then some { controlled with thread := .toreDown } else none
  | .toreDown => some { controlled with thread := .exiting }
  | .exiting => some { controlled with thread := .exited }
  | .exited => if controlled.posted then some { controlled with thread := .destroying } else none
  | .freeing => some { controlled with thread := .gone, freed := true }
  | .absent | .published | .ran | .destroying | .gone => none

/-- Where the thread of the worklet is after a step on the wire, if the step is one for
its thread there. -/
def threadAfter (controlled : Controlled) : Step → Option OnWorklet
  | .openUv _ _ => if controlled.thread = .published then some .opened else none
  | .exit => if controlled.thread = .ran then some .closed else none
  | .destroy => if controlled.thread = .destroying then some .freeing else none
  | .abandon => none
  | .ipcCreate _ _ => if controlled.released then none else some controlled.thread
  | .write _ _ | .final | .read | .onsignal | .retry _ | .drain _ =>
    if controlled.thread.scripting then some controlled.thread else none
  | _ => some controlled.thread

def stepWire (controlled : Controlled) (label : Step) : Option Controlled :=
  (controlled.threadAfter label).bind fun thread =>
    (controlled.wire.step label).map fun wire => { controlled with wire, thread }

def step (controlled : Controlled) : ControlStep → Option Controlled
  | .start made =>
    if controlled.start = none ∧ controlled.destroyed = false then
      if made then some { controlled with start := some .waiting, thread := .settingUp }
      else some controlled
    else none
  | .onStart =>
    if controlled.start = some .passed then some { controlled with start := some .returned }
    else none
  | .issue n call =>
    if controlled.calls n = .out ∧ controlled.released = false then
      if call = .destroy then
        if controlled.destroyed then none
        else
          match controlled.start with
          | none => some { controlled.put n .abandoning with destroyed := true, freed := true }
          | some .returned => some (controlled.stepIssue n call)
          -- The worklet is not destroyed while it is being started.
          | some _ => none
      else some (controlled.stepIssue n call)
    else none
  | .enter n granted remaining =>
    match controlled.calls n with
    | .waiting issue => controlled.stepEnter n issue granted remaining
    | _ => none
  | .forwarded n err =>
    match controlled.calls n with
    | .forwarding issue _ =>
      some { controlled.put n (.returning issue true err) with holder := none }
    | _ => none
  | .leave n => controlled.stepLeave n (controlled.calls n)
  | .expire task =>
    if task ∈ controlled.begun then
      -- The handler of a task only resets the identifier that is still its own.
      let state := if controlled.state.task = some task then { controlled.state with task := none }
        else controlled.state
      some { controlled with state, ended := task :: controlled.ended }
    else none
  | .onThread => controlled.stepThread
  | .onIdle =>
    if controlled.thread.looping ∧ controlled.holder = none then
      let idled := bareWorkletOnIdle controlled.state
      some { controlled with state := idled.1, ended := idled.2.toList ++ controlled.ended }
    else none
  | .onResume =>
    if controlled.thread.looping ∧ controlled.holder = none then
      some { controlled with state := bareWorkletOnResume controlled.state }
    else none
  | .wire label => controlled.stepWire label

def create (app : Bool) (toUv toThread : Slots) : Controlled where
  state := { app, bare := false, task := none, suspended := false, resuming := false }
  wire := .ofQueue (bareQueueCreate toUv toThread)

def system : Transition.System Controlled ControlStep where
  init controlled := ∃ app toUv toThread, controlled = create app toUv toThread
  step := step

inductive Move (controlled : Controlled) : ControlStep → Controlled → Prop where
  | started (hstart : controlled.start = none) :
    Move controlled (.start true) { controlled with start := some .waiting, thread := .settingUp }
  | notMade : Move controlled (.start false) controlled
  | returned (hstart : controlled.start = some .passed) :
    Move controlled .onStart { controlled with start := some .returned }
  | issued {n call} (hout : controlled.calls n = .out) :
    Move controlled (.issue n call) (controlled.stepIssue n call)
  | abandoning {n call} (hout : controlled.calls n = .out) :
    Move controlled (.issue n call)
      { controlled.put n .abandoning with destroyed := true, freed := true }
  | skipped {n granted remaining issue} (hcall : controlled.calls n = .waiting issue)
      (hfree : controlled.holder = none) (hbare : controlled.state.bare = false) :
    Move controlled (.enter n granted remaining) (controlled.put n (.returning issue false 0))
  | entered {n granted remaining issue forward} (hcall : controlled.calls n = .waiting issue)
      (hfree : controlled.holder = none) (hbare : controlled.state.bare = true)
      (henter : (issue.call.enter controlled.state controlled.suspensions granted remaining).2 =
        some forward) :
    Move controlled (.enter n granted remaining)
      { (controlled.suspending granted forward).put n (.forwarding issue forward) with
        state := (issue.call.enter controlled.state controlled.suspensions granted remaining).1
        holder := some n }
  | forwarded {n err issue forward} (hcall : controlled.calls n = .forwarding issue forward) :
    Move controlled (.forwarded n err)
      { controlled.put n (.returning issue true err) with holder := none }
  | left {n issue forwarded err} (hcall : controlled.calls n = .returning issue forwarded err) :
    Move controlled (.leave n)
      { controlled.put n .out with
        posted := controlled.posted || issue.call == .destroy
        released := controlled.released || issue.call == .destroy }
  | abandoned {n wire} (hcall : controlled.calls n = .abandoning)
      (hwire : controlled.wire.step .abandon = some wire) :
    Move controlled (.leave n) { controlled.put n .abandoned with wire }
  | letGo {n wire} (hcall : controlled.calls n = .abandoned)
      (hwire : controlled.wire.step .destroy = some wire) :
    Move controlled (.leave n) { controlled.put n .out with wire, released := true }
  | expired {task} (htask : task ∈ controlled.begun) :
    Move controlled (.expire task)
      { controlled with
        state := if controlled.state.task = some task then { controlled.state with task := none }
          else controlled.state
        ended := task :: controlled.ended }
  | publish (hthread : controlled.thread = .settingUp) (hfree : controlled.holder = none) :
    Move controlled .onThread
      { controlled with state := { controlled.state with bare := true }, thread := .published }
  | pass (hthread : controlled.thread = .opened) :
    Move controlled .onThread { controlled with start := some .passed, thread := .starting }
  | withdraw (hthread : controlled.thread = .closed) (hfree : controlled.holder = none) :
    Move controlled .onThread
      { controlled with
        state := { (bareSuspensionEnd controlled.state).1 with bare := false }
        ended := (bareSuspensionEnd controlled.state).2.toList ++ controlled.ended
        thread := .withdrawn }
  | free (hthread : controlled.thread = .freeing) :
    Move controlled .onThread { controlled with thread := .gone, freed := true }
  | advance {thread} (hadvance : controlled.thread.Advance thread false) :
    Move controlled .onThread { controlled with thread }
  | idled (hlooping : controlled.thread.looping = true) (hfree : controlled.holder = none) :
    Move controlled .onIdle
      { controlled with
        state := (bareWorkletOnIdle controlled.state).1
        ended := (bareWorkletOnIdle controlled.state).2.toList ++ controlled.ended }
  | resumed (hlooping : controlled.thread.looping = true) (hfree : controlled.holder = none) :
    Move controlled .onResume { controlled with state := bareWorkletOnResume controlled.state }
  | wire {label thread wire} (hadvance : controlled.thread.Advance thread label.exits)
      (hwire : controlled.wire.step label = some wire) :
    Move controlled (.wire label) { controlled with wire, thread }

end Controlled

namespace WorkletCall

variable {call : WorkletCall} {state : WorkletState} {suspension : Nat} {granted : Bool}
  {remaining : Int} {forward : Forward}

theorem enter_unreached (h : state.bare = false) :
    call.enter state suspension granted remaining = (state, none) := by
  cases call <;>
    simp [enter, bareWorkletSuspend, bareWorkletResume, bareWorkletWakeup, bareWorkletTerminate, h]

theorem enter_isSome (h : state.bare = true) :
    (call.enter state suspension granted remaining).2.isSome = true := by
  cases call <;>
    simp [enter, bareWorkletSuspend, bareWorkletResume, bareWorkletWakeup, bareWorkletTerminate, h]

structure Entered (state : WorkletState) (suspension : Nat) (granted : Bool) (forward : Forward)
    (next : WorkletState) : Prop where
  bare : next.bare = state.bare
  app : next.app = state.app
  task : next.task =
    match forward with
    | .terminate => state.task
    | .request .resume => if state.app then none else state.task
    | .request _ =>
      if state.app then if granted then some suspension else none else state.task

theorem entered (h : (call.enter state suspension granted remaining).2 = some forward) :
    Entered state suspension granted forward (call.enter state suspension granted remaining).1 := by
  have hbare : state.bare = true := by
    by_contra hbare
    rw [enter_unreached (eq_false_of_ne_true hbare)] at h
    contradiction
  cases call with
  | suspend _ | wakeup _ | terminate | destroy =>
    simp only [enter, bareWorkletSuspend, bareWorkletWakeup, bareWorkletTerminate,
      bareSuspensionStart, hbare, ↓reduceIte, Option.map_some, Option.some.injEq] at h ⊢
    subst h
    by_cases happ : state.app = true <;> constructor <;> simp [happ, hbare]
  | resume =>
    simp only [enter, bareWorkletResume, bareSuspensionEnd, hbare, ↓reduceIte, Option.map_some,
      Option.some.injEq] at h ⊢
    subst h
    by_cases happ : state.app = true <;> by_cases hsuspended : state.suspended = true <;>
      constructor <;> simp [happ, hbare, hsuspended]

end WorkletCall

namespace OnWorklet

variable {thread next : OnWorklet}

theorem reachesBare_iff : thread.reachesBare = true ↔ .published ≤ thread ∧
    ¬ .withdrawn ≤ thread := by
  simp [reachesBare]

theorem withdrawn_of_started (h : thread.reachesBare = false) (hstarted : .starting ≤ thread) :
    .withdrawn ≤ thread := by
  cases thread <;> revert h hstarted <;> decide

theorem le_trans {first last : OnWorklet} (h : first ≤ thread) (hnext : thread ≤ last) :
    first ≤ last :=
  Nat.le_trans h hnext

end OnWorklet

namespace Issue

variable {issue : Issue} {thread next : OnWorklet}

def Past (issue : Issue) (thread : OnWorklet) : Prop :=
  (issue.started = true → .starting ≤ thread) ∧ (issue.exited = true → .exiting ≤ thread)

theorem Past.mono (h : issue.Past thread) (hle : thread ≤ next) : issue.Past next :=
  ⟨fun hstarted => OnWorklet.le_trans (h.1 hstarted) hle,
    fun hexited => OnWorklet.le_trans (h.2 hexited) hle⟩

end Issue

namespace OnCall

variable {call : OnCall} {thread next : OnWorklet}

/-- A call that does not reach Bare returns 0, and either the worklet had not been started
when it was issued or has run. -/
def Kept (thread : OnWorklet) : OnCall → Prop
  | .waiting issue => issue.Past thread
  | .forwarding issue _ => issue.Past thread ∧ issue.exited = false
  | .returning issue forwarded err =>
    (forwarded = true → issue.exited = false) ∧
      (forwarded = false → err = 0 ∧ (issue.started = true → .ran ≤ thread))
  | _ => True

theorem Kept.mono (h : call.Kept thread) (hle : thread ≤ next) : call.Kept next := by
  cases call with
  | out | abandoning | abandoned => trivial
  | waiting issue => exact h.mono hle
  | forwarding issue forward => exact ⟨h.1.mono hle, h.2⟩
  | returning issue forwarded err =>
    exact ⟨h.1, fun hforwarded => (h.2 hforwarded).imp id
      fun hran hstarted => OnWorklet.le_trans (hran hstarted) hle⟩

end OnCall

theorem bareIpcReadQueue_unblocked {queue : Queue} (h : queue.uvState = .closed) (ipc : Ipc) :
    (bareIpcReadQueue queue ipc).result.2 = false := by
  unfold bareIpcReadQueue
  split
  · simp only [bareQueueRead, bareQueuePeerState, h]
    split
    · rfl
    · rename_i hread
      split at hread
      · contradiction
      · rename_i hempty
        simp [show EndState.ended ≤ .closed by decide] at hread
  · rfl

theorem bareIpcReadPending_unblocked (queue : Queue) (ipc : Ipc) (len : Nat) :
    (bareIpcReadPending queue ipc len false).result ≠ bareIpcWouldBlock := by
  unfold bareIpcReadPending
  split
  · simp [bareIpcWouldBlock]
  · simp only [bareIpcWouldBlock]
    omega

theorem bareIpcWrite_closed {queue : Queue} (h : queue.uvState = .closed) (ipc : Ipc)
    (addr : Pointer)
    {data : Bytes} (hdata : data ≠ []) :
    (bareIpcWrite queue ipc addr data).result = bareIpcError := by
  unfold bareIpcWrite
  split
  · have hlen : data.length ≠ 0 := fun hlen => hdata (List.length_eq_zero_iff.mp hlen)
    simp [bareQueueWrite, hlen, bareQueuePeerState, h, bareQueueClosed, bareQueueWouldBlock]
  · rfl

namespace Wire

variable {wire next : Wire} {label : Step}

/-- The end of the worklet is closed, and no read has found that it would block before. -/
structure Cut (wire : Wire) : Prop where
  closed : wire.queue.uvState = .closed
  unblocked : ∀ len blocked, wire.held = some (.reading len blocked) → blocked = false

theorem closed_exit (hstep : wire.step .exit = some next) : next.queue.uvState = .closed := by
  cases move_step hstep with
  | exit _ _ => exact Queue.close_state .uv

theorem closed_step (h : system.Reachable wire) (hclosed : wire.queue.uvState = .closed)
    (hstep : wire.step label = some next) : next.queue.uvState = .closed := by
  cases hworklet : label.ofWorklet with
  | false => exact (spares_step (sound h) (hosted h) hworklet hstep).closed hclosed
  | true =>
    cases label with
    | write _ _ | final | read | onsignal | retry _ | drain _ =>
      exact (keeps_script hworklet rfl hstep).closed hclosed
    | openUv _ _ =>
      cases move_step hstep with
      | openUv hidle _ => simp [hclosed] at hidle
    | exit | abandon =>
      cases move_step hstep
      all_goals exact Queue.close_state .uv
    | destroy =>
      cases move_step hstep
      exact hclosed
    | ipcCreate _ _ | ipcRead _ | ipcReadPending | ipcWrite _ _ | ipcEnd | ipcClose
    | ipcCloseRelease | ipcSignal | dispatch | dispatchWritable | takeWake => contradiction

theorem held_step (h : system.Reachable wire) (hstep : wire.step label = some next) :
    next.held = wire.held ∨ (∀ len blocked, next.held ≠ some (.reading len blocked)) ∨
      ∃ ipc len, label = .ipcRead len ∧
        next.held = some (.reading len (bareIpcReadQueue wire.queue ipc).result.2) := by
  cases hworklet : label.ofWorklet with
  | true => exact Or.inl (seen_step (sound h).queue hworklet hstep).held
  | false =>
    cases move_step hstep with
    | write _ _ _ _ | final _ _ _ _ | read _ _ | onsignal _ _ _ | retryNone _ _ _ | retry _ _ _
    | drain _ _ _ | openUv _ _ | exit _ _ | abandon _ _ | destroy _ => contradiction
    | ipcRead _ _ _ => exact Or.inr (Or.inr ⟨_, _, rfl, rfl⟩)
    | ipcCreate _ | ipcWrite _ _ | ipcEndGone _ _ _ | ipcCloseGone _ _ _ | takeWake _ =>
      exact Or.inl rfl
    | ipcReadPending _ _ =>
      refine Or.inr (Or.inl ?_)
      dsimp only
      split <;> simp
    | ipcEnd _ _ _ | ipcClose _ _ _ | ipcCloseRelease _ _ | ipcSignal _ _ | dispatch _ _
    | dispatchWritable _ _ => exact Or.inr (Or.inl (by simp))

theorem Cut.step (hcut : wire.Cut) (h : system.Reachable wire)
    (hstep : wire.step label = some next) :
    next.Cut := by
  refine ⟨closed_step h hcut.closed hstep, fun len blocked hreading => ?_⟩
  rcases held_step h hstep with hsame | hnone | ⟨ipc, read, -, hread⟩
  · exact hcut.unblocked len blocked (hsame ▸ hreading)
  · exact absurd hreading (hnone len blocked)
  · have hblocked := bareIpcReadQueue_unblocked hcut.closed ipc
    rw [hread] at hreading
    cases hreading
    exact hblocked

theorem Cut.read (h : system.Reachable wire) (hclosed : wire.queue.uvState = .closed) {len : Nat}
    (hstep : wire.step (.ipcRead len) = some next) : next.Cut := by
  refine Cut.mk (closed_step h hclosed hstep) fun read blocked hreading => ?_
  cases move_step hstep with
  | ipcRead _ _ _ =>
    cases hreading
    exact bareIpcReadQueue_unblocked hclosed _

end Wire

namespace Controlled

variable {controlled next : Controlled} {label : ControlStep} {n other : Nat}

theorem move_enter {issue : Issue} {granted : Bool} {remaining : Int}
    (hcall : controlled.calls n = .waiting issue)
    (hstep : controlled.stepEnter n issue granted remaining = some next) :
    Move controlled (.enter n granted remaining) next := by
  simp only [stepEnter] at hstep
  split at hstep
  · rename_i hguard
    cases hbare : controlled.state.bare with
    | false =>
      rw [WorkletCall.enter_unreached hbare] at hstep
      cases hstep
      exact .skipped hcall hguard.1 hbare
    | true =>
      have hforwards :
          (issue.call.enter controlled.state controlled.suspensions granted remaining).2.isSome =
            true :=
        WorkletCall.enter_isSome hbare
      obtain ⟨forward, hforward⟩ := Option.isSome_iff_exists.mp hforwards
      rw [hforward] at hstep
      cases hstep
      exact .entered hcall hguard.1 hbare hforward
  · contradiction

theorem move_issue {call : WorkletCall} (hstep : controlled.step (.issue n call) = some next) :
    Move controlled (.issue n call) next := by
  simp only [step] at hstep
  split at hstep
  · rename_i hguard
    split at hstep
    · split at hstep
      · contradiction
      · split at hstep
        · cases hstep
          exact .abandoning hguard.1
        · cases hstep
          exact .issued hguard.1
        · contradiction
    · cases hstep
      exact .issued hguard.1
  · contradiction

theorem move_leave (hstep : controlled.stepLeave n (controlled.calls n) = some next) :
    Move controlled (.leave n) next := by
  cases hcall : controlled.calls n with
  | returning issue forwarded err =>
    rw [hcall] at hstep
    cases hstep
    exact .left hcall
  | abandoning =>
    rw [hcall] at hstep
    obtain ⟨wire, hwire, rfl⟩ := Option.map_eq_some_iff.mp hstep
    exact .abandoned hcall hwire
  | abandoned =>
    rw [hcall] at hstep
    obtain ⟨wire, hwire, rfl⟩ := Option.map_eq_some_iff.mp hstep
    exact .letGo hcall hwire
  | out | waiting _ | forwarding _ _ =>
    rw [hcall] at hstep
    contradiction

theorem move_thread (hstep : controlled.stepThread = some next) :
    Move controlled .onThread next := by
  have hadvance : ∀ thread after : OnWorklet, controlled.thread = thread →
      thread.Advance after false → Move controlled .onThread { controlled with thread := after } :=
    fun _ _ hthread hafter => .advance (hthread ▸ hafter)
  unfold stepThread at hstep
  split at hstep <;> rename_i hthread
  case h_1 =>
    split at hstep
    · cases hstep
      exact .publish hthread ‹_›
    · contradiction
  case h_2 =>
    split at hstep
    · cases hstep
      exact .pass hthread
    · contradiction
  case h_5 =>
    split at hstep
    · cases hstep
      exact .withdraw hthread ‹_›
    · contradiction
  case h_11 =>
    cases hstep
    exact .free hthread
  case h_3 | h_6 | h_8 | h_9 =>
    cases hstep
    exact hadvance _ _ hthread (by constructor <;> decide)
  case h_4 | h_7 | h_10 =>
    split at hstep
    · cases hstep
      exact hadvance _ _ hthread (by constructor <;> decide)
    · contradiction
  all_goals contradiction

theorem threadAfter_advance {label : Step} {thread : OnWorklet}
    (h : controlled.threadAfter label = some thread) :
    controlled.thread.Advance thread label.exits := by
  cases label with
  | openUv _ _ =>
    simp only [threadAfter] at h
    split at h
    · rename_i hthread
      cases h
      rw [hthread]
      exact ⟨by decide, by decide, by decide, by decide, fun hclosed => absurd hclosed (by decide)⟩
    · contradiction
  | exit | destroy =>
    simp only [threadAfter] at h
    split at h
    · rename_i hthread
      cases h
      rw [hthread]
      constructor <;> decide
    · contradiction
  | abandon => contradiction
  | ipcCreate _ _ =>
    simp only [threadAfter] at h
    split at h
    · contradiction
    · cases h
      exact .refl _ _
  | write _ _ | final | read | onsignal | retry _ | drain _ =>
    simp only [threadAfter] at h
    split at h
    · cases h
      exact .refl _ _
    · contradiction
  | ipcRead _ | ipcReadPending | ipcWrite _ _ | ipcEnd | ipcClose | ipcCloseRelease | ipcSignal
  | dispatch | dispatchWritable | takeWake =>
    cases h
    exact .refl _ _

theorem move_step (hstep : controlled.step label = some next) : Move controlled label next := by
  cases label with
  | issue n call => exact move_issue hstep
  | leave n => exact move_leave hstep
  | onThread => exact move_thread hstep
  | start made =>
    simp only [step] at hstep
    split at hstep
    · rename_i hguard
      cases made <;> cases hstep
      · exact .notMade
      · exact .started hguard.1
    · contradiction
  | onStart =>
    simp only [step] at hstep
    split at hstep
    · cases hstep
      exact .returned ‹_›
    · contradiction
  | enter n granted remaining =>
    simp only [step] at hstep
    split at hstep
    · exact move_enter ‹_› hstep
    · contradiction
  | forwarded n err =>
    simp only [step] at hstep
    split at hstep
    · cases hstep
      exact .forwarded ‹_›
    · contradiction
  | expire task =>
    simp only [step] at hstep
    split at hstep
    · cases hstep
      exact .expired ‹_›
    · contradiction
  | onIdle =>
    simp only [step] at hstep
    split at hstep
    · rename_i hguard
      cases hstep
      exact .idled hguard.1 hguard.2
    · contradiction
  | onResume =>
    simp only [step] at hstep
    split at hstep
    · rename_i hguard
      cases hstep
      exact .resumed hguard.1 hguard.2
    · contradiction
  | wire label =>
    obtain ⟨thread, hthread, hmap⟩ := Option.bind_eq_some_iff.mp hstep
    obtain ⟨wire, hwire, rfl⟩ := Option.map_eq_some_iff.mp hmap
    exact .wire (threadAfter_advance hthread) hwire

theorem put_calls_self (call : OnCall) : (controlled.put n call).calls n = call :=
  Function.update_self ..

theorem put_calls_of_ne (call : OnCall) (hne : other ≠ n) :
    (controlled.put n call).calls other = controlled.calls other := Function.update_of_ne hne ..

theorem put_forall {P : Nat → OnCall → Prop} {call : OnCall} (hnew : P n call)
    (hothers : ∀ other, other ≠ n → P other (controlled.calls other)) :
    ∀ other, P other ((controlled.put n call).calls other) :=
  (Function.forall_update_iff controlled.calls P).mpr ⟨hnew, hothers⟩

theorem suspending_frame (controlled : Controlled) (granted : Bool) (forward : Forward) :
    ∃ suspensions begun ended,
      controlled.suspending granted forward = { controlled with suspensions, begun, ended } := by
  cases forward with
  | terminate => exact ⟨_, _, _, rfl⟩
  | request request => cases request <;> exact ⟨_, _, _, rfl⟩

@[simp] theorem suspending_calls (granted : Bool) (forward : Forward) :
    (controlled.suspending granted forward).calls = controlled.calls := by
  obtain ⟨_, _, _, hsuspending⟩ := controlled.suspending_frame granted forward
  rw [hsuspending]

@[simp] theorem suspending_thread (granted : Bool) (forward : Forward) :
    (controlled.suspending granted forward).thread = controlled.thread := by
  obtain ⟨_, _, _, hsuspending⟩ := controlled.suspending_frame granted forward
  rw [hsuspending]

@[simp] theorem suspending_start (granted : Bool) (forward : Forward) :
    (controlled.suspending granted forward).start = controlled.start := by
  obtain ⟨_, _, _, hsuspending⟩ := controlled.suspending_frame granted forward
  rw [hsuspending]

@[simp] theorem suspending_wire (granted : Bool) (forward : Forward) :
    (controlled.suspending granted forward).wire = controlled.wire := by
  obtain ⟨_, _, _, hsuspending⟩ := controlled.suspending_frame granted forward
  rw [hsuspending]

theorem suspensionEnd_bare (state : WorkletState) :
    (bareSuspensionEnd state).1.bare = state.bare := by
  unfold bareSuspensionEnd
  split <;> rfl

theorem onIdle_bare (state : WorkletState) : (bareWorkletOnIdle state).1.bare = state.bare := by
  unfold bareWorkletOnIdle
  split
  · rfl
  · exact suspensionEnd_bare state

/-- The pointer follows the thread of the worklet, which follows the call that made it. -/
structure Threaded (controlled : Controlled) : Prop where
  bare : controlled.state.bare = controlled.thread.reachesBare
  unstarted : controlled.start = none → controlled.thread = .absent
  started : controlled.start = some .passed ∨ controlled.start = some .returned →
    .starting ≤ controlled.thread

theorem Threaded.reached (h : controlled.Threaded) (hset : controlled.state.bare = true) :
    .published ≤ controlled.thread ∧ ¬ .withdrawn ≤ controlled.thread :=
  OnWorklet.reachesBare_iff.mp (h.bare.symm.trans hset)

theorem Threaded.congr (h : controlled.Threaded) (hbare : next.state.bare = controlled.state.bare)
    (hthread : next.thread = controlled.thread) (hstart : next.start = controlled.start) :
    next.Threaded := by
  obtain ⟨bare, unstarted, started⟩ := h
  exact ⟨by rw [hbare, hthread, bare], by rwa [hstart, hthread], by rwa [hstart, hthread]⟩

theorem Threaded.advance (h : controlled.Threaded) {thread : OnWorklet} {closes : Bool}
    (hadvance : controlled.thread.Advance thread closes) (wire : Wire) :
    Threaded { controlled with wire, thread } :=
  ⟨h.bare.trans hadvance.reachesBare.symm, fun hstart => hadvance.present (h.unstarted hstart),
    fun hstart => Nat.le_trans (h.started hstart) hadvance.le⟩

theorem Threaded.step (h : controlled.Threaded) (hstep : controlled.step label = some next) :
    next.Threaded := by
  cases move_step hstep with
  | started hstart =>
    have hbare := h.bare
    rw [h.unstarted hstart] at hbare
    exact ⟨hbare, fun hnone => by contradiction, fun hpassed => by simp at hpassed⟩
  | notMade => exact h
  | returned hstart =>
    exact ⟨h.bare, fun hnone => by contradiction, fun _ => h.started (Or.inl hstart)⟩
  | issued _ | abandoning _ | skipped _ _ _ | forwarded _ | left _ | abandoned _ _ | letGo _ _ =>
    exact h.congr rfl rfl rfl
  | entered hcall _ _ henter =>
    exact h.congr (WorkletCall.entered henter).bare (suspending_thread ..) (suspending_start ..)
  | expired _ => exact h.congr (by dsimp only; split <;> rfl) rfl rfl
  | publish hthread _ =>
    exact ⟨rfl, fun hstart => by simp [h.unstarted hstart] at hthread, fun hstart => by
      have hstarted := h.started hstart
      rw [hthread] at hstarted
      exact absurd hstarted (by decide)⟩
  | pass hthread =>
    have hbare := h.bare
    rw [hthread] at hbare
    exact ⟨hbare, fun hnone => by contradiction, fun _ => Nat.le_refl _⟩
  | withdraw hthread _ =>
    refine ⟨rfl, fun hstart => ?_, fun _ => show OnWorklet.starting ≤ .withdrawn by decide⟩
    simp [h.unstarted hstart] at hthread
  | free hthread =>
    have hbare := h.bare
    rw [hthread] at hbare
    refine ⟨hbare, fun hstart => ?_, fun _ => show OnWorklet.starting ≤ .gone by decide⟩
    simp [h.unstarted hstart] at hthread
  | advance hadvance => exact h.advance hadvance controlled.wire
  | idled _ _ => exact h.congr (onIdle_bare _) rfl rfl
  | resumed _ _ => exact h.congr rfl rfl rfl
  | wire hadvance _ => exact h.advance hadvance _

theorem threaded (h : system.Reachable controlled) : controlled.Threaded := by
  refine h.invariant (I := Threaded) ?_ fun _ _ _ _ hthreaded hstep => hthreaded.step hstep
  rintro _ ⟨app, toUv, toThread, rfl⟩
  exact ⟨rfl, fun _ => rfl, fun hstart => by simp [create] at hstart⟩

theorem thread_le (h : controlled.Threaded) (hstep : controlled.step label = some next) :
    controlled.thread ≤ next.thread := by
  cases move_step hstep with
  | started hstart =>
    rw [h.unstarted hstart]
    exact Nat.zero_le _
  | entered _ _ _ _ =>
    simp only [put, suspending_thread]
    exact Nat.le_refl _
  | publish hthread _ | pass hthread | withdraw hthread _ | free hthread =>
    rw [hthread]
    dsimp only
    decide
  | advance hadvance | wire hadvance _ => exact hadvance.le
  | notMade | returned _ | issued _ | abandoning _ | skipped _ _ _ | forwarded _ | left _
  | abandoned _ _ | letGo _ _ | expired _ | idled _ _ | resumed _ _ => exact Nat.le_refl _

structure Locked (controlled : Controlled) : Prop where
  holder : ∀ n, (controlled.calls n).forwards = true ↔ controlled.holder = some n
  reached : controlled.holder.isSome → controlled.state.bare = true

theorem Locked.put {call : OnCall} (h : controlled.Locked) (hcall : call.forwards = false)
    (hold : (controlled.calls n).forwards = false) : (controlled.put n call).Locked := by
  refine ⟨put_forall (P := fun other call => call.forwards = true ↔
    controlled.holder = some other) ?_
    fun other _ => h.holder other, h.reached⟩
  rw [hcall, ← hold]
  exact h.holder n

theorem Locked.congr (h : controlled.Locked) (hcalls : next.calls = controlled.calls)
    (hholder : next.holder = controlled.holder) (hbare : next.state.bare = controlled.state.bare) :
    next.Locked := by
  obtain ⟨holder, reached⟩ := h
  exact ⟨by rwa [hcalls, hholder], by rwa [hholder, hbare]⟩

theorem Locked.unheld (h : controlled.Locked) (hfree : controlled.holder = none)
    (hcalls : next.calls = controlled.calls) (hholder : next.holder = controlled.holder) :
    next.Locked := by
  refine ⟨by rw [hcalls, hholder]; exact h.holder, fun hheld => ?_⟩
  rw [hholder, hfree] at hheld
  contradiction

theorem Locked.step (h : controlled.Locked) (hstep : controlled.step label = some next) :
    next.Locked := by
  cases move_step hstep with
  | started _ | notMade | returned _ | pass _ | free _ | advance _ | wire _ _ | resumed _ _ =>
    exact h.congr rfl rfl rfl
  | issued hout | abandoning hout =>
    exact (h.put rfl (by simp [hout, OnCall.forwards])).congr rfl rfl rfl
  | skipped hcall _ _ | left hcall | abandoned hcall _ | letGo hcall _ =>
    exact (h.put rfl (by simp [hcall, OnCall.forwards])).congr rfl rfl rfl
  | entered hcall hfree hbare henter =>
    rename_i n granted remaining issue forward
    refine ⟨put_forall (P := fun other call => call.forwards = true ↔ some n = some other)
      (by simp [OnCall.forwards]) fun other hne => ?_, fun _ =>
        (WorkletCall.entered henter).bare.trans hbare⟩
    have hidle : ¬ (controlled.calls other).forwards = true := fun hforwards => by
      simp [hfree, h.holder other] at hforwards
    simp [hidle, Ne.symm hne]
  | forwarded hcall =>
    rename_i n err issue forward
    have hheld := (h.holder n).mp (by rw [hcall]; rfl)
    refine ⟨put_forall (P := fun other call => call.forwards = true ↔ none = some other)
      (by simp [OnCall.forwards]) fun other hne => ?_, fun hnone => by contradiction⟩
    simp [h.holder other, hheld, Ne.symm hne]
  | expired _ => exact h.congr rfl rfl (by dsimp only; split <;> rfl)
  | publish _ hfree | withdraw _ hfree => exact h.unheld hfree rfl rfl
  | idled _ _ => exact h.congr rfl rfl (onIdle_bare _)

theorem locked (h : system.Reachable controlled) : controlled.Locked := by
  refine h.invariant (I := Locked) ?_ fun _ _ _ _ hlocked hstep => hlocked.step hstep
  rintro _ ⟨app, toUv, toThread, rfl⟩
  exact ⟨fun n => by simp [create, OnCall.forwards], fun hheld => by contradiction⟩

theorem forwards_reaches (h : system.Reachable controlled)
    (hforwards : (controlled.calls n).forwards = true) : controlled.thread.reachesBare = true := by
  have hholder := ((locked h).holder n).mp hforwards
  rw [← (threaded h).bare]
  exact (locked h).reached (by rw [hholder]; rfl)

theorem kept_put {call : OnCall} (h : ∀ n, (controlled.calls n).Kept controlled.thread)
    (hcall : call.Kept controlled.thread) :
    ∀ other, ((controlled.put n call).calls other).Kept controlled.thread :=
  put_forall (P := fun _ call => call.Kept controlled.thread) hcall fun other _ => h other

theorem kept_step (h : ∀ n, (controlled.calls n).Kept controlled.thread)
    (hreach : system.Reachable controlled) (hstep : controlled.step label = some next) :
    ∀ n, (next.calls n).Kept next.thread := by
  have hle := thread_le (threaded hreach) hstep
  have hbare := (threaded hreach).bare
  cases move_step hstep with
  | notMade | returned _ | expired _ | idled _ _ | resumed _ _ => exact h
  | started _ | publish _ _ | pass _ | withdraw _ _ | free _ | advance _ | wire _ _ =>
    exact fun n => (h n).mono hle
  | issued _ =>
    refine kept_put h ⟨fun hstarted => (threaded hreach).started (Or.inr ?_), fun hexited => ?_⟩
    · simpa using hstarted
    · simpa [reported] using hexited
  | abandoning _ | left _ | abandoned _ _ | letGo _ _ => exact kept_put h trivial
  | skipped hcall _ hnone =>
    rename_i n granted remaining issue _
    have hissue := h n
    rw [hcall] at hissue
    refine kept_put h ⟨fun hforwarded => by contradiction, fun _ => ⟨rfl, fun hstarted => ?_⟩⟩
    have hwithdrawn := OnWorklet.withdrawn_of_started (hbare.symm.trans hnone) (hissue.1 hstarted)
    exact OnWorklet.le_trans (by decide) hwithdrawn
  | entered hcall _ hset _ =>
    rename_i n granted remaining issue forward _ _
    have hissue := h n
    rw [hcall] at hissue
    have hreached := (threaded hreach).reached hset
    have hexited : issue.exited = false := by
      by_contra hexited
      exact hreached.2 (OnWorklet.le_trans (by decide) (hissue.2 (eq_true_of_ne_false hexited)))
    refine put_forall (P := fun _ call => call.Kept _) ?_ fun other _ => ?_
    · simp only [put, suspending_thread]
      exact ⟨hissue, hexited⟩
    · simp only [put, suspending_thread, suspending_calls]
      exact h other
  | forwarded hcall =>
    rename_i n err issue forward
    have hissue := h n
    rw [hcall] at hissue
    exact kept_put h ⟨fun _ => hissue.2, fun hforwarded => by contradiction⟩

theorem kept (h : system.Reachable controlled) (n : Nat) :
    (controlled.calls n).Kept controlled.thread := by
  refine h.invariant (I := fun controlled => ∀ n, (controlled.calls n).Kept controlled.thread) ?_
    (fun _ _ _ hreach hkept hstep => kept_step hkept hreach hstep) n
  rintro _ ⟨app, toUv, toThread, rfl⟩ n
  trivial

/-- A background task that was begun is running or was ended, and none is running once the
pointer was withdrawn. -/
structure Suspended (controlled : Controlled) : Prop where
  tasks : ∀ task ∈ controlled.begun, task ∈ controlled.ended ∨ controlled.state.task = some task
  native : controlled.state.app = false → controlled.state.task = none
  settled : .withdrawn ≤ controlled.thread → controlled.state.task = none

theorem suspensionEnd_task {state : WorkletState}
    (hnative : state.app = false → state.task = none) :
    bareSuspensionEnd state = ({ state with task := none }, state.task) := by
  unfold bareSuspensionEnd
  split
  · rfl
  · have htask := hnative (eq_false_of_ne_true ‹_›)
    rw [htask]
    exact Prod.ext (by rw [← htask]) rfl

theorem Suspended.congr (h : controlled.Suspended) (hstate : next.state = controlled.state)
    (hbegun : next.begun = controlled.begun) (hended : next.ended = controlled.ended)
    (hthread : .withdrawn ≤ next.thread → .withdrawn ≤ controlled.thread) : next.Suspended := by
  obtain ⟨tasks, native, settled⟩ := h
  exact ⟨by rwa [hbegun, hended, hstate], by rwa [hstate],
    fun hover => by rw [hstate, settled (hthread hover)]⟩

theorem Suspended.finish (h : controlled.Suspended) (bare : Bool) (thread : OnWorklet) :
    Suspended { controlled with
      state := { controlled.state with bare, task := none }
      ended := controlled.state.task.toList ++ controlled.ended
      thread } := by
  refine ⟨fun task hmem => Or.inl (List.mem_append.mpr ?_), fun _ => rfl, fun _ => rfl⟩
  rcases h.tasks task hmem with hbefore | hrunning
  · exact Or.inr hbefore
  · exact Or.inl (by simp [hrunning])

theorem task_eq (h : controlled.Suspended) : controlled.task = controlled.state.task.toList := by
  unfold task
  split
  · rfl
  · rename_i happ
    rw [h.native (eq_false_of_ne_true happ)]
    rfl

theorem Suspended.entered (h : controlled.Suspended) {granted : Bool} {forward : Forward}
    {state : WorkletState}
    (hstate : WorkletCall.Entered controlled.state controlled.suspensions granted forward state)
    (hthread : ¬ .withdrawn ≤ controlled.thread) :
    Suspended { controlled.suspending granted forward with state } := by
  have hdone : ∀ task ∈ controlled.begun, task ∈ controlled.task ++ controlled.ended := by
    intro task hmem
    rw [task_eq h, List.mem_append]
    rcases h.tasks task hmem with hbefore | hrunning
    · exact Or.inr hbefore
    · exact Or.inl (by simp [hrunning])
  have hnative : state.app = false → controlled.state.app = false ∧ controlled.state.task = none :=
    fun happ => ⟨hstate.app ▸ happ, h.native (hstate.app ▸ happ)⟩
  have htask := hstate.task
  cases forward with
  | terminate =>
    refine ⟨fun task hmem => ?_, fun happ => ?_, fun hover => absurd hover hthread⟩
    · rw [htask]
      exact h.tasks task hmem
    · rw [htask, (hnative happ).2]
  | request request =>
    cases request with
    | resume =>
      refine ⟨fun task hmem => Or.inl (hdone task hmem), fun happ => ?_,
        fun hover => absurd hover hthread⟩
      rw [htask]
      simp [(hnative happ).2]
    | suspend _ _ | wakeup _ _ =>
      refine ⟨fun task hmem => ?_, fun happ => ?_, fun hover => absurd hover hthread⟩
      · simp only [suspending] at hmem ⊢
        split at hmem
        · rename_i hgranted
          rw [Bool.and_eq_true] at hgranted
          rcases List.mem_cons.mp hmem with rfl | hbefore
          · exact Or.inr (by rw [htask]; simp [hgranted])
          · exact Or.inl (hdone task hbefore)
        · exact Or.inl (hdone task hmem)
      · rw [htask]
        simp [hnative happ]

theorem Suspended.step (h : controlled.Suspended) (hthreaded : controlled.Threaded)
    (hstep : controlled.step label = some next) : next.Suspended := by
  have hended := suspensionEnd_task h.native
  cases move_step hstep with
  | started _ =>
    have hbefore : ¬ OnWorklet.withdrawn ≤ .settingUp := by decide
    exact h.congr rfl rfl rfl fun hover => absurd hover hbefore
  | notMade | returned _ | issued _ | abandoning _ | skipped _ _ _ | forwarded _ | left _
  | abandoned _ _ | letGo _ _ => exact h.congr rfl rfl rfl id
  | entered _ _ hset henter =>
    have hreached := hthreaded.reached hset
    have hentered := h.entered (WorkletCall.entered henter) hreached.2
    exact ⟨hentered.tasks, hentered.native, hentered.settled⟩
  | expired htask =>
    refine ⟨fun task hmem => ?_, fun happ => ?_, fun hover => ?_⟩
    · rcases h.tasks task hmem with hbefore | hrunning
      · exact Or.inl (List.mem_cons_of_mem _ hbefore)
      · dsimp only
        split
        · rename_i hsame
          rw [hrunning] at hsame
          exact Or.inl (List.mem_cons.mpr (Or.inl (Option.some.inj hsame)))
        · exact Or.inr hrunning
    · dsimp only at happ ⊢
      split
      · rfl
      · rename_i hother
        rw [if_neg hother] at happ
        exact h.native happ
    · dsimp only
      split
      · rfl
      · exact h.settled hover
  | publish _ _ =>
    have hbefore : ¬ OnWorklet.withdrawn ≤ .published := by decide
    exact ⟨h.tasks, h.native, fun hover => absurd hover hbefore⟩
  | pass _ =>
    have hbefore : ¬ OnWorklet.withdrawn ≤ .starting := by decide
    exact ⟨h.tasks, h.native, fun hover => absurd hover hbefore⟩
  | withdraw _ _ =>
    rw [hended]
    exact h.finish false .withdrawn
  | free hthread => exact ⟨h.tasks, h.native, fun _ => h.settled (by rw [hthread]; decide)⟩
  | advance hadvance | wire hadvance _ => exact h.congr rfl rfl rfl hadvance.withdrawn
  | idled _ _ =>
    unfold bareWorkletOnIdle
    split
    · exact h.congr rfl rfl rfl id
    · rw [hended]
      exact h.finish controlled.state.bare controlled.thread
  | resumed _ _ => exact ⟨h.tasks, h.native, h.settled⟩

theorem suspended (h : system.Reachable controlled) : controlled.Suspended := by
  refine h.invariant (I := Suspended) ?_ fun _ _ _ hreach hsuspended hstep =>
    hsuspended.step (threaded hreach) hstep
  rintro _ ⟨app, toUv, toThread, rfl⟩
  exact ⟨fun task hmem => by simp [create] at hmem, fun _ => rfl, fun _ => rfl⟩

theorem withdrawn_step (h : system.Reachable controlled) (hover : .withdrawn ≤ controlled.thread)
    (hstep : controlled.step label = some next) :
    next.suspensions = controlled.suspensions ∧ next.begun = controlled.begun := by
  cases move_step hstep with
  | entered _ _ hset _ =>
    have hreached := (threaded h).reached hset
    exact absurd hover hreached.2
  | _ => exact ⟨rfl, rfl⟩

theorem withdrawn_run (h : system.Reachable controlled) (hover : .withdrawn ≤ controlled.thread)
    {labels : List ControlStep} {last : Controlled}
    (hrun : system.run controlled labels = some last) :
    last.suspensions = controlled.suspensions ∧ last.begun = controlled.begun := by
  have hkept := h.persists
    (P := fun last => .withdrawn ≤ last.thread ∧ last.suspensions = controlled.suspensions ∧
      last.begun = controlled.begun)
    ⟨hover, rfl, rfl⟩ (fun middle label next hmiddle hbefore hstep => ?_) hrun
  · exact hkept.2
  · obtain ⟨hsuspensions, hbegun⟩ := withdrawn_step hmiddle hbefore.1 hstep
    exact ⟨OnWorklet.le_trans hbefore.1 (thread_le (threaded hmiddle) hstep),
      hsuspensions.trans hbefore.2.1, hbegun.trans hbefore.2.2⟩

theorem exiting_step (h : system.Reachable controlled) (hexiting : .exiting ≤ controlled.thread)
    (hstep : controlled.step label = some next) : next.state = controlled.state := by
  have hpast : ∀ thread : OnWorklet, ¬ .exiting ≤ thread → controlled.thread ≠ thread := by
    rintro thread hbefore rfl
    exact hbefore hexiting
  have hloops : controlled.thread.looping = true → False := by
    intro hlooping
    have hrunning := hpast .running (by decide)
    have htearing := hpast .tearingDown (by decide)
    cases hthread : controlled.thread <;> simp_all [OnWorklet.looping]
  cases move_step hstep with
  | entered _ _ hset _ =>
    have hreached := (threaded h).reached hset
    exact absurd (OnWorklet.le_trans (by decide) hexiting) hreached.2
  | expired _ =>
    have htask := (suspended h).settled (OnWorklet.le_trans (by decide) hexiting)
    simp [htask]
  | publish hthread _ => exact absurd hthread (hpast .settingUp (by decide))
  | withdraw hthread _ => exact absurd hthread (hpast .closed (by decide))
  | idled hlooping _ | resumed hlooping _ => exact (hloops hlooping).elim
  | _ => rfl

theorem exiting_run (h : system.Reachable controlled) (hexiting : .exiting ≤ controlled.thread)
    {labels : List ControlStep} {last : Controlled}
    (hrun : system.run controlled labels = some last) :
    last.state = controlled.state := by
  have hkept := h.persists
    (P := fun last => .exiting ≤ last.thread ∧ last.state = controlled.state)
    ⟨hexiting, rfl⟩ (fun middle label next hmiddle hbefore hstep => ?_) hrun
  · exact hkept.2
  · exact ⟨OnWorklet.le_trans hbefore.1 (thread_le (threaded hmiddle) hstep),
      (exiting_step hmiddle hbefore.1 hstep).trans hbefore.2⟩

/-- A step leaves the wire alone or is one on it, and which thread makes it shows in where
the thread of the worklet goes. -/
theorem wire_step (hstep : controlled.step label = some next) : next.wire = controlled.wire ∨
    ∃ onWire, controlled.wire.step onWire = some next.wire := by
  cases move_step hstep with
  | abandoned _ hwire | letGo _ hwire | wire _ hwire => exact Or.inr ⟨_, hwire⟩
  | entered _ _ _ _ => exact Or.inl (suspending_wire ..)
  | _ => exact Or.inl rfl

theorem wire_reachable (h : system.Reachable controlled) :
    Wire.system.Reachable controlled.wire := by
  refine h.invariant (I := fun controlled => Wire.system.Reachable controlled.wire) ?_
    fun controlled label next _ hwire hstep => ?_
  · rintro _ ⟨app, toUv, toThread, rfl⟩
    exact .start ⟨toUv, toThread, rfl⟩
  · rcases wire_step hstep with hsame | ⟨onWire, honWire⟩
    · rw [hsame]
      exact hwire
    · exact hwire.next onWire honWire

theorem closed_step (h : system.Reachable controlled)
    (hclosed : .closed ≤ controlled.thread → controlled.wire.queue.uvState = .closed)
    (hstep : controlled.step label = some next) (hthread : .closed ≤ next.thread) :
    next.wire.queue.uvState = .closed := by
  have hkept : .closed ≤ controlled.thread → next.wire.queue.uvState = .closed := by
    intro hbefore
    rcases wire_step hstep with hsame | ⟨onWire, honWire⟩
    · rw [hsame]
      exact hclosed hbefore
    · exact Wire.closed_step (wire_reachable h) (hclosed hbefore) honWire
  cases move_step hstep with
  | started _ => exact absurd hthread (show ¬ OnWorklet.closed ≤ .settingUp by decide)
  | publish _ _ => exact absurd hthread (show ¬ OnWorklet.closed ≤ .published by decide)
  | pass _ => exact absurd hthread (show ¬ OnWorklet.closed ≤ .starting by decide)
  | withdraw hbefore _ | free hbefore => exact hkept (by rw [hbefore]; decide)
  | advance hadvance => exact hkept (hadvance.closed hthread rfl)
  | wire hadvance hwire =>
    rename_i onWire thread wire
    cases hexits : onWire.exits with
    | false => exact hkept (hadvance.closed hthread hexits)
    | true =>
      cases onWire with
      | exit => exact Wire.closed_exit hwire
      | _ => contradiction
  | entered _ _ _ _ =>
    simp only [put, suspending_thread] at hthread
    exact hkept hthread
  | notMade | returned _ | issued _ | abandoning _ | skipped _ _ _ | forwarded _ | left _
  | abandoned _ _ | letGo _ _ | expired _ | idled _ _ | resumed _ _ => exact hkept hthread

theorem closed (h : system.Reachable controlled) (hthread : .closed ≤ controlled.thread) :
    controlled.wire.queue.uvState = .closed := by
  refine h.invariant
    (I := fun controlled => .closed ≤ controlled.thread →
      controlled.wire.queue.uvState = .closed) ?_
    (fun _ _ _ hreach hclosed hstep => closed_step hreach hclosed hstep) hthread
  rintro _ ⟨app, toUv, toThread, rfl⟩ hthread
  exact absurd hthread (show ¬ OnWorklet.closed ≤ .absent by decide)

theorem cut_run (h : system.Reachable controlled) (hcut : controlled.wire.Cut)
    {labels : List ControlStep} {last : Controlled}
    (hrun : system.run controlled labels = some last) :
    last.wire.Cut := by
  refine h.persists (P := fun last => last.wire.Cut) hcut
    (fun middle label next hmiddle hbefore hstep => ?_) hrun
  rcases wire_step hstep with hsame | ⟨onWire, honWire⟩
  · rw [hsame]
    exact hbefore
  · exact hbefore.step (wire_reachable hmiddle) honWire

theorem read_unblocked (h : system.Reachable controlled) (hexiting : .exiting ≤ controlled.thread)
    {len : Nat} (hread : controlled.step (.wire (.ipcRead len)) = some next)
    {labels : List ControlStep} {last : Controlled} (hrun : system.run next labels = some last)
    {ipc : Ipc} {rest : Nat} {blocked : Bool}
    (hheld : last.wire.held = some (.reading rest blocked)) :
    (bareIpcReadPending last.wire.queue ipc rest blocked).result ≠ bareIpcWouldBlock := by
  have hclosed := closed h (OnWorklet.le_trans (by decide) hexiting)
  have hcut : next.wire.Cut := by
    cases move_step hread with
    | wire _ hwire => exact Wire.Cut.read (wire_reachable h) hclosed hwire
  have hnext : system.Reachable next := h.next (.wire (.ipcRead len)) hread
  rw [(cut_run hnext hcut hrun).unblocked rest blocked hheld]
  exact bareIpcReadPending_unblocked _ _ _

end Controlled

/-- Bare is only called while it lives, and once the worklet has exited its host is cut off:
its calls return 0 and change nothing, its reads end and its writes fail. -/
theorem bareWorklet_cut {controlled : Controlled} (h : Controlled.system.Reachable controlled) :
    (.tearingDown ≤ controlled.thread → ∀ n, (controlled.calls n).forwards = false) ∧
    (∀ n issue err, controlled.calls n = .returning issue false err →
      issue.call.terminates = true → issue.started = true → .ran ≤ controlled.thread) ∧
    (.withdrawn ≤ controlled.thread → (∀ task ∈ controlled.begun, task ∈ controlled.ended) ∧
      ∀ labels last, Controlled.system.run controlled labels = some last →
        last.suspensions = controlled.suspensions ∧ last.begun = controlled.begun) ∧
    (∀ n issue forwarded err, controlled.calls n = .returning issue forwarded err →
      issue.exited = true → forwarded = false ∧ err = 0) ∧
    (.exiting ≤ controlled.thread →
      (∀ labels last, Controlled.system.run controlled labels = some last →
        last.state = controlled.state) ∧
      (∀ len next labels last ipc rest blocked,
        controlled.step (.wire (.ipcRead len)) = some next →
        Controlled.system.run next labels = some last →
        last.wire.held = some (.reading rest blocked) →
        (bareIpcReadPending last.wire.queue ipc rest blocked).result ≠ bareIpcWouldBlock) ∧
      ∀ ipc addr data, data ≠ [] →
        (bareIpcWrite controlled.wire.queue ipc addr data).result = bareIpcError) := by
  refine ⟨fun htearing n => ?_, fun n issue err hcall _ hstarted => ?_, fun hover => ⟨?_, ?_⟩,
    fun n issue forwarded err hcall hexited => ?_, fun hexiting => ⟨?_, ?_, ?_⟩⟩
  · by_contra hforwards
    have hreached := Controlled.forwards_reaches h (eq_true_of_ne_false hforwards)
    exact (OnWorklet.reachesBare_iff.mp hreached).2 (OnWorklet.le_trans (by decide) htearing)
  · have hkept := Controlled.kept h n
    rw [hcall] at hkept
    exact (hkept.2 rfl).2 hstarted
  · intro task hmem
    refine ((Controlled.suspended h).tasks task hmem).resolve_right fun hrunning => ?_
    rw [(Controlled.suspended h).settled hover] at hrunning
    contradiction
  · exact fun labels last hrun => Controlled.withdrawn_run h hover hrun
  · have hkept := Controlled.kept h n
    rw [hcall] at hkept
    have hforwarded : forwarded = false := by
      by_contra hforwarded
      rw [hkept.1 (eq_true_of_ne_false hforwarded)] at hexited
      contradiction
    exact ⟨hforwarded, (hkept.2 hforwarded).1⟩
  · exact fun labels last hrun => Controlled.exiting_run h hexiting hrun
  · exact fun len next labels last ipc rest blocked hread hrun hheld =>
      Controlled.read_unblocked h hexiting hread hrun hheld
  · exact fun ipc addr data hdata =>
      bareIpcWrite_closed (Controlled.closed h (OnWorklet.le_trans (by decide) hexiting))
        ipc addr hdata

/-- The worklet has exited with a suspension running. A thread of the host destroys it while
another one suspends it, and it has an ipc that was created since. -/
def Controlled.cutOff : Controlled :=
  Controlled.system.result (.create true Slots.blank Slots.blank)
    [.start true, .onThread, .wire (.openUv (some 0) none), .onThread, .onStart,
      .issue 0 .terminate, .enter 0 true 0, .forwarded 0 0, .leave 0, .issue 1 (.suspend (-1)),
      .enter 1 true 5000, .forwarded 1 0, .onThread, .onThread, .wire .exit, .onThread, .onThread,
      .onThread, .onThread, .issue 2 .destroy, .enter 2 true 0, .issue 0 (.suspend 10),
      .enter 0 true 5000, .wire (.ipcCreate 0 1)] (by decide +kernel)

def Controlled.reading : Controlled :=
  (Controlled.cutOff.step (.wire (.ipcRead 4))).get (by decide +kernel)

theorem bareWorklet_cut_whileDestroyed :
    (∃ forwarded err,
      Controlled.cutOff.calls 0 = .returning ⟨.suspend 10, true, true⟩ forwarded err ∧
      forwarded = false ∧ err = 0) ∧
    OnWorklet.ran ≤ Controlled.cutOff.thread ∧ 0 ∈ Controlled.cutOff.ended ∧
    (bareIpcReadPending Controlled.reading.wire.queue ⟨true, ⟨none, 0⟩, 0⟩ 4 false).result ≠
      bareIpcWouldBlock ∧
    (bareIpcWrite Controlled.cutOff.wire.queue ⟨true, ⟨none, 0⟩, 0⟩ 7 [1]).result =
    bareIpcError := by
  have hcutOff : Controlled.system.Reachable Controlled.cutOff :=
    .result (S := Controlled.system) ⟨_, _, _, rfl⟩ _ _
  obtain ⟨-, hterminated, hover, hexited, hexiting⟩ := bareWorklet_cut hcutOff
  have hcall : Controlled.cutOff.calls 0 = .returning ⟨.suspend 10, true, true⟩ false 0 := by
    decide +kernel
  obtain ⟨-, hread, hwrite⟩ := hexiting (by decide +kernel)
  refine ⟨⟨_, _, hcall, hexited 0 _ _ _ hcall rfl⟩, ?_,
    (hover (by decide +kernel)).1 0 (by decide +kernel), ?_, hwrite _ 7 [1] (by decide)⟩
  · exact hterminated 2 ⟨.destroy, true, true⟩ 0 (by decide +kernel) rfl rfl
  · exact hread 4 Controlled.reading [] Controlled.reading _ 4 false (Option.some_get _).symm rfl
      (by decide +kernel)

end BareKit
