import BareKit.Poll
import BareKit.Standalone

/-! Any number of polls of one ipc. Each has its events and its callback, but all of them share
`ipc->poll`, which a create and a destroy overwrite and a dispatch reads. The lock `running` is
held across a dispatch, so only its callback gets to overwrite it then. -/
namespace BareKit

inductive OnPoll where
  | out
  | startingCb (thread : Thread) (cb : Pointer)
  | startingSignal (thread : Thread)
  | stoppingCb (thread : Thread)
  | destroyingCb (thread : Thread)
  | detaching (thread : Thread)
  | freeing (thread : Thread)
  | freed
  deriving DecidableEq, Repr

/-- Where the thread of the polls is, from the wake that it took to the end of
`bare_ipc__dispatch`. -/
inductive Consult where
  | idle
  | woken
  | locked
  | loadingCb (poll : Nat)
  | loadingEvents (poll : Nat) (cb : Pointer)
  | masking (poll : Nat) (cb : Pointer) (ready : Events)
  | maskingWritable (poll : Nat) (cb : Pointer) (ready : Events)
  | calling (poll : Nat) (cb : Pointer) (ready : Events)
  | running (poll : Nat) (cb : Pointer) (ready : Events)
  deriving DecidableEq, Repr

namespace OnPoll

def destroys : OnPoll → Bool
  | .destroyingCb _ | .detaching _ | .freeing _ | .freed => true
  | _ => false

/-- The destroy of the poll has cleared `ipc->poll`. -/
def detached : OnPoll → Bool
  | .freeing _ | .freed => true
  | _ => false

def returned : OnPoll → Bool
  | .out | .freed => true
  | _ => false

end OnPoll

namespace Consult

def poll : Consult → Option Nat
  | .loadingCb poll | .loadingEvents poll _ | .masking poll _ _ | .maskingWritable poll _ _
  | .calling poll _ _ => some poll
  | _ => none

def holds : Consult → Bool
  | .idle | .woken => false
  | _ => true

def calls : Consult → Bool
  | .running _ _ _ => true
  | _ => false

end Consult

/-- `slot` is `ipc->poll`. Polls are numbered in the order they are created in, and `callback` is
the poll that the callback has called a function of, if it is still in it. -/
structure Polls where
  wire : Wire
  poll : Nat → Poll := fun _ => bareIpcPollCreate
  call : Nat → OnPoll := fun _ => .out
  created : Nat := 0
  slot : Option Nat := none
  dispatch : Consult := .idle
  callback : Option Nat := none

inductive PollsStep where
  /-- A step of the worklet, or of a call on the ipc itself. -/
  | wire (step : Step)
  | create (thread : Thread) (made : Bool)
  | start (thread : Thread) (poll : Nat) (events : Events) (cb : Pointer)
  | stop (thread : Thread) (poll : Nat)
  | destroy (thread : Thread) (poll : Nat)
  /-- The next step of the call on a poll. -/
  | rest (poll : Nat)
  -- The thread of the polls.
  | wake
  | lock
  | loadPoll
  | loadCb
  | loadEvents
  | maskReadable
  | maskWritable
  | call
  | leave

def PollsStep.poll : PollsStep → Option Nat
  | .start _ poll _ _ | .stop _ poll | .destroy _ poll | .rest poll => some poll
  | _ => none

def PollsStep.creates : PollsStep → Bool
  | .create _ _ => true
  | _ => false

namespace Polls

def free (polls : Polls) : Thread → Bool
  | .host => true
  | .poll => polls.dispatch.calls && polls.callback == none

/-- Whether a thread may call a function of a poll: it was created, and nobody else is in a call
on it or has destroyed it. -/
def mayCall (polls : Polls) (thread : Thread) (poll : Nat) : Bool :=
  polls.free thread && decide (poll < polls.created) && polls.call poll == .out

/-- Whether a thread gets the lock `running`. -/
def mayLock (polls : Polls) : Thread → Bool
  | .host => !polls.dispatch.holds
  | .poll => polls.dispatch.calls

def bareIpcSetPoll (polls : Polls) (thread : Thread) (poll : Option Nat) : Option Polls :=
  if polls.mayLock thread then some { polls with slot := poll } else none

def store (polls : Polls) (number : Nat) (poll : Poll) : Polls :=
  { polls with poll := Function.update polls.poll number poll }

def setCall (polls : Polls) (number : Nat) (thread : Thread) (call : OnPoll) : Polls :=
  { polls with
    call := Function.update polls.call number call
    callback :=
      match thread with
      | .host => polls.callback
      | .poll => if call.returned then none else some number }

def storeEvents (polls : Polls) (number : Nat) (thread : Thread) (events : Events) (call : OnPoll) :
    Polls :=
  (polls.store number { polls.poll number with events }).setCall number thread call

def storeCb (polls : Polls) (number : Nat) (thread : Thread) (cb : Option Pointer) (call : OnPoll) :
    Polls :=
  (polls.store number { polls.poll number with cb }).setCall number thread call

def stepRest (polls : Polls) (number : Nat) : OnPoll → Option Polls
  | .startingCb thread cb => some (polls.storeCb number thread (some cb) (.startingSignal thread))
  | .startingSignal thread =>
    some ({ polls with wire := { polls.wire with wakeThread := true } }.setCall number thread .out)
  | .stoppingCb thread => some (polls.storeCb number thread none .out)
  | .destroyingCb thread => some (polls.storeCb number thread none (.detaching thread))
  | .detaching thread =>
    (polls.bareIpcSetPoll thread none).map fun polls =>
      polls.setCall number thread (.freeing thread)
  | .freeing thread => some (polls.setCall number thread .freed)
  | .out | .freed => none

/-- `bare_ipc__on_wake`, and the `bare_ipc__dispatch` in it. -/
def stepDispatch (polls : Polls) : Consult → PollsStep → Option Polls
  | .idle, .wake =>
    (polls.wire.step .takeWake).map fun wire => { polls with wire, dispatch := .woken }
  | .woken, .lock => some { polls with dispatch := .locked }
  | .locked, .loadPoll =>
    some { polls with
      dispatch :=
        match polls.slot with
        | none => .idle
        | some poll => .loadingCb poll }
  | .loadingCb poll, .loadCb =>
    some { polls with
      dispatch :=
        match (polls.poll poll).cb with
        | none => .idle
        | some cb => .loadingEvents poll cb }
  | .loadingEvents poll cb, .loadEvents =>
    some { polls with dispatch := .masking poll cb (polls.poll poll).events }
  | .masking poll cb ready, .maskReadable =>
    polls.wire.ipc.bind fun ipc => (polls.wire.step .dispatch).map fun wire =>
      { polls with
        wire
        dispatch :=
          .maskingWritable poll cb (bareIpcMaskReadable polls.wire.queue ipc ready) }
  | .maskingWritable poll cb ready, .maskWritable =>
    polls.wire.ipc.bind fun ipc => (polls.wire.step .dispatchWritable).map fun wire =>
      { polls with
        wire, dispatch := .calling poll cb (bareIpcMaskWritable polls.wire.queue ipc ready) }
  | .calling poll cb ready, .call =>
    some { polls with dispatch := if ready = Events.none then .idle else .running poll cb ready }
  | .running _ _ _, .leave =>
    if polls.callback = none then some { polls with dispatch := .idle } else none
  | _, _ => none

def step (polls : Polls) (label : PollsStep) : Option Polls :=
  match label with
  | .wire step =>
    if step.ofDispatch then none else (polls.wire.step step).map fun wire => { polls with wire }
  | .create thread made =>
    if polls.free thread ∧ polls.wire.ipc.isSome then
      if made then
        (polls.bareIpcSetPoll thread (some polls.created)).map fun polls =>
          { polls.store polls.created bareIpcPollCreate with created := polls.created + 1 }
      else some polls
    else none
  | .start thread poll events cb =>
    if polls.mayCall thread poll then
      some (polls.storeEvents poll thread events
        (if events = Events.none then .stoppingCb thread else .startingCb thread cb))
    else none
  | .stop thread poll =>
    if polls.mayCall thread poll then
      some (polls.storeEvents poll thread Events.none (.stoppingCb thread))
    else none
  | .destroy thread poll =>
    if polls.mayCall thread poll then
      some (polls.storeEvents poll thread Events.none (.destroyingCb thread))
    else none
  | .rest poll => polls.stepRest poll (polls.call poll)
  | .wake | .lock | .loadPoll | .loadCb | .loadEvents | .maskReadable | .maskWritable | .call
  | .leave => polls.stepDispatch polls.dispatch label

def system : Transition.System Polls PollsStep where
  init polls := ∃ toUv toThread,
    polls = { wire := Wire.ofQueue (bareQueueCreate toUv toThread) }
  step := step

/-- The most recently created poll, unless it has been destroyed. -/
def inUse (polls : Polls) : Option Nat :=
  match polls.created with
  | 0 => none
  | last + 1 => if (polls.call last).destroys then none else some last

/-- No poll is destroyed while a more recently created one is in use. -/
def Settled (polls : Polls) (label : PollsStep) : Prop :=
  match label with
  | .rest poll =>
    match polls.call poll with
    | .detaching _ => polls.inUse = none
    | _ => True
  | _ => True

instance (polls : Polls) (label : PollsStep) : Decidable (polls.Settled label) := by
  unfold Settled
  split
  · split <;> infer_instance
  · infer_instance

/-- What each step finds, and what it leaves. The stores of a call that say nothing of where
polls are kept go together. -/
inductive Move (polls : Polls) : PollsStep → Polls → Prop where
  | wire {step wire} (hstep : polls.wire.step step = some wire) :
    Move polls (.wire step) { polls with wire }
  | create {thread} (hlock : polls.mayLock thread = true) :
    Move polls (.create thread true)
      { polls.store polls.created bareIpcPollCreate with
        slot := some polls.created, created := polls.created + 1 }
  | notMade {thread} : Move polls (.create thread false) polls
  | called {label poll thread events call} (hlabel : label.poll = some poll)
      (hcall : polls.mayCall thread poll = true) (hdetached : call.detached = false) :
    Move polls label (polls.storeEvents poll thread events call)
  | stored {poll thread cb call} (hcall : polls.call poll ≠ .out)
      (hdestroys : call.destroys = (polls.call poll).destroys)
      (hdetached : (polls.call poll).detached = false) (hnext : call.detached = false) :
    Move polls (.rest poll) (polls.storeCb poll thread cb call)
  | signalled {poll thread} (hcall : polls.call poll = .startingSignal thread) :
    Move polls (.rest poll)
      ({ polls with wire := { polls.wire with wakeThread := true } }.setCall poll thread .out)
  | detached {poll thread} (hcall : polls.call poll = .detaching thread)
      (hlock : polls.mayLock thread = true) :
    Move polls (.rest poll) ({ polls with slot := none }.setCall poll thread (.freeing thread))
  | freed {poll thread} (hcall : polls.call poll = .freeing thread) :
    Move polls (.rest poll) (polls.setCall poll thread .freed)
  | loaded {poll} (hslot : polls.slot = some poll) :
    Move polls .loadPoll { polls with dispatch := .loadingCb poll }
  | dispatched {label wire dispatch} (hlabel : label.poll = none ∧ label.creates = false)
      (hsame : dispatch.poll = none ∨ dispatch.poll = polls.dispatch.poll) :
    Move polls label { polls with wire, dispatch }

variable {polls next : Polls} {label : PollsStep}

theorem move_stepRest {number : Nat} {call : OnPoll} (hcall : polls.call number = call)
    (hstep : polls.stepRest number call = some next) : Move polls (.rest number) next := by
  cases call with
  | startingCb _ _ | stoppingCb _ | destroyingCb _ =>
    cases hstep
    exact .stored (by simp [hcall]) (by rw [hcall]; rfl) (by rw [hcall]; rfl) rfl
  | startingSignal _ =>
    cases hstep
    exact .signalled hcall
  | detaching thread =>
    obtain ⟨detached, hslot, rfl⟩ := Option.map_eq_some_iff.mp hstep
    unfold bareIpcSetPoll at hslot
    split at hslot
    · rename_i hlock
      cases hslot
      exact .detached hcall hlock
    · contradiction
  | freeing _ =>
    cases hstep
    exact .freed hcall
  | out | freed => contradiction

theorem move_stepDispatch {dispatch : Consult} (hdispatch : polls.dispatch = dispatch)
    (hstep : polls.stepDispatch dispatch label = some next) : Move polls label next := by
  cases dispatch <;> cases label <;> try contradiction
  case idle.wake =>
    obtain ⟨wire, _, rfl⟩ := Option.map_eq_some_iff.mp hstep
    exact .dispatched ⟨rfl, rfl⟩ (Or.inl rfl)
  case woken.lock =>
    cases hstep
    exact .dispatched ⟨rfl, rfl⟩ (Or.inl rfl)
  case locked.loadPoll =>
    simp only [stepDispatch] at hstep
    split at hstep
    · cases hstep
      exact .dispatched ⟨rfl, rfl⟩ (Or.inl rfl)
    · rename_i poll hslot
      cases hstep
      exact .loaded hslot
  case loadingCb.loadCb poll =>
    cases hstep
    cases (polls.poll poll).cb with
    | none => exact .dispatched ⟨rfl, rfl⟩ (Or.inl rfl)
    | some cb => exact .dispatched ⟨rfl, rfl⟩ (Or.inr (by rw [hdispatch]; rfl))
  case loadingEvents.loadEvents poll cb =>
    cases hstep
    exact .dispatched ⟨rfl, rfl⟩ (Or.inr (by rw [hdispatch]; rfl))
  case masking.maskReadable poll cb ready =>
    obtain ⟨ipc, _, hrest⟩ := Option.bind_eq_some_iff.mp hstep
    obtain ⟨wire, _, rfl⟩ := Option.map_eq_some_iff.mp hrest
    exact .dispatched ⟨rfl, rfl⟩ (Or.inr (by rw [hdispatch]; rfl))
  case maskingWritable.maskWritable poll cb ready =>
    obtain ⟨ipc, _, hrest⟩ := Option.bind_eq_some_iff.mp hstep
    obtain ⟨wire, _, rfl⟩ := Option.map_eq_some_iff.mp hrest
    exact .dispatched ⟨rfl, rfl⟩ (Or.inr (by rw [hdispatch]; rfl))
  case calling.call poll cb ready =>
    cases hstep
    split <;> exact .dispatched ⟨rfl, rfl⟩ (Or.inl rfl)
  case running.leave poll cb ready =>
    simp only [stepDispatch] at hstep
    split at hstep
    · cases hstep
      exact .dispatched ⟨rfl, rfl⟩ (Or.inl rfl)
    · contradiction

theorem move_step (hstep : polls.step label = some next) : Move polls label next := by
  cases label with
  | wire step =>
    simp only [Polls.step] at hstep
    split at hstep
    · contradiction
    · obtain ⟨wire, hwire, rfl⟩ := Option.map_eq_some_iff.mp hstep
      exact .wire hwire
  | create thread made =>
    simp only [Polls.step] at hstep
    split at hstep
    · cases made with
      | false =>
        cases hstep
        exact .notMade
      | true =>
        obtain ⟨attached, hslot, rfl⟩ := Option.map_eq_some_iff.mp hstep
        unfold bareIpcSetPoll at hslot
        split at hslot
        · rename_i hlock
          cases hslot
          exact .create hlock
        · contradiction
    · contradiction
  | start thread poll events cb =>
    simp only [Polls.step] at hstep
    split at hstep
    · rename_i hcall
      cases hstep
      exact .called rfl hcall (by split <;> rfl)
    · contradiction
  | stop _ _ | destroy _ _ =>
    simp only [Polls.step] at hstep
    split at hstep
    · rename_i hcall
      cases hstep
      exact .called rfl hcall rfl
    · contradiction
  | rest poll => exact move_stepRest rfl hstep
  | wake | lock | loadPoll | loadCb | loadEvents | maskReadable | maskWritable | call | leave =>
    exact move_stepDispatch rfl hstep

@[simp] theorem setCall_call_self (number : Nat) (thread : Thread) (call : OnPoll) :
    (polls.setCall number thread call).call number = call := Function.update_self ..

theorem setCall_call_of_ne (thread : Thread) (call : OnPoll) {number other : Nat}
    (hne : other ≠ number) :
    (polls.setCall number thread call).call other = polls.call other := Function.update_of_ne hne ..

theorem inUse_eq_some {number : Nat} : polls.inUse = some number ↔
    polls.created = number + 1 ∧ (polls.call number).destroys = false := by
  unfold inUse
  cases polls.created with
  | zero => simp
  | succ last =>
    rw [Nat.add_right_cancel_iff]
    by_cases hlast : last = number
    · subst hlast
      simp
    · simp [hlast]

/-- A dispatch in progress holds the lock, and a call that has not returned keeps its poll. -/
structure Attached (polls : Polls) : Prop where
  fresh : ∀ poll, polls.created ≤ poll → polls.call poll = .out
  slot : ∀ poll, polls.slot = some poll → (polls.call poll).detached = false
  dispatch : ∀ poll, polls.dispatch.poll = some poll → polls.slot = some poll

theorem mayLock_unused {thread : Thread} (hlock : polls.mayLock thread = true) :
    polls.dispatch.poll = none := by
  cases thread with
  | host | poll =>
    cases hdispatch : polls.dispatch <;> first
      | rfl
      | rw [mayLock, hdispatch] at hlock
        contradiction

theorem Attached.setCall (h : polls.Attached) {number : Nat} {call : OnPoll}
    (hcall : next.call = Function.update polls.call number call)
    (hcreated : next.created = polls.created)
    (hslot : next.slot = polls.slot) (hdispatch : next.dispatch = polls.dispatch)
    (hlt : number < polls.created) (hdetached : call.detached = (polls.call number).detached) :
    next.Attached := by
  constructor
  · intro poll hle
    rw [hcreated] at hle
    rw [hcall, Function.update_of_ne (by omega)]
    exact h.fresh poll hle
  · intro poll hpoll
    rw [hslot] at hpoll
    have hbefore := h.slot poll hpoll
    rw [hcall]
    by_cases heq : poll = number
    · subst heq
      rw [Function.update_self, hdetached]
      exact hbefore
    · rw [Function.update_of_ne heq]
      exact hbefore
  · rw [hdispatch, hslot]
    exact h.dispatch

theorem Attached.created (h : polls.Attached) {number : Nat} (hcall : polls.call number ≠ .out) :
    number < polls.created := by
  by_contra hle
  exact hcall (h.fresh number (Nat.le_of_not_lt hle))

theorem mayCall_spec {thread : Thread} {number : Nat} (hcall : polls.mayCall thread number = true) :
    number < polls.created ∧ polls.call number = .out := by
  simp only [mayCall, Bool.and_eq_true, decide_eq_true_eq, beq_iff_eq] at hcall
  exact ⟨hcall.1.2, hcall.2⟩

theorem Attached.step (h : polls.Attached) (hstep : polls.step label = some next) :
    next.Attached := by
  cases move_step hstep with
  | wire _ => exact ⟨h.fresh, h.slot, h.dispatch⟩
  | create hlock =>
    constructor
    · intro poll hle
      exact h.fresh poll (Nat.le_of_succ_le hle)
    · intro poll hpoll
      cases hpoll
      have hout : polls.call polls.created = .out := h.fresh polls.created (Nat.le_refl _)
      change (polls.call polls.created).detached = false
      rw [hout]
      rfl
    · intro poll hpoll
      have hused : polls.dispatch.poll = some poll := hpoll
      rw [mayLock_unused hlock] at hused
      contradiction
  | notMade => exact h
  | called _ hcall hdetached =>
    obtain ⟨hlt, hout⟩ := mayCall_spec hcall
    exact h.setCall rfl rfl rfl rfl hlt (by rw [hdetached, hout]; rfl)
  | stored hcall _ hdetached hnext =>
    exact h.setCall rfl rfl rfl rfl (h.created hcall) (by rw [hdetached, hnext])
  | signalled hcall =>
    exact h.setCall rfl rfl rfl rfl (h.created (by simp [hcall])) (by rw [hcall]; rfl)
  | freed hcall =>
    exact h.setCall rfl rfl rfl rfl (h.created (by simp [hcall])) (by rw [hcall]; rfl)
  | detached hcall hlock =>
    rename_i number thread
    have hlt : number < polls.created := h.created (by simp [hcall])
    constructor
    · intro poll hle
      have hne : poll ≠ number := by
        rintro rfl
        exact absurd hlt (Nat.not_lt.mpr hle)
      rw [setCall_call_of_ne _ _ hne]
      exact h.fresh poll hle
    · intro poll hpoll
      contradiction
    · intro poll hpoll
      have hused : polls.dispatch.poll = some poll := hpoll
      rw [mayLock_unused hlock] at hused
      contradiction
  | loaded hslot =>
    refine ⟨h.fresh, h.slot, fun poll hpoll => ?_⟩
    cases hpoll
    exact hslot
  | dispatched _ hsame =>
    refine ⟨h.fresh, h.slot, fun poll hpoll => ?_⟩
    rcases hsame with hnone | hsame
    · rw [show _ = none from hnone] at hpoll
      contradiction
    · exact h.dispatch poll (hsame.symm.trans hpoll)

theorem attached (h : system.Reachable polls) : polls.Attached := by
  refine h.invariant (I := Attached) ?_ fun polls label next _ hattached hstep =>
    hattached.step hstep
  rintro polls ⟨toUv, toThread, rfl⟩
  constructor
  · intro poll _
    rfl
  · intro poll hpoll
    contradiction
  · intro poll hpoll
    contradiction

theorem inUse_of_setCall {number : Nat} {call : OnPoll} {poll : Nat} (huse : next.inUse = some poll)
    (hcall : next.call = Function.update polls.call number call)
    (hcreated : next.created = polls.created)
    (hdestroys : (polls.call number).destroys = true → call.destroys = true) :
    polls.inUse = some poll := by
  rw [inUse_eq_some] at huse ⊢
  rw [hcreated, hcall] at huse
  refine ⟨huse.1, ?_⟩
  by_cases heq : poll = number
  · subst heq
    rw [Function.update_self] at huse
    by_contra hbefore
    rw [hdestroys (eq_true_of_ne_false hbefore)] at huse
    exact absurd huse.2 (by decide)
  · rw [Function.update_of_ne heq] at huse
    exact huse.2

theorem inUse_step (huse : ∀ poll, polls.inUse = some poll → polls.slot = some poll)
    (hsettled : polls.Settled label) (hstep : polls.step label = some next) :
    ∀ poll, next.inUse = some poll → next.slot = some poll := by
  intro poll hpoll
  cases move_step hstep with
  | wire _ | notMade | loaded _ | dispatched _ _ => exact huse poll hpoll
  | create _ =>
    rw [inUse_eq_some] at hpoll
    rw [← Nat.add_right_cancel hpoll.1]
  | called _ hcall _ =>
    apply huse
    apply inUse_of_setCall hpoll rfl rfl
    intro hdestroys
    change (polls.call _).destroys = true at hdestroys
    rw [(mayCall_spec hcall).2] at hdestroys
    contradiction
  | stored _ hdestroys _ _ =>
    apply huse
    apply inUse_of_setCall hpoll rfl rfl
    intro hset
    exact hdestroys.trans hset
  | signalled hcall =>
    apply huse
    apply inUse_of_setCall hpoll rfl rfl
    intro hdestroys
    change (polls.call _).destroys = true at hdestroys
    rw [hcall] at hdestroys
    contradiction
  | freed hcall =>
    apply huse
    exact inUse_of_setCall hpoll rfl rfl fun _ => rfl
  | detached hcall _ =>
    have hbefore : polls.inUse = some poll := inUse_of_setCall hpoll rfl rfl fun _ => rfl
    simp only [Settled, hcall] at hsettled
    rw [hsettled] at hbefore
    contradiction

theorem inUse_attached (h : (system.guard Settled).Reachable polls) :
    ∀ poll, polls.inUse = some poll → polls.slot = some poll := by
  refine h.invariant (I := fun polls => ∀ poll, polls.inUse = some poll → polls.slot = some poll) ?_
    fun polls label next _ huse hstep => ?_
  · rintro polls ⟨toUv, toThread, rfl⟩ poll hpoll
    contradiction
  · obtain ⟨hsettled, hnext⟩ := Transition.System.guard_step.mp hstep
    exact inUse_step huse hsettled hnext

/-- A destroy of a poll that was superseded detaches the one in use. -/
theorem superseded_detaches (hsettled : ¬ polls.Settled label)
    (hstep : polls.step label = some next) :
    ∃ poll, next.inUse = some poll ∧ next.slot = none ∧ next.dispatch.poll = none := by
  cases label with
  | rest number =>
    cases hcall : polls.call number <;> simp only [Settled, hcall, not_true_eq_false] at hsettled
    rename_i thread
    obtain ⟨poll, huse⟩ := Option.ne_none_iff_exists'.mp hsettled
    simp only [Polls.step, hcall, stepRest] at hstep
    obtain ⟨detached, hslot, rfl⟩ := Option.map_eq_some_iff.mp hstep
    unfold bareIpcSetPoll at hslot
    split at hslot
    · rename_i hlock
      cases hslot
      refine ⟨poll, ?_, rfl, mayLock_unused hlock⟩
      rw [inUse_eq_some] at huse ⊢
      refine ⟨huse.1, ?_⟩
      have hne : poll ≠ number := by
        rintro rfl
        simp [hcall, OnPoll.destroys] at huse
      rw [setCall_call_of_ne _ _ hne]
      exact huse.2
    · contradiction
  | _ => exact absurd trivial hsettled

def Silent (polls : Polls) : Prop := polls.slot = none ∧ polls.dispatch.poll = none

theorem silent_step (h : polls.Silent) (hlabel : label.creates = false)
    (hstep : polls.step label = some next) : next.Silent := by
  obtain ⟨hslot, hdispatch⟩ := h
  cases move_step hstep with
  | wire _ | notMade | called _ _ _ | stored _ _ _ _ | signalled _ | freed _ =>
    exact ⟨hslot, hdispatch⟩
  | create _ => contradiction
  | detached _ _ => exact ⟨rfl, hdispatch⟩
  | loaded hloaded =>
    rw [hslot] at hloaded
    contradiction
  | dispatched _ hsame =>
    refine ⟨hslot, ?_⟩
    rcases hsame with hnone | hsame
    · exact hnone
    · exact hsame.trans hdispatch

theorem silent_run (h : polls.Silent) {labels : List PollsStep} {last : Polls}
    (hlabels : ∀ label ∈ labels, label.creates = false)
    (hrun : system.run polls labels = some last) :
    last.Silent := by
  induction labels generalizing polls with
  | nil =>
    cases hrun
    exact h
  | cons label rest ih =>
    obtain ⟨next, hstep, hrest⟩ := Option.bind_eq_some_iff.mp hrun
    apply ih (silent_step h (hlabels label List.mem_cons_self) hstep) _ hrest
    intro other hother
    exact hlabels other (List.mem_cons_of_mem label hother)

theorem call_frame {number other : Nat} (hlabel : label.poll = some number)
    (hstep : polls.step label = some next) (hne : other ≠ number) :
    next.poll other = polls.poll other ∧ next.call other = polls.call other ∧
      (polls.wire.wakeThread = true → next.wire.wakeThread = true) := by
  cases move_step hstep with
  | wire _ | create _ | notMade | loaded _ => contradiction
  | dispatched hother _ =>
    rw [hother.1] at hlabel
    contradiction
  | called hcalled _ _ =>
    cases hcalled.symm.trans hlabel
    exact ⟨Function.update_of_ne hne .., Function.update_of_ne hne .., id⟩
  | stored _ _ _ _ =>
    cases hlabel
    exact ⟨Function.update_of_ne hne .., Function.update_of_ne hne .., id⟩
  | signalled _ =>
    cases hlabel
    exact ⟨rfl, Function.update_of_ne hne .., fun _ => rfl⟩
  | detached _ _ | freed _ =>
    cases hlabel
    exact ⟨rfl, Function.update_of_ne hne .., id⟩

end Polls

/-- In a run where no poll is destroyed while a more recently created one is in use, a dispatch
consults the most recently created poll. A destroy that is made nevertheless detaches the poll
in use, which is not called back until another one is created. In every run, calls on a poll
leave the other polls and a pending wake alone, and a dispatch never consults a poll that was
destroyed. -/
theorem bareIpcPoll_inUse (polls : Polls) :
    ((Polls.system.guard Polls.Settled).Reachable polls →
      ∀ poll, polls.inUse = some poll → polls.slot = some poll) ∧
    (∀ label next, Polls.system.Reachable polls → ¬ polls.Settled label →
      polls.step label = some next → ∃ poll, next.inUse = some poll ∧
        ∀ labels last, (∀ label ∈ labels, label.creates = false) →
          Polls.system.run next labels = some last → last.slot = none ∧ last.dispatch.poll = none) ∧
    (Polls.system.Reachable polls →
      (∀ poll, polls.dispatch.poll = some poll → polls.slot = some poll) ∧
      (∀ poll, (polls.call poll).detached = true →
        polls.slot ≠ some poll ∧ polls.dispatch.poll ≠ some poll)) ∧
    ∀ label next poll other, label.poll = some poll → other ≠ poll → polls.step label = some next →
      next.poll other = polls.poll other ∧ next.call other = polls.call other ∧
        (polls.wire.wakeThread = true → next.wire.wakeThread = true) := by
  refine ⟨Polls.inUse_attached, fun label next _ hsettled hstep => ?_, fun h => ?_,
    fun label next poll other hlabel hne hstep => Polls.call_frame hlabel hstep hne⟩
  · obtain ⟨poll, huse, hsilent⟩ := Polls.superseded_detaches hsettled hstep
    exact ⟨poll, huse, fun labels last hlabels hrun => Polls.silent_run hsilent hlabels hrun⟩
  · have hattached := Polls.attached h
    have hslot : ∀ poll, (polls.call poll).detached = true → polls.slot ≠ some poll := by
      intro poll hdetached hsome
      rw [hattached.slot poll hsome] at hdetached
      contradiction
    exact ⟨hattached.dispatch, fun poll hdetached =>
      ⟨hslot poll hdetached, fun hsome => hslot poll hdetached (hattached.dispatch poll hsome)⟩⟩

def Polls.destroyedFirst : Polls :=
  (Polls.system.guard Polls.Settled).result
    { wire := Wire.ofQueue (bareQueueCreate Slots.blank Slots.blank) }
    [.wire (.ipcCreate 0 0), .create .host true, .start .host 0 ⟨true, false⟩ 7, .rest 0, .rest 0,
      .destroy .host 0, .rest 0, .rest 0, .rest 0, .create .host true] (by decide +kernel)

def Polls.superseded : Polls :=
  Polls.system.result { wire := Wire.ofQueue (bareQueueCreate Slots.blank Slots.blank) }
    [.wire (.ipcCreate 0 0), .create .host true, .create .host true,
      .start .host 1 ⟨false, true⟩ 7, .rest 1, .rest 1, .destroy .host 0, .rest 0]
      (by decide +kernel)

def Polls.detachedLast : Polls := (Polls.superseded.step (.rest 0)).get (by decide +kernel)

theorem Polls.superseded_reachable : Polls.system.Reachable Polls.superseded :=
  .result (S := Polls.system) ⟨_, _, rfl⟩ _ _

theorem bareIpcPoll_inUse_superseded :
    Polls.destroyedFirst.slot = some 1 ∧
    (∃ poll, Polls.detachedLast.inUse = some poll ∧ ∀ last,
      Polls.system.run Polls.detachedLast [.wake, .lock, .loadPoll] = some last →
      last.slot = none) ∧
    Polls.detachedLast.slot ≠ some 0 ∧ Polls.detachedLast.poll 1 = Polls.superseded.poll 1 := by
  have hlast : Polls.superseded.step (.rest 0) = some Polls.detachedLast := (Option.some_get _).symm
  obtain ⟨-, hsuperseded, -, hframe⟩ := bareIpcPoll_inUse Polls.superseded
  refine ⟨?_, ?_, ?_, (hframe (.rest 0) _ 0 1 rfl (by decide) hlast).1⟩
  · exact (bareIpcPoll_inUse Polls.destroyedFirst).1
      (.result (S := Polls.system.guard Polls.Settled) ⟨_, _, rfl⟩ _ _) 1 (by decide +kernel)
  · obtain ⟨poll, huse, hsilent⟩ := hsuperseded (.rest 0) Polls.detachedLast
      Polls.superseded_reachable (by decide +kernel) hlast
    exact ⟨poll, huse, fun last hrun => (hsilent _ last (by decide) hrun).1⟩
  · have hdestroyed := (bareIpcPoll_inUse Polls.detachedLast).2.2.1
      (Polls.superseded_reachable.next (.rest 0) hlast)
    exact (hdestroyed.2 0 (by decide +kernel)).1

/-- The poll that was started last is attached no more once the one before it is destroyed. -/
theorem bareIpcPoll_inUse_detachedLast :
    ¬ ∀ polls, Polls.system.Reachable polls →
      ∀ poll, polls.inUse = some poll → polls.slot = some poll := by
  intro hclaim
  have hslot := hclaim Polls.detachedLast
    (Polls.superseded_reachable.next (.rest 0) (Option.some_get _).symm) 1 (by decide +kernel)
  revert hslot
  decide +kernel

end BareKit
