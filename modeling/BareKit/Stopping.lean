import BareKit.Poll

/-! A stop is two stores, made without the lock that is held across a dispatch. Whether
the callback is called after it has returned depends on where a dispatch is then, and on
the starts that it overlaps. -/
namespace BareKit

/-- Between the load of the events and the call, with events left to tell. -/
def Dispatch.armed : Dispatch → Bool
  | .ready _ events | .locked _ events | .unlocked _ events => events != Events.none
  | _ => false

def Dispatch.halfLoaded : Dispatch → Bool
  | .loaded _ => true
  | _ => false

def Dispatch.calling : Dispatch → Bool
  | .running _ _ _ => true
  | _ => false

def Polled.unasked (polled : Polled) : Bool :=
  polled.poll.all fun poll => poll.events == Events.none

/-- `stopped` is whether a stop has returned and no start has begun since, and `late`
whether a callback was called meanwhile. -/
structure Watched extends Polled where
  stopped : Bool := false
  late : Bool := false

def PollStep.stops (label : PollStep) (stopped : Bool) : Bool :=
  match label with
  | .start _ _ => false
  | .stopCb => true
  | _ => stopped

def PollStep.calls : PollStep → Bool
  | .call => true
  | _ => false

namespace Watched

def step (watched : Watched) (label : PollStep) : Option Watched :=
  (watched.toPolled.step label).map fun next =>
    { toPolled := next
      stopped := label.stops watched.stopped
      late := watched.late || watched.stopped && label.calls && next.dispatch.calling }

def system : Transition.System Watched PollStep where
  init watched := ∃ polled, Polled.system.init polled ∧ watched = { toPolled := polled }
  step := step

/-- As a stop makes its last store, no dispatch has events to tell, and there are none to
load, or else no start and no dispatch is halfway. -/
def Settled (watched : Watched) (label : PollStep) : Prop :=
  match label with
  | .stopCb => watched.dispatch.armed = false ∧
      (watched.unasked = true ∨ watched.storing = [] ∧ watched.dispatch.halfLoaded = false)
  | _ => True

instance (watched : Watched) (label : PollStep) : Decidable (watched.Settled label) := by
  unfold Settled
  split <;> infer_instance

variable {watched next : Watched} {label : PollStep}

structure Silent (watched : Watched) : Prop where
  armed : watched.stopped = true → watched.dispatch.armed = false
  unasked : watched.stopped = true → watched.unasked = true ∨
    (watched.poll.bind Poll.cb = none ∧ watched.storing = [] ∧ watched.dispatch.halfLoaded = false)
  late : watched.late = false

theorem Silent.step (h : watched.Silent) (hsettled : watched.Settled label)
    (hstep : watched.step label = some next) : next.Silent := by
  obtain ⟨polled, hpolled, rfl⟩ := Option.map_eq_some_iff.mp hstep
  have hlate : label.calls = false → (watched.late || watched.stopped && label.calls &&
      polled.dispatch.calling) = false := by
    intro hcalls
    simp [h.late, hcalls]
  have hkept : ∀ dispatch : Dispatch, dispatch.halfLoaded = false → watched.stopped = true →
      watched.unasked = true ∨ (watched.poll.bind Poll.cb = none ∧ watched.storing = [] ∧
        dispatch.halfLoaded = false) := by
    intro dispatch hfree hstopped
    exact (h.unasked hstopped).imp id fun hrest => ⟨hrest.1, hrest.2.1, hfree⟩
  have harmed : ∀ cb ready, watched.dispatch = .ready cb ready ∨
      watched.dispatch = .locked cb ready →
      watched.stopped = true → ready = Events.none := by
    rintro cb ready (hdispatch | hdispatch) hstopped <;>
      simpa [hdispatch, Dispatch.armed] using h.armed hstopped
  cases Polled.move_step hpolled with
  | wire _ _ => exact ⟨h.armed, h.unasked, hlate rfl⟩
  | callback hdispatch _ _ =>
    exact ⟨fun _ => rfl, hkept _ rfl, hlate rfl⟩
  | create _ _ => exact ⟨h.armed, fun _ => Or.inl rfl, hlate rfl⟩
  | start _ _ =>
    exact ⟨fun hstopped => by contradiction, fun hstopped => by contradiction, hlate rfl⟩
  | startCb hpoll hstoring =>
    refine ⟨h.armed, fun hstopped => ?_, hlate rfl⟩
    rcases h.unasked hstopped with hnone | ⟨-, hstored, -⟩
    · left
      simpa [Polled.unasked, hpoll] using hnone
    · simp [hstored] at hstoring
  | startSignal _ _ hsignalled =>
    subst hsignalled
    exact ⟨h.armed, h.unasked, hlate rfl⟩
  | stop _ => exact ⟨h.armed, fun _ => Or.inl rfl, hlate rfl⟩
  | stopCb hpoll _ =>
    obtain ⟨hidle, hrest⟩ := hsettled
    refine ⟨fun _ => hidle, fun _ => ?_, hlate rfl⟩
    rcases hrest with hnone | ⟨hstored, hloaded⟩
    · left
      simpa [Polled.unasked, hpoll] using hnone
    · exact Or.inr ⟨rfl, hstored, hloaded⟩
  | wake _ _ =>
    exact ⟨fun _ => rfl, hkept _ rfl, hlate rfl⟩
  | loadNull _ _ =>
    exact ⟨fun _ => rfl, hkept _ rfl, hlate rfl⟩
  | loadCb _ hcb =>
    refine ⟨fun _ => rfl, fun hstopped => ?_, hlate rfl⟩
    rcases h.unasked hstopped with hnone | ⟨hnull, -, -⟩
    · exact Or.inl hnone
    · rw [hcb] at hnull
      contradiction
  | loadEvents hdispatch hpoll =>
    have hloaded : ∀ stopped, watched.stopped = stopped → stopped = true →
        watched.unasked = true := by
      rintro _ rfl hstopped
      refine (h.unasked hstopped).resolve_right fun hrest => ?_
      have hfree := hrest.2.2
      rw [hdispatch] at hfree
      contradiction
    refine ⟨fun hstopped => ?_, fun hstopped => Or.inl (hloaded _ rfl hstopped), hlate rfl⟩
    have hnone := hloaded _ rfl hstopped
    simpa [Polled.unasked, hpoll, Dispatch.armed] using hnone
  | maskReadable hdispatch _ _ =>
    refine ⟨fun hstopped => ?_, hkept _ rfl, hlate rfl⟩
    simp [Dispatch.armed, harmed _ _ (Or.inl hdispatch) hstopped, bareIpcMaskReadable, Events.none]
  | maskWritable hdispatch _ _ =>
    refine ⟨fun hstopped => ?_, hkept _ rfl, hlate rfl⟩
    simp [Dispatch.armed, harmed _ _ (Or.inr hdispatch) hstopped, bareIpcMaskWritable, Events.none]
  | skip _ =>
    exact ⟨fun _ => rfl, hkept _ rfl, by simp [h.late, Dispatch.calling]⟩
  | call hdispatch hready =>
    have hawake : watched.stopped = false := by
      by_contra hstopped
      have hidle := h.armed (eq_true_of_ne_false hstopped)
      simp [hdispatch, Dispatch.armed, hready] at hidle
    refine ⟨fun _ => rfl, fun hstopped => ?_, by simp [h.late, hawake]⟩
    rw [show PollStep.stops .call watched.stopped = watched.stopped from rfl, hawake] at hstopped
    contradiction
  | leave _ =>
    exact ⟨fun _ => rfl, hkept _ rfl, hlate rfl⟩

theorem silent (h : (system.guard Settled).Reachable watched) : watched.Silent := by
  refine h.invariant (I := Silent) ?_ fun watched label next _ hsilent hstep => ?_
  · rintro watched ⟨polled, _, rfl⟩
    exact ⟨fun hstopped => by contradiction, fun hstopped => by contradiction, rfl⟩
  · obtain ⟨hsettled, hnext⟩ := Transition.System.guard_step.mp hstep
    exact hsilent.step hsettled hnext

/-- A dispatch that is about to call back does so, whatever has been stored since. -/
theorem stopCb_late {cb : Pointer} {ready : Events}
    (hdispatch : watched.dispatch = .unlocked cb ready)
    (hready : ready ≠ Events.none) (hstep : watched.step .stopCb = some next) :
    ∃ last, next.step .call = some last ∧ last.late = true := by
  obtain ⟨polled, hpolled, rfl⟩ := Option.map_eq_some_iff.mp hstep
  have hsame : polled.dispatch = .unlocked cb ready := by
    cases Polled.move_step hpolled with
    | stopCb _ _ => exact hdispatch
  refine ⟨_, by simp [Watched.step, Polled.step, Polled.stepDispatch, hsame, hready]; rfl, ?_⟩
  simp [PollStep.stops, PollStep.calls, Dispatch.calling]

end Watched

/-- In a run where every stop that returns finds the poll settled, no callback is called
after it and before the next start. One that returns as a dispatch is about to call back is
followed by that call. -/
theorem bareIpcPollStop_silent (watched : Watched) :
    ((Watched.system.guard Watched.Settled).Reachable watched → watched.late = false) ∧
    ∀ cb ready next, Watched.system.Reachable watched → watched.dispatch = .unlocked cb ready →
      ready ≠ Events.none → watched.step .stopCb = some next →
      ∃ last, next.step .call = some last ∧ last.late = true :=
  ⟨fun h => (Watched.silent h).late, fun _ _ _ _ hdispatch hready hstep =>
    Watched.stopCb_late hdispatch hready hstep⟩

def Watched.halfStopped : Watched :=
  Watched.system.result { wire := Wire.ofQueue (bareQueueCreate Slots.blank Slots.blank) }
    [.wire (.ipcCreate 0 0), .create, .start ⟨false, true⟩ 7, .startCb 7, .startSignal, .wake,
      .loadCb, .loadEvents, .maskReadable, .maskWritable, .stop] (by decide +kernel)

theorem Watched.halfStopped_reachable : Watched.system.Reachable Watched.halfStopped :=
  .result (S := Watched.system) ⟨_, ⟨_, _, rfl⟩, rfl⟩ _ _

def Watched.stoppedFirst : Watched :=
  (Watched.system.guard Watched.Settled).result
    { wire := Wire.ofQueue (bareQueueCreate Slots.blank Slots.blank) }
    [.wire (.ipcCreate 0 0), .create, .start ⟨false, true⟩ 7, .startCb 7, .startSignal, .stop,
      .stopCb, .wake, .loadCb] (by decide +kernel)

theorem bareIpcPollStop_silent_stoppedFirst : Watched.stoppedFirst.late = false ∧
    ∃ next last, Watched.halfStopped.step .stopCb = some next ∧ next.step .call = some last ∧
      last.late = true := by
  constructor
  · exact (bareIpcPollStop_silent Watched.stoppedFirst).1
      (.result (S := Watched.system.guard Watched.Settled) ⟨_, ⟨_, _, rfl⟩, rfl⟩ _ _)
  · obtain ⟨last, hlast⟩ := (bareIpcPollStop_silent Watched.halfStopped).2 7 ⟨false, true⟩ _
      Watched.halfStopped_reachable (by decide +kernel) (by decide) (Option.some_get
        (show (Watched.halfStopped.step .stopCb).isSome by decide +kernel)).symm
    exact ⟨_, last, (Option.some_get _).symm, hlast⟩

/-- The callback is called although the stop has returned. -/
theorem bareIpcPollStop_silent_late :
    ¬ ∀ watched, Watched.system.Reachable watched → watched.late = false := by
  intro hclaim
  have hlate :=
    hclaim (Watched.system.result Watched.halfStopped [.stopCb, .call] (by decide +kernel))
    (Watched.halfStopped_reachable.run (Option.some_get _).symm)
  revert hlate
  decide +kernel

end BareKit
