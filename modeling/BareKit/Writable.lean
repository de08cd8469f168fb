import BareKit.Readable

/-! Whether a poll for writable is called back for as long as the ipc stays writable. The
wake of a dispatch is taken before it, so the callback is called again only if something
signals in between, and having room in the ring signals nothing: only a ring that was
full does, when the worklet drains it. -/
namespace BareKit

namespace Polled

variable {polled next : Polled} {label : PollStep}

def StartedWritable (polled : Polled) : Prop :=
  ∃ poll, polled.poll = some poll ∧ poll.events.writable = true ∧ poll.cb ≠ none

/-- What happened since the last wake was taken, as long as its dispatch has not ended. -/
structure Recorded (polled : Polled) : Prop where
  waking : polled.wire.wakeThread = true ∨ polled.dispatch ≠ .idle → polled.wire.ipc ≠ none
  wakeThread : polled.dispatch ≠ .idle → polled.wire.wakeThread = polled.roused
  writable : polled.dispatch ≠ .idle → polled.stalled = false → polled.wire.hostWritable = true
  stalled : polled.dispatch ≠ .idle → polled.stalled = true →
    polled.wire.hostWritable = false ∨ polled.wire.wakeThread = true ∨ polled.wire.Ending

theorem rouses_worklet {wire : Wire} {step : Step}
    (hworklet : step.ofWorklet = true) (hrouses : wire.rouses step = true) :
    wire.queue.threadState ≠ .idle := by
  have hlistening : bareQueueListening wire.queue.threadState = true := by
    revert hrouses
    cases step <;> simp only [Wire.rouses, Bool.and_eq_true] <;>
      first
      | exact fun h => h.1.1
      | exact fun h => h.1
      | exact id
      | exact fun h => absurd h Bool.false_ne_true
      | contradiction
  revert hlistening
  cases wire.queue.threadState <;> decide

/-- The wake is set exactly by the steps that `rouses` tells. -/
theorem wakeThread_step {wire next : Wire} (hsound : wire.Sound) (hhosted : wire.Hosted)
    (hipc : wire.ipc ≠ none) {step : Step} (hdispatch : step.ofDispatch = false)
    (hstep : wire.step step = some next) :
    next.wakeThread = (wire.wakeThread || wire.rouses step) := by
  cases hworklet : step.ofWorklet with
  | true =>
    rw [(Wire.seen_step hsound.queue hworklet hstep).wakeThread]
    cases hrouses : wire.rouses step with
    | false => rfl
    | true =>
      rw [hhosted.signal (rouses_worklet hworklet hrouses)]
      rfl
  | false =>
    refine (Wire.hosts_step hsound hhosted hipc hworklet ?_ hstep).wakeThread
    rintro rfl
    contradiction

/-- A step that makes the ipc writable signals, or is part of a call that will. -/
theorem hostWritable_step {wire next : Wire} (hsound : wire.Sound) (hhosted : wire.Hosted)
    (hipc : wire.ipc ≠ none) {step : Step} (hdispatch : step.ofDispatch = false)
    (hstep : wire.step step = some next) (hbefore : wire.hostWritable = false)
    (hafter : next.hostWritable = true) : next.wakeThread = true ∨ next.Ending := by
  have hwake := wakeThread_step hsound hhosted hipc hdispatch hstep
  cases hworklet : step.ofWorklet with
  | true =>
    have hseen := Wire.seen_step hsound.queue hworklet hstep
    cases hrouses : wire.rouses step with
    | true =>
      left
      rw [hwake, hrouses, Bool.or_true]
    | false =>
      by_cases hlistening : bareQueueListening wire.queue.threadState = true
      · have hcontra := hseen.hostWritable hrouses hlistening hafter
        simp [hbefore] at hcontra
      · -- the host is closing its end, or has closed it
        have hused : wire.queue.threadState ≠ .idle := hsound.opened hipc
        have hclosed : wire.queue.threadState = .closed := by
          revert hlistening hused
          cases wire.queue.threadState <;> decide
        rcases hhosted.shut hclosed with hclosing | ⟨ipc, hsome, hgone⟩
        · refine Or.inr (Or.inr ?_)
          rw [hseen.held, hclosing]
        · simp [Wire.hostWritable, hsome, hgone] at hbefore
  | false =>
    have htake : step ≠ .takeWake := by
      rintro rfl
      contradiction
    rcases (Wire.hosts_step hsound hhosted hipc hworklet htake hstep).hostWritable hafter with
      hcontra | hending
    · simp [hbefore] at hcontra
    · exact Or.inr hending

theorem ending_step {wire next : Wire} (hsound : wire.Sound) (hhosted : wire.Hosted)
    (hipc : wire.ipc ≠ none) {step : Step} (hdispatch : step.ofDispatch = false)
    (hstep : wire.step step = some next) (hending : wire.Ending) :
    next.Ending ∨ next.wakeThread = true := by
  cases hworklet : step.ofWorklet with
  | true =>
    left
    rw [Wire.Ending, (Wire.seen_step hsound.queue hworklet hstep).held]
    exact hending
  | false =>
    refine (Wire.hosts_step hsound hhosted hipc hworklet ?_ hstep).ending hending
    rintro rfl
    contradiction

theorem waking_step {wire next : Wire} (hsound : wire.Sound) (hhosted : wire.Hosted) {step : Step}
    (hdispatch : step.ofDispatch = false) (hstep : wire.step step = some next)
    (hbefore : wire.wakeThread = true → wire.ipc ≠ none) (hwake : next.wakeThread = true) :
    next.ipc ≠ none := by
  by_cases hipc : wire.ipc = none
  · have hcalm : wire.wakeThread = false := Bool.eq_false_iff.mpr fun h => hbefore h hipc
    have hidle : wire.queue.threadState = .idle :=
      not_not.mp fun hused => hhosted.created hused hipc
    cases hworklet : step.ofWorklet with
    | true =>
      have hseen := Wire.seen_step hsound.queue hworklet hstep
      rw [hseen.wakeThread, hcalm, Bool.false_or, Bool.and_eq_true] at hwake
      exact absurd hidle (rouses_worklet hworklet hwake.1)
    | false =>
      cases Wire.move_step hstep with
      | ipcCreate _ => simp [bareIpcCreate, bareQueueOpenThread, hidle]
      | ipcRead _ hsome _ | ipcReadPending hsome _ | ipcWrite _ hsome | ipcEnd _ hsome _
      | ipcClose _ hsome _
      | ipcEndGone _ hsome _ | ipcCloseGone _ hsome _ | ipcCloseRelease hsome _ | ipcSignal hsome _
      | dispatch _ hsome | dispatchWritable hsome _ => simp [hipc] at hsome
      | _ => contradiction
  · exact Wire.ipc_kept hsound hstep hipc

theorem Recorded.advance (h : polled.Recorded) (hground : polled.Grounded) {step : Step}
    {wire : Wire}
    (hdispatch : step.ofDispatch = false) (hstep : polled.wire.step step = some wire)
    (hbusy : next.dispatch ≠ .idle → polled.dispatch ≠ .idle)
    (hnext : next.wire = wire) (hroused : next.roused = (polled.roused || polled.wire.rouses step))
    (hstalled : next.stalled = (polled.stalled || !wire.hostWritable)) : next.Recorded := by
  subst hnext
  refine ⟨fun hwaking => ?_, fun hnot => ?_, fun hnot hfree => ?_, fun hnot hfull => ?_⟩
  · rcases hwaking with hwake | hnot
    · exact waking_step hground.sound hground.hosted hdispatch hstep
        (fun hwake => h.waking (Or.inl hwake)) hwake
    · exact Wire.ipc_kept hground.sound hstep (h.waking (Or.inr (hbusy hnot)))
  · have hipc := h.waking (Or.inr (hbusy hnot))
    rw [wakeThread_step hground.sound hground.hosted hipc hdispatch hstep, hroused,
      h.wakeThread (hbusy hnot)]
  · rw [hstalled, Bool.or_eq_false_iff] at hfree
    simpa using hfree.2
  · have hipc := h.waking (Or.inr (hbusy hnot))
    cases hafter : next.wire.hostWritable with
    | false => exact Or.inl rfl
    | true =>
      right
      rw [hstalled, hafter, Bool.not_true, Bool.or_false] at hfull
      rcases h.stalled (hbusy hnot) hfull with hbefore | hwake | hending
      · exact hostWritable_step hground.sound hground.hosted hipc hdispatch hstep hbefore hafter
      · left
        rw [wakeThread_step hground.sound hground.hosted hipc hdispatch hstep, hwake, Bool.true_or]
      · exact (ending_step hground.sound hground.hosted hipc hdispatch hstep hending).symm

theorem Recorded.step (h : polled.Recorded) (hground : polled.Grounded)
    (hstep : polled.step label = some next) : next.Recorded := by
  have hcallback : ∀ step : Step, step.ofCallback = true → step.ofDispatch = false := by
    intro step
    cases step <;> first | exact fun _ => rfl | exact fun hfalse => by contradiction
  cases move_step hstep with
  | wire hdispatch hwire => exact h.advance hground hdispatch hwire id rfl rfl rfl
  | callback hrunning hofCallback hwire =>
    have hbusy : polled.dispatch ≠ .idle := by simp [hrunning]
    exact h.advance hground (hcallback _ hofCallback) hwire (fun _ => hbusy) rfl rfl rfl
  | create _ _ => exact ⟨h.waking, h.wakeThread, h.writable, h.stalled⟩
  | start _ _ => exact ⟨h.waking, h.wakeThread, h.writable, h.stalled⟩
  | startCb _ _ => exact ⟨h.waking, h.wakeThread, h.writable, h.stalled⟩
  | startSignal hpoll _ hsignalled =>
    subst hsignalled
    exact ⟨fun _ => hground.attached hpoll, fun _ => rfl, h.writable,
      fun _ _ => Or.inr (Or.inl rfl)⟩
  | stop _ => exact ⟨h.waking, h.wakeThread, h.writable, h.stalled⟩
  | stopCb _ _ => exact ⟨h.waking, h.wakeThread, h.writable, h.stalled⟩
  | wake _ hwake =>
    refine ⟨fun _ => h.waking (Or.inl hwake), fun _ => rfl, fun _ hfree => ?_, fun _ hfull => ?_⟩
    · have hwritable : polled.wire.hostWritable = true := by simpa using hfree
      exact hwritable
    · have hwritable : polled.wire.hostWritable = false := by simpa using hfull
      exact Or.inl hwritable
  | loadNull hwoken _ =>
    refine ⟨fun hwaking => ?_, fun hnot => absurd rfl hnot, fun hnot => absurd rfl hnot,
      fun hnot => absurd rfl hnot⟩
    exact h.waking (Or.inr (by simp [hwoken]))
  | loadCb hwoken _ =>
    have hbusy : polled.dispatch ≠ .idle := by simp [hwoken]
    exact ⟨fun _ => h.waking (Or.inr hbusy), fun _ => h.wakeThread hbusy, fun _ => h.writable hbusy,
      fun _ => h.stalled hbusy⟩
  | loadEvents hloaded _ =>
    have hbusy : polled.dispatch ≠ .idle := by simp [hloaded]
    exact ⟨fun _ => h.waking (Or.inr hbusy), fun _ => h.wakeThread hbusy, fun _ => h.writable hbusy,
      fun _ => h.stalled hbusy⟩
  | maskReadable hready _ hheld =>
    have hbusy : polled.dispatch ≠ .idle := by simp [hready]
    refine ⟨fun _ => h.waking (Or.inr hbusy), fun _ => h.wakeThread hbusy,
      fun _ => h.writable hbusy, fun _ hfull => ?_⟩
    rcases h.stalled hbusy hfull with hbefore | hwake | hending
    · exact Or.inl hbefore
    · exact Or.inr (Or.inl hwake)
    · simp [Wire.Ending, hheld] at hending
  | maskWritable hlocked _ hheld =>
    have hbusy : polled.dispatch ≠ .idle := by simp [hlocked]
    refine ⟨fun _ => h.waking (Or.inr hbusy), fun _ => h.wakeThread hbusy,
      fun _ => h.writable hbusy, fun _ hfull => ?_⟩
    rcases h.stalled hbusy hfull with hbefore | hwake | hending
    · exact Or.inl hbefore
    · exact Or.inr (Or.inl hwake)
    · simp [Wire.Ending, hheld] at hending
  | skip hunlocked =>
    refine ⟨fun hwaking => ?_, fun hnot => absurd rfl hnot, fun hnot => absurd rfl hnot,
      fun hnot => absurd rfl hnot⟩
    exact h.waking (Or.inr (by simp [hunlocked]))
  | call hunlocked _ =>
    have hbusy : polled.dispatch ≠ .idle := by simp [hunlocked]
    exact ⟨fun _ => h.waking (Or.inr hbusy), fun _ => h.wakeThread hbusy, fun _ => h.writable hbusy,
      fun _ => h.stalled hbusy⟩
  | leave hrunning =>
    refine ⟨fun hwaking => ?_, fun hnot => absurd rfl hnot, fun hnot => absurd rfl hnot,
      fun hnot => absurd rfl hnot⟩
    exact h.waking (Or.inr (by simp [hrunning]))

theorem recorded (h : system.Reachable polled) : polled.Recorded := by
  refine h.invariant (I := Recorded) ?_ fun polled label next hreach hrecorded hstep =>
    hrecorded.step (grounded hreach) hstep
  rintro polled ⟨toUv, toThread, rfl⟩
  refine ⟨fun hwaking => ?_, fun hnot => absurd rfl hnot, fun hnot => absurd rfl hnot,
    fun hnot => absurd rfl hnot⟩
  rcases hwaking with hwake | hnot
  · exact absurd hwake Bool.false_ne_true
  · exact absurd rfl hnot

/-- Called again for as long as the ipc is writable: after a callback has returned, a poll
still started for writable has a wake pending if the ipc is writable. -/
def LevelTriggered (polled : Polled) : Prop :=
  polled.StartedWritable → polled.wire.hostWritable = true → polled.wire.wakeThread = true

end Polled

/-- When a callback returns, with no other call on the ipc under way, the poll is called
back again if and only if the ipc was not writable at some moment of its dispatch, or
something other than room in the ring signalled the host meanwhile. -/
theorem bareIpc_poll_writable (polled next : Polled) (h : Polled.system.Reachable polled)
    (hstep : Polled.system.step polled .leave = some next) (hheld : polled.wire.held = none)
    (hstarted : next.StartedWritable) :
    next.LevelTriggered ↔ polled.stalled = true ∨ polled.roused = true := by
  have hrecorded := Polled.recorded h
  have hmove : Polled.Move polled .leave next :=
    Polled.move_step (show polled.step .leave = _ from hstep)
  cases hmove with
  | leave hrunning =>
    have hbusy : polled.dispatch ≠ .idle := by simp [hrunning]
    have hwake := hrecorded.wakeThread hbusy
    constructor
    · intro htriggered
      by_contra hnot
      obtain ⟨hfree, hcalm⟩ := not_or.mp hnot
      have hwritable := hrecorded.writable hbusy (by simpa using hfree)
      have hwoken := htriggered hstarted hwritable
      rw [show polled.wire.wakeThread = true from hwoken] at hwake
      exact hcalm hwake.symm
    · rintro (hfull | hroused) _ hwritable
      · rcases hrecorded.stalled hbusy hfull with hbefore | hwoken | hending
        · have hcontra : polled.wire.hostWritable = true := hwritable
          simp [hbefore] at hcontra
        · exact hwoken
        · simp [Wire.Ending, hheld] at hending
      · exact hwake.trans hroused

def Polled.idleCallback : Polled :=
  Polled.system.result { wire := Wire.ofQueue (bareQueueCreate Slots.blank Slots.blank) }
    [.wire (.openUv none none), .wire (.ipcCreate 0 0), .create, .start ⟨false, true⟩ 1,
      .startCb 1, .startSignal, .wake, .loadCb, .loadEvents, .maskReadable, .maskWritable,
      .call] (by decide +kernel)

theorem Polled.idleCallback_reachable : Polled.system.Reachable Polled.idleCallback :=
  Transition.System.Reachable.result (S := Polled.system) ⟨_, _, rfl⟩ _ _

theorem bareIpc_poll_writable_idleCallback : ∃ next,
    Polled.system.step Polled.idleCallback .leave = some next ∧ next.StartedWritable ∧
      (next.LevelTriggered ↔ Polled.idleCallback.stalled = true ∨
        Polled.idleCallback.roused = true) := by
  refine ⟨{ Polled.idleCallback with dispatch := .idle }, rfl, ?_, ?_⟩
  · exact ⟨⟨⟨false, true⟩, some 1⟩, rfl, rfl, Option.some_ne_none _⟩
  · exact bareIpc_poll_writable Polled.idleCallback _ Polled.idleCallback_reachable rfl
      (by decide +kernel) ⟨⟨⟨false, true⟩, some 1⟩, rfl, rfl, Option.some_ne_none _⟩

theorem bareIpc_poll_writable_not_levelTriggered :
    Polled.system.Reachable Polled.idleCallback ∧ ∃ next,
      Polled.system.step Polled.idleCallback .leave = some next ∧ ¬ next.LevelTriggered := by
  refine ⟨Polled.idleCallback_reachable, { Polled.idleCallback with dispatch := .idle }, rfl, ?_⟩
  intro htriggered
  have hstarted : Polled.StartedWritable { Polled.idleCallback with dispatch := .idle } :=
    ⟨⟨⟨false, true⟩, some 1⟩, rfl, rfl, Option.some_ne_none _⟩
  have hwoken := htriggered hstarted (by decide +kernel)
  exact absurd hwoken (by decide +kernel)

end BareKit
