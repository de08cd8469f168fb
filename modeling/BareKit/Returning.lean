import BareKit.Destroy
import BareKit.Waiting

/-! A destroy on the standalone implementation waits for `ipc->lock`, for the lock of the signal
and for the thread of the poll to end. It gets them all, if the callback under way returns. -/
namespace BareKit

def OnWake.masked : OnWake → Bool
  | .maskingWritable _ _ => true
  | _ => false

namespace Threads

variable {threads : Threads} {thread : Thread}

theorem Ordered.alone (h : threads.Ordered) {stage : Teardown}
    (hstage : threads.teardown thread = some stage)
    (hofIpc : stage.ofIpc = true) {other : Thread}
    (hother : threads.teardown other = some .releasing) :
    other = thread := by
  have hfate := (h.signalled.fate thread).mpr ((any_of_teardown hstage _).trans hofIpc)
  have hsame := (h.signalled.fate other).mpr (any_of_teardown hother _)
  exact Fate.destroying.inj (hsame.symm.trans hfate)

end Threads

namespace Standalone

variable {standalone next : Standalone} {thread : Thread} {label : StandaloneStep}

theorem close_step {stage : Teardown} (hat : stage = .closing ∨ stage = .releasing)
    (hstep : standalone.stepTeardown thread stage = some next) :
    ∃ step wire, (stage = .closing ∧ step = .ipcClose ∨ stage = .releasing ∧ step.ofRest = true) ∧
      standalone.wire.step step = some wire ∧
      next = { if step.signals then standalone.signal else standalone.touchIpc with
        wire }.setTeardown thread
        (some (if wire.held = none then .locking else .releasing)) := by
  rcases hat with rfl | rfl
  · obtain ⟨wire, hwire, rfl⟩ := Option.map_eq_some_iff.mp hstep
    exact ⟨_, wire, Or.inl ⟨rfl, rfl⟩, hwire, rfl⟩
  · obtain ⟨wire, hwire, rfl⟩ := Option.map_eq_some_iff.mp hstep
    refine ⟨_, wire, Or.inr ⟨rfl, ?_⟩, hwire, rfl⟩
    split <;> rfl

theorem toThreads_close (step : Step) :
    (if step.signals then standalone.signal else standalone.touchIpc).toThreads =
      standalone.toThreads := by
  split <;> rfl

/-- Who holds `ipc->lock`. -/
structure Held (standalone : Standalone) : Prop where
  masked : standalone.onWake.masked = true ↔ standalone.wire.held = some .dispatching
  called : standalone.wire.held.any Section.ofCall = true ↔
    standalone.callback = .calling ∨ ∃ thread, standalone.teardown thread = some .releasing
  apart : standalone.callback = .calling → standalone.teardown .host ≠ some .releasing
  released : ∀ thread, standalone.teardown thread = some .releasing →
    standalone.wire.held = some .closing ∨ standalone.wire.held = some .signalling

theorem Held.frame (h : standalone.Held) (hheld : next.wire.held = standalone.wire.held)
    (hmasked : next.onWake.masked = standalone.onWake.masked)
    (hcalling : next.callback = .calling ↔ standalone.callback = .calling)
    (hreleasing : ∀ thread,
      next.teardown thread = some .releasing ↔ standalone.teardown thread = some .releasing) :
      next.Held := by
  obtain ⟨masked, called, apart, released⟩ := h
  constructor <;> simp only [hheld, hmasked, hcalling, hreleasing, ne_eq] <;> assumption

theorem Held.unmasked (h : standalone.Held) (hheld : standalone.wire.held = none) :
    standalone.onWake.masked = false := by
  refine eq_false_of_ne_true fun hmasked => ?_
  simp [h.masked.mp hmasked] at hheld

theorem Held.idle (h : standalone.Held) (hheld : standalone.wire.held = none) :
    standalone.callback ≠ .calling ∧ ∀ thread, standalone.teardown thread ≠ some .releasing := by
  have hnone := h.called
  simp only [hheld, Option.any_none, Bool.false_eq_true, false_iff, not_or, not_exists] at hnone
  exact hnone

theorem held_call (hmasked : standalone.onWake.masked = false)
    (hreleasing : ∀ thread, standalone.teardown thread ≠ some .releasing) {wire : Wire}
    (hheld : wire.held = none ∨ wire.held.any Section.ofCall = true) (hwire : next.wire = wire)
    (honWake : next.onWake = standalone.onWake) (hhost : next.host = standalone.host)
    (hcallback : next.callback = if wire.held = none then .idle else .calling) : next.Held := by
  have hnone : ∀ thread, next.teardown thread ≠ some .releasing := by
    intro thread
    cases thread with
    | host => exact fun hsame => hreleasing .host (hhost.symm.trans hsame)
    | poll =>
      simp only [Threads.teardown, hcallback]
      by_cases hnone : wire.held = none <;> simp [hnone]
  constructor
  · simp only [honWake, hwire, hmasked]
    rcases hheld with hheld | hcall
    · simp [hheld]
    · cases hsection : wire.held with
      | none => simp
      | some held => cases held <;> simp_all [Section.ofCall]
  · rcases hheld with hheld | hcall
    · simp [hwire, hcallback, hheld, hnone]
    · have hsome : wire.held ≠ none := fun hheld => by simp [hheld] at hcall
      simp [hwire, hcallback, hcall, hsome]
  · exact fun _ => hnone .host
  · exact fun thread hthread => absurd hthread (hnone thread)

theorem held_close (hmasked : standalone.onWake.masked = false)
    (hcallback : standalone.callback ≠ .calling)
    (halone : ∀ other, other ≠ thread → standalone.teardown other ≠ some .releasing)
    {threads : Threads}
    (hthreads : threads = standalone.toThreads) {wire : Wire}
    (hheld : wire.held = none ∨ wire.held = some .closing ∨ wire.held = some .signalling)
    (hwire : next.wire = wire)
    (hnext : next.toThreads =
      threads.setTeardown thread (some (if wire.held = none then .locking else .releasing))) :
      next.Held := by
  subst hthreads
  have honWake : next.onWake = standalone.onWake := by
    rw [hnext]
    rfl
  have hcalling : next.callback ≠ .calling := by
    rw [hnext]
    cases thread <;> simp [Threads.setTeardown, hcallback]
  have hself : next.teardown thread = some (if wire.held = none then .locking else .releasing) := by
    rw [hnext, Threads.teardown_setTeardown]
  have hothers : ∀ other, other ≠ thread → next.teardown other ≠ some .releasing := by
    intro other hother
    rw [hnext, Threads.teardown_setTeardown_of_ne hother]
    exact halone other hother
  have hreleasing : (∃ thread, next.teardown thread = some .releasing) ↔ wire.held ≠ none := by
    constructor
    · rintro ⟨other, hother⟩ hnone
      by_cases hsame : other = thread
      · subst hsame
        simp [hself, hnone] at hother
      · exact hothers other hsame hother
    · exact fun hsome => ⟨thread, by simp [hself, hsome]⟩
  constructor
  · simp only [honWake, hmasked, hwire]
    rcases hheld with hheld | hheld | hheld <;> simp [hheld]
  · simp only [hcalling, hreleasing, hwire]
    rcases hheld with hheld | hheld | hheld <;> simp [hheld, Section.ofCall]
  · exact fun hcall => absurd hcall hcalling
  · intro other hother
    rw [hwire]
    exact hheld.resolve_left (hreleasing.mp ⟨other, hother⟩)

theorem Held.setTeardown (h : standalone.Held) {after : Option Teardown}
    (hbefore : standalone.teardown thread ≠ some .releasing)
    (hcalling : thread = .poll → standalone.callback ≠ .calling) (hafter : after ≠ some .releasing)
    {threads : Threads} (hnext : next.toThreads = threads.setTeardown thread after)
    (hhost : threads.host = standalone.host) (hcallback : threads.callback = standalone.callback)
    (honWake : threads.onWake = standalone.onWake) (hwire : next.wire = standalone.wire) :
    next.Held := by
  have hteardown : ∀ other, threads.teardown other = standalone.teardown other := by
    intro other
    cases other with
    | host => exact hhost
    | poll => simp only [Threads.teardown, hcallback]
  apply h.frame
  · rw [hwire]
  · rw [hnext]
    exact congrArg OnWake.masked honWake
  · rw [hnext]
    cases thread with
    | host =>
      show threads.callback = _ ↔ _
      rw [hcallback]
    | poll => cases after <;> simp [Threads.setTeardown, hcalling rfl]
  · intro other
    rw [hnext]
    by_cases hsame : other = thread
    · subst hsame
      rw [Threads.teardown_setTeardown]
      simp [hafter, hbefore]
    · rw [Threads.teardown_setTeardown_of_ne hsame, hteardown]

theorem Held.dispatch (h : standalone.Held) (hmove : Move standalone .dispatch next) :
    next.Held := by
  cases hmove with
  | loadPoll honWake =>
    refine h.frame rfl ?_ Iff.rfl fun _ => Iff.rfl
    rw [honWake]
    simp only
    split <;> rfl
  | loadCb honWake =>
    refine h.frame rfl ?_ Iff.rfl fun _ => Iff.rfl
    rw [honWake]
    simp only
    split <;> rfl
  | loadEvents honWake =>
    refine h.frame rfl ?_ Iff.rfl fun _ => Iff.rfl
    rw [honWake]
    rfl
  | callBack honWake =>
    refine h.frame rfl ?_ Iff.rfl fun _ => Iff.rfl
    rw [honWake]
    simp only
    split <;> rfl
  | mask honWake hwire =>
    cases Wire.move_step hwire with
    | dispatch hheld _ =>
      obtain ⟨hcalling, hreleasing⟩ := h.idle hheld
      constructor <;> simp_all [touchIpc, OnWake.masked, Section.ofCall, Threads.teardown]
  | maskWritable honWake hwire =>
    cases Wire.move_step hwire with
    | dispatchWritable _ hheld =>
      have hcalled := h.called
      simp only [hheld, Option.any_some, Section.ofCall, Bool.false_eq_true, false_iff,
        not_or, not_exists]
        at hcalled
      constructor <;> simp_all [touchIpc, OnWake.masked, Threads.teardown]

theorem Held.call (h : standalone.Held) {step : Step}
    (hstep : standalone.stepCallback (.call step) = some next) : next.Held := by
  simp only [stepCallback] at hstep
  split at hstep
  · rename_i hready
    obtain ⟨wire, hwire, rfl⟩ := Option.map_eq_some_iff.mp hstep
    obtain ⟨hheld, hnext⟩ := Wire.held_call hready.1 hwire
    exact held_call (h.unmasked hheld) (h.idle hheld).2 hnext rfl rfl rfl rfl
  · contradiction

theorem Held.rest (h : standalone.Held) (honWake : standalone.onWake = .running) {step : Step}
    (hstep : standalone.stepCallback (.rest step) = some next) : next.Held := by
  simp only [stepCallback] at hstep
  split at hstep
  · rename_i hready
    obtain ⟨hrest, hcallback⟩ := hready
    obtain ⟨wire, hwire, rfl⟩ := Option.map_eq_some_iff.mp hstep
    obtain ⟨-, hnext, -⟩ := Wire.held_rest hrest hwire
    have hmasked : standalone.onWake.masked = false := by
      rw [honWake]
      rfl
    have hreleasing : ∀ thread, standalone.teardown thread ≠ some .releasing := by
      intro thread
      cases thread with
      | host => exact h.apart hcallback
      | poll => simp [Threads.teardown, hcallback]
    refine held_call hmasked hreleasing (hnext.imp_right fun hsignalling => ?_) rfl rfl rfl rfl
    rw [hsignalling]
    rfl
  · split at hstep <;> rename_i hcallback <;> cases hstep
    · refine h.frame rfl rfl (by simp [hcallback]) fun thread => ?_
      cases thread <;> simp [Threads.teardown, touchPoll, hcallback]
    · refine h.frame rfl rfl (by simp [hcallback]) fun thread => ?_
      cases thread <;> simp [Threads.teardown, signal, touchPoll, touchIpc, touchSignal, hcallback]
    · refine h.frame rfl rfl (by simp [hcallback]) fun thread => ?_
      cases thread <;> simp [Threads.teardown, touchPoll, hcallback]

theorem Held.close (h : standalone.Held) (hordered : standalone.toThreads.Ordered)
    {stage : Teardown}
    (hstage : standalone.teardown thread = some stage) (hat : stage = .closing ∨ stage = .releasing)
    (hstep : standalone.stepTeardown thread stage = some next) : next.Held := by
  obtain ⟨step, wire, hcall, hwire, rfl⟩ := close_step hat hstep
  have halone : ∀ other, other ≠ thread → standalone.teardown other ≠ some .releasing := by
    intro other hother hreleasing
    refine hother (hordered.alone hstage ?_ hreleasing)
    rcases hat with rfl | rfl <;> rfl
  rcases hcall with ⟨rfl, rfl⟩ | ⟨rfl, hrest⟩
  · obtain ⟨hheld, hnext⟩ := Wire.held_close hwire
    exact held_close (h.unmasked hheld) (h.idle hheld).1 halone (toThreads_close _)
      (hnext.imp_right Or.inl)
      rfl rfl
  · obtain ⟨-, hnext, -⟩ := Wire.held_rest hrest hwire
    refine held_close (eq_false_of_ne_true fun hmasked => ?_) (fun hcalling => ?_) halone
      (toThreads_close _)
      (hnext.imp_right Or.inr) rfl rfl
    · rcases h.released thread hstage with hheld | hheld <;> simp [h.masked.mp hmasked] at hheld
    · cases thread with
      | host => exact h.apart hcalling hstage
      | poll => simp [Threads.teardown, hcalling] at hstage

theorem Held.teardown (h : standalone.Held) (hordered : standalone.toThreads.Ordered)
    {stage : Teardown}
    (hstage : standalone.teardown thread = some stage)
    (hstep : standalone.stepTeardown thread stage = some next) : next.Held := by
  by_cases hat : stage = .closing ∨ stage = .releasing
  · exact h.close hordered hstage hat hstep
  · have hcalling : thread = .poll → standalone.callback ≠ .calling := by
      rintro rfl hcalling
      simp [Threads.teardown, hcalling] at hstage
    have hbefore : standalone.teardown thread ≠ some .releasing := fun hreleasing =>
      hat (Or.inr (Option.some.inj (hstage.symm.trans hreleasing)))
    cases tear_step hstep with
    | close hclose _ => exact absurd (hclose.imp_left And.left) hat
    | _ => exact h.setTeardown hbefore hcalling (by simp) rfl rfl rfl rfl rfl

theorem Held.step (h : standalone.Held) (hsafe : standalone.Safe)
    (hstep : standalone.step label = some next) :
    next.Held := by
  cases move_step hstep with
  | worklet hworklet hwire =>
    refine h.frame (Wire.held_worklet hsafe.sound hworklet hwire) ?_ ?_ ?_
    all_goals split
    all_goals first | rfl | exact fun _ => Iff.rfl
  | wake honWake hwire =>
    cases Wire.move_step hwire
    exact h.frame rfl (by rw [honWake]; rfl) Iff.rfl fun _ => Iff.rfl
  | lock honWake _ => exact h.frame rfl (by rw [honWake]; rfl) Iff.rfl fun _ => Iff.rfl
  | check honWake =>
    refine h.frame rfl ?_ Iff.rfl fun _ => Iff.rfl
    rw [honWake]
    simp only
    split <;> rfl
  | loadPoll _ | loadCb _ | loadEvents _ | mask _ _ | maskWritable _ _ | callBack _ =>
    exact h.dispatch (move_step hstep)
  | unlock honWake | finish honWake | leave honWake _ =>
    exact h.frame rfl (by rw [honWake]; rfl) Iff.rfl fun _ => Iff.rfl
  | onClose honWake _ => exact h.frame rfl (by rw [honWake]; rfl) Iff.rfl fun _ => Iff.rfl
  | call honWake _ _ _ =>
    simp only [Standalone.step, honWake, if_true] at hstep
    exact h.call hstep
  | rest honWake _ _ | startCb honWake _ | startSignal honWake _ | stopCb honWake _ =>
    simp only [Standalone.step, honWake, if_true] at hstep
    exact h.rest honWake hstep
  | start honWake hidle _ =>
    rename_i events cb _
    by_cases hnone : events = Events.none
    · refine h.frame rfl rfl (by simp [hidle, hnone]) fun thread => ?_
      cases thread <;> simp [Threads.teardown, touchPoll, hidle, hnone]
    · refine h.frame rfl rfl (by simp [hidle, hnone]) fun thread => ?_
      cases thread <;> simp [Threads.teardown, touchPoll, hidle, hnone]
  | stop honWake hidle _ =>
    refine h.frame rfl rfl (by simp [hidle]) fun thread => ?_
    cases thread <;> simp [Threads.teardown, touchPoll, hidle]
  | pollDestroy hmay _ | ipcDestroy hmay _ _ =>
    refine h.setTeardown (by simp [(teardown_of_mayCall hmay).1]) ?_ (by simp) rfl rfl rfl rfl rfl
    rintro rfl hcalling
    simp [mayCall, hcalling] at hmay
  | teardown hstage _ =>
    simp only [Standalone.step, hstage, Option.bind_some] at hstep
    exact h.teardown hsafe.ordered hstage hstep

theorem held (h : system.Reachable standalone) : standalone.Held := by
  apply h.invariant
  · rintro initial ⟨wire, poll, -, -, hheld, rfl⟩
    have hidle : ∀ thread, Threads.teardown {} thread = none := by
      intro thread
      cases thread <;> rfl
    constructor <;> simp [hheld, OnWake.masked, hidle]
  · intro standalone label next hreach hheld hstep
    exact hheld.step (safe hreach) hstep

end Standalone

def OnWake.ahead : OnWake → Nat
  | .exited => 0
  | .finishing => 1
  | .waiting => 2
  | .unlocking => 3
  | .running => 4
  | .calling _ _ => 5
  | .maskingWritable _ _ => 6
  | .masking _ _ => 7
  | .loadingEvents _ => 8
  | .loadingCb => 9
  | .loadingPoll => 10
  | .checking => 11
  | .locking => 12

def Teardown.ahead : Teardown → Nat
  | .stopping => 6
  | .stoppingCb => 5
  | .pollLocking => 4
  | .detaching => 3
  | .pollUnlocking => 2
  | .pollFreeing => 1
  | .closing => 11
  | .releasing => 8
  | .locking => 7
  | .clearing => 6
  | .unlocking => 5
  | .sending => 4
  | .leaving => 3
  | .signalFreeing => 2
  | .freeing => 1

def Activity.ahead : Activity → Nat
  | .idle => 0
  | .calling | .startingSignal | .stoppingCb => 1
  | .startingCb _ => 2
  | .tearing teardown => teardown.ahead

namespace Threads

variable {threads : Threads} {thread : Thread}

def ahead (threads : Threads) : Nat :=
  threads.onWake.ahead + threads.callback.ahead + threads.host.elim 0 Teardown.ahead

theorem ahead_setTeardown {stage : Teardown} (hstage : threads.teardown thread = some stage)
    (after : Option Teardown) :
    (threads.setTeardown thread after).ahead + stage.ahead =
      threads.ahead + after.elim 0 Teardown.ahead := by
  cases thread with
  | host =>
    have hhost : threads.host = some stage := hstage
    simp only [ahead, setTeardown, hhost, Option.elim]
    omega
  | poll =>
    have hcallback : threads.callback = .tearing stage := by
      cases hcallback : threads.callback <;> simp [teardown, hcallback] at hstage
      rw [hstage]
    cases after <;> simp only [ahead, setTeardown, hcallback, Activity.ahead, Option.elim] <;> omega

end Threads

namespace Standalone

variable {standalone next : Standalone} {thread : Thread} {label : StandaloneStep}

def ahead (standalone : Standalone) : Nat := standalone.toThreads.ahead + standalone.wire.ahead

/-- A step of what is under way: no new call, and no new wake. -/
def goesOn : StandaloneStep → Bool
  | .lock | .check | .dispatch | .unlock | .onClose | .finish | .rest _ | .leave | .teardown _ =>
    true
  | _ => false

/-- No destroy is under way, and the loop waits to be woken or has ended. -/
def Settled (standalone : Standalone) : Prop :=
  (∀ thread, standalone.teardown thread = none) ∧
    (standalone.onWake = .exited ∨ standalone.onWake = .waiting ∧ standalone.close = false)

theorem ahead_tear {stage : Teardown} (hstage : standalone.teardown thread = some stage)
    (hstep : standalone.stepTeardown thread stage = some next) : next.ahead < standalone.ahead := by
  by_cases hat : stage = .closing ∨ stage = .releasing
  · obtain ⟨step, wire, hcall, hwire, rfl⟩ := close_step hat hstep
    have hpaid : wire.ahead + Teardown.ahead (if wire.held = none then .locking else .releasing) <
        standalone.wire.ahead + stage.ahead := by
      rcases hcall with ⟨rfl, rfl⟩ | ⟨rfl, hrest⟩
      · obtain ⟨hheld, hnext⟩ := Wire.held_close hwire
        rcases hnext with hnext | hnext <;>
          simp [Wire.ahead, hheld, hnext, Teardown.ahead, Section.ahead]
      · obtain ⟨-, -, hlt⟩ := Wire.held_rest hrest hwire
        split <;> simp only [Teardown.ahead] <;> omega
    have hset :=
      Threads.ahead_setTeardown hstage (some (if wire.held = none then .locking else .releasing))
    simp only [Option.elim] at hset
    simp only [ahead, setTeardown, toThreads_close]
    omega
  · have hset (threads : Threads) (hthreads : threads.teardown thread = some stage)
        (hahead : threads.ahead = standalone.toThreads.ahead) (after : Option Teardown)
        (hafter : after.elim 0 Teardown.ahead < stage.ahead) :
        (threads.setTeardown thread after).ahead + standalone.wire.ahead < standalone.ahead := by
      have hpaid := Threads.ahead_setTeardown hthreads after
      simp only [ahead]
      omega
    cases tear_step hstep with
    | close hclose _ => exact absurd (hclose.imp_left And.left) hat
    | _ =>
      apply hset
      · cases thread <;> exact hstage
      · rfl
      · decide

theorem ahead_dispatch (hmove : Move standalone .dispatch next) :
    next.ahead < standalone.ahead := by
  cases hmove with
  | loadPoll honWake =>
    simp only [ahead, Threads.ahead, touchIpc, honWake]
    split <;> simp only [OnWake.ahead] <;> omega
  | loadCb honWake =>
    simp only [ahead, Threads.ahead, touchPoll, honWake]
    split <;> simp only [OnWake.ahead] <;> omega
  | loadEvents honWake =>
    simp only [ahead, Threads.ahead, touchPoll, honWake, OnWake.ahead]
    omega
  | callBack honWake =>
    simp only [ahead, Threads.ahead, honWake]
    split <;> simp only [OnWake.ahead] <;> omega
  | mask honWake hwire =>
    cases Wire.move_step hwire with
    | dispatch hheld _ =>
      simp only [ahead, Threads.ahead, touchIpc, Wire.ahead, honWake, hheld,
        OnWake.ahead, Option.elim, Section.ahead]
      omega
  | maskWritable honWake hwire =>
    cases Wire.move_step hwire with
    | dispatchWritable _ hheld =>
      simp only [ahead, Threads.ahead, touchIpc, Wire.ahead, honWake, hheld,
        OnWake.ahead, Option.elim, Section.ahead]
      omega

theorem ahead_rest {step : Step} (hstep : standalone.stepCallback (.rest step) = some next) :
    next.ahead < standalone.ahead := by
  simp only [stepCallback] at hstep
  split at hstep
  · rename_i hready
    obtain ⟨hrest, hcallback⟩ := hready
    obtain ⟨wire, hwire, rfl⟩ := Option.map_eq_some_iff.mp hstep
    obtain ⟨-, -, hlt⟩ := Wire.held_rest hrest hwire
    simp only [ahead, Threads.ahead, signal, touchIpc, touchSignal, hcallback]
    split <;> simp only [Activity.ahead] <;> omega
  · split at hstep <;> rename_i hcallback <;> cases hstep
    · simp only [ahead, Threads.ahead, touchPoll, hcallback, Activity.ahead]
      omega
    · simp only [ahead, Threads.ahead, signal, touchPoll, touchIpc, touchSignal, hcallback,
        Activity.ahead, Wire.ahead]
      omega
    · simp only [ahead, Threads.ahead, touchPoll, hcallback, Activity.ahead]
      omega

theorem ahead_step (hgoes : goesOn label = true) (hstep : standalone.step label = some next) :
    next.ahead < standalone.ahead := by
  cases move_step hstep with
  | lock honWake _ | unlock honWake | onClose honWake _ | finish honWake | leave honWake _ =>
    simp only [ahead, Threads.ahead, touchSignal, honWake, OnWake.ahead]
    omega
  | check honWake =>
    simp only [ahead, Threads.ahead, touchSignal, honWake]
    split <;> simp only [OnWake.ahead] <;> omega
  | loadPoll _ | loadCb _ | loadEvents _ | mask _ _ | maskWritable _ _ | callBack _ =>
    exact ahead_dispatch (move_step hstep)
  | rest honWake _ _ | startCb honWake _ | startSignal honWake _ | stopCb honWake _ =>
    simp only [Standalone.step, honWake, if_true] at hstep
    exact ahead_rest hstep
  | teardown hstage _ =>
    simp only [Standalone.step, hstage, Option.bind_some] at hstep
    exact ahead_tear hstage hstep
  | _ => cases hgoes

def Goes (standalone : Standalone) : Prop :=
  ∃ label next, goesOn label = true ∧ standalone.step label = some next

theorem goes_of (label : StandaloneStep) (hgoes : goesOn label = true)
    (hstep : (standalone.step label).isSome) :
    standalone.Goes := by
  obtain ⟨next, hnext⟩ := Option.isSome_iff_exists.mp hstep
  exact ⟨label, next, hgoes, hnext⟩

theorem held_goes (h : standalone.Held) (hsafe : standalone.Safe)
    (hheld : standalone.wire.held ≠ none) :
    standalone.Goes := by
  obtain ⟨ipc, hpresent⟩ := Option.ne_none_iff_exists'.mp hsafe.present
  by_cases hcall : standalone.wire.held.any Section.ofCall = true
  · rcases h.called.mp hcall with hcallback | ⟨thread, hreleasing⟩
    · obtain ⟨step, hrest, hsome⟩ := Wire.rest_goes hsafe.present hcall
      have hrunning := hsafe.ordered.locked.callback (by simp [hcallback])
      apply goes_of (.rest step) rfl
      simpa [Standalone.step, stepCallback, hrunning, hrest, hcallback] using hsome
    · apply goes_of (.teardown thread) rfl
      rcases h.released thread hreleasing with hsection | hsection <;>
        simp [Standalone.step, hreleasing, stepTeardown, stepClose, hsection, Wire.step,
          Wire.stepHeld, hpresent]
  · have hdispatching : standalone.wire.held = some .dispatching := by
      cases hsection : standalone.wire.held with
      | none => exact absurd hsection hheld
      | some held => cases held <;> simp_all [Section.ofCall]
    have hmasked := h.masked.mpr hdispatching
    apply goes_of .dispatch rfl
    cases honWake : standalone.onWake <;> simp [honWake, OnWake.masked] at hmasked
    simp [Standalone.step, stepDispatch, honWake, hpresent, hdispatching, Wire.step, Wire.stepHeld]

theorem teardown_goes (h : standalone.Held) (hsafe : standalone.Safe)
    (hfree : standalone.wire.held = none)
    {stage : Teardown} (hstage : standalone.teardown thread = some stage)
    (hlock : stage = .pollLocking ∨ stage = .locking → (standalone.running.lock thread).isSome)
    (hleave : stage = .leaving → thread = .host → standalone.onWake = .exited) :
    standalone.Goes := by
  have hgoes (hsome : (standalone.stepTeardown thread stage).isSome) : standalone.Goes :=
    goes_of (.teardown thread) rfl (by simpa [Standalone.step, hstage] using hsome)
  obtain ⟨ipc, hpresent⟩ := Option.ne_none_iff_exists'.mp hsafe.present
  apply hgoes
  cases stage with
  | closing =>
    simp only [stepTeardown, stepClose, Option.isSome_map, Wire.step, Wire.lock, hfree, hpresent,
      Option.bind_some, Wire.stepIpc]
    split <;> rfl
  | releasing =>
    have hheld := h.released thread hstage
    simp [hfree] at hheld
  | pollLocking | locking => simpa [stepTeardown] using hlock (by simp)
  | leaving =>
    cases thread with
    | host => simp [stepTeardown, hleave rfl rfl]
    | poll => rfl
  | _ => rfl

theorem host_goes (h : standalone.Held) (hsafe : standalone.Safe)
    (hfree : standalone.wire.held = none)
    (hunlocked : standalone.onWake.locked = false) {stage : Teardown}
    (hstage : standalone.host = some stage)
    (hleave : stage = .leaving → standalone.onWake = .exited) : standalone.Goes := by
  have hhost : standalone.teardown .host = some stage := hstage
  refine teardown_goes h hsafe hfree hhost (fun _ => ?_) fun hleaving _ => hleave hleaving
  apply RecursiveMutex.lock_isSome
  intro other hlevel
  cases other with
  | host => rfl
  | poll =>
    have hrunning : standalone.onWake ≠ .running := fun hrunning => by
      simp [hrunning, OnWake.locked] at hunlocked
    have hidle := Threads.teardown_of_idle (hsafe.ordered.idle hrunning)
    rw [hsafe.ordered.locked.level] at hlevel
    simp [Threads.sections, hunlocked, hidle] at hlevel

theorem callback_goes (h : standalone.Held) (hsafe : standalone.Safe)
    (hfree : standalone.wire.held = none)
    (hrunning : standalone.onWake = .running) : standalone.Goes := by
  have hrest (hsome : (standalone.stepCallback (.rest .ipcSignal)).isSome) : standalone.Goes :=
    goes_of (.rest .ipcSignal) rfl (by simpa [Standalone.step, hrunning] using hsome)
  cases hcallback : standalone.callback with
  | idle => exact goes_of .leave rfl (by simp [Standalone.step, stepCallback, hrunning, hcallback])
  | calling => exact absurd hcallback (h.idle hfree).1
  | startingCb _ | startingSignal | stoppingCb => exact hrest (by simp [stepCallback, hcallback])
  | tearing stage =>
    have hstage : standalone.teardown .poll = some stage := by simp [Threads.teardown, hcallback]
    refine teardown_goes h hsafe hfree hstage (fun _ => ?_) fun _ hhost => by cases hhost
    apply RecursiveMutex.lock_isSome
    intro other hlevel
    apply RecursiveMutex.exclusive hlevel
    rw [hsafe.ordered.locked.level]
    simp only [Threads.sections, hrunning, OnWake.locked, Bool.toNat_true]
    omega

theorem lock_goes (h : standalone.Held) (hsafe : standalone.Safe)
    (hfree : standalone.wire.held = none)
    (hlocking : standalone.onWake = .locking) : standalone.Goes := by
  by_cases hlocked : standalone.host.any Teardown.locked = true
  · obtain ⟨stage, hstage⟩ := Option.isSome_iff_exists.mp (Option.isSome_of_any hlocked)
    rw [hstage] at hlocked
    refine host_goes h hsafe hfree (by rw [hlocking]; rfl) hstage ?_
    rintro rfl
    cases hlocked
  · apply goes_of .lock rfl
    simp only [Standalone.step, hlocking, if_true, Option.isSome_map]
    apply RecursiveMutex.lock_isSome
    intro other hlevel
    cases other with
    | poll => rfl
    | host =>
      rw [hsafe.ordered.locked.level] at hlevel
      simp [Threads.sections, hlocked] at hlevel

theorem settled_or_goes (h : standalone.Held) (hsafe : standalone.Safe)
    (hfree : standalone.wire.held = none)
    (honWake : standalone.onWake = .exited ∨ standalone.onWake = .waiting ∧
      standalone.close = false) :
    standalone.Settled ∨ standalone.Goes := by
  have hunlocked : standalone.onWake.locked = false := by
    rcases honWake with honWake | ⟨honWake, -⟩ <;> rw [honWake] <;> rfl
  cases hhost : standalone.host with
  | none =>
    refine Or.inl ⟨fun thread => ?_, honWake⟩
    cases thread with
    | host => exact hhost
    | poll =>
      have hrunning : standalone.onWake ≠ .running := fun hrunning => by
        simp [hrunning, OnWake.locked] at hunlocked
      exact Threads.teardown_of_idle (hsafe.ordered.idle hrunning)
  | some stage =>
    refine Or.inr (host_goes h hsafe hfree hunlocked hhost ?_)
    rintro rfl
    refine honWake.resolve_right fun hopen => ?_
    have hclose :=
      hsafe.ordered.looped.close.mpr (Or.inr (Threads.either_of_host (Threads.any_of_host hhost _)))
    simp [hopen.2] at hclose

theorem goes (h : system.Reachable standalone) : standalone.Settled ∨ standalone.Goes := by
  have hsafe := safe h
  by_cases hfree : standalone.wire.held = none
  · have hdispatch (hsome : (standalone.stepDispatch standalone.onWake).isSome) :
        standalone.Settled ∨ standalone.Goes := Or.inr (goes_of .dispatch rfl hsome)
    obtain ⟨ipc, hpresent⟩ := Option.ne_none_iff_exists'.mp hsafe.present
    cases honWake : standalone.onWake with
    | waiting =>
      cases hclose : standalone.close with
      | true => exact Or.inr (goes_of .onClose rfl (by simp [Standalone.step, honWake, hclose]))
      | false => exact settled_or_goes (held h) hsafe hfree (Or.inr ⟨honWake, hclose⟩)
    | exited => exact settled_or_goes (held h) hsafe hfree (Or.inl honWake)
    | locking => exact Or.inr (lock_goes (held h) hsafe hfree honWake)
    | checking => exact Or.inr (goes_of .check rfl (by simp [Standalone.step, honWake]))
    | loadingPoll | loadingCb | loadingEvents _ | calling _ _ =>
      exact hdispatch (by simp [stepDispatch, honWake])
    | masking _ _ =>
      exact hdispatch
        (by simp [stepDispatch, honWake, hpresent, Wire.step, Wire.lock, hfree, Wire.stepIpc])
    | maskingWritable _ _ =>
      have hunmasked := (held h).unmasked hfree
      simp [honWake, OnWake.masked] at hunmasked
    | running => exact Or.inr (callback_goes (held h) hsafe hfree honWake)
    | unlocking => exact Or.inr (goes_of .unlock rfl (by simp [Standalone.step, honWake]))
    | finishing => exact Or.inr (goes_of .finish rfl (by simp [Standalone.step, honWake]))
  · exact Or.inr (held_goes (held h) hsafe hfree)

def DoomedBy (thread : Thread) (standalone : Standalone) : Prop :=
  standalone.ipcFate = .destroying thread ∨ standalone.ipcFate = .destroyed thread

theorem doomed_step (h : standalone.Safe) (hdoomed : standalone.DoomedBy thread)
    (hstep : standalone.step label = some next) : next.DoomedBy thread := by
  cases move_step hstep with
  | worklet _ _ => split <;> exact hdoomed
  | ipcDestroy _ _ halive => simp [DoomedBy, halive] at hdoomed
  | teardown hstage htear =>
    cases htear with
    | close _ _ => split <;> exact hdoomed
    | free =>
      have hfate := (h.ordered.signalled.fate _).mpr (Threads.any_of_teardown hstage _)
      rcases hdoomed with hdestroying | hdestroyed
      · exact Or.inr (congrArg Fate.destroyed (Fate.destroying.inj (hfate.symm.trans hdestroying)))
      · simp [hdestroyed] at hfate
    | _ => exact hdoomed
  | _ => exact hdoomed

theorem Settled.destroyed (h : standalone.Settled) (hsafe : standalone.Safe)
    (hdoomed : standalone.DoomedBy thread) :
    standalone.ipcFate = .destroyed thread ∧ standalone.signalFrees = [thread] := by
  obtain ⟨hnone, honWake⟩ := h
  have hdestroyed : standalone.ipcFate = .destroyed thread := by
    refine hdoomed.resolve_left fun hdestroying => ?_
    have hstage := (hsafe.ordered.signalled.fate thread).mp hdestroying
    simp [hnone] at hstage
  have hclose : standalone.close = true :=
    hsafe.ordered.looped.close.mpr (Or.inl (by rw [hdestroyed]; rfl))
  have hexited := honWake.resolve_right fun hopen => by simp [hclose] at hopen
  exact ⟨hdestroyed, hsafe.ordered.signalFrees_destroyed hdestroyed fun _ => hexited⟩

end Standalone

/-- However the threads are scheduled, without new calls and wakes there is an end, and there nobody
waits for a lock or for the loop: an ipc that was being destroyed is, with its signal. -/
theorem bareIpc_destroy_joins {standalone last : Standalone}
    (h : Standalone.system.Reachable standalone)
    {labels : List StandaloneStep}
    (hrun : (Standalone.system.guard fun _ label => Standalone.goesOn label = true).run
      standalone labels =
      some last) :
    labels.length + last.ahead ≤ standalone.ahead ∧ (last.Settled ∨ last.Goes) ∧
      (last.Settled → ∀ thread, standalone.ipcFate = .destroying thread →
        last.ipcFate = .destroyed thread ∧ last.signalFrees = [thread]) := by
  have hdrains : labels.length + last.ahead ≤ standalone.ahead ∧ (last.Settled ∨ last.Goes) := by
    apply h.drains _ _ hrun
    · intro standalone label next _ hgoes hstep
      exact Standalone.ahead_step hgoes hstep
    · intro standalone hreach
      exact Standalone.goes hreach
  refine ⟨hdrains.1, hdrains.2, fun hsettled thread hfate => ?_⟩
  have hlast : Standalone.system.Reachable last := h.run_guard hrun
  have hdoomed : last.DoomedBy thread :=
    h.persists_guard (Or.inl hfate)
      (fun _ _ _ hreach hdoomed _ hstep => Standalone.doomed_step (Standalone.safe hreach)
        hdoomed hstep) hrun
  exact hsettled.destroyed (Standalone.safe hlast) hdoomed

def Standalone.destroying : Standalone :=
  Standalone.system.result Standalone.written
    (.flatten [[.pollDestroy .host], .replicate 6 (.teardown .host), [.ipcDestroy .host]])
    (by decide +kernel)

def StandaloneStep.join : List StandaloneStep :=
  .flatten [.replicate 7 (.teardown .host), [.onClose, .finish], .replicate 3 (.teardown .host)]

def Standalone.destroyedThere : Standalone :=
  (Standalone.system.guard fun _ label => Standalone.goesOn label = true).result
    Standalone.destroying
    StandaloneStep.join (by decide +kernel)

theorem bareIpc_destroy_joins_unwoken :
    12 + Standalone.destroyedThere.ahead ≤ Standalone.destroying.ahead ∧
      Standalone.destroyedThere.signalFrees = [.host] := by
  have hreach : Standalone.system.Reachable Standalone.destroying :=
    .result (S := Standalone.system) Standalone.written_init _ _
  have hrun := (Standalone.system.guard fun _ label => Standalone.goesOn label = true).run_result
    Standalone.destroying StandaloneStep.join (by decide +kernel)
  have hsettled : Standalone.destroyedThere.Settled := by
    refine ⟨fun thread => ?_, Or.inl (by decide +kernel)⟩
    cases thread <;> decide +kernel
  obtain ⟨hle, -, hdestroyed⟩ := bareIpc_destroy_joins hreach hrun
  exact ⟨hle, (hdestroyed hsettled .host (by decide +kernel)).2⟩

end BareKit
