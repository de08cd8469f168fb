import BareKit.Apple

/-! A destroy on Apple platforms waits for its turn on the queue of the signal, for `ipc->lock` and
for the cancel handler. It gets them all, if the callback under way returns. -/
namespace BareKit

namespace Section

def ofCall : Section → Bool
  | .dispatching => false
  | _ => true

def ahead : Section → Nat
  | .reading _ _ | .closing => 2
  | .signalling => 1
  | .dispatching => 0

end Section

namespace Wire

variable {wire next : Wire} {step : Step}

def ahead (wire : Wire) : Nat := wire.held.elim 0 Section.ahead

theorem held_worklet (hsound : wire.Sound) (hworklet : step.ofWorklet = true)
    (hstep : wire.step step = some next) :
    next.held = wire.held :=
  (seen_step hsound.queue hworklet hstep).held

theorem held_call (hcall : step.ofCallback = true) (hstep : wire.step step = some next) :
    wire.held = none ∧ (next.held = none ∨ next.held.any Section.ofCall = true) := by
  cases move_step hstep with
  | ipcRead hheld _ _ => exact ⟨hheld, Or.inr rfl⟩
  | ipcWrite hheld _ => exact ⟨hheld, Or.inl hheld⟩
  | ipcEnd hheld _ _ | ipcClose hheld _ _ => exact ⟨hheld, Or.inr rfl⟩
  | ipcEndGone hheld _ _ | ipcCloseGone hheld _ _ => exact ⟨hheld, Or.inl hheld⟩
  | _ => cases hcall

theorem held_close (hstep : wire.step .ipcClose = some next) :
    wire.held = none ∧ (next.held = none ∨ next.held = some .closing) := by
  cases move_step hstep with
  | ipcClose hheld _ _ => exact ⟨hheld, Or.inr rfl⟩
  | ipcCloseGone hheld _ _ => exact ⟨hheld, Or.inl hheld⟩

theorem held_rest (hrest : step.ofRest = true) (hstep : wire.step step = some next) :
    wire.held.any Section.ofCall = true ∧ (next.held = none ∨ next.held = some .signalling) ∧
      next.ahead < wire.ahead := by
  cases move_step hstep with
  | ipcReadPending _ hheld =>
    rename_i ipc len blocked _
    by_cases hsignal : (bareIpcReadPending wire.queue ipc len blocked).signal = true <;>
      simp [ahead, hheld, hsignal, Section.ofCall, Section.ahead]
  | ipcCloseRelease _ hheld => simp [ahead, hheld, Section.ofCall, Section.ahead]
  | ipcSignal _ hheld => simp [ahead, hheld, Section.ofCall, Section.ahead]
  | _ => cases hrest

theorem rest_goes (hipc : wire.ipc ≠ none) (hheld : wire.held.any Section.ofCall = true) :
    ∃ step, step.ofRest = true ∧ (wire.step step).isSome := by
  obtain ⟨ipc, hipc⟩ := Option.ne_none_iff_exists'.mp hipc
  cases hsection : wire.held with
  | none => simp [hsection] at hheld
  | some held =>
    cases held with
    | reading len blocked =>
      exact ⟨.ipcReadPending, rfl, by simp [Wire.step, stepHeld, hipc, hsection]⟩
    | closing => exact ⟨.ipcCloseRelease, rfl, by simp [Wire.step, stepHeld, hipc, hsection]⟩
    | signalling => exact ⟨.ipcSignal, rfl, by simp [Wire.step, stepHeld, hipc, hsection]⟩
    | dispatching => simp [hsection, Section.ofCall] at hheld

end Wire

def OnEvent.masked : OnEvent → Bool
  | .maskingWritable _ _ => true
  | _ => false

def Doom.releasing : Doom IpcRemoval → Bool
  | .destroying _ .releasing => true
  | _ => false

theorem Doom.releasing_iff {doom : Doom IpcRemoval} :
    doom.releasing = true ↔ ∃ thread, doom = .destroying thread .releasing := by
  cases doom with
  | destroying thread stage => cases stage <;> simp [releasing]
  | alive | destroyed _ => simp [releasing]

namespace Apple

variable {apple next : Apple} {thread : Thread} {label : AppleStep}

/-- Who holds `ipc->lock`. -/
structure Locked (apple : Apple) : Prop where
  masked : apple.handler.masked = true ↔ apple.wire.held = some .dispatching
  called : apple.wire.held.any Section.ofCall = true ↔
    apple.callback = .calling ∨ apple.ipcDoom.releasing = true
  apart : apple.callback = .calling → apple.ipcDoom.releasing = false
  released : apple.ipcDoom.releasing = true →
    apple.wire.held = some .closing ∨ apple.wire.held = some .signalling

theorem Locked.frame (h : apple.Locked) (hheld : next.wire.held = apple.wire.held)
    (hmasked : next.handler.masked = apple.handler.masked)
    (hcalling : next.callback = .calling ↔ apple.callback = .calling)
    (hreleasing : next.ipcDoom.releasing = apple.ipcDoom.releasing) : next.Locked := by
  obtain ⟨masked, called, apart, released⟩ := h
  constructor <;> simp only [hheld, hmasked, hcalling, hreleasing] <;> assumption

theorem Locked.unmasked (h : apple.Locked) (hheld : apple.wire.held = none) :
    apple.handler.masked = false := by
  refine eq_false_of_ne_true fun hmasked => ?_
  simp [h.masked.mp hmasked] at hheld

theorem Locked.idle (h : apple.Locked) (hheld : apple.wire.held = none) :
    apple.callback ≠ .calling ∧ apple.ipcDoom.releasing = false := by
  have hnone := h.called
  simp only [hheld, Option.any_none, Bool.false_eq_true, false_iff, not_or] at hnone
  exact ⟨hnone.1, eq_false_of_ne_true hnone.2⟩

theorem locked_call (hmasked : apple.handler.masked = false)
    (hreleasing : apple.ipcDoom.releasing = false) {wire : Wire}
    (hheld : wire.held = none ∨ wire.held.any Section.ofCall = true) (hwire : next.wire = wire)
    (hhandler : next.handler = apple.handler) (hdoom : next.ipcDoom = apple.ipcDoom)
    (hcallback : next.callback = if wire.held = none then .idle else .calling) : next.Locked := by
  constructor
  · simp only [hhandler, hwire, hmasked]
    rcases hheld with hnone | hcall
    · simp [hnone]
    · cases hsection : wire.held <;> simp_all [Section.ofCall]
      rintro rfl
      cases hcall
  · rcases hheld with hnone | hcall
    · simp [hwire, hcallback, hdoom, hnone, hreleasing]
    · have hsome : wire.held ≠ none := fun hnone => by simp [hnone] at hcall
      simp [hwire, hcallback, hdoom, hcall, hsome]
  · exact fun _ => hdoom ▸ hreleasing
  · simp [hdoom, hreleasing]

theorem Locked.dispatch (h : apple.Locked) (hmove : Move apple .dispatch next) : next.Locked := by
  cases hmove with
  | loadPoll hhandler =>
    refine h.frame rfl ?_ Iff.rfl rfl
    rw [hhandler]
    simp only
    split <;> rfl
  | loadCb hhandler =>
    refine h.frame rfl ?_ Iff.rfl rfl
    rw [hhandler]
    simp only
    split <;> rfl
  | loadEvents hhandler =>
    refine h.frame rfl ?_ Iff.rfl rfl
    rw [hhandler]
    rfl
  | callBack hhandler =>
    refine h.frame rfl ?_ Iff.rfl rfl
    rw [hhandler]
    simp only
    split <;> rfl
  | mask hhandler hwire =>
    cases Wire.move_step hwire with
    | dispatch hheld _ =>
      obtain ⟨hcalling, hreleasing⟩ := h.idle hheld
      constructor <;> simp_all [touchIpc, OnEvent.masked, Section.ofCall]
  | maskWritable hhandler hwire =>
    cases Wire.move_step hwire with
    | dispatchWritable _ hheld =>
      have hcalled := h.called
      simp only [hheld, Option.any_some, Section.ofCall, Bool.false_eq_true, false_iff, not_or]
        at hcalled
      constructor <;> simp_all [touchIpc, OnEvent.masked]

theorem locked_close (hmasked : apple.handler.masked = false)
    (hcallback : apple.callback ≠ .calling) {wire : Wire}
    (hheld : wire.held = none ∨ wire.held = some .closing ∨ wire.held = some .signalling)
    (hwire : next.wire = wire) (hhandler : next.handler = apple.handler)
    (hcall : next.callback = apple.callback)
    (hdoom : next.ipcDoom = .destroying thread (if wire.held = none then .checking
      else .releasing)) :
    next.Locked := by
  rcases hheld with hheld | hheld | hheld
  · constructor <;> simp [hwire, hhandler, hcall, hdoom, hheld, hmasked, hcallback, Doom.releasing]
  · constructor <;>
      simp [hwire, hhandler, hcall, hdoom, hheld, hmasked, hcallback, Doom.releasing,
        Section.ofCall]
  · constructor <;>
      simp [hwire, hhandler, hcall, hdoom, hheld, hmasked, hcallback, Doom.releasing,
        Section.ofCall]

theorem Locked.ipcTear (h : apple.Locked) {stage : IpcRemoval}
    (hdoom : apple.ipcDoom = .destroying thread stage)
    (htear : IpcTear apple thread stage next) : next.Locked := by
  cases htear with
  | close hat hwire =>
    rename_i step wire
    have hserial :
        (if step.signals then apple.signal else apple.touchIpc).toSerial = apple.toSerial := by
      split <;> rfl
    have hhandler :
        (if step.signals then apple.signal else apple.touchIpc).handler = apple.handler :=
      congrArg Serial.handler hserial
    have hcall :
        (if step.signals then apple.signal else apple.touchIpc).callback = apple.callback :=
      congrArg Serial.callback hserial
    have hclose (hmasked : apple.handler.masked = false) (hcallback : apple.callback ≠ .calling)
        (hheld : wire.held = none ∨ wire.held = some .closing ∨ wire.held = some .signalling) :
        Locked ({ if step.signals then apple.signal else apple.touchIpc with wire }.toIpc thread
          (if wire.held = none then .checking else .releasing)) :=
      locked_close hmasked hcallback hheld rfl hhandler hcall rfl
    rcases hat with ⟨rfl, rfl⟩ | ⟨rfl, hrest⟩
    · obtain ⟨hheld, hnext⟩ := Wire.held_close hwire
      exact hclose (h.unmasked hheld) (h.idle hheld).1 (hnext.imp_right Or.inl)
    · have hreleasing : apple.ipcDoom.releasing = true := by rw [hdoom]; rfl
      obtain ⟨-, hnext, -⟩ := Wire.held_rest hrest hwire
      refine hclose (eq_false_of_ne_true fun hmasked => ?_) (fun hcalling => ?_)
        (hnext.imp_right Or.inr)
      · rcases h.released hreleasing with hheld | hheld <;> simp [h.masked.mp hmasked] at hheld
      · simp [h.apart hcalling] at hreleasing
  | check hstage =>
    have hbefore : apple.ipcDoom.releasing = false := by rw [hdoom]; rfl
    rcases hstage with ⟨rfl, -⟩ | ⟨rfl, -⟩ <;> exact h.frame rfl rfl Iff.rfl hbefore.symm
  | cancel hstage =>
    have hbefore : apple.ipcDoom.releasing = false := by rw [hdoom]; rfl
    rcases hstage with ⟨rfl, -⟩ | ⟨rfl, -⟩ <;> exact h.frame rfl rfl Iff.rfl hbefore.symm
  | watch | await _ | signalFree | free =>
    have hbefore : apple.ipcDoom.releasing = false := by rw [hdoom]; rfl
    exact h.frame rfl rfl Iff.rfl hbefore.symm

theorem Locked.step (h : apple.Locked) (hsafe : apple.Safe) (hstep : apple.step label = some next) :
    next.Locked := by
  have hmove := move_step hstep
  cases hmove with
  | worklet hworklet hwire =>
    refine h.frame (Wire.held_worklet hsafe.sound hworklet hwire) ?_ ?_ ?_
    all_goals split <;> rfl
  | event hidle hcancelled hwire =>
    cases Wire.move_step hwire
    exact h.frame rfl (by rw [hidle]; rfl) Iff.rfl rfl
  | loadPoll _ | loadCb _ | loadEvents _ | mask _ _ | maskWritable _ _ | callBack _ =>
    exact h.dispatch (move_step hstep)
  | acknowledge _ _ => exact h.frame rfl rfl Iff.rfl rfl
  | call hcall hfree hdoom hwire =>
    obtain ⟨hheld, hnext⟩ := Wire.held_call hcall hwire
    exact locked_call (h.unmasked hheld) (h.idle hheld).2 hnext rfl rfl rfl rfl
  | rest hrest hcallback hwire =>
    obtain ⟨-, hnext, -⟩ := Wire.held_rest hrest hwire
    obtain ⟨hhandler, -⟩ := hsafe.inCall (by simp [hcallback])
    refine locked_call (by rw [hhandler]; rfl) (h.apart hcallback) ?_ rfl rfl rfl rfl
    exact hnext.imp_right fun hsignalling => by rw [hsignalling]; rfl
  | startCb hcallback | startSignal hcallback | stopCb hcallback =>
    exact h.frame rfl rfl (by simp [hcallback]) rfl
  | start hfree hdoom =>
    obtain ⟨-, hcallback, -⟩ := Serial.free_iff.mp hfree
    refine h.frame rfl rfl ?_ rfl
    simp only [hcallback]
    split <;> simp
  | stop hfree hdoom =>
    obtain ⟨-, hcallback, -⟩ := Serial.free_iff.mp hfree
    exact h.frame rfl rfl (by simp [hcallback]) rfl
  | leave hfree =>
    obtain ⟨hhandler, -⟩ := Serial.free_iff.mp hfree
    exact h.frame rfl (by rw [hhandler]; rfl) Iff.rfl rfl
  | pollDestroy _ _ => exact h.frame rfl rfl Iff.rfl rfl
  | ipcDestroy _ _ halive => exact h.frame rfl rfl Iff.rfl (by rw [halive]; rfl)
  | onPollDestroy _ htear => cases htear <;> exact h.frame rfl rfl Iff.rfl rfl
  | onIpcDestroy hdoom htear => exact h.ipcTear hdoom htear

theorem locked (h : system.Reachable apple) : apple.Locked := by
  apply h.invariant
  · rintro initial ⟨wire, poll, -, -, hheld, rfl⟩
    constructor <;> simp [hheld, OnEvent.masked, Doom.releasing]
  · intro apple label next hreach hlocked hstep
    exact hlocked.step (safe hreach) hstep

end Apple

def IpcRemoval.watched : IpcRemoval → Bool
  | .cancelling | .awaiting | .signalFreeing | .freeing => true
  | _ => false

namespace Apple

variable {apple next : Apple} {thread : Thread} {label : AppleStep}

structure Staged (apple : Apple) : Prop where
  watched : ∀ stage, apple.ipcDoom = .destroying .host stage → stage.watched = true →
    apple.watched = true
  hosted : ∀ thread, apple.ipcDoom = .destroying thread .awaiting → thread = .host

theorem Staged.frame (h : apple.Staged) (hdoom : next.ipcDoom = apple.ipcDoom)
    (hwatched : next.watched = apple.watched) : next.Staged := by
  obtain ⟨watched, hosted⟩ := h
  constructor <;> simp only [hdoom, hwatched] <;> assumption

theorem staged_of {stage : IpcRemoval} (hdoom : next.ipcDoom = .destroying thread stage)
    (hwatched : thread = .host → stage.watched = true → next.watched = true)
    (hhosted : stage = .awaiting → thread = .host) : next.Staged := by
  constructor
  · intro other hother hpast
    obtain ⟨hthread, hstage⟩ := Doom.destroying.inj (hdoom.symm.trans hother)
    exact hwatched hthread (hstage ▸ hpast)
  · intro other hother
    obtain ⟨hthread, hstage⟩ := Doom.destroying.inj (hdoom.symm.trans hother)
    exact hthread ▸ hhosted hstage

theorem Staged.ipcTear (h : apple.Staged) {stage : IpcRemoval}
    (hdoom : apple.ipcDoom = .destroying thread stage)
    (htear : IpcTear apple thread stage next) : next.Staged := by
  have hkept (hpast : stage.watched = true) (hthread : thread = .host) : apple.watched = true :=
    h.watched stage (hthread ▸ hdoom) hpast
  cases htear with
  | close _ _ =>
    refine staged_of rfl ?_ ?_
    · split <;> simp [IpcRemoval.watched]
    · split <;> simp
  | check hstage =>
    rcases hstage with ⟨rfl, rfl⟩ | ⟨rfl, rfl⟩
    · exact staged_of rfl (by simp [IpcRemoval.watched]) nofun
    · exact staged_of rfl nofun nofun
  | watch => exact staged_of rfl (fun _ _ => rfl) nofun
  | cancel hstage =>
    rcases hstage with ⟨rfl, rfl⟩ | ⟨rfl, rfl⟩
    · exact staged_of rfl (fun hthread _ => hkept rfl hthread) fun _ => rfl
    · exact staged_of rfl nofun nofun
  | await _ | signalFree => exact staged_of rfl (fun hthread _ => hkept rfl hthread) nofun
  | free => exact ⟨nofun, nofun⟩

theorem Staged.step (h : apple.Staged) (hstep : apple.step label = some next) : next.Staged := by
  cases move_step hstep with
  | worklet _ _ => split <;> exact h.frame rfl rfl
  | ipcDestroy _ _ _ => exact staged_of rfl (by simp [IpcRemoval.watched]) nofun
  | onPollDestroy _ htear => cases htear <;> exact h.frame rfl rfl
  | onIpcDestroy hdoom htear => exact h.ipcTear hdoom htear
  | _ => exact h.frame rfl rfl

theorem staged (h : system.Reachable apple) : apple.Staged := by
  apply h.invariant
  · rintro initial ⟨wire, poll, -, -, -, rfl⟩
    exact ⟨nofun, nofun⟩
  · intro apple label next _ hstaged hstep
    exact hstaged.step hstep

end Apple

def OnEvent.ahead : OnEvent → Nat
  | .idle => 0
  | .running => 1
  | .calling _ _ => 2
  | .maskingWritable _ _ => 3
  | .masking _ _ => 4
  | .loadingEvents _ => 5
  | .loadingCb => 6
  | .loadingPoll => 7

def Errand.ahead : Errand → Nat
  | .idle => 0
  | .calling | .startingSignal | .stoppingCb => 1
  | .startingCb _ => 2

def PollRemoval.ahead : PollRemoval → Nat
  | .stopping => 5
  | .stoppingCb => 4
  | .entering => 3
  | .detaching => 2
  | .freeing => 1

def IpcRemoval.ahead : IpcRemoval → Nat
  | .closing => 10
  | .releasing => 7
  | .checking => 6
  | .watching => 5
  | .cancelling => 4
  | .awaiting => 3
  | .signalFreeing => 2
  | .freeing => 1

def Doom.ahead {stage : Type} (doom : Doom stage) (f : stage → Nat) : Nat :=
  match doom with
  | .destroying _ stage => f stage
  | _ => 0

namespace Apple

variable {apple next : Apple} {thread : Thread} {label : AppleStep}

def ahead (apple : Apple) : Nat :=
  apple.handler.ahead + apple.callback.ahead + apple.pollDoom.ahead PollRemoval.ahead +
    apple.ipcDoom.ahead IpcRemoval.ahead + apple.wire.ahead + (!apple.acknowledged).toNat

/-- A step of what is under way: no new call, and no new event. -/
def goesOn (apple : Apple) : AppleStep → Bool
  | .dispatch | .leave | .rest _ | .onPollDestroy | .onIpcDestroy => true
  | .acknowledge => !apple.acknowledged
  | _ => false

/-- The handler has returned, and no destroy is under way. -/
def Settled (apple : Apple) : Prop :=
  apple.handler = .idle ∧ (∀ thread stage, apple.pollDoom ≠ .destroying thread stage) ∧
    ∀ thread stage, apple.ipcDoom ≠ .destroying thread stage

theorem ahead_dispatch (hmove : Move apple .dispatch next) : next.ahead < apple.ahead := by
  cases hmove with
  | loadPoll hhandler =>
    simp only [ahead, touchIpc, hhandler]
    split <;> simp only [OnEvent.ahead] <;> omega
  | loadCb hhandler =>
    simp only [ahead, touchPoll, hhandler]
    split <;> simp only [OnEvent.ahead] <;> omega
  | loadEvents hhandler =>
    simp only [ahead, touchPoll, hhandler, OnEvent.ahead]
    omega
  | callBack hhandler =>
    simp only [ahead, hhandler]
    split <;> simp only [OnEvent.ahead] <;> omega
  | mask hhandler hwire =>
    cases Wire.move_step hwire with
    | dispatch hheld _ =>
      simp only [ahead, touchIpc, Wire.ahead, hhandler, hheld, OnEvent.ahead, Option.elim,
        Section.ahead]
      omega
  | maskWritable hhandler hwire =>
    cases Wire.move_step hwire with
    | dispatchWritable _ hheld =>
      simp only [ahead, touchIpc, Wire.ahead, hhandler, hheld, OnEvent.ahead, Option.elim,
        Section.ahead]
      omega

theorem ahead_pollTear {stage : PollRemoval} (hdoom : apple.pollDoom = .destroying thread stage)
    (htear : PollTear apple thread stage next) : next.ahead < apple.ahead := by
  cases htear <;>
    simp only [ahead, toPoll, signal, touchPoll, touchIpc, touchSignal, hdoom, Doom.ahead,
      PollRemoval.ahead] <;>
    omega

theorem ahead_ipcTear {stage : IpcRemoval} (hdoom : apple.ipcDoom = .destroying thread stage)
    (htear : IpcTear apple thread stage next) : next.ahead < apple.ahead := by
  cases htear with
  | close hat hwire =>
    rename_i step wire
    have hserial :
        (if step.signals then apple.signal else apple.touchIpc).toSerial = apple.toSerial := by
      split <;> rfl
    have hpaid :
        wire.ahead + IpcRemoval.ahead (if wire.held = none then .checking else .releasing) <
        apple.wire.ahead + stage.ahead := by
      rcases hat with ⟨rfl, rfl⟩ | ⟨rfl, hrest⟩
      · obtain ⟨hheld, hnext⟩ := Wire.held_close hwire
        rcases hnext with hnext | hnext <;>
          simp [Wire.ahead, hheld, hnext, IpcRemoval.ahead, Section.ahead]
      · obtain ⟨-, -, hlt⟩ := Wire.held_rest hrest hwire
        split <;> simp only [IpcRemoval.ahead] <;> omega
    simp only [ahead, toIpc, hserial, hdoom, Doom.ahead]
    omega
  | check hstage | cancel hstage =>
    rcases hstage with ⟨rfl, -⟩ | ⟨rfl, -⟩ <;>
      simp only [ahead, toIpc, signal, touchIpc, touchSignal, hdoom, Doom.ahead,
        IpcRemoval.ahead] <;>
      omega
  | watch | await _ | signalFree | free =>
    simp only [ahead, toIpc, touchIpc, touchSignal, hdoom, Doom.ahead, IpcRemoval.ahead]
    omega

theorem ahead_step (hgoes : apple.goesOn label = true) (hstep : apple.step label = some next) :
    next.ahead < apple.ahead := by
  have hmove := move_step hstep
  cases hmove with
  | loadPoll _ | loadCb _ | loadEvents _ | mask _ _ | maskWritable _ _ | callBack _ =>
    exact ahead_dispatch (move_step hstep)
  | acknowledge _ _ =>
    simp only [goesOn, Bool.not_eq_true'] at hgoes
    simp [ahead, hgoes]
  | rest hrest hcallback hwire =>
    obtain ⟨-, -, hlt⟩ := Wire.held_rest hrest hwire
    simp only [ahead, signal, touchIpc, touchSignal, hcallback]
    split <;> simp only [Errand.ahead] <;> omega
  | startCb hcallback | stopCb hcallback =>
    simp only [ahead, touchPoll, hcallback, Errand.ahead]
    omega
  | startSignal hcallback =>
    simp only [ahead, signal, touchPoll, touchIpc, touchSignal, hcallback, Errand.ahead, Wire.ahead]
    omega
  | leave hfree =>
    obtain ⟨hhandler, -⟩ := Serial.free_iff.mp hfree
    simp only [ahead, hhandler, OnEvent.ahead]
    omega
  | onPollDestroy hdoom htear => exact ahead_pollTear hdoom htear
  | onIpcDestroy hdoom htear => exact ahead_ipcTear hdoom htear
  | _ => cases hgoes

def Goes (apple : Apple) : Prop := ∃ label next, apple.goesOn label = true ∧
    apple.step label = some next

theorem goes_of (label : AppleStep) (hgoes : apple.goesOn label = true)
    (hstep : (apple.step label).isSome) :
    apple.Goes := by
  obtain ⟨next, hnext⟩ := Option.isSome_iff_exists.mp hstep
  exact ⟨label, next, hgoes, hnext⟩

theorem held_goes (h : apple.Locked) (hipc : apple.wire.ipc ≠ none)
    (hheld : apple.wire.held ≠ none) :
    apple.Goes := by
  obtain ⟨ipc, hpresent⟩ := Option.ne_none_iff_exists'.mp hipc
  by_cases hcall : apple.wire.held.any Section.ofCall = true
  · rcases h.called.mp hcall with hcallback | hreleasing
    · obtain ⟨step, hrest, hsome⟩ := Wire.rest_goes hipc hcall
      apply goes_of (.rest step) rfl
      simpa [Apple.step, stepCallback, hrest, hcallback] using hsome
    · obtain ⟨thread, hdoom⟩ := Doom.releasing_iff.mp hreleasing
      apply goes_of .onIpcDestroy rfl
      rcases h.released hreleasing with hsection | hsection
      · simp [Apple.step, hdoom, stepIpcDestroy, stepClose, hsection, Wire.step,
          Wire.stepHeld, hpresent]
      · simp [Apple.step, hdoom, stepIpcDestroy, stepClose, hsection, Wire.step,
          Wire.stepHeld, hpresent]
  · have hdispatching : apple.wire.held = some .dispatching := by
      cases hsection : apple.wire.held with
      | none => exact absurd hsection hheld
      | some held => cases held <;> simp_all [Section.ofCall]
    have hmasked := h.masked.mpr hdispatching
    apply goes_of .dispatch rfl
    cases hhandler : apple.handler <;> simp [hhandler, OnEvent.masked] at hmasked
    simp [Apple.step, stepDispatch, hhandler, hpresent, hdispatching, Wire.step, Wire.stepHeld]

theorem poll_goes {stage : PollRemoval} (hdoom : apple.pollDoom = .destroying thread stage)
    (hturn : thread = .poll ∨ apple.handler = .idle) : apple.Goes := by
  apply goes_of .onPollDestroy rfl
  cases stage <;> simp [Apple.step, hdoom, stepPollDestroy, hturn]

theorem ipc_goes (h : system.Reachable apple) (hfree : apple.wire.held = none) {stage : IpcRemoval}
    (hdoom : apple.ipcDoom = .destroying thread stage)
    (hturn : thread = .poll ∨ apple.handler = .idle) :
    apple.Goes := by
  have hdestroy (hsome : (apple.stepIpcDestroy thread stage).isSome) : apple.Goes :=
    goes_of .onIpcDestroy rfl (by simpa [Apple.step, hdoom] using hsome)
  obtain ⟨ipc, hpresent⟩ := Option.ne_none_iff_exists'.mp (safe h).present
  cases stage with
  | closing =>
    apply hdestroy
    simp only [stepIpcDestroy, stepClose, Option.isSome_map, Wire.step, Wire.lock, hfree, hpresent,
      Option.bind_some, Wire.stepIpc]
    split <;> rfl
  | releasing =>
    have hheld := (locked h).released (by rw [hdoom]; rfl)
    simp [hfree] at hheld
  | awaiting =>
    cases hack : apple.acknowledged with
    | true => exact hdestroy (by simp [stepIpcDestroy, hack])
    | false =>
      obtain rfl := (staged h).hosted thread hdoom
      have hidle := hturn.resolve_left (by decide)
      have hcancelled : apple.cancelled = true := by
        rw [(safe h).ordered.cancelled, hdoom]
        rfl
      have hwatched := (staged h).watched .awaiting hdoom rfl
      apply goes_of .acknowledge
      · simp [goesOn, hack]
      · simp [Apple.step, hidle, hcancelled, hwatched]
  | checking | watching | cancelling | signalFreeing | freeing => exact hdestroy rfl

theorem handler_goes (h : system.Reachable apple) (hfree : apple.wire.held = none)
    (hbusy : apple.handler ≠ .idle) :
    apple.Goes := by
  have hdispatch (hsome : apple.stepDispatch.isSome) : apple.Goes := goes_of .dispatch rfl hsome
  obtain ⟨ipc, hpresent⟩ := Option.ne_none_iff_exists'.mp (safe h).present
  cases hhandler : apple.handler with
  | idle => exact absurd hhandler hbusy
  | loadingPoll | loadingCb | loadingEvents _ | calling _ _ =>
    exact hdispatch (by simp [stepDispatch, hhandler])
  | masking _ _ =>
    exact hdispatch
      (by simp [stepDispatch, hhandler, hpresent, Wire.step, Wire.lock, hfree, Wire.stepIpc])
  | maskingWritable _ _ =>
    have hunmasked := (locked h).unmasked hfree
    simp [hhandler, OnEvent.masked] at hunmasked
  | running =>
    have hrest (hsome : (apple.stepCallback (.rest .ipcSignal)).isSome) : apple.Goes :=
      goes_of (.rest .ipcSignal) rfl hsome
    cases hcallback : apple.callback with
    | calling => exact absurd hcallback ((locked h).idle hfree).1
    | startingCb _ | startingSignal | stoppingCb => exact hrest (by simp [stepCallback, hcallback])
    | idle =>
      by_cases hunheld : apple.free = true
      · exact goes_of .leave rfl (by simp [Apple.step, stepCallback, hunheld])
      · -- the callback is in a destroy
        cases hpoll : apple.pollDoom with
        | destroying thread stage =>
          cases hipc : apple.ipcDoom with
          | destroying _ _ =>
            have horder := (safe h).ordered.order
            simp [hpoll, hipc, Doom.freed] at horder
          | alive | destroyed _ =>
            refine poll_goes hpoll (Or.inl ?_)
            cases thread with
            | poll => rfl
            | host => simp [Serial.free, hhandler, hcallback, hpoll, hipc, Doom.held] at hunheld
        | alive | destroyed _ =>
          cases hipc : apple.ipcDoom with
          | destroying thread stage =>
            refine ipc_goes h hfree hipc (Or.inl ?_)
            cases thread with
            | poll => rfl
            | host => simp [Serial.free, hhandler, hcallback, hpoll, hipc, Doom.held] at hunheld
          | alive | destroyed _ =>
            simp [Serial.free, hhandler, hcallback, hpoll, hipc, Doom.held] at hunheld

theorem goes (h : system.Reachable apple) : apple.Settled ∨ apple.Goes := by
  by_cases hfree : apple.wire.held = none
  · by_cases hidle : apple.handler = .idle
    · cases hpoll : apple.pollDoom with
      | destroying thread stage => exact Or.inr (poll_goes hpoll (Or.inr hidle))
      | alive | destroyed _ =>
        cases hipc : apple.ipcDoom with
        | destroying thread stage => exact Or.inr (ipc_goes h hfree hipc (Or.inr hidle))
        | alive | destroyed _ => exact Or.inl ⟨hidle, by simp [hpoll], by simp [hipc]⟩
    · exact Or.inr (handler_goes h hfree hidle)
  · exact Or.inr (held_goes (locked h) (safe h).present hfree)

end Apple

/-- Every destroy that is under way returns, on the queue and off it: however the threads are
scheduled, without new calls and events there is an end, and there nobody waits. -/
theorem bareIpc_destroy_returns {apple last : Apple} (h : Apple.system.Reachable apple)
    {labels : List AppleStep}
    (hrun : (Apple.system.guard fun apple label => apple.goesOn label = true).run apple
      labels = some last) :
    labels.length + last.ahead ≤ apple.ahead ∧ (last.Settled ∨ last.Goes) := by
  apply h.drains _ _ hrun
  · intro apple label next _ hgoes hstep
    exact Apple.ahead_step hgoes hstep
  · intro apple hreach
    exact Apple.goes hreach

def Apple.destroying : Apple :=
  Apple.system.result Apple.written
    (.flatten [[.event], .replicate 3 .dispatch, [.pollDestroy .host], .replicate 3 .onPollDestroy,
      .replicate 3 .dispatch, [.leave], .replicate 2 .onPollDestroy, [.ipcDestroy .host]])
    (by decide +kernel)

def AppleStep.await : List AppleStep :=
  .flatten [.replicate 6 .onIpcDestroy, [.acknowledge], .replicate 3 .onIpcDestroy]

def Apple.destroyedThere : Apple :=
  (Apple.system.guard fun apple label => apple.goesOn label = true).result Apple.destroying
    AppleStep.await (by decide +kernel)

theorem bareIpc_destroy_returns_awaited :
    10 + Apple.destroyedThere.ahead ≤ Apple.destroying.ahead ∧
      Apple.destroyedThere.ipcDoom = .destroyed .host := by
  have hreach : Apple.system.Reachable Apple.destroying :=
    .result (S := Apple.system) Apple.written_init _ _
  have hrun :=
    (Apple.system.guard fun apple label => apple.goesOn label = true).run_result Apple.destroying
    AppleStep.await (by decide +kernel)
  exact ⟨(bareIpc_destroy_returns hreach hrun).1, by decide +kernel⟩

end BareKit
