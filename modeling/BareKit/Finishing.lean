import BareKit.Process

/-! Without new calls the worklets of a process come to their end, and with them the teardown that
waits for them: nobody is left waiting, and every step is one fewer to go. -/
namespace BareKit

namespace Worker

/-- How many steps the thread takes yet, and the steps of the platform and the teardown that it
brings about. -/
def ahead : Worker → Nat
  | .entered => 14
  | .initialising => 13
  | .awaiting => 7
  | .settingUp => 6
  | .running => 5
  | .tearingDown => 4
  | .exiting => 3
  | .exited => 2
  | .stopped => 0

def early : Worker → Bool
  | .entered | .initialising | .awaiting | .settingUp => true
  | _ => false

end Worker

def Caller.ahead : Caller → Nat
  | .waiting => 2
  | .passed => 1
  | .returned => 0

namespace Start

def ahead : Start → Nat
  | .entered => 18
  | .granted => 17
  | .failed _ => 2
  | .returned _ => 0
  | .started caller worker => caller.ahead + worker.ahead

def Over : Start → Prop
  | .returned _ | .started .returned .stopped => True
  | _ => False

def Met (start : Start) : Prop :=
  ∀ caller worker, start = .started caller worker → (caller = .waiting ↔ worker.early = true)

end Start

def OnTeardown.ahead : OnTeardown → Nat
  | .idle => 6
  | .woken => 4
  | .asleep => 3
  | .left => 2
  | .joining => 1
  | .returned => 0

def OnPlatform.ahead : OnPlatform → Nat
  | .entered => 4
  | .created => 3
  | .serving => 2
  | .destroyed => 1
  | .absent | .gone => 0

namespace Process

def ahead (process : Process) : Nat :=
  Pool.load Start.ahead process.starts + process.teardown.ahead + process.platform.ahead

def goesOn (process : Process) : ProcessStep → Bool
  | .start => false
  | .onTeardown => process.teardown != .idle && process.teardown != .asleep
  | .onStart _ _ | .onThread _ | .onPlatform => true

def Finished (process : Process) : Prop :=
  (∀ (n : Nat) (start : Start), process.starts[n]? = some start → start.Over) ∧
    (process.teardown = .idle ∨ process.teardown = .returned)

variable {process next : Process} {label : ProcessStep} {n : Nat} {start old new : Start}

theorem ahead_put (hstart : process.starts[n]? = some old)
    (hstarts : next.starts = process.starts.set n new)
    (hpaid : new.ahead + next.teardown.ahead + next.platform.ahead <
      old.ahead + process.teardown.ahead + process.platform.ahead) :
      next.ahead < process.ahead := by
  have hload := Pool.load_set hstart new Start.ahead
  simp only [ahead, hstarts]
  omega

theorem ahead_signal (teardown : OnTeardown) : teardown.signal.ahead ≤ teardown.ahead + 1 := by
  cases teardown <;> decide

theorem ahead_stopped (process : Process) :
    process.bareWorkletOnStopped.teardown.ahead ≤ process.teardown.ahead + 1 := by
  simp only [bareWorkletOnStopped]
  split
  · exact ahead_signal process.teardown
  · exact Nat.le_succ _

theorem ahead_wait (process : Process) : process.bareWorkletTeardownWait.teardown.ahead < 4 := by
  simp only [bareWorkletTeardownWait]
  split <;> decide

theorem ahead_step (hgoes : process.goesOn label = true) (hstep : process.step label = some next) :
    next.ahead < process.ahead := by
  cases move_step hstep with
  | start => cases hgoes
  | refused hstart _ | granted hstart _ | failed hstart _ | threaded hstart _ | returned hstart
  | initialising hstart _ | initialised hstart _ | ready hstart | ran hstart | tornDown hstart
  | exited hstart =>
    exact ahead_put hstart rfl (by simp [put, Start.ahead, Worker.ahead, Caller.ahead])
  | failedStopped hstart | stopped hstart =>
    apply ahead_put hstart rfl
    have hstopped := ahead_stopped process
    simp only [put, Start.ahead, Worker.ahead]
    simp only [bareWorkletOnStopped] at hstopped ⊢
    omega
  | awaiting hstart =>
    apply ahead_put hstart rfl
    simp only [put, Start.ahead, Worker.ahead, OnPlatform.ahead]
    omega
  | awaited hstart hplatform =>
    apply ahead_put hstart rfl
    simp only [put, hplatform, Start.ahead, Worker.ahead, OnPlatform.ahead]
    omega
  | created hplatform | destroyed hplatform _ | gone hplatform =>
    simp [ahead, hplatform, OnPlatform.ahead]
  | teardown hteardown | woken hteardown => simp [goesOn, hteardown] at hgoes
  | waited hteardown =>
    have hwait := ahead_wait process
    have hwoken : process.teardown.ahead = 4 := congrArg OnTeardown.ahead hteardown
    have hstarts : process.bareWorkletTeardownWait.starts = process.starts := rfl
    have hplatform : process.bareWorkletTeardownWait.platform = process.platform := rfl
    simp only [ahead, hstarts, hplatform]
    omega
  | shutdown hteardown _ | bare hteardown _ | joined hteardown _ =>
    simp [ahead, hteardown, OnTeardown.ahead]

/-- What a start that is under way goes by, and that the platform of a teardown is made. -/
structure Meets (process : Process) : Prop where
  early : ∀ (n : Nat) caller worker, process.starts[n]? = some (.started caller worker) →
    (caller = .waiting ↔ worker.early = true)
  joining : process.teardown = .joining → process.platform.made = true ∧ process.shutdown = true

theorem Meets.put (h : process.Meets) (hstarts : next.starts = process.starts.set n new)
    (hnew : new.Met)
    (hjoining : next.teardown = .joining → next.platform.made = true ∧ next.shutdown = true) :
    next.Meets := by
  refine ⟨?_, hjoining⟩
  rw [hstarts]
  have hall : ∀ (m : Nat) (start : Start), (process.starts.set n new)[m]? = some start →
      start.Met :=
    Pool.forall_set hnew fun m start _ hstart caller worker heq =>
      h.early m caller worker (heq ▸ hstart)
  exact fun m caller worker hstart => hall m _ hstart caller worker rfl

theorem signal_joining {teardown : OnTeardown} (h : teardown.signal = .joining) :
    teardown = .joining := by
  cases teardown <;> simp [OnTeardown.signal] at h ⊢

theorem stopped_joining (h : process.bareWorkletOnStopped.teardown = .joining) :
    process.teardown = .joining := by
  simp only [bareWorkletOnStopped] at h
  split at h
  · exact signal_joining h
  · exact h

theorem Meets.step (h : process.Meets) (hcounted : process.Counted)
    (hstep : process.step label = some next) :
    next.Meets := by
  cases move_step hstep with
  | start =>
    refine ⟨?_, h.joining⟩
    have hall : ∀ (m : Nat) (start : Start), (process.starts ++ [.entered])[m]? = some start →
        start.Met :=
      Pool.forall_append (by simp [Start.Met]) fun m start hstart caller worker heq =>
        h.early m caller worker (heq ▸ hstart)
    exact fun m caller worker hstart => hall m _ hstart caller worker rfl
  | refused _ _ | granted _ _ | failed _ _ => exact h.put rfl (by simp [Start.Met]) h.joining
  | threaded _ _ => exact h.put rfl (by simp [Start.Met, Worker.early]) h.joining
  | ready _ => exact h.put rfl (by simp [Start.Met, Worker.early]) h.joining
  | returned hstart | initialising hstart _ | initialised hstart _ | ran hstart | tornDown hstart
  | exited hstart =>
    have hearly := h.early _ _ _ hstart
    exact h.put rfl (by simp_all [Start.Met, Worker.early]) h.joining
  | failedStopped _ =>
    exact h.put rfl (by simp [Start.Met]) fun hnext => h.joining (stopped_joining hnext)
  | stopped hstart =>
    have hearly := h.early _ _ _ hstart
    exact h.put rfl (by simp_all [Start.Met, Worker.early]) fun hnext =>
      h.joining (stopped_joining hnext)
  | awaiting hstart =>
    have hearly := h.early _ _ _ hstart
    refine h.put rfl (by simp_all [Start.Met, Worker.early]) fun hjoining => ?_
    have hnone := hcounted.none (hjoining ▸ rfl) hstart
    cases hnone
  | awaited hstart hplatform =>
    have hearly := h.early _ _ _ hstart
    exact h.put rfl (by simp_all [Start.Met, Worker.early]) fun hnext => ⟨rfl, (h.joining hnext).2⟩
  | created _ | destroyed _ _ | gone _ => exact ⟨h.early, fun hnext => ⟨rfl, (h.joining hnext).2⟩⟩
  | teardown hteardown | waited hteardown =>
    refine ⟨h.early, fun hnext => ?_⟩
    simp only [bareWorkletTeardownWait] at hnext
    split at hnext <;> cases hnext
  | woken hteardown | bare hteardown _ | joined hteardown _ => exact ⟨h.early, by simp⟩
  | shutdown hteardown hmade => exact ⟨h.early, fun _ => ⟨hmade, rfl⟩⟩

theorem meets (h : system.Reachable process) : process.Meets := by
  apply h.invariant
  · rintro initial rfl
    exact ⟨by simp, by simp⟩
  · intro process label next hreach hmeets hstep
    exact hmeets.step (counted hreach) hstep

def Goes (process : Process) : Prop :=
  ∃ label next, process.goesOn label = true ∧ process.step label = some next

theorem goes_of (label : ProcessStep) (hgoes : process.goesOn label = true)
    (hstep : (process.step label).isSome) : process.Goes := by
  obtain ⟨next, hnext⟩ := Option.isSome_iff_exists.mp hstep
  exact ⟨label, next, hgoes, hnext⟩

theorem initialising_iff :
    start.initialising = true ↔ ∃ caller, start = .started caller .initialising := by
  cases start with
  | started caller worker => cases worker <;> simp [Start.initialising]
  | entered | granted | failed _ | returned _ => simp [Start.initialising]

theorem awaiting_iff : start.awaiting = true ↔ ∃ caller, start = .started caller .awaiting := by
  cases start with
  | started caller worker => cases worker <;> simp [Start.awaiting]
  | entered | granted | failed _ | returned _ => simp [Start.awaiting]

theorem over_uncounted (hover : start.Over) : start.counted = false := by
  cases start with
  | started caller worker =>
    cases caller <;> cases worker <;> simp_all [Start.Over, Start.counted, Start.live]
  | entered | granted | failed _ | returned _ => simp_all [Start.Over, Start.counted, Start.live]

/-- The platform is being made, by the thread that is in `uv_once` or by its own. -/
theorem once_goes (h : process.Provided) (honce : process.once = .running) : process.Goes := by
  have hserved : process.platform.served = false := by
    apply eq_false_of_ne_true
    rw [← h.done, honce]
    decide
  by_cases habsent : process.platform = .absent
  · have htally := h.initialising
    rw [if_pos ⟨honce, habsent⟩] at htally
    obtain ⟨n, start, hstart, hinitialising⟩ := Pool.tally_exists (htally ▸ Int.one_pos)
    obtain ⟨caller, rfl⟩ := initialising_iff.mp hinitialising
    exact goes_of (.onThread n) rfl (by simp [step, hstart, stepThread])
  · have htally := h.awaiting
    rw [if_pos ⟨honce, habsent⟩] at htally
    obtain ⟨n, start, hstart, hawaiting⟩ := Pool.tally_exists (htally ▸ Int.one_pos)
    cases hplatform : process.platform <;> simp_all [OnPlatform.served]
    · exact goes_of .onPlatform rfl (by simp [step, stepPlatform, hplatform])
    · obtain ⟨caller, rfl⟩ := awaiting_iff.mp hawaiting
      exact goes_of (.onThread n) rfl (by simp [step, hstart, stepThread, hplatform])

theorem thread_goes (h : process.Provided) (hmeets : process.Meets) {caller : Caller}
    {worker : Worker}
    (hstart : process.starts[n]? = some (.started caller worker)) (hlive : worker ≠ .stopped) :
    process.Goes := by
  have hthread (hsome : (process.stepThread n caller worker).isSome) : process.Goes :=
    goes_of (.onThread n) rfl (by simpa [step, hstart] using hsome)
  cases worker with
  | entered =>
    cases honce : process.once with
    | untouched | done => exact hthread (by simp [stepThread, honce])
    | running => exact once_goes h honce
  | awaiting =>
    obtain ⟨honce, hplatform⟩ := h.awaitingAt hstart rfl
    exact once_goes h honce
  | settingUp =>
    have hwaiting := (hmeets.early n caller .settingUp hstart).mpr rfl
    exact hthread (by simp [stepThread, hwaiting])
  | stopped => exact absurd rfl hlive
  | initialising | running | tearingDown | exiting | exited => exact hthread rfl

theorem start_goes (h : process.Provided) (hmeets : process.Meets)
    (hstart : process.starts[n]? = some start)
    (hover : ¬ start.Over) : process.Goes := by
  have hcall (hsome : (process.stepStart n 0 start).isSome) : process.Goes :=
    goes_of (.onStart n 0) rfl (by simpa [step, hstart] using hsome)
  cases start with
  | entered =>
    apply hcall
    simp only [stepStart]
    split <;> rfl
  | granted | failed _ => exact hcall rfl
  | returned _ => exact absurd trivial hover
  | started caller worker =>
    by_cases hstopped : worker = .stopped
    · subst hstopped
      cases caller with
      | waiting =>
        have hearly := (hmeets.early n _ _ hstart).mp rfl
        cases hearly
      | passed => exact hcall rfl
      | returned => exact absurd trivial hover
    · exact thread_goes h hmeets hstart hstopped

theorem teardown_goes (h : system.Reachable process)
    (hstarts : ∀ (n : Nat) (start : Start), process.starts[n]? = some start → start.Over)
    (hidle : process.teardown ≠ .idle) (hreturned : process.teardown ≠ .returned) :
    process.Goes := by
  have hprovided := provided h
  have hteardown (hawake : process.teardown ≠ .asleep) (hsome : process.stepTeardown.isSome) :
      process.Goes :=
    goes_of .onTeardown (by simp [goesOn, hidle, hawake]) hsome
  cases hwhere : process.teardown with
  | idle => exact absurd hwhere hidle
  | returned => exact absurd hwhere hreturned
  | asleep =>
    have hrunning := (counted h).asleep hwhere
    rw [(counted h).running] at hrunning
    obtain ⟨n, start, hstart, hcounted⟩ := Pool.tally_exists hrunning
    have hover := hstarts n start hstart
    rw [over_uncounted hover] at hcounted
    cases hcounted
  | woken => exact hteardown (by simp [hwhere]) (by simp [stepTeardown, hwhere])
  | left =>
    apply hteardown (by simp [hwhere])
    simp only [stepTeardown, hwhere]
    split <;> rfl
  | joining =>
    obtain ⟨hmade, hshutdown⟩ := (meets h).joining hwhere
    cases hplatform : process.platform with
    | absent | entered => simp [hplatform, OnPlatform.made] at hmade
    | created =>
      apply once_goes hprovided
      cases honce : process.once with
      | untouched => simp [hprovided.untouched honce] at hplatform
      | running => rfl
      | done =>
        have hserved := hprovided.done.mp honce
        simp [hplatform, OnPlatform.served] at hserved
    | serving => exact goes_of .onPlatform rfl (by simp [step, stepPlatform, hplatform, hshutdown])
    | destroyed => exact goes_of .onPlatform rfl (by simp [step, stepPlatform, hplatform])
    | gone => exact hteardown (by simp [hwhere]) (by simp [stepTeardown, hwhere, hplatform])

theorem goes (h : system.Reachable process) : process.Finished ∨ process.Goes := by
  by_cases hstarts : ∀ (n : Nat) (start : Start), process.starts[n]? = some start → start.Over
  · by_cases hidle : process.teardown = .idle
    · exact Or.inl ⟨hstarts, Or.inl hidle⟩
    · by_cases hreturned : process.teardown = .returned
      · exact Or.inl ⟨hstarts, Or.inr hreturned⟩
      · exact Or.inr (teardown_goes h hstarts hidle hreturned)
  · simp only [not_forall] at hstarts
    obtain ⟨n, start, hstart, hover⟩ := hstarts
    exact Or.inr (start_goes (provided h) (meets h) hstart hover)

end Process

/-- However the threads are scheduled, without new calls or a wake that nobody sent there is an end,
and there every start is over and the teardown, if it was called, has returned. -/
theorem bareWorkletTeardown_returns {process last : Process} (h : Process.system.Reachable process)
    {labels : List ProcessStep}
    (hrun : (Process.system.guard fun process label => process.goesOn label = true).run
      process labels =
      some last) :
    labels.length + last.ahead ≤ process.ahead ∧ (last.Finished ∨ last.Goes) := by
  apply h.drains _ _ hrun
  · intro process label next _ hgoes hstep
    exact Process.ahead_step hgoes hstep
  · intro process hreach
    exact Process.goes hreach

def Process.tearingDown : Process :=
  Process.system.result {}
    [.start, .onStart 0 0, .onStart 0 0, .onThread 0, .onThread 0, .onPlatform,
      .onThread 0, .onThread 0, .onStart 0 0, .onTeardown] (by decide +kernel)

def Process.tornDownAfterOne : Process :=
  (Process.system.guard fun process label => process.goesOn label = true).result Process.tearingDown
    [.onThread 0, .onThread 0, .onThread 0, .onThread 0, .onTeardown, .onTeardown, .onPlatform,
      .onPlatform, .onTeardown] (by decide +kernel)

theorem bareWorkletTeardown_returns_afterOne :
    9 + Process.tornDownAfterOne.ahead ≤ Process.tearingDown.ahead ∧
      Process.tornDownAfterOne.teardown = .returned := by
  have hreach : Process.system.Reachable Process.tearingDown :=
    .result (S := Process.system) rfl _ _
  have hrun := (Process.system.guard fun process label => process.goesOn label = true).run_result
    Process.tearingDown [.onThread 0, .onThread 0, .onThread 0, .onThread 0,
      .onTeardown, .onTeardown, .onPlatform, .onPlatform, .onTeardown] (by decide +kernel)
  exact ⟨(bareWorkletTeardown_returns hreach hrun).1, by decide +kernel⟩

end BareKit
