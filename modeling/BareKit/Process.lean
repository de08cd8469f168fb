import BareKit.Transition
import BareKit.Pool

/-! The worklets of a process, which count themselves, share a platform and are waited for
by the teardown. A step is one section of the lock of the count, or one call that a thread
makes outside of it. -/
namespace BareKit

/-- What the thread of a worklet does next: `uv_once`, with the platform made in it or not,
what it has the platform for, its exit callback, and `bare_worklet__on_stopped`. -/
inductive Worker where
  | entered
  | initialising
  | awaiting
  | settingUp
  | running
  | tearingDown
  | exiting
  | exited
  | stopped
  deriving DecidableEq, Repr

inductive Caller where
  | waiting
  | passed
  | returned
  deriving DecidableEq, Repr

/-- A call of `bare_worklet_start`, with the thread that it made. -/
inductive Start where
  | entered
  | granted
  | failed (err : Int)
  | returned (err : Int)
  | started (caller : Caller) (worker : Worker)
  deriving DecidableEq, Repr

/-- What `bare_worklet_teardown` does next, once it was called. -/
inductive OnTeardown where
  | idle
  | asleep
  | woken
  | left
  | joining
  | returned
  deriving DecidableEq, Repr

/-- What `bare_worklet__on_platform_thread` does next. -/
inductive OnPlatform where
  | absent
  | entered
  | created
  | serving
  | destroyed
  | gone
  deriving DecidableEq, Repr

inductive Once where
  | untouched
  | running
  | done
  deriving DecidableEq, Repr

namespace Worker

/-- From `bare_setup` to the end of `bare_teardown`. -/
def uses : Worker → Bool
  | .settingUp | .running | .tearingDown => true
  | _ => false

end Worker

namespace Start

/-- The thread of the worklet is between its start and `bare_worklet__on_stopped`. -/
def live : Start → Bool
  | .started _ worker => worker != .stopped
  | _ => false

def counted : Start → Bool
  | .granted | .failed _ => true
  | start => start.live

def uses : Start → Bool
  | .started _ worker => worker.uses
  | _ => false

def initialising : Start → Bool
  | .started _ .initialising => true
  | _ => false

def awaiting : Start → Bool
  | .started _ .awaiting => true
  | _ => false

def threaded : Start → Bool
  | .started _ _ => true
  | _ => false

def reported : Start → Bool
  | .started _ .exited | .started _ .stopped => true
  | _ => false

end Start

namespace OnTeardown

def leftLoop : OnTeardown → Bool
  | .left | .joining | .returned => true
  | _ => false

def signal : OnTeardown → OnTeardown
  | .asleep => .woken
  | teardown => teardown

end OnTeardown

namespace OnPlatform

/-- `bare_worklet__platform` is set. -/
def made : OnPlatform → Bool
  | .absent | .entered => false
  | _ => true

def served : OnPlatform → Bool
  | .serving | .destroyed | .gone => true
  | _ => false

end OnPlatform

/-- `platforms` is how many were made, and `exits` has the starts whose exit callback has
returned. -/
structure Process where
  running : Int := 0
  tornDown : Bool := false
  starts : List Start := []
  teardown : OnTeardown := .idle
  once : Once := .untouched
  platform : OnPlatform := .absent
  shutdown : Bool := false
  platforms : Nat := 0
  exits : List Nat := []
  deriving DecidableEq, Repr

inductive ProcessStep where
  /-- A call of `bare_worklet_start` begins. -/
  | start
  /-- It goes on, and `uv_thread_create` has this result. -/
  | onStart (n : Nat) (err : Int)
  | onThread (n : Nat)
  | onPlatform
  /-- `bare_worklet_teardown` is called or goes on. It may wake up without a signal. -/
  | onTeardown
  deriving DecidableEq, Repr

namespace Process

def put (process : Process) (n : Nat) (start : Start) : Process :=
  { process with starts := process.starts.set n start }

def bareWorkletOnStopped (process : Process) : Process :=
  { process with
    running := process.running - 1
    teardown := if process.running - 1 = 0 then process.teardown.signal else process.teardown }

def bareWorkletTeardownWait (process : Process) : Process :=
  { process with teardown := if 0 < process.running then .asleep else .left }

def stepStart (process : Process) (n : Nat) (err : Int) : Start → Option Process
  | .entered =>
    if process.tornDown then some (process.put n (.returned (-1)))
    else some { process.put n .granted with running := process.running + 1 }
  | .granted =>
    if err < 0 then some (process.put n (.failed err))
    else some (process.put n (.started .waiting .entered))
  | .failed failure => some (process.bareWorkletOnStopped.put n (.returned failure))
  | .started .passed worker => some (process.put n (.started .returned worker))
  | _ => none

def stepThread (process : Process) (n : Nat) (caller : Caller) : Worker → Option Process
  | .entered =>
    match process.once with
    | .untouched => some { process.put n (.started caller .initialising) with once := .running }
    | .running => none
    | .done => some (process.put n (.started caller .settingUp))
  | .initialising =>
    some { process.put n (.started caller .awaiting) with
      platform := .entered
      platforms := process.platforms + 1 }
  | .awaiting =>
    if process.platform = .created then
      some { process.put n (.started caller .settingUp) with once := .done, platform := .serving }
    else none
  | .settingUp =>
    if caller = .waiting then some (process.put n (.started .passed .running)) else none
  | .running => some (process.put n (.started caller .tearingDown))
  | .tearingDown => some (process.put n (.started caller .exiting))
  | .exiting => some { process.put n (.started caller .exited) with exits := n :: process.exits }
  | .exited => some (process.bareWorkletOnStopped.put n (.started caller .stopped))
  | .stopped => none

def stepPlatform (process : Process) : Option Process :=
  match process.platform with
  | .entered => some { process with platform := .created }
  | .serving => if process.shutdown then some { process with platform := .destroyed } else none
  | .destroyed => some { process with platform := .gone }
  | _ => none

def stepTeardown (process : Process) : Option Process :=
  match process.teardown with
  | .idle => some { process.bareWorkletTeardownWait with tornDown := true }
  | .asleep => some { process with teardown := .woken }
  | .woken => some process.bareWorkletTeardownWait
  | .left =>
    if process.platform.made then some { process with teardown := .joining, shutdown := true }
    else some { process with teardown := .returned }
  | .joining =>
    if process.platform = .gone then some { process with teardown := .returned } else none
  | .returned => none

def step (process : Process) : ProcessStep → Option Process
  | .start => some { process with starts := process.starts ++ [.entered] }
  | .onStart n err => process.starts[n]?.bind (process.stepStart n err)
  | .onThread n =>
    process.starts[n]?.bind fun
      | .started caller worker => process.stepThread n caller worker
      | _ => none
  | .onPlatform => process.stepPlatform
  | .onTeardown => process.stepTeardown

def system : Transition.System Process ProcessStep where
  init process := process = {}
  step := step

inductive Move (process : Process) : ProcessStep → Process → Prop where
  | start : Move process .start { process with starts := process.starts ++ [.entered] }
  | refused {n err} (hstart : process.starts[n]? = some .entered)
      (htornDown : process.tornDown = true) :
    Move process (.onStart n err) (process.put n (.returned (-1)))
  | granted {n err} (hstart : process.starts[n]? = some .entered)
      (htornDown : process.tornDown = false) :
    Move process (.onStart n err) { process.put n .granted with running := process.running + 1 }
  | failed {n err} (hstart : process.starts[n]? = some .granted) (herr : err < 0) :
    Move process (.onStart n err) (process.put n (.failed err))
  | threaded {n err} (hstart : process.starts[n]? = some .granted) (herr : ¬ err < 0) :
    Move process (.onStart n err) (process.put n (.started .waiting .entered))
  | failedStopped {n err failure} (hstart : process.starts[n]? = some (.failed failure)) :
    Move process (.onStart n err) (process.bareWorkletOnStopped.put n (.returned failure))
  | returned {n err worker} (hstart : process.starts[n]? = some (.started .passed worker)) :
    Move process (.onStart n err) (process.put n (.started .returned worker))
  | initialising {n caller} (hstart : process.starts[n]? = some (.started caller .entered))
      (honce : process.once = .untouched) :
    Move process (.onThread n) { process.put n (.started caller .initialising) with
      once := .running }
  | initialised {n caller} (hstart : process.starts[n]? = some (.started caller .entered))
      (honce : process.once = .done) :
    Move process (.onThread n) (process.put n (.started caller .settingUp))
  | awaiting {n caller} (hstart : process.starts[n]? = some (.started caller .initialising)) :
    Move process (.onThread n) { process.put n (.started caller .awaiting) with
      platform := .entered
      platforms := process.platforms + 1 }
  | awaited {n caller} (hstart : process.starts[n]? = some (.started caller .awaiting))
      (hplatform : process.platform = .created) :
    Move process (.onThread n) { process.put n (.started caller .settingUp) with
      once := .done
      platform := .serving }
  | ready {n} (hstart : process.starts[n]? = some (.started .waiting .settingUp)) :
    Move process (.onThread n) (process.put n (.started .passed .running))
  | ran {n caller} (hstart : process.starts[n]? = some (.started caller .running)) :
    Move process (.onThread n) (process.put n (.started caller .tearingDown))
  | tornDown {n caller} (hstart : process.starts[n]? = some (.started caller .tearingDown)) :
    Move process (.onThread n) (process.put n (.started caller .exiting))
  | exited {n caller} (hstart : process.starts[n]? = some (.started caller .exiting)) :
    Move process (.onThread n) { process.put n (.started caller .exited) with
      exits := n :: process.exits }
  | stopped {n caller} (hstart : process.starts[n]? = some (.started caller .exited)) :
    Move process (.onThread n) (process.bareWorkletOnStopped.put n (.started caller .stopped))
  | created (hplatform : process.platform = .entered) :
    Move process .onPlatform { process with platform := .created }
  | destroyed (hplatform : process.platform = .serving) (hshutdown : process.shutdown = true) :
    Move process .onPlatform { process with platform := .destroyed }
  | gone (hplatform : process.platform = .destroyed) :
    Move process .onPlatform { process with platform := .gone }
  | teardown (hteardown : process.teardown = .idle) :
    Move process .onTeardown { process.bareWorkletTeardownWait with tornDown := true }
  | woken (hteardown : process.teardown = .asleep) :
    Move process .onTeardown { process with teardown := .woken }
  | waited (hteardown : process.teardown = .woken) :
    Move process .onTeardown process.bareWorkletTeardownWait
  | shutdown (hteardown : process.teardown = .left) (hplatform : process.platform.made = true) :
    Move process .onTeardown { process with teardown := .joining, shutdown := true }
  | bare (hteardown : process.teardown = .left) (hplatform : process.platform.made = false) :
    Move process .onTeardown { process with teardown := .returned }
  | joined (hteardown : process.teardown = .joining) (hplatform : process.platform = .gone) :
    Move process .onTeardown { process with teardown := .returned }

variable {process next : Process} {label : ProcessStep} {n : Nat} {err : Int}
    {start old new : Start}

theorem move_stepStart (hstart : process.starts[n]? = some start)
    (hstep : process.stepStart n err start = some next) : Move process (.onStart n err) next := by
  cases start with
  | entered =>
    simp only [stepStart] at hstep
    split at hstep <;> cases hstep
    · exact .refused hstart ‹_›
    · exact .granted hstart (eq_false_of_ne_true ‹_›)
  | granted =>
    simp only [stepStart] at hstep
    split at hstep <;> cases hstep
    · exact .failed hstart ‹_›
    · exact .threaded hstart ‹_›
  | failed failure =>
    cases hstep
    exact .failedStopped hstart
  | returned failure => contradiction
  | started caller worker =>
    cases caller with
    | passed =>
      cases hstep
      exact .returned hstart
    | waiting | returned => contradiction

theorem move_stepThread {caller : Caller} {worker : Worker}
    (hstart : process.starts[n]? = some (.started caller worker))
    (hstep : process.stepThread n caller worker = some next) : Move process (.onThread n) next := by
  cases worker with
  | entered =>
    simp only [stepThread] at hstep
    split at hstep
    · cases hstep
      exact .initialising hstart ‹_›
    · contradiction
    · cases hstep
      exact .initialised hstart ‹_›
  | initialising =>
    cases hstep
    exact .awaiting hstart
  | awaiting =>
    simp only [stepThread] at hstep
    split at hstep
    · cases hstep
      exact .awaited hstart ‹_›
    · contradiction
  | settingUp =>
    simp only [stepThread] at hstep
    split at hstep
    · rename_i hcaller
      cases hstep
      exact .ready (hcaller ▸ hstart)
    · contradiction
  | running =>
    cases hstep
    exact .ran hstart
  | tearingDown =>
    cases hstep
    exact .tornDown hstart
  | exiting =>
    cases hstep
    exact .exited hstart
  | exited =>
    cases hstep
    exact .stopped hstart
  | stopped => contradiction

theorem move_step (hstep : process.step label = some next) : Move process label next := by
  cases label with
  | start =>
    cases hstep
    exact .start
  | onStart n err =>
    obtain ⟨start, hstart, hnext⟩ := Option.bind_eq_some_iff.mp hstep
    exact move_stepStart hstart hnext
  | onThread n =>
    obtain ⟨start, hstart, hnext⟩ := Option.bind_eq_some_iff.mp hstep
    cases start with
    | started caller worker => exact move_stepThread hstart hnext
    | entered | granted | failed _ | returned _ => contradiction
  | onPlatform =>
    simp only [step, stepPlatform] at hstep
    split at hstep
    · cases hstep
      exact .created ‹_›
    · split at hstep
      · cases hstep
        exact .destroyed ‹_› ‹_›
      · contradiction
    · cases hstep
      exact .gone ‹_›
    · contradiction
  | onTeardown =>
    simp only [step, stepTeardown] at hstep
    split at hstep
    · cases hstep
      exact .teardown ‹_›
    · cases hstep
      exact .woken ‹_›
    · cases hstep
      exact .waited ‹_›
    · split at hstep <;> cases hstep
      · exact .shutdown ‹_› ‹_›
      · exact .bare ‹_› (eq_false_of_ne_true ‹_›)
    · split at hstep
      · cases hstep
        exact .joined ‹_› ‹_›
      · contradiction
    · contradiction

structure Counted (process : Process) : Prop where
  running : process.running = Pool.tally process.starts Start.counted
  asleep : process.teardown = .asleep → 0 < process.running
  tornDown : process.teardown ≠ .idle → process.tornDown = true
  leftLoop : process.teardown.leftLoop = true → process.running = 0
  shutdown : process.shutdown = true → process.teardown.leftLoop = true

theorem Counted.congr (h : process.Counted) (hrunning : next.running = process.running)
    (hstarts : next.starts = process.starts) (hteardown : next.teardown = process.teardown)
    (htornDown : next.tornDown = process.tornDown) (hshutdown : next.shutdown = process.shutdown) :
    next.Counted := by
  obtain ⟨running, asleep, tornDown, leftLoop, shutdown⟩ := h
  constructor <;> simp only [hrunning, hstarts, hteardown, htornDown, hshutdown] <;> assumption

theorem Counted.put (h : process.Counted) (hstart : process.starts[n]? = some old)
    (hstarts : next.starts = process.starts.set n new) (hsame : new.counted = old.counted)
    (hrunning : next.running = process.running) (hteardown : next.teardown = process.teardown)
    (htornDown : next.tornDown = process.tornDown) (hshutdown : next.shutdown = process.shutdown) :
    next.Counted := by
  have htally := Pool.tally_set hstart new Start.counted
  have hcount : Pool.tally (process.starts.set n new) Start.counted =
      Pool.tally process.starts Start.counted := by
    rw [htally, hsame]
    omega
  obtain ⟨running, asleep, tornDown, leftLoop, shutdown⟩ := h
  constructor <;>
    simp only [hrunning, hstarts, hteardown, htornDown, hshutdown, hcount] <;> assumption

theorem Counted.granted (h : process.Counted) (hstart : process.starts[n]? = some .entered)
    (htornDown : process.tornDown = false) :
    Counted { process.put n .granted with running := process.running + 1 } := by
  have hidle : process.teardown = .idle := by
    by_contra hteardown
    rw [h.tornDown hteardown] at htornDown
    contradiction
  have htally := Pool.tally_set hstart .granted Start.counted
  have hrunning := h.running
  refine ⟨?_, fun hasleep => ?_, h.tornDown, fun hover => ?_, h.shutdown⟩
  · simp only [Start.counted, Start.live, Bool.false_eq_true, ↓reduceIte] at htally
    simp only [Process.put]
    omega
  · simp [Process.put, hidle] at hasleep
  · simp [Process.put, hidle, OnTeardown.leftLoop] at hover

theorem Counted.stopped (h : process.Counted) (hstart : process.starts[n]? = some old)
    (hold : old.counted = true) (hnew : new.counted = false) :
    (process.bareWorkletOnStopped.put n new).Counted := by
  have htally := Pool.tally_set hstart new Start.counted
  have hpos : 0 < process.running := h.running ▸ Pool.tally_pos hstart hold
  have hawake : process.teardown.leftLoop = false := by
    by_contra hover
    have hzero := h.leftLoop (eq_true_of_ne_false hover)
    omega
  have hrunning := h.running
  simp only [hold, hnew, ↓reduceIte, Bool.false_eq_true] at htally
  refine ⟨?_, ?_, ?_, ?_, ?_⟩ <;> simp only [Process.put, bareWorkletOnStopped]
  · omega
  · intro hasleep
    split at hasleep
    · cases hteardown : process.teardown <;> simp [hteardown, OnTeardown.signal] at hasleep
    · omega
  · intro hbegun
    apply h.tornDown
    rintro hidle
    simp [hidle, OnTeardown.signal] at hbegun
  · intro hover
    exfalso
    revert hover
    split <;> cases hteardown : process.teardown <;>
      simp_all [OnTeardown.signal, OnTeardown.leftLoop]
  · intro hshutdown
    rw [h.shutdown hshutdown] at hawake
    contradiction

/-- The lock is held from the test to the sleep, so no signal falls between them. -/
theorem Counted.wait (h : process.Counted) (hawake : process.shutdown = false) :
    Counted { process.bareWorkletTeardownWait with tornDown := true } := by
  have hpos : 0 ≤ process.running := h.running ▸ Pool.tally_nonneg _ _
  refine ⟨h.running, ?_, fun _ => rfl, ?_, fun hshutdown => ?_⟩
  · intro hasleep
    simp only [bareWorkletTeardownWait] at hasleep ⊢
    split at hasleep
    · assumption
    · contradiction
  · intro hover
    simp only [bareWorkletTeardownWait] at hover ⊢
    split at hover
    · contradiction
    · omega
  · have hdown : process.shutdown = true := hshutdown
    rw [hawake] at hdown
    contradiction

theorem Counted.step (h : process.Counted) (hstep : process.step label = some next) :
    next.Counted := by
  have hawake : ∀ teardown : OnTeardown, process.teardown = teardown → teardown.leftLoop = false →
      process.shutdown = false := by
    rintro _ rfl hover
    refine eq_false_of_ne_true fun hshutdown => ?_
    rw [h.shutdown hshutdown] at hover
    contradiction
  cases move_step hstep with
  | start =>
    refine ⟨?_, h.asleep, h.tornDown, h.leftLoop, h.shutdown⟩
    simp only [Pool.tally_append, h.running]
    rfl
  | refused hstart _ => exact h.put hstart rfl rfl rfl rfl rfl rfl
  | granted hstart htornDown => exact h.granted hstart htornDown
  | failed hstart _ => exact h.put hstart rfl rfl rfl rfl rfl rfl
  | threaded hstart _ => exact h.put hstart rfl rfl rfl rfl rfl rfl
  | failedStopped hstart => exact h.stopped hstart rfl rfl
  | returned hstart => exact h.put hstart rfl rfl rfl rfl rfl rfl
  | initialising hstart _ => exact h.put hstart rfl rfl rfl rfl rfl rfl
  | initialised hstart _ => exact h.put hstart rfl rfl rfl rfl rfl rfl
  | awaiting hstart => exact h.put hstart rfl rfl rfl rfl rfl rfl
  | awaited hstart _ => exact h.put hstart rfl rfl rfl rfl rfl rfl
  | ready hstart => exact h.put hstart rfl rfl rfl rfl rfl rfl
  | ran hstart => exact h.put hstart rfl rfl rfl rfl rfl rfl
  | tornDown hstart => exact h.put hstart rfl rfl rfl rfl rfl rfl
  | exited hstart => exact h.put hstart rfl rfl rfl rfl rfl rfl
  | stopped hstart => exact h.stopped hstart rfl rfl
  | created _ => exact h.congr rfl rfl rfl rfl rfl
  | destroyed _ _ => exact h.congr rfl rfl rfl rfl rfl
  | gone _ => exact h.congr rfl rfl rfl rfl rfl
  | teardown hteardown => exact h.wait (hawake _ hteardown rfl)
  | woken hteardown =>
    exact ⟨h.running, fun hasleep => by contradiction, fun _ => h.tornDown (by simp [hteardown]),
      fun hover => by contradiction, fun hshutdown => by simp [hawake _ hteardown rfl] at hshutdown⟩
  | waited hteardown =>
    have htornDown : process.tornDown = true := h.tornDown (by simp [hteardown])
    exact (h.wait (hawake _ hteardown rfl)).congr rfl rfl rfl htornDown rfl
  | shutdown hteardown _ =>
    have hzero := h.leftLoop (by simp [hteardown, OnTeardown.leftLoop])
    have htornDown := h.tornDown (by simp [hteardown])
    exact ⟨h.running,
      fun hasleep => by contradiction, fun _ => htornDown, fun _ => hzero, fun _ => rfl⟩
  | bare hteardown _ | joined hteardown _ =>
    have hzero := h.leftLoop (by simp [hteardown, OnTeardown.leftLoop])
    have htornDown := h.tornDown (by simp [hteardown])
    exact ⟨h.running,
      fun hasleep => by contradiction, fun _ => htornDown, fun _ => hzero, fun _ => rfl⟩

theorem counted (h : system.Reachable process) : process.Counted := by
  refine h.invariant (I := Counted) ?_ fun _ _ _ _ hcounted hstep => hcounted.step hstep
  rintro _ rfl
  exact ⟨rfl, fun h => by contradiction, fun h => by contradiction, fun h => by contradiction,
    fun h => by contradiction⟩

/-- The platform is made once, by the one thread that is in `uv_once` for it. -/
structure Provided (process : Process) : Prop where
  initialising : Pool.tally process.starts Start.initialising =
    if process.once = .running ∧ process.platform = .absent then 1 else 0
  awaiting : Pool.tally process.starts Start.awaiting =
    if process.once = .running ∧ process.platform ≠ .absent then 1 else 0
  untouched : process.once = .untouched → process.platform = .absent
  done : process.once = .done ↔ process.platform.served = true
  platforms : process.platforms = if process.platform = .absent then 0 else 1
  uses : ∀ (n : Nat) (start : Start), process.starts[n]? = some start → start.uses = true →
    process.once = .done
  retired : process.platform = .destroyed ∨ process.platform = .gone → process.shutdown = true

theorem Provided.put (h : process.Provided) (hstart : process.starts[n]? = some old)
    (hstarts : next.starts = process.starts.set n new) (hinit : new.initialising = old.initialising)
    (hawait : new.awaiting = old.awaiting) (huses : new.uses = true → process.once = .done)
    (honce : next.once = process.once) (hplatform : next.platform = process.platform)
    (hplatforms : next.platforms = process.platforms)
    (hshutdown : next.shutdown = process.shutdown) :
    next.Provided := by
  have hinits := Pool.tally_set hstart new Start.initialising
  have hawaits := Pool.tally_set hstart new Start.awaiting
  rw [hinit, h.initialising] at hinits
  rw [hawait, h.awaiting] at hawaits
  refine ⟨?_, ?_, ?_, ?_, ?_, ?_, ?_⟩ <;>
    simp only [hstarts, honce, hplatform, hplatforms, hshutdown]
  · omega
  · omega
  · exact h.untouched
  · exact h.done
  · exact h.platforms
  · exact Pool.forall_set huses fun m start _ hother => h.uses m start hother
  · exact h.retired

theorem Provided.same (h : process.Provided) (hstarts : next.starts = process.starts)
    (honce : next.once = process.once) (hplatform : next.platform = process.platform)
    (hplatforms : next.platforms = process.platforms)
    (hshutdown : process.shutdown = true → next.shutdown = true) : next.Provided := by
  obtain ⟨initialising, awaiting, untouched, done, platforms, uses, retired⟩ := h
  refine ⟨?_, ?_, ?_, ?_, ?_, ?_, fun hretired => hshutdown (retired (hplatform ▸ hretired))⟩ <;>
    simp only [hstarts, honce, hplatform, hplatforms] <;> assumption

theorem Provided.initialisingAt (h : process.Provided) (hstart : process.starts[n]? = some start)
    (hinit : start.initialising = true) : process.once = .running ∧ process.platform = .absent := by
  have hpos := Pool.tally_pos hstart hinit
  rw [h.initialising] at hpos
  by_contra hnone
  simp [hnone] at hpos

theorem Provided.awaitingAt (h : process.Provided) (hstart : process.starts[n]? = some start)
    (hawait : start.awaiting = true) : process.once = .running ∧ process.platform ≠ .absent := by
  have hpos := Pool.tally_pos hstart hawait
  rw [h.awaiting] at hpos
  by_contra hnone
  simp [hnone] at hpos

theorem Provided.step (h : process.Provided) (hstep : process.step label = some next) :
    next.Provided := by
  cases move_step hstep with
  | start =>
    refine ⟨?_, ?_, h.untouched, h.done, h.platforms, ?_, h.retired⟩
    · simp [Pool.tally_append, h.initialising, Start.initialising]
    · simp [Pool.tally_append, h.awaiting, Start.awaiting]
    · exact Pool.forall_append (fun huses => by contradiction) h.uses
  | refused hstart _ | granted hstart _ | failed hstart _ | threaded hstart _ | failedStopped hstart
  | tornDown hstart | exited hstart | stopped hstart =>
    exact h.put hstart rfl rfl rfl (fun huses => by contradiction) rfl rfl rfl rfl
  | returned hstart =>
    rename_i worker
    refine h.put hstart rfl ?_ ?_ (fun huses => h.uses _ _ hstart huses) rfl rfl rfl rfl <;>
      cases worker <;> rfl
  | initialising hstart honce =>
    rename_i caller
    have habsent := h.untouched honce
    have hinits := Pool.tally_set hstart (.started caller .initialising) Start.initialising
    have hawaits := Pool.tally_set hstart (.started caller .initialising) Start.awaiting
    rw [h.initialising] at hinits
    rw [h.awaiting] at hawaits
    have hnotDone : ¬ process.platform.served = true := fun hserved => by
      rw [h.done.mpr hserved] at honce
      contradiction
    refine ⟨hinits.trans ?_, hawaits.trans ?_, fun hfresh => by contradiction,
      ⟨fun hdone => by contradiction, fun hserved => absurd hserved hnotDone⟩, h.platforms, ?_,
      h.retired⟩
    · simp [honce, habsent, Start.initialising, Process.put]
    · simp [honce, habsent, Start.awaiting, Process.put]
    · refine Pool.forall_set (fun huses => by contradiction) fun m start _ hother huses => ?_
      rw [h.uses m start hother huses] at honce
      contradiction
  | initialised hstart honce =>
    exact h.put hstart rfl rfl rfl (fun _ => honce) rfl rfl rfl rfl
  | awaiting hstart =>
    rename_i caller
    obtain ⟨honce, habsent⟩ := h.initialisingAt hstart rfl
    have hinits := Pool.tally_set hstart (.started caller .awaiting) Start.initialising
    have hawaits := Pool.tally_set hstart (.started caller .awaiting) Start.awaiting
    have hmade := h.platforms
    rw [h.initialising] at hinits
    rw [h.awaiting] at hawaits
    refine ⟨hinits.trans ?_, hawaits.trans ?_, fun hfresh => ?_,
      ⟨fun hdone => ?_, fun h => by contradiction⟩, ?_, ?_, fun hretired => by simp at hretired⟩
    · simp [honce, habsent, Start.initialising]
    · simp [honce, habsent, Start.awaiting, Process.put]
    · rw [show process.once = .untouched from hfresh] at honce
      contradiction
    · rw [show process.once = .done from hdone] at honce
      contradiction
    · simp [hmade, habsent]
    · exact Pool.forall_set (fun huses => by contradiction) fun m start _ hother =>
        h.uses m start hother
  | awaited hstart hplatform =>
    rename_i caller
    obtain ⟨honce, hpresent⟩ := h.awaitingAt hstart rfl
    have hinits := Pool.tally_set hstart (.started caller .settingUp) Start.initialising
    have hawaits := Pool.tally_set hstart (.started caller .settingUp) Start.awaiting
    have hmade := h.platforms
    rw [h.initialising] at hinits
    rw [h.awaiting] at hawaits
    refine ⟨hinits.trans ?_, hawaits.trans ?_, fun hfresh => by contradiction,
      ⟨fun _ => rfl, fun _ => rfl⟩, ?_, Pool.forall_set (fun _ => rfl) fun _ _ _ _ _ => rfl,
      fun hretired => by simp at hretired⟩
    · simp [hpresent, Start.initialising]
    · simp [honce, hpresent, Start.awaiting]
    · simpa [hpresent, Process.put] using hmade
  | ready hstart => exact h.put hstart rfl rfl rfl (fun _ => h.uses _ _ hstart rfl) rfl rfl rfl rfl
  | ran hstart => exact h.put hstart rfl rfl rfl (fun _ => h.uses _ _ hstart rfl) rfl rfl rfl rfl
  | created hplatform =>
    obtain ⟨hinits, hawaits, huntouched, hdone, hmade, huses, -⟩ := h
    simp only [hplatform] at hinits hawaits huntouched hdone hmade
    exact ⟨by simpa using hinits, by simpa using hawaits, fun hfresh => (nomatch huntouched hfresh),
      hdone, hmade, huses, fun hretired => by simp at hretired⟩
  | destroyed hplatform hshutdown =>
    obtain ⟨hinits, hawaits, huntouched, hdone, hmade, huses, -⟩ := h
    simp only [hplatform] at hinits hawaits huntouched hdone hmade
    exact ⟨by simpa using hinits, by simpa using hawaits, fun hfresh => (nomatch huntouched hfresh),
      hdone, hmade, huses, fun _ => hshutdown⟩
  | gone hplatform =>
    have hshutdown := h.retired (Or.inl hplatform)
    obtain ⟨hinits, hawaits, huntouched, hdone, hmade, huses, -⟩ := h
    simp only [hplatform] at hinits hawaits huntouched hdone hmade
    exact ⟨by simpa using hinits, by simpa using hawaits, fun hfresh => (nomatch huntouched hfresh),
      hdone, hmade, huses, fun _ => hshutdown⟩
  | teardown _ | woken _ | waited _ | bare _ _ | joined _ _ => exact h.same rfl rfl rfl rfl id
  | shutdown _ _ => exact h.same rfl rfl rfl rfl fun _ => rfl

theorem provided (h : system.Reachable process) : process.Provided := by
  refine h.invariant (I := Provided) ?_ fun _ _ _ _ hprovided hstep => hprovided.step hstep
  rintro _ rfl
  exact ⟨rfl, rfl, fun _ => rfl, by decide, rfl, fun _ _ hstart => by simp at hstart, by simp⟩

/-- An exit callback returns once, and before its worklet counts itself as stopped. -/
def Reported (process : Process) : Prop :=
  ∀ n, process.exits.count n = if process.starts[n]?.any Start.reported then 1 else 0

theorem Reported.put (h : process.Reported) (hstart : process.starts[n]? = some old)
    (hstarts : next.starts = process.starts.set n new) (hsame : new.reported = old.reported)
    (hexits : next.exits = process.exits) : next.Reported := by
  intro m
  rw [hexits, h m, hstarts, Pool.any_set hstart]
  by_cases hm : m = n
  · subst hm
    simp [hstart, hsame]
  · simp [hm]

theorem Reported.step (h : process.Reported) (hstep : process.step label = some next) :
    next.Reported := by
  cases move_step hstep with
  | start =>
    intro m
    rw [h m]
    rcases Nat.lt_trichotomy m process.starts.length with hlt | heq | hgt
    · rw [List.getElem?_append_left hlt]
    · simp [heq, Start.reported]
    · rw [List.getElem?_eq_none (by omega), List.getElem?_eq_none (by simp; omega)]
  | refused hstart _ | granted hstart _ | failed hstart _ | threaded hstart _ | failedStopped hstart
  | initialising hstart _ | initialised hstart _ | awaiting hstart | awaited hstart _ | ready hstart
  | ran hstart | tornDown hstart | stopped hstart => exact h.put hstart rfl rfl rfl
  | returned hstart =>
    rename_i worker
    exact h.put hstart rfl (by cases worker <;> rfl) rfl
  | exited hstart =>
    rename_i n caller
    intro m
    have hcount := h m
    rw [List.count_cons, hcount, Process.put, Pool.any_set hstart]
    by_cases hm : m = n
    · subst hm
      simp [hstart, Start.reported]
    · have hne : ¬ n = m := Ne.symm hm
      simp [hm, hne]
  | created _ | destroyed _ _ | gone _ | teardown _ | woken _ | waited _ | shutdown _ _ | bare _ _
  | joined _ _ => exact h

theorem reported (h : system.Reachable process) : process.Reported := by
  refine h.invariant (I := Reported) ?_ fun _ _ _ _ hreported hstep => hreported.step hstep
  rintro _ rfl n
  simp

theorem Counted.none (h : process.Counted) (hover : process.teardown.leftLoop = true)
    (hstart : process.starts[n]? = some start) : start.counted = false := by
  refine eq_false_of_ne_true fun hcounted => ?_
  have hpos := Pool.tally_pos hstart hcounted
  rw [← h.running, h.leftLoop hover] at hpos
  contradiction

/-- What became of the starts of `process` once the wait loop was left there. -/
structure Barred (process last : Process) : Prop where
  leftLoop : last.teardown.leftLoop = true
  platforms : last.platforms = process.platforms
  refused : ∀ (n : Nat) (start : Start), last.starts[n]? = some start →
    process.starts[n]?.all (· == .entered) = true → start = .entered ∨ start = .returned (-1)
  threaded : ∀ (n : Nat) (start : Start), last.starts[n]? = some start → start.threaded = true →
    process.starts[n]?.any Start.threaded = true

variable {last : Process}

theorem Barred.put (h : process.Barred last) (hstart : last.starts[n]? = some old)
    (hstarts : next.starts = last.starts.set n new)
    (hrefused : old = .entered ∨ old = .returned (-1) → new = .entered ∨ new = .returned (-1))
    (hthreaded : new.threaded = true → old.threaded = true)
    (hteardown : next.teardown = last.teardown)
    (hplatforms : next.platforms = last.platforms) : process.Barred next := by
  refine ⟨hteardown ▸ h.leftLoop, hplatforms.trans h.platforms, ?_, ?_⟩ <;> rw [hstarts]
  · exact Pool.forall_set (fun hfresh => hrefused (h.refused n old hstart hfresh))
      fun m start _ hother => h.refused m start hother
  · exact Pool.forall_set (fun hmade => h.threaded n old hstart (hthreaded hmade))
      fun m start _ hother => h.threaded m start hother

theorem Barred.step (h : process.Barred last) (hcounted : last.Counted)
    (hstep : last.step label = some next) : process.Barred next := by
  have hidle {n : Nat} {start : Start} (hstart : last.starts[n]? = some start)
      (hcount : start.counted = true) : False := by
    rw [hcounted.none h.leftLoop hstart] at hcount
    contradiction
  have hover := h.leftLoop
  cases move_step hstep with
  | start =>
    refine ⟨h.leftLoop, h.platforms, ?_, ?_⟩
    · exact Pool.forall_append (fun _ => Or.inl rfl) h.refused
    · exact Pool.forall_append (fun hmade => by contradiction) h.threaded
  | refused hstart _ =>
    exact h.put hstart rfl (fun _ => Or.inr rfl) (fun hmade => by contradiction) rfl rfl
  | granted hstart htornDown =>
    rw [hcounted.tornDown (by rintro hbegun; simp [hbegun, OnTeardown.leftLoop] at hover)]
      at htornDown
    contradiction
  | failed hstart _ | threaded hstart _ | failedStopped hstart | initialising hstart _
  | initialised hstart _ | awaiting hstart | awaited hstart _ | ready hstart | ran hstart
  | tornDown hstart | exited hstart | stopped hstart => exact (hidle hstart rfl).elim
  | returned hstart =>
    exact h.put hstart rfl (fun hfresh => by simp at hfresh) (fun _ => rfl) rfl rfl
  | created _ | destroyed _ _ | gone _ => exact ⟨h.leftLoop, h.platforms, h.refused, h.threaded⟩
  | teardown hteardown | woken hteardown | waited hteardown =>
    simp [hteardown, OnTeardown.leftLoop] at hover
  | shutdown _ _ | bare _ _ | joined _ _ => exact ⟨rfl, h.platforms, h.refused, h.threaded⟩

theorem barred (h : system.Reachable process) (hover : process.teardown.leftLoop = true)
    {labels : List ProcessStep} (hrun : system.run process labels = some last) :
    process.Barred last := by
  refine h.persists (P := process.Barred) ⟨hover, rfl, ?_, ?_⟩
    (fun middle label next hmiddle hbarred hstep => hbarred.step (counted hmiddle) hstep) hrun
  · intro n start hstart hfresh
    left
    simpa [hstart] using hfresh
  · intro n start hstart hmade
    simp [hstart, hmade]

theorem serving (h : system.Reachable process) (hstart : process.starts[n]? = some start)
    (huses : start.uses = true) : process.platform = .serving ∧ process.shutdown = false := by
  have hlive : start.counted = true := by
    cases start with
    | started caller worker => cases worker <;> first | rfl | contradiction
    | entered | granted | failed _ | returned _ => contradiction
  have hawake : process.shutdown = false := by
    refine eq_false_of_ne_true fun hshutdown => ?_
    rw [(counted h).none ((counted h).shutdown hshutdown) hstart] at hlive
    contradiction
  have hserved := (provided h).done.mp ((provided h).uses n start hstart huses)
  have hretired := (provided h).retired
  refine ⟨?_, hawake⟩
  cases hplatform : process.platform <;> simp_all [OnPlatform.served]

end Process

/-- The count is of the starts that were granted and have not been counted as stopped. The
teardown only sleeps while there are some, and once it has left its wait loop there are
none, each exit callback has returned, and every other start is refused. -/
theorem bareWorkletTeardown_waits {process : Process} (h : Process.system.Reachable process) :
    process.running = Pool.tally process.starts Start.counted ∧ 0 ≤ process.running ∧
    (process.teardown = .asleep → 0 < process.running) ∧ process.platforms ≤ 1 ∧
    (∀ (n : Nat) (start : Start), process.starts[n]? = some start → start.uses = true →
      process.platform = .serving ∧ process.shutdown = false) ∧
    (process.teardown.leftLoop = true →
      (∀ (n : Nat) (start : Start), process.starts[n]? = some start → start.live = false ∧
        (start.threaded = true → process.exits.count n = 1)) ∧
      ∀ labels last, Process.system.run process labels = some last → process.Barred last) := by
  have hcounted := Process.counted h
  refine ⟨hcounted.running, hcounted.running ▸ Pool.tally_nonneg _ _, hcounted.asleep, ?_,
    fun n start => Process.serving h, fun hover => ⟨fun n start hstart => ?_, fun labels last =>
      Process.barred h hover⟩⟩
  · rw [(Process.provided h).platforms]
    split <;> omega
  · have hnone := hcounted.none hover hstart
    have hexits := Process.reported h n
    cases start with
    | started caller worker =>
      have hstopped : worker = .stopped := by simpa [Start.counted, Start.live] using hnone
      exact ⟨by simp [hstopped, Start.live],
        fun _ => by simpa [hstart, hstopped, Start.reported] using hexits⟩
    | entered | granted | failed _ | returned _ => simp [Start.live, Start.threaded]

def Process.waited : Process :=
  Process.system.result {}
    [.start, .onStart 0 0, .onStart 0 0, .onThread 0, .onThread 0, .onPlatform,
      .onThread 0, .onThread 0, .onStart 0 0, .start, .onStart 1 0, .onStart 1 (-11), .onTeardown,
      .onThread 0, .onThread 0, .onThread 0, .onThread 0, .onStart 1 0, .onTeardown]
      (by decide +kernel)

def Process.late : Process :=
  Process.system.result Process.waited [.onTeardown, .start, .onStart 2 0] (by decide +kernel)

theorem bareWorkletTeardown_waits_forOne : Process.waited.exits.count 0 = 1 ∧
    ∀ start, Process.late.starts[2]? = some start → start = .entered ∨ start = .returned (-1) := by
  obtain ⟨-, -, -, -, -, hover⟩ := bareWorkletTeardown_waits
    (.result (S := Process.system) rfl _ _ : Process.system.Reachable Process.waited)
  obtain ⟨hexits, hbarred⟩ := hover (by decide +kernel)
  refine ⟨(hexits 0 (.started .returned .stopped) (by decide +kernel)).2 rfl,
    fun start hstart => ?_⟩
  have hrun : Process.system.run Process.waited [.onTeardown, .start, .onStart 2 0] =
      some Process.late := Transition.System.run_result _ _ _ _
  exact (hbarred _ Process.late hrun).refused 2 start hstart (by decide +kernel)

end BareKit
