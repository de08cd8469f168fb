import BareKit.Custody
import BareKit.Handoff
import BareKit.Pool

/-! What a worklet and the threads of its ipcs do with the Java virtual machine on Android: the
threads that are attached to it, and the global references that the worklet takes and deletes. A
step is one function of `src/android`, or one call to the machine where another thread can tell. -/
namespace BareKit

/-- The thread that the host calls from, that of the worklet, and those of the polls. -/
inductive JvmThread where
  | host
  | worklet
  | poll (number : Nat)
  deriving DecidableEq, Repr

/-- What the host does next in `bare_kit__release_context`, which has attached the thread or not. -/
inductive OnRelease where
  | idle
  | deleting (attached : Bool)
  | detaching
  | returned
  deriving DecidableEq, Repr

/-- What `bare_ipc__signal_thread` does next. -/
inductive OnSignalThread where
  | entering
  | looping
  | exiting
  | gone
  deriving DecidableEq, Repr

namespace OnRelease

def left : OnRelease → Nat
  | .idle => 3
  | .deleting _ => 2
  | .detaching => 1
  | .returned => 0

def keeps : OnRelease → Bool
  | .idle | .deleting _ => true
  | .detaching | .returned => false

def pending : OnRelease → Bool
  | .deleting _ | .detaching => true
  | .idle | .returned => false

end OnRelease

namespace OnSignalThread

def left : OnSignalThread → Nat
  | .entering => 3
  | .looping => 2
  | .exiting => 1
  | .gone => 0

def attached : OnSignalThread → Bool
  | .looping | .exiting => true
  | .entering | .gone => false

def rests : OnSignalThread → Bool
  | .looping | .gone => true
  | .entering | .exiting => false

end OnSignalThread

/-- `loaded` is whether `bare_kit__jvm` is set, and `started` whether the script has returned from
`start`. `context` is the global reference in the options of the worklet, `published` the one in
the context of Bare, and `assets` that of the resources, each by the number it was taken under. A
`fault` is an assertion that fails, or the use of a reference that was deleted. -/
structure Jvm where
  handoff : Handoff := {}
  loaded : Bool := false
  attached : JvmThread → Bool := fun _ => false
  created : Bool := false
  retaining : Bool := false
  releasing : OnRelease := .idle
  started : Bool := false
  polls : List OnSignalThread := []
  context : Option Nat := none
  published : Option Nat := none
  assets : Option Nat := none
  issued : Nat := 0
  deleted : List Nat := []
  fault : Bool := false

inductive JvmStep where
  /-- `JNI_OnLoad`. -/
  | load
  /-- The host goes on from a thread that is attached or not. -/
  | turn (attached : Bool)
  | create (jvm context : Bool)
  /-- The rest of `bare_kit__retain_context`. -/
  | retain
  | start
  | destroy
  | host (ok : Bool)
  | thread
  -- The script, once it runs: `start` reads resources, and returns.
  | read
  | «return»
  /-- The function that reads resources is collected. -/
  | finalize
  /-- Bare drops its context. -/
  | contextDestroy
  | ipcCreate
  | signalThread (number : Nat)
  /-- The loop of a poll ends. -/
  | ends (number : Nat)
  deriving DecidableEq, Repr

namespace JvmStep

def continues : JvmStep → Bool
  | .retain | .host _ | .thread | .return | .finalize | .contextDestroy | .signalThread _ => true
  | .load | .turn _ | .create _ _ | .start | .destroy | .read | .ipcCreate | .ends _ => false

def stays : JvmStep → Bool
  | .turn _ => false
  | _ => true

end JvmStep

namespace Jvm

def check (jvm : Jvm) (holds : Bool) : Jvm := { jvm with fault := jvm.fault || !holds }

def attach (jvm : Jvm) (thread : JvmThread) (attached : Bool) : Jvm :=
  { jvm with attached := Function.update jvm.attached thread attached }

def use (jvm : Jvm) (ref : Nat) : Jvm := jvm.check (ref < jvm.issued && !jvm.deleted.contains ref)

def deleteGlobalRef (jvm : Jvm) (ref : Nat) : Jvm :=
  { jvm.use ref with deleted := ref :: jvm.deleted }

/-- `GetEnv` answers `JNI_OK` on a thread that is attached. -/
def getEnv (jvm : Jvm) (thread : JvmThread) : Jvm := jvm.check (jvm.loaded && jvm.attached thread)

def onThreadEnter (jvm : Jvm) (thread : JvmThread) : Jvm :=
  (jvm.check (jvm.loaded && !jvm.attached thread)).attach thread true

def onThreadExit (jvm : Jvm) (thread : JvmThread) : Jvm := (jvm.getEnv thread).attach thread false

def retainContext (jvm : Jvm) : Jvm :=
  { jvm.getEnv .host with context := some jvm.issued, issued := jvm.issued + 1, retaining := false }

def publishContext (jvm : Jvm) : Jvm :=
  match jvm.context with
  | none => jvm.check jvm.loaded
  | some context =>
    { (jvm.getEnv .worklet).use context with
      published := some jvm.issued, issued := jvm.issued + 1 }

def createResources (jvm : Jvm) : Jvm :=
  match jvm.context with
  | none => jvm
  | some context =>
    { (jvm.getEnv .worklet).use context with assets := some jvm.issued, issued := jvm.issued + 1 }

def onContextDestroy (jvm : Jvm) (ref : Nat) : Jvm :=
  { (jvm.getEnv .worklet).deleteGlobalRef ref with published := none }

def onResourcesFinalize (jvm : Jvm) (ref : Nat) : Jvm :=
  { (jvm.getEnv .worklet).deleteGlobalRef ref with assets := none }

/-- `bare_kit__release_context` by a host that has a context to release. -/
def releaseContext (jvm : Jvm) (context : Nat) : OnRelease → Option Jvm
  | .idle =>
    some { (jvm.check jvm.loaded).attach .host true with
      releasing := .deleting (!jvm.attached .host) }
  | .deleting attached =>
    some { jvm.deleteGlobalRef context with
      releasing := if attached then .detaching else .returned }
  | .detaching => some { jvm.attach .host false with releasing := .returned }
  | .returned => none

def onThread (jvm : Jvm) : Jvm :=
  match jvm.handoff.thread with
  | .entering => jvm.onThreadEnter .worklet
  | .publishing => jvm.publishContext
  | .resourcing => jvm.createResources
  | .leaving => jvm.onThreadExit .worklet
  | _ => jvm

/-- The loop runs once the script has started, and the teardown of Bare leaves neither its context
nor a function behind. -/
def ready (jvm : Jvm) : Bool :=
  match jvm.handoff.thread with
  | .running => jvm.started
  | .tearingDown => jvm.published.isNone && jvm.assets.isNone
  | _ => true

def stepHost (jvm : Jvm) (ok : Bool) : Option Jvm :=
  match jvm.handoff.host, jvm.context with
  | .releasing, some context =>
    (jvm.releaseContext context jvm.releasing).or
      ((jvm.handoff.stepHost ok).map fun handoff => { jvm with handoff })
  | _, _ => (jvm.handoff.stepHost ok).map fun handoff => { jvm with handoff }

def stepThread (jvm : Jvm) : Option Jvm :=
  if jvm.ready then (jvm.handoff.stepThread).map fun handoff => { jvm.onThread with handoff }
  else none

def stepSignalThread (jvm : Jvm) (number : Nat) : Option Jvm :=
  match jvm.polls[number]? with
  | some .entering =>
    some { jvm.onThreadEnter (.poll number) with polls := jvm.polls.set number .looping }
  | some .exiting =>
    some { jvm.onThreadExit (.poll number) with polls := jvm.polls.set number .gone }
  | _ => none

/-- A host that gives a context has the machine set and calls from a thread attached to it, and has
the machine set where it starts a worklet, once with success, or creates an ipc. -/
def step (jvm : Jvm) : JvmStep → Option Jvm
  | .load => some { jvm with loaded := true }
  | .turn attached =>
    if (jvm.handoff.host = .idle ∨ jvm.handoff.host = .gone) ∧ jvm.retaining = false then
      some (jvm.attach .host attached)
    else none
  | .create vm context =>
    if jvm.created = false ∧
      (context = true → (vm || jvm.loaded) = true ∧ jvm.attached .host = true) then
      some { jvm with created := true, loaded := vm || jvm.loaded, retaining := context }
    else none
  | .retain => if jvm.retaining then some jvm.retainContext else none
  | .start =>
    if jvm.created ∧ jvm.retaining = false ∧ jvm.loaded then
      (jvm.handoff.step .start).map fun handoff => { jvm with handoff }
    else none
  | .destroy =>
    if jvm.created ∧ jvm.retaining = false then
      (jvm.handoff.step .destroy).map fun handoff => { jvm with handoff }
    else none
  | .host ok => jvm.stepHost ok
  | .thread => jvm.stepThread
  | .read =>
    if jvm.handoff.thread = .running ∧ jvm.started = false then jvm.assets.map jvm.use else none
  | .return =>
    if jvm.handoff.thread = .running ∧ jvm.started = false then some { jvm with started := true }
    else none
  | .finalize =>
    if (jvm.handoff.thread = .running ∧ jvm.started) ∨ jvm.handoff.thread = .tearingDown then
      jvm.assets.map jvm.onResourcesFinalize
    else none
  | .contextDestroy =>
    if jvm.handoff.thread = .tearingDown then jvm.published.map jvm.onContextDestroy else none
  | .ipcCreate => if jvm.loaded then some { jvm with polls := jvm.polls ++ [.entering] } else none
  | .signalThread number => jvm.stepSignalThread number
  | .ends number =>
    if jvm.polls[number]? = some .looping then
      some { jvm with polls := jvm.polls.set number .exiting }
    else none

def system : Transition.System Jvm JvmStep where
  init jvm := jvm = {}
  step := step

/-- What is left of the calls under way, of the threads that were made, and of what the thread of
the worklet has yet to take and to delete. -/
def left (jvm : Jvm) : Nat :=
  jvm.handoff.left + (if jvm.handoff.host.left ≤ 1 then 0 else jvm.releasing.left) +
    (if jvm.handoff.thread ≤ .publishing then 1 else jvm.published.toList.length) +
    (if jvm.handoff.thread ≤ .resourcing then 1 else jvm.assets.toList.length) +
    (if jvm.started then 0 else 1) + (if jvm.retaining then 1 else 0) +
    Pool.load OnSignalThread.left jvm.polls

/-- The host is in no call, a worklet that was destroyed is over, and the polls wait. -/
structure Rested (jvm : Jvm) : Prop where
  handoff : jvm.handoff.Rested
  retaining : jvm.retaining = false
  polls : ∀ (number : Nat) phase, jvm.polls[number]? = some phase → phase.rests = true

end Jvm

/-! The steps of the handoff, as far as the machine is concerned. -/

namespace OnHandoff

def past : OnHandoff → Bool
  | .freeing | .gone => true
  | _ => false

end OnHandoff

namespace OnLoan

theorem le_trans {first second third : OnLoan} (hfirst : first ≤ second)
    (hsecond : second ≤ third) :
    first ≤ third := Nat.le_trans hfirst hsecond

theorem not_le_of_le {first second third : OnLoan} (hle : first ≤ second) (hlt : ¬ first ≤ third) :
    ¬ second ≤ third := fun hsecond => hlt (le_trans hle hsecond)

end OnLoan

namespace Handoff

variable {handoff next : Handoff}

theorem stepThread_spec (hstep : handoff.stepThread = some next) :
    next.thread.rank = handoff.thread.rank + 1 ∧ next.host = handoff.host ∧
      handoff.thread ≠ .absent := by
  cases hthread : handoff.thread <;>
    simp only [stepThread, hthread, reduceCtorEq, Option.ite_none_right_eq_some, Option.some.injEq]
      at hstep
  case meeting | waiting =>
    obtain ⟨-, rfl⟩ := hstep
    simp [OnLoan.rank, touchWorklet]
  all_goals
    subst hstep
    simp [OnLoan.rank, touchWorklet, touchArguments]

theorem stepHost_thread {ok : Bool} (hstep : handoff.stepHost ok = some next) :
    next.thread = handoff.thread ∨ handoff.host = .creating ∧ next.thread = .entering := by
  cases hhost : handoff.host <;>
    simp only [stepHost, hhost, reduceCtorEq, Option.ite_none_right_eq_some, Option.some.injEq]
      at hstep
  case granting | creating => cases ok <;> subst hstep <;> simp [returns, touchWorklet]
  case meeting | dismantling =>
    obtain ⟨-, rfl⟩ := hstep
    simp [returns, touchWorklet]
  all_goals
    subst hstep
    simp [touchWorklet, touchFinished]

theorem stepHost_past {ok : Bool} (hstep : handoff.stepHost ok = some next) :
    (next.host.past = true ↔ handoff.host = .releasing ∨ handoff.host = .freeing) ∧
      (next.host.starting = true → handoff.host.starting = true) ∧
      next.host.left < handoff.host.left := by
  cases hhost : handoff.host <;>
    simp only [stepHost, hhost, reduceCtorEq, Option.ite_none_right_eq_some, Option.some.injEq]
      at hstep
  case granting | creating =>
    cases ok <;> subst hstep <;>
      simp [returns, touchWorklet, OnHandoff.past, OnHandoff.starting, OnHandoff.left]
  case meeting | dismantling =>
    obtain ⟨-, rfl⟩ := hstep
    simp [returns, touchWorklet, OnHandoff.past, OnHandoff.starting, OnHandoff.left]
  all_goals
    subst hstep
    simp [OnHandoff.past, OnHandoff.starting, OnHandoff.left]

end Handoff

namespace Jvm

variable {jvm next : Jvm} {label : JvmStep}

inductive Place where
  | context
  | published
  | assets
  deriving DecidableEq, Repr

def custody (jvm : Jvm) : Custody Place where
  held
    | .context => if jvm.releasing.keeps then jvm.context.toList else []
    | .published => jvm.published.toList
    | .assets => jvm.assets.toList
  issued := jvm.issued
  released := jvm.deleted

structure Sound (jvm : Jvm) : Prop where
  handoff : jvm.handoff.Sound
  custody : jvm.custody.Sound []
  unborn : jvm.created = false → jvm.handoff = {} ∧ jvm.context = none ∧ jvm.retaining = false
  retaining : jvm.retaining = true →
    jvm.handoff = {} ∧ jvm.context = none ∧ jvm.loaded = true ∧ jvm.attached .host = true
  unloaded : jvm.loaded = false → jvm.handoff.thread = .absent ∧ jvm.handoff.host.starting = false ∧
    jvm.context = none ∧ jvm.polls = []
  worklet : jvm.attached .worklet = true ↔ .initialising ≤ jvm.handoff.thread ∧
    jvm.handoff.thread ≤ .leaving
  polls : ∀ number, jvm.attached (.poll number) = jvm.polls[number]?.any OnSignalThread.attached
  releasing : jvm.releasing ≠ .idle → jvm.context ≠ none ∧
    (jvm.handoff.host = .releasing ∨ jvm.handoff.host.past = true)
  released : jvm.handoff.host.past = true → jvm.context ≠ none → jvm.releasing = .returned
  pending : jvm.releasing.pending = true → jvm.attached .host = true
  published : jvm.published ≠ none → .opening ≤ jvm.handoff.thread ∧
    jvm.handoff.thread ≤ .tearingDown
  assets : jvm.assets ≠ none → .arriving ≤ jvm.handoff.thread ∧ jvm.handoff.thread ≤ .tearingDown
  unharmed : jvm.fault = false

@[simp] theorem check_true : jvm.check true = jvm := by simp [check]

/-! An assertion of the machine holds where the invariant does, so what a function does is what it
does to the references and to the threads. -/

theorem Sound.use (h : jvm.Sound) {ref : Nat} (place : Place)
    (hheld : ref ∈ jvm.custody.held place) :
    jvm.use ref = jvm := by
  have hissued : ref < jvm.issued := h.custody.issued place ref hheld
  have hdeleted : ref ∉ jvm.deleted := fun hreleased => (h.custody.past ref hreleased).2 place hheld
  simp [Jvm.use, hissued, hdeleted]

theorem Sound.known (h : jvm.Sound) (hthread : jvm.handoff.thread ≠ .absent) : jvm.loaded = true :=
  eq_true_of_ne_false fun hunloaded => hthread (h.unloaded hunloaded).1

theorem Sound.getEnv (h : jvm.Sound) (hfirst : .initialising ≤ jvm.handoff.thread)
    (hlast : jvm.handoff.thread ≤ .leaving) : jvm.getEnv .worklet = jvm := by
  have hknown : jvm.loaded = true := h.known fun habsent => by
    simp [habsent, OnLoan.le_iff, OnLoan.rank] at hfirst
  simp [Jvm.getEnv, hknown, h.worklet.mpr ⟨hfirst, hlast⟩]

/-- The context is kept while the thread has not met the host. -/
theorem Sound.kept (h : jvm.Sound) (hentered : .entering ≤ jvm.handoff.thread)
    (hmeeting : jvm.handoff.thread ≤ .meeting) : jvm.releasing = .idle := by
  by_contra hreleasing
  have harguments := (h.handoff.lent hentered hmeeting).2
  rw [h.handoff.arguments] at harguments
  rcases (h.releasing hreleasing).2 with hhost | hpast
  · simp [hhost, OnHandoff.starting] at harguments
  · cases hhost : jvm.handoff.host <;> simp [hhost, OnHandoff.starting, OnHandoff.past]
      at harguments hpast

theorem Sound.useContext (h : jvm.Sound) {context : Nat} (hcontext : jvm.context = some context)
    (hfirst : .initialising ≤ jvm.handoff.thread) (hlast : jvm.handoff.thread ≤ .meeting) :
    (jvm.getEnv .worklet).use context = jvm := by
  rw [h.getEnv hfirst (OnLoan.le_trans hlast (by decide))]
  apply h.use .context
  rw [Jvm.custody, h.kept (OnLoan.le_trans (by decide) hfirst) hlast]
  simp [OnRelease.keeps, hcontext]

theorem Sound.load (h : jvm.Sound) (hstep : jvm.step .load = some next) : next.Sound := by
  obtain rfl : { jvm with loaded := true } = next := by simpa [step] using hstep
  refine { h with retaining := fun hretaining => ?_, unloaded := fun hunloaded => ?_ }
  · exact (h.retaining hretaining).imp_right fun hnone => ⟨hnone.1, rfl, hnone.2.2⟩
  · cases hunloaded

theorem Sound.turn (h : jvm.Sound) {attached : Bool}
    (hstep : jvm.step (.turn attached) = some next) :
    next.Sound := by
  simp only [step, attach, Option.ite_none_right_eq_some, Option.some.injEq] at hstep
  obtain ⟨⟨hhost, hretaining⟩, rfl⟩ := hstep
  refine { h with
      retaining := fun hr => ?_, worklet := ?_, polls := fun number => ?_, pending := fun hp => ?_ }
  · simp_all
  · simpa using h.worklet
  · simpa using h.polls number
  · cases hreleasing : jvm.releasing <;> simp [hreleasing, OnRelease.pending] at hp
    all_goals
      have hpast := h.releasing (by simp [hreleasing])
      have hreleased := h.released
      simp_all [OnHandoff.past]

theorem Sound.create (h : jvm.Sound) {vm context : Bool}
    (hstep : jvm.step (.create vm context) = some next) :
    next.Sound := by
  simp only [step, Option.ite_none_right_eq_some, Option.some.injEq] at hstep
  obtain ⟨⟨hcreated, hgiven⟩, rfl⟩ := hstep
  obtain ⟨hhandoff, hcontext, -⟩ := h.unborn hcreated
  refine { h with
      unborn := fun hunborn => ?_, retaining := fun hretaining => ?_,
      unloaded := fun hunloaded => ?_ }
  · cases hunborn
  · exact ⟨hhandoff, hcontext, hgiven hretaining⟩
  · exact h.unloaded (Bool.or_eq_false_iff.mp hunloaded).2

theorem Sound.retain (h : jvm.Sound) (hstep : jvm.step .retain = some next) : next.Sound := by
  simp only [step, Option.ite_none_right_eq_some, Option.some.injEq] at hstep
  obtain ⟨hretaining, rfl⟩ := hstep
  obtain ⟨hhandoff, hcontext, hloaded, hattached⟩ := h.retaining hretaining
  have hidle : jvm.releasing = .idle := by
    by_contra hreleasing
    exact (h.releasing hreleasing).1 hcontext
  simp only [retainContext, Jvm.getEnv, hloaded, hattached, Bool.and_self, check_true]
  refine { h with
      custody := h.custody.step ?_, unborn := fun hunborn => ?_, retaining := ?_,
      unloaded := ?_, releasing := ?_, released := ?_ }
  · apply Custody.Step.ofIssue .context <;> try rfl
    · simp [Jvm.custody, hidle, hcontext, OnRelease.keeps]
    · intro other hother
      cases other <;> simp [Jvm.custody] at hother ⊢
  · have hnone := (h.unborn hunborn).2.2
    rw [hretaining] at hnone
    cases hnone
  all_goals simp_all [OnHandoff.past]

theorem Sound.call (h : jvm.Sound) {label : HandoffStep} {handoff : Handoff}
    (hcreated : jvm.created = true)
    (hretaining : jvm.retaining = false) (hcalls : label.continues = false)
    (hloaded : label = .start → jvm.loaded = true) (hstep : jvm.handoff.step label = some handoff) :
    Sound { jvm with handoff } := by
  have hhandoff := h.handoff.step hstep
  have hsame : handoff.thread = jvm.handoff.thread ∧ handoff.host.past = false ∧
      jvm.handoff.host = .idle ∧ (handoff.host.starting = true → label = .start) := by
    cases label with
    | start =>
      simp only [Handoff.step, Option.ite_none_right_eq_some, Option.some.injEq] at hstep
      obtain ⟨⟨hidle, -⟩, rfl⟩ := hstep
      simp [Handoff.touchWorklet, OnHandoff.past, hidle]
    | destroy =>
      simp only [Handoff.step, Option.ite_none_right_eq_some, Option.some.injEq] at hstep
      obtain ⟨hidle, rfl⟩ := hstep
      cases jvm.handoff.handle <;>
        simp [Handoff.touchWorklet, OnHandoff.past, OnHandoff.starting, hidle]
    | host ok => cases hcalls
    | thread => cases hcalls
  obtain ⟨hthread, hpast, hidle, hstarting⟩ := hsame
  have hreleasing : jvm.releasing = .idle := by
    by_contra hreleasing
    simpa [hidle, OnHandoff.past] using (h.releasing hreleasing).2
  refine { h with
      handoff := hhandoff, unborn := ?_, retaining := ?_, unloaded := fun hunloaded => ?_,
      worklet := ?_, releasing := ?_, released := ?_, published := ?_, assets := ?_ }
  · simp [hcreated]
  · simp [hretaining]
  · have hnone := h.unloaded hunloaded
    refine ⟨hthread.trans hnone.1, eq_false_of_ne_true fun hstarts => ?_, hnone.2.2⟩
    rw [hloaded (hstarting hstarts)] at hunloaded
    cases hunloaded
  · simpa [hthread] using h.worklet
  · simp [hreleasing]
  · simp [hpast]
  · simpa [hthread] using h.published
  · simpa [hthread] using h.assets

theorem Sound.onHost (h : jvm.Sound) {ok : Bool} {handoff : Handoff}
    (hstep : jvm.handoff.stepHost ok = some handoff)
    (hreleased : jvm.handoff.host = .releasing → jvm.context ≠ none → jvm.releasing = .returned) :
    Sound { jvm with handoff } := by
  have hhandoff := h.handoff.stepHost hstep
  obtain ⟨hpast, hstarting, hleft⟩ := Handoff.stepHost_past hstep
  have hthread : handoff.thread = jvm.handoff.thread ∨ jvm.handoff.host.starting = true ∧
      jvm.handoff.thread = .absent ∧ handoff.thread = .entering := by
    refine (Handoff.stepHost_thread hstep).imp_right fun hmade => ?_
    have hfits := h.handoff.fits
    simp only [Handoff.Fits, hmade.1] at hfits
    exact ⟨by simp [hmade.1, OnHandoff.starting], hfits.1, hmade.2⟩
  refine { h with
      handoff := hhandoff, unborn := fun hunborn => ?_, retaining := fun hretaining => ?_,
      unloaded := fun hunloaded => ?_, worklet := ?_,
      releasing := fun hreleasing => ⟨(h.releasing hreleasing).1, ?_⟩, released := fun hnext => ?_,
      published := fun hsome => ?_, assets := fun hsome => ?_ }
  · rw [(h.unborn hunborn).1] at hleft
    cases hleft
  · rw [(h.retaining hretaining).1] at hleft
    cases hleft
  · obtain ⟨habsent, hidle, hnone⟩ := h.unloaded hunloaded
    refine ⟨?_, eq_false_of_ne_true fun hstarts => ?_, hnone⟩
    · rcases hthread with hsame | ⟨hstarts, -⟩
      · exact hsame.trans habsent
      · rw [hidle] at hstarts
        cases hstarts
    · rw [hstarting hstarts] at hidle
      cases hidle
  · rcases hthread with hsame | ⟨-, habsent, hentering⟩
    · simpa [hsame] using h.worklet
    · have hworklet := h.worklet
      simp [habsent, hentering, OnLoan.le_iff, OnLoan.rank] at hworklet ⊢
      exact hworklet
  · right
    rw [hpast]
    refine (h.releasing hreleasing).2.imp_right fun hbefore => ?_
    cases hhost : jvm.handoff.host <;> simp [hhost, OnHandoff.past, OnHandoff.left]
      at hbefore hleft ⊢
  · rcases hpast.mp hnext with hhost | hhost
    · exact hreleased hhost
    · exact h.released (by simp [hhost, OnHandoff.past])
  · rcases hthread with hsame | ⟨-, habsent, -⟩
    · simpa [hsame] using h.published hsome
    · simpa [habsent, OnLoan.le_iff, OnLoan.rank] using h.published hsome
  · rcases hthread with hsame | ⟨-, habsent, -⟩
    · simpa [hsame] using h.assets hsome
    · simpa [habsent, OnLoan.le_iff, OnLoan.rank] using h.assets hsome

theorem Sound.release (h : jvm.Sound) {context : Nat} (hcontext : jvm.context = some context)
    (hhost : jvm.handoff.host = .releasing)
    (hstep : jvm.releaseContext context jvm.releasing = some next) :
    next.Sound := by
  have hloaded : jvm.loaded = true := eq_true_of_ne_false fun hunloaded => by
    simp [(h.unloaded hunloaded).2.2.1] at hcontext
  have hretaining : jvm.retaining = true → False := fun hretaining => by
    simp [(h.retaining hretaining).2.1] at hcontext
  have hpast : jvm.handoff.host.past = false := by simp [hhost, OnHandoff.past]
  cases hreleasing : jvm.releasing with
  | idle =>
    simp only [releaseContext, hreleasing, hloaded, check_true, Option.some.injEq] at hstep
    subst hstep
    refine { h with
        custody := ?_, retaining := ?_, worklet := ?_, polls := fun number => ?_,
        releasing := ?_, released := ?_, pending := ?_ }
    · have hsame := h.custody
      simpa [Jvm.custody, attach, hreleasing, OnRelease.keeps] using hsame
    · exact fun hr => (hretaining hr).elim
    · simpa [attach] using h.worklet
    · simpa [attach] using h.polls number
    · simp [attach, hcontext, hhost]
    · simp [attach, hpast]
    · simp [attach]
  | deleting attached =>
    have hheld : context ∈ jvm.custody.held .context := by
      simp [Jvm.custody, hreleasing, hcontext, OnRelease.keeps]
    simp only [releaseContext, hreleasing, deleteGlobalRef, h.use .context hheld, Option.some.injEq]
      at hstep
    subst hstep
    refine { h with
        custody := h.custody.step ?_, releasing := ?_, released := ?_, pending := fun _ => ?_ }
    · apply Custody.Step.ofRelease .context hheld <;> try rfl
      · cases attached <;> simp [Jvm.custody, hreleasing, hcontext, OnRelease.keeps]
      · intro other hother
        cases other <;> simp [Jvm.custody] at hother ⊢
    · simp [hcontext, hhost]
    · simp [hpast]
    · exact h.pending (by simp [hreleasing, OnRelease.pending])
  | detaching =>
    simp only [releaseContext, hreleasing, Option.some.injEq] at hstep
    subst hstep
    refine { h with
        custody := ?_, retaining := ?_, worklet := ?_, polls := fun number => ?_,
        releasing := ?_, released := ?_, pending := ?_ }
    · have hsame := h.custody
      simpa [Jvm.custody, attach, hreleasing, OnRelease.keeps] using hsame
    · exact fun hr => (hretaining hr).elim
    · simpa [attach] using h.worklet
    · simpa [attach] using h.polls number
    · simp [attach, hcontext, hhost]
    · simp [attach]
    · simp [attach, OnRelease.pending]
  | returned => simp [releaseContext, hreleasing] at hstep

theorem Sound.stepHost (h : jvm.Sound) {ok : Bool} (hstep : jvm.stepHost ok = some next) :
    next.Sound := by
  unfold Jvm.stepHost at hstep
  split at hstep
  · rename_i context hhost hcontext
    cases hrelease : jvm.releaseContext context jvm.releasing with
    | some later =>
      rw [hrelease, Option.some_or] at hstep
      exact h.release hcontext hhost (hrelease.trans hstep)
    | none =>
      rw [hrelease, Option.none_or] at hstep
      obtain ⟨handoff, hhandoff, rfl⟩ := Option.map_eq_some_iff.mp hstep
      refine h.onHost hhandoff fun _ _ => ?_
      cases hreleasing : jvm.releasing <;> simp [releaseContext, hreleasing] at hrelease
      rfl
  · rename_i hother
    obtain ⟨handoff, hhandoff, rfl⟩ := Option.map_eq_some_iff.mp hstep
    refine h.onHost hhandoff fun hhost hsome => ?_
    obtain ⟨context, hcontext⟩ := Option.ne_none_iff_exists'.mp hsome
    exact (hother context hhost hcontext).elim

theorem Sound.onThread (h : jvm.Sound) (hpresent : jvm.handoff.thread ≠ .absent) :
    jvm.onThread =
      match jvm.handoff.thread, jvm.context with
      | .entering, _ => jvm.attach .worklet true
      | .publishing, some _ => { jvm with published := some jvm.issued, issued := jvm.issued + 1 }
      | .resourcing, some _ => { jvm with assets := some jvm.issued, issued := jvm.issued + 1 }
      | .leaving, _ => jvm.attach .worklet false
      | _, _ => jvm := by
  have hloaded := h.known hpresent
  have hworklet := h.worklet
  have huse : jvm.context = some (jvm.context.getD 0) → _ := h.useContext
  cases hthread : jvm.handoff.thread <;> cases hcontext : jvm.context <;>
    simp [Jvm.onThread, hthread, onThreadEnter, onThreadExit, publishContext,
      createResources, hcontext,
        hloaded, OnLoan.le_iff, OnLoan.rank] at hworklet huse ⊢
  all_goals simp_all [Jvm.getEnv]

theorem onThread_frame (h : jvm.Sound) (hpresent : jvm.handoff.thread ≠ .absent) :
    jvm.onThread.created = jvm.created ∧ jvm.onThread.retaining = jvm.retaining ∧
    jvm.onThread.loaded = jvm.loaded ∧ jvm.onThread.releasing = jvm.releasing ∧
    jvm.onThread.context = jvm.context ∧ jvm.onThread.polls = jvm.polls ∧
    jvm.onThread.deleted = jvm.deleted ∧ jvm.onThread.fault = jvm.fault ∧
    jvm.onThread.started = jvm.started ∧
    ∀ thread, thread ≠ .worklet → jvm.onThread.attached thread = jvm.attached thread := by
  rw [h.onThread hpresent]
  split <;> simp +contextual [attach]

theorem Sound.custody_onThread (h : jvm.Sound) (hpresent : jvm.handoff.thread ≠ .absent)
    {handoff : Handoff} :
    ({ jvm.onThread with handoff } : Jvm).custody.Sound [] := by
  have hpublished := h.published
  have hassets := h.assets
  rw [h.onThread hpresent]
  split
  · exact h.custody
  · rename_i hthread _
    apply h.custody.step
    apply Custody.Step.ofIssue .published <;> try rfl
    · simpa [Jvm.custody, hthread, OnLoan.le_iff, OnLoan.rank] using hpublished
    · intro other hother
      cases other <;> simp [Jvm.custody] at hother ⊢
  · rename_i hthread _
    apply h.custody.step
    apply Custody.Step.ofIssue .assets <;> try rfl
    · simpa [Jvm.custody, hthread, OnLoan.le_iff, OnLoan.rank] using hassets
    · intro other hother
      cases other <;> simp [Jvm.custody] at hother ⊢
  · exact h.custody
  · exact h.custody

theorem Sound.worklet_onThread (h : jvm.Sound) (hpresent : jvm.handoff.thread ≠ .absent)
    {thread : OnLoan} (hrank : thread.rank = jvm.handoff.thread.rank + 1) :
    jvm.onThread.attached .worklet = true ↔ .initialising ≤ thread ∧ thread ≤ .leaving := by
  by_cases hentering : jvm.handoff.thread = .entering
  · simp [h.onThread hpresent, hentering, attach, OnLoan.le_iff, hrank]
  · by_cases hleaving : jvm.handoff.thread = .leaving
    · simp [h.onThread hpresent, hleaving, attach, OnLoan.le_iff, hrank]
    · have hsame : jvm.onThread.attached = jvm.attached := by
        rw [h.onThread hpresent]
        split <;> first | rfl | contradiction
      have hzero : jvm.handoff.thread.rank ≠ 0 := OnLoan.rank_injective.ne hpresent
      have hfirst : jvm.handoff.thread.rank ≠ 1 := OnLoan.rank_injective.ne hentering
      have hlast : jvm.handoff.thread.rank ≠ 14 := OnLoan.rank_injective.ne hleaving
      rw [hsame, h.worklet]
      simp only [OnLoan.le_iff, hrank, OnLoan.rank_initialising, OnLoan.rank_leaving]
      omega

theorem nothing_left (hready : jvm.ready = true) (hthread : jvm.handoff.thread = .tearingDown) :
    jvm.published = none ∧ jvm.assets = none := by
  simpa [ready, hthread] using hready

theorem Sound.published_onThread (h : jvm.Sound) (hpresent : jvm.handoff.thread ≠ .absent)
    (hready : jvm.ready = true) {thread : OnLoan}
    (hrank : thread.rank = jvm.handoff.thread.rank + 1) (hsome : jvm.onThread.published ≠ none) :
    .opening ≤ thread ∧ thread ≤ .tearingDown := by
  by_cases hpublishing : jvm.handoff.thread = .publishing
  · simp [OnLoan.le_iff, hrank, hpublishing]
  · have hsame : jvm.onThread.published = jvm.published := by
      rw [h.onThread hpresent]
      split <;> first | rfl | contradiction
    rw [hsame] at hsome
    have hlast : jvm.handoff.thread.rank ≠ 11 :=
      OnLoan.rank_injective.ne fun hthread => hsome (nothing_left hready hthread).1
    have hwithin := h.published hsome
    simp only [OnLoan.le_iff, hrank, OnLoan.rank_opening, OnLoan.rank_tearingDown] at hwithin ⊢
    omega

theorem Sound.assets_onThread (h : jvm.Sound) (hpresent : jvm.handoff.thread ≠ .absent)
    (hready : jvm.ready = true) {thread : OnLoan}
    (hrank : thread.rank = jvm.handoff.thread.rank + 1) (hsome : jvm.onThread.assets ≠ none) :
    .arriving ≤ thread ∧ thread ≤ .tearingDown := by
  by_cases hresourcing : jvm.handoff.thread = .resourcing
  · simp [OnLoan.le_iff, hrank, hresourcing]
  · have hsame : jvm.onThread.assets = jvm.assets := by
      rw [h.onThread hpresent]
      split <;> first | rfl | contradiction
    rw [hsame] at hsome
    have hlast : jvm.handoff.thread.rank ≠ 11 :=
      OnLoan.rank_injective.ne fun hthread => hsome (nothing_left hready hthread).2
    have hwithin := h.assets hsome
    simp only [OnLoan.le_iff, hrank, OnLoan.rank_arriving, OnLoan.rank_tearingDown] at hwithin ⊢
    omega

theorem Sound.stepThread (h : jvm.Sound) (hstep : jvm.stepThread = some next) : next.Sound := by
  simp only [Jvm.stepThread, Option.ite_none_right_eq_some] at hstep
  obtain ⟨hready, hstep⟩ := hstep
  obtain ⟨handoff, hhandoff, rfl⟩ := Option.map_eq_some_iff.mp hstep
  obtain ⟨hrank, hhost, hpresent⟩ := Handoff.stepThread_spec hhandoff
  obtain ⟨hcreated, hretaining, hloaded, hreleasing, hcontext, hpolls, -, hfault, -, hattached⟩ :=
    onThread_frame h hpresent
  have hcustody : ({ jvm.onThread with handoff } : Jvm).custody.Sound [] :=
    h.custody_onThread hpresent
  constructor <;>
    simp only [hcreated, hretaining, hloaded, hreleasing, hcontext, hpolls, hfault, hhost, ne_eq,
    reduceCtorEq, not_false_eq_true, hattached]
  case handoff => exact h.handoff.stepThread hhandoff
  case custody => simpa only [hcreated, hretaining, hloaded, hreleasing, hcontext, hpolls, hfault]
    using hcustody
  case unborn => exact fun hunborn => (hpresent (by rw [(h.unborn hunborn).1])).elim
  case retaining => exact fun hretaining => (hpresent (by rw [(h.retaining hretaining).1])).elim
  case unloaded => exact fun hunloaded => (hpresent (h.unloaded hunloaded).1).elim
  case polls => exact h.polls
  case releasing => exact h.releasing
  case released => exact h.released
  case pending => exact h.pending
  case unharmed => exact h.unharmed
  case worklet => exact h.worklet_onThread hpresent hrank
  case published => exact h.published_onThread hpresent hready hrank
  case assets => exact h.assets_onThread hpresent hready hrank

theorem Sound.read (h : jvm.Sound) (hstep : jvm.step .read = some next) : next = jvm := by
  simp only [step, Option.ite_none_right_eq_some] at hstep
  obtain ⟨-, hstep⟩ := hstep
  obtain ⟨ref, hassets, rfl⟩ := Option.map_eq_some_iff.mp hstep
  apply h.use .assets
  simp [Jvm.custody, hassets]

theorem Sound.finalize (h : jvm.Sound) (hstep : jvm.step .finalize = some next) :
    next.Sound ∧ jvm.assets ≠ none ∧
      next = { jvm with assets := none, deleted := jvm.assets.toList ++ jvm.deleted } := by
  simp only [step, Option.ite_none_right_eq_some] at hstep
  obtain ⟨hthread, hstep⟩ := hstep
  obtain ⟨ref, hassets, rfl⟩ := Option.map_eq_some_iff.mp hstep
  have hheld : ref ∈ jvm.custody.held .assets := by simp [Jvm.custody, hassets]
  have henv : jvm.getEnv .worklet = jvm := by
    apply h.getEnv <;> rcases hthread with ⟨hthread, -⟩ | hthread <;>
      simp [hthread, OnLoan.le_iff, OnLoan.rank]
  rw [onResourcesFinalize, henv, deleteGlobalRef, h.use .assets hheld]
  refine ⟨{ h with custody := h.custody.step ?_, assets := ?_ },
    by simp [hassets], by simp [hassets]⟩
  · apply Custody.Step.ofRelease .assets hheld <;> try rfl
    · simp [Jvm.custody, hassets]
    · intro other hother
      cases other <;> simp [Jvm.custody] at hother ⊢
  · simp

theorem Sound.contextDestroy (h : jvm.Sound) (hstep : jvm.step .contextDestroy = some next) :
    next.Sound ∧ jvm.published ≠ none ∧
      next = { jvm with published := none, deleted := jvm.published.toList ++ jvm.deleted } := by
  simp only [step, Option.ite_none_right_eq_some] at hstep
  obtain ⟨hthread, hstep⟩ := hstep
  obtain ⟨ref, hpublished, rfl⟩ := Option.map_eq_some_iff.mp hstep
  have hheld : ref ∈ jvm.custody.held .published := by simp [Jvm.custody, hpublished]
  have henv : jvm.getEnv .worklet = jvm := by
    apply h.getEnv <;> simp [hthread, OnLoan.le_iff, OnLoan.rank]
  rw [onContextDestroy, henv, deleteGlobalRef, h.use .published hheld]
  refine ⟨{ h with custody := h.custody.step ?_, published := ?_ },
    by simp [hpublished], by simp [hpublished]⟩
  · apply Custody.Step.ofRelease .published hheld <;> try rfl
    · simp [Jvm.custody, hpublished]
    · intro other hother
      cases other <;> simp [Jvm.custody] at hother ⊢
  · simp

theorem Sound.ofPolls (h : jvm.Sound) {polls : List OnSignalThread} {attached : JvmThread → Bool}
    (hloaded : jvm.loaded = true) (hhost : attached .host = jvm.attached .host)
    (hworklet : attached .worklet = jvm.attached .worklet)
    (hpolls : ∀ number, attached (.poll number) = polls[number]?.any OnSignalThread.attached) :
    Sound { jvm with attached, polls } := by
  refine { h with retaining := ?_, unloaded := ?_, worklet := ?_, polls := hpolls, pending := ?_ }
  · simpa only [hhost] using h.retaining
  · simp [hloaded]
  · simpa only [hworklet] using h.worklet
  · simpa only [hhost] using h.pending

theorem Sound.hasPolls (h : jvm.Sound) {number : Nat} {phase : OnSignalThread}
    (hphase : jvm.polls[number]? = some phase) : jvm.loaded = true :=
  eq_true_of_ne_false fun hunloaded => by simp [(h.unloaded hunloaded).2.2.2] at hphase

theorem Sound.ipcCreate (h : jvm.Sound) (hstep : jvm.step .ipcCreate = some next) : next.Sound := by
  simp only [step, Option.ite_none_right_eq_some, Option.some.injEq] at hstep
  obtain ⟨hloaded, rfl⟩ := hstep
  apply h.ofPolls hloaded rfl rfl
  intro number
  rw [h.polls number]
  rcases Nat.lt_trichotomy number jvm.polls.length with hlt | rfl | hgt
  · rw [List.getElem?_append_left hlt]
  · simp [OnSignalThread.attached]
  · rw [List.getElem?_eq_none (by omega), List.getElem?_eq_none (by simp; omega)]

theorem Sound.setPoll (h : jvm.Sound) {number : Nat} {old : OnSignalThread}
    (hphase : jvm.polls[number]? = some old) (new : OnSignalThread) :
    Sound { jvm.attach (.poll number) new.attached with polls := jvm.polls.set number new } := by
  refine h.ofPolls (h.hasPolls hphase) (by simp [attach]) (by simp [attach]) fun other => ?_
  rw [Pool.any_set hphase]
  by_cases hother : other = number
  · simp [attach, hother]
  · simp [attach, hother, h.polls other]

theorem Sound.signalThread (h : jvm.Sound) {number : Nat}
    (hstep : jvm.step (.signalThread number) = some next) :
    next.Sound ∧ ∃ old new, jvm.polls[number]? = some old ∧ new.left < old.left ∧
      next = { jvm.attach (.poll number) new.attached with polls := jvm.polls.set number new } := by
  have hpolls := h.polls number
  simp only [step, stepSignalThread] at hstep
  split at hstep
  · rename_i hphase
    simp only [hphase, Option.any_some, OnSignalThread.attached] at hpolls
    simp only [onThreadEnter, h.hasPolls hphase, hpolls, Bool.not_false, Bool.and_self, check_true,
      Option.some.injEq] at hstep
    subst hstep
    exact ⟨h.setPoll hphase .looping, _, .looping, hphase, by decide, rfl⟩
  · rename_i hphase
    simp only [hphase, Option.any_some, OnSignalThread.attached] at hpolls
    simp only [onThreadExit, Jvm.getEnv, h.hasPolls hphase, hpolls, Bool.and_self, check_true,
      Option.some.injEq] at hstep
    subst hstep
    exact ⟨h.setPoll hphase .gone, _, .gone, hphase, by decide, rfl⟩
  · cases hstep

theorem Sound.ends (h : jvm.Sound) {number : Nat} (hstep : jvm.step (.ends number) = some next) :
    next.Sound := by
  simp only [step, Option.ite_none_right_eq_some, Option.some.injEq] at hstep
  obtain ⟨hphase, rfl⟩ := hstep
  apply h.ofPolls (h.hasPolls hphase) rfl rfl
  intro other
  rw [Pool.any_set hphase, h.polls other]
  by_cases hother : other = number
  · simp [hother, hphase, OnSignalThread.attached]
  · simp [hother]

theorem Sound.step (h : jvm.Sound) (hstep : jvm.step label = some next) : next.Sound := by
  cases label with
  | load => exact h.load hstep
  | turn attached => exact h.turn hstep
  | create vm context => exact h.create hstep
  | retain => exact h.retain hstep
  | start =>
    simp only [Jvm.step, Option.ite_none_right_eq_some] at hstep
    obtain ⟨⟨hcreated, hretaining, hloaded⟩, hstep⟩ := hstep
    obtain ⟨handoff, hhandoff, rfl⟩ := Option.map_eq_some_iff.mp hstep
    exact h.call hcreated hretaining rfl (fun _ => hloaded) hhandoff
  | destroy =>
    simp only [Jvm.step, Option.ite_none_right_eq_some] at hstep
    obtain ⟨⟨hcreated, hretaining⟩, hstep⟩ := hstep
    obtain ⟨handoff, hhandoff, rfl⟩ := Option.map_eq_some_iff.mp hstep
    exact h.call hcreated hretaining rfl (fun hstart => by cases hstart) hhandoff
  | host ok => exact h.stepHost hstep
  | thread => exact h.stepThread hstep
  | read => exact h.read hstep ▸ h
  | «return» =>
    simp only [Jvm.step, Option.ite_none_right_eq_some, Option.some.injEq] at hstep
    obtain ⟨-, rfl⟩ := hstep
    exact { h with custody := h.custody }
  | finalize => exact (h.finalize hstep).1
  | contextDestroy => exact (h.contextDestroy hstep).1
  | ipcCreate => exact h.ipcCreate hstep
  | signalThread number => exact (h.signalThread hstep).1
  | ends number => exact h.ends hstep

theorem sound (h : system.Reachable jvm) : jvm.Sound := by
  apply h.invariant
  · rintro initial rfl
    have hcustody : custody {} = ⟨fun _ => [], 0, []⟩ := by
      apply Custody.ext
      · ext place
        cases place <;> rfl
      · rfl
      · rfl
    constructor
    case handoff => exact Handoff.sound (.start rfl)
    case custody => exact hcustody ▸ Custody.Sound.empty _ fun _ => rfl
    all_goals simp [OnLoan.le_iff, OnLoan.rank, OnHandoff.starting, OnHandoff.past,
      OnRelease.pending]
  · intro jvm label next _ hsound hstep
    exact hsound.step hstep

/-! What is begun comes to its end. -/

theorem Sound.left_onHost (h : jvm.Sound) {ok : Bool} {handoff : Handoff}
    (hstep : jvm.handoff.stepHost ok = some handoff) : left { jvm with handoff } < jvm.left := by
  have hlt := h.handoff.left_stepHost hstep
  obtain ⟨-, -, hhost⟩ := Handoff.stepHost_past hstep
  have hreleasing : (if handoff.host.left ≤ 1 then 0 else jvm.releasing.left) ≤
      if jvm.handoff.host.left ≤ 1 then 0 else jvm.releasing.left := by
    split <;> split <;> omega
  have hthread : handoff.thread = jvm.handoff.thread ∨ jvm.handoff.thread = .absent ∧
      handoff.thread = .entering := by
    refine (Handoff.stepHost_thread hstep).imp_right fun hmade => ?_
    have hfits := h.handoff.fits
    simp only [Handoff.Fits, hmade.1] at hfits
    exact ⟨hfits.1, hmade.2⟩
  simp only [left]
  rcases hthread with hsame | ⟨habsent, hentering⟩
  · simp only [hsame]
    omega
  · simp only [habsent, hentering, OnLoan.le_iff, OnLoan.rank, Nat.reduceLeDiff, ↓reduceIte]
    omega

theorem left_release {context : Nat} (hhost : jvm.handoff.host = .releasing)
    (hstep : jvm.releaseContext context jvm.releasing = some next) : next.left < jvm.left := by
  cases hreleasing : jvm.releasing <;>
    simp only [hreleasing, releaseContext, Option.some.injEq, reduceCtorEq] at hstep
  all_goals
    subst hstep
    simp only [left, check, attach, deleteGlobalRef, Jvm.use, hhost, hreleasing, OnHandoff.left,
      OnRelease.left, Nat.reduceLeDiff, ↓reduceIte]
  case deleting attached => cases attached <;> simp only [Bool.false_eq_true, ↓reduceIte] <;> omega
  all_goals omega

theorem Sound.left_stepHost (h : jvm.Sound) {ok : Bool} (hstep : jvm.stepHost ok = some next) :
    next.left < jvm.left := by
  unfold Jvm.stepHost at hstep
  split at hstep
  · rename_i context hhost hcontext
    cases hrelease : jvm.releaseContext context jvm.releasing with
    | some later =>
      rw [hrelease, Option.some_or] at hstep
      exact left_release hhost (hrelease.trans hstep)
    | none =>
      rw [hrelease, Option.none_or] at hstep
      obtain ⟨handoff, hhandoff, rfl⟩ := Option.map_eq_some_iff.mp hstep
      exact h.left_onHost hhandoff
  · obtain ⟨handoff, hhandoff, rfl⟩ := Option.map_eq_some_iff.mp hstep
    exact h.left_onHost hhandoff

theorem Sound.left_stepThread (h : jvm.Sound) (hstep : jvm.stepThread = some next) :
    next.left < jvm.left := by
  simp only [Jvm.stepThread, Option.ite_none_right_eq_some] at hstep
  obtain ⟨-, hstep⟩ := hstep
  obtain ⟨handoff, hhandoff, rfl⟩ := Option.map_eq_some_iff.mp hstep
  obtain ⟨hrank, hhost, hpresent⟩ := Handoff.stepThread_spec hhandoff
  obtain ⟨-, hretaining, -, hreleasing, -, hpolls, -, -, hstarted, -⟩ := onThread_frame h hpresent
  have hlt := Handoff.left_stepThread hhandoff
  have htaken :
      (if handoff.thread ≤ .publishing then 1 else jvm.onThread.published.toList.length) ≤
          (if jvm.handoff.thread ≤ .publishing then 1 else jvm.published.toList.length) ∧
        (if handoff.thread ≤ .resourcing then 1 else jvm.onThread.assets.toList.length) ≤
          if jvm.handoff.thread ≤ .resourcing then 1 else jvm.assets.toList.length := by
    rw [h.onThread hpresent]
    cases hthread : jvm.handoff.thread <;> cases jvm.context <;>
      simp_all [OnLoan.le_iff, OnLoan.rank, attach]
  simp only [left, hretaining, hreleasing, hpolls, hstarted, hhost]
  omega

theorem Sound.left_step (h : jvm.Sound) (hcontinues : label.continues = true)
    (hstep : jvm.step label = some next) : next.left < jvm.left := by
  cases label with
  | retain =>
    simp only [Jvm.step, Option.ite_none_right_eq_some, Option.some.injEq] at hstep
    obtain ⟨hretaining, rfl⟩ := hstep
    simp only [left, retainContext, Jvm.getEnv, check, hretaining, Bool.false_eq_true, ↓reduceIte]
    omega
  | host ok => exact h.left_stepHost hstep
  | thread => exact h.left_stepThread hstep
  | «return» =>
    simp only [Jvm.step, Option.ite_none_right_eq_some, Option.some.injEq] at hstep
    obtain ⟨⟨-, hstarted⟩, rfl⟩ := hstep
    simp only [left, hstarted, Bool.false_eq_true, ↓reduceIte]
    omega
  | finalize =>
    obtain ⟨-, hsome, rfl⟩ := h.finalize hstep
    obtain ⟨ref, hassets⟩ := Option.ne_none_iff_exists'.mp hsome
    have hpast : ¬ jvm.handoff.thread ≤ .resourcing :=
      OnLoan.not_le_of_le (h.assets hsome).1 (by decide)
    simp only [left, hpast, hassets, Option.toList_none, Option.toList_some, List.length_nil,
      List.length_singleton, ↓reduceIte]
    omega
  | contextDestroy =>
    obtain ⟨-, hsome, rfl⟩ := h.contextDestroy hstep
    obtain ⟨ref, hpublished⟩ := Option.ne_none_iff_exists'.mp hsome
    have hpast : ¬ jvm.handoff.thread ≤ .publishing :=
      OnLoan.not_le_of_le (h.published hsome).1 (by decide)
    simp only [left, hpast, hpublished, Option.toList_none, Option.toList_some, List.length_nil,
      List.length_singleton, ↓reduceIte]
    omega
  | signalThread number =>
    obtain ⟨-, old, new, hphase, hlt, rfl⟩ := h.signalThread hstep
    have hload := Pool.load_set hphase new OnSignalThread.left
    have hlighter : Pool.load OnSignalThread.left (jvm.polls.set number new) <
        Pool.load OnSignalThread.left jvm.polls := by omega
    exact Nat.add_lt_add_left hlighter _
  | _ => cases hcontinues

theorem Sound.goes (h : jvm.Sound) :
    jvm.Rested ∨ ∃ label next, label.continues = true ∧ jvm.step label = some next := by
  have hlabel (label : JvmStep) (hcontinues : label.continues = true)
      (hsome : (jvm.step label).isSome) :
      jvm.Rested ∨ ∃ label next, JvmStep.continues label = true ∧ jvm.step label = some next := by
    obtain ⟨next, hnext⟩ := Option.isSome_iff_exists.mp hsome
    exact Or.inr ⟨label, next, hcontinues, hnext⟩
  cases hretaining : jvm.retaining with
  | true => exact hlabel .retain rfl (by simp [Jvm.step, hretaining])
  | false =>
    by_cases hpolls : ∀ (number : Nat) phase, jvm.polls[number]? = some phase → phase.rests = true
    · rcases h.handoff.goes with hrested | ⟨label, handoff, hcontinues, hhandoff⟩
      · exact Or.inl ⟨hrested, hretaining, hpolls⟩
      · cases label with
        | start => cases hcontinues
        | destroy => cases hcontinues
        | host ok =>
          apply hlabel (.host ok) rfl
          have hsome : (jvm.handoff.stepHost ok).isSome :=
            Option.isSome_iff_exists.mpr ⟨handoff, hhandoff⟩
          simp only [Jvm.step, Jvm.stepHost]
          split <;> simp [hsome]
        | thread =>
          have hsome : jvm.handoff.stepThread.isSome :=
            Option.isSome_iff_exists.mpr ⟨handoff, hhandoff⟩
          by_cases hready : jvm.ready = true
          · exact hlabel .thread rfl (by simp [Jvm.step, Jvm.stepThread, hready, hsome])
          · cases hthread : jvm.handoff.thread <;> simp [ready, hthread] at hready
            case running => exact hlabel .return rfl (by simp [Jvm.step, hthread, hready])
            case tearingDown =>
              cases hpublished : jvm.published with
              | some ref =>
                exact hlabel .contextDestroy rfl (by simp [Jvm.step, hthread, hpublished])
              | none =>
                obtain ⟨ref, hassets⟩ := Option.ne_none_iff_exists'.mp (hready hpublished)
                exact hlabel .finalize rfl (by simp [Jvm.step, hthread, hassets])
    · simp only [not_forall] at hpolls
      obtain ⟨number, phase, hphase, hrests⟩ := hpolls
      apply hlabel (.signalThread number) rfl
      cases phase <;> simp [OnSignalThread.rests] at hrests <;>
        simp [Jvm.step, stepSignalThread, hphase]

def Found (jvm : Jvm) (attached : Bool) : Prop :=
  match jvm.releasing with
  | .deleting here => here = !attached
  | .detaching => attached = false
  | .idle | .returned => jvm.attached .host = attached

theorem Found.frame {attached : Bool} (h : jvm.Found attached)
    (hreleasing : next.releasing = jvm.releasing)
    (hhost : next.attached .host = jvm.attached .host) : next.Found attached := by
  unfold Found at h ⊢
  rw [hreleasing, hhost]
  exact h

theorem Found.release {attached : Bool} (h : jvm.Found attached)
    (hattached : jvm.releasing.pending = true
    → jvm.attached .host = true)
    {context : Nat} (hstep : jvm.releaseContext context jvm.releasing = some next) :
    next.Found attached := by
  unfold Found at h ⊢
  cases hreleasing : jvm.releasing <;>
    simp only [hreleasing, releaseContext, Option.some.injEq, reduceCtorEq] at hstep h hattached
  case idle =>
    subst hstep
    simp [h]
  case deleting here =>
    subst hstep h
    cases attached
    · simp
    · simpa [deleteGlobalRef, Jvm.use, check] using hattached rfl
  case detaching =>
    subst hstep
    simp [attach, h]

theorem Found.step {attached : Bool} (h : jvm.Found attached) (hsound : jvm.Sound)
    (hstays : label.stays = true)
    (hstep : jvm.step label = some next) : next.Found attached := by
  cases label with
  | turn here => cases hstays
  | host ok =>
    simp only [Jvm.step, Jvm.stepHost] at hstep
    split at hstep
    · rename_i context hhost hcontext
      cases hrelease : jvm.releaseContext context jvm.releasing with
      | some later =>
        rw [hrelease, Option.some_or] at hstep
        exact h.release hsound.pending (hrelease.trans hstep)
      | none =>
        rw [hrelease, Option.none_or] at hstep
        obtain ⟨handoff, -, rfl⟩ := Option.map_eq_some_iff.mp hstep
        exact h.frame rfl rfl
    · obtain ⟨handoff, -, rfl⟩ := Option.map_eq_some_iff.mp hstep
      exact h.frame rfl rfl
  | thread =>
    simp only [Jvm.step, Jvm.stepThread, Option.ite_none_right_eq_some] at hstep
    obtain ⟨handoff, hhandoff, rfl⟩ := Option.map_eq_some_iff.mp hstep.2
    obtain ⟨-, -, -, hreleasing, -, -, -, -, -, hattached⟩ :=
      onThread_frame hsound (Handoff.stepThread_spec hhandoff).2.2
    exact h.frame hreleasing (hattached .host (by simp))
  | signalThread number =>
    obtain ⟨-, old, new, -, -, rfl⟩ := hsound.signalThread hstep
    exact h.frame rfl (by simp [attach])
  | read => exact hsound.read hstep ▸ h
  | finalize =>
    obtain ⟨-, -, rfl⟩ := hsound.finalize hstep
    exact h.frame rfl rfl
  | contextDestroy =>
    obtain ⟨-, -, rfl⟩ := hsound.contextDestroy hstep
    exact h.frame rfl rfl
  | load =>
    obtain rfl : { jvm with loaded := true } = next := by simpa [Jvm.step] using hstep
    exact h.frame rfl rfl
  | start | destroy =>
    simp only [Jvm.step, Option.ite_none_right_eq_some] at hstep
    obtain ⟨handoff, -, rfl⟩ := Option.map_eq_some_iff.mp hstep.2
    exact h.frame rfl rfl
  | create _ _ | retain | «return» | ipcCreate | ends _ =>
    simp only [Jvm.step, Option.ite_none_right_eq_some, Option.some.injEq] at hstep
    obtain ⟨-, rfl⟩ := hstep
    exact h.frame rfl rfl

theorem found (hpending : jvm.releasing.pending = false) :
    jvm.Found (jvm.attached .host) := by
  unfold Found
  cases hreleasing : jvm.releasing <;> simp [hreleasing, OnRelease.pending] at hpending ⊢

theorem Sound.left_none (h : jvm.Sound) (hthread : jvm.handoff.thread = .gone) :
    jvm.published = none ∧ jvm.assets = none := by
  have hpublished := h.published
  have hassets := h.assets
  simp only [hthread, OnLoan.le_iff, OnLoan.rank] at hpublished hassets
  constructor
  · by_contra hsome
    have hpast := (hpublished hsome).2
    omega
  · by_contra hsome
    have hpast := (hassets hsome).2
    omega

/-- Where the worklet and its thread are over, so is every reference. -/
theorem Sound.over (h : jvm.Sound) (hhost : jvm.handoff.host = .gone)
    (hthread : jvm.handoff.thread = .absent ∨ jvm.handoff.thread = .gone) (place : Place) :
    jvm.custody.held place = [] := by
  cases place with
  | context =>
    by_cases hcontext : jvm.context = none
    · simp [Jvm.custody, hcontext]
    · simp [Jvm.custody, h.released (by simp [hhost, OnHandoff.past]) hcontext, OnRelease.keeps]
  | published =>
    have hpublished := h.published
    rcases hthread with hthread | hthread <;>
      simp [hthread, OnLoan.le_iff, OnLoan.rank] at hpublished <;> simp [Jvm.custody, hpublished]
  | assets =>
    have hassets := h.assets
    rcases hthread with hthread | hthread <;>
      simp [hthread, OnLoan.le_iff, OnLoan.rank] at hassets <;> simp [Jvm.custody, hassets]

end Jvm

/-- No assertion about the Java machine fails, and no reference is used once it is deleted. Each
one taken is kept in one place or was deleted once, the thread leaves none of its own, and none is
left of a worklet that is over. The thread of the worklet and those of the polls are attached while
they run, and the host leaves its own as it found it. Without new calls it all comes to an end. -/
theorem bareWorklet_references {jvm : Jvm} (h : Jvm.system.Reachable jvm) :
    (jvm.fault = false ∧ jvm.handoff.fault = false) ∧
    (∀ ref < jvm.issued,
      ((∃! place, ref ∈ jvm.custody.held place) ∧ jvm.deleted.count ref = 0) ∨
        ((∀ place, ref ∉ jvm.custody.held place) ∧ jvm.deleted.count ref = 1)) ∧
    (jvm.handoff.host = .gone → jvm.handoff.thread = .absent ∨ jvm.handoff.thread = .gone →
      jvm.attached .worklet = false ∧ ∀ ref < jvm.issued, jvm.deleted.count ref = 1) ∧
    (jvm.handoff.thread = .gone → jvm.published = none ∧ jvm.assets = none) ∧
    (.initialising ≤ jvm.handoff.thread → jvm.handoff.thread ≤ .leaving →
      jvm.attached .worklet = true) ∧
    (∀ number, jvm.polls[number]? = some .looping → jvm.attached (.poll number) = true) ∧
    (∀ labels next,
      (Jvm.system.guard fun _ label => label.stays = true).run jvm labels = some next →
      jvm.releasing.pending = false → next.releasing.pending = false →
      next.attached .host = jvm.attached .host) ∧
    ∀ labels next,
    (Jvm.system.guard fun _ label => label.continues = true).run jvm labels = some next →
      labels.length + next.left ≤ jvm.left ∧
      (next.Rested ∨ ∃ label last, label.continues = true ∧ next.step label = some last) := by
  have hsound := Jvm.sound h
  refine ⟨⟨hsound.unharmed, hsound.handoff.unharmed⟩, fun ref href => ?_, fun hhost hthread => ⟨?_,
      fun ref href => ?_⟩, hsound.left_none, fun hfirst hlast => hsound.worklet.mpr ⟨hfirst, hlast⟩,
      fun number hpoll => ?_, fun labels next hrun hpending hnext => ?_, fun labels next hrun => ?_⟩
  · exact (hsound.custody.owned href).imp_left fun hkept => ⟨hkept.1, hkept.2.2⟩
  · refine eq_false_of_ne_true fun hattached => ?_
    have hworklet := hsound.worklet.mp hattached
    rcases hthread with hthread | hthread <;> simp [hthread, OnLoan.le_iff, OnLoan.rank] at hworklet
  · rcases hsound.custody.owned href with ⟨⟨place, hheld, -⟩, -⟩ | ⟨-, hdeleted⟩
    · rw [hsound.over hhost hthread place] at hheld
      cases hheld
    · exact hdeleted
  · rw [hsound.polls number, hpoll]
    rfl
  · have hkept : next.Found (jvm.attached .host) := by
      refine h.persists_guard (P := fun jvm' => jvm'.Found (jvm.attached .host))
        (Jvm.found hpending) ?_ hrun
      intro jvm label next hreach hfound hstays hstep
      exact hfound.step (Jvm.sound hreach) hstays hstep
    unfold Jvm.Found at hkept
    cases hreleasing : next.releasing <;> simp_all [OnRelease.pending]
  · apply h.drains _ _ hrun
    · intro jvm label next hreach hcontinues hstep
      exact (Jvm.sound hreach).left_step hcontinues hstep
    · intro jvm hreach
      exact (Jvm.sound hreach).goes

/-- A worklet is given a context on a thread that is attached, runs, and is destroyed from one that
is not, with the poll of an ipc beside it. -/
def Jvm.destroyedDetached : Jvm :=
  Jvm.system.result {}
    [.turn true, .create true true, .retain, .start, .host true, .host true, .thread,
      .host true, .thread, .thread, .thread, .thread, .thread, .thread, .thread, .host true,
      .host true, .thread, .host true, .ipcCreate, .signalThread 0, .read, .return, .thread,
      .turn false, .destroy, .host true, .host true]
    (by decide +kernel)

def Jvm.destroying : List JvmStep :=
  [.contextDestroy, .host true, .finalize, .host true, .host true, .host true, .host true,
    .thread, .thread, .thread, .thread]

def Jvm.overDetached : Jvm :=
  (Jvm.system.guard fun _ label => label.continues = true).result Jvm.destroyedDetached
    Jvm.destroying
    (by decide +kernel)

theorem bareWorklet_references_destroyedDetached :
    (Jvm.destroyedDetached.issued = 3 ∧ Jvm.destroyedDetached.fault = false ∧
      Jvm.destroyedDetached.attached (.poll 0) = true) ∧
    (Jvm.overDetached.attached .worklet = false ∧ Jvm.overDetached.deleted.count 2 = 1 ∧
      Jvm.overDetached.attached .host = Jvm.destroyedDetached.attached .host) ∧
    11 + Jvm.overDetached.left ≤ Jvm.destroyedDetached.left := by
  have hreach : Jvm.system.Reachable Jvm.destroyedDetached := .result (S := Jvm.system) rfl _ _
  have hrun :=
    (Jvm.system.guard fun _ label => label.continues = true).run_result Jvm.destroyedDetached
    Jvm.destroying (by decide +kernel)
  have hover : Jvm.system.Reachable Jvm.overDetached := hreach.run_guard hrun
  obtain ⟨⟨hfault, -⟩, -, -, -, -, hpolls, hfound, hends⟩ := bareWorklet_references hreach
  obtain ⟨-, -, hgone, -⟩ := bareWorklet_references hover
  obtain ⟨hworklet, hdeleted⟩ := hgone (by decide +kernel) (by decide +kernel)
  refine ⟨⟨by decide +kernel, hfault, hpolls 0 (by decide +kernel)⟩, ⟨hworklet,
      hdeleted 2 (by decide +kernel), ?_⟩, (hends _ _ hrun).1⟩
  apply hfound Jvm.destroying
  · rfl
  · decide +kernel
  · decide +kernel

end BareKit
