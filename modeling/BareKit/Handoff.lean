import BareKit.Transition
import Mathlib.Tactic.Common

/-! What the thread of a worklet borrows of the host: the worklet and the arguments of the start
until it meets the host at the barrier, and what the host borrows of the thread: the semaphore on
its stack, until it posts it. A step is an access to one of them. -/
namespace BareKit

/-- What the host does next with the worklet: in `bare_worklet_start`, or in
`bare_worklet_destroy`. -/
inductive OnHandoff where
  | idle
  | granting
  | creating
  | detaching
  | arriving
  | meeting
  | dismantling
  | terminating
  | posting
  | discarding
  | releasing
  | freeing
  | gone
  deriving DecidableEq, Repr

/-- What `bare_worklet__on_thread` does next. -/
inductive OnLoan where
  | absent
  | entering
  | initialising
  | settingUp
  | publishing
  | opening
  | passing
  | resourcing
  | arriving
  | meeting
  | running
  | tearingDown
  | waiting
  | clearing
  | leaving
  | gone
  deriving DecidableEq, Repr

namespace OnHandoff

/-- The host is in `bare_worklet_start`. -/
def starting : OnHandoff → Bool
  | .granting | .creating | .detaching | .arriving | .meeting | .dismantling => true
  | _ => false

def left : OnHandoff → Nat
  | .idle | .gone => 0
  | .granting => 6
  | .creating => 5
  | .detaching => 4
  | .arriving => 3
  | .meeting => 2
  | .dismantling => 1
  | .terminating => 4
  | .posting => 3
  | .discarding => 3
  | .releasing => 2
  | .freeing => 1

def arrived : OnHandoff → Bool
  | .granting | .creating | .detaching | .arriving => false
  | _ => true

end OnHandoff

namespace OnLoan

def rank : OnLoan → Nat
  | .absent => 0
  | .entering => 1
  | .initialising => 2
  | .settingUp => 3
  | .publishing => 4
  | .opening => 5
  | .passing => 6
  | .resourcing => 7
  | .arriving => 8
  | .meeting => 9
  | .running => 10
  | .tearingDown => 11
  | .waiting => 12
  | .clearing => 13
  | .leaving => 14
  | .gone => 15

instance : LE OnLoan := ⟨fun left right => left.rank ≤ right.rank⟩
instance (left right : OnLoan) : Decidable (left ≤ right) :=
  inferInstanceAs (Decidable (left.rank ≤ right.rank))

theorem le_iff {left right : OnLoan} : left ≤ right ↔ left.rank ≤ right.rank := Iff.rfl

@[simp] theorem rank_absent : OnLoan.absent.rank = 0 := rfl
@[simp] theorem rank_entering : OnLoan.entering.rank = 1 := rfl
@[simp] theorem rank_initialising : OnLoan.initialising.rank = 2 := rfl
@[simp] theorem rank_settingUp : OnLoan.settingUp.rank = 3 := rfl
@[simp] theorem rank_publishing : OnLoan.publishing.rank = 4 := rfl
@[simp] theorem rank_opening : OnLoan.opening.rank = 5 := rfl
@[simp] theorem rank_passing : OnLoan.passing.rank = 6 := rfl
@[simp] theorem rank_resourcing : OnLoan.resourcing.rank = 7 := rfl
@[simp] theorem rank_arriving : OnLoan.arriving.rank = 8 := rfl
@[simp] theorem rank_meeting : OnLoan.meeting.rank = 9 := rfl
@[simp] theorem rank_running : OnLoan.running.rank = 10 := rfl
@[simp] theorem rank_tearingDown : OnLoan.tearingDown.rank = 11 := rfl
@[simp] theorem rank_waiting : OnLoan.waiting.rank = 12 := rfl
@[simp] theorem rank_clearing : OnLoan.clearing.rank = 13 := rfl
@[simp] theorem rank_leaving : OnLoan.leaving.rank = 14 := rfl
@[simp] theorem rank_gone : OnLoan.gone.rank = 15 := rfl

theorem rank_injective : Function.Injective rank := by
  intro left right hrank
  cases left <;> cases right <;> first | rfl | cases hrank

end OnLoan

/-- `handle` is whether `worklet->thread` is set and `finished` whether `worklet->finished` is,
to a semaphore that is there as long as `semaphore` says so. The arguments of a start are valid
while `arguments` says so, and `fault` is an access to what is not there. -/
structure Handoff where
  host : OnHandoff := .idle
  thread : OnLoan := .absent
  handle : Bool := false
  finished : Bool := false
  semaphore : Bool := false
  posted : Bool := false
  arguments : Bool := false
  freed : Bool := false
  fault : Bool := false
  deriving DecidableEq, Repr

inductive HandoffStep where
  | start
  | destroy
  /-- The next of what the host does. A start is granted or not, and its thread made or not. -/
  | host (ok : Bool)
  | thread
  deriving DecidableEq, Repr

def HandoffStep.continues : HandoffStep → Bool
  | .start | .destroy => false
  | .host _ | .thread => true

namespace Handoff

def touchWorklet (handoff : Handoff) : Handoff :=
  { handoff with fault := handoff.fault || handoff.freed }

def touchArguments (handoff : Handoff) : Handoff :=
  { handoff with fault := handoff.fault || !handoff.arguments }

/-- `worklet->finished` is not set, or points to a semaphore that is gone. -/
def touchFinished (handoff : Handoff) : Handoff :=
  { handoff with fault := handoff.fault || !(handoff.finished && handoff.semaphore) }

/-- `bare_worklet_start` returns. -/
def returns (handoff : Handoff) : Handoff := { handoff with host := .idle, arguments := false }

def stepHost (handoff : Handoff) (ok : Bool) : Option Handoff :=
  match handoff.host with
  | .idle | .gone => none
  | .granting => some (if ok then { handoff with host := .creating } else handoff.returns)
  | .creating =>
    some
      (if ok then { handoff.touchWorklet with
        host := .detaching, thread := .entering, handle := true }
      else { handoff.touchWorklet with handle := false }.returns)
  | .detaching => some { handoff.touchWorklet with host := .arriving }
  | .arriving => some { handoff.touchWorklet with host := .meeting }
  -- The barrier lets both go once both have come to it, and is destroyed once the other has left.
  | .meeting =>
    if .meeting ≤ handoff.thread then some { handoff.touchWorklet with host := .dismantling }
    else none
  | .dismantling => if .running ≤ handoff.thread then some handoff.touchWorklet.returns else none
  | .terminating => some { handoff.touchWorklet with host := .posting }
  | .posting =>
    some { handoff.touchWorklet.touchFinished with posted := true, host := .releasing }
  | .discarding => some { handoff.touchWorklet with host := .releasing }
  | .releasing => some { handoff.touchWorklet with host := .freeing }
  | .freeing => some { handoff.touchWorklet with freed := true, host := .gone }

def stepThread (handoff : Handoff) : Option Handoff :=
  match handoff.thread with
  | .absent | .gone => none
  | .entering => some { handoff.touchWorklet with thread := .initialising }
  | .initialising =>
    some { handoff.touchWorklet with finished := true, semaphore := true, thread := .settingUp }
  | .settingUp => some { handoff.touchWorklet.touchArguments with thread := .publishing }
  | .publishing => some { handoff.touchWorklet with thread := .opening }
  | .opening => some { handoff.touchWorklet with thread := .passing }
  | .passing => some { handoff.touchWorklet.touchArguments with thread := .resourcing }
  | .resourcing => some { handoff.touchWorklet with thread := .arriving }
  | .arriving => some { handoff.touchWorklet with thread := .meeting }
  | .meeting =>
    if handoff.host.arrived then some { handoff.touchWorklet with thread := .running } else none
  | .running => some { handoff with thread := .tearingDown }
  | .tearingDown => some { handoff with thread := .waiting }
  | .waiting => if handoff.posted then some { handoff with thread := .clearing } else none
  | .clearing => some { handoff with semaphore := false, thread := .leaving }
  | .leaving => some { handoff with thread := .gone }

/-- The host starts no worklet that it has started with success, and destroys none in a start. -/
def step (handoff : Handoff) : HandoffStep → Option Handoff
  | .start =>
    if handoff.host = .idle ∧ handoff.thread = .absent then
      some { handoff.touchWorklet with host := .granting, arguments := true }
    else none
  | .destroy =>
    if handoff.host = .idle then
      some { handoff.touchWorklet with
        host := if handoff.handle then .terminating else .discarding }
    else none
  | .host ok => handoff.stepHost ok
  | .thread => handoff.stepThread

def left (handoff : Handoff) : Nat := handoff.host.left + (15 - handoff.thread.rank)

/-- The host is in no call, and a worklet that was destroyed is over. -/
def Rested (handoff : Handoff) : Prop :=
  handoff.host = .idle ∨ handoff.host = .gone ∧ (handoff.thread = .absent ∨ handoff.thread = .gone)

def system : Transition.System Handoff HandoffStep where
  init handoff := handoff = {}
  step := step

/-- How far the thread can be for what the host does. -/
def Fits (handoff : Handoff) : Prop :=
  match handoff.host with
  | .granting | .creating | .discarding => handoff.thread = .absent ∧ handoff.handle = false
  | .detaching | .arriving =>
    .entering ≤ handoff.thread ∧ handoff.thread ≤ .meeting ∧ handoff.handle = true
  | .meeting => .entering ≤ handoff.thread ∧ handoff.handle = true
  | .dismantling => .meeting ≤ handoff.thread ∧ handoff.handle = true
  | .terminating | .posting =>
    .running ≤ handoff.thread ∧ handoff.thread ≤ .waiting ∧ handoff.handle = true
  | .idle | .releasing | .freeing | .gone =>
    (handoff.thread = .absent ∧ handoff.handle = false) ∨
      (.running ≤ handoff.thread ∧ handoff.handle = true)

structure Sound (handoff : Handoff) : Prop where
  fits : handoff.Fits
  arguments : handoff.arguments = handoff.host.starting
  freed : handoff.freed = true ↔ handoff.host = .gone
  finished : handoff.finished = true ↔ .settingUp ≤ handoff.thread
  semaphore : handoff.semaphore = true ↔ .settingUp ≤ handoff.thread ∧ handoff.thread ≤ .clearing
  posted : handoff.posted = true ↔ handoff.handle = true ∧
    (handoff.host = .releasing ∨ handoff.host = .freeing ∨ handoff.host = .gone)
  cleared : .clearing ≤ handoff.thread → handoff.posted = true
  unharmed : handoff.fault = false


variable {handoff next : Handoff} {label : HandoffStep}

theorem ne_absent (hentered : .entering ≤ handoff.thread) : handoff.thread ≠ .absent := by
  intro habsent
  rw [habsent] at hentered
  revert hentered
  decide

/-- A thread that has not left the barrier has what it borrows. -/
theorem Sound.lent (h : handoff.Sound) (hentered : .entering ≤ handoff.thread)
    (hmeeting : handoff.thread ≤ .meeting) : handoff.freed = false ∧ handoff.arguments = true := by
  have hthread := ne_absent hentered
  have hstarting : handoff.host.starting = true := by
    have hfits := h.fits
    cases hhost : handoff.host <;> simp only [Fits, hhost, OnHandoff.starting] at hfits ⊢
    all_goals simp [OnLoan.le_iff, hthread] at hfits hmeeting
    all_goals omega
  have hfreed : handoff.freed ≠ true := fun hgone => by
    rw [h.freed.mp hgone] at hstarting
    cases hstarting
  exact ⟨eq_false_of_ne_true hfreed, h.arguments.trans hstarting⟩

theorem Fits.advance (h : handoff.Fits) (hentered : .entering ≤ handoff.thread)
    (hthread : next.thread.rank = handoff.thread.rank + 1) (hhost : next.host = handoff.host)
    (hhandle : next.handle = handoff.handle)
    (hbarrier : handoff.thread = .meeting → handoff.host.arrived = true)
    (hsemaphore : ¬ next.thread ≤ .waiting →
      handoff.host = .releasing ∨ handoff.host = .freeing ∨ handoff.host = .gone) : next.Fits := by
  have habsent := ne_absent hentered
  cases hwhere : handoff.host <;>
    simp [Fits, hhost, hhandle, hwhere, habsent, OnLoan.le_iff, hthread, OnHandoff.arrived]
      at h hentered hbarrier hsemaphore ⊢
  case detaching | arriving =>
    have hrank : handoff.thread.rank ≠ 9 := OnLoan.rank_injective.ne hbarrier
    grind
  all_goals grind

theorem Sound.advance (h : handoff.Sound) (hentered : .entering ≤ handoff.thread)
    (hthread : next.thread.rank = handoff.thread.rank + 1) (hhost : next.host = handoff.host)
    (hhandle : next.handle = handoff.handle) (harguments : next.arguments = handoff.arguments)
    (hfreed : next.freed = handoff.freed) (hposted : next.posted = handoff.posted)
    (hbarrier : handoff.thread = .meeting → handoff.host.arrived = true)
    (hwaited : ¬ next.thread ≤ .waiting → handoff.posted = true)
    (hfinished : next.finished = true ↔ .settingUp ≤ next.thread)
    (hsemaphore : next.semaphore = true ↔ .settingUp ≤ next.thread ∧ next.thread ≤ .clearing)
    (hfault : next.fault = false) : next.Sound where
  fits := h.fits.advance hentered hthread hhost hhandle hbarrier fun hpast =>
    (h.posted.mp (hwaited hpast)).2
  arguments := by rw [harguments, hhost, h.arguments]
  freed := by rw [hfreed, hhost, h.freed]
  finished := hfinished
  semaphore := hsemaphore
  posted := by rw [hposted, hhandle, hhost, h.posted]
  cleared hnext := by
    rw [hposted]
    apply hwaited
    simp only [OnLoan.le_iff, OnLoan.rank] at hnext ⊢
    omega
  unharmed := hfault

theorem touchWorklet_eq (hfreed : handoff.freed = false) : handoff.touchWorklet = handoff := by
  cases handoff
  simp_all [touchWorklet]

theorem touchArguments_eq (harguments : handoff.arguments = true) :
    handoff.touchArguments = handoff := by
  cases handoff
  simp_all [touchArguments]

theorem Sound.touches (h : handoff.Sound) (hentered : .entering ≤ handoff.thread)
    (hmeeting : handoff.thread ≤ .meeting) :
    handoff.touchWorklet = handoff ∧ handoff.touchArguments = handoff := by
  obtain ⟨hfreed, harguments⟩ := h.lent hentered hmeeting
  exact ⟨touchWorklet_eq hfreed, touchArguments_eq harguments⟩

/-- The thread goes on, and neither makes nor clears the semaphore. -/
theorem Sound.goesOn (h : handoff.Sound) {thread : OnLoan} (hentered : .entering ≤ handoff.thread)
    (hthread : thread.rank = handoff.thread.rank + 1)
    (hbarrier : handoff.thread = .meeting → handoff.host.arrived = true)
    (hwaited : ¬ thread ≤ .waiting → handoff.posted = true)
    (hinitialising : handoff.thread.rank ≠ 2) (hclearing : handoff.thread.rank ≠ 13) :
    Sound { handoff with thread } := by
  refine h.advance hentered hthread rfl rfl rfl rfl rfl hbarrier hwaited ?_ ?_ h.unharmed
  · rw [h.finished]
    simp only [OnLoan.le_iff, OnLoan.rank_settingUp, hthread]
    omega
  · rw [h.semaphore]
    simp only [OnLoan.le_iff, OnLoan.rank_settingUp, OnLoan.rank_clearing, hthread]
    omega

theorem Sound.initialises (h : handoff.Sound) (hthread : handoff.thread = .initialising) :
    Sound { handoff with finished := true, semaphore := true, thread := .settingUp } := by
  apply h.advance <;> simp [hthread, OnLoan.le_iff, OnLoan.rank, h.unharmed]

theorem Sound.clears (h : handoff.Sound) (hthread : handoff.thread = .clearing) :
    Sound { handoff with semaphore := false, thread := .leaving } := by
  have hposted := h.cleared (by simp [hthread, OnLoan.le_iff])
  have hfinished := h.finished
  rw [hthread] at hfinished
  apply h.advance <;> simp [hthread, OnLoan.le_iff, OnLoan.rank, h.unharmed, hposted]
  exact hfinished.mpr (by decide)

theorem Sound.stepThread (h : handoff.Sound) (hstep : handoff.stepThread = some next) :
    next.Sound := by
  have htouches := h.touches
  cases hthread : handoff.thread <;> rw [hthread] at htouches <;>
    simp only [Handoff.stepThread, hthread, reduceCtorEq, Option.ite_none_right_eq_some,
      Option.some.injEq] at hstep
  -- the semaphore comes and goes
  case initialising =>
    rw [(htouches (by decide) (by decide)).1] at hstep
    exact hstep ▸ h.initialises hthread
  case clearing => exact hstep ▸ h.clears hthread
  -- the host lets the thread go on
  case meeting =>
    obtain ⟨harrived, rfl⟩ := hstep
    rw [(htouches (by decide) (by decide)).1]
    apply h.goesOn <;> simp [hthread, harrived, OnLoan.le_iff, OnLoan.rank]
  case waiting =>
    obtain ⟨hposted, rfl⟩ := hstep
    apply h.goesOn <;> simp [hthread, hposted, OnLoan.le_iff, OnLoan.rank]
  case leaving =>
    subst hstep
    have hposted := h.cleared (by simp [hthread, OnLoan.le_iff, OnLoan.rank])
    apply h.goesOn <;> simp [hthread, hposted, OnLoan.le_iff, OnLoan.rank]
  case running | tearingDown =>
    subst hstep
    apply h.goesOn <;> simp [hthread, OnLoan.le_iff, OnLoan.rank]
  -- the thread uses what it has borrowed
  all_goals
    obtain ⟨hworklet, harguments⟩ := htouches (by decide) (by decide)
    simp only [hworklet, harguments] at hstep
    subst hstep
    apply h.goesOn <;> simp [hthread, OnLoan.le_iff, OnLoan.rank]

theorem Sound.uses (h : handoff.Sound) (hgone : handoff.host ≠ .gone) :
    handoff.touchWorklet = handoff :=
  touchWorklet_eq (eq_false_of_ne_true fun hfreed => hgone (h.freed.mp hfreed))

/-- The host goes on with its call, and neither posts nor frees. -/
theorem Sound.proceeds (h : handoff.Sound) {host : OnHandoff}
    (hstarting : host.starting = handoff.host.starting) (hgone : handoff.host ≠ .gone)
    (hleft : host ≠ .gone)
    (hposted : handoff.posted = true ↔ handoff.handle = true ∧
      (host = .releasing ∨ host = .freeing ∨ host = .gone))
    (hfits : Fits { handoff with host }) : Sound { handoff with host } :=
  { h with
    fits := hfits
    arguments := h.arguments.trans hstarting.symm
    freed := by simpa [hleft, hgone] using h.freed
    posted := hposted }

theorem Sound.over (h : handoff.Sound) (hstarting : handoff.host.starting = true)
    (hover : (handoff.thread = .absent ∧ handoff.handle = false) ∨
      (.running ≤ handoff.thread ∧ handoff.handle = true)) : handoff.returns.Sound := by
  refine { h with fits := hover, arguments := rfl, freed := ?_, posted := ?_ }
  · have hfreed := h.freed
    revert hstarting hfreed
    cases handoff.host <;> simp [OnHandoff.starting, returns]
  · have hposted := h.posted
    revert hstarting hposted
    cases handoff.host <;> simp [OnHandoff.starting, returns]

theorem Sound.makes (h : handoff.Sound) (hhost : handoff.host = .creating) :
    Sound { handoff with host := .detaching, thread := .entering, handle := true } := by
  obtain ⟨hthread, -⟩ : handoff.thread = .absent ∧ handoff.handle = false := by
    simpa only [Fits, hhost] using h.fits
  have hfinished := h.finished
  have hsemaphore := h.semaphore
  have hposted := h.posted
  rw [hthread] at hfinished hsemaphore
  rw [hhost] at hposted
  refine { h with
      fits := ?_, arguments := ?_, freed := ?_, finished := ?_, semaphore := ?_, posted := ?_,
      cleared := ?_ }
  · simp [Fits, OnLoan.le_iff]
  · simpa [hhost, OnHandoff.starting] using h.arguments
  · simpa [hhost] using h.freed
  · simpa [OnLoan.le_iff] using hfinished
  · simpa [OnLoan.le_iff] using hsemaphore
  · simpa using hposted
  · simp [OnLoan.le_iff]

theorem Sound.posts (h : handoff.Sound) (hhost : handoff.host = .posting) :
    handoff.touchFinished = handoff ∧
      Sound { handoff with posted := true, host := .releasing } := by
  obtain ⟨hrunning, hwaiting, hhandle⟩ : .running ≤ handoff.thread ∧ handoff.thread ≤ .waiting ∧
      handoff.handle = true := by simpa only [Fits, hhost] using h.fits
  simp only [OnLoan.le_iff, OnLoan.rank_running, OnLoan.rank_waiting] at hrunning hwaiting
  have hfinished : handoff.finished = true := h.finished.mpr (by
    simp only [OnLoan.le_iff, OnLoan.rank_settingUp]
    omega)
  have hsemaphore : handoff.semaphore = true := h.semaphore.mpr (by
    simp only [OnLoan.le_iff, OnLoan.rank_settingUp, OnLoan.rank_clearing]
    omega)
  refine ⟨?_, { h with
      fits := Or.inr ⟨hrunning, hhandle⟩, arguments := ?_, freed := ?_, posted := ?_,
      cleared := fun _ => rfl }⟩
  · cases handoff
    simp_all [touchFinished]
  · simpa [hhost, OnHandoff.starting] using h.arguments
  · simpa [hhost] using h.freed
  · simp [hhandle]

theorem Sound.frees (h : handoff.Sound) (hhost : handoff.host = .freeing) :
    Sound { handoff with freed := true, host := .gone } := by
  refine { h with fits := ?_, arguments := ?_, freed := by simp, posted := ?_ }
  · simpa only [Fits, hhost] using h.fits
  · simpa [hhost, OnHandoff.starting] using h.arguments
  · simpa [hhost] using h.posted

theorem Sound.stepHost (h : handoff.Sound) {ok : Bool} (hstep : handoff.stepHost ok = some next) :
    next.Sound := by
  have hfits := h.fits
  have hposted := h.posted
  have huses := h.uses
  cases hhost : handoff.host <;>
    simp only [hhost, Fits, ne_eq, reduceCtorEq, not_false_eq_true, true_imp_iff,
      or_self, and_false, or_true, true_or, and_true, iff_false] at hfits hposted huses <;>
    simp only [Handoff.stepHost, hhost, huses, reduceCtorEq, Option.ite_none_right_eq_some,
      Option.some.injEq] at hstep
  case granting =>
    cases ok <;> subst hstep
    · exact h.over (by simp [hhost, OnHandoff.starting]) (Or.inl hfits)
    · apply h.proceeds <;> simp [hhost, OnHandoff.starting, Fits, hposted, hfits]
  case creating =>
    cases ok <;> subst hstep
    · have hsame : { handoff with host := .creating, handle := false } = handoff := by
        rw [← hfits.2, ← hhost]
      rw [if_neg Bool.false_ne_true, hsame]
      exact h.over (by simp [hhost, OnHandoff.starting]) (Or.inl hfits)
    · exact h.makes hhost
  case dismantling =>
    obtain ⟨hrunning, rfl⟩ := hstep
    exact h.over (by simp [hhost, OnHandoff.starting]) (Or.inr ⟨hrunning, hfits.2⟩)
  case posting =>
    obtain ⟨hfinished, hposts⟩ := h.posts hhost
    rw [hfinished] at hstep
    exact hstep ▸ hposts
  case freeing => exact hstep ▸ h.frees hhost
  case meeting =>
    obtain ⟨hmeeting, rfl⟩ := hstep
    apply h.proceeds <;> simp [hhost, OnHandoff.starting, Fits, hposted, hmeeting, hfits]
  case detaching | arriving | terminating | discarding | releasing =>
    subst hstep
    apply h.proceeds <;> simp [hhost, OnHandoff.starting, Fits, hposted, hfits]

theorem Sound.starts (h : handoff.Sound) (hhost : handoff.host = .idle)
    (hthread : handoff.thread = .absent) :
    Sound { handoff with host := .granting, arguments := true } := by
  have hhandle : handoff.handle = false := by
    have hfits := h.fits
    simpa [Fits, hhost, hthread, OnLoan.le_iff] using hfits
  refine { h with fits := ⟨hthread, hhandle⟩, arguments := rfl, freed := ?_, posted := ?_ }
  · simpa [hhost] using h.freed
  · simpa [hhost] using h.posted

theorem Sound.unposted (h : handoff.Sound) (hhost : handoff.host = .idle) :
    handoff.posted = false ∧ handoff.thread ≤ .waiting := by
  have hposted : handoff.posted = false := by
    have hposted := h.posted
    simpa [hhost] using hposted
  refine ⟨hposted, ?_⟩
  by_contra hpast
  have hcleared := h.cleared (by
    simp only [OnLoan.le_iff, OnLoan.rank_waiting, OnLoan.rank_clearing] at hpast ⊢
    omega)
  rw [hposted] at hcleared
  cases hcleared

theorem Sound.destroys (h : handoff.Sound) (hhost : handoff.host = .idle) :
    Sound { handoff with host := if handoff.handle then .terminating else .discarding } := by
  obtain ⟨hposted, hwaiting⟩ := h.unposted hhost
  have hfits : (handoff.thread = .absent ∧ handoff.handle = false) ∨
      (.running ≤ handoff.thread ∧ handoff.handle = true) := by
        simpa only [Fits, hhost] using h.fits
  rcases hfits with ⟨hthread, hhandle⟩ | ⟨hrunning, hhandle⟩
  · rw [hhandle, if_neg Bool.false_ne_true, ← hhandle]
    apply h.proceeds <;> simp [hhost, OnHandoff.starting, Fits, hposted, hthread, hhandle]
  · rw [hhandle, if_pos rfl, ← hhandle]
    apply h.proceeds <;>
      simp [hhost, OnHandoff.starting, Fits, hposted, hrunning, hwaiting, hhandle]

theorem Sound.step (h : handoff.Sound) (hstep : handoff.step label = some next) : next.Sound := by
  cases label with
  | host ok => exact h.stepHost hstep
  | thread => exact h.stepThread hstep
  | start =>
    simp only [Handoff.step, Option.ite_none_right_eq_some, Option.some.injEq] at hstep
    obtain ⟨⟨hhost, hthread⟩, rfl⟩ := hstep
    rw [h.uses (by simp [hhost])]
    exact h.starts hhost hthread
  | destroy =>
    simp only [Handoff.step, Option.ite_none_right_eq_some, Option.some.injEq] at hstep
    obtain ⟨hhost, rfl⟩ := hstep
    rw [h.uses (by simp [hhost])]
    exact h.destroys hhost

theorem sound (h : system.Reachable handoff) : handoff.Sound := by
  apply h.invariant
  · rintro initial rfl
    constructor <;> simp [Fits, OnHandoff.starting, OnLoan.le_iff]
  · intro handoff label next _ hsound hstep
    exact hsound.step hstep

theorem Sound.left_stepHost (h : handoff.Sound) {ok : Bool}
    (hstep : handoff.stepHost ok = some next) :
    next.left < handoff.left := by
  have hfits := h.fits
  cases hhost : handoff.host <;>
    simp only [Handoff.stepHost, hhost, reduceCtorEq, Option.ite_none_right_eq_some,
      Option.some.injEq] at hstep
  case granting =>
    cases ok <;> subst hstep <;> simp [left, OnHandoff.left, returns, hhost]
  case creating =>
    obtain ⟨hthread, -⟩ : handoff.thread = .absent ∧ handoff.handle = false := by
      simpa [Fits, hhost] using hfits
    cases ok <;> subst hstep <;> simp [left, OnHandoff.left, returns, touchWorklet, hhost, hthread]
  case meeting | dismantling =>
    obtain ⟨-, rfl⟩ := hstep
    simp [left, OnHandoff.left, returns, touchWorklet, hhost]
  all_goals
    subst hstep
    simp [left, OnHandoff.left, touchWorklet, touchFinished, hhost]

theorem left_stepThread (hstep : handoff.stepThread = some next) : next.left < handoff.left := by
  cases hthread : handoff.thread <;>
    simp only [stepThread, hthread, reduceCtorEq, Option.ite_none_right_eq_some, Option.some.injEq]
      at hstep
  case meeting | waiting =>
    obtain ⟨-, rfl⟩ := hstep
    simp [left, OnLoan.rank, touchWorklet, hthread]
  all_goals
    subst hstep
    simp [left, OnLoan.rank, touchWorklet, touchArguments, hthread]

theorem Sound.left_step (h : handoff.Sound) (hcontinues : label.continues = true)
    (hstep : handoff.step label = some next) : next.left < handoff.left := by
  cases label with
  | start => cases hcontinues
  | destroy => cases hcontinues
  | host ok => exact h.left_stepHost hstep
  | thread => exact left_stepThread hstep

theorem threadGoes (habsent : handoff.thread ≠ .absent) (hgone : handoff.thread ≠ .gone)
    (hbarrier : handoff.thread = .meeting → handoff.host.arrived = true)
    (hwaiting : handoff.thread = .waiting → handoff.posted = true) :
    handoff.stepThread.isSome := by
  cases hthread : handoff.thread <;> simp [stepThread, hthread] at habsent hgone hbarrier hwaiting ⊢
  · exact hbarrier
  · exact hwaiting

theorem Sound.goes (h : handoff.Sound) :
    handoff.Rested ∨ ∃ label next, label.continues = true ∧ handoff.step label = some next := by
  have hthread (hsome : handoff.stepThread.isSome) :
      ∃ label next, HandoffStep.continues label = true ∧ handoff.step label = some next := by
    obtain ⟨next, hnext⟩ := Option.isSome_iff_exists.mp hsome
    exact ⟨.thread, next, rfl, hnext⟩
  have hhost (hsome : (handoff.stepHost true).isSome) :
      ∃ label next, HandoffStep.continues label = true ∧ handoff.step label = some next := by
    obtain ⟨next, hnext⟩ := Option.isSome_iff_exists.mp hsome
    exact ⟨.host true, next, rfl, hnext⟩
  have hfits := h.fits
  cases hwhere : handoff.host <;> simp only [Fits, hwhere] at hfits
  case idle => exact Or.inl (Or.inl hwhere)
  case gone =>
    by_cases hover : handoff.thread = .absent ∨ handoff.thread = .gone
    · exact Or.inl (Or.inr ⟨hwhere, hover⟩)
    · simp only [not_or] at hover
      right
      apply hthread
      apply threadGoes hover.1 hover.2
      · simp [hwhere, OnHandoff.arrived]
      · intro hwaiting
        rw [h.posted]
        simp_all
  case meeting =>
    right
    by_cases hmet : .meeting ≤ handoff.thread
    · exact hhost (by simp [Handoff.stepHost, hwhere, hmet])
    · apply hthread
      apply threadGoes (ne_absent hfits.1)
      · rintro hgone
        simp [hgone, OnLoan.le_iff, OnLoan.rank] at hmet
      · simp [hwhere, OnHandoff.arrived]
      · intro hwaiting
        simp [hwaiting, OnLoan.le_iff] at hmet
  case dismantling =>
    right
    by_cases hleft : .running ≤ handoff.thread
    · exact hhost (by simp [Handoff.stepHost, hwhere, hleft])
    · apply hthread
      apply threadGoes
      · rintro habsent
        simp [habsent, OnLoan.le_iff] at hfits
      · rintro hgone
        simp [hgone, OnLoan.le_iff, OnLoan.rank] at hleft
      · simp [hwhere, OnHandoff.arrived]
      · intro hwaiting
        simp [hwaiting, OnLoan.le_iff] at hleft
  all_goals exact Or.inr (hhost (by simp [Handoff.stepHost, hwhere]))

end Handoff

/-- Nobody uses what is gone: the worklet once the host has freed it, the arguments of a start once
it has returned, and the semaphore before and after its time. A thread that is not past its uses has
its host in the start. Without new calls the host comes out of the one that it is in, and a thread
whose worklet was destroyed to its end. -/
theorem bareWorklet_handoff {handoff : Handoff} (h : Handoff.system.Reachable handoff) :
    handoff.fault = false ∧
    (.entering ≤ handoff.thread → handoff.thread ≤ .meeting →
      handoff.host.starting = true ∧ handoff.arguments = true) ∧
    (handoff.freed = true → handoff.thread = .absent ∨ .running ≤ handoff.thread) ∧
    (.clearing ≤ handoff.thread → handoff.posted = true) ∧
    ∀ labels next,
      (Handoff.system.guard fun _ label => label.continues = true).run handoff labels = some next →
      labels.length + next.left ≤ handoff.left ∧
      (next.Rested ∨ ∃ label last, label.continues = true ∧ next.step label = some last) := by
  have hsound := Handoff.sound h
  refine ⟨hsound.unharmed, ?_, ?_, hsound.cleared, ?_⟩
  · intro hentered hmeeting
    have harguments := (hsound.lent hentered hmeeting).2
    exact ⟨hsound.arguments.symm.trans harguments, harguments⟩
  · intro hfreed
    have hfits := hsound.fits
    simp only [Handoff.Fits, hsound.freed.mp hfreed] at hfits
    exact hfits.imp And.left And.left
  · intro labels next hrun
    apply h.drains _ _ hrun
    · intro handoff label next hreach hcontinues hstep
      exact (Handoff.sound hreach).left_step hcontinues hstep
    · intro handoff hreach
      exact (Handoff.sound hreach).goes

/-- The worklet is destroyed while its script runs, and is freed before its thread is done. -/
def Handoff.destroyedRunning : Handoff :=
  Handoff.system.result {}
    [.start, .host true, .host true, .thread, .host true, .thread, .thread, .thread,
      .thread, .thread, .thread, .thread, .host true, .host true, .thread, .host true, .destroy,
      .host true, .host true, .host true, .host true, .thread, .thread] (by decide +kernel)

def Handoff.clearedAfter : Handoff :=
  (Handoff.system.guard fun _ label => label.continues = true).result Handoff.destroyedRunning
    [.thread, .thread, .thread] (by decide +kernel)

theorem bareWorklet_handoff_destroyedRunning :
    Handoff.destroyedRunning.freed = true ∧ Handoff.destroyedRunning.fault = false ∧
      3 + Handoff.clearedAfter.left ≤ Handoff.destroyedRunning.left := by
  obtain ⟨hfault, -, -, -, hrun⟩ := bareWorklet_handoff
    (.result (S := Handoff.system) rfl _ _ : Handoff.system.Reachable Handoff.destroyedRunning)
  obtain ⟨hleft, -⟩ := hrun [.thread, .thread, .thread] Handoff.clearedAfter
    (Transition.System.run_result _ _ _ _)
  exact ⟨by decide +kernel, hfault, hleft⟩

end BareKit
