import BareKit.Transition
import Mathlib.Data.List.Nodup

/-! The suspension of a worklet: what `bare_worklet_suspend`, `bare_worklet_resume` and
`bare_worklet_wakeup` of `src/worklet.c` do under `state->lock`, the requests that they
leave for the thread of the worklet, and the callbacks of Bare on that thread. Of Bare
itself the model has what the source relies on: the order in which it takes requests, and
when it calls `on_resume` and `on_idle`. A suspension goes by the number of the call that
started it. -/
namespace BareKit

/-- What the lock guards. `task` is the identifier of `BareSuspensionTask`, with `none` for
`UIBackgroundTaskInvalid`, and `app` is whether there is an application to ask for one. -/
structure WorkletState where
  app : Bool
  bare : Bool
  task : Option Nat
  suspended : Bool
  resuming : Bool
  deriving DecidableEq, Repr

/-- What is left for the thread of the worklet, with the number of milliseconds to linger. -/
inductive Request where
  | suspend (suspension : Nat) (linger : Int)
  | resume
  | wakeup (suspension : Nat) (deadline : Int)
  deriving DecidableEq, Repr

/-- `next` is the background task that the application grants, if it does, and `remaining`
its `backgroundTimeRemaining` in milliseconds. -/
def bareSuspensionStart (state : WorkletState) (next : Option Nat) (remaining timeout : Int) :
    WorkletState × Int :=
  if state.app then
    ({ state with task := next }, if timeout < 0 ∨ remaining < timeout then remaining else timeout)
  else (state, if timeout < 0 then 30000 else timeout)

def bareSuspensionEnd (state : WorkletState) : WorkletState × Option Nat :=
  if state.app then ({ state with task := none }, state.task) else (state, none)

def bareWorkletSuspend (state : WorkletState) (suspension : Nat) (granted : Bool)
    (remaining linger : Int) : WorkletState × Option Request :=
  if state.bare then
    let started :=
      bareSuspensionStart state (if granted then some suspension else none) remaining linger
    ({ started.1 with suspended := true }, some (.suspend suspension started.2))
  else (state, none)

def bareWorkletResume (state : WorkletState) : WorkletState × Option Request :=
  if state.bare then
    let ended := (bareSuspensionEnd state).1
    (if ended.suspended then { ended with suspended := false, resuming := true } else ended,
      some .resume)
  else (state, none)

def bareWorkletWakeup (state : WorkletState) (suspension : Nat) (granted : Bool)
    (remaining deadline : Int) : WorkletState × Option Request :=
  if state.bare then
    let started :=
      bareSuspensionStart state (if granted then some suspension else none) remaining deadline
    (started.1, some (.wakeup suspension started.2))
  else (state, none)

def bareWorkletOnIdle (state : WorkletState) : WorkletState × Option Nat :=
  if state.resuming then (state, none) else bareSuspensionEnd state

def bareWorkletOnResume (state : WorkletState) : WorkletState := { state with resuming := false }

/-- Where the thread of the worklet is: an idle keeps what had been handled when it was
reached. -/
inductive Callback where
  | none
  | onResume
  | onIdle (handled : List Nat)
  deriving DecidableEq, Repr

/-- `requests` are the ones on their way, oldest first. `suspended` and `lingering` are
Bare's: whether a resume will be observed, and whether the suspend or wakeup that was
handled last still has time to run out. -/
structure Suspending where
  state : WorkletState
  requests : List Request := []
  suspended : Bool := false
  lingering : Bool := false
  callback : Callback := .none
  /-- The worklet tears down, and does not come back. -/
  finished : Bool := false
  /-- How many suspensions were started. -/
  started : Nat := 0
  handled : List Nat := []
  /-- What each idle ended, with what had been handled when it was reached. -/
  ends : List (Nat × List Nat) := []

inductive SuspendStep where
  -- The host, and the system.
  | suspend (granted : Bool) (remaining linger : Int)
  | resume
  | wakeup (granted : Bool) (remaining deadline : Int)
  | expire (task : Nat)
  -- The thread of the worklet.
  | publish
  | retract
  | handle
  | idle
  | onResume
  | onIdle

namespace Suspending

def stepHandle (suspending : Suspending) : Option Suspending :=
  match suspending.requests with
  | [] => none
  | .suspend suspension _ :: rest =>
    some { suspending with
      requests := rest, suspended := true, lingering := true
      handled := suspension :: suspending.handled }
  | .wakeup suspension _ :: rest =>
    some { suspending with
      requests := rest, lingering := true, handled := suspension :: suspending.handled }
  | .resume :: rest =>
    some { suspending with
      requests := rest, suspended := false, lingering := false
      callback := if suspending.suspended then .onResume else .none }

def request (suspending : Suspending) (result : WorkletState × Option Request) : Suspending :=
  { suspending with
    state := result.1
    requests := suspending.requests ++ result.2.toList
    started := suspending.started + 1 }

def step (suspending : Suspending) : SuspendStep → Option Suspending
  | .suspend granted remaining linger =>
    some (suspending.request
      (bareWorkletSuspend suspending.state suspending.started granted remaining linger))
  | .resume =>
    let resumed := bareWorkletResume suspending.state
    some { suspending with
      state := resumed.1, requests := suspending.requests ++ resumed.2.toList }
  | .wakeup granted remaining deadline =>
    some (suspending.request
      (bareWorkletWakeup suspending.state suspending.started granted remaining deadline))
  | .expire task =>
    -- The handler of a task only resets the identifier that is still its own.
    if suspending.state.task = some task then
      some { suspending with state := { suspending.state with task := none } }
    else some suspending
  | .publish =>
    if suspending.finished then none
    else some { suspending with state := { suspending.state with bare := true } }
  | .retract =>
    if suspending.callback = .none then
      some { suspending with
        state := { (bareSuspensionEnd suspending.state).1 with bare := false }, finished := true }
    else none
  | .handle => if suspending.callback = .none then suspending.stepHandle else none
  | .idle =>
    if suspending.callback = .none ∧ suspending.lingering then
      some { suspending with lingering := false, callback := .onIdle suspending.handled }
    else none
  | .onResume =>
    if suspending.callback = .onResume then
      some { suspending with state := bareWorkletOnResume suspending.state, callback := .none }
    else none
  | .onIdle =>
    match suspending.callback with
    | .onIdle handled =>
      let idled := bareWorkletOnIdle suspending.state
      some { suspending with
        state := idled.1
        callback := .none
        ends := (idled.2.map fun task => (task, handled)).toList ++ suspending.ends }
    | _ => none

def create (app : Bool) : Suspending where
  state := { app, bare := false, task := none, suspended := false, resuming := false }

def system : Transition.System Suspending SuspendStep where
  init suspending := ∃ app, suspending = create app
  step := step

end Suspending

def Request.unresumed : List Request → List Nat
  | [] => []
  | .resume :: rest => unresumed rest
  | .suspend suspension _ :: rest | .wakeup suspension _ :: rest =>
    if .resume ∈ rest then unresumed rest else suspension :: unresumed rest

namespace Request

def suspension : Request → Option Nat
  | .suspend suspension _ | .wakeup suspension _ => some suspension
  | .resume => none

theorem unresumed_append {request : Request} {started : Nat} (h : request.suspension = some started)
    (requests : List Request) :
    unresumed (requests ++ [request]) = unresumed requests ++ [started] := by
  have hresume : ∀ rest : List Request, Request.resume ∈ rest ++ [request] ↔ .resume ∈ rest := by
    intro rest
    cases request with
    | resume => contradiction
    | suspend _ _ | wakeup _ _ => simp
  induction requests with
  | nil =>
    cases request with
    | resume => contradiction
    | suspend _ _ | wakeup _ _ =>
      cases h
      rfl
  | cons first rest ih =>
    cases first with
    | resume => exact ih
    | suspend _ _ | wakeup _ _ =>
      simp only [List.cons_append, unresumed, hresume, ih]
      split <;> rfl

theorem unresumed_subset (requests : List Request) :
    unresumed requests ⊆ requests.filterMap suspension := by
  induction requests with
  | nil => exact List.Subset.refl _
  | cons request rest ih =>
    cases request with
    | resume => exact ih
    | suspend started _ | wakeup started _ =>
      have htail : unresumed rest ⊆ started :: rest.filterMap suspension :=
        fun _ hmem => List.mem_cons_of_mem _ (ih hmem)
      simp only [unresumed, List.filterMap_cons, suspension]
      split
      · exact htail
      · exact List.cons_subset.mpr ⟨List.mem_cons_self, htail⟩

end Request

namespace Suspending

variable {suspending next : Suspending} {label : SuspendStep}

/-- No idle ends a suspension that is on its way: it finds a resume pending or nothing to
end, or the worklet has taken every suspend and wakeup since the last resume. -/
def Settled (suspending : Suspending) (label : SuspendStep) : Prop :=
  match label with
  | .onIdle =>
    suspending.state.resuming = true ∨ suspending.state.task = none ∨
      Request.unresumed suspending.requests = []
  | _ => True

instance (suspending : Suspending) (label : SuspendStep) :
    Decidable (suspending.Settled label) := by
  unfold Settled
  split <;> infer_instance

/-- The task is that of the suspend or wakeup that was issued last, unless a resume was
issued since. -/
structure Tracked (suspending : Suspending) : Prop where
  current : ∀ task, suspending.state.task = some task →
    (Request.unresumed suspending.requests).getLast? = some task ∨
      (Request.unresumed suspending.requests = [] ∧ task ∈ suspending.handled)
  fresh : ∀ suspension ∈ suspending.requests.filterMap Request.suspension ++ suspending.handled,
    suspension < suspending.started
  once : (suspending.requests.filterMap Request.suspension ++ suspending.handled).Nodup
  reached : ∀ handled, suspending.callback = .onIdle handled → handled = suspending.handled
  untracked : suspending.state.app = false → suspending.state.task = none

theorem Tracked.frame (h : suspending.Tracked)
    (htask : ∀ task, next.state.task = some task → suspending.state.task = some task)
    (hrequests : next.requests = suspending.requests) (hhandled : next.handled = suspending.handled)
    (hstarted : next.started = suspending.started)
    (hreached : ∀ handled, next.callback = .onIdle handled → handled = suspending.handled)
    (happ : next.state.app = suspending.state.app) : next.Tracked := by
  constructor
  · rw [hrequests, hhandled]
    exact fun task hsome => h.current task (htask task hsome)
  · rw [hrequests, hhandled, hstarted]
    exact h.fresh
  · rw [hrequests, hhandled]
    exact h.once
  · rw [hhandled]
    exact hreached
  · rw [happ]
    intro hnone
    by_contra hsome
    obtain ⟨task, htracked⟩ := Option.ne_none_iff_exists'.mp hsome
    exact absurd (htask task htracked) (by simp [h.untracked hnone])

theorem Tracked.request (h : suspending.Tracked) {state : WorkletState} {request : Request}
    (hrequest : request.suspension = some suspending.started)
    (htask : ∀ task, state.task = some task → task = suspending.started)
    (happ : state.app = false → state.task = none) :
    (suspending.request (state, some request)).Tracked := by
  constructor
  · intro task hsome
    left
    rw [htask task hsome]
    simp [Suspending.request, Request.unresumed_append hrequest]
  · intro suspension hmem
    simp only [Suspending.request, Option.toList_some, List.filterMap_append, List.filterMap_cons,
      hrequest, List.filterMap_nil, List.append_assoc, List.singleton_append, List.mem_append,
      List.mem_cons] at hmem ⊢
    rcases hmem with hmem | rfl | hmem
    · exact Nat.lt_succ_of_lt (h.fresh suspension (List.mem_append_left _ hmem))
    · exact Nat.lt_succ_self _
    · exact Nat.lt_succ_of_lt (h.fresh suspension (List.mem_append_right _ hmem))
  · simp only [Suspending.request, Option.toList_some, List.filterMap_append, List.filterMap_cons,
      hrequest, List.filterMap_nil, List.append_assoc, List.singleton_append]
    rw [List.nodup_middle]
    refine List.nodup_cons.mpr ⟨fun hmem => ?_, h.once⟩
    exact Nat.lt_irrefl _ (h.fresh _ hmem)
  · exact h.reached
  · exact happ

theorem Tracked.ignored (h : suspending.Tracked) :
    (suspending.request (suspending.state, none)).Tracked := by
  constructor
  · simpa [Suspending.request] using h.current
  · intro suspension hmem
    simp only [Suspending.request, Option.toList_none, List.append_nil] at hmem
    exact Nat.lt_succ_of_lt (h.fresh suspension hmem)
  · simpa [Suspending.request] using h.once
  · exact h.reached
  · exact h.untracked

theorem start_task {state : WorkletState} (huntracked : state.app = false → state.task = none)
    (suspension : Nat) (granted : Bool) (remaining timeout : Int) {started : WorkletState × Int}
    (hstarted : started = bareSuspensionStart state (if granted then some suspension else none)
      remaining timeout) :
    (∀ task, started.1.task = some task → task = suspension) ∧
      (started.1.app = false → started.1.task = none) := by
  subst hstarted
  unfold bareSuspensionStart
  split
  · rename_i happ
    refine ⟨fun task hsome => ?_, fun hfalse => absurd happ (by simpa using hfalse)⟩
    cases granted with
    | true => exact (Option.some.inj hsome).symm
    | false => contradiction
  · rename_i happ
    have hnone := huntracked (Bool.eq_false_iff.mpr happ)
    exact ⟨fun task hsome => absurd hsome (by simp [hnone]), fun _ => hnone⟩

theorem end_task (state : WorkletState) :
    (∀ task, (bareSuspensionEnd state).1.task = some task → state.task = some task) ∧
      (bareSuspensionEnd state).1.app = state.app := by
  unfold bareSuspensionEnd
  split
  · exact ⟨fun task hsome => by contradiction, rfl⟩
  · exact ⟨fun task hsome => hsome, rfl⟩

theorem Tracked.suspend (h : suspending.Tracked) (granted : Bool) (remaining linger : Int) :
    (suspending.request
      (bareWorkletSuspend suspending.state suspending.started granted remaining
        linger)).Tracked := by
  obtain ⟨htask, happ⟩ := start_task h.untracked suspending.started granted remaining linger rfl
  unfold bareWorkletSuspend
  split
  · exact h.request rfl htask happ
  · exact h.ignored

theorem Tracked.wakeup (h : suspending.Tracked) (granted : Bool) (remaining deadline : Int) :
    (suspending.request
      (bareWorkletWakeup suspending.state suspending.started granted remaining
        deadline)).Tracked := by
  obtain ⟨htask, happ⟩ := start_task h.untracked suspending.started granted remaining deadline rfl
  unfold bareWorkletWakeup
  split
  · exact h.request rfl htask happ
  · exact h.ignored

theorem resume_cases (state : WorkletState) :
    bareWorkletResume state = (state, none) ∨
      ((bareWorkletResume state).2 = some .resume ∧
        (bareWorkletResume state).1.task = (bareSuspensionEnd state).1.task ∧
        (bareWorkletResume state).1.app = (bareSuspensionEnd state).1.app) := by
  unfold bareWorkletResume
  split
  · right
    dsimp only
    split <;> exact ⟨rfl, rfl, rfl⟩
  · exact Or.inl rfl

theorem Tracked.resume (h : suspending.Tracked) :
    Tracked { suspending with
      state := (bareWorkletResume suspending.state).1
      requests := suspending.requests ++ (bareWorkletResume suspending.state).2.toList } := by
  rcases resume_cases suspending.state with hsame | ⟨hrequest, htask, happ⟩
  · rw [hsame]
    exact h.frame (fun task hsome => hsome) (List.append_nil _) rfl rfl h.reached rfl
  · have hnone : (bareWorkletResume suspending.state).1.task = none := by
      rw [htask]
      unfold bareSuspensionEnd
      split
      · rfl
      · rename_i hfalse
        exact h.untracked (Bool.eq_false_iff.mpr hfalse)
    have hids : (suspending.requests ++ [Request.resume]).filterMap Request.suspension =
        suspending.requests.filterMap Request.suspension := by
      rw [List.filterMap_append]
      exact List.append_nil _
    rw [hrequest, Option.toList_some]
    constructor
    · intro task hsome
      rw [hnone] at hsome
      contradiction
    · rw [hids]
      exact h.fresh
    · rw [hids]
      exact h.once
    · exact h.reached
    · exact fun _ => hnone

/-- The worklet handles a suspend or a wakeup: if it was the last to be issued, there is
nothing left on its way. -/
theorem Tracked.handle_suspension (h : suspending.Tracked) {request : Request} {rest : List Request}
    {suspension : Nat} (hrequests : suspending.requests = request :: rest)
    (hsuspension : request.suspension = some suspension) (hnext : next.requests = rest)
    (hhandled : next.handled = suspension :: suspending.handled)
    (hstate : next.state = suspending.state) (hstarted : next.started = suspending.started)
    (hcallback : next.callback = .none) : next.Tracked := by
  have hunresumed : Request.unresumed suspending.requests =
      if .resume ∈ rest then Request.unresumed rest else suspension :: Request.unresumed rest := by
    rw [hrequests]
    cases request with
    | resume => contradiction
    | suspend _ _ | wakeup _ _ =>
      cases hsuspension
      rfl
  have hids : suspending.requests.filterMap Request.suspension ++ suspending.handled =
      suspension :: (rest.filterMap Request.suspension ++ suspending.handled) := by
    rw [hrequests, List.filterMap_cons_some hsuspension, List.cons_append]
  have hmem : ∀ other, other ∈ next.requests.filterMap Request.suspension ++ next.handled ↔
      other ∈ suspending.requests.filterMap Request.suspension ++ suspending.handled := by
    intro other
    rw [hids, hnext, hhandled]
    simp only [List.mem_append, List.mem_cons]
    tauto
  constructor
  · intro task hsome
    rw [hstate] at hsome
    rw [hnext, hhandled]
    have hcurrent := h.current task hsome
    rw [hunresumed] at hcurrent
    split at hcurrent
    · rcases hcurrent with hlast | ⟨hnil, hold⟩
      · exact Or.inl hlast
      · exact Or.inr ⟨hnil, List.mem_cons_of_mem _ hold⟩
    · rcases hcurrent with hlast | ⟨hnil, _⟩
      · cases hrest : Request.unresumed rest with
        | nil =>
          rw [hrest] at hlast
          cases hlast
          exact Or.inr ⟨rfl, List.mem_cons_self⟩
        | cons other others =>
          rw [hrest, List.getLast?_cons_cons] at hlast
          exact Or.inl hlast
      · contradiction
  · intro other hother
    rw [hstarted]
    exact h.fresh other ((hmem other).mp hother)
  · rw [hnext, hhandled, List.nodup_middle, ← hids]
    exact h.once
  · intro handled hidle
    rw [hcallback] at hidle
    contradiction
  · rw [hstate]
    exact h.untracked

theorem Tracked.handle (h : suspending.Tracked) (hcallback : suspending.callback = .none)
    (hstep : suspending.stepHandle = some next) : next.Tracked := by
  unfold stepHandle at hstep
  split at hstep <;> rename_i hrequests
  · contradiction
  · cases hstep
    exact h.handle_suspension hrequests rfl rfl rfl rfl rfl hcallback
  · cases hstep
    exact h.handle_suspension hrequests rfl rfl rfl rfl rfl hcallback
  · cases hstep
    obtain ⟨hcurrent, hfresh, honce, hreached, huntracked⟩ := h
    rw [hrequests] at hcurrent hfresh honce
    refine ⟨hcurrent, hfresh, honce, fun handled hidle => ?_, huntracked⟩
    simp only at hidle
    split at hidle <;> contradiction

theorem idle_task (state : WorkletState) :
    (∀ task, (bareWorkletOnIdle state).1.task = some task → state.task = some task) ∧
      (bareWorkletOnIdle state).1.app = state.app := by
  unfold bareWorkletOnIdle
  split
  · exact ⟨fun task hsome => hsome, rfl⟩
  · exact end_task state

theorem tracked_step (h : suspending.Tracked) (hstep : suspending.step label = some next) :
    next.Tracked := by
  have hnone : ∀ handled, Callback.none = .onIdle handled → handled = suspending.handled := by
    intro handled hidle
    contradiction
  cases label with
  | suspend granted remaining linger =>
    cases hstep
    exact h.suspend granted remaining linger
  | wakeup granted remaining deadline =>
    cases hstep
    exact h.wakeup granted remaining deadline
  | resume =>
    cases hstep
    exact h.resume
  | expire task =>
    simp only [step] at hstep
    split at hstep
    · cases hstep
      exact h.frame (fun task hsome => by contradiction) rfl rfl rfl h.reached rfl
    · cases hstep
      exact h
  | publish =>
    simp only [step] at hstep
    split at hstep
    · contradiction
    · cases hstep
      exact h.frame (fun task hsome => hsome) rfl rfl rfl h.reached rfl
  | retract =>
    simp only [step] at hstep
    split at hstep
    · cases hstep
      obtain ⟨htask, happ⟩ := end_task suspending.state
      exact h.frame htask rfl rfl rfl h.reached happ
    · contradiction
  | handle =>
    simp only [step] at hstep
    split at hstep
    · exact h.handle ‹_› hstep
    · contradiction
  | idle =>
    simp only [step] at hstep
    split at hstep
    · cases hstep
      refine h.frame (fun task hsome => hsome) rfl rfl rfl (fun handled hidle => ?_) rfl
      exact (Callback.onIdle.inj hidle).symm
    · contradiction
  | onResume =>
    simp only [step] at hstep
    split at hstep
    · cases hstep
      exact h.frame (fun task hsome => hsome) rfl rfl rfl hnone rfl
    · contradiction
  | onIdle =>
    simp only [step] at hstep
    split at hstep
    · cases hstep
      obtain ⟨htask, happ⟩ := idle_task suspending.state
      exact h.frame htask rfl rfl rfl hnone happ
    · contradiction

theorem tracked (h : system.Reachable suspending) : suspending.Tracked := by
  refine h.invariant (I := Tracked) ?_ fun suspending label next _ htracked hstep =>
    tracked_step htracked hstep
  rintro suspending ⟨app, rfl⟩
  constructor
  · intro task hsome
    contradiction
  · intro suspension hmem
    contradiction
  · exact List.nodup_nil
  · intro handled hidle
    contradiction
  · exact fun _ => rfl

theorem onIdle_ends (h : suspending.Tracked) (hstep : suspending.step .onIdle = some next) :
    next.ends = (if suspending.state.resuming then []
      else (suspending.state.task.map fun task => (task, suspending.handled)).toList) ++
        suspending.ends := by
  simp only [step] at hstep
  split at hstep
  · rename_i handled hidle
    cases hstep
    rw [h.reached handled hidle]
    unfold bareWorkletOnIdle bareSuspensionEnd
    split
    · rfl
    · split
      · rfl
      · rename_i happ
        rw [h.untracked (Bool.eq_false_iff.mpr happ)]
  · contradiction

def OwnEnds (suspending : Suspending) : Prop :=
  ∀ task handled, (task, handled) ∈ suspending.ends → task ∈ handled

theorem ends_step (hlabel : label ≠ .onIdle) (hstep : suspending.step label = some next) :
    next.ends = suspending.ends := by
  cases label with
  | suspend _ _ _ | wakeup _ _ _ | resume =>
    cases hstep
    rfl
  | expire _ =>
    simp only [step] at hstep
    split at hstep <;>
    · cases hstep
      rfl
  | publish =>
    simp only [step] at hstep
    split at hstep
    · contradiction
    · cases hstep
      rfl
  | retract | idle | onResume =>
    simp only [step] at hstep
    split at hstep
    · cases hstep
      rfl
    · contradiction
  | handle =>
    simp only [step, stepHandle] at hstep
    split at hstep
    · split at hstep
      · contradiction
      all_goals
        cases hstep
        rfl
    · contradiction
  | onIdle => exact absurd rfl hlabel

theorem ownEnds (h : (system.guard Settled).Reachable suspending) : suspending.OwnEnds := by
  refine h.invariant (I := OwnEnds) ?_ ?_
  · rintro suspending ⟨app, rfl⟩ task handled hmem
    contradiction
  · rintro suspending label next hreach hown hguard
    obtain ⟨hsettled, hstep⟩ := Transition.System.guard_step.mp hguard
    have htracked := tracked hreach.of_guard
    by_cases hlabel : label = .onIdle
    · subst hlabel
      intro task handled hmem
      rw [onIdle_ends htracked hstep, List.mem_append] at hmem
      rcases hmem with hended | hold
      · split at hended
        · contradiction
        · rename_i hresuming
          obtain ⟨other, htask, heq⟩ := Option.map_eq_some_iff.mp (Option.mem_toList.mp hended)
          cases heq
          have hnil : Request.unresumed suspending.requests = [] := by
            rcases hsettled with hpending | hnone | hnil
            · exact absurd hpending hresuming
            · simp [htask] at hnone
            · exact hnil
          rcases htracked.current task htask with hlast | ⟨_, hhandled⟩
          · rw [hnil] at hlast
            contradiction
          · exact hhandled
      · exact hown task handled hold
    · rw [OwnEnds, ends_step hlabel hstep]
      exact hown

/-- An idle that does not meet the condition ends a suspension that is on its way. -/
theorem onIdle_unsettled (h : system.Reachable suspending) (hsettled : ¬ suspending.Settled .onIdle)
    (hstep : suspending.step .onIdle = some next) : ¬ next.OwnEnds := by
  have htracked := tracked h
  simp only [Settled, not_or, Bool.not_eq_true] at hsettled
  obtain ⟨hresuming, hsome, hunresumed⟩ := hsettled
  obtain ⟨task, htask⟩ := Option.ne_none_iff_exists'.mp hsome
  have hlast : (Request.unresumed suspending.requests).getLast? = some task := by
    rcases htracked.current task htask with hlast | ⟨hnil, _⟩
    · exact hlast
    · exact absurd hnil hunresumed
  have hrequest : task ∈ suspending.requests.filterMap Request.suspension :=
    Request.unresumed_subset _ (List.mem_of_getLast? hlast)
  have hends : (task, suspending.handled) ∈ next.ends := by
    rw [onIdle_ends htracked hstep, hresuming, htask]
    exact List.mem_cons_self
  intro hown
  exact (List.nodup_append.mp htracked.once).2.2 task hrequest task
    (hown task suspending.handled hends) rfl

end Suspending

/-- Every idle ends a suspension of its own, as long as it finds a resume pending or no
suspension to end, or the worklet has handled every suspend and wakeup that was issued
since the last resume. An idle that finds none of these ends a suspension whose request is
still on its way. -/
theorem bareWorkletOnIdle_ownEnds (suspending : Suspending) :
    ((Suspending.system.guard Suspending.Settled).Reachable suspending → suspending.OwnEnds) ∧
    ∀ next, Suspending.system.Reachable suspending → ¬ suspending.Settled .onIdle →
      suspending.step .onIdle = some next → ¬ next.OwnEnds :=
  ⟨Suspending.ownEnds, fun _ => Suspending.onIdle_unsettled⟩

def Suspending.wokenUp : Suspending :=
  Suspending.system.result (Suspending.create true)
    [.publish, .suspend true 30000 10, .handle, .idle, .wakeup true 30000 1000] (by decide)

theorem Suspending.wokenUp_reachable : Suspending.system.Reachable Suspending.wokenUp :=
  .result (S := Suspending.system) ⟨true, rfl⟩ _ _

def Suspending.resumedOnce : Suspending :=
  (Suspending.system.guard Suspending.Settled).result (Suspending.create true)
    [.publish, .suspend true 30000 10, .handle, .idle, .onIdle, .resume, .handle,
      .suspend true 30000 10, .onResume, .handle, .idle, .resume, .suspend true 30000 (-1),
      .onIdle] (by decide)

/-- Both idles end suspensions of their own, and the idle of a worklet that is woken up
does not. -/
theorem bareWorkletOnIdle_ownEnds_resumedOnce :
    Suspending.resumedOnce.OwnEnds ∧ ∃ next,
      Suspending.wokenUp.step .onIdle = some next ∧ ¬ next.OwnEnds := by
  constructor
  · exact (bareWorkletOnIdle_ownEnds Suspending.resumedOnce).1
      (.result (S := Suspending.system.guard Suspending.Settled) ⟨true, rfl⟩ _ _)
  · exact ⟨_, rfl, (bareWorkletOnIdle_ownEnds Suspending.wokenUp).2 _ Suspending.wokenUp_reachable
      (by decide) rfl⟩

/-- The suspension that a wakeup has just started is ended by the idle before it. -/
theorem bareWorkletOnIdle_ownEnds_wokenUp :
    ¬ ∀ suspending, Suspending.system.Reachable suspending → suspending.OwnEnds := by
  intro h
  have hown := h (Suspending.system.result Suspending.wokenUp [.onIdle] (by decide))
    (Suspending.wokenUp_reachable.run (Option.some_get _).symm)
  exact absurd (hown 1 [0] (by decide)) (by decide)

end BareKit
