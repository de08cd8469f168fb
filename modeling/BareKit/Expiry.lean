import BareKit.Atomic
import BareKit.Suspension
import Mathlib.Logic.Function.Basic

/-! The background tasks of `src/ios/suspension.m`, one atomic operation or one call of the
application at a time: `bare_suspension_start` and `bare_suspension_end`, one after the other as
`state->lock` has them, against the expiration handlers of all tasks begun so far. Tasks are
numbered in the order they begin in, so no identifier comes twice. -/
namespace BareKit

/-- Where the call in progress is. A start has begun its task and not recorded it, or has
taken another one that it has to end; so may an end. -/
inductive OnSuspension where
  | out
  | beginning (timeout : Int)
  | exchanging (next : Option Nat) (timeout : Int)
  | replacing (prev : Nat) (timeout : Int)
  | limiting (timeout : Int)
  | clearing
  | ending (prev : Nat)
  deriving DecidableEq, Repr

/-- Where the expiration handler of a task is, and whether it has cleared the record of it. -/
inductive OnExpiration where
  | waiting
  | fired
  | compared (cleared : Bool)
  | returned (cleared : Bool)
  deriving DecidableEq, Repr

/-- `identifier` is what the task of the suspension records, with `none` for
`UIBackgroundTaskInvalid`, and `ended` the calls of `endBackgroundTask`, latest first. `answer`
is what the last start returned, and `finished` whether an end has returned and no start was
called since. -/
structure Expiring where
  app : Bool
  identifier : Option Nat := none
  call : OnSuspension := .out
  expirations : Nat → OnExpiration := fun _ => .waiting
  begun : Nat := 0
  ended : List Nat := []
  answer : Option Int := none
  finished : Bool := false

inductive ExpiryStep where
  /-- The application comes into being, and stays. -/
  | launch
  -- The calls.
  | start (timeout : Int)
  | beginTask (granted : Bool)
  | exchange
  | endPrev
  | limit (remaining : Int)
  | finish
  -- The handler of a task.
  | fire (task : Nat)
  | compare (task : Nat)
  | endNext (task : Nat)
  deriving DecidableEq, Repr

def OnSuspension.hand : OnSuspension → Option Nat
  | .exchanging next _ => next
  | .replacing prev _ | .ending prev => some prev
  | _ => none

def OnExpiration.due : OnExpiration → Nat
  | .compared true => 1
  | _ => 0

theorem OnExpiration.due_compared (cleared : Bool) :
    (OnExpiration.compared cleared).due = cleared.toNat := by
  cases cleared <;> rfl

def OnExpiration.lapsed : OnExpiration → Nat
  | .returned false => 1
  | _ => 0

namespace Expiring

def expire (expiring : Expiring) (task : Nat) (expiration : OnExpiration) : Expiring :=
  { expiring with expirations := Function.update expiring.expirations task expiration }

/-- The steps of `bare_suspension_start` and of `bare_suspension_end`. -/
def stepCall (expiring : Expiring) : OnSuspension → ExpiryStep → Option Expiring
  | .out, .start timeout =>
    if expiring.app then some { expiring with call := .beginning timeout, finished := false }
    else
      some { expiring with
        answer := some (if timeout < 0 then 30000 else timeout), finished := false }
  | .beginning timeout, .beginTask granted =>
    if granted then
      some { expiring with
        call := .exchanging (some expiring.begun) timeout, begun := expiring.begun + 1 }
    else some { expiring with call := .exchanging none timeout }
  | .exchanging next timeout, .exchange =>
    let exchanged := atomicExchange expiring.identifier next
    some { expiring with
      identifier := exchanged.1
      call :=
        match exchanged.2 with
        | none => .limiting timeout
        | some prev => .replacing prev timeout }
  | .replacing prev timeout, .endPrev =>
    some { expiring with call := .limiting timeout, ended := prev :: expiring.ended }
  | .limiting timeout, .limit remaining =>
    some { expiring with
      call := .out
      answer := some (if timeout < 0 ∨ remaining < timeout then remaining else timeout) }
  | .out, .finish =>
    if expiring.app then some { expiring with call := .clearing }
    else some { expiring with finished := true }
  | .clearing, .exchange =>
    let exchanged := atomicExchange expiring.identifier none
    match exchanged.2 with
    | none => some { expiring with identifier := exchanged.1, call := .out, finished := true }
    | some prev => some { expiring with identifier := exchanged.1, call := .ending prev }
  | .ending prev, .endPrev =>
    some { expiring with call := .out, ended := prev :: expiring.ended, finished := true }
  | _, _ => none

def stepExpiration (expiring : Expiring) (task : Nat) : OnExpiration → ExpiryStep → Option Expiring
  | .waiting, .fire _ => if task < expiring.begun then some (expiring.expire task .fired) else none
  | .fired, .compare _ =>
    let compared := atomicCompareExchange expiring.identifier (some task) none
    some { expiring.expire task (.compared compared.2) with identifier := compared.1 }
  | .compared cleared, .endNext _ =>
    some { expiring.expire task (.returned cleared) with ended := task :: expiring.ended }
  | _, _ => none

def step (expiring : Expiring) (label : ExpiryStep) : Option Expiring :=
  match label with
  | .launch => some { expiring with app := true }
  | .start _ | .beginTask _ | .exchange | .endPrev | .limit _ | .finish =>
    expiring.stepCall expiring.call label
  | .fire task | .compare task | .endNext task =>
    expiring.stepExpiration task (expiring.expirations task) label

def system : Transition.System Expiring ExpiryStep where
  init expiring := ∃ app, expiring = { app }
  step := step

inductive Move (expiring : Expiring) : ExpiryStep → Expiring → Prop where
  | launch : Move expiring .launch { expiring with app := true }
  | started {timeout} (hcall : expiring.call = .out) (happ : expiring.app = true) :
    Move expiring (.start timeout)
      { expiring with call := .beginning timeout, finished := false }
  | unmanaged {timeout} (hcall : expiring.call = .out) (happ : expiring.app = false) :
    Move expiring (.start timeout)
      { expiring with
        answer := some (if timeout < 0 then 30000 else timeout), finished := false }
  | granted {timeout} (hcall : expiring.call = .beginning timeout) :
    Move expiring (.beginTask true)
      { expiring with
        call := .exchanging (some expiring.begun) timeout, begun := expiring.begun + 1 }
  | refused {timeout} (hcall : expiring.call = .beginning timeout) :
    Move expiring (.beginTask false) { expiring with call := .exchanging none timeout }
  | recorded {next timeout} (hcall : expiring.call = .exchanging next timeout)
      (hnone : expiring.identifier = none) :
    Move expiring .exchange { expiring with identifier := next, call := .limiting timeout }
  | replaced {next prev timeout} (hcall : expiring.call = .exchanging next timeout)
      (hprev : expiring.identifier = some prev) :
    Move expiring .exchange { expiring with identifier := next, call := .replacing prev timeout }
  | endPrev {prev timeout} (hcall : expiring.call = .replacing prev timeout) :
    Move expiring .endPrev
      { expiring with call := .limiting timeout, ended := prev :: expiring.ended }
  | limit {timeout remaining} (hcall : expiring.call = .limiting timeout) :
    Move expiring (.limit remaining)
      { expiring with
        call := .out
        answer := some (if timeout < 0 ∨ remaining < timeout then remaining else timeout) }
  | finish (hcall : expiring.call = .out) (happ : expiring.app = true) :
    Move expiring .finish { expiring with call := .clearing }
  | finishUnmanaged (hcall : expiring.call = .out) (happ : expiring.app = false) :
    Move expiring .finish { expiring with finished := true }
  | finished (hcall : expiring.call = .clearing) (hnone : expiring.identifier = none) :
    Move expiring .exchange { expiring with call := .out, finished := true }
  | cleared {prev} (hcall : expiring.call = .clearing) (hprev : expiring.identifier = some prev) :
    Move expiring .exchange { expiring with identifier := none, call := .ending prev }
  | endLast {prev} (hcall : expiring.call = .ending prev) :
    Move expiring .endPrev
      { expiring with call := .out, ended := prev :: expiring.ended, finished := true }
  | fire {task} (hbegun : task < expiring.begun) (hwaiting : expiring.expirations task = .waiting) :
    Move expiring (.fire task) (expiring.expire task .fired)
  | compare {task} (hfired : expiring.expirations task = .fired) :
    Move expiring (.compare task)
      { expiring.expire task
          (.compared (atomicCompareExchange expiring.identifier (some task) none).2) with
        identifier := (atomicCompareExchange expiring.identifier (some task) none).1 }
  | endNext {task cleared} (hcompared : expiring.expirations task = .compared cleared) :
    Move expiring (.endNext task)
      { expiring.expire task (.returned cleared) with ended := task :: expiring.ended }

variable {expiring next : Expiring} {label : ExpiryStep} {task : Nat}

theorem move_stepCall {call : OnSuspension} (hcall : expiring.call = call)
    (hstep : expiring.stepCall call label = some next) : Move expiring label next := by
  cases call <;> cases label <;> try contradiction
  case out.start timeout =>
    simp only [stepCall] at hstep
    split at hstep
    · rename_i happ
      cases hstep
      exact .started hcall happ
    · rename_i happ
      cases hstep
      exact .unmanaged hcall (Bool.eq_false_iff.mpr happ)
  case out.finish =>
    simp only [stepCall] at hstep
    split at hstep
    · rename_i happ
      cases hstep
      exact .finish hcall happ
    · rename_i happ
      cases hstep
      exact .finishUnmanaged hcall (Bool.eq_false_iff.mpr happ)
  case beginning.beginTask timeout granted =>
    cases granted with
    | true =>
      cases hstep
      exact .granted hcall
    | false =>
      cases hstep
      exact .refused hcall
  case exchanging.exchange desired timeout =>
    simp only [stepCall, atomicExchange] at hstep
    cases hstep
    cases hidentifier : expiring.identifier with
    | none => exact .recorded hcall hidentifier
    | some prev => exact .replaced hcall hidentifier
  case replacing.endPrev prev timeout =>
    cases hstep
    exact .endPrev hcall
  case limiting.limit timeout remaining =>
    cases hstep
    exact .limit hcall
  case clearing.exchange =>
    simp only [stepCall, atomicExchange] at hstep
    split at hstep
    · rename_i hnone
      have hmove := Move.finished hcall hnone
      rw [← hnone] at hstep
      cases hstep
      exact hmove
    · rename_i prev hprev
      cases hstep
      exact .cleared hcall hprev
  case ending.endPrev prev =>
    cases hstep
    exact .endLast hcall

theorem move_step (hstep : expiring.step label = some next) : Move expiring label next := by
  cases label with
  | launch =>
    cases hstep
    exact .launch
  | start _ | beginTask _ | exchange | endPrev | limit _ | finish => exact move_stepCall rfl hstep
  | fire task =>
    simp only [step] at hstep
    cases hwaiting : expiring.expirations task <;> rw [hwaiting] at hstep <;> try contradiction
    simp only [stepExpiration] at hstep
    split at hstep
    · rename_i hbegun
      cases hstep
      exact .fire hbegun hwaiting
    · contradiction
  | compare task =>
    simp only [step] at hstep
    cases hfired : expiring.expirations task <;> rw [hfired] at hstep <;> try contradiction
    cases hstep
    exact .compare hfired
  | endNext task =>
    simp only [step] at hstep
    cases hcompared : expiring.expirations task <;> rw [hcompared] at hstep <;> try contradiction
    cases hstep
    exact .endNext hcompared

def due (expiring : Expiring) (task : Nat) : Nat :=
  tally expiring.identifier task + tally expiring.call.hand task + (expiring.expirations task).due

def closed (expiring : Expiring) : Bool :=
  match expiring.call with
  | .ending _ => true
  | _ => expiring.finished

/-- A task that has begun is due once or was ended once, not counting the handlers that came
too late. -/
structure Balanced (expiring : Expiring) : Prop where
  balance : ∀ task, expiring.due task + expiring.ended.count task =
    (expiring.expirations task).lapsed + if task < expiring.begun then 1 else 0
  waiting : ∀ task, expiring.begun ≤ task → expiring.expirations task = .waiting
  unmanaged : expiring.app = false → expiring.call = .out ∧ expiring.identifier = none
  finished : expiring.finished = true → expiring.call = .out ∨ expiring.call = .clearing
  closed : expiring.closed = true → expiring.identifier = none

theorem Balanced.unheld (h : expiring.Balanced) : expiring.due expiring.begun = 0 := by
  have hbalance := h.balance expiring.begun
  rw [h.waiting expiring.begun (Nat.le_refl _)] at hbalance
  simp only [OnExpiration.lapsed, Nat.lt_irrefl, ↓reduceIte] at hbalance
  omega

@[simp] theorem expire_self (expiration : OnExpiration) :
    (expiring.expire task expiration).expirations task = expiration := Function.update_self ..

@[simp] theorem expire_identifier (expiration : OnExpiration) :
    (expiring.expire task expiration).identifier = expiring.identifier := rfl

@[simp] theorem expire_ended (expiration : OnExpiration) :
    (expiring.expire task expiration).ended = expiring.ended := rfl

theorem Balanced.call (h : expiring.Balanced)
    (hexpirations : next.expirations = expiring.expirations)
    (hbegun : next.begun = expiring.begun)
    (hmoved : ∀ task,
      tally next.identifier task + tally next.call.hand task + next.ended.count task =
      tally expiring.identifier task + tally expiring.call.hand task + expiring.ended.count task)
    (hunmanaged : next.app = false → next.call = .out ∧ next.identifier = none)
    (hfinished : next.finished = true → next.call = .out ∨ next.call = .clearing)
    (hclosed : next.closed = true → next.identifier = none) : next.Balanced := by
  constructor
  · intro task
    have hbalance := h.balance task
    have hsame := hmoved task
    unfold due at hbalance ⊢
    rw [hexpirations, hbegun]
    omega
  · intro task hfresh
    rw [hexpirations]
    rw [hbegun] at hfresh
    exact h.waiting task hfresh
  · exact hunmanaged
  · exact hfinished
  · exact hclosed

theorem Balanced.handler (h : expiring.Balanced) {expiration : OnExpiration}
    (hexpirations : next.expirations = Function.update expiring.expirations task expiration)
    (hbegun : next.begun = expiring.begun) (hcall : next.call = expiring.call)
    (hlt : task < expiring.begun)
    (hself : tally next.identifier task + expiration.due + next.ended.count task +
        (expiring.expirations task).lapsed =
      tally expiring.identifier task + (expiring.expirations task).due + expiring.ended.count task +
        expiration.lapsed)
    (hother : ∀ other, other ≠ task →
      (next.identifier = some other ↔ expiring.identifier = some other) ∧
      next.ended.count other = expiring.ended.count other)
    (hnone : expiring.identifier = none → next.identifier = none)
    (happ : next.app = expiring.app) (hfinished : next.finished = expiring.finished) :
    next.Balanced := by
  constructor
  · intro other
    have hbalance := h.balance other
    unfold due at hbalance ⊢
    rw [hexpirations, hbegun, hcall]
    by_cases heq : other = task
    · subst heq
      rw [Function.update_self]
      omega
    · rw [Function.update_of_ne heq]
      obtain ⟨hidentifier, hended⟩ := hother other heq
      have htally : tally next.identifier other = tally expiring.identifier other := by
        unfold tally
        simp only [hidentifier]
      omega
  · intro other hfresh
    rw [hbegun] at hfresh
    rw [hexpirations, Function.update_of_ne (by omega)]
    exact h.waiting other hfresh
  · intro hunmanaged
    rw [happ] at hunmanaged
    obtain ⟨hout, hidentifier⟩ := h.unmanaged hunmanaged
    exact ⟨hcall ▸ hout, hnone hidentifier⟩
  · rw [hfinished, hcall]
    exact h.finished
  · intro hclosed
    apply hnone
    apply h.closed
    unfold Expiring.closed at hclosed ⊢
    rwa [hcall, hfinished] at hclosed

theorem Balanced.begun (h : expiring.Balanced) (hfired : expiring.expirations task ≠ .waiting) :
    task < expiring.begun := by
  by_contra hle
  exact hfired (h.waiting task (Nat.le_of_not_lt hle))

theorem Balanced.managed (h : expiring.Balanced) (hcall : expiring.call ≠ .out) :
    expiring.app ≠ false := by
  intro happ
  exact hcall (h.unmanaged happ).1

theorem Balanced.unfinished (h : expiring.Balanced) (hout : expiring.call ≠ .out)
    (hclearing : expiring.call ≠ .clearing) : expiring.finished ≠ true := by
  intro hfinished
  rcases h.finished hfinished with hcall | hcall
  · exact hout hcall
  · exact hclearing hcall

theorem Balanced.during (h : expiring.Balanced) (hout : expiring.call ≠ .out)
    (hclearing : expiring.call ≠ .clearing) (hexpirations : next.expirations = expiring.expirations)
    (hbegun : next.begun = expiring.begun)
    (hmoved : ∀ task,
      tally next.identifier task + tally next.call.hand task + next.ended.count task =
      tally expiring.identifier task + tally expiring.call.hand task + expiring.ended.count task)
    (happ : next.app = expiring.app) (hfinished : next.finished = expiring.finished)
    (hclosed : next.closed = next.finished) : next.Balanced := by
  refine h.call hexpirations hbegun hmoved (fun hnone => ?_) (fun hover => ?_) (fun hover => ?_)
  · exact absurd (happ.symm.trans hnone) (h.managed hout)
  · exact absurd (hfinished.symm.trans hover) (h.unfinished hout hclearing)
  · exact absurd (hfinished.symm.trans (hclosed.symm.trans hover)) (h.unfinished hout hclearing)

theorem Balanced.granted (h : expiring.Balanced) {timeout : Int}
    (hcall : expiring.call = .beginning timeout) :
    Balanced { expiring with
      call := .exchanging (some expiring.begun) timeout, begun := expiring.begun + 1 } := by
  have hfresh := h.unheld
  constructor
  · intro task
    have hbalance := h.balance task
    unfold due at hbalance hfresh ⊢
    rw [hcall] at hbalance hfresh
    simp only [OnSuspension.hand, tally_none] at hbalance hfresh ⊢
    by_cases heq : task = expiring.begun
    · subst heq
      rw [if_neg (Nat.lt_irrefl _)] at hbalance
      rw [if_pos (Nat.lt_succ_self _), tally_self]
      omega
    · have hlt : task < expiring.begun + 1 ↔ task < expiring.begun := by omega
      rw [tally_of_ne (Ne.symm heq)]
      simp only [hlt]
      omega
  · intro task hle
    apply h.waiting task
    exact Nat.le_of_succ_le hle
  · intro happ
    exact absurd happ (h.managed (by simp [hcall]))
  · intro hfinished
    exact absurd hfinished (h.unfinished (by simp [hcall]) (by simp [hcall]))
  · intro hclosed
    exact absurd hclosed (h.unfinished (by simp [hcall]) (by simp [hcall]))

theorem Balanced.compare (h : expiring.Balanced) (hfired : expiring.expirations task = .fired) :
    Balanced { expiring.expire task
        (.compared (atomicCompareExchange expiring.identifier (some task) none).2) with
      identifier := (atomicCompareExchange expiring.identifier (some task) none).1 } := by
  have hcleared := tally_compareExchange expiring.identifier task
  refine h.handler rfl rfl rfl (h.begun (by simp [hfired])) ?_
    (fun other hne => ⟨compareExchange_of_ne hne, rfl⟩) (fun hnone => ?_) rfl rfl
  · rw [hfired, expire_ended, OnExpiration.due_compared]
    simp only [OnExpiration.due, OnExpiration.lapsed]
    omega
  · rw [hnone]
    rfl

theorem Balanced.endNext (h : expiring.Balanced) {cleared : Bool}
    (hcompared : expiring.expirations task = .compared cleared) :
    Balanced { expiring.expire task (.returned cleared) with ended := task :: expiring.ended } := by
  refine h.handler rfl rfl rfl (h.begun (by simp [hcompared])) ?_
    (fun other hne => ⟨Iff.rfl, List.count_cons_of_ne (Ne.symm hne)⟩) id rfl rfl
  rw [hcompared, List.count_cons_self, expire_identifier]
  cases cleared <;> simp only [OnExpiration.due, OnExpiration.lapsed] <;> omega

theorem Balanced.step (h : expiring.Balanced) (hstep : expiring.step label = some next) :
    next.Balanced := by
  cases move_step hstep with
  | launch =>
    refine h.call rfl rfl (fun task => rfl) (fun happ => ?_) h.finished h.closed
    contradiction
  | started hcall happ =>
    refine h.call rfl rfl (fun task => ?_) (fun hnone => ?_) (fun hfinished => ?_)
      (fun hclosed => ?_)
    · rw [hcall]
      rfl
    · rw [happ] at hnone
      contradiction
    · contradiction
    · contradiction
  | unmanaged hcall happ =>
    refine h.call rfl rfl (fun task => rfl) h.unmanaged (fun hfinished => ?_)
      (fun _ => (h.unmanaged happ).2)
    contradiction
  | granted hcall => exact h.granted hcall
  | refused hcall | limit hcall =>
    refine h.during (by simp [hcall]) (by simp [hcall]) rfl rfl (fun task => ?_) rfl rfl rfl
    rw [hcall]
    rfl
  | recorded hcall hidentifier | replaced hcall hidentifier | endPrev hcall =>
    refine h.during (by simp [hcall]) (by simp [hcall]) rfl rfl (fun task => ?_) rfl rfl rfl
    simp only [*, OnSuspension.hand, count_cons_tally, tally_none]
    omega
  | finish hcall happ =>
    refine h.call rfl rfl (fun task => ?_) (fun hnone => ?_) (fun _ => Or.inr rfl)
      (fun hclosed => ?_)
    · rw [hcall]
      rfl
    · rw [happ] at hnone
      contradiction
    · apply h.closed
      unfold Expiring.closed
      rw [hcall]
      exact hclosed
  | finishUnmanaged hcall happ =>
    exact h.call rfl rfl (fun task => rfl) h.unmanaged (fun _ => Or.inl hcall) fun _ =>
      (h.unmanaged happ).2
  | finished hcall hnone =>
    refine h.call rfl rfl (fun task => ?_) (fun happ => ?_) (fun _ => Or.inl rfl) fun _ => hnone
    · rw [hcall]
      rfl
    · exact absurd happ (h.managed (by simp [hcall]))
  | cleared hcall hprev =>
    refine h.call rfl rfl (fun task => ?_) (fun happ => ?_) (fun hfinished => ?_) fun _ => rfl
    · simp only [hcall, hprev, OnSuspension.hand, tally_none]
      omega
    · exact absurd happ (h.managed (by simp [hcall]))
    · have hnone := h.closed (by
        unfold Expiring.closed
        rw [hcall]
        exact hfinished)
      rw [hprev] at hnone
      contradiction
  | endLast hcall =>
    have hnone : expiring.identifier = none := by
      apply h.closed
      unfold Expiring.closed
      rw [hcall]
    refine h.call rfl rfl (fun task => ?_) (fun happ => ?_) (fun _ => Or.inl rfl) fun _ => hnone
    · simp only [hcall, OnSuspension.hand, count_cons_tally, tally_none]
      omega
    · exact absurd happ (h.managed (by simp [hcall]))
  | fire hbegun hwaiting =>
    refine h.handler rfl rfl rfl hbegun ?_ (fun other _ => ⟨Iff.rfl, rfl⟩) id rfl rfl
    rw [hwaiting]
    rfl
  | compare hfired => exact h.compare hfired
  | endNext hcompared => exact h.endNext hcompared

theorem balanced (h : system.Reachable expiring) : expiring.Balanced := by
  refine h.invariant (I := Balanced) ?_ fun expiring label next _ hbalanced hstep =>
    hbalanced.step hstep
  rintro expiring ⟨app, rfl⟩
  constructor
  · intro task
    rfl
  · intro task _
    rfl
  · exact fun _ => ⟨rfl, rfl⟩
  · intro hfinished
    contradiction
  · exact fun _ => rfl

/-- A task that has begun and that nobody has to end any more was ended. -/
theorem Balanced.ended (h : expiring.Balanced) (hbegun : task < expiring.begun)
    (hidentifier : expiring.identifier ≠ some task) (hhand : expiring.call.hand = none)
    (hcleared : expiring.expirations task ≠ .compared true) : task ∈ expiring.ended := by
  have hbalance := h.balance task
  have hdue : (expiring.expirations task).due = 0 := by
    cases hexpiration : expiring.expirations task with
    | compared cleared =>
      cases cleared with
      | true => exact absurd hexpiration hcleared
      | false => rfl
    | waiting | fired | returned _ => rfl
  unfold due at hbalance
  rw [tally_eq_zero hidentifier, hhand, tally_none, hdue, if_pos hbegun] at hbalance
  apply List.count_pos_iff.mp
  omega

/-! The calls and the handlers one after the other do what the functions of the suspension
and the expiry of a task do in one go. -/

theorem start_alone {state : WorkletState} (hcall : expiring.call = .out)
    (happ : state.app = expiring.app)
    (htask : state.task = expiring.identifier) (granted : Bool) (remaining timeout : Int) :
    ∃ labels last, system.run expiring (.start timeout :: labels) = some last ∧ last.call = .out ∧
      last.identifier = (bareSuspensionStart state (if granted then some expiring.begun else none)
        remaining timeout).1.task ∧
      last.answer = some (bareSuspensionStart state (if granted then some expiring.begun else none)
        remaining timeout).2 := by
  unfold bareSuspensionStart
  rw [happ]
  cases hmanaged : expiring.app with
  | false =>
    refine ⟨[], ?_⟩
    simp [system, Transition.System.run, step, stepCall, hcall, hmanaged, htask]
  | true =>
    cases hidentifier : expiring.identifier with
    | none =>
      refine ⟨[.beginTask granted, .exchange, .limit remaining], ?_⟩
      cases granted <;>
        simp [system, Transition.System.run, step, stepCall, hcall, hmanaged, hidentifier,
          atomicExchange]
    | some prev =>
      refine ⟨[.beginTask granted, .exchange, .endPrev, .limit remaining], ?_⟩
      cases granted <;>
        simp [system, Transition.System.run, step, stepCall, hcall, hmanaged, hidentifier,
          atomicExchange]

theorem end_alone {state : WorkletState} (hcall : expiring.call = .out)
    (happ : state.app = expiring.app)
    (htask : state.task = expiring.identifier) :
    ∃ labels last, system.run expiring (.finish :: labels) = some last ∧ last.finished = true ∧
      last.identifier = (bareSuspensionEnd state).1.task ∧
      last.ended = (bareSuspensionEnd state).2.toList ++ expiring.ended := by
  unfold bareSuspensionEnd
  rw [happ]
  cases hmanaged : expiring.app with
  | false =>
    refine ⟨[], ?_⟩
    simp [system, Transition.System.run, step, stepCall, hcall, hmanaged, htask]
  | true =>
    cases hidentifier : expiring.identifier with
    | none =>
      refine ⟨[.exchange], ?_⟩
      simp [system, Transition.System.run, step, stepCall, hcall, hmanaged, hidentifier, htask,
        atomicExchange]
    | some prev =>
      refine ⟨[.exchange, .endPrev], ?_⟩
      simp [system, Transition.System.run, step, stepCall, hcall, hmanaged, hidentifier, htask,
        atomicExchange]

theorem expire_alone (hbegun : task < expiring.begun)
    (hwaiting : expiring.expirations task = .waiting) :
    ∃ last, system.run expiring [.fire task, .compare task, .endNext task] = some last ∧
      last.identifier = (if expiring.identifier = some task then none else expiring.identifier) ∧
      last.ended = task :: expiring.ended := by
  simp only [system, Transition.System.run, step, stepExpiration, hwaiting, hbegun, ↓reduceIte,
    Option.bind_some, expire_self, Option.some.injEq, exists_eq_left']
  exact ⟨compareExchange_fst .., rfl⟩

theorem expiration_frame (hlabel : label ∈ [.fire task, .compare task, .endNext task])
    (hstep : expiring.step label = some next) {other : Nat} (hne : other ≠ task) :
    (next.identifier = some other ↔ expiring.identifier = some other) ∧
      (other ∈ next.ended ↔ other ∈ expiring.ended) := by
  have hmove := move_step hstep
  simp only [List.mem_cons, List.not_mem_nil, or_false] at hlabel
  rcases hlabel with rfl | rfl | rfl
  · cases hmove
    exact ⟨Iff.rfl, Iff.rfl⟩
  · cases hmove
    exact ⟨compareExchange_of_ne hne, Iff.rfl⟩
  · cases hmove
    refine ⟨Iff.rfl, ?_⟩
    rw [List.mem_cons]
    exact or_iff_right hne

end Expiring

/-- Whenever no call is in progress, every task that has begun was ended, but for the one that
is recorded and those whose handlers have cleared their records and end them next. After an end
that no start follows none is recorded. A handler leaves the other tasks alone. -/
theorem bareSuspension_ended {expiring : Expiring} (h : Expiring.system.Reachable expiring) :
    (expiring.call = .out → ∀ task < expiring.begun, task ∈ expiring.ended ∨
      expiring.identifier = some task ∨ expiring.expirations task = .compared true) ∧
    (expiring.finished = true → expiring.identifier = none ∧
      ∀ task < expiring.begun, task ∈ expiring.ended ∨
        expiring.expirations task = .compared true) ∧
    (∀ task, expiring.expirations task = .compared true →
      ∃ next, expiring.step (.endNext task) = some next ∧ task ∈ next.ended) ∧
    ∀ task label next, label ∈ [ExpiryStep.fire task, .compare task, .endNext task] →
      expiring.step label = some next → ∀ other, other ≠ task →
        (next.identifier = some other ↔ expiring.identifier = some other) ∧
          (other ∈ next.ended ↔ other ∈ expiring.ended) := by
  have hbalanced := Expiring.balanced h
  have hnone : expiring.finished = true → expiring.identifier = none := by
    intro hfinished
    apply hbalanced.closed
    unfold Expiring.closed
    split
    · rfl
    · exact hfinished
  refine ⟨fun hout task hbegun => ?_,
    fun hfinished => ⟨hnone hfinished, fun task hbegun => ?_⟩, fun task hcleared => ?_,
    fun task label next hlabel hstep other hne => Expiring.expiration_frame hlabel hstep hne⟩
  · by_contra hleft
    simp only [not_or] at hleft
    exact hleft.1 (hbalanced.ended hbegun hleft.2.1 (by rw [hout]; rfl) hleft.2.2)
  · by_contra hleft
    simp only [not_or] at hleft
    have hhand : expiring.call.hand = none := by
      rcases hbalanced.finished hfinished with hcall | hcall <;>
        rw [hcall] <;> rfl
    exact hleft.1 (hbalanced.ended hbegun (by simp [hnone hfinished]) hhand hleft.2)
  · refine ⟨{ expiring.expire task (.returned true) with ended := task :: expiring.ended }, ?_,
      List.mem_cons_self⟩
    simp only [Expiring.step, Expiring.stepExpiration, hcleared]

def Expiring.replaced : Expiring :=
  Expiring.system.result { app := true }
    [.start (-1), .beginTask true, .fire 0, .exchange, .limit 30000, .start 10, .beginTask true,
      .exchange, .compare 0, .endPrev, .limit 30000] (by decide)

def Expiring.finishedLast : Expiring :=
  Expiring.system.result { app := true }
    [.start 10, .beginTask true, .exchange, .limit 30000, .finish, .exchange, .endPrev, .fire 0,
      .compare 0] (by decide)

theorem bareSuspension_ended_replaced :
    (∀ task < 2, task ∈ Expiring.replaced.ended ∨ Expiring.replaced.identifier = some task ∨
      Expiring.replaced.expirations task = .compared true) ∧
    ∃ next, Expiring.replaced.step (.endNext 0) = some next ∧
      (next.identifier = some 1 ↔ Expiring.replaced.identifier = some 1) ∧
      (1 ∈ next.ended ↔ 1 ∈ Expiring.replaced.ended) ∧
    Expiring.finishedLast.finished = true ∧ Expiring.finishedLast.identifier = none ∧
    ∀ task < 1, task ∈ Expiring.finishedLast.ended ∨
      Expiring.finishedLast.expirations task = .compared true := by
  have hreach : Expiring.system.Reachable Expiring.replaced :=
    .result (S := Expiring.system) ⟨true, rfl⟩ _ _
  have h := bareSuspension_ended hreach
  have hframe := h.2.2.2 0 (.endNext 0) _ (by decide) rfl 1 (by decide)
  have hfinished := bareSuspension_ended
    (.result (S := Expiring.system) ⟨true, rfl⟩ _ _ : Expiring.system.Reachable
      Expiring.finishedLast)
  exact ⟨h.1 rfl, _, rfl, hframe.1, hframe.2, rfl, hfinished.2.1 rfl⟩

def Expiring.clearedLast : Expiring :=
  Expiring.system.result { app := true }
    [.start 10, .beginTask true, .exchange, .limit 30000, .finish, .fire 0, .compare 0, .exchange]
    (by decide)

/-- The task is neither recorded nor ended after the end, as its handler has still to end it. -/
theorem bareSuspension_ended_clearedLast :
    ¬ ∀ expiring, Expiring.system.Reachable expiring →
      (expiring.call = .out → ∀ task < expiring.begun,
        task ∈ expiring.ended ∨ expiring.identifier = some task) ∧
      (expiring.finished = true → ∀ task < expiring.begun, task ∈ expiring.ended) := by
  intro hclaim
  have hended :=
    (hclaim Expiring.clearedLast (.result (S := Expiring.system) ⟨true, rfl⟩ _ _)).2 rfl 0
    (by decide)
  revert hended
  decide

end BareKit
