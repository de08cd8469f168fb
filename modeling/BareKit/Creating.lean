import BareKit.Control

/-! Calls of `bare_ipc_create`, any number of them at once, on a worklet under the control of its
host. A call sets up an ipc and its signal before it asks the queue for the host end, and takes
them down again if it does not get it. -/
namespace BareKit

/-- `bare_ipc__on_signal`. -/
def bareIpcOnSignal : Pointer := 0

/-- What was the case when `bare_ipc_create` was called: the host end had been opened, the
worklet had been terminated and had torn down. -/
structure Creation where
  used : Bool
  tornDown : Bool
  deriving DecidableEq, Repr

/-- What a call of `bare_ipc_create` does next, or what it returned. -/
inductive OnCreate where
  | out
  | signalling (creation : Creation)
  | opening (creation : Creation)
  | undoing (creation : Creation)
  | freeing (creation : Creation) (err : Int)
  | locking (creation : Creation)
  | returned (creation : Creation) (err : Int)
  deriving DecidableEq, Repr

/-- What a call has acquired and nobody has released: the memory of the ipc, its signal with
the thread or the queue it runs on, and the lock of the ipc. -/
structure Acquired where
  ipc : Bool := false
  signal : Bool := false
  lock : Bool := false
  deriving DecidableEq, Repr

/-- Each call of `bare_ipc_create` has a number, which is also the address of its ipc.
`terminated` is whether `bare_worklet_terminate` has been called. -/
structure Creating where
  controlled : Controlled
  terminated : Bool := false
  calls : Nat → OnCreate := fun _ => .out
  acquired : Nat → Acquired := fun _ => {}

inductive CreateStep where
  /-- A step of anything else, the calls on the ipc that was created included. -/
  | control (label : ControlStep)
  | create (n : Nat) (made : Bool)
  | signalInit (n : Nat) (err : Int)
  | openThread (n : Nat)
  | signalDestroy (n : Nat)
  | free (n : Nat)
  | lockInit (n : Nat)
  /-- `bare_ipc_destroy`, once it has closed the ipc. -/
  | ipcDestroy (n : Nat)

/-- The call of `bare_ipc_create` that makes a step. -/
def CreateStep.call : CreateStep → Option Nat
  | .create n _ | .signalInit n _ | .openThread n | .signalDestroy n | .free n | .lockInit n =>
    some n
  | _ => none

def ControlStep.creates : ControlStep → Bool
  | .wire (.ipcCreate _ _) => true
  | _ => false

def ControlStep.terminates : ControlStep → Bool
  | .issue _ .terminate => true
  | _ => false

def OnCreate.opened : OnCreate → Bool
  | .locking _ => true
  | .returned _ err => err == 0
  | _ => false

def OnCreate.creation : OnCreate → Option Creation
  | .out => none
  | .signalling creation | .opening creation | .undoing creation | .freeing creation _
  | .locking creation | .returned creation _ => some creation

def OnCreate.holding : OnCreate → Acquired
  | .out | .returned _ _ => {}
  | .signalling _ | .freeing _ _ => { ipc := true }
  | .opening _ | .undoing _ | .locking _ => { ipc := true, signal := true }

namespace Creating

def put (creating : Creating) (n : Nat) (call : OnCreate) (acquired : Acquired) : Creating :=
  { creating with
    calls := Function.update creating.calls n call
    acquired := Function.update creating.acquired n acquired }

/-- The host end of the queue has been opened. -/
def used (creating : Creating) : Bool := creating.controlled.wire.queue.threadState != .idle

def tornDown (creating : Creating) : Bool := creating.terminated && creating.controlled.reported

/-- `bare_ipc_create`, as far as each call goes by itself. -/
def stepCreate (creating : Creating) (n : Nat) : OnCreate → CreateStep → Option Creating
  | .out, .create _ made =>
    let creation : Creation := ⟨creating.used, creating.tornDown⟩
    some (if made then creating.put n (.signalling creation) { ipc := true }
      else creating.put n (.returned creation (-1)) {})
  | .signalling creation, .signalInit _ err =>
    some (if err < 0 then creating.put n (.freeing creation err) (creating.acquired n)
      else creating.put n (.opening creation) { creating.acquired n with signal := true })
  | .opening creation, .openThread _ =>
    (creating.controlled.step (.wire (.ipcCreate bareIpcOnSignal n))).map fun controlled =>
      let port := (bareIpcCreate creating.controlled.wire.queue bareIpcOnSignal n).result
      { creating.put n (if port.isSome then .locking creation else .undoing creation)
          (creating.acquired n) with controlled }
  | .undoing creation, .signalDestroy _ =>
    some (creating.put n (.freeing creation (-1)) { creating.acquired n with signal := false })
  | .freeing creation err, .free _ =>
    some (creating.put n (.returned creation err) { creating.acquired n with ipc := false })
  | .locking creation, .lockInit _ =>
    some (creating.put n (.returned creation 0) { creating.acquired n with lock := true })
  | _, _ => none

def step (creating : Creating) (label : CreateStep) : Option Creating :=
  match label with
  | .control label =>
    if label.creates then none
    else
      (creating.controlled.step label).map fun controlled =>
        { creating with controlled, terminated := creating.terminated || label.terminates }
  | .create n _ | .signalInit n _ | .openThread n | .signalDestroy n | .free n | .lockInit n =>
    creating.stepCreate n (creating.calls n) label
  | .ipcDestroy n =>
    match creating.calls n with
    | .returned creation err =>
      if err = 0 ∧ creating.controlled.wire.ipc.all fun ipc => !ipc.port then
        some (creating.put n (.returned creation err) {})
      else none
    | _ => none

def system : Transition.System Creating CreateStep where
  init creating := ∃ controlled, Controlled.system.init controlled ∧ creating = { controlled }
  step := step

/-- No call that was made on a worklet that had been terminated and torn down is the first to
reach the queue. -/
def Settled (creating : Creating) (label : CreateStep) : Prop :=
  match label with
  | .openThread n =>
    match creating.calls n with
    | .opening creation => creation.tornDown = true → creating.used = true
    | _ => True
  | _ => True

instance (creating : Creating) (label : CreateStep) : Decidable (creating.Settled label) := by
  unfold Settled
  split
  · split <;> infer_instance
  · infer_instance

/-- A call that was made on a worklet that had an ipc, or had been terminated and torn down,
did not succeed. -/
def Refused (creating : Creating) : Prop :=
  ∀ n creation, creating.calls n = .returned creation 0 →
    creation.used = false ∧ creation.tornDown = false

inductive Move (creating : Creating) : CreateStep → Creating → Prop where
  | control {label controlled} (hcreates : label.creates = false)
      (hstep : creating.controlled.step label = some controlled) :
    Move creating (.control label)
      { creating with controlled, terminated := creating.terminated || label.terminates }
  | notMade {n} (hcall : creating.calls n = .out) :
    Move creating (.create n false)
      (creating.put n (.returned ⟨creating.used, creating.tornDown⟩ (-1)) {})
  | made {n} (hcall : creating.calls n = .out) :
    Move creating (.create n true)
      (creating.put n (.signalling ⟨creating.used, creating.tornDown⟩) { ipc := true })
  | notSignalled {n creation err} (hcall : creating.calls n = .signalling creation)
      (herr : err < 0) :
    Move creating (.signalInit n err)
      (creating.put n (.freeing creation err) (creating.acquired n))
  | signalled {n creation err} (hcall : creating.calls n = .signalling creation) :
    Move creating (.signalInit n err)
      (creating.put n (.opening creation) { creating.acquired n with signal := true })
  | opened {n creation controlled} (hcall : creating.calls n = .opening creation)
      (hidle : creating.used = false)
      (hstep : creating.controlled.step (.wire (.ipcCreate bareIpcOnSignal n)) = some controlled) :
    Move creating (.openThread n)
      { creating.put n (.locking creation) (creating.acquired n) with controlled }
  | refused {n creation} (hcall : creating.calls n = .opening creation)
      (hused : creating.used = true) :
    Move creating (.openThread n) (creating.put n (.undoing creation) (creating.acquired n))
  | undone {n creation} (hcall : creating.calls n = .undoing creation) :
    Move creating (.signalDestroy n)
      (creating.put n (.freeing creation (-1)) { creating.acquired n with signal := false })
  | freed {n creation err} (hcall : creating.calls n = .freeing creation err) :
    Move creating (.free n)
      (creating.put n (.returned creation err) { creating.acquired n with ipc := false })
  | locked {n creation} (hcall : creating.calls n = .locking creation) :
    Move creating (.lockInit n)
      (creating.put n (.returned creation 0) { creating.acquired n with lock := true })
  | destroyed {n creation} (hcall : creating.calls n = .returned creation 0) :
    Move creating (.ipcDestroy n) (creating.put n (.returned creation 0) {})

variable {creating next : Creating} {label : CreateStep} {n other : Nat}

theorem used_iff : creating.used = true ↔ creating.controlled.wire.queue.threadState ≠ .idle := by
  unfold used
  exact bne_iff_ne

theorem bareIpcCreate_used {queue : Queue} (h : queue.threadState ≠ .idle)
    (onSignal ipc : Pointer) :
    bareIpcCreate queue onSignal ipc = ⟨queue, none, none, none⟩ := by
  unfold bareIpcCreate bareQueueOpenThread
  rw [if_pos h]
  rfl

theorem bareIpcCreate_idle {queue : Queue} (h : queue.threadState = .idle)
    (onSignal ipc : Pointer) :
    (bareIpcCreate queue onSignal ipc).result = some ⟨true, ⟨none, 0⟩, 0⟩ := by
  unfold bareIpcCreate bareQueueOpenThread
  rw [if_neg (not_not.mpr h)]
  rfl

theorem open_refused {controlled opened : Controlled} {onSignal ipc : Pointer}
    (hused : controlled.wire.queue.threadState ≠ .idle)
    (hstep : controlled.step (.wire (.ipcCreate onSignal ipc)) = some opened) :
    opened = controlled := by
  obtain ⟨thread, hthread, hrest⟩ := Option.bind_eq_some_iff.mp hstep
  obtain ⟨wire, hwire, rfl⟩ := Option.map_eq_some_iff.mp hrest
  have hsame : thread = controlled.thread := by
    simp only [Controlled.threadAfter] at hthread
    split at hthread
    · contradiction
    · exact (Option.some.inj hthread).symm
  have hkept : wire = controlled.wire := by
    cases Wire.move_step hwire with
    | ipcCreate _ =>
      rw [bareIpcCreate_used hused]
      simp [Wire.apply]
  rw [hsame, hkept]

theorem move_stepCreate {call : OnCreate} (hcall : creating.calls n = call)
    (hlabel : label.call = some n)
    (hstep : creating.stepCreate n call label = some next) : Move creating label next := by
  cases call <;> cases label <;> try contradiction
  all_goals cases hlabel
  case out.create made =>
    cases made with
    | false =>
      cases hstep
      exact .notMade hcall
    | true =>
      cases hstep
      exact .made hcall
  case signalling.signalInit creation err =>
    cases hstep
    split
    · rename_i herr
      exact .notSignalled hcall herr
    · exact .signalled hcall
  case opening.openThread creation =>
    obtain ⟨controlled, hopen, rfl⟩ := Option.map_eq_some_iff.mp hstep
    cases hused : creating.used with
    | false =>
      have hidle : creating.controlled.wire.queue.threadState = .idle := by
        by_contra hne
        rw [used_iff.mpr hne] at hused
        contradiction
      simp only [bareIpcCreate_idle hidle, Option.isSome_some, ↓reduceIte]
      exact .opened hcall hused hopen
    | true =>
      have hne := used_iff.mp hused
      simp only [bareIpcCreate_used hne, Option.isSome_none, Bool.false_eq_true, ↓reduceIte]
      rw [open_refused hne hopen]
      exact .refused hcall hused
  case undoing.signalDestroy creation =>
    cases hstep
    exact .undone hcall
  case freeing.free creation err =>
    cases hstep
    exact .freed hcall
  case locking.lockInit creation =>
    cases hstep
    exact .locked hcall

theorem move_step (hstep : creating.step label = some next) : Move creating label next := by
  cases label with
  | control label =>
    simp only [step] at hstep
    split at hstep
    · contradiction
    · rename_i hcreates
      obtain ⟨controlled, hcontrolled, rfl⟩ := Option.map_eq_some_iff.mp hstep
      exact .control (Bool.eq_false_iff.mpr hcreates) hcontrolled
  | create n _ | signalInit n _ | openThread n | signalDestroy n | free n | lockInit n =>
    exact move_stepCreate rfl rfl hstep
  | ipcDestroy n =>
    simp only [step] at hstep
    split at hstep
    · rename_i creation err hcall
      split at hstep
      · rename_i hclosed
        rw [hclosed.1] at hcall hstep
        cases hstep
        exact .destroyed hcall
      · contradiction
    · contradiction

@[simp] theorem put_calls_self (call : OnCreate) (acquired : Acquired) :
    (creating.put n call acquired).calls n = call := Function.update_self ..

theorem put_calls_of_ne (call : OnCreate) (acquired : Acquired) (hne : other ≠ n) :
    (creating.put n call acquired).calls other = creating.calls other :=
      Function.update_of_ne hne ..

@[simp] theorem put_acquired_self (call : OnCreate) (acquired : Acquired) :
    (creating.put n call acquired).acquired n = acquired := Function.update_self ..

theorem put_acquired_of_ne (call : OnCreate) (acquired : Acquired) (hne : other ≠ n) :
    (creating.put n call acquired).acquired other = creating.acquired other :=
      Function.update_of_ne hne ..

theorem used_step {controlled after : Controlled} {label : ControlStep}
    (h : Controlled.system.Reachable controlled) (hstep : controlled.step label = some after)
    (hused : controlled.wire.queue.threadState ≠ .idle) : after.wire.queue.threadState ≠ .idle := by
  have hwire := Controlled.wire_reachable h
  rcases Controlled.wire_step hstep with hsame | ⟨onWire, honWire⟩
  · rw [hsame]
    exact hused
  · have hipc := Wire.ipc_kept (Wire.sound hwire) honWire ((Wire.hosted hwire).created hused)
    exact (Wire.sound (hwire.next onWire honWire)).opened hipc

theorem used_open {controlled opened : Controlled} {onSignal ipc : Pointer}
    (h : Controlled.system.Reachable controlled) (hidle : controlled.wire.queue.threadState = .idle)
    (hstep : controlled.step (.wire (.ipcCreate onSignal ipc)) = some opened) :
    opened.wire.queue.threadState ≠ .idle := by
  apply (Wire.sound
    (Controlled.wire_reachable (h.next (.wire (.ipcCreate onSignal ipc)) hstep))).opened
  obtain ⟨thread, _, hrest⟩ := Option.bind_eq_some_iff.mp hstep
  obtain ⟨wire, hwire, rfl⟩ := Option.map_eq_some_iff.mp hrest
  cases Wire.move_step hwire with
  | ipcCreate _ =>
    rw [bareIpcCreate_idle hidle]
    exact Option.some_ne_none _

theorem controlled_reachable (h : system.Reachable creating) :
    Controlled.system.Reachable creating.controlled := by
  refine h.invariant (I := fun creating => Controlled.system.Reachable creating.controlled) ?_
    fun creating label next _ hcontrolled hstep => ?_
  · rintro creating ⟨controlled, hinit, rfl⟩
    exact .start hinit
  · cases move_step hstep with
    | control _ hnext => exact hcontrolled.next _ hnext
    | opened _ _ hnext => exact hcontrolled.next (.wire (.ipcCreate bareIpcOnSignal _)) hnext
    | _ => exact hcontrolled

theorem used_control (h : system.Reachable creating) {label : ControlStep} {controlled : Controlled}
    (hstep : creating.controlled.step label = some controlled)
    (hnext : next.controlled = controlled)
    (hused : creating.used = true) : next.used = true := by
  rw [used_iff, hnext]
  exact used_step (controlled_reachable h) hstep (used_iff.mp hused)

structure Accounted (creating : Creating) : Prop where
  holding : ∀ n, (∀ creation, creating.calls n ≠ .returned creation 0) →
    creating.acquired n = (creating.calls n).holding
  failing : ∀ n creation err, creating.calls n = .freeing creation err → err < 0
  opened : ∀ n, (creating.calls n).opened = true → creating.used = true
  once : ∀ n other, (creating.calls n).opened = true → (creating.calls other).opened = true →
    n = other
  late : ∀ n creation, (creating.calls n).creation = some creation → creation.used = true →
    creating.used = true ∧ (creating.calls n).opened = false

theorem Accounted.put (h : creating.Accounted) {call : OnCreate} {acquired : Acquired}
    (hcalls : next.calls = Function.update creating.calls n call)
    (hacquired : next.acquired = Function.update creating.acquired n acquired)
    (hused : creating.used = true → next.used = true)
    (hopened : call.opened = true → (creating.calls n).opened = true ∨
      creating.used = false ∧ next.used = true)
    (hholding : (∀ creation, call ≠ .returned creation 0) → acquired = call.holding)
    (hfailing : ∀ creation err, call = .freeing creation err → err < 0)
    (hlate : ∀ creation, call.creation = some creation → creation.used = true →
      creating.used = true ∧ call.opened = false) : next.Accounted := by
  have hself : next.calls n = call := by rw [hcalls, Function.update_self]
  have hother : ∀ other, other ≠ n → next.calls other = creating.calls other := by
    intro other hne
    rw [hcalls, Function.update_of_ne hne]
  -- Nobody else has the host end if the call opens it.
  have hsole : ∀ other, other ≠ n → call.opened = true → (creating.calls other).opened ≠ true := by
    intro other hne hcall hopen
    rcases hopened hcall with hbefore | ⟨hidle, -⟩
    · exact hne (h.once other n hopen hbefore)
    · rw [h.opened other hopen] at hidle
      contradiction
  constructor
  · intro other hleft
    by_cases heq : other = n
    · subst heq
      rw [hself] at hleft ⊢
      rw [hacquired, Function.update_self]
      exact hholding hleft
    · rw [hother other heq] at hleft ⊢
      rw [hacquired, Function.update_of_ne heq]
      exact h.holding other hleft
  · intro other creation err hfreeing
    by_cases heq : other = n
    · subst heq
      exact hfailing creation err (hself.symm.trans hfreeing)
    · exact h.failing other creation err ((hother other heq).symm.trans hfreeing)
  · intro other hopen
    by_cases heq : other = n
    · subst heq
      rw [hself] at hopen
      rcases hopened hopen with hbefore | ⟨-, hnext⟩
      · exact hused (h.opened other hbefore)
      · exact hnext
    · rw [hother other heq] at hopen
      exact hused (h.opened other hopen)
  · intro first second hfirst hsecond
    by_cases hn : first = n
    · by_cases hm : second = n
      · exact hn.trans hm.symm
      · rw [hn, hself] at hfirst
        rw [hother second hm] at hsecond
        exact absurd hsecond (hsole second hm hfirst)
    · rw [hother first hn] at hfirst
      by_cases hm : second = n
      · rw [hm, hself] at hsecond
        exact absurd hfirst (hsole first hn hsecond)
      · rw [hother second hm] at hsecond
        exact h.once first second hfirst hsecond
  · intro other creation hcreation hbefore
    by_cases heq : other = n
    · subst heq
      rw [hself] at hcreation ⊢
      obtain ⟨hset, hrefused⟩ := hlate creation hcreation hbefore
      exact ⟨hused hset, hrefused⟩
    · rw [hother other heq] at hcreation ⊢
      obtain ⟨hset, hrefused⟩ := h.late other creation hcreation hbefore
      exact ⟨hused hset, hrefused⟩

theorem Accounted.step (hreach : system.Reachable creating) (h : creating.Accounted)
    (hstep : creating.step label = some next) : next.Accounted := by
  cases move_step hstep with
  | control _ hcontrolled =>
    refine ⟨h.holding, h.failing, fun n hopen => ?_, h.once, fun n creation hcreation hlate => ?_⟩
    · exact used_control hreach hcontrolled rfl (h.opened n hopen)
    · obtain ⟨hbefore, hopen⟩ := h.late n creation hcreation hlate
      exact ⟨used_control hreach hcontrolled rfl hbefore, hopen⟩
  | notMade hcall | made hcall =>
    refine h.put rfl rfl id (fun hopen => ?_) (fun _ => rfl) (fun _ _ hfreeing => ?_)
      fun creation hcreation hlate => ?_
    · contradiction
    · contradiction
    · cases hcreation
      exact ⟨hlate, rfl⟩
  | notSignalled hcall herr =>
    refine h.put rfl rfl id (fun hopen => ?_) (fun _ => ?_) (fun creation err hfreeing => ?_)
      fun creation hcreation hlate => ?_
    · contradiction
    · rw [h.holding _ (by simp [hcall]), hcall]
      rfl
    · cases hfreeing
      exact herr
    · exact ⟨(h.late _ creation (by rw [hcall]; exact hcreation) hlate).1, rfl⟩
  | signalled hcall | refused hcall _ =>
    refine h.put rfl rfl id (fun hopen => ?_) (fun _ => ?_) (fun _ _ hfreeing => ?_)
      fun creation hcreation hlate => ?_
    · contradiction
    · rw [h.holding _ (by simp [hcall]), hcall]
      rfl
    · contradiction
    · exact ⟨(h.late _ creation (by rw [hcall]; exact hcreation) hlate).1, rfl⟩
  | opened hcall hidle hcontrolled =>
    have hstate : creating.controlled.wire.queue.threadState = .idle := by
      by_contra hne
      rw [used_iff.mpr hne] at hidle
      contradiction
    have hused := used_open (controlled_reachable hreach) hstate hcontrolled
    refine h.put rfl rfl (fun _ => used_iff.mpr hused) (fun _ => Or.inr ⟨hidle, used_iff.mpr hused⟩)
      (fun _ => ?_) (fun _ _ hfreeing => ?_) fun creation hcreation hlate => ?_
    · rw [h.holding _ (by simp [hcall]), hcall]
      rfl
    · contradiction
    · have hbefore := (h.late _ creation (by rw [hcall]; exact hcreation) hlate).1
      rw [hbefore] at hidle
      contradiction
  | undone hcall =>
    refine h.put rfl rfl id (fun hopen => ?_) (fun _ => ?_) (fun creation err hfreeing => ?_)
      fun creation hcreation hlate => ?_
    · contradiction
    · rw [h.holding _ (by simp [hcall]), hcall]
      rfl
    · cases hfreeing
      decide
    · exact ⟨(h.late _ creation (by rw [hcall]; exact hcreation) hlate).1, rfl⟩
  | freed hcall =>
    rename_i n creation err
    have herr : (err == 0) = false := by
      have hneg := h.failing n creation err hcall
      simp only [beq_eq_false_iff_ne]
      omega
    refine h.put rfl rfl id (fun hopen => ?_) (fun _ => ?_) (fun _ _ hfreeing => ?_)
      fun creation hcreation hlate => ?_
    · rw [show OnCreate.opened (.returned creation err) = (err == 0) from rfl, herr] at hopen
      contradiction
    · rw [h.holding _ (by simp [hcall]), hcall]
      rfl
    · contradiction
    · exact ⟨(h.late _ creation (by rw [hcall]; exact hcreation) hlate).1, herr⟩
  | locked hcall | destroyed hcall =>
    refine h.put rfl rfl id (fun _ => Or.inl (by rw [hcall]; rfl)) (fun hleft => ?_)
      (fun _ _ hfreeing => ?_) fun creation hcreation hlate => ?_
    · exact absurd rfl (hleft _)
    · contradiction
    · have hrefused := (h.late _ creation (by rw [hcall]; exact hcreation) hlate).2
      rw [hcall] at hrefused
      contradiction

theorem accounted (h : system.Reachable creating) : creating.Accounted := by
  refine h.invariant (I := Accounted) ?_ fun creating label next hreach haccounted hstep =>
    haccounted.step hreach hstep
  rintro creating ⟨controlled, _, rfl⟩
  constructor
  · intro n _
    rfl
  · intro n creation err hfreeing
    contradiction
  · intro n hopen
    contradiction
  · intro n other hopen
    contradiction
  · intro n creation hcreation
    contradiction

theorem opened_step (hopen : (creating.calls n).opened = true)
    (hstep : creating.step label = some next) :
    (next.calls n).opened = true := by
  have hput : ∀ m call, (n = m → (creating.calls n).opened = true → call.opened = true) →
      (Function.update creating.calls m call n).opened = true := by
    intro m call hcall
    by_cases heq : n = m
    · rw [heq, Function.update_self]
      exact hcall heq hopen
    · rw [Function.update_of_ne heq]
      exact hopen
  cases move_step hstep with
  | control _ _ => exact hopen
  | notMade hcall | made hcall | notSignalled hcall _ | signalled hcall | refused hcall _
  | undone hcall
  | freed hcall =>
    refine hput _ _ fun heq hbefore => ?_
    rw [heq, hcall] at hbefore
    contradiction
  | opened _ _ _ | locked _ | destroyed _ => exact hput _ _ fun _ _ => rfl

theorem opened_run (hopen : (creating.calls n).opened = true) {labels : List CreateStep}
    {last : Creating}
    (hrun : system.run creating labels = some last) : (last.calls n).opened = true := by
  induction labels generalizing creating with
  | nil =>
    cases hrun
    exact hopen
  | cons label rest ih =>
    obtain ⟨next, hstep, hrest⟩ := Option.bind_eq_some_iff.mp hrun
    exact ih (opened_step hopen hstep) hrest

theorem call_frame (hlabel : label.call = some n) (hstep : creating.step label = some next)
    (hclosed : (next.calls n).opened = false) :
    next.controlled = creating.controlled ∧ ∀ other, other ≠ n →
      next.calls other = creating.calls other ∧ next.acquired other = creating.acquired other := by
  cases move_step hstep with
  | control _ _ | destroyed _ => contradiction
  | opened _ _ _ =>
    cases hlabel
    change (Function.update creating.calls n _ n).opened = false at hclosed
    rw [Function.update_self] at hclosed
    contradiction
  | notMade _ | made _ | notSignalled _ _ | signalled _ | refused _ _ | undone _ | freed _
  | locked _ =>
    cases hlabel
    exact ⟨rfl, fun other hne => ⟨put_calls_of_ne _ _ hne, put_acquired_of_ne _ _ hne⟩⟩

/-- A call that fails leaves everything else as it was, and keeps nothing. -/
theorem failed_frame (h : system.Reachable creating) (hlabel : label.call = some n)
    (hstep : creating.step label = some next) {labels : List CreateStep} {last : Creating}
    (hrun : system.run next labels = some last) {creation : Creation} {err : Int}
    (hreturned : last.calls n = .returned creation err) (herr : err ≠ 0) :
    next.controlled = creating.controlled ∧ (∀ other, other ≠ n →
      next.calls other = creating.calls other ∧ next.acquired other = creating.acquired other) ∧
      last.acquired n = {} := by
  have hclosed : (next.calls n).opened = false := by
    by_contra hopen
    have hlast := opened_run (eq_true_of_ne_false hopen) hrun
    rw [hreturned] at hlast
    exact herr (beq_iff_eq.mp hlast)
  obtain ⟨hcontrolled, hothers⟩ := call_frame hlabel hstep hclosed
  have haccounted := accounted ((h.next label hstep).run hrun)
  refine ⟨hcontrolled, hothers, ?_⟩
  rw [haccounted.holding n (by simp [hreturned, herr]), hreturned]
  rfl

def Timely (creating : Creating) : Prop :=
  ∀ n creation, (creating.calls n).opened = true → (creating.calls n).creation = some creation →
    creation.tornDown = false

theorem timely_step (h : creating.Timely) (haccounted : creating.Accounted)
    (hsettled : creating.Settled label) (hstep : creating.step label = some next) :
    next.Timely := by
  have hput : ∀ m call, (∀ creation, call.opened = true → call.creation = some creation →
      creation.tornDown = false) → ∀ n creation,
      (Function.update creating.calls m call n).opened = true →
      (Function.update creating.calls m call n).creation = some creation →
      creation.tornDown = false := by
    intro m call hcall
    exact (Function.forall_update_iff creating.calls fun _ call => ∀ creation, call.opened = true →
      call.creation = some creation → creation.tornDown = false).mpr ⟨hcall, fun n _ => h n⟩
  cases move_step hstep with
  | control _ _ => exact h
  | notMade _ | made _ | notSignalled _ _ | signalled _ | refused _ _ | undone _ =>
    refine hput _ _ fun creation hopen _ => ?_
    contradiction
  | freed hcall =>
    refine hput _ _ fun creation hopen _ => ?_
    have herr := beq_iff_eq.mp hopen
    have hneg := haccounted.failing _ _ _ hcall
    omega
  | locked hcall | destroyed hcall =>
    refine hput _ _ fun creation _ hcreation => ?_
    exact h _ creation (by rw [hcall]; rfl) (by rw [hcall]; exact hcreation)
  | opened hcall hidle _ =>
    refine hput _ _ fun creation _ hcreation => ?_
    cases hcreation
    by_contra hlate
    simp only [Settled, hcall] at hsettled
    rw [hsettled (eq_true_of_ne_false hlate)] at hidle
    contradiction

theorem timely (h : (system.guard Settled).Reachable creating) : creating.Timely := by
  refine h.invariant (I := Timely) ?_ fun creating label next hreach htimely hstep => ?_
  · rintro creating ⟨controlled, _, rfl⟩ n creation hopen
    contradiction
  · obtain ⟨hsettled, hnext⟩ := Transition.System.guard_step.mp hstep
    exact timely_step htimely (accounted hreach.of_guard) hsettled hnext

theorem returned_unused (h : system.Reachable creating) {creation : Creation}
    (hreturned : creating.calls n = .returned creation 0) : creation.used = false := by
  by_contra hused
  have hrefused :=
    ((accounted h).late n creation (by rw [hreturned]; rfl) (eq_true_of_ne_false hused)).2
  rw [hreturned] at hrefused
  contradiction

/-- The first call to reach the queue succeeds, late as it may be. -/
theorem late_succeeds (hsettled : ¬ creating.Settled (.openThread n))
    (hstep : creating.step (.openThread n) = some next) :
    ∃ last, next.step (.lockInit n) = some last ∧ ¬ last.Refused := by
  have hmove := move_step hstep
  cases hmove with
  | refused hcall hused =>
    simp only [Settled, hcall, hused, implies_true, not_true_eq_false] at hsettled
  | opened hcall hidle hcontrolled =>
    rename_i creation controlled
    simp only [Settled, hcall, hidle, Bool.false_eq_true, imp_false, Decidable.not_not] at hsettled
    have hlocking :
        Function.update creating.calls n (OnCreate.locking creation) n = .locking creation :=
      Function.update_self ..
    refine ⟨_, by
      simp only [step, put, hlocking, stepCreate]
      rfl, fun hrefused => ?_⟩
    have hearly := (hrefused n creation (Function.update_self ..)).2
    rw [hsettled] at hearly
    contradiction

end Creating

/-- In a run where no call of `bare_ipc_create` that was made on a worklet that had been
terminated and torn down is the first to reach the queue, every call that was made on a worklet
with an ipc or on such a worklet fails. A call that is the first all the same succeeds. In every
run one call succeeds at most, no call that was made with an ipc there, and the calls that fail
leave everything else as it was and keep nothing. -/
theorem bareIpcCreate_refused (creating : Creating) :
    ((Creating.system.guard Creating.Settled).Reachable creating → creating.Refused) ∧
    (∀ n next, Creating.system.Reachable creating → ¬ creating.Settled (.openThread n) →
      creating.step (.openThread n) = some next →
      ∃ last, next.step (.lockInit n) = some last ∧ ¬ last.Refused) ∧
    (Creating.system.Reachable creating →
      (∀ n other creation creation', creating.calls n = .returned creation 0 →
        creating.calls other = .returned creation' 0 → n = other) ∧
      (∀ n creation, creating.calls n = .returned creation 0 → creation.used = false) ∧
      ∀ n label next labels last creation err, label.call = some n →
        creating.step label = some next → Creating.system.run next labels = some last →
        last.calls n = .returned creation err → err ≠ 0 →
        next.controlled = creating.controlled ∧ (∀ other, other ≠ n →
          next.calls other = creating.calls other ∧ next.acquired other = creating.acquired other) ∧
          last.acquired n = {}) := by
  refine ⟨fun h n creation hreturned => ⟨Creating.returned_unused h.of_guard hreturned, ?_⟩,
    fun n next _ hsettled hstep => Creating.late_succeeds hsettled hstep, fun h => ⟨?_, ?_, ?_⟩⟩
  · exact Creating.timely h n creation (by rw [hreturned]; rfl) (by rw [hreturned]; rfl)
  · intro n other creation creation' hreturned hother
    exact (Creating.accounted h).once n other (by rw [hreturned]; rfl) (by rw [hother]; rfl)
  · exact fun n creation hreturned => Creating.returned_unused h hreturned
  · exact fun n label next labels last creation err hlabel hstep hrun hreturned herr =>
      Creating.failed_frame h hlabel hstep hrun hreturned herr

def CreateStep.lifetime : List CreateStep :=
  [.start true, .onThread, .wire (.openUv (some 0) none), .onThread, .onStart, .issue 0 .terminate,
    .enter 0 true 0, .forwarded 0 0, .leave 0, .onThread, .onThread, .wire .exit,
    .onThread, .onThread, .onThread, .onThread].map .control

/-- An ipc is created before and two more after, the last of which has no memory for a signal. -/
def Creating.createdEarly : Creating :=
  (Creating.system.guard Creating.Settled).result
    { controlled := .create true Slots.blank Slots.blank }
    (.flatten [[.create 0 true, .signalInit 0 0, .openThread 0, .lockInit 0], CreateStep.lifetime,
      [.create 1 true, .signalInit 1 0, .create 2 true, .signalInit 2 (-1), .openThread 1,
        .signalDestroy 1, .free 2, .free 1]]) (by decide +kernel)

def Creating.tornDownFirst : Creating :=
  Creating.system.result { controlled := .create true Slots.blank Slots.blank }
    (.append CreateStep.lifetime [.create 0 true, .signalInit 0 0]) (by decide +kernel)

theorem Creating.tornDownFirst_reachable : Creating.system.Reachable Creating.tornDownFirst :=
  .result (S := Creating.system) ⟨_, ⟨_, _, _, rfl⟩, rfl⟩ _ _

theorem bareIpcCreate_refused_createdEarly : Creating.createdEarly.Refused ∧
    (∃ next last, Creating.tornDownFirst.step (.openThread 0) = some next ∧
      next.step (.lockInit 0) = some last ∧ ¬ last.Refused) ∧
    ∀ other creation, Creating.createdEarly.calls other = .returned creation 0 → 0 = other := by
  have hearly : (Creating.system.guard Creating.Settled).Reachable Creating.createdEarly :=
    .result (S := Creating.system.guard Creating.Settled) ⟨_, ⟨_, _, _, rfl⟩, rfl⟩ _ _
  refine ⟨(bareIpcCreate_refused Creating.createdEarly).1 hearly, ?_,
    fun other creation hother => ?_⟩
  · obtain ⟨last, hlast⟩ := (bareIpcCreate_refused Creating.tornDownFirst).2.1 0 _
      Creating.tornDownFirst_reachable (by decide +kernel) (Option.some_get
        (show (Creating.tornDownFirst.step (.openThread 0)).isSome by decide +kernel)).symm
    exact ⟨_, last, (Option.some_get _).symm, hlast⟩
  · exact ((bareIpcCreate_refused Creating.createdEarly).2.2 hearly.of_guard).1 0 other
      ⟨false, false⟩
      creation (by decide +kernel) hother

/-- The ipc of a worklet that was terminated and has torn down is created. -/
theorem bareIpcCreate_refused_tornDownFirst :
    ¬ ∀ creating, Creating.system.Reachable creating → creating.Refused := by
  intro hclaim
  have hrefused := hclaim
    (Creating.system.result Creating.tornDownFirst [.openThread 0, .lockInit 0] (by decide +kernel))
    (Creating.tornDownFirst_reachable.run (Option.some_get _).symm)
  have hlate := (hrefused 0 ⟨false, true⟩ (by decide +kernel)).2
  contradiction

end BareKit
