import BareKit.LockOrder
import BareKit.Transition
import Mathlib.Data.Set.Insert

/-! The locks that the calls on an ipc and its poll take, each call as the code that is
left of it when only its locks are kept: those of the signal, of the ipc and of the queue,
and the join of the thread of the poll. Where the data decides what a call does, what it
decides is an argument, so every way through a call is covered. -/
namespace BareKit

open LockOrder

inductive Lane where
  | worklet
  | poll
  | host (number : Nat)
  deriving DecidableEq, Repr

inductive Lock where
  | running
  | ipc
  | queue
  deriving DecidableEq, Repr

/-- A wake of the thread of the poll, the end of its loop, and the call of its callback. -/
inductive LockAct where
  | wake
  | close
  | callback
  deriving DecidableEq, Repr

abbrev Code := List (Instr Lane Lock LockAct)

/-- Only `running` is recursive, and it is all that is held across a callback. -/
def lockOrder : Order Lock LockAct where
  rank
    | .running => 0
    | .ipc => 1
    | .queue => 2
  recursive
    | .running => true
    | _ => false
  allows
    | .callback, held => held == [.running]
    | _, _ => true

namespace Code

def bareQueue (signals : Bool) : Code :=
  [.lock .queue] ++ (if signals then [.act .wake] else []) ++ [.unlock .queue]

def bareIpcClose (port : Bool) : Code :=
  [.lock .ipc] ++ (if port then bareQueue false ++ [.act .wake] else []) ++ [.unlock .ipc]

def bareIpcEnd (port : Bool) : Code :=
  [.lock .ipc] ++ (if port then bareQueue false ++ [.act .wake] else []) ++ [.unlock .ipc]

/-- `reads` is whether no message is pending, `asks` whether one was read to its end, and
`more` whether there is more. -/
def bareIpcRead (reads asks more : Bool) : Code :=
  [.lock .ipc] ++ (if reads then bareQueue false else []) ++
    (if asks then bareQueue false else []) ++
    (if more then [.act .wake] else []) ++ [.unlock .ipc]

def bareIpcWrite (writes : Bool) : Code :=
  [.lock .ipc] ++ (if writes then bareQueue false else []) ++ [.unlock .ipc]

def bareIpcSetPoll : Code := [.lock .running, .unlock .running]

def bareIpcPollCreate : Code := bareIpcSetPoll

def bareIpcPollStop : Code := []

def bareIpcPollStart (events : Bool) : Code := if events then [.act .wake] else bareIpcPollStop

def bareIpcPollDestroy : Code := bareIpcPollStop ++ bareIpcSetPoll

def bareIpcSignalDestroy : Lane → Code
  | .poll => [.lock .running, .unlock .running, .act .close]
  | _ => [.lock .running, .unlock .running, .act .close, .join .poll]

def bareIpcDestroy (self : Lane) (port : Bool) : Code :=
  bareIpcClose port ++ bareIpcSignalDestroy self

/-- `started` is whether there is a poll with a callback, and `ready` whether there is
something to tell. -/
def bareIpcDispatch (started port asks ready : Bool) : Code :=
  if started then
    [.lock .ipc] ++
      (if port then (if asks then bareQueue false else []) ++ bareQueue false else []) ++
      [.unlock .ipc] ++ (if ready then [.act .callback] else [])
  else []

def bareIpcOnWake (ipc started port asks ready : Bool) : Code :=
  [.lock .running] ++ (if ipc then bareIpcDispatch started port asks ready else []) ++
    [.unlock .running]

end Code

inductive LockCall where
  | close (port : Bool)
  | «end» (port : Bool)
  | read (reads asks more : Bool)
  | write (writes : Bool)
  | pollCreate
  | pollStart (events : Bool)
  | pollStop
  | pollDestroy
  | destroy (port : Bool)
  deriving DecidableEq, Repr

def LockCall.code (self : Lane) : LockCall → Code
  | .close port => Code.bareIpcClose port
  | .end port => Code.bareIpcEnd port
  | .read reads asks more => Code.bareIpcRead reads asks more
  | .write writes => Code.bareIpcWrite writes
  | .pollCreate => Code.bareIpcPollCreate
  | .pollStart events => Code.bareIpcPollStart events
  | .pollStop => Code.bareIpcPollStop
  | .pollDestroy => Code.bareIpcPollDestroy
  | .destroy port => Code.bareIpcDestroy self port

/-- `wake` and `close` are what the loop of the poll was told. One thread destroys the poll
and then the ipc. -/
structure Locking extends Locks Lane Lock LockAct where
  wake : Bool := false
  close : Bool := false
  destroyer : Option Lane := none
  pollGone : Bool := false
  ipcGone : Bool := false

inductive LockingStep where
  /-- A thread of the host, or the thread of the poll in its callback, makes a call. -/
  | call (thread : Lane) (call : LockCall)
  /-- The worklet calls a function of the queue. -/
  | queue (signals : Bool)
  | onWake (ipc started port asks ready : Bool)
  /-- The loop of the poll ends. -/
  | exit
  /-- A thread goes on in its code. That of the poll returns from the callback so. -/
  | advance (thread : Lane)
  deriving DecidableEq, Repr

namespace Locking

def begin (locking : Locking) (thread : Lane) (code : Code) : Locking :=
  { locking with toLocks := locking.setCode thread (code ++ locking.code thread) }

def mayCall (locking : Locking) : Lane → Bool
  | .worklet => false
  | .poll => (locking.code .poll).head? == some (.act .callback)
  | .host number => locking.code (.host number) == []

def mayDestroy (locking : Locking) (thread : Lane) : Bool :=
  !locking.ipcGone && locking.destroyer.all (· == thread)

def stepCall (locking : Locking) (thread : Lane) (call : LockCall) : Option Locking :=
  match call with
  | .pollDestroy =>
    if locking.mayDestroy thread ∧ locking.pollGone = false then
      some { locking.begin thread (call.code thread) with
        destroyer := some thread, pollGone := true }
    else none
  | .destroy _ =>
    if locking.mayDestroy thread then
      some { locking.begin thread (call.code thread) with
        destroyer := some thread, ipcGone := true }
    else none
  | _ => some (locking.begin thread (call.code thread))

def step (locking : Locking) : LockingStep → Option Locking
  | .call thread call => if locking.mayCall thread then locking.stepCall thread call else none
  | .queue signals =>
    if locking.code .worklet = [] then some (locking.begin .worklet (Code.bareQueue signals))
    else none
  | .onWake ipc started port asks ready =>
    if locking.code .poll = [] ∧ locking.ended .poll = false ∧ locking.wake then
      some { locking.begin .poll (Code.bareIpcOnWake ipc started port asks ready) with
        wake := false }
    else none
  | .exit =>
    if locking.code .poll = [] ∧ locking.close then
      some { locking with ended := Function.update locking.ended .poll true }
    else none
  | .advance thread =>
    (locking.toLocks.step lockOrder thread).map fun next =>
      { locking with
        toLocks := next
        wake := locking.wake || (locking.code thread).head? == some (.act .wake)
        close := locking.close || (locking.code thread).head? == some (.act .close) }

def system : Transition.System Locking LockingStep where
  init locking := locking = {}
  step := step

variable {locking next : Locking} {label : LockingStep} {thread : Lane}

theorem follow_call (call : LockCall) (hthread : thread ≠ .poll) :
    lockOrder.follow [] (call.code thread) = some [] := by
  cases thread with
  | poll => contradiction
  | worklet | host number =>
    cases call with
    | read reads asks more => cases reads <;> cases asks <;> cases more <;> rfl
    | close flag | «end» flag | write flag | pollStart flag | destroy flag => cases flag <;> rfl
    | pollCreate | pollStop | pollDestroy => rfl

/-- So it does from within the callback, where `running` is held. -/
theorem follow_callback (call : LockCall) :
    lockOrder.follow [.running] (call.code .poll) = some [.running] := by
  cases call with
  | read reads asks more => cases reads <;> cases asks <;> cases more <;> rfl
  | close flag | «end» flag | write flag | pollStart flag | destroy flag => cases flag <;> rfl
  | pollCreate | pollStop | pollDestroy => rfl

theorem follow_queue (signals : Bool) : lockOrder.follow [] (Code.bareQueue signals) = some [] := by
  cases signals <;> rfl

theorem follow_onWake (ipc started port asks ready : Bool) :
    lockOrder.follow [] (Code.bareIpcOnWake ipc started port asks ready) = some [] := by
  cases ipc <;> cases started <;> cases port <;> cases asks <;> cases ready <;> rfl

def Joins (thread : Lane) (instr : Instr Lane Lock LockAct) : Bool :=
  match instr with
  | .join other => other == .poll && thread != .poll
  | _ => true

theorem joins_call (thread : Lane) (call : LockCall) :
    (call.code thread).all (Joins thread) = true := by
  cases call with
  | read reads asks more => cases reads <;> cases asks <;> cases more <;> rfl
  | close flag | «end» flag | write flag | pollStart flag => cases flag <;> rfl
  | destroy flag => cases flag <;> cases thread <;> rfl
  | pollCreate | pollStop | pollDestroy => rfl

theorem joins_onWake (ipc started port asks ready : Bool) :
    (Code.bareIpcOnWake ipc started port asks ready).all (Joins .poll) = true := by
  cases ipc <;> cases started <;> cases port <;> cases asks <;> cases ready <;> rfl

structure Sound (locking : Locking) : Prop where
  orderly : ∃ held, locking.toLocks.Orderly lockOrder held
  joins : ∀ thread, (locking.code thread).all (Joins thread) = true

theorem Sound.begin {code : Code} (h : locking.Sound)
    (hfollow : ∀ held, locking.toLocks.Orderly lockOrder held →
      lockOrder.follow (held thread) (code ++ locking.code thread) = some [])
    (hjoins : code.all (Joins thread) = true) : (locking.begin thread code).Sound := by
  obtain ⟨⟨held, horderly⟩, hjoin⟩ := h
  refine ⟨⟨held, horderly.setCode (hfollow held horderly)⟩, fun other => ?_⟩
  by_cases hother : other = thread
  · subst hother
    simp [Locking.begin, Locks.setCode, List.all_append, hjoins, hjoin other]
  · simpa [Locking.begin, Locks.setCode, hother] using hjoin other

theorem follow_idle {held : Lane → List Lock} (h : locking.toLocks.Orderly lockOrder held)
    (hidle : locking.code thread = []) {code : Code} (hcode : lockOrder.follow [] code = some []) :
    lockOrder.follow (held thread) (code ++ locking.code thread) = some [] := by
  have hfollows := h.follows thread
  rw [hidle] at hfollows
  have hheld : held thread = [] := Option.some.inj hfollows
  rw [hidle, List.append_nil, hheld]
  exact hcode

theorem Sound.call (h : locking.Sound) (hmay : locking.mayCall thread = true) (call : LockCall) :
    (locking.begin thread (call.code thread)).Sound := by
  refine h.begin (fun held horderly => ?_) (joins_call thread call)
  cases thread with
  | worklet => contradiction
  | poll =>
    have hhead : (locking.code .poll).head? = some (.act .callback) := by simpa [mayCall] using hmay
    obtain ⟨rest, hcode⟩ := List.head?_eq_some_iff.mp hhead
    have hfollows := horderly.follows .poll
    rw [hcode] at hfollows
    have hheld : held .poll = [.running] := by simpa [lockOrder] using (Order.follow_act hfollows).1
    rw [hheld] at hfollows ⊢
    rw [Order.follow_append, follow_callback, hcode]
    exact hfollows
  | host number =>
    have hidle : locking.code (.host number) = [] := by simpa [mayCall] using hmay
    exact follow_idle horderly hidle (follow_call call (by simp))

theorem Sound.congr (h : locking.Sound) (hlocks : next.code = locking.code)
    (hmutex : next.mutex = locking.mutex) : next.Sound := by
  obtain ⟨⟨held, hfollows, hlevel⟩, hjoins⟩ := h
  exact ⟨⟨held, hlocks ▸ hfollows, hmutex ▸ hlevel⟩, hlocks ▸ hjoins⟩

theorem joins_advance {locks : Locks Lane Lock LockAct}
    (h : ∀ thread, (locking.code thread).all (Joins thread) = true)
    (hstep : locking.toLocks.step lockOrder thread = some locks) (other : Lane) :
    (locks.code other).all (Joins other) = true := by
  have htail : ∀ instr rest, locking.code thread = instr :: rest →
      (Function.update locking.code thread rest other).all (Joins other) = true := by
    intro instr rest hcode
    by_cases hother : other = thread
    · subst hother
      have hall := h other
      rw [hcode, List.all_cons, Bool.and_eq_true] at hall
      simpa using hall.2
    · simpa [hother] using h other
  unfold Locks.step at hstep
  split at hstep
  · contradiction
  · rename_i hcode
    obtain ⟨mutex, -, rfl⟩ := Option.map_eq_some_iff.mp hstep
    exact htail _ _ hcode
  · rename_i hcode
    cases hstep
    exact htail _ _ hcode
  · rename_i hcode
    split at hstep
    · cases hstep
      exact htail _ _ hcode
    · contradiction
  · rename_i hcode
    cases hstep
    exact htail _ _ hcode

theorem Sound.step (h : locking.Sound) (hstep : locking.step label = some next) : next.Sound := by
  cases label with
  | call thread call =>
    simp only [Locking.step] at hstep
    split at hstep
    · rename_i hmay
      have hbegin := h.call hmay call
      unfold stepCall at hstep
      split at hstep
      · split at hstep
        · cases hstep
          exact hbegin.congr rfl rfl
        · contradiction
      · split at hstep
        · cases hstep
          exact hbegin.congr rfl rfl
        · contradiction
      · cases hstep
        exact hbegin
    · contradiction
  | queue signals =>
    simp only [Locking.step] at hstep
    split at hstep
    · rename_i hidle
      cases hstep
      exact h.begin (fun held horderly => follow_idle horderly hidle (follow_queue signals))
        (by cases signals <;> rfl)
    · contradiction
  | onWake ipc started port asks ready =>
    simp only [Locking.step] at hstep
    split at hstep
    · rename_i hguard
      cases hstep
      have hbegin : (locking.begin .poll (Code.bareIpcOnWake ipc started port asks ready)).Sound :=
        h.begin
        (fun held horderly => follow_idle horderly hguard.1
          (follow_onWake ipc started port asks ready))
        (joins_onWake ipc started port asks ready)
      exact hbegin.congr rfl rfl
    · contradiction
  | exit =>
    simp only [Locking.step] at hstep
    split at hstep
    · cases hstep
      exact h.congr rfl rfl
    · contradiction
  | advance thread =>
    obtain ⟨locks, hlocks, rfl⟩ := Option.map_eq_some_iff.mp hstep
    obtain ⟨⟨held, horderly⟩, hjoins⟩ := h
    exact ⟨horderly.step hlocks, joins_advance hjoins hlocks⟩

theorem sound (h : system.Reachable locking) : locking.Sound := by
  refine h.invariant (I := Sound) ?_ fun _ _ _ _ hsound hstep => hsound.step hstep
  rintro _ rfl
  exact ⟨⟨fun _ => [], fun _ => rfl, fun _ _ => rfl⟩, fun _ => rfl⟩

theorem not_joining (h : locking.Sound) {other : Lane} {rest : Code}
    (hcode : locking.code thread = .join other :: rest) (joined : Lane) (rest' : Code) :
    locking.code other ≠ .join joined :: rest' := by
  intro hother
  have hthread := h.joins thread
  have hjoined := h.joins other
  rw [hcode] at hthread
  rw [hother] at hjoined
  simp only [List.all_cons, Joins, Bool.and_eq_true, beq_iff_eq, bne_iff_ne] at hthread hjoined
  exact hjoined.1.2 hthread.1.1

end Locking

/-- No threads wait for each other, and none takes a lock again that it may not. -/
theorem bareIpc_not_deadlocked {locking : Locking} (h : Locking.system.Reachable locking) :
    (∀ set : Set Lane, set.Nonempty →
      ¬ ∀ thread ∈ set, ∃ other ∈ set, locking.Waits lockOrder thread other) ∧
    ∀ thread lock rest, locking.code thread = .lock lock :: rest →
    lockOrder.recursive lock = false →
      (locking.mutex lock).level thread = 0 := by
  have hsound := Locking.sound h
  obtain ⟨held, horderly⟩ := hsound.orderly
  have hbound : ∀ lock, lockOrder.rank lock < 3 := fun lock => by cases lock <;> decide
  exact ⟨horderly.not_deadlocked (fun _ _ _ => Locking.not_joining hsound) hbound,
    fun _ _ _ => horderly.fresh⟩

/-- The callback destroys the poll and is closing the ipc, for whose lock a thread of the
host waits, as the worklet writes. -/
def Locking.closing : Locking :=
  Locking.system.result {}
    [.call (.host 0) (.pollStart true), .advance (.host 0), .onWake true true true true true,
      .advance .poll, .advance .poll, .advance .poll, .advance .poll, .advance .poll,
      .advance .poll, .advance .poll, .call .poll .pollDestroy, .advance .poll, .advance .poll,
      .call .poll (.destroy true), .advance .poll, .call (.host 1) (.write true), .queue true,
      .advance .worklet] (by decide +kernel)

theorem bareIpc_not_deadlocked_whileClosing : ¬ (∀ thread ∈ ({.poll, .host 1} : Set Lane),
    ∃ other ∈ ({.poll, .host 1} : Set Lane), Locking.closing.Waits lockOrder thread other) ∧
    (Locking.closing.mutex .queue).level .poll = 0 := by
  obtain ⟨hset, hfresh⟩ := bareIpc_not_deadlocked
    (.result (S := Locking.system) rfl _ _ : Locking.system.Reachable Locking.closing)
  exact ⟨hset _ ⟨.poll, Set.mem_insert _ _⟩, hfresh .poll .queue
    [.unlock .queue, .act .wake, .unlock .ipc, .lock .running, .unlock .running, .act .close,
      .act .callback, .unlock .running] (by decide +kernel) rfl⟩

end BareKit
