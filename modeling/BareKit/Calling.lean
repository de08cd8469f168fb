import BareKit.Linearization
import BareKit.Pipe

/-! Threads that call a queue or an ipc at once. Of a queue, every call is one section of its
lock. A call on an ipc holds `ipc->lock` over several sections of the queue's, between which the
worklet gets at the queue: what it returns is decided in the first of them. -/
namespace BareKit

open Linearization

/-- However the sections of any number of threads interleave, their calls on a queue are those of
the bounded channel. -/
theorem bareQueue_linearizable {θ : Type} [DecidableEq θ] (toUv toThread : Slots)
    (run : Concurrent Queue θ Call Answer)
    (h : (Concurrent.system Queue.machine (bareQueueCreate toUv toThread)).Reachable run) :
    Linearizable Channel.machine Channel.empty run.callers.history :=
  (Concurrent.linearizable h).simulates Queue.simulates (Queue.refines_create toUv toThread)

def Queue.overlapped : Concurrent Queue Bool Call Answer :=
  (Concurrent.system Queue.machine (bareQueueCreate Slots.blank Slots.blank)).result
    { object := bareQueueCreate Slots.blank Slots.blank }
    [.invoke true (.openUv none none), .enter true, .respond true,
      .invoke false (.openThread none none), .enter false, .respond false,
      .invoke false (.read .thread), .invoke true (.write .uv 0 [7]), .enter true, .enter false,
      .respond false, .respond true] (by decide +kernel)

theorem bareQueue_linearizable_overlapped :
    Queue.overlapped.callers.history.map CallEvent.call = [0, 0, 1, 1, 2, 3, 2, 3] ∧
      Linearizable Channel.machine Channel.empty Queue.overlapped.callers.history := by
  refine ⟨by decide +kernel, bareQueue_linearizable Slots.blank Slots.blank _ ?_⟩
  exact Transition.System.Reachable.result
    (S := Concurrent.system Queue.machine (bareQueueCreate Slots.blank Slots.blank)) rfl _ _

/-- Where a thread of the host is in a call on the ipc, with what it has got to return. -/
inductive OnIpcCall where
  | idle
  | calling (number : Nat) (call : PipeCall)
  | inside (number : Nat) (answer : Option PipeAnswer)
  | returning (number : Nat) (answer : PipeAnswer)

inductive PipeEnd where
  | host (thread : Nat)
  | worklet
  deriving DecidableEq, Repr

def PipeCall.step (addr ipc : Pointer) : PipeCall → Option Step
  | .ipcCreate => some (.ipcCreate addr ipc)
  | .ipcRead len => some (.ipcRead len)
  | .ipcWrite data => some (.ipcWrite addr data)
  | .ipcEnd => some .ipcEnd
  | .ipcClose => some .ipcClose
  | _ => none

def Step.ofOthers : Step → Bool
  | .dispatch | .dispatchWritable | .takeWake => true
  | label => label.ofWorklet

structure Calling where
  wire : Wire
  host : Nat → OnIpcCall := fun _ => .idle
  calls : Nat := 0
  history : List (CallEvent PipeCall PipeAnswer) := []

inductive CallingStep where
  | call (thread : Nat) (call : PipeCall)
  | enter (thread : Nat) (addr ipc : Pointer)
  | proceed (thread : Nat)
  | respond (thread : Nat)
  | others (label : Step)

namespace Calling

def put (calling : Calling) (thread : Nat) (onCall : OnIpcCall) : Calling :=
  { calling with host := Function.update calling.host thread onCall }

def entered (wire next : Wire) (label : Step) (number : Nat) : OnIpcCall :=
  match label with
  | .ipcRead _ => .inside number none
  | .ipcEnd | .ipcClose =>
    if next.held = none then .returning number .done else .inside number (some .done)
  | _ => .returning number (wire.pipeAnswer label)

/-- The section that the holder of `ipc->lock` goes on with, and what it then has to return. -/
def rest (wire : Wire) (answer : Option PipeAnswer) : Option (Step × Option PipeAnswer) :=
  match wire.held, wire.ipc with
  | some (.reading len blocked), some ipc =>
    let read := bareIpcReadPending wire.queue ipc len blocked
    some (.ipcReadPending, some (.result read.result read.data))
  | some .closing, _ => some (.ipcCloseRelease, answer)
  | some .signalling, _ => some (.ipcSignal, answer)
  | _, _ => none

def record (calling : Calling) (next : Wire) (label : Step) : Calling :=
  match calling.wire.pipeCall label with
  | none => { calling with wire := next }
  | some call =>
    { calling with
      wire := next
      calls := calling.calls + 1
      history := calling.history ++
        [.invoke calling.calls call, .respond calling.calls (calling.wire.pipeAnswer label)] }

def step (calling : Calling) : CallingStep → Option Calling
  | .call thread call =>
    match calling.host thread with
    | .idle =>
      if (call.step 0 0).isSome then
        some
          { calling.put thread (.calling calling.calls call) with
            calls := calling.calls + 1
            history := calling.history ++ [.invoke calling.calls call] }
      else none
    | _ => none
  | .enter thread addr ipc =>
    match calling.host thread with
    | .calling number call =>
      (call.step addr ipc).bind fun label =>
        (calling.wire.step label).bind fun next =>
          some { calling.put thread (entered calling.wire next label number) with wire := next }
    | _ => none
  | .proceed thread =>
    match calling.host thread with
    | .inside number answer =>
      (rest calling.wire answer).bind fun ⟨label, answer⟩ =>
        (calling.wire.step label).bind fun next =>
          match next.held, answer with
          | none, some answer =>
            some { calling.put thread (.returning number answer) with wire := next }
          | some _, answer => some { calling.put thread (.inside number answer) with wire := next }
          | none, none => none
    | _ => none
  | .respond thread =>
    match calling.host thread with
    | .returning number answer =>
      some
        { calling.put thread .idle with
          history := calling.history ++ [.respond number answer] }
    | _ => none
  | .others label =>
    if label.ofOthers then
      (calling.wire.step label).bind fun next => some (calling.record next label)
    else none

def system : Transition.System Calling CallingStep where
  init calling := ∃ toUv toThread, calling = { wire := .ofQueue (bareQueueCreate toUv toThread) }
  step := step

inductive Move (calling : Calling) : CallingStep → Calling → Prop where
  | call {thread call} (hidle : calling.host thread = .idle) :
    Move calling (.call thread call)
      { calling.put thread (.calling calling.calls call) with
        calls := calling.calls + 1
        history := calling.history ++ [.invoke calling.calls call] }
  | enter {thread addr ipc number call label next}
      (hcalling : calling.host thread = .calling number call)
      (hlabel : call.step addr ipc = some label) (hstep : calling.wire.step label = some next) :
    Move calling (.enter thread addr ipc)
      { calling.put thread (entered calling.wire next label number) with wire := next }
  | proceed {thread number answer label after next}
      (hinside : calling.host thread = .inside number answer)
      (hrest : rest calling.wire answer = some (label, after))
      (hstep : calling.wire.step label = some next) (hheld : next.held ≠ none) :
    Move calling (.proceed thread)
      { calling.put thread (.inside number after) with wire := next }
  | release {thread number answer label result next}
      (hinside : calling.host thread = .inside number answer)
      (hrest : rest calling.wire answer = some (label, some result))
      (hstep : calling.wire.step label = some next) (hheld : next.held = none) :
    Move calling (.proceed thread)
      { calling.put thread (.returning number result) with wire := next }
  | respond {thread number answer} (hreturning : calling.host thread = .returning number answer) :
    Move calling (.respond thread)
      { calling.put thread .idle with history := calling.history ++ [.respond number answer] }
  | others {label next} (hothers : label.ofOthers = true)
      (hstep : calling.wire.step label = some next) :
    Move calling (.others label) (calling.record next label)

variable {calling next : Calling} {label : CallingStep}

theorem move_step (hstep : calling.step label = some next) : Move calling label next := by
  cases label with
  | call thread call =>
    simp only [step] at hstep
    split at hstep
    · split at hstep
      · cases hstep
        exact .call ‹_›
      · contradiction
    · contradiction
  | enter thread addr ipc =>
    simp only [step] at hstep
    split at hstep
    · obtain ⟨label, hlabel, hrest⟩ := Option.bind_eq_some_iff.mp hstep
      obtain ⟨wire, hwire, hnext⟩ := Option.bind_eq_some_iff.mp hrest
      cases hnext
      exact .enter ‹_› hlabel hwire
    · contradiction
  | proceed thread =>
    simp only [step] at hstep
    split at hstep
    · obtain ⟨⟨label, answer⟩, hrest, hthen⟩ := Option.bind_eq_some_iff.mp hstep
      obtain ⟨wire, hwire, hnext⟩ := Option.bind_eq_some_iff.mp hthen
      simp only at hwire hnext
      split at hnext
      · cases hnext
        exact .release ‹_› hrest hwire ‹_›
      · rename_i hheld
        cases hnext
        exact .proceed ‹_› hrest hwire (by simp [hheld])
      · contradiction
    · contradiction
  | respond thread =>
    simp only [step] at hstep
    split at hstep
    · cases hstep
      exact .respond ‹_›
    · contradiction
  | others label =>
    simp only [step] at hstep
    split at hstep
    · obtain ⟨wire, hwire, hnext⟩ := Option.bind_eq_some_iff.mp hstep
      cases hnext
      exact .others ‹_› hwire
    · contradiction

theorem wire_reachable (h : system.Reachable calling) : Wire.system.Reachable calling.wire := by
  refine h.invariant (I := fun calling => Wire.system.Reachable calling.wire) ?_ ?_
  · rintro calling ⟨toUv, toThread, rfl⟩
    exact .start ⟨toUv, toThread, rfl⟩
  · intro calling label next _ hreach hstep
    cases move_step hstep with
    | call _ | respond _ => exact hreach
    | enter _ _ hwire | proceed _ _ hwire _ | release _ _ hwire _ => exact hreach.next _ hwire
    | others _ hwire =>
      have hnext := hreach.next _ hwire
      unfold record
      split <;> exact hnext

/-- A thread of the host, and where its call has got to in the order: a call that has not got to
the queue has no place there, and one that has knows what it returns. -/
def Agrees (wire : Wire) : OnIpcCall → OnCall PipeCall PipeAnswer → Prop
  | .idle, .idle => True
  | .calling number call, .entering number' call' => number = number' ∧ call = call'
  | .inside number none, .leaving number' answer => number = number' ∧
      ∃ ipc len blocked, wire.ipc = some ipc ∧ wire.held = some (.reading len blocked) ∧
        answer = .result (bareIpcReadPending wire.queue ipc len blocked).result
          (bareIpcReadPending wire.queue ipc len blocked).data
  | .inside number (some result), .leaving number' answer => number = number' ∧ result = answer ∧
      (wire.held = some .closing ∨ wire.held = some .signalling)
  | .returning number result, .leaving number' answer => number = number' ∧ result = answer
  | _, _ => False

def Inside : OnIpcCall → Prop
  | .inside _ _ => True
  | _ => False

structure Witnessed (calling : Calling) (callers : Callers PipeEnd PipeCall PipeAnswer) : Prop where
  history : callers.history = calling.history
  calls : callers.calls = calling.calls
  sound : callers.Sound Pipe.machine Pipe.empty
  pipe : callers.after Pipe.machine Pipe.empty = calling.wire.pipe
  worklet : callers.onCall .worklet = .idle
  agrees : ∀ thread, Agrees calling.wire (calling.host thread) (callers.onCall (.host thread))
  alone : ∀ thread other, Inside (calling.host thread) → Inside (calling.host other) →
    thread = other

variable {wire after : Wire} {onCall : OnIpcCall} {place : OnCall PipeCall PipeAnswer}
  {callers : Callers PipeEnd PipeCall PipeAnswer}

theorem readPending_queue (queue other : Queue) (ipc : Ipc) (len : Nat) (blocked : Bool) :
    (bareIpcReadPending queue ipc len blocked).result =
      (bareIpcReadPending other ipc len blocked).result ∧
    (bareIpcReadPending queue ipc len blocked).data =
    (bareIpcReadPending other ipc len blocked).data := by
  unfold bareIpcReadPending
  split <;> exact ⟨rfl, rfl⟩

theorem Agrees.frame (h : Agrees wire onCall place)
    (hsame : Inside onCall → after.ipc = wire.ipc ∧ after.held = wire.held) :
    Agrees after onCall place := by
  cases onCall with
  | inside number answer =>
    obtain ⟨hipc, hheld⟩ := hsame trivial
    cases place with
    | leaving number' answer' =>
      cases answer with
      | none =>
        obtain ⟨hnumber, ipc, len, blocked, hwas, hreading, hanswer⟩ := h
        obtain ⟨hresult, hdata⟩ := readPending_queue wire.queue after.queue ipc len blocked
        refine ⟨hnumber, ipc, len, blocked, by rw [hipc, hwas], by rw [hheld, hreading], ?_⟩
        rw [hanswer, hresult, hdata]
      | some result => 
        simp only [Agrees, hheld]
        exact h
    | idle | entering _ _ => cases answer <;> exact h.elim
  | idle | calling _ _ | returning _ _ => cases place <;> exact h

theorem Agrees.held (h : Agrees wire onCall place) (hinside : Inside onCall) :
    wire.held ≠ none ∧ wire.held ≠ some .dispatching := by
  cases onCall with
  | inside number answer =>
    cases place with
    | leaving _ _ =>
      cases answer with
      | none => 
        obtain ⟨-, ipc, len, blocked, -, hreading, -⟩ := h
        simp [hreading]
      | some result =>
        obtain ⟨-, -, hheld | hheld⟩ := h <;> simp [hheld]
    | idle | entering _ _ => cases answer <;> exact h.elim
  | idle | calling _ _ | returning _ _ => exact hinside.elim

theorem Witnessed.free (h : calling.Witnessed callers)
    (hheld : calling.wire.held = none ∨ calling.wire.held = some .dispatching) (thread : Nat) :
    ¬ Inside (calling.host thread) := by
  intro hinside
  obtain ⟨hnone, hdispatching⟩ := (h.agrees thread).held hinside
  rcases hheld with hheld | hheld
  · exact hnone hheld
  · exact hdispatching hheld

theorem Witnessed.put (h : calling.Witnessed callers) {thread : Nat} {onCall : OnIpcCall}
    {next : Calling} {moved : Callers PipeEnd PipeCall PipeAnswer}
    (hhost : next.host = Function.update calling.host thread onCall)
    (hhistory : moved.history = next.history) (hcalls : moved.calls = next.calls)
    (hsound : moved.Sound Pipe.machine Pipe.empty)
    (hpipe : moved.after Pipe.machine Pipe.empty = next.wire.pipe)
    (hself : Agrees next.wire onCall (moved.onCall (.host thread)))
    (hothers : ∀ other, other ≠ .host thread → moved.onCall other = callers.onCall other)
    (hsame : ∀ other, other ≠ thread → Inside (calling.host other) →
      next.wire.ipc = calling.wire.ipc ∧ next.wire.held = calling.wire.held)
    (halone : Inside onCall → ∀ other, other ≠ thread → ¬ Inside (calling.host other)) :
    next.Witnessed moved := by
  refine ⟨hhistory, hcalls, hsound, hpipe, ?_, fun other => ?_, fun one other hone hother => ?_⟩
  · rw [hothers _ (by simp)]
    exact h.worklet
  · by_cases hother : other = thread
    · subst hother
      rwa [hhost, Function.update_self]
    · rw [hhost, Function.update_of_ne hother, hothers _ (by simpa using hother)]
      exact (h.agrees other).frame (hsame other hother)
  · rw [hhost] at hone hother
    by_cases hthread : one = thread <;> by_cases hthread' : other = thread
    · exact hthread.trans hthread'.symm
    · subst hthread
      rw [Function.update_self] at hone
      rw [Function.update_of_ne hthread'] at hother
      exact absurd hother (halone hone other hthread')
    · subst hthread'
      rw [Function.update_self] at hother
      rw [Function.update_of_ne hthread] at hone
      exact absurd hone (halone hother one hthread)
    · rw [Function.update_of_ne hthread] at hone
      rw [Function.update_of_ne hthread'] at hother
      exact h.alone one other hone hother

theorem Witnessed.call (h : calling.Witnessed callers) {thread : Nat} (call : PipeCall) :
    Witnessed
      { calling.put thread (.calling calling.calls call) with
        calls := calling.calls + 1
        history := calling.history ++ [.invoke calling.calls call] }
      (callers.invoke (.host thread) call) := by
  have hcalls := h.calls
  refine h.put rfl ?_ ?_ (h.sound.invoke _ call) h.pipe ?_ ?_ (fun _ _ _ => ⟨rfl, rfl⟩) False.elim
  · simp only [Callers.invoke, h.history, hcalls]
  · simp only [Callers.invoke, hcalls]
  · simp [Agrees, hcalls]
  · intro other hother
    exact Function.update_of_ne hother _ _

theorem Witnessed.respond (h : calling.Witnessed callers) {thread number : Nat}
    {answer : PipeAnswer}
    (hreturning : calling.host thread = .returning number answer) :
    Witnessed
      { calling.put thread .idle with history := calling.history ++ [.respond number answer] }
      (callers.respond (.host thread) number answer) := by
  have hagrees := h.agrees thread
  rw [hreturning] at hagrees
  cases hplace : callers.onCall (.host thread) with
  | leaving number' answer' =>
    rw [hplace] at hagrees
    obtain ⟨rfl, rfl⟩ := hagrees
    refine h.put rfl ?_ h.calls (h.sound.respond hplace) h.pipe ?_ ?_ (fun _ _ _ => ⟨rfl, rfl⟩)
      False.elim
    · simp only [Callers.respond, h.history]
    · simp [Agrees]
    · intro other hother
      exact Function.update_of_ne hother _ _
  | idle | entering _ _ =>
    rw [hplace] at hagrees
    exact hagrees.elim

theorem pipeCall_step {call : PipeCall} {addr ipc : Pointer} {label : Step}
    (hlabel : call.step addr ipc = some label) (wire : Wire) : wire.pipeCall label = some call := by
  cases call <;> cases hlabel <;> rfl

theorem agrees_entered {number : Nat} {call : PipeCall} {addr data : Pointer} {label : Step}
    (hlabel : call.step addr data = some label) (hstep : wire.step label = some after) :
    Agrees after (entered wire after label number) (.leaving number (wire.pipeAnswer label)) := by
  have hmove := Wire.move_step hstep
  cases call <;> cases hlabel
  all_goals cases hmove
  · exact ⟨rfl, rfl⟩
  · rename_i ipc hheld hipc hlen
    refine ⟨rfl, _, _, _, rfl, rfl, ?_⟩
    simp only [Wire.pipeAnswer, hipc, Wire.readResult]
    rfl
  · exact ⟨rfl, rfl⟩
  · exact ⟨rfl, rfl, Or.inr rfl⟩
  · rename_i hheld _ _
    simp only [entered, hheld, if_true]
    exact ⟨rfl, rfl⟩
  · exact ⟨rfl, rfl, Or.inl rfl⟩
  · rename_i hheld _ _
    simp only [entered, hheld, if_true]
    exact ⟨rfl, rfl⟩

/-- A call that enters `ipc->lock` finds nobody inside. A second `bare_ipc_create` leaves the ipc
alone. -/
theorem Witnessed.enter_apart (h : calling.Witnessed callers)
    (hreach : Wire.system.Reachable calling.wire)
    {number : Nat} {call : PipeCall} {addr data : Pointer} {label : Step}
    (hlabel : call.step addr data = some label) (hstep : calling.wire.step label = some after)
    (other : Nat) (hinside : Inside (calling.host other)) :
    (after.ipc = calling.wire.ipc ∧ after.held = calling.wire.held) ∧
      ¬ Inside (entered calling.wire after label number) := by
  have hbusy := ((h.agrees other).held hinside).1
  have hmove := Wire.move_step hstep
  cases call <;> cases hlabel
  · cases hmove
    have hipc := (Wire.sound hreach).holder hbusy
    refine ⟨⟨?_, rfl⟩, id⟩
    rw [Wire.ipcCreate_refused (Wire.sound hreach) hipc]
    rfl
  all_goals
    cases hmove
    all_goals exact absurd ‹calling.wire.held = none› hbusy

theorem Witnessed.enter (h : calling.Witnessed callers)
    (hreach : Wire.system.Reachable calling.wire)
    {thread number : Nat} {call : PipeCall} {addr data : Pointer} {label : Step}
    (hcalling : calling.host thread = .calling number call)
    (hlabel : call.step addr data = some label) (hstep : calling.wire.step label = some after) :
    Witnessed
      { calling.put thread (entered calling.wire after label number) with wire := after }
      (callers.take (.host thread) number call (calling.wire.pipeAnswer label)) := by
  have hagrees := h.agrees thread
  rw [hcalling] at hagrees
  cases hplace : callers.onCall (.host thread) with
  | entering number' call' =>
    rw [hplace] at hagrees
    obtain ⟨rfl, rfl⟩ := hagrees
    have hapart (other : Nat) (hinside : Inside (calling.host other)) :
        (after.ipc = calling.wire.ipc ∧ after.held = calling.wire.held) ∧
          ¬ Inside (entered calling.wire after label number) :=
      h.enter_apart hreach hlabel hstep other hinside
    have hrefines := Wire.refines_step hreach hstep
    simp only [Wire.Refines, pipeCall_step hlabel, ← h.pipe] at hrefines
    refine h.put rfl ?_ h.calls (h.sound.take hplace (congrArg Prod.snd hrefines)) ?_ ?_ ?_ ?_ ?_
    · exact h.history
    · rw [Callers.after_take, hrefines]
    · rw [Callers.take_self]
      exact agrees_entered hlabel hstep
    · intro other hother
      exact Function.update_of_ne hother _ _
    · intro other _ hinside
      exact (hapart other hinside).1
    · intro hentered other _ hinside
      exact (hapart other hinside).2 hentered
  | idle | leaving _ _ =>
    rw [hplace] at hagrees
    exact hagrees.elim

theorem rest_cases {number : Nat} {answer result : Option PipeAnswer} {label : Step}
    (hagrees : Agrees wire (.inside number answer) place)
    (hrest : rest wire answer = some (label, result)) :
    wire.pipeCall label = none ∧ ∃ ending, place = .leaving number ending ∧
      result = some ending := by
  cases place with
  | leaving number' ending =>
    cases answer with
    | none =>
      obtain ⟨rfl, ipc, len, blocked, hipc, hheld, rfl⟩ := hagrees
      simp only [rest, hheld, hipc] at hrest
      cases hrest
      exact ⟨rfl, _, rfl, rfl⟩
    | some given =>
      obtain ⟨rfl, rfl, hheld | hheld⟩ := hagrees
      all_goals
        simp only [rest, hheld] at hrest
        cases hrest
        exact ⟨rfl, _, rfl, rfl⟩
  | idle | entering _ _ => cases answer <;> exact hagrees.elim

theorem held_rest {answer result : Option PipeAnswer} {label : Step}
    (hrest : rest wire answer = some (label, result)) (hstep : wire.step label = some after) :
    after.held = none ∨ after.held = some .signalling := by
  have hlabel : label = .ipcReadPending ∨ label = .ipcCloseRelease ∨ label = .ipcSignal := by
    unfold rest at hrest
    split at hrest
    · cases hrest
      exact Or.inl rfl
    · cases hrest
      exact Or.inr (Or.inl rfl)
    · cases hrest
      exact Or.inr (Or.inr rfl)
    · contradiction
  rcases hlabel with rfl | rfl | rfl
  · cases Wire.move_step hstep
    simp only
    split
    · exact Or.inr rfl
    · exact Or.inl rfl
  · cases Wire.move_step hstep
    exact Or.inr rfl
  · cases Wire.move_step hstep
    exact Or.inl rfl

theorem Witnessed.proceed (h : calling.Witnessed callers)
    (hreach : Wire.system.Reachable calling.wire)
    {thread number : Nat} {answer result : Option PipeAnswer} {label : Step}
    (hinside : calling.host thread = .inside number answer)
    (hrest : rest calling.wire answer = some (label, result))
    (hstep : calling.wire.step label = some after) {onCall : OnIpcCall}
    (honCall : (after.held ≠ none ∧ onCall = .inside number result) ∨
      ∃ given, result = some given ∧ onCall = .returning number given) :
    Witnessed { calling.put thread onCall with wire := after } callers := by
  have hagrees := h.agrees thread
  rw [hinside] at hagrees
  obtain ⟨hcall, ending, hplace, rfl⟩ := rest_cases hagrees hrest
  have hrefines := Wire.refines_step hreach hstep
  simp only [Wire.Refines, hcall] at hrefines
  have halone : ∀ other, other ≠ thread → ¬ Inside (calling.host other) := by
    intro other hother hin
    refine hother (h.alone other thread hin ?_)
    rw [hinside]
    trivial
  refine h.put rfl h.history h.calls h.sound ?_ ?_ (fun _ _ => rfl) ?_ fun _ => halone
  · rw [h.pipe, hrefines]
  · rw [hplace]
    rcases honCall with ⟨hheld, rfl⟩ | ⟨given, hgiven, rfl⟩
    · exact ⟨rfl, rfl, Or.inr ((held_rest hrest hstep).resolve_left hheld)⟩
    · cases hgiven
      exact ⟨rfl, rfl⟩
  · intro other hother hin
    exact absurd hin (halone other hother)

theorem Witnessed.others_apart (h : calling.Witnessed callers)
    (hreach : Wire.system.Reachable calling.wire)
    {label : Step} (hothers : label.ofOthers = true) (hstep : calling.wire.step label = some after)
    (thread : Nat) (hinside : Inside (calling.host thread)) :
    after.ipc = calling.wire.ipc ∧ after.held = calling.wire.held := by
  by_cases hworklet : label.ofWorklet = true
  · have hseen := Wire.seen_step (Wire.sound hreach).queue hworklet hstep
    exact ⟨hseen.ipc, hseen.held⟩
  · obtain ⟨hbusy, hdispatching⟩ := (h.agrees thread).held hinside
    cases Wire.move_step hstep with
    | takeWake _ => exact ⟨rfl, rfl⟩
    | dispatch hheld _ => exact absurd hheld hbusy
    | dispatchWritable _ hheld => exact absurd hheld hdispatching
    | ipcCreate _ | ipcRead _ _ _ | ipcReadPending _ _ | ipcWrite _ _ | ipcEnd _ _ _
    | ipcClose _ _ _
    | ipcEndGone _ _ _ | ipcCloseGone _ _ _ | ipcCloseRelease _ _ | ipcSignal _ _ => contradiction
    | openUv _ _ | write _ _ _ _ | final _ _ _ _ | read _ _ | onsignal _ _ _ | retryNone _ _ _
    | retry _ _ _ | drain _ _ _ | exit _ _ | abandon _ _ | destroy _ => exact absurd rfl hworklet

theorem Witnessed.others (h : calling.Witnessed callers)
    (hreach : Wire.system.Reachable calling.wire)
    {label : Step} (hothers : label.ofOthers = true)
    (hstep : calling.wire.step label = some after) :
    ∃ moved, (calling.record after label).Witnessed moved := by
  have hrefines := Wire.refines_step hreach hstep
  have hagrees : ∀ thread, Agrees after (calling.host thread) (callers.onCall (.host thread)) :=
    fun thread => (h.agrees thread).frame (h.others_apart hreach hothers hstep thread)
  cases hcall : calling.wire.pipeCall label with
  | none =>
    simp only [Wire.Refines, hcall] at hrefines
    simp only [record, hcall]
    exact ⟨callers, h.history, h.calls, h.sound,
      by rw [h.pipe, hrefines], h.worklet, hagrees, h.alone⟩
  | some call =>
    simp only [Wire.Refines, hcall, ← h.pipe] at hrefines
    simp only [record, hcall]
    have htaken := (h.sound.invoke .worklet call).take (callers.invoke_self .worklet call)
      (congrArg Prod.snd hrefines)
    have hresponded := htaken.respond (Callers.take_self _ _ _ _ _)
    refine ⟨_, ?_, ?_, hresponded, ?_, ?_, fun thread => ?_, h.alone⟩
    · simp [Callers.respond, Callers.take, Callers.invoke, h.history, h.calls]
    · simp [Callers.respond, Callers.take, Callers.invoke, h.calls]
    · exact (Callers.after_take _ _ _ PipeEnd.worklet _ _ _).trans (congrArg Prod.fst hrefines)
    · exact Callers.respond_self _ _ _ _
    · simpa [Callers.respond, Callers.take, Callers.invoke] using hagrees thread

theorem witnessed (h : system.Reachable calling) : ∃ callers, calling.Witnessed callers := by
  refine h.invariant (I := fun calling => ∃ callers, calling.Witnessed callers) ?_ ?_
  · rintro calling ⟨toUv, toThread, rfl⟩
    refine ⟨{}, rfl, rfl, Callers.Sound.none, ?_, rfl, fun thread => trivial, fun _ _ h => h.elim⟩
    have hchannel := (Queue.refines_create toUv toThread).2
    simp only [Wire.pipe, Wire.ofQueue, hchannel]
    rfl
  · intro calling label next hcalling hbefore hstep
    obtain ⟨callers, h⟩ := hbefore
    have hreach := wire_reachable hcalling
    cases move_step hstep with
    | call _ => exact ⟨_, h.call _⟩
    | enter hthread hlabel hwire => exact ⟨_, h.enter hreach hthread hlabel hwire⟩
    | proceed hinside hrest hwire hheld =>
      exact ⟨_, h.proceed hreach hinside hrest hwire (Or.inl ⟨hheld, rfl⟩)⟩
    | release hinside hrest hwire _ =>
      exact ⟨_, h.proceed hreach hinside hrest hwire (Or.inr ⟨_, rfl, rfl⟩)⟩
    | respond hreturning => exact ⟨_, h.respond hreturning⟩
    | others hothers hwire => exact h.others hreach hothers hwire

end Calling

/-- However the calls of any number of threads on an ipc interleave with each other and with
those of the worklet, they return what one call after the other returns on a pipe. -/
theorem bareIpc_linearizable (calling : Calling) (h : Calling.system.Reachable calling) :
    Linearizable Pipe.machine Pipe.empty calling.history := by
  obtain ⟨callers, hwitnessed⟩ := Calling.witnessed h
  rw [← hwitnessed.history]
  exact hwitnessed.sound.linearizable

def Calling.overlapped : Calling :=
  Calling.system.result { wire := .ofQueue (bareQueueCreate Slots.blank Slots.blank) }
    [.others (.openUv none none), .call 0 .ipcCreate, .enter 0 0 0, .respond 0,
      .others (.write 0 [7, 8]), .call 0 (.ipcRead 1), .call 1 (.ipcRead 4), .enter 0 0 0,
      .others .final, .proceed 0, .proceed 0, .enter 1 0 0, .proceed 1, .proceed 1, .respond 1,
      .respond 0] (by decide +kernel)

theorem bareIpc_linearizable_overlapped :
    (∃ early, Calling.overlapped.history =
      early ++ [.respond 4 (.result 1 [8]), .respond 3 (.result 1 [7])]) ∧
      Linearizable Pipe.machine Pipe.empty Calling.overlapped.history := by
  refine ⟨⟨Calling.overlapped.history.take 10, ?_⟩, bareIpc_linearizable _ ?_⟩
  · decide +kernel
  · exact Transition.System.Reachable.result (S := Calling.system) ⟨_, _, rfl⟩ _ _

end BareKit
