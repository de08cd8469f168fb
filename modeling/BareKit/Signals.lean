import BareKit.Entry

/-! The threads that call a queue, with its lock, its wakeup handle and the signals they
call from their sections. The thread of the worklet opens its end, runs its loop, closes
the end and then the handle; any number of threads of the host do what they like. -/
namespace BareKit

inductive Actor where
  | worklet
  | host (number : Nat)
  deriving DecidableEq, Repr

/-- Where a thread is in a call on the queue. Past its section it signals, with the lock
held unless it opens the end of the worklet. -/
inductive Inside where
  | out
  | waiting (entry : Entry)
  | locked (entry : Entry)
  | signalling (entry : Entry) (wake : Option Port)
  | calling (entry : Entry)
  | leaving (entry : Entry)
  | sending
  deriving DecidableEq, Repr

/-- What the thread of the worklet does next: `uv_async_init`, `bare_queue_open_uv`, the
reference to the script's `onsignal`, `bare_run`, `bare_queue_close`,
`bare_queue_shutdown_uv`, the deletion of the reference, `bare_teardown`. -/
inductive OnUv where
  | absent
  | abandoned
  | initialising
  | initialised
  | opening
  | referencing
  | running
  | closing
  | shuttingDown
  | deleting
  | tearingDown
  | gone
  deriving DecidableEq, Repr

inductive Handle where
  | absent
  | active
  | closed
  deriving DecidableEq, Repr

/-- A call of `on_signal_thread`: who makes it, who holds the lock, and the host's end. -/
structure SignalCall where
  caller : Actor
  holder : Option Actor
  state : EndState
  deriving DecidableEq, Repr

namespace Inside

def holds : Inside → Bool
  | .out | .waiting _ | .sending => false
  | _ => true

def entry : Inside → Option Entry
  | .out | .sending => none
  | .waiting entry | .locked entry | .signalling entry _ | .calling entry | .leaving entry =>
    some entry

def past : Inside → Option Entry
  | .signalling entry _ | .calling entry | .leaving entry => some entry
  | _ => none

def inSignal : Inside → Bool
  | .calling _ => true
  | _ => false

end Inside

namespace Entry

/-- The host has the `thread` port, and may destroy the queue. -/
def ofHost : Entry → Bool
  | .destroy | .call (.openThread _ _) => true
  | .call (.write port _ _) | .call (.read port) | .call (.endPort port) | .call (.closePort port)
  | .call (.readable port) | .call (.writable port) => port == .thread
  | .call (.openUv _ _) => false

def ofScript : Entry → Bool
  | .call (.write port _ _) | .call (.read port) | .call (.endPort port) => port == .uv
  | _ => false

end Entry

namespace OnUv

def scripting : OnUv → Bool
  | .referencing | .running | .tearingDown => true
  | _ => false

def handled : OnUv → Bool
  | .initialised | .opening | .referencing | .running | .closing | .shuttingDown => true
  | _ => false

def referenced : OnUv → Bool
  | .running | .closing | .shuttingDown | .deleting => true
  | _ => false

def retired : OnUv → Bool
  | .shuttingDown | .deleting | .tearingDown | .gone => true
  | _ => false

def looping : OnUv → Bool
  | .running | .tearingDown => true
  | _ => false

end OnUv

/-- `pending` is a wake that the loop has still to deliver. What each call of the signal,
each `uv_async_send` and each call of `bare_worklet__on_ipc_signal` found is listed. -/
structure Signals where
  queue : Queue
  holder : Option Actor := none
  inside : Actor → Inside := fun _ => .out
  uv : OnUv := .absent
  handle : Handle := .absent
  pending : Bool := false
  reference : Handle := .absent
  /-- A `bare_queue_close` on the port of the host has returned. -/
  hostClosed : Bool := false
  calls : List SignalCall := []
  sends : List Handle := []
  received : List Handle := []

inductive SignalStep where
  | host (number : Nat) (entry : Entry)
  /-- `bare_worklet_destroy` closes the end of a worklet that was never started. -/
  | abandon (number : Nat)
  | script (entry : Entry)
  | openUv (onRecv data : Option Pointer)
  | onThread
  | wakeup
  /-- A thread that is in a call goes on. -/
  | goOn (actor : Actor)
  deriving DecidableEq, Repr

namespace Signals

def put (signals : Signals) (actor : Actor) (inside : Inside) : Signals :=
  { signals with inside := Function.update signals.inside actor inside }

/-- `uv_async_send`, which only reaches a handle that is active. -/
def uvAsyncSend (signals : Signals) : Signals :=
  { signals with
    sends := signals.handle :: signals.sends
    pending := signals.pending || signals.handle == .active }

def stepInside (signals : Signals) (actor : Actor) : Inside → Option Signals
  | .out => none
  | .waiting entry =>
    if signals.holder = none then
      some { signals.put actor (.locked entry) with holder := some actor }
    else none
  | .locked entry =>
    some { signals.put actor (.signalling entry (signals.queue.enter entry).2) with
      queue := (signals.queue.enter entry).1 }
  | .signalling entry wake =>
    if entry.opensUv then
      some { signals.put actor (if wake.isSome then .sending else .out) with holder := none }
    else
      match wake with
      | none => some (signals.put actor (.leaving entry))
      | some .uv => some (signals.uvAsyncSend.put actor (.leaving entry))
      | some .thread =>
        some { signals.put actor (.calling entry) with
          calls := ⟨actor, signals.holder, signals.queue.threadState⟩ :: signals.calls }
  | .calling entry => some (signals.put actor (.leaving entry))
  | .leaving entry =>
    some { signals.put actor .out with
      holder := none
      hostClosed := signals.hostClosed || entry.closes .thread }
  | .sending => some (signals.uvAsyncSend.put actor .out)

/-- `bare_worklet__on_thread`, between the calls that it makes on the queue. -/
def stepThread (signals : Signals) : OnUv → Option Signals
  | .absent => some { signals with uv := .initialising }
  | .initialising => some { signals with uv := .initialised, handle := .active }
  | .opening => some { signals with uv := .referencing }
  | .referencing => some { signals with uv := .running, reference := .active }
  | .running =>
    some { signals.put .worklet (.waiting (.call (.closePort .uv))) with uv := .closing }
  | .closing => some { signals with uv := .shuttingDown }
  | .shuttingDown => some { signals with uv := .deleting, handle := .closed }
  | .deleting => some { signals with uv := .tearingDown, reference := .closed }
  | .tearingDown => some { signals with uv := .gone }
  | .abandoned | .initialised | .gone => none

def step (signals : Signals) : SignalStep → Option Signals
  | .host number entry =>
    if signals.inside (.host number) = .out ∧ entry.ofHost then
      some (signals.put (.host number) (.waiting entry))
    else none
  | .abandon number =>
    if signals.inside (.host number) = .out ∧ signals.uv = .absent then
      some { signals.put (.host number) (.waiting (.call (.closePort .uv))) with uv := .abandoned }
    else none
  | .script entry =>
    if signals.inside .worklet = .out ∧ signals.uv.scripting ∧ entry.ofScript then
      some (signals.put .worklet (.waiting entry))
    else none
  | .openUv onRecv data =>
    if signals.inside .worklet = .out ∧ signals.uv = .initialised then
      some { signals.put .worklet (.waiting (.call (.openUv onRecv data))) with uv := .opening }
    else none
  | .onThread => if signals.inside .worklet = .out then signals.stepThread signals.uv else none
  | .wakeup =>
    if signals.inside .worklet = .out ∧ signals.uv.looping ∧ signals.handle = .active ∧
        signals.pending then
      some { signals with
        pending := false
        received := if signals.queue.onRecvUv.isSome then signals.reference :: signals.received
          else signals.received }
    else none
  | .goOn actor => signals.stepInside actor (signals.inside actor)

def system : Transition.System Signals SignalStep where
  init signals := ∃ toUv toThread, signals = { queue := bareQueueCreate toUv toThread }
  step := step

inductive Move (signals : Signals) : SignalStep → Signals → Prop where
  | host {number entry} (hout : signals.inside (.host number) = .out)
      (hentry : entry.ofHost = true) :
    Move signals (.host number entry) (signals.put (.host number) (.waiting entry))
  | abandon {number} (hout : signals.inside (.host number) = .out) (huv : signals.uv = .absent) :
    Move signals (.abandon number)
      { signals.put (.host number) (.waiting (.call (.closePort .uv))) with uv := .abandoned }
  | script {entry} (hout : signals.inside .worklet = .out) (huv : signals.uv.scripting = true)
      (hentry : entry.ofScript = true) :
    Move signals (.script entry) (signals.put .worklet (.waiting entry))
  | openUv {onRecv data} (hout : signals.inside .worklet = .out) (huv : signals.uv = .initialised) :
    Move signals (.openUv onRecv data)
      { signals.put .worklet (.waiting (.call (.openUv onRecv data))) with uv := .opening }
  | thread {next} (hout : signals.inside .worklet = .out)
      (hnext : signals.stepThread signals.uv = some next) : Move signals .onThread next
  | wakeup (hout : signals.inside .worklet = .out) (huv : signals.uv.looping = true)
      (hhandle : signals.handle = .active) :
    Move signals .wakeup { signals with
      pending := false
      received := if signals.queue.onRecvUv.isSome then signals.reference :: signals.received
        else signals.received }
  | lock {actor entry} (hinside : signals.inside actor = .waiting entry)
      (hfree : signals.holder = none) :
    Move signals (.goOn actor) { signals.put actor (.locked entry) with holder := some actor }
  | enter {actor entry} (hinside : signals.inside actor = .locked entry) :
    Move signals (.goOn actor)
      { signals.put actor (.signalling entry (signals.queue.enter entry).2) with
        queue := (signals.queue.enter entry).1 }
  | opened {actor entry wake} (hinside : signals.inside actor = .signalling entry wake)
      (hentry : entry.opensUv = true) :
    Move signals (.goOn actor)
      { signals.put actor (if wake.isSome then .sending else .out) with holder := none }
  | quiet {actor entry} (hinside : signals.inside actor = .signalling entry none)
      (hentry : entry.opensUv = false) :
      Move signals (.goOn actor) (signals.put actor (.leaving entry))
  | send {actor entry} (hinside : signals.inside actor = .signalling entry (some .uv))
      (hentry : entry.opensUv = false) :
    Move signals (.goOn actor) (signals.uvAsyncSend.put actor (.leaving entry))
  | call {actor entry} (hinside : signals.inside actor = .signalling entry (some .thread))
      (hentry : entry.opensUv = false) :
    Move signals (.goOn actor) { signals.put actor (.calling entry) with
      calls := ⟨actor, signals.holder, signals.queue.threadState⟩ :: signals.calls }
  | called {actor entry} (hinside : signals.inside actor = .calling entry) :
    Move signals (.goOn actor) (signals.put actor (.leaving entry))
  | leave {actor entry} (hinside : signals.inside actor = .leaving entry) :
    Move signals (.goOn actor) { signals.put actor .out with
      holder := none
      hostClosed := signals.hostClosed || entry.closes .thread }
  | sent {actor} (hinside : signals.inside actor = .sending) :
    Move signals (.goOn actor) (signals.uvAsyncSend.put actor .out)

variable {signals next : Signals} {label : SignalStep} {actor other : Actor} {entry : Entry}

theorem move_stepInside (hstep : signals.stepInside actor (signals.inside actor) = some next) :
    Move signals (.goOn actor) next := by
  cases hinside : signals.inside actor with
  | out =>
    rw [hinside] at hstep
    contradiction
  | waiting entry =>
    rw [hinside, stepInside] at hstep
    split at hstep
    · cases hstep
      exact .lock hinside ‹_›
    · contradiction
  | locked entry =>
    rw [hinside] at hstep
    cases hstep
    exact .enter hinside
  | signalling entry wake =>
    rw [hinside] at hstep
    simp only [stepInside] at hstep
    split at hstep
    · cases hstep
      exact .opened hinside ‹_›
    · rename_i hentry
      have hentry' := eq_false_of_ne_true hentry
      split at hstep <;> cases hstep
      · exact .quiet hinside hentry'
      · exact .send hinside hentry'
      · exact .call hinside hentry'
  | calling entry =>
    rw [hinside] at hstep
    cases hstep
    exact .called hinside
  | leaving entry =>
    rw [hinside] at hstep
    cases hstep
    exact .leave hinside
  | sending =>
    rw [hinside] at hstep
    cases hstep
    exact .sent hinside

theorem move_step (hstep : signals.step label = some next) : Move signals label next := by
  cases label with
  | goOn actor => exact move_stepInside hstep
  | host number entry =>
    simp only [step] at hstep
    split at hstep
    · rename_i hguard
      cases hstep
      exact .host hguard.1 hguard.2
    · contradiction
  | abandon number =>
    simp only [step] at hstep
    split at hstep
    · rename_i hguard
      cases hstep
      exact .abandon hguard.1 hguard.2
    · contradiction
  | script entry =>
    simp only [step] at hstep
    split at hstep
    · rename_i hguard
      cases hstep
      exact .script hguard.1 hguard.2.1 hguard.2.2
    · contradiction
  | openUv onRecv data =>
    simp only [step] at hstep
    split at hstep
    · rename_i hguard
      cases hstep
      exact .openUv hguard.1 hguard.2
    · contradiction
  | onThread =>
    simp only [step] at hstep
    split at hstep
    · exact .thread ‹_› hstep
    · contradiction
  | wakeup =>
    simp only [step] at hstep
    split at hstep
    · rename_i hguard
      cases hstep
      exact .wakeup hguard.1 hguard.2.1 hguard.2.2.1
    · contradiction

@[simp] theorem put_inside_self (inside : Inside) :
    (signals.put actor inside).inside actor = inside :=
  Function.update_self ..

theorem put_inside_of_ne (inside : Inside) (hne : other ≠ actor) :
    (signals.put actor inside).inside other = signals.inside other :=
  Function.update_of_ne hne ..

theorem put_forall {P : Actor → Inside → Prop} {inside : Inside} (hnew : P actor inside)
    (hothers : ∀ other, other ≠ actor → P other (signals.inside other)) :
    ∀ other, P other ((signals.put actor inside).inside other) := by
  intro other
  by_cases hother : other = actor
  · subst hother
    rw [put_inside_self]
    exact hnew
  · rw [put_inside_of_ne inside hother]
    exact hothers other hother

def Exclusive (signals : Signals) : Prop :=
  ∀ actor, (signals.inside actor).holds = true ↔ signals.holder = some actor

theorem Exclusive.alone (h : signals.Exclusive) (hactor : (signals.inside actor).holds = true)
    (hne : other ≠ actor) : (signals.inside other).holds = false := by
  refine eq_false_of_ne_true fun hother => hne ?_
  exact Option.some.inj (((h other).mp hother).symm.trans ((h actor).mp hactor))

theorem Exclusive.put {inside : Inside} (h : signals.Exclusive)
    (hsame : inside.holds = (signals.inside actor).holds) : (signals.put actor inside).Exclusive :=
  put_forall (P := fun other place => place.holds = true ↔ signals.holder = some other)
    (hsame ▸ h actor) fun other _ => h other

theorem Exclusive.free {inside : Inside} (h : signals.Exclusive)
    (hactor : (signals.inside actor).holds = true) (hout : inside.holds = false) :
    Exclusive { signals.put actor inside with holder := none } :=
  put_forall (P := fun _ place => place.holds = true ↔ none = some _) (by simp [hout])
    fun other hne => by simp [h.alone hactor hne]

theorem exclusive_stepThread (h : signals.Exclusive) (hout : signals.inside .worklet = .out)
    (hnext : signals.stepThread signals.uv = some next) : next.Exclusive := by
  cases huv : signals.uv <;> rw [huv] at hnext <;> cases hnext
  case running => exact h.put (by simp [hout, Inside.holds])
  all_goals exact h

theorem Exclusive.step (h : signals.Exclusive) (hstep : signals.step label = some next) :
    next.Exclusive := by
  cases move_step hstep with
  | host hout _ | abandon hout _ | script hout _ _ | openUv hout _ =>
    exact h.put (by simp [hout, Inside.holds])
  | thread hout hnext => exact exclusive_stepThread h hout hnext
  | wakeup _ _ _ => exact h
  | lock hinside hfree =>
    rename_i actor entry
    refine put_forall (P := fun other place => place.holds = true ↔ some actor = some other)
      (by simp [Inside.holds]) fun other hne => ?_
    have hidle : ¬ (signals.inside other).holds = true := fun hholds => by
      simp [hfree, h other] at hholds
    simp [hidle, Ne.symm hne]
  | enter hinside | quiet hinside _ | send hinside _ | call hinside _ | called hinside =>
    exact h.put (by simp [hinside, Inside.holds])
  | opened hinside _ =>
    exact h.free (by simp [hinside, Inside.holds]) (by split <;> rfl)
  | leave hinside => exact h.free (by simp [hinside, Inside.holds]) rfl
  | sent hinside => exact h.put (by simp [hinside, Inside.holds])

theorem exclusive (h : system.Reachable signals) : signals.Exclusive := by
  refine h.invariant (I := Exclusive) ?_ fun _ _ _ _ hexclusive hstep => hexclusive.step hstep
  rintro _ ⟨toUv, toThread, rfl⟩ actor
  simp [Inside.holds]

def OfWorklet (uv : OnUv) (entry : Entry) : Prop :=
  match uv with
  | .opening => entry.opensUv = true
  | .closing => entry = .call (.closePort .uv)
  | uv => uv.scripting = true ∧ entry.ofScript = true

def Placed (uv : OnUv) (actor : Actor) (inside : Inside) : Prop :=
  match actor with
  | .worklet => (∀ entry, inside.entry = some entry → OfWorklet uv entry) ∧
      (inside = .sending → uv = .opening)
  | .host _ => (∀ entry, inside.entry = some entry → entry.ofHost = true ∨
      entry = .call (.closePort .uv) ∧ uv = .abandoned) ∧ inside ≠ .sending

theorem Placed.same {uv : OnUv} {inside old : Inside} (h : Placed uv actor old)
    (hsame : inside.entry = old.entry) (hsending : inside ≠ .sending) : Placed uv actor inside := by
  cases actor with
  | worklet =>
    exact ⟨fun entry hentry => h.1 entry (hsame ▸ hentry), fun hsend => absurd hsend hsending⟩
  | host number => exact ⟨fun entry hentry => h.1 entry (hsame ▸ hentry), hsending⟩

theorem Placed.out (uv : OnUv) (actor : Actor) : Placed uv actor .out := by
  cases actor <;> simp [Placed, Inside.entry]

theorem Placed.opens {uv : OnUv} {inside : Inside} (h : Placed uv actor inside)
    (hinside : inside.entry = some entry) (hentry : entry.opensUv = true) :
    actor = .worklet ∧ uv = .opening := by
  cases actor with
  | worklet =>
    refine ⟨rfl, ?_⟩
    have hcalled := h.1 entry hinside
    unfold OfWorklet at hcalled
    split at hcalled
    · rfl
    · subst hcalled
      contradiction
    · cases entry with
      | destroy => contradiction
      | call call => cases call <;> simp_all [Entry.opensUv, Entry.ofScript]
  | host number =>
    rcases h.1 entry hinside with hhost | ⟨rfl, -⟩
    · cases entry with
      | destroy => contradiction
      | call call => cases call <;> simp_all [Entry.opensUv, Entry.ofHost]
    · contradiction

theorem Placed.sending {uv : OnUv} {inside : Inside} (h : Placed uv actor inside)
    (hinside : inside = .sending) : uv = .opening := by
  cases actor with
  | worklet => exact h.2 hinside
  | host number => exact absurd hinside h.2

theorem Placed.advance {uv : OnUv} {inside : Inside} (h : Placed signals.uv actor inside)
    (hactor : actor ≠ .worklet) (huv : signals.uv ≠ .abandoned) : Placed uv actor inside := by
  cases actor with
  | worklet => contradiction
  | host number =>
    exact ⟨fun entry hentry => (h.1 entry hentry).imp id fun habandoned => absurd habandoned.2 huv,
      h.2⟩

theorem placed_stepThread (h : ∀ actor, Placed signals.uv actor (signals.inside actor))
    (hout : signals.inside .worklet = .out) (hnext : signals.stepThread signals.uv = some next) :
    ∀ actor, Placed next.uv actor (next.inside actor) := by
  have huv : signals.uv ≠ .abandoned := by
    intro habandoned
    rw [habandoned] at hnext
    contradiction
  have hself : ∀ uv actor, Placed uv actor (signals.inside actor) := by
    intro uv actor
    by_cases hactor : actor = .worklet
    · subst hactor
      rw [hout]
      exact Placed.out uv .worklet
    · exact (h actor).advance hactor huv
  cases hcase : signals.uv <;> rw [hcase] at hnext <;> cases hnext
  case running =>
    refine put_forall (P := fun other place => Placed .closing other place) ?_
      fun other hne => (h other).advance hne huv
    exact ⟨fun entry hentry => (Option.some.inj hentry).symm, fun hsend => by contradiction⟩
  all_goals exact hself _

theorem placed_step (h : ∀ actor, Placed signals.uv actor (signals.inside actor))
    (hstep : signals.step label = some next) :
    ∀ actor, Placed next.uv actor (next.inside actor) := by
  have hput : ∀ actor inside, Placed signals.uv actor inside →
      ∀ other, Placed signals.uv other ((signals.put actor inside).inside other) :=
    fun actor inside hnew => put_forall hnew fun other _ => h other
  cases move_step hstep with
  | host hout hentry =>
    refine hput _ _ ⟨fun entry hsame => Or.inl ?_, by simp⟩
    exact Option.some.inj hsame ▸ hentry
  | abandon hout huv =>
    refine put_forall (P := fun other place => Placed .abandoned other place) ?_ fun other _ => ?_
    · exact ⟨fun entry hsame => Or.inr ⟨(Option.some.inj hsame).symm, rfl⟩, by simp⟩
    · have hplaced := h other
      rw [huv] at hplaced
      cases other with
      | worklet =>
        exact ⟨fun entry hentry => absurd (hplaced.1 entry hentry).1 (by simp [OnUv.scripting]),
          fun hsend => nomatch hplaced.2 hsend⟩
      | host number =>
        exact ⟨fun entry hentry => (hplaced.1 entry hentry).imp id (by simp), hplaced.2⟩
  | script hout huv hentry =>
    refine hput _ _ ⟨fun entry hsame => ?_, by simp⟩
    rw [← Option.some.inj hsame]
    cases hcase : signals.uv <;> simp_all [OfWorklet, OnUv.scripting]
  | openUv hout huv =>
    refine put_forall (P := fun other place => Placed .opening other place) ?_
      fun other hne => (h other).advance hne (by simp [huv])
    exact ⟨fun entry hsame => Option.some.inj hsame ▸ rfl, fun _ => rfl⟩
  | thread hout hnext => exact placed_stepThread h hout hnext
  | wakeup _ _ _ => exact h
  | lock hinside _ | enter hinside | quiet hinside _ | send hinside _ | call hinside _
  | called hinside =>
    exact hput _ _ ((h _).same (by simp [hinside, Inside.entry]) (by simp))
  | opened hinside hentry =>
    obtain ⟨hactor, huv⟩ := (h _).opens (by rw [hinside]; rfl) hentry
    subst hactor
    refine hput _ _ ?_
    split
    · exact ⟨fun _ hnone => by contradiction, fun _ => huv⟩
    · exact Placed.out _ _
  | leave _ | sent _ => exact hput _ _ (Placed.out _ _)

theorem placed (h : system.Reachable signals) (actor : Actor) :
    Placed signals.uv actor (signals.inside actor) := by
  refine h.invariant (I := fun signals => ∀ actor, Placed signals.uv actor (signals.inside actor))
    ?_
    (fun _ _ _ _ hplaced hstep => placed_step hplaced hstep) actor
  rintro _ ⟨toUv, toThread, rfl⟩ actor
  exact Placed.out _ _

def Relies (queue : Queue) : Inside → Prop
  | .signalling entry wake =>
    (∀ port, wake = some port → entry.opensUv = false → queue.Hears port) ∧
      (entry.closes .thread = true → queue.threadState = .closed)
  | .calling entry =>
    queue.Hears .thread ∧ (entry.closes .thread = true → queue.threadState = .closed)
  | .leaving entry => entry.closes .thread = true → queue.threadState = .closed
  | _ => True

theorem Relies.idle {inside : Inside} (hinside : inside.holds = false) (queue : Queue) :
    Relies queue inside := by
  cases inside <;> trivial

/-- The worklet's end listens while its handle is there, and is closed for good before the
handle is. -/
structure Sound (signals : Signals) : Prop where
  handle : bareQueueListening signals.queue.uvState = true → signals.handle = .active
  active : signals.handle = .active ↔ signals.uv.handled = true
  closed : signals.uv.retired = true → signals.queue.uvState = .closed
  closing : signals.uv = .closing → (signals.inside .worklet).holds = false ∧
    signals.inside .worklet ≠ .out ∨ (∃ entry, signals.inside .worklet = .locked entry) ∨
    signals.queue.uvState = .closed
  reference : signals.uv.referenced = true → signals.reference = .active
  relies : ∀ actor, Relies signals.queue (signals.inside actor)
  hostClosed : signals.hostClosed = true → signals.queue.threadState = .closed

theorem Sound.put {inside : Inside} (h : signals.Sound) (hrelies : Relies signals.queue inside)
    (hclosing : signals.uv = .closing → actor = .worklet → inside.holds = false ∧ inside ≠ .out ∨
      (∃ entry, inside = .locked entry) ∨ signals.queue.uvState = .closed) :
    (signals.put actor inside).Sound := by
  refine ⟨h.handle, h.active, h.closed, fun huv => ?_, h.reference,
    put_forall (P := fun _ => Relies signals.queue) hrelies
    fun other _ => h.relies other, h.hostClosed⟩
  by_cases hactor : actor = .worklet
  · subst hactor
    rw [put_inside_self]
    exact hclosing huv rfl
  · rw [put_inside_of_ne inside (Ne.symm hactor)]
    exact h.closing huv

theorem Sound.congr (h : signals.Sound) (hqueue : next.queue = signals.queue)
    (hinside : next.inside = signals.inside) (huv : next.uv = signals.uv)
    (hhandle : next.handle = signals.handle) (hreference : next.reference = signals.reference)
    (hclosed : next.hostClosed = true → signals.queue.threadState = .closed) : next.Sound := by
  obtain ⟨handle, active, closed, closing, reference, relies, -⟩ := h
  refine ⟨?_, ?_, ?_, ?_, ?_, ?_, hqueue ▸ hclosed⟩ <;>
    simp only [hqueue, hinside, huv, hhandle, hreference] <;> assumption

theorem Sound.stepThread (h : signals.Sound) (hout : signals.inside .worklet = .out)
    (hnext : signals.stepThread signals.uv = some next) : next.Sound := by
  have hactive := h.active
  cases huv : signals.uv <;> rw [huv] at hnext hactive <;> cases hnext
  case running =>
    have hput : (signals.put .worklet (.waiting (.call (.closePort .uv)))).Sound :=
      h.put trivial fun _ _ => Or.inl ⟨rfl, by simp⟩
    exact ⟨h.handle, hactive,
      fun hretired => by contradiction, fun _ => Or.inl (by simp [Inside.holds]),
      fun _ => h.reference (by rw [huv]; rfl), hput.relies, h.hostClosed⟩
  case absent | opening =>
    exact ⟨h.handle, hactive, fun hretired => by contradiction, fun hclosing => by contradiction,
      fun hreferenced => by contradiction, h.relies, h.hostClosed⟩
  case initialising =>
    exact ⟨fun _ => rfl, ⟨fun _ => rfl, fun _ => rfl⟩, fun hretired => by contradiction,
      fun hclosing => by contradiction, fun hreferenced => by contradiction, h.relies, h.hostClosed⟩
  case referencing =>
    exact ⟨h.handle, hactive, fun hretired => by contradiction, fun hclosing => by contradiction,
      fun _ => rfl, h.relies, h.hostClosed⟩
  case closing =>
    have hclosed : signals.queue.uvState = .closed := by
      simpa [hout, Inside.holds] using h.closing huv
    exact ⟨h.handle, hactive, fun _ => hclosed, fun hclosing => by contradiction,
      fun _ => h.reference (by rw [huv]; rfl), h.relies, h.hostClosed⟩
  case shuttingDown =>
    have hclosed := h.closed (by rw [huv]; rfl)
    refine ⟨fun hlistening => ?_,
      by simp [OnUv.handled], fun _ => hclosed, fun hclosing => by contradiction,
      fun _ => h.reference (by rw [huv]; rfl), h.relies, h.hostClosed⟩
    rw [hclosed] at hlistening
    contradiction
  case deleting | tearingDown =>
    exact ⟨h.handle, hactive, fun _ => h.closed (by rw [huv]; rfl),
      fun hclosing => by contradiction, fun hreferenced => by contradiction, h.relies, h.hostClosed⟩

theorem Sound.enterHandle (h : signals.Sound)
    (hplaced : Placed signals.uv actor (signals.inside actor))
    (hinside : signals.inside actor = .locked entry)
    (hlistening : bareQueueListening (signals.queue.enter entry).1.uvState = true) :
    signals.handle = .active := by
  rw [hinside] at hplaced
  have hstate := Queue.enter_state signals.queue entry .uv
  simp only [bareQueueState] at hstate
  rw [hstate] at hlistening
  cases actor with
  | host number =>
    rcases hplaced.1 entry rfl with hhost | ⟨rfl, -⟩
    · apply h.handle
      cases entry with
      | destroy => exact hlistening
      | call call => cases call <;> simp_all [Entry.ofHost, Entry.after]
    · rw [Entry.after_closes rfl] at hlistening
      contradiction
  | worklet =>
    have hcalled := hplaced.1 entry rfl
    by_cases hhandled : signals.uv.handled = true
    · exact h.active.mpr hhandled
    · exfalso
      cases huv : signals.uv <;> simp_all [OfWorklet, OnUv.handled, OnUv.scripting]
      rw [h.closed (by rw [huv]; rfl), Entry.after_closed fun hopens => ?_] at hlistening
      · contradiction
      · cases entry with
        | destroy => contradiction
        | call call => cases call <;> simp_all [Entry.ofScript, Entry.opensUv]

theorem Sound.enter (h : signals.Sound) (hexclusive : signals.Exclusive)
    (hplaced : Placed signals.uv actor (signals.inside actor))
    (hinside : signals.inside actor = .locked entry) :
    Sound { signals.put actor (.signalling entry (signals.queue.enter entry).2) with
      queue := (signals.queue.enter entry).1 } := by
  have huvState := Queue.enter_state signals.queue entry .uv
  have hthreadState := Queue.enter_state signals.queue entry .thread
  simp only [bareQueueState] at huvState hthreadState
  have hopens : entry.opensUv = true → signals.uv = .opening := fun hentry =>
    (hplaced.opens (by rw [hinside]; rfl) hentry).2
  have hretire : signals.queue.uvState = .closed → signals.uv ≠ .opening →
      (signals.queue.enter entry).1.uvState = .closed := by
    intro hclosed huv
    rw [huvState, hclosed]
    exact Entry.after_closed fun hentry => absurd (hopens hentry) huv
  refine ⟨h.enterHandle hplaced hinside, h.active, fun hretired => ?_, fun huv => ?_,
    h.reference, ?_, fun hclosed => Queue.enter_closed (h.hostClosed hclosed) entry⟩
  · refine hretire (h.closed hretired) fun huv => ?_
    have hretired' : signals.uv.retired = true := hretired
    rw [huv] at hretired'
    contradiction
  · have hclosing : signals.uv = .closing := huv
    cases actor with
    | worklet =>
      have hentry : entry = .call (.closePort .uv) := by
        rw [hinside, hclosing] at hplaced
        exact hplaced.1 entry rfl
      refine Or.inr (Or.inr ?_)
      simp only [huvState]
      exact Entry.after_closes (hentry ▸ rfl)
    | host number =>
      have hne : Actor.worklet ≠ .host number := by simp
      rw [show Signals.inside _ .worklet = signals.inside .worklet from put_inside_of_ne _ hne]
      exact (h.closing hclosing).imp id
        (Or.imp id fun hclosed => hretire hclosed (by simp [hclosing]))
  · refine put_forall (P := fun _ => Relies (signals.queue.enter entry).1) ?_ fun other hne => ?_
    · refine ⟨fun port hwake hentry => Queue.enter_wake hwake hentry, fun hcloses => ?_⟩
      rw [hthreadState]
      exact Entry.after_closes hcloses
    · exact Relies.idle (hexclusive.alone (by simp [hinside, Inside.holds]) hne) _

theorem Sound.closed_past (h : signals.Sound) {inside : Inside}
    (hinside : signals.inside actor = inside) (hholds : inside.holds = true)
    (hpast : ∀ entry, inside ≠ .locked entry) :
    signals.uv = .closing → actor = .worklet → signals.queue.uvState = .closed := by
  rintro huv rfl
  rcases h.closing huv with ⟨hout, -⟩ | ⟨entry, hlocked⟩ | hclosed
  · rw [hinside, hholds] at hout
    contradiction
  · exact absurd (hinside.symm.trans hlocked) (hpast entry)
  · exact hclosed

theorem Sound.step (h : signals.Sound) (hexclusive : signals.Exclusive)
    (hplaced : ∀ actor, Placed signals.uv actor (signals.inside actor))
    (hstep : signals.step label = some next) : next.Sound := by
  cases move_step hstep with
  | host _ _ => exact h.put trivial fun _ hactor => by contradiction
  | abandon _ huv =>
    rename_i number _
    have hput : (signals.put (.host number) (.waiting (.call (.closePort .uv)))).Sound :=
      h.put trivial fun _ hactor => by contradiction
    have hactive := h.active
    rw [huv] at hactive
    exact ⟨h.handle, hactive, fun hretired => by contradiction, fun hclosing => by contradiction,
      fun hreferenced => by contradiction, hput.relies, h.hostClosed⟩
  | script _ huv _ =>
    refine h.put trivial fun hclosing _ => ?_
    rw [hclosing] at huv
    contradiction
  | openUv _ huv =>
    rename_i onRecv data _
    have hput : (signals.put .worklet (.waiting (.call (.openUv onRecv data)))).Sound :=
      h.put trivial fun hclosing _ => by simp [huv] at hclosing
    have hactive := h.active
    rw [huv] at hactive
    exact ⟨h.handle, hactive, fun hretired => by contradiction, fun hclosing => by contradiction,
      fun hreferenced => by contradiction, hput.relies, h.hostClosed⟩
  | thread hout hnext => exact h.stepThread hout hnext
  | wakeup _ _ _ => exact h.congr rfl rfl rfl rfl rfl h.hostClosed
  | lock _ _ =>
    rename_i actor entry _ _
    have hput : (signals.put actor (.locked entry)).Sound :=
      h.put trivial fun _ _ => Or.inr (Or.inl ⟨entry, rfl⟩)
    exact hput.congr rfl rfl rfl rfl rfl h.hostClosed
  | enter hinside => exact h.enter hexclusive (hplaced _) hinside
  | opened hinside hentry =>
    rename_i actor entry wake
    have huv := ((hplaced actor).opens (by rw [hinside]; rfl) hentry).2
    have hput : (signals.put actor (if wake.isSome then .sending else .out)).Sound :=
      h.put (Relies.idle (by split <;> rfl) _) fun hclosing _ => by simp [huv] at hclosing
    exact hput.congr rfl rfl rfl rfl rfl h.hostClosed
  | quiet hinside _ =>
    rename_i actor entry _
    have hrelies := h.relies actor
    rw [hinside] at hrelies
    exact h.put hrelies.2 fun huv hactor =>
      Or.inr (Or.inr (h.closed_past hinside rfl (by simp) huv hactor))
  | send hinside _ =>
    rename_i actor entry _
    have hrelies := h.relies actor
    rw [hinside] at hrelies
    have hput : (signals.put actor (.leaving entry)).Sound := h.put hrelies.2 fun huv hactor =>
      Or.inr (Or.inr (h.closed_past hinside rfl (by simp) huv hactor))
    exact hput.congr rfl rfl rfl rfl rfl h.hostClosed
  | call hinside hentry =>
    rename_i actor entry
    have hrelies := h.relies actor
    rw [hinside] at hrelies
    have hput : (signals.put actor (.calling entry)).Sound :=
      h.put ⟨hrelies.1 .thread rfl hentry, hrelies.2⟩ fun huv hactor =>
        Or.inr (Or.inr (h.closed_past hinside rfl (by simp) huv hactor))
    exact hput.congr rfl rfl rfl rfl rfl h.hostClosed
  | called hinside =>
    rename_i actor entry
    have hrelies := h.relies actor
    rw [hinside] at hrelies
    exact h.put hrelies.2 fun huv hactor =>
      Or.inr (Or.inr (h.closed_past hinside rfl (by simp) huv hactor))
  | leave hinside =>
    rename_i actor entry
    have hrelies := h.relies actor
    rw [hinside] at hrelies
    have hput : (signals.put actor .out).Sound := h.put trivial fun huv hactor =>
      Or.inr (Or.inr (h.closed_past hinside rfl (by simp) huv hactor))
    refine hput.congr rfl rfl rfl rfl rfl fun hclosed => ?_
    rcases Bool.or_eq_true_iff.mp hclosed with hbefore | hcloses
    · exact h.hostClosed hbefore
    · exact hrelies hcloses
  | sent hinside =>
    rename_i actor
    have huv := (hplaced actor).sending hinside
    have hput : (signals.put actor .out).Sound :=
      h.put trivial fun hclosing _ => by simp [huv] at hclosing
    exact hput.congr rfl rfl rfl rfl rfl h.hostClosed

theorem sound (h : system.Reachable signals) : signals.Sound := by
  refine h.invariant (I := Sound) ?_ fun _ _ _ hreach hsound hstep =>
    hsound.step (exclusive hreach) (placed hreach) hstep
  rintro _ ⟨toUv, toThread, rfl⟩
  exact ⟨fun hlistening => by contradiction, by simp [OnUv.handled],
    fun hretired => by contradiction, fun hclosing => by contradiction,
    fun hreferenced => by contradiction, fun _ => trivial, fun hclosed => by contradiction⟩

structure Logged (signals : Signals) : Prop where
  calls : ∀ call ∈ signals.calls, call.holder = some call.caller ∧
    bareQueueListening call.state = true
  sends : ∀ handle ∈ signals.sends, handle = .active
  received : ∀ reference ∈ signals.received, reference = .active

theorem Logged.same (h : signals.Logged) (hcalls : next.calls = signals.calls)
    (hsends : next.sends = signals.sends) (hreceived : next.received = signals.received) :
    next.Logged := by
  obtain ⟨calls, sends, received⟩ := h
  exact ⟨hcalls ▸ calls, hsends ▸ sends, hreceived ▸ received⟩

theorem Logged.send (h : signals.Logged) (hhandle : signals.handle = .active) (actor : Actor)
    (inside : Inside) : (signals.uvAsyncSend.put actor inside).Logged :=
  ⟨h.calls, List.forall_mem_cons.mpr ⟨hhandle, h.sends⟩, h.received⟩

theorem Logged.step (h : signals.Logged) (hsound : signals.Sound) (hexclusive : signals.Exclusive)
    (hplaced : ∀ actor, Placed signals.uv actor (signals.inside actor))
    (hstep : signals.step label = some next) : next.Logged := by
  cases move_step hstep with
  | host _ _ | abandon _ _ | script _ _ _ | openUv _ _ | lock _ _ | enter _ | opened _ _ | quiet _ _
  | called _ | leave _ => exact h.same rfl rfl rfl
  | thread _ hnext =>
    cases huv : signals.uv <;> rw [huv] at hnext <;> cases hnext <;> exact h.same rfl rfl rfl
  | wakeup _ huv hhandle =>
    refine ⟨h.calls, h.sends, ?_⟩
    dsimp only
    split
    · refine List.forall_mem_cons.mpr ⟨hsound.reference ?_, h.received⟩
      have hhandled := hsound.active.mp hhandle
      cases hcase : signals.uv <;> simp_all [OnUv.looping, OnUv.handled, OnUv.referenced]
    · exact h.received
  | send hinside hentry =>
    rename_i actor entry
    have hrelies := hsound.relies actor
    rw [hinside] at hrelies
    exact h.send (hsound.handle (hrelies.1 .uv rfl hentry).1) _ _
  | call hinside hentry =>
    rename_i actor entry
    have hrelies := hsound.relies actor
    rw [hinside] at hrelies
    have hholder := (hexclusive actor).mp (by rw [hinside]; rfl)
    exact ⟨List.forall_mem_cons.mpr ⟨⟨hholder, (hrelies.1 .thread rfl hentry).1⟩, h.calls⟩, h.sends,
      h.received⟩
  | sent hinside =>
    rename_i actor
    have huv := (hplaced actor).sending hinside
    exact h.send (hsound.active.mpr (by rw [huv]; rfl)) _ _

theorem logged (h : system.Reachable signals) : signals.Logged := by
  refine h.invariant (I := Logged) ?_ fun _ _ _ hreach hlogged hstep =>
    hlogged.step (sound hreach) (exclusive hreach) (placed hreach) hstep
  rintro _ ⟨toUv, toThread, rfl⟩
  exact ⟨by simp, by simp, by simp⟩

/-- A signal that is being called is called with the lock, on an end that listens. -/
theorem guarded (h : system.Reachable signals) (hcalling : (signals.inside actor).inSignal = true) :
    signals.holder = some actor ∧
      (signals.queue.threadState = .opened ∨ signals.queue.threadState = .ended) := by
  have hrelies := (sound h).relies actor
  have hholder := (exclusive h actor).mp
  cases hinside : signals.inside actor <;> rw [hinside] at hcalling hrelies hholder <;>
    first
    | contradiction
    | exact ⟨hholder rfl, bareQueueListening_iff.mp hrelies.1.1⟩

theorem silent (h : system.Reachable signals) (hclosed : signals.queue.threadState = .closed) :
    (signals.inside actor).inSignal = false := by
  refine eq_false_of_ne_true fun hcalling => ?_
  rcases (guarded h hcalling).2 with hopen | hended
  · rw [hclosed] at hopen
    contradiction
  · rw [hclosed] at hended
    contradiction

theorem closed_step (h : system.Reachable signals) (hclosed : signals.queue.threadState = .closed)
    (hstep : signals.step label = some next) :
    next.queue.threadState = .closed ∧ next.calls = signals.calls := by
  cases move_step hstep with
  | thread _ hnext =>
    cases huv : signals.uv <;> rw [huv] at hnext <;> cases hnext <;> exact ⟨hclosed, rfl⟩
  | enter _ => exact ⟨Queue.enter_closed hclosed _, rfl⟩
  | call hinside hentry =>
    rename_i actor entry
    have hrelies := (sound h).relies actor
    rw [hinside] at hrelies
    have hlistening := (hrelies.1 .thread rfl hentry).1
    simp only [bareQueueState, hclosed] at hlistening
    contradiction
  | host _ _ | abandon _ _ | script _ _ _ | openUv _ _ | wakeup _ _ _ | lock _ _ | opened _ _
  | quiet _ _
  | send _ _ | called _ | leave _ | sent _ => exact ⟨hclosed, rfl⟩

theorem closed_run (h : system.Reachable signals) (hclosed : signals.queue.threadState = .closed)
    {labels : List SignalStep} {last : Signals} (hrun : system.run signals labels = some last) :
    last.queue.threadState = .closed ∧ last.calls = signals.calls := by
  refine h.persists
    (P := fun last => last.queue.threadState = .closed ∧ last.calls = signals.calls)
    ⟨hclosed, rfl⟩ (fun middle label next hmiddle hkept hstep => ?_) hrun
  obtain ⟨hstill, hcalls⟩ := closed_step hmiddle hkept.1 hstep
  exact ⟨hstill, hcalls.trans hkept.2⟩

end Signals

/-- The host is only signalled under the lock and while its end listens, so not once its
port was closed. The worklet is only sent a wake while its handle is there, and only woken
while its reference is. -/
theorem bareQueue_signals_guarded {signals : Signals} (h : Signals.system.Reachable signals) :
    (∀ actor, (signals.inside actor).inSignal = true → signals.holder = some actor ∧
      (signals.queue.threadState = .opened ∨ signals.queue.threadState = .ended)) ∧
    (∀ call ∈ signals.calls, call.holder = some call.caller ∧
      (call.state = .opened ∨ call.state = .ended)) ∧
    (signals.hostClosed = true → ∀ labels last, Signals.system.run signals labels = some last →
      last.calls = signals.calls ∧ ∀ actor, (last.inside actor).inSignal = false) ∧
    (∀ handle ∈ signals.sends, handle = .active) ∧
    (∀ reference ∈ signals.received, reference = .active) := by
  have hlogged := Signals.logged h
  refine ⟨fun actor => Signals.guarded h, fun call hcall => ?_, fun hclosed labels last hrun => ?_,
    hlogged.sends, hlogged.received⟩
  · exact (hlogged.calls call hcall).imp id bareQueueListening_iff.mp
  · obtain ⟨hstill, hcalls⟩ := Signals.closed_run h ((Signals.sound h).hostClosed hclosed) hrun
    exact ⟨hcalls, fun actor => Signals.silent (h.run hrun) hstill⟩

def Signals.parked : Signals :=
  Signals.system.result { queue := bareQueueCreate Slots.blank Slots.blank }
    [.host 0 (.call (.openThread (some 0) none)), .goOn (.host 0), .goOn (.host 0), .goOn (.host 0),
      .goOn (.host 0), .host 0 (.call (.write .thread 1 [7])), .goOn (.host 0), .goOn (.host 0),
      .goOn (.host 0), .goOn (.host 0), .onThread, .onThread, .openUv (some 0) none, .goOn .worklet,
      .goOn .worklet, .goOn .worklet, .goOn .worklet, .onThread, .onThread, .wakeup,
      .script (.call (.write .uv 2 [8])), .goOn .worklet, .goOn .worklet, .goOn .worklet]
    (by decide +kernel)

def Signals.retired : Signals :=
  Signals.system.result Signals.parked
    [.host 1 (.call (.closePort .thread)), .goOn .worklet, .goOn .worklet, .goOn (.host 1),
      .goOn (.host 1), .goOn (.host 1), .goOn (.host 1)] (by decide +kernel)

theorem bareQueue_signals_guarded_whileParked : Signals.parked.holder = some .worklet ∧
    (∀ handle ∈ Signals.parked.sends, handle = .active) ∧
    ∀ labels last, Signals.system.run Signals.retired labels = some last →
      last.calls = Signals.retired.calls := by
  have hparked : Signals.system.Reachable Signals.parked :=
    .result (S := Signals.system) ⟨_, _, rfl⟩ _ _
  obtain ⟨hcalling, -, -, hsends, -⟩ := bareQueue_signals_guarded hparked
  obtain ⟨-, -, hclosed, -, -⟩ := bareQueue_signals_guarded
    (hparked.run (Transition.System.run_result _ _ _ _) : Signals.system.Reachable Signals.retired)
  exact ⟨(hcalling .worklet (by decide +kernel)).1, hsends,
    fun labels last hrun => (hclosed (by decide +kernel) labels last hrun).1⟩

end BareKit
