import BareKit.EndOfStream
import BareKit.Wakeups

/-! An end that is opened late. The signals to it were dropped while it was idle, so the
open makes up for them with one of its own when a message is queued. A consumer that reads
only when it is woken then misses nothing that its peer has done before. -/
namespace BareKit

def Call.port : Call → Port
  | .openUv _ _ => .uv
  | .openThread _ _ => .thread
  | .write port _ _ | .read port | .endPort port | .closePort port | .readable port
  | .writable port => port

def Call.opening (cb data : Option Pointer) : Port → Call
  | .uv => .openUv cb data
  | .thread => .openThread cb data

def Call.opens : Call → Bool
  | .openUv _ _ | .openThread _ _ => true
  | _ => false

def Call.ends : Call → Bool
  | .endPort _ | .closePort _ => true
  | _ => false

namespace Session

def awake (port : Port) : List Event → Bool
  | [] => false
  | event :: rest =>
    if event.wake = some port then true
    else if event.call = .read port then
      match event.answer with
      | .message (.ok message) => awake port rest && message.len != 0
      | _ => false
    else awake port rest

def sawEnd (port : Port) (history : List Event) : Bool :=
  history.any fun event => event.call == .read port && event.answer == .message (.ok ⟨none, 0⟩)

def made (port : Port) (history : List Event) : List (Call × Answer) :=
  (history.filter fun event => event.call.port == port).map fun event => (event.call, event.answer)

def Attends (port : Port) (session : Session) (call : Call) : Prop :=
  call.port = port → call.opens = true ∨ call = .read port ∧ awake port session.history = true

instance (port : Port) (session : Session) (call : Call) : Decidable (session.Attends port call) :=
  inferInstanceAs (Decidable (_ → _))

structure Listening (session : Session) (port : Port) : Prop where
  hears : session.queue.Hears port
  asleep : awake port session.history = false → session.queue.channel.inbox port = [] ∧
    (session.queue.channel.Finished port → sawEnd port session.history = true)

variable {session next : Session} {port : Port} {call : Call}

theorem sent_eq_made (port : Port) (history : List Event) :
    sent port history =
      (made port history).reverse.flatMap fun made => Event.sent port ⟨made.1, made.2, none⟩ := by
  induction history with
  | nil => rfl
  | cons event rest ih =>
    have hwake : event.sent port = Event.sent port ⟨event.call, event.answer, none⟩ := rfl
    by_cases hport : event.call.port = port
    · simp [sent, made, ih, hport, hwake]
    · have hnone : event.sent port = [] := by
        obtain ⟨call, answer, wake⟩ := event
        unfold Event.sent
        split
        · rename_i hwrite _
          cases hwrite
          exact if_neg fun hsent => hport hsent.1
        · rfl
      simp [sent, made, ih, hport, hnone]

theorem machine_ended_iff (channel : Channel Buffer) (henabled : call.Enabled channel.state)
    (port : Port) :
    EndState.ended ≤ (Channel.machine channel call).1.state port ↔
      EndState.ended ≤ channel.state port ∨ call.port = port ∧ call.ends = true := by
  have hopen : ∀ opening : Port, channel.state opening = .idle →
      (EndState.ended ≤ (channel.setState opening .opened).state port ↔
        EndState.ended ≤ channel.state port) := by
    intro opening hidle
    rcases opening.eq_or_eq_peer port with rfl | rfl
    · rw [Channel.setState_state_self, hidle]
      decide
    · rw [Channel.setState_state_peer]
  have hadvance : ∀ (ending : Port) (state : EndState), EndState.ended ≤ state →
      (EndState.ended ≤ (channel.advance ending state).state port ↔
        EndState.ended ≤ channel.state port ∨ ending = port) := by
    intro ending state hstate
    rcases ending.eq_or_eq_peer port with rfl | rfl
    · refine iff_of_true ?_ (Or.inr rfl)
      rw [Channel.advance_state_self]
      revert hstate
      cases channel.state port <;> cases state <;> decide
    · rw [Channel.advance_state_peer]
      simp
  cases call with
  | openUv _ _ => simpa [Channel.machine, Call.ends] using hopen .uv henabled
  | openThread _ _ =>
    simp only [Channel.machine, Call.ends, Bool.false_eq_true, and_false, or_false]
    split
    · rfl
    · exact hopen .thread (not_not.mp ‹_›)
  | write writer addr data =>
    simp only [Channel.machine, Call.ends, Bool.false_eq_true, and_false, or_false]
    split
    · rfl
    · rw [Channel.send_state]
  | read reader => simp [Channel.machine, Call.ends]
  | endPort ending =>
    simpa [Channel.machine, Call.ends, Call.port] using hadvance ending .ended (by decide)
  | closePort closing =>
    simpa [Channel.machine, Call.ends, Call.port] using hadvance closing .closed (by decide)
  | readable _ => simp [Channel.machine, Call.ends]
  | writable _ => simp [Channel.machine, Call.ends]

theorem ended_iff_made (h : system.Reachable session) (port : Port) :
    EndState.ended ≤ session.queue.channel.state port ↔
      (made port session.history).any (fun made => made.1.ends) = true := by
  refine h.invariant (I := fun session => EndState.ended ≤ session.queue.channel.state port ↔
    (made port session.history).any (fun made => made.1.ends) = true) ?_ ?_
  · rintro session ⟨⟨toUv, toThread, hqueue⟩, hhistory⟩
    rw [hqueue, hhistory, (Queue.refines_create toUv toThread).2]
    cases port <;> decide
  · intro session call next hreach hbefore hstep
    obtain ⟨hchannel, hhistory, -⟩ := step_channel hreach hstep
    have henabled := (step_eq_some.mp hstep).1
    rw [hchannel, hhistory, machine_ended_iff session.queue.channel henabled, hbefore]
    by_cases hport : call.port = port
    · simp [made, event, hport, or_comm]
    · simp [made, event, hport]

theorem hears_of_peer {queue : Queue} (hears : queue.Hears port) (hpeer : call.port = port.peer) :
    (queue.call call).queue.Hears port := by
  have hset : ∀ (changed : Port) (ring : Ring), (queue.setInbox changed ring).Hears port := by
    intro changed ring
    cases changed <;> cases port <;> exact hears
  have hadvance : ∀ state, (bareQueueAdvance queue port.peer state).queue.Hears port := by
    intro state
    have hother : ¬ (port = port.peer ∧ bareQueueState queue port < state) :=
      fun h => Port.ne_peer port h.1
    rw [Queue.Hears, Queue.advance_state, Queue.advance_onSignalThread, if_neg hother]
    exact hears
  cases call with
  | openUv _ _ =>
    cases port with
    | uv => contradiction
    | thread => exact hears
  | openThread onSignal data =>
    cases port with
    | uv =>
      simp only [Queue.call, Outcome.answer, bareQueueOpenThread]
      split
      · exact hears
      · exact ⟨hears.1, fun hthread => by contradiction⟩
    | thread => contradiction
  | write writer addr data =>
    simp only [Queue.call, Outcome.answer, bareQueueWrite]
    split
    · exact hears
    · split
      · exact hears
      · split
        · exact hears
        · exact hset _ _
  | read reader =>
    simp only [Queue.call, Outcome.answer, bareQueueRead]
    split
    · exact hset _ _
    · exact hears
  | endPort ending =>
    cases hpeer
    exact hadvance .ended
  | closePort closing =>
    cases hpeer
    exact hadvance .closed
  | readable _ => exact hears
  | writable _ => exact hears

theorem sawEnd_cons (event : Event) {history : List Event} (h : sawEnd port history = true) :
    sawEnd port (event :: history) = true := by
  unfold sawEnd at h ⊢
  rw [List.any_cons, h, Bool.or_true]

theorem inbox_of_finished (channel : Channel Buffer) (hpeer : call.port = port.peer)
    (hinbox : channel.inbox port = []) (hfinished : channel.Finished port) :
    (Channel.machine channel call).1.inbox port = [] := by
  have hall := Channel.machine_accounted channel port none call
  have hreceived : Event.received port ⟨call, (Channel.machine channel call).2, none⟩ = [] := by
    unfold Event.received
    split
    · rename_i hread _
      cases hread
      exact if_neg fun hself => Port.ne_peer port (hself.symm.trans hpeer)
    · rfl
  rw [hreceived, Channel.sent_of_finished channel port none hfinished, hinbox] at hall
  simpa using hall

theorem Listening.peer (h : session.Listening port) (hreach : system.Reachable session)
    (hpeer : call.port = port.peer) (hstep : system.step session call = some next) :
    next.Listening port := by
  have hears := hears_of_peer h.hears hpeer
  have hcall : call ≠ .read port := by
    rintro rfl
    exact Port.ne_peer port hpeer
  obtain ⟨hchannel, -⟩ := step_channel hreach hstep
  obtain ⟨-, rfl⟩ := step_eq_some.mp hstep
  refine ⟨hears, fun hasleep => ?_⟩
  by_cases hwake : (session.queue.call call).wake = some port
  · simp [awake, event, hwake] at hasleep
  · simp only [awake, event, hwake, hcall, if_false] at hasleep
    obtain ⟨hinbox, hended⟩ := h.asleep hasleep
    by_cases hfinished : session.queue.channel.Finished port
    · rw [hchannel]
      exact ⟨inbox_of_finished _ hpeer hinbox hfinished, fun _ => sawEnd_cons _ (hended hfinished)⟩
    · obtain ⟨hempty, hopen⟩ :=
        (wellFormed hreach).silent_read hears h.hears hcall hwake hinbox hfinished
      exact ⟨hempty, fun hfin => absurd hfin hopen⟩

theorem Listening.read (h : session.Listening port) (hreach : system.Reachable session)
    (hawake : awake port session.history = true)
    (hstep : system.step session (.read port) = some next) : next.Listening port := by
  have hwell := wellFormed hreach
  obtain ⟨-, rfl⟩ := step_eq_some.mp hstep
  rcases hwell.read_cases port with ⟨buffer, rest, ring, hinbox, hring, _,
    hr⟩ | ⟨hinbox, hfin, hr⟩ |
    ⟨hinbox, hfin, hr⟩
  · refine ⟨?_, fun hasleep => ?_⟩
    · simp only [Queue.call, Outcome.answer, hr]
      cases port <;> exact h.hears
    · have hpos : 0 < buffer.bytes.length :=
        ((hwell.ring port).sized (by rw [← Queue.channel_inbox, hinbox]; simp)).1
      have hsilent : (session.queue.call (.read port)).wake ≠ some port := by
        simp only [Queue.call, Outcome.answer, hr]
        split
        · exact Queue.signalPeer_ne_self
        · simp
      simp only [awake, event, hsilent, if_false, if_true] at hasleep
      simp [Queue.call, Outcome.answer, hr, hawake, Buffer.message] at hasleep
      simp [hasleep] at hpos
  · refine ⟨?_, fun _ => ?_⟩
    · simpa [Queue.call, Outcome.answer, hr] using h.hears
    · refine ⟨by simpa [Queue.call, Outcome.answer, hr] using hinbox, fun _ => ?_⟩
      simp [sawEnd, event, Queue.call, Outcome.answer, hr]
  · refine ⟨?_, fun _ => ?_⟩
    · simpa [Queue.call, Outcome.answer, hr] using h.hears
    · simpa [Queue.call, Outcome.answer, hr] using ⟨hinbox, fun hended => absurd hended hfin⟩

theorem Listening.opened (h : session.Listening port) (hport : call.port = port)
    (hopens : call.opens = true)
    (hstep : system.step session call = some next) : next.Listening port := by
  have hused : bareQueueState session.queue port ≠ .idle := by
    intro hidle
    have hears := h.hears.1
    rw [hidle] at hears
    contradiction
  obtain ⟨henabled, rfl⟩ := step_eq_some.mp hstep
  cases call with
  | write _ _ _ | read _ | endPort _ | closePort _ | readable _ | writable _ => contradiction
  | openUv _ _ =>
    cases hport
    exact absurd henabled hused
  | openThread onSignal data =>
    cases hport
    have hrefused : session.queue.call (.openThread onSignal data) =
        ⟨session.queue, .port false, none, none⟩ := by
      have hthread : session.queue.threadState ≠ .idle := hused
      simp [Queue.call, Outcome.answer, bareQueueOpenThread, hthread]
    refine ⟨by simpa [hrefused] using h.hears, fun hasleep => ?_⟩
    simp only [awake, event, hrefused, reduceCtorEq, if_false] at hasleep
    obtain ⟨hinbox, hended⟩ := h.asleep hasleep
    simp only [hrefused]
    exact ⟨hinbox, fun hfin => sawEnd_cons _ (hended hfin)⟩

theorem Listening.step (h : session.Listening port) (hreach : system.Reachable session)
    (hattends : session.Attends port call) (hstep : system.step session call = some next) :
    next.Listening port := by
  rcases port.eq_or_eq_peer call.port with hport | hpeer
  · rcases hattends hport with hopens | ⟨rfl, hawake⟩
    · exact h.opened hport hopens hstep
    · exact h.read hreach hawake hstep
  · exact h.peer hreach hpeer hstep

theorem opening_wake {queue : Queue} {cb : Option Pointer} (data : Option Pointer)
    (hidle : bareQueueState queue port = .idle) (hcb : port = .thread → cb.isSome = true) :
    (queue.call (.opening cb data port)).wake = some port ↔
      bareQueueRingEmpty (bareQueueInbox queue port) = false := by
  cases port with
  | uv =>
    simp only [Call.opening, Queue.call, Outcome.answer, bareQueueOpenUv, bareQueueInbox]
    cases bareQueueRingEmpty queue.toUv <;> simp
  | thread =>
    have hthread : queue.threadState = .idle := hidle
    simp only [Call.opening, Queue.call, Outcome.answer, bareQueueOpenThread, hthread, ne_eq,
      not_true_eq_false, if_false, bareQueueInbox]
    cases bareQueueRingEmpty queue.toThread <;>
      simp [bareQueueSignalThread, bareQueueListening, hcb rfl]

theorem opening_hears {queue : Queue} {cb : Option Pointer} (data : Option Pointer)
    (hidle : bareQueueState queue port = .idle) (hcb : port = .thread → cb.isSome = true) :
    (queue.call (.opening cb data port)).queue.Hears port := by
  cases port with
  | uv => exact ⟨rfl, fun hthread => by contradiction⟩
  | thread =>
    have hthread : queue.threadState = .idle := hidle
    simp only [Call.opening, Queue.call, Outcome.answer, bareQueueOpenThread, hthread, ne_eq,
      not_true_eq_false, if_false]
    exact ⟨rfl, hcb⟩

/-- What has been missed is made up for: a message by the signal of the open. -/
theorem listening_opening (hreach : system.Reachable session)
    (hidle : bareQueueState session.queue port = .idle) {cb data : Option Pointer}
    (hcb : port = .thread → cb.isSome = true)
    (hcatch : bareQueueRingEmpty (bareQueueInbox session.queue port) = false ∨
      ¬ EndState.ended ≤ bareQueuePeerState session.queue port)
    (hstep : system.step session (.opening cb data port) = some next) : next.Listening port := by
  have hwake := opening_wake data hidle hcb
  have hears := opening_hears data hidle hcb
  obtain ⟨hchannel, -⟩ := step_channel hreach hstep
  obtain ⟨-, rfl⟩ := step_eq_some.mp hstep
  refine ⟨hears, fun hasleep => ?_⟩
  have hempty : bareQueueRingEmpty (bareQueueInbox session.queue port) = true := by
    by_contra hqueued
    simp [awake, event, hwake.mpr (eq_false_of_ne_true hqueued)] at hasleep
  have hopen := hcatch.resolve_left (by simp [hempty])
  have hsame : (Channel.machine session.queue.channel (.opening cb data port)).1 =
      session.queue.channel.setState port .opened := by
    cases port with
    | uv => rfl
    | thread =>
      have hthread : session.queue.channel.state .thread = .idle := hidle
      simp [Call.opening, Channel.machine, hthread]
  rw [hchannel, hsame]
  refine ⟨((wellFormed hreach).ring port).empty_iff.mp hempty, fun hfinished => absurd ?_ hopen⟩
  rw [Channel.Finished, Channel.setState_state_peer] at hfinished
  exact (Queue.channel_finished port).mp hfinished

theorem listening_run (hlistening : session.Listening port) (hreach : system.Reachable session)
    {calls : List Call} (hrun : (system.guard (Attends port)).run session calls = some next) :
    next.Listening port ∧ system.Reachable next := by
  induction calls generalizing session with
  | nil =>
    cases hrun
    exact ⟨hlistening, hreach⟩
  | cons call rest ih =>
    obtain ⟨middle, hstep, hrest⟩ := Option.bind_eq_some_iff.mp hrun
    obtain ⟨hattends, hcall⟩ := Transition.System.guard_step.mp hstep
    exact ih (hlistening.step hreach hattends hcall) (hreach.next call hcall) hrest

theorem drained_of_sawEnd (h : system.Reachable session)
    (hend : sawEnd port session.history = true) :
    session.Drained port := by
  revert hend
  refine h.invariant (I := fun session => sawEnd port session.history = true → session.Drained port)
    ?_ ?_
  · rintro session ⟨-, hhistory⟩ hend
    simp [hhistory, sawEnd] at hend
  · intro session call next hreach hbefore hstep hend
    refine (drained_step hreach ?_ hstep).1
    obtain ⟨-, rfl⟩ := step_eq_some.mp hstep
    simp only [sawEnd, List.any_cons, Bool.or_eq_true] at hend
    rcases hend with hnow | hearlier
    · simp only [event, Bool.and_eq_true, beq_iff_eq] at hnow
      obtain ⟨rfl, hanswer⟩ := hnow
      simp only [Queue.call, Outcome.answer, Answer.message.injEq] at hanswer
      exact (read_len_eq_zero hreach hanswer).mp rfl
    · exact hbefore hearlier

theorem Listening.caughtUp (h : session.Listening port) (hreach : system.Reachable session)
    (hasleep : awake port session.history = false) :
    received port session.history = sent port.peer session.history ∧
      (sawEnd port session.history = true ↔ session.queue.channel.Finished port) := by
  obtain ⟨hinbox, hended⟩ := h.asleep hasleep
  refine ⟨?_, ?_, hended⟩
  · rw [accounted hreach port, hinbox, List.map_nil, List.append_nil]
  · exact fun hend => (drained_of_sawEnd hreach hend).2

/-- Two ports that are caught up have read the same of peers that did the same. -/
theorem Listening.agree {other : Session} (h : session.Listening port)
    (hreach : system.Reachable session)
    (hasleep : awake port session.history = false) (hother : other.Listening port)
    (hreachOther : system.Reachable other) (hasleepOther : awake port other.history = false)
    (hmade : made port.peer session.history = made port.peer other.history) :
    received port session.history = received port other.history ∧
      sawEnd port session.history = sawEnd port other.history := by
  obtain ⟨hreceived, hend⟩ := h.caughtUp hreach hasleep
  obtain ⟨hreceivedOther, hendOther⟩ := hother.caughtUp hreachOther hasleepOther
  constructor
  · rw [hreceived, hreceivedOther, sent_eq_made, sent_eq_made, hmade]
  · rw [Bool.eq_iff_iff, hend, hendOther, Channel.Finished, Channel.Finished,
      ended_iff_made hreach, ended_iff_made hreachOther, hmade]

end Session

/-- An open issues a wake exactly where a message is queued for the end it opens. Where one
is, or the peer has not ended, a consumer that reads only when it is woken reads the same
messages and the same end of the stream as one that was there before its peer. -/
theorem bareQueue_openLate (port : Port) (before : Session) (h : Session.system.Reachable before)
    (hidle : bareQueueState before.queue port = .idle) (cb data : Option Pointer)
    (hcb : port = .thread → cb.isSome = true) :
    ((before.queue.call (.opening cb data port)).wake = some port ↔
      bareQueueRingEmpty (bareQueueInbox before.queue port) = false) ∧
    (bareQueueRingEmpty (bareQueueInbox before.queue port) = false ∨
      ¬ EndState.ended ≤ bareQueuePeerState before.queue port →
      ∀ created early calls others late, Session.system.init created →
        (Session.system.guard (Session.Attends port)).run before
          (.opening cb data port :: calls) = some late →
        (Session.system.guard (Session.Attends port)).run created
          (.opening cb data port :: others) = some early →
        Session.awake port late.history = false → Session.awake port early.history = false →
        Session.made port.peer late.history = Session.made port.peer early.history →
        Session.received port late.history = Session.received port early.history ∧
          Session.sawEnd port late.history = Session.sawEnd port early.history) := by
  refine ⟨Session.opening_wake data hidle hcb, ?_⟩
  intro hcatch created early calls others late hinit hlate hearly hasleep hasleepEarly hmade
  obtain ⟨opened, hopen, hcalls⟩ := Option.bind_eq_some_iff.mp hlate
  obtain ⟨first, hfirst, hothers⟩ := Option.bind_eq_some_iff.mp hearly
  have hstep := (Transition.System.guard_step.mp hopen).2
  have hstepFirst := (Transition.System.guard_step.mp hfirst).2
  have hcreated : Session.system.Reachable created := .start hinit
  have hfresh : bareQueueState created.queue port = .idle ∧
      ¬ EndState.ended ≤ bareQueuePeerState created.queue port := by
    obtain ⟨⟨toUv, toThread, hqueue⟩, -⟩ := hinit
    have hunused : EndState.idle = .idle ∧ ¬ EndState.ended ≤ EndState.idle := by decide
    rw [hqueue]
    cases port <;> exact hunused
  obtain ⟨hlistening, hreach⟩ := Session.listening_run
    (Session.listening_opening h hidle hcb hcatch hstep) (h.next _ hstep) hcalls
  obtain ⟨hlisteningEarly, hreachEarly⟩ := Session.listening_run
    (Session.listening_opening hcreated hfresh.1 hcb (Or.inr hfresh.2) hstepFirst)
    (hcreated.next _ hstepFirst) hothers
  exact hlistening.agree hreach hasleep hlisteningEarly hreachEarly hasleepEarly hmade

def Session.endedEarly : Session :=
  Session.system.result ⟨bareQueueCreate Slots.blank Slots.blank, []⟩
    [.openThread (some 0) none, .endPort .thread] rfl

def Session.writtenEarly : Session :=
  Session.system.result ⟨bareQueueCreate Slots.blank Slots.blank, []⟩
    [.openThread (some 0) none, .write .thread 0 [7], .endPort .thread] (by decide +kernel)

/-- A message and the end of the stream after it reach a worklet that opens after both. -/
theorem bareQueue_openLate_writtenEarly : ∃ late early : Session,
    Session.received .uv late.history = [[7]] ∧
      Session.received .uv late.history = Session.received .uv early.history ∧
      Session.sawEnd .uv late.history = Session.sawEnd .uv early.history := by
  have hreach : Session.system.Reachable Session.writtenEarly :=
    .result (S := Session.system) ⟨⟨_, _, rfl⟩, rfl⟩ _ _
  refine ⟨_, _, ?_,
    (bareQueue_openLate .uv Session.writtenEarly hreach (by decide +kernel) (some 1) none
    (by decide)).2 (Or.inl (by decide +kernel)) ⟨bareQueueCreate Slots.blank Slots.blank, []⟩
    ((Session.system.guard (Session.Attends .uv)).result
      ⟨bareQueueCreate Slots.blank Slots.blank, []⟩
      [.openUv (some 1) none, .openThread (some 0) none, .write .thread 0 [7], .read .uv,
        .endPort .thread, .read .uv] (by decide +kernel))
    [.read .uv, .read .uv] _
    ((Session.system.guard (Session.Attends .uv)).result Session.writtenEarly
      [.openUv (some 1) none, .read .uv, .read .uv] (by decide +kernel))
    ⟨⟨_, _, rfl⟩, rfl⟩ (Option.some_get _).symm (Option.some_get _).symm ?_ ?_ ?_⟩
  · decide +kernel
  · decide +kernel
  · decide +kernel
  · decide +kernel

/-- The end of the stream is there to be read, and nothing tells the worklet that opens. -/
theorem bareQueue_openLate_endedEarly :
    ¬ ∀ session, Session.system.Reachable session → bareQueueState session.queue .uv = .idle →
      bareQueueReadable session.queue .uv = true →
      (session.queue.call (.opening (some 1) none .uv)).wake = some .uv := by
  intro hclaim
  have hwake := hclaim Session.endedEarly (.result (S := Session.system) ⟨⟨_, _, rfl⟩, rfl⟩ _ _)
    (by decide +kernel) (by decide +kernel)
  revert hwake
  decide +kernel

end BareKit
