import BareKit.History

/-! No wake is lost. A write signals only an empty inbox and a read only a full one,
so an end may sleep after a read or a write that would block: whatever would make
the retry succeed signals it first. -/
namespace BareKit

/-- An end that is open or ended, with a signal to be woken by. -/
def Queue.Hears (queue : Queue) (port : Port) : Prop :=
  bareQueueListening (bareQueueState queue port) = true ∧
    (port = .thread → queue.onSignalThread.isSome = true)

instance (queue : Queue) (port : Port) : Decidable (queue.Hears port) :=
  inferInstanceAs (Decidable (_ ∧ _))

namespace Session

def readBlocked (port : Port) : List Event → Bool
  | [] => false
  | event :: rest =>
    if event.wake = some port then false
    else if event.call = .read port then event.answer == .message .wouldBlock
    else readBlocked port rest

/-- The port's latest write would have blocked, and since then it has neither ended
nor been woken. -/
def writeBlocked (port : Port) : List Event → Bool
  | [] => false
  | event :: rest =>
    if event.wake = some port then false
    else match event.call with
      | .write writer _ data =>
        if writer = port ∧ data ≠ [] then event.answer == .count bareQueueWouldBlock
        else writeBlocked port rest
      | .endPort ending => if ending = port then false else writeBlocked port rest
      | _ => writeBlocked port rest

end Session

namespace Queue

variable {queue : Queue} {port : Port}

theorem Hears.state (h : queue.Hears port) :
    queue.channel.state port = .opened ∨ queue.channel.state port = .ended :=
  bareQueueListening_iff.mp h.1

theorem Hears.signalled (h : queue.Hears port) :
    bareQueueSignalPeer queue port.peer = some port := by
  obtain ⟨hlistening, hsignal⟩ := h
  cases port with
  | uv =>
    have hlistening' : bareQueueListening queue.uvState = true := hlistening
    simp [bareQueueSignalPeer, bareQueueSignalUv, hlistening', Port.peer]
  | thread =>
    have hlistening' : bareQueueListening queue.threadState = true := hlistening
    simp [bareQueueSignalPeer, bareQueueSignalThread, hlistening', hsignal rfl, Port.peer]

theorem signalPeer_ne_self : bareQueueSignalPeer queue port ≠ some port := by
  cases port <;>
    simp [bareQueueSignalPeer, bareQueueSignalThread, bareQueueSignalUv]

theorem Hears.of_call {call : Call} (h : (queue.call call).queue.Hears port)
    (hused : bareQueueState queue port ≠ .idle) (henabled : call.Enabled (bareQueueState queue)) :
    queue.Hears port := by
  have hset : ∀ (changed : Port) (ring : Ring), (queue.setInbox changed ring).Hears port →
      queue.Hears port := by
    intro changed ring
    cases changed <;> cases port <;> exact id
  have hadvance : ∀ (changed : Port) (state : EndState), EndState.ended ≤ state →
      (bareQueueAdvance queue changed state).queue.Hears port → queue.Hears port := by
    intro changed state hstate hadv
    simp only [bareQueueAdvance] at hadv
    split at hadv
    · rename_i hlt
      rcases changed.eq_or_eq_peer port with rfl | rfl
      · have hlistening := hadv.1
        rw [setState_state_self] at hlistening
        refine ⟨?_, fun hthread => ?_⟩
        · revert hlistening hlt hused hstate
          cases bareQueueState queue port <;> cases state <;> decide
        · subst hthread
          exact hadv.2 rfl
      · cases changed <;> exact hadv
    · exact hadv
  cases call with
  | openUv _ _ =>
    cases port
    · exact absurd henabled hused
    · exact h
  | openThread onSignal data =>
    simp only [call, Outcome.answer, bareQueueOpenThread] at h
    split at h
    · exact h
    · rename_i hidle
      cases port
      · exact ⟨h.1, fun hthread => by cases hthread⟩
      · exact absurd (not_not.mp hidle) hused
  | write writer addr data =>
    simp only [call, Outcome.answer, bareQueueWrite] at h
    split at h
    · exact h
    · split at h
      · exact h
      · split at h
        · exact h
        · exact hset _ _ h
  | read reader =>
    simp only [call, Outcome.answer, bareQueueRead] at h
    split at h
    · exact hset _ _ h
    · exact h
  | endPort ending => exact hadvance ending .ended (by decide) h
  | closePort closing => exact hadvance closing .closed (by decide) h
  | readable _ => exact h
  | writable _ => exact h

/-- A step of the peer that fills an empty inbox, ends or closes signals the port. -/
theorem WellFormed.silent_read (h : queue.WellFormed) {call : Call}
    (hafter : (queue.call call).queue.Hears port) (hbefore : queue.Hears port)
    (hcall : call ≠ .read port) (hsilent : (queue.call call).wake ≠ some port)
    (hinbox : queue.channel.inbox port = []) (hfin : ¬ queue.channel.Finished port) :
    (queue.call call).queue.channel.inbox port = [] ∧
      ¬ (queue.call call).queue.channel.Finished port := by
  have hpeer : ∀ state : EndState, ¬ EndState.ended ≤ state →
      ∀ changed, ¬ (queue.channel.setState changed state).Finished port := by
    intro state hstate changed
    unfold Channel.Finished at hfin ⊢
    rcases port.eq_or_eq_peer changed with rfl | rfl
    · rwa [Channel.setState_state_peer]
    · rwa [Channel.setState_state_self]
  have hadvance : ∀ (changed : Port) (state : EndState),
      (bareQueueAdvance queue changed state).queue.Hears port →
      (bareQueueAdvance queue changed state).wake ≠ some port →
      (queue.channel.advance changed state).inbox port = [] ∧
        ¬ (queue.channel.advance changed state).Finished port := by
    intro changed state hhears hwake
    rcases port.eq_or_eq_peer changed with rfl | rfl
    · refine ⟨by simpa using hinbox, ?_⟩
      simpa [Channel.Finished] using hfin
    · refine absurd ?_ hwake
      exact hhears.signalled
  rw [(h.call_channel call).2]
  cases call with
  | openUv _ _ => exact ⟨hinbox, hpeer .opened (by decide) .uv⟩
  | openThread _ _ =>
    simp only [Channel.machine]
    split
    · exact ⟨hinbox, hfin⟩
    · exact ⟨hinbox, hpeer .opened (by decide) .thread⟩
  | write writer addr data =>
    by_cases hdata : data = []
    · simpa [Channel.machine, hdata] using ⟨hinbox, hfin⟩
    · simp only [Channel.machine, hdata, if_false]
      refine ⟨?_, by simpa [Channel.Finished] using hfin⟩
      rcases port.eq_or_eq_peer writer with rfl | rfl
      · simpa using hinbox
      · rcases h.write_cases port.peer addr data hdata with ⟨hs, _⟩ | ⟨hs, _⟩ | ⟨hs, _, _, _, hw⟩
        · rwa [Channel.send_eq_self _ _ _ (by simp [hs])]
        · rwa [Channel.send_eq_self _ _ _ (by simp [hs])]
        · refine absurd ?_ hsilent
          rw [Port.peer_peer] at hw
          simp [Queue.call, Outcome.answer, hw, hinbox, hbefore.signalled]
  | read reader =>
    rcases port.eq_or_eq_peer reader with rfl | rfl
    · exact absurd rfl hcall
    · have hother := queue.channel.receive_inbox_peer port.peer
      rw [Port.peer_peer] at hother
      exact ⟨hother.trans hinbox, hfin⟩
  | endPort ending => exact hadvance ending .ended hafter hsilent
  | closePort closing => exact hadvance closing .closed hafter hsilent
  | readable _ => exact ⟨hinbox, hfin⟩
  | writable _ => exact ⟨hinbox, hfin⟩

/-- A step of the peer that drains a full ring or closes signals the port. -/
theorem WellFormed.silent_write (h : queue.WellFormed) {call : Call}
    (hafter : (queue.call call).queue.Hears port) (hbefore : queue.Hears port)
    (hwrite : ∀ addr data, data ≠ [] → call ≠ .write port addr data) (hend : call ≠ .endPort port)
    (hsilent : (queue.call call).wake ≠ some port) (hrefused : ¬ queue.channel.Refused port)
    (hfull : (queue.channel.outbox port).length = Channel.bound) :
    ¬ (queue.call call).queue.channel.Refused port ∧
      ((queue.call call).queue.channel.outbox port).length = Channel.bound := by
  have hopen : ∀ changed, ¬ (queue.channel.setState changed .opened).Refused port := by
    intro changed
    unfold Channel.Refused at hrefused ⊢
    rcases port.eq_or_eq_peer changed with rfl | rfl
    · have hlow : ¬ EndState.ended ≤ EndState.opened := by decide
      simpa [hlow] using fun hclosed => hrefused (Or.inr hclosed)
    · have hother := queue.channel.setState_state_peer port.peer .opened
      rw [Port.peer_peer] at hother
      simpa [hother] using fun hended => hrefused (Or.inl hended)
  have hadvance : ∀ state : EndState,
      (bareQueueAdvance queue port.peer state).queue.Hears port →
      (bareQueueAdvance queue port.peer state).wake = some port := by
    intro state hhears
    exact hhears.signalled
  have hchannel := (h.call_channel call).2
  cases call with
  | openUv _ _ =>
    rw [hchannel]
    exact ⟨hopen .uv, hfull⟩
  | openThread _ _ =>
    rw [hchannel]
    simp only [Channel.machine]
    split
    · exact ⟨hrefused, hfull⟩
    · exact ⟨hopen .thread, hfull⟩
  | write writer addr data =>
    rw [hchannel]
    by_cases hdata : data = []
    · simpa [Channel.machine, hdata] using ⟨hrefused, hfull⟩
    · rcases port.eq_or_eq_peer writer with rfl | rfl
      · exact absurd rfl (hwrite addr data hdata)
      · simp only [Channel.machine, hdata, if_false]
        exact ⟨by simpa [Channel.Refused] using hrefused, by simpa [Channel.outbox] using hfull⟩
  | read reader =>
    rw [hchannel]
    rcases port.eq_or_eq_peer reader with rfl | rfl
    · exact ⟨hrefused, by simpa [Channel.outbox, Channel.machine] using hfull⟩
    · refine absurd ?_ hsilent
      have hsignalled := hbefore.signalled
      have hpos : Channel.bound ≠ 0 := by decide
      rcases h.read_cases port.peer with ⟨_, _, _, _, _, _, hr⟩ | ⟨hnil, _⟩ | ⟨hnil, _⟩
      · simp only [Queue.call, Outcome.answer, hr, hsignalled]
        exact if_pos hfull
      · simp [Channel.outbox, hnil, hpos.symm] at hfull
      · simp [Channel.outbox, hnil, hpos.symm] at hfull
  | endPort ending =>
    rcases port.eq_or_eq_peer ending with rfl | rfl
    · exact absurd rfl hend
    · exact absurd (hadvance .ended hafter) hsilent
  | closePort closing =>
    rcases port.eq_or_eq_peer closing with rfl | rfl
    · have hclosed : (queue.call (.closePort closing)).queue.channel.state closing = .closed := by
        rw [hchannel]
        simp only [Channel.machine, Channel.advance_state_self]
        cases queue.channel.state closing <;> rfl
      rcases hafter.state with hstate | hstate <;> simp [hclosed] at hstate
    · exact absurd (hadvance .closed hafter) hsilent
  | readable _ => exact ⟨hrefused, hfull⟩
  | writable _ => exact ⟨hrefused, hfull⟩

end Queue

namespace Session

variable {session next : Session} {port : Port}

def ReadQuiet (session : Session) (port : Port) : Prop :=
  readBlocked port session.history = true →
    session.queue.channel.state port ≠ .idle ∧ (session.queue.Hears port →
      session.queue.channel.inbox port = [] ∧ ¬ session.queue.channel.Finished port)

def WriteQuiet (session : Session) (port : Port) : Prop :=
  writeBlocked port session.history = true →
    session.queue.channel.state port ≠ .idle ∧ (session.queue.Hears port →
      ¬ session.queue.channel.Refused port ∧
        (session.queue.channel.outbox port).length = Channel.bound)

theorem used_step (port : Port) {call : Call} (h : system.Reachable session)
    (hstep : system.step session call = some next)
    (hused : session.queue.channel.state port ≠ .idle) :
    next.queue.channel.state port ≠ .idle := by
  have hrun : system.run session [call] = some next := by
    simp [Transition.System.run_cons, hstep]
  have hle := run_state_le h hrun port
  rw [Queue.channel_state] at hused ⊢
  revert hle hused
  cases bareQueueState session.queue port <;> cases bareQueueState next.queue port <;> decide

theorem readQuiet_step {call : Call} (h : system.Reachable session)
    (hquiet : session.ReadQuiet port) (hstep : system.step session call = some next) :
    next.ReadQuiet port := by
  have hwell := wellFormed h
  have husedStep := used_step port h hstep
  obtain ⟨henabled, rfl⟩ := step_eq_some.mp hstep
  intro hblocked
  unfold readBlocked at hblocked
  split at hblocked
  · contradiction
  · rename_i hsilent
    split at hblocked
    · -- the port's own read just found nothing
      rename_i hcall
      change call = .read port at hcall
      subst hcall
      refine ⟨husedStep henabled, fun _ => ?_⟩
      rcases hwell.read_cases port with ⟨_, _, next, _, _, _, hr⟩ | ⟨_, _, hr⟩ | ⟨hnil, hfin, hr⟩
      · simp [event, Queue.call, Outcome.answer, hr] at hblocked
      · simp [event, Queue.call, Outcome.answer, hr] at hblocked
      · simpa [Queue.call, Outcome.answer, hr] using ⟨hnil, hfin⟩
    · rename_i hcall
      obtain ⟨hused, hasleep⟩ := hquiet hblocked
      refine ⟨husedStep hused, fun hhears => ?_⟩
      have hbefore := hhears.of_call hused henabled
      obtain ⟨hinbox, hfin⟩ := hasleep hbefore
      exact hwell.silent_read hhears hbefore hcall hsilent hinbox hfin

theorem writeQuiet_step {call : Call} (h : system.Reachable session)
    (hquiet : session.WriteQuiet port) (hstep : system.step session call = some next) :
    next.WriteQuiet port := by
  have hwell := wellFormed h
  have husedStep := used_step port h hstep
  obtain ⟨henabled, rfl⟩ := step_eq_some.mp hstep
  intro hblocked
  unfold writeBlocked at hblocked
  split at hblocked
  · contradiction
  · rename_i hsilent
    by_cases hown : ∃ addr data, data ≠ [] ∧ call = .write port addr data
    · -- the port's own write just found no room
      obtain ⟨addr, data, hdata, rfl⟩ := hown
      refine ⟨husedStep henabled, fun _ => ?_⟩
      rcases hwell.write_cases port addr data hdata with ⟨_, hw⟩ | ⟨hs, hw⟩ | ⟨_, _, _, _, hw⟩
      · simp [event, Queue.call, Outcome.answer, hw, hdata, bareQueueClosed,
          bareQueueWouldBlock] at hblocked
      · simpa [Queue.call, Outcome.answer, hw] using Channel.sendResult_blocked.mp hs
      · simp only [event, Queue.call, Outcome.answer, hw, hdata, ne_eq, not_false_eq_true,
          and_self, if_true, bareQueueWouldBlock, beq_iff_eq, Answer.count.injEq] at hblocked
        omega
    · have hrest : writeBlocked port session.history = true ∧ call ≠ .endPort port := by
        refine ⟨?_, ?_⟩
        · revert hblocked
          cases call <;> simp only [event] <;> try exact id
          · split
            · rename_i hcall
              exact absurd ⟨_, _, hcall.2, by rw [hcall.1]⟩ hown
            · exact id
          · split
            · intro hfalse
              contradiction
            · exact id
        · rintro rfl
          simp [event] at hblocked
      obtain ⟨hused, hasleep⟩ := hquiet hrest.1
      refine ⟨husedStep hused, fun hhears => ?_⟩
      have hbefore := hhears.of_call hused henabled
      obtain ⟨hrefused, hfull⟩ := hasleep hbefore
      exact hwell.silent_write hhears hbefore
        (fun addr data hdata hcall => hown ⟨addr, data, hdata, hcall⟩) hrest.2 hsilent
          hrefused hfull

theorem readQuiet (h : system.Reachable session) (port : Port) : session.ReadQuiet port := by
  refine h.invariant (I := fun session => session.ReadQuiet port) ?_
    fun session call next hreach hquiet hstep => readQuiet_step hreach hquiet hstep
  rintro session ⟨-, hhistory⟩ hblocked
  simp [hhistory, readBlocked] at hblocked

theorem writeQuiet (h : system.Reachable session) (port : Port) : session.WriteQuiet port := by
  refine h.invariant (I := fun session => session.WriteQuiet port) ?_
    fun session call next hreach hquiet hstep => writeQuiet_step hreach hquiet hstep
  rintro session ⟨-, hhistory⟩ hblocked
  simp [hhistory, writeBlocked] at hblocked

end Session

/-- An end that is still asleep after an operation that would block would block again. -/
theorem bareQueue_no_lost_wakeup (session : Session) (h : Session.system.Reachable session)
    (port : Port) (hhears : session.queue.Hears port) :
    (Session.readBlocked port session.history = true →
      bareQueueRingEmpty (bareQueueInbox session.queue port) = true ∧
        ¬ EndState.ended ≤ bareQueuePeerState session.queue port ∧
        (bareQueueRead session.queue port).result = .wouldBlock) ∧
    (Session.writeBlocked port session.history = true →
      bareQueueRingFull (bareQueueOutbox session.queue port) = true ∧
        bareQueuePeerState session.queue port ≠ .closed ∧
        ∀ addr data, data ≠ [] →
          (bareQueueWrite session.queue port addr data).result = bareQueueWouldBlock) := by
  have hwell := Session.wellFormed h
  constructor
  · intro hblocked
    obtain ⟨hinbox, hfin⟩ := (Session.readQuiet h port hblocked).2 hhears
    refine ⟨(hwell.ring port).empty_iff.mpr hinbox, ?_, ?_⟩
    · rwa [← Queue.channel_finished]
    · rw [hwell.read_result, Channel.receiveResult, hinbox]
      simp [hfin]
  · intro hblocked
    obtain ⟨hrefused, hfull⟩ := (Session.writeQuiet h port hblocked).2 hhears
    refine ⟨?_, ?_, fun addr data hdata => ?_⟩
    · rw [bareQueueOutbox_eq_inbox]
      exact (hwell.ring port.peer).full_iff.mpr hfull
    · intro hclosed
      exact hrefused ((Queue.channel_refused port).mpr (Or.inr hclosed))
    · rw [hwell.write_result port addr data hdata, Channel.sendResult_blocked.mpr ⟨hrefused, hfull⟩]

/-- The host reads before the worklet has written anything, and writes what the worklet
reads. -/
def Session.asleep : Session :=
  Session.system.result ⟨bareQueueCreate Slots.blank Slots.blank, []⟩
    [.openUv none none, .openThread (some 0) none, .read .thread, .write .thread 1 [7],
      .read .uv] rfl

def Session.openedUv : Session :=
  Session.system.result ⟨bareQueueCreate Slots.blank Slots.blank, []⟩ [.openUv none none] rfl

structure Session.Filling (session : Session) (n : Nat) : Prop where
  uv : session.queue.channel.state .uv = .opened
  thread : session.queue.channel.state .thread = .idle
  queued : (session.queue.channel.inbox .thread).length = n

namespace Session

variable {session : Session} {n : Nat}

theorem Filling.refused (h : session.Filling n) : ¬ session.queue.channel.Refused .uv := by
  simp only [Channel.Refused, Port.peer, h.uv, h.thread]
  decide

theorem Filling.step (h : session.Filling n) : ∃ next,
    system.step session (.write .uv 0 [0]) = some next :=
  ⟨_, step_eq_some.mpr ⟨by
    have hopened : bareQueueState session.queue .uv = .opened := h.uv
    simp [Call.Enabled, hopened], rfl⟩⟩

theorem filled {n : Nat} (hroom : n ≤ Channel.bound) :
    ∃ session, system.Reachable session ∧ session.Filling n := by
  induction n with
  | zero =>
    exact ⟨openedUv, .result (S := system) ⟨⟨_, _, rfl⟩, rfl⟩ _ _, by constructor <;> decide⟩
  | succ n ih =>
    obtain ⟨session, hreach, hfilling⟩ := ih (by omega)
    obtain ⟨next, hstep⟩ := hfilling.step
    have haccepted : session.queue.channel.sendResult .uv = .accepted :=
      Channel.sendResult_accepted.mpr ⟨hfilling.refused, by
        simp only [Channel.outbox, Port.peer, hfilling.queued]
        omega⟩
    have hchannel : next.queue.channel = session.queue.channel.send .uv ⟨0, [0].take intMax⟩ :=
      (step_channel hreach hstep).1
    refine ⟨next, hreach.next _ hstep, ?_, ?_, ?_⟩
    · rw [hchannel, Channel.send_state, hfilling.uv]
    · rw [hchannel, Channel.send_state, hfilling.thread]
    · have hinbox := session.queue.channel.send_inbox_peer .uv ⟨0, [0].take intMax⟩ haccepted
      simp only [Port.peer] at hinbox
      rw [hchannel, hinbox, List.length_append, hfilling.queued, List.length_singleton]

theorem overfilled : ∃ session, system.Reachable session ∧ session.queue.Hears .uv ∧
    writeBlocked .uv session.history = true := by
  obtain ⟨session, hreach, hfilling⟩ := filled le_rfl
  have hblocked : session.queue.channel.sendResult .uv = .blocked :=
    Channel.sendResult_blocked.mpr ⟨hfilling.refused, hfilling.queued⟩
  have hwritten : bareQueueWrite session.queue .uv 0 [0] =
      ⟨session.queue, bareQueueWouldBlock, none, some ⟨0, [0]⟩⟩ := by
    rcases (wellFormed hreach).write_cases .uv 0 [0] (by decide) with
      ⟨hs, _⟩ | ⟨_, hw⟩ | ⟨hs, _⟩
    · simp [hs] at hblocked
    · simp [hw, Queue.offered, intMax]
    · simp [hs] at hblocked
  have hwake : (bareQueueOpenThread session.queue (some 0) none).wake ≠ some .uv := by
    unfold bareQueueOpenThread bareQueueSignalThread
    dsimp only
    split <;> simp
  obtain ⟨written, hwrite⟩ := hfilling.step
  have hreach' := hreach.next _ hwrite
  obtain ⟨-, rfl⟩ := step_eq_some.mp hwrite
  simp only [Queue.call, Outcome.answer, hwritten] at hreach'
  refine ⟨_, hreach'.next (.openThread (some 0) none) (step_eq_some.mpr ⟨trivial, rfl⟩), ?_, ?_⟩
  · refine ⟨?_, fun hthread => by contradiction⟩
    have hstate : (bareQueueOpenThread session.queue (some 0) none).queue.channel.state .uv =
        .opened := by
      rw [Queue.channel_openThread, if_neg (by simp [hfilling.thread]), Channel.setState]
      exact hfilling.uv
    exact bareQueueListening_iff.mpr (Or.inl hstate)
  · simp [writeBlocked, event, hwritten, Queue.call, Outcome.answer, hwake]

end Session

theorem bareQueue_no_lost_wakeup_asleep :
    (bareQueueRingEmpty (bareQueueInbox Session.asleep.queue .thread) = true ∧
      ¬ EndState.ended ≤ bareQueuePeerState Session.asleep.queue .thread ∧
      (bareQueueRead Session.asleep.queue .thread).result = .wouldBlock) ∧
    ∃ session, Session.system.Reachable session ∧
      Session.writeBlocked .uv session.history = true ∧
      bareQueueRingFull (bareQueueOutbox session.queue .uv) = true ∧
      ∀ addr data, data ≠ [] →
        (bareQueueWrite session.queue .uv addr data).result = bareQueueWouldBlock := by
  constructor
  · have hreach : Session.system.Reachable Session.asleep :=
      Transition.System.Reachable.result (S := Session.system) ⟨⟨_, _, rfl⟩, rfl⟩ _ _
    exact (bareQueue_no_lost_wakeup Session.asleep hreach .thread (by decide)).1 (by decide)
  · obtain ⟨session, hreach, hhears, hblocked⟩ := Session.overfilled
    obtain ⟨hfull, -, hretry⟩ := (bareQueue_no_lost_wakeup session hreach .uv hhears).2 hblocked
    exact ⟨session, hreach, hblocked, hfull, hretry⟩

end BareKit
