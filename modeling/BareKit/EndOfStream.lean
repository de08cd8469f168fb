import Mathlib.Data.Nat.Cast.Order.Ring
import BareKit.History

/-! The end of the stream is complete and final, and ending is a half-close. The
end of the stream is no marker in the ring: it is what an empty ring means once the
peer has ended, so completeness is a law about everything ever accepted. -/
namespace BareKit

namespace Channel

variable (channel : Channel Buffer) (port : Port) (wake : Option Port)

theorem sent_write (writer : Port) (addr : Pointer) (data : Bytes) :
    Event.sent port.peer ⟨.write writer addr data,
      (machine channel (.write writer addr data)).2, wake⟩ =
      if data ≠ [] ∧ writer = port.peer ∧ channel.sendResult writer = .accepted then
        [data.take intMax]
      else [] := by
  by_cases hdata : data = []
  · simp [Event.sent, machine, hdata]
  · have hpos : 0 < min data.length intMax :=
      Nat.lt_min.mpr ⟨List.length_pos_iff.mpr hdata, by decide⟩
    have htake := Queue.take_offered data
    unfold Queue.offered at htake
    cases hs : channel.sendResult writer <;>
      simp [-Nat.cast_min, Event.sent, machine, hdata, hs, sendCount, bareQueueClosed,
        bareQueueWouldBlock, htake]
    simp [show 0 < data.length ∧ 0 < intMax from Nat.lt_min.mp hpos]

/-- What a call adds to the bytes towards a port is what it adds to the inbox and to
what the port has read. -/
theorem machine_accounted (call : Call) :
    Event.received port ⟨call, (machine channel call).2, wake⟩ ++
        ((machine channel call).1.inbox port).map Buffer.bytes =
      (channel.inbox port).map Buffer.bytes ++
        Event.sent port.peer ⟨call, (machine channel call).2, wake⟩ := by
  cases call with
  | openUv _ _ => simp [Event.received, Event.sent, machine]
  | openThread _ _ => simp only [Event.received, Event.sent, machine]; split <;> simp
  | endPort _ => simp [Event.received, Event.sent, machine]
  | closePort _ => simp [Event.received, Event.sent, machine]
  | readable _ => simp [Event.received, Event.sent, machine]
  | writable _ => simp [Event.received, Event.sent, machine]
  | write writer addr data =>
    rw [sent_write]
    by_cases hdata : data = []
    · simp [Event.received, machine, hdata]
    · simp only [Event.received, machine, hdata, if_false, List.nil_append]
      rcases port.eq_or_eq_peer writer with rfl | rfl
      · simp
      · by_cases hs : channel.sendResult port.peer = .accepted
        · have hinbox := channel.send_inbox_peer port.peer ⟨addr, data.take intMax⟩ hs
          rw [Port.peer_peer] at hinbox
          simp [hinbox, hs, hdata]
        · simp [channel.send_eq_self port.peer _ hs, hs]
  | read reader =>
    rcases port.eq_or_eq_peer reader with rfl | rfl
    · cases hinbox : channel.inbox reader with
      | nil =>
        by_cases hfin : channel.Finished reader <;>
          simp [Event.received, Event.sent, machine, receiveResult, receiveAnswer, hinbox, hfin]
      | cons buffer rest =>
        simp [Event.received, Event.sent, machine, receiveResult, receiveAnswer, hinbox]
    · have hinbox : (channel.receive port.peer).inbox port = channel.inbox port := by
        simpa using channel.receive_inbox_peer port.peer
      cases hpeer : channel.inbox port.peer with
      | nil =>
        by_cases hfin : channel.Finished port.peer <;>
          simp [Event.received, Event.sent, machine, receiveResult, receiveAnswer, hpeer, hfin,
            hinbox]
      | cons buffer rest =>
        simp [Event.received, Event.sent, machine, receiveResult, receiveAnswer, hpeer, hinbox]

theorem sent_of_finished (hfin : channel.Finished port) (call : Call) :
    Event.sent port.peer ⟨call, (machine channel call).2, wake⟩ = [] := by
  have hclosed : channel.sendResult port.peer = .closed := sendResult_closed.mpr (Or.inl hfin)
  cases call with
  | write writer addr data =>
    rw [sent_write, if_neg]
    rintro ⟨-, rfl, haccepted⟩
    simp [hclosed] at haccepted
  | _ => simp [Event.sent]

/-- Two channels that a half-close of the port makes different: its own end, and what
that end may have written. -/
structure HalfClosed (port : Port) (left right : Channel Buffer) : Prop where
  inbox : left.inbox port = right.inbox port
  peer : left.state port.peer = right.state port.peer
  closed_iff : left.state port = .closed ↔ right.state port = .closed
  left_used : left.state port ≠ .idle
  right_used : right.state port ≠ .idle

section HalfClosed

variable {port} {left right : Channel Buffer} {call : Call}

theorem HalfClosed.refl (hused : channel.state port ≠ .idle) : HalfClosed port channel channel :=
  ⟨rfl, rfl, Iff.rfl, hused, hused⟩

theorem HalfClosed.sendResult (h : HalfClosed port left right) :
    left.sendResult port.peer = right.sendResult port.peer := by
  have hrefused : left.Refused port.peer ↔ right.Refused port.peer := by
    simp only [Refused, Port.peer_peer, h.peer, h.closed_iff]
  simp only [Channel.sendResult, Channel.outbox, Port.peer_peer, h.inbox, hrefused]

theorem HalfClosed.receiveResult (h : HalfClosed port left right) :
    left.receiveResult port = right.receiveResult port := by
  have hfinished : left.Finished port ↔ right.Finished port := by simp only [Finished, h.peer]
  simp only [Channel.receiveResult, h.inbox, hfinished]

theorem HalfClosed.setState_peer (h : HalfClosed port left right) (state : EndState) :
    HalfClosed port (left.setState port.peer state) (right.setState port.peer state) := by
  have hself : ∀ channel : Channel Buffer,
      (channel.setState port.peer state).state port = channel.state port := by
    intro channel
    simpa using channel.setState_state_peer port.peer state
  refine ⟨h.inbox, by simp, ?_, ?_, ?_⟩
  · simpa only [hself] using h.closed_iff
  · simpa only [hself] using h.left_used
  · simpa only [hself] using h.right_used

theorem HalfClosed.advance_self (h : HalfClosed port left right) (state : EndState)
    (hstate : EndState.ended ≤ state) :
    HalfClosed port (left.advance port state) (right.advance port state) := by
  refine ⟨by simpa using h.inbox, by simpa using h.peer, ?_, ?_, ?_⟩
  · have hiff := h.closed_iff
    have hleft := h.left_used
    have hright := h.right_used
    simp only [advance_state_self]
    revert hiff hleft hright hstate
    cases left.state port <;> cases right.state port <;> cases state <;> decide
  · have hleft := h.left_used
    rw [advance_state_self]
    revert hleft hstate
    cases left.state port <;> cases state <;> decide
  · have hright := h.right_used
    rw [advance_state_self]
    revert hright hstate
    cases right.state port <;> cases state <;> decide

theorem HalfClosed.advance_peer (h : HalfClosed port left right) (state : EndState) :
    HalfClosed port (left.advance port.peer state) (right.advance port.peer state) := by
  have hpeer := h.peer
  unfold Channel.advance
  rw [hpeer]
  split
  · exact h.setState_peer state
  · exact h

theorem HalfClosed.advance (h : HalfClosed port left right) (advancing : Port) (state : EndState)
    (hstate : EndState.ended ≤ state) :
    HalfClosed port (left.advance advancing state) (right.advance advancing state) := by
  rcases port.eq_or_eq_peer advancing with rfl | rfl
  · exact h.advance_self state hstate
  · exact h.advance_peer state

end HalfClosed

end Channel

def Call.feeds (port : Port) : Call → Bool
  | .write writer _ _ => writer == port.peer
  | .read reader => reader == port
  | _ => false

namespace Channel

variable {port : Port} {left right : Channel Buffer} {call : Call}

theorem HalfClosed.write (h : HalfClosed port left right) (writer : Port) (addr : Pointer)
    (data : Bytes) :
    HalfClosed port (machine left (.write writer addr data)).1
        (machine right (.write writer addr data)).1 ∧
      (writer = port.peer → (machine left (.write writer addr data)).2 =
        (machine right (.write writer addr data)).2) := by
  have hsend := h.sendResult
  by_cases hdata : data = []
  · simpa [machine, hdata] using h
  · simp only [machine, hdata, if_false]
    rcases port.eq_or_eq_peer writer with rfl | rfl
    · refine ⟨⟨by simpa using h.inbox, by simpa using h.peer, ?_, ?_, ?_⟩, by simp⟩
      · simpa using h.closed_iff
      · simpa using h.left_used
      · simpa using h.right_used
    · refine ⟨⟨?_, by simpa using h.peer, by simpa using h.closed_iff, by simpa using h.left_used,
        by simpa using h.right_used⟩, by simp [hsend]⟩
      simp only [send, outbox, hsend, Port.peer_peer, h.inbox]
      split
      · simp
      · exact h.inbox

theorem HalfClosed.read (h : HalfClosed port left right) (reader : Port) :
    HalfClosed port (left.receive reader) (right.receive reader) := by
  refine ⟨?_, h.peer, h.closed_iff, h.left_used, h.right_used⟩
  rcases port.eq_or_eq_peer reader with rfl | rfl
  · simp [h.inbox]
  · have hleft := left.receive_inbox_peer port.peer
    have hright := right.receive_inbox_peer port.peer
    rw [Port.peer_peer] at hleft hright
    rw [hleft, hright, h.inbox]

theorem HalfClosed.machine (h : HalfClosed port left right) (henabled : call.Enabled left.state) :
    call.Enabled right.state ∧
      HalfClosed port (Channel.machine left call).1 (Channel.machine right call).1 ∧
      (call.feeds port = true →
        (Channel.machine left call).2 = (Channel.machine right call).2) := by
  have hused : ∀ other, left.state other ≠ .idle → right.state other ≠ .idle := by
    intro other hother
    rcases port.eq_or_eq_peer other with rfl | rfl
    · exact h.right_used
    · rwa [← h.peer]
  cases call with
  | openUv _ _ =>
    rcases port.eq_or_eq_peer .uv with rfl | huv
    · exact absurd henabled h.left_used
    · have hidle : left.state .uv = .idle := henabled
      rw [huv, h.peer, ← huv] at hidle
      refine ⟨hidle, ?_, fun _ => rfl⟩
      simp only [Channel.machine]
      rw [huv]
      exact h.setState_peer .opened
  | openThread _ _ =>
    refine ⟨trivial, ?_, by simp [Call.feeds]⟩
    rcases port.eq_or_eq_peer .thread with rfl | hthread
    · simpa [Channel.machine, h.left_used, h.right_used] using h
    · simp only [Channel.machine]
      rw [hthread, h.peer]
      split
      · exact h
      · exact h.setState_peer .opened
  | write writer addr data =>
    obtain ⟨hnext, hanswer⟩ := h.write writer addr data
    exact ⟨hused writer henabled, hnext, fun hfeeds => hanswer (by simpa [Call.feeds] using hfeeds)⟩
  | read reader =>
    refine ⟨hused reader henabled, h.read reader, fun hfeeds => ?_⟩
    have hreader : reader = port := by simpa [Call.feeds] using hfeeds
    simp only [Channel.machine, hreader, h.receiveResult]
  | endPort ending =>
    exact ⟨hused ending henabled, h.advance ending .ended (by decide), fun _ => rfl⟩
  | closePort closing => exact ⟨trivial, h.advance closing .closed (by decide), fun _ => rfl⟩
  | readable other => exact ⟨hused other henabled, h, by simp [Call.feeds]⟩
  | writable other => exact ⟨hused other henabled, h, by simp [Call.feeds]⟩

end Channel

namespace Session

variable {session next : Session} {call : Call}

/-- Everything a port's peer got accepted was read by the port or is still queued. -/
def Accounted (session : Session) : Prop :=
  ∀ port, sent port.peer session.history =
    received port session.history ++ (session.queue.channel.inbox port).map Buffer.bytes

theorem accounted_step (h : system.Reachable session) (hacc : session.Accounted)
    (hstep : system.step session call = some next) : next.Accounted := by
  obtain ⟨hchannel, hhistory, hanswer⟩ := step_channel h hstep
  have hevent : event session.queue call =
      ⟨call, (Channel.machine session.queue.channel call).2, (event session.queue call).wake⟩ := by
    rw [← hanswer]
    rfl
  intro port
  have hcall := Channel.machine_accounted session.queue.channel port
    (event session.queue call).wake call
  rw [hhistory, hchannel, sent, received, hevent, hacc port, List.append_assoc,
    List.append_assoc, hcall]

theorem accounted (h : system.Reachable session) : session.Accounted := by
  refine h.invariant ?_ fun session call next hreach hacc hstep => accounted_step hreach hacc hstep
  rintro session ⟨⟨toUv, toThread, hqueue⟩, hhistory⟩ port
  rw [hqueue, hhistory, (Queue.refines_create toUv toThread).2]
  rfl

def Drained (port : Port) (session : Session) : Prop :=
  session.queue.channel.inbox port = [] ∧ session.queue.channel.Finished port

theorem read_len_eq_zero (h : system.Reachable session) {port : Port} {message : Message}
    (hread : (bareQueueRead session.queue port).result = .ok message) :
    message.len = 0 ↔ session.Drained port := by
  have hwell := wellFormed h
  rcases hwell.read_cases port with ⟨buffer, rest, _, hinbox, _, _, hr⟩ | ⟨hinbox, hfin, hr⟩ |
    ⟨_, _, hr⟩
  · have hmem : buffer ∈ (bareQueueInbox session.queue port).buffers := by
      rw [← Queue.channel_inbox, hinbox]
      simp
    have hsized := (hwell.ring port).sized hmem
    rw [hr] at hread
    cases hread
    have hlen : buffer.message.len ≠ 0 := Nat.pos_iff_ne_zero.mp hsized.1
    simp [hlen, Drained, hinbox]
  · rw [hr] at hread
    cases hread
    simp [Drained, hinbox, hfin]
  · rw [hr] at hread
    cases hread

theorem Drained.read {port : Port} (h : system.Reachable session)
    (hdrained : session.Drained port) :
    (bareQueueRead session.queue port).result = .ok ⟨none, 0⟩ := by
  rw [(wellFormed h).read_result, Channel.receiveResult, hdrained.1]
  simp [hdrained.2]

theorem drained_step {port : Port} (h : system.Reachable session) (hdrained : session.Drained port)
    (hstep : system.step session call = some next) :
    next.Drained port ∧ sent port.peer next.history = sent port.peer session.history := by
  obtain ⟨hinbox, hfin⟩ := hdrained
  have henabled := (step_eq_some.mp hstep).1
  obtain ⟨hchannel, hhistory, hanswer⟩ := step_channel h hstep
  have hevent : event session.queue call =
      ⟨call, (Channel.machine session.queue.channel call).2, (event session.queue call).wake⟩ := by
    rw [← hanswer]
    rfl
  have hsent := Channel.sent_of_finished session.queue.channel port
    (event session.queue call).wake hfin call
  have hcall := Channel.machine_accounted session.queue.channel port
    (event session.queue call).wake call
  rw [hsent, hinbox] at hcall
  refine ⟨⟨?_, ?_⟩, ?_⟩
  · rw [hchannel]
    simpa using (List.append_eq_nil_iff.mp hcall).2
  · have hle := Channel.machine_state_le session.queue.channel henabled port.peer
    rw [← hchannel] at hle
    exact Nat.le_trans hfin hle
  · rw [hhistory, sent, hevent, hsent, List.append_nil]

/-- What the peer's writes and the port's own reads were answered. -/
def observed (port : Port) (history : List Event) : List (Call × Answer) :=
  (history.filter fun event => event.call.feeds port).map fun event => (event.call, event.answer)

theorem observed_cons (port : Port) (event : Event) (history : List Event) :
    observed port (event :: history) =
      if event.call.feeds port then (event.call, event.answer) :: observed port history
      else observed port history := by
  unfold observed
  split <;> simp_all

theorem halfClosed_run {port : Port} {left right next : Session} (hleft : system.Reachable left)
    (hright : system.Reachable right)
    (hclosed : Channel.HalfClosed port left.queue.channel right.queue.channel)
    (hobserved : observed port left.history = observed port right.history) {calls : List Call}
    (hrun : system.run left calls = some next) :
    ∃ other, system.run right calls = some other ∧
      observed port next.history = observed port other.history := by
  induction calls generalizing left right with
  | nil =>
    cases Option.some.inj hrun
    exact ⟨right, rfl, hobserved⟩
  | cons call rest ih =>
    obtain ⟨left', hstep, hrest⟩ := Option.bind_eq_some_iff.mp hrun
    have henabled : call.Enabled left.queue.channel.state := (step_eq_some.mp hstep).1
    obtain ⟨henabled', hclosed', hanswer⟩ := hclosed.machine henabled
    have hstep' := step_eq_some.mpr ⟨henabled', rfl⟩
    obtain ⟨hchannel, hhistory, heq⟩ := step_channel hleft hstep
    obtain ⟨hchannel', hhistory', heq'⟩ := step_channel hright hstep'
    rw [← hchannel, ← hchannel'] at hclosed'
    have hobserved' : observed port left'.history =
        observed port (event right.queue call :: right.history) := by
      rw [hhistory, observed_cons, observed_cons, hobserved, heq, heq']
      by_cases hfeeds : call.feeds port = true
      · simp only [event, hfeeds, if_true, hanswer hfeeds]
      · simp [event, hfeeds]
    obtain ⟨other, hother, hfinal⟩ := ih (hleft.next call hstep) (hright.next call hstep') hclosed'
      hobserved' hrest
    exact ⟨other, by rw [Transition.System.run_cons, hstep']; exact hother, hfinal⟩

theorem Drained.run {port : Port} (h : system.Reachable session) (hdrained : session.Drained port)
    {calls : List Call} (hrun : system.run session calls = some next) :
    next.Drained port ∧ sent port.peer next.history = sent port.peer session.history := by
  refine h.persists (P := fun other => other.Drained port ∧
    sent port.peer other.history = sent port.peer session.history) ⟨hdrained, rfl⟩ ?_ hrun
  rintro session' call next' hreach ⟨hdrained', hsent⟩ hstep
  obtain ⟨hnext, hsame⟩ := drained_step hreach hdrained' hstep
  exact ⟨hnext, hsame.trans hsent⟩

theorem halfClosed_endPort {port : Port} (hused : bareQueueState session.queue port ≠ .idle) :
    Channel.HalfClosed port (session.queue.channel.advance port .ended) session.queue.channel := by
  have hstate : session.queue.channel.state port ≠ .idle := hused
  refine ⟨by simp, by simp, ?_, ?_, hstate⟩
  all_goals
    rw [Channel.advance_state_self]
    revert hstate
    cases session.queue.channel.state port <;> decide

theorem endPort_run {port : Port} (h : system.Reachable session) {calls : List Call}
    (hrun : system.run session (.endPort port :: calls) = some next) :
    ∃ other, system.run session calls = some other ∧
      observed port next.history = observed port other.history := by
  obtain ⟨ended, hstep, hrest⟩ := Option.bind_eq_some_iff.mp hrun
  have hused := (step_eq_some.mp hstep).1
  obtain ⟨hchannel, hhistory, -⟩ := step_channel h hstep
  refine halfClosed_run (h.next _ hstep) h ?_ ?_ hrest
  · rw [hchannel]
    exact halfClosed_endPort hused
  · rw [hhistory, observed_cons]
    rfl

theorem write_of_refused (h : system.Reachable session) {port : Port} (addr : Pointer)
    {data : Bytes} (hdata : data ≠ []) (hrefused : session.queue.channel.Refused port) :
    (bareQueueWrite session.queue port addr data).result = bareQueueClosed := by
  rw [(wellFormed h).write_result port addr data hdata, Channel.sendResult_closed.mpr hrefused]

theorem read_of_closed (h : system.Reachable session) {port : Port}
    (hclosed : bareQueueState session.queue port = .closed) :
    (bareQueueRead session.queue port.peer).result ≠ .wouldBlock := by
  have hfin : session.queue.channel.Finished port.peer := by
    rw [Channel.Finished, Port.peer_peer, Queue.channel_state, hclosed]
    decide
  rw [(wellFormed h).read_result, Channel.receiveResult]
  simp only [hfin, if_true]
  cases session.queue.channel.inbox port.peer <;> simp

end Session

/-- What the end of the stream means, in every state that the two ends can reach. -/
theorem bareQueue_endOfStream (session : Session) (h : Session.system.Reachable session)
    (port : Port) :
    (∀ calls next, Session.system.run session calls = some next → ∀ other,
      bareQueueState session.queue other ≤ bareQueueState next.queue other) ∧
    (∀ message, (bareQueueRead session.queue port).result = .ok message → message.len = 0 →
      EndState.ended ≤ bareQueuePeerState session.queue port ∧
        Session.sent port.peer session.history = Session.received port session.history ∧
        ∀ calls next, Session.system.run session calls = some next →
          (bareQueueRead next.queue port).result = .ok ⟨none, 0⟩ ∧
            bareQueueRingEmpty (bareQueueInbox next.queue port) = true ∧
            Session.sent port.peer next.history = Session.sent port.peer session.history) ∧
    (bareQueueRingEmpty (bareQueueInbox session.queue port) = false →
      ∃ message, (bareQueueRead session.queue port).result = .ok message ∧ 0 < message.len) ∧
    (EndState.ended ≤ bareQueueState session.queue port → ∀ addr data, data ≠ [] →
      (bareQueueWrite session.queue port addr data).result = bareQueueClosed) ∧
    (∀ calls next, Session.system.run session (.endPort port :: calls) = some next →
      ∃ other, Session.system.run session calls = some other ∧
        Session.observed port next.history = Session.observed port other.history) ∧
    (bareQueueState session.queue port = .closed →
      (bareQueueRead session.queue port.peer).result ≠ .wouldBlock ∧
        ∀ addr data, data ≠ [] →
          (bareQueueWrite session.queue port.peer addr data).result = bareQueueClosed) := by
  have hwell := Session.wellFormed h
  refine ⟨fun calls next hrun other => Session.run_state_le h hrun other, ?_, ?_, ?_,
    fun calls next hrun => Session.endPort_run h hrun, ?_⟩
  · intro message hread hlen
    have hdrained := (Session.read_len_eq_zero h hread).mp hlen
    refine ⟨(Queue.channel_finished port).mp hdrained.2, ?_, ?_⟩
    · have hacc := Session.accounted h port
      rwa [hdrained.1, List.map_nil, List.append_nil] at hacc
    · intro calls next hrun
      obtain ⟨hnext, hsent⟩ := hdrained.run h hrun
      have hreach := h.run hrun
      exact ⟨hnext.read hreach, ((Session.wellFormed hreach).ring port).empty_iff.mpr hnext.1,
        hsent⟩
  · intro hnonempty
    have hinbox : session.queue.channel.inbox port ≠ [] := by
      intro hnil
      have := (hwell.ring port).empty_iff.mpr hnil
      simp [this] at hnonempty
    rcases hwell.read_cases port with ⟨buffer, rest, next, hcons, _, _, hr⟩ | ⟨hnil, _⟩ | ⟨hnil, _⟩
    · refine ⟨buffer.message, by rw [hr], ?_⟩
      exact ((hwell.ring port).sized (by rw [← Queue.channel_inbox, hcons]; simp)).1
    · exact absurd hnil hinbox
    · exact absurd hnil hinbox
  · intro hended addr data hdata
    exact Session.write_of_refused h addr hdata (Or.inl hended)
  · intro hclosed
    refine ⟨Session.read_of_closed h hclosed, fun addr data hdata => ?_⟩
    refine Session.write_of_refused h addr hdata (Or.inr ?_)
    rw [Port.peer_peer]
    exact hclosed

def Session.finished : Session :=
  Session.system.result ⟨bareQueueCreate Slots.blank Slots.blank, []⟩
    [.openUv none none, .openThread (some 0) none, .write .uv 0 [7], .read .thread,
      .endPort .uv] rfl

theorem bareQueue_endOfStream_finished :
    Session.sent .uv Session.finished.history = [[7]] ∧
      Session.sent .uv Session.finished.history =
        Session.received .thread Session.finished.history := by
  refine ⟨by decide, ?_⟩
  have hreach : Session.system.Reachable Session.finished :=
    Transition.System.Reachable.result (S := Session.system) ⟨⟨_, _, rfl⟩, rfl⟩ _ _
  exact ((bareQueue_endOfStream Session.finished hreach .thread).2.1 ⟨none, 0⟩
    (by decide) rfl).2.1

end BareKit
