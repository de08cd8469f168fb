import BareKit.ByteStream
import BareKit.Poll

/-! The wire as the host sees it: what each step of the worklet changes about what is
readable and writable, and when it signals. -/
namespace BareKit

/-- The steps of the worklet's thread, and of a host that destroys one that never started. -/
def Step.ofWorklet : Step → Bool
  | .write _ _ | .final | .read | .onsignal | .retry _ | .drain _ => true
  | .openUv _ _ | .exit | .abandon | .destroy => true
  | _ => false

namespace Wire

variable {wire next : Wire} {ipc : Ipc} {label : Step}

/-- Something is left for a read to return: the rest of a message, a message, or the end
of the stream. -/
def Unread (wire : Wire) : Prop :=
  (∃ ipc, wire.ipc = some ipc ∧ ipc.pending.base ≠ none) ∨
    bareQueueRingEmpty (bareQueueInbox wire.queue .thread) = false ∨
    (EndState.ended ≤ bareQueuePeerState wire.queue .thread ∧ wire.log.receivedEnd = false)

structure Frames (wire next : Wire) : Prop where
  ipc : next.ipc = wire.ipc
  held : next.held = wire.held
  threadState : next.queue.threadState = wire.queue.threadState
  onSignalThread : next.queue.onSignalThread = wire.queue.onSignalThread
  receivedEnd : next.log.receivedEnd = wire.log.receivedEnd

/-- What a step of the worklet does to the host: it signals exactly where `rouses` says,
and where it could signal and does not, nothing becomes readable or writable by it. -/
structure Seen (wire next : Wire) (roused : Bool) : Prop extends Frames wire next where
  wakeThread : next.wakeThread =
    (wire.wakeThread || roused && wire.queue.onSignalThread.isSome)
  unread : roused = false → bareQueueListening wire.queue.threadState = true →
    next.Unread → wire.Unread
  hostWritable : roused = false → bareQueueListening wire.queue.threadState = true →
    next.hostWritable = true → wire.hostWritable = true

theorem Frames.refl : Frames wire wire := ⟨rfl, rfl, rfl, rfl, rfl⟩

theorem Frames.seen (h : Frames wire next) (hwake : next.wakeThread = wire.wakeThread)
    (htoUv : next.queue.toUv = wire.queue.toUv)
    (htoThread : next.queue.toThread = wire.queue.toThread)
    (hstate : next.queue.uvState = wire.queue.uvState ∨
      wire.queue.uvState = .idle ∧ next.queue.uvState = .opened) : Seen wire next false := by
  have hended : EndState.ended ≤ next.queue.uvState ↔ EndState.ended ≤ wire.queue.uvState := by
    rcases hstate with hsame | ⟨hidle, hopened⟩
    · rw [hsame]
    · rw [hidle, hopened]
      decide
  have hclosed : (next.queue.uvState == .closed) = (wire.queue.uvState == .closed) := by
    rcases hstate with hsame | ⟨hidle, hopened⟩
    · rw [hsame]
    · rw [hidle, hopened]
      rfl
  refine ⟨h, by simp [hwake], fun _ _ hunread => ?_, fun _ _ hwritable => ?_⟩
  · simp only [Unread, bareQueueInbox, bareQueuePeerState, h.ipc, htoThread, h.receivedEnd,
      hended] at hunread
    exact hunread
  · simp only [hostWritable, h.ipc, bareQueueWritable, bareQueueOutbox, bareQueueState,
      bareQueuePeerState, htoUv, h.threadState, hclosed] at hwritable
    exact hwritable

theorem signalThread_beq (queue : Queue) : (bareQueueSignalThread queue == some .thread) =
    (bareQueueListening queue.threadState && queue.onSignalThread.isSome) := by
  unfold bareQueueSignalThread
  cases bareQueueListening queue.threadState && queue.onSignalThread.isSome <;> rfl

theorem seen_advance (wire : Wire) (state : EndState) (outcome : Outcome Bool)
    (houtcome : outcome = bareQueueAdvance wire.queue .uv state) :
    Seen wire (wire.apply outcome) (bareQueueListening wire.queue.threadState) := by
  subst houtcome
  have hframe : Frames wire (wire.apply (bareQueueAdvance wire.queue .uv state)) := by
    have hthread :
        (bareQueueAdvance wire.queue .uv state).queue.threadState = wire.queue.threadState :=
      Queue.advance_state_peer .uv state
    exact ⟨rfl, rfl, hthread, Queue.advance_onSignalThread .uv state, rfl⟩
  have hwake : (bareQueueAdvance wire.queue .uv state).wake =
      bareQueueSignalThread (wire.apply (bareQueueAdvance wire.queue .uv state)).queue := rfl
  refine ⟨hframe, ?_, fun hsilent hlistening => ?_, fun hsilent hlistening => ?_⟩
  · have hbeq := signalThread_beq (wire.apply (bareQueueAdvance wire.queue .uv state)).queue
    rw [hframe.threadState, hframe.onSignalThread, ← hwake] at hbeq
    rw [← hbeq]
    rfl
  · cases hlistening.symm.trans hsilent
  · cases hlistening.symm.trans hsilent

theorem seen_send (wire : Wire) (hwell : wire.queue.WellFormed) (stream : IPCStream)
    (addr : Pointer)
    (chunk : Bytes) (cb : Nat) : Seen wire (wire.send stream addr chunk cb)
      (bareQueueListening wire.queue.threadState && wire.first chunk) := by
  have hfirst : ∀ result, wire.queue.channel.sendResult .uv = result → result ≠ .accepted →
      wire.first chunk = false := by
    intro result hresult hne
    by_contra htrue
    simp only [first, Bool.not_eq_false, Bool.and_eq_true, Bool.not_eq_true', bne_iff_ne, ne_eq,
      decide_eq_false_iff_not] at htrue
    obtain ⟨⟨⟨_, hopen⟩, hpeer⟩, hempty⟩ := htrue
    have hnil := (hwell.ring .thread).empty_iff.mp hempty
    have haccepted : wire.queue.channel.sendResult .uv = .accepted := by
      rw [Channel.sendResult_accepted, Channel.outbox, Port.peer, Queue.channel_inbox, hnil]
      refine ⟨?_, by decide⟩
      rintro (hended | hclosed)
      · exact hopen hended
      · exact hpeer hclosed
    exact hne (hresult.symm.trans haccepted)
  unfold Wire.send
  rcases IPCStream.send_cases stream addr chunk cb hwell with
    ⟨hnil, _, hs⟩ | ⟨_, hclosed, freed, _, hs⟩ | ⟨_, hblocked, freed, _, hs⟩ |
    ⟨hchunk, haccepted, ring, hring, hbuffers, wake, hwake, _, hs⟩
  · rw [hs]
    have hnot : wire.first chunk = false := by simp [first, hnil]
    rw [hnot, Bool.and_false]
    exact Frames.seen ⟨rfl, rfl, rfl, rfl, rfl⟩ (by simp [apply]) rfl rfl (Or.inl rfl)
  · rw [hs, hfirst _ hclosed (by decide), Bool.and_false]
    exact Frames.seen ⟨rfl, rfl, rfl, rfl, rfl⟩ (by simp [apply]) rfl rfl (Or.inl rfl)
  · rw [hs, hfirst _ hblocked (by decide), Bool.and_false]
    exact Frames.seen ⟨rfl, rfl, rfl, rfl, rfl⟩ (by simp [apply]) rfl rfl (Or.inl rfl)
  · rw [hs]
    obtain ⟨hrefused, hroom⟩ := Channel.sendResult_accepted.mp haccepted
    have hempty := (hwell.ring .thread).empty_iff
    have hfirst' : wire.first chunk = bareQueueRingEmpty (bareQueueInbox wire.queue .thread) := by
      have hopen : ¬ EndState.ended ≤ bareQueueState wire.queue .uv := fun h => hrefused (Or.inl h)
      have hpeer : bareQueuePeerState wire.queue .uv ≠ .closed := fun h => hrefused (Or.inr h)
      simp [first, hchunk, hopen, hpeer, bareQueueOutbox, bareQueueInbox]
    refine ⟨⟨rfl, rfl, rfl, rfl, rfl⟩, ?_, fun hsilent hlistening _ => ?_, fun _ _ hwritable => ?_⟩
    · rw [hfirst', hwake]
      simp only [apply]
      split
      · rename_i hnil
        rw [signalThread_beq, hempty.mpr hnil, Bool.and_true]
      · rename_i hcons
        rw [Bool.eq_false_iff.mpr fun h => hcons (hempty.mp h), Bool.and_false, Bool.false_and]
        rfl
    · rw [hlistening, hfirst', Bool.true_and] at hsilent
      exact Or.inr (Or.inl hsilent)
    · exact hwritable

theorem seen_drain (hwell : wire.queue.WellFormed) (more : Bool)
    (hstep : wire.stepScript (.drain more) = some next) :
    Seen wire next (wire.rouses (.drain more)) := by
  have hfull := (hwell.ring .uv).full_iff
  simp only [stepScript] at hstep
  split at hstep
  · rcases wire.stream.drain_cases hwell more with ⟨hd, hblocked⟩ | ⟨hinbox, _, hd⟩ |
      ⟨_, _, ring, hinbox, hring, hbuffers, wake, hwake, hd⟩
    · simp only [hd, Option.some.injEq] at hstep
      subst hstep
      have hnot : wire.rouses (.drain more) = false := by
        cases hreading : wire.stream.reading with
        | false => simp [rouses, hreading]
        | true =>
          have hnil := (hblocked hreading).1
          have hroom : bareQueueRingFull (bareQueueInbox wire.queue .uv) = false := by
            refine Bool.eq_false_iff.mpr fun h => ?_
            have hlength := hfull.mp h
            rw [← Queue.channel_inbox, hnil] at hlength
            exact absurd hlength (by decide)
          simp [rouses, hroom]
      rw [hnot]
      exact Frames.seen ⟨rfl, rfl, rfl, rfl, rfl⟩ (by simp [apply]) rfl rfl (Or.inl rfl)
    · simp only [hd, Option.some.injEq] at hstep
      subst hstep
      have hroom : bareQueueRingFull (bareQueueInbox wire.queue .uv) = false := by
        refine Bool.eq_false_iff.mpr fun h => ?_
        have hlength := hfull.mp h
        rw [← Queue.channel_inbox, hinbox] at hlength
        exact absurd hlength (by decide)
      have hnot : wire.rouses (.drain more) = false := by simp [rouses, hroom]
      rw [hnot]
      exact Frames.seen ⟨rfl, rfl, rfl, rfl, rfl⟩ (by simp [apply]) rfl rfl (Or.inl rfl)
    · have hreading : wire.stream.reading = true := by
        by_contra hnot
        simp [IPCStream.drain, hnot] at hd
      simp only [hd, Option.some.injEq] at hstep
      subst hstep
      refine ⟨⟨rfl, rfl, rfl, rfl, rfl⟩, ?_, fun _ _ hunread => hunread,
        fun hsilent hlistening _ => ?_⟩
      · simp only [apply, rouses, hreading, Bool.and_true, hwake]
        split
        · rename_i hlength
          rw [signalThread_beq, hfull.mpr hlength, Bool.and_true]
        · rename_i hlength
          rw [Bool.eq_false_iff.mpr fun h => hlength (hfull.mp h), Bool.and_false, Bool.false_and]
          rfl
      · simp only [rouses, hlistening, hreading, Bool.and_true, Bool.true_and] at hsilent
        unfold hostWritable
        split
        · rfl
        · simp only [bareQueueWritable, bareQueueOutbox]
          simp only [bareQueueInbox] at hsilent
          simp [hsilent]
  · contradiction

/-- Every step of the worklet, as the host sees it. -/
theorem seen_step (hwell : wire.queue.WellFormed) (hworklet : label.ofWorklet = true)
    (hstep : wire.step label = some next) : Seen wire next (wire.rouses label) := by
  have hquiet : ∀ other : Wire, other.queue = wire.queue → Frames wire other →
      other.wakeThread = wire.wakeThread → Seen wire other false := by
    intro other hqueue hframe hwake
    exact hframe.seen hwake (by rw [hqueue]) (by rw [hqueue]) (Or.inl (by rw [hqueue]))
  cases move_step hstep with
  | ipcCreate _ | ipcRead _ _ _ | ipcReadPending _ _ | ipcWrite _ _ | ipcEnd _ _ _ | ipcClose _ _ _
  | ipcEndGone _ _ _ | ipcCloseGone _ _ _ | ipcCloseRelease _ _ | ipcSignal _ _ | dispatch _ _
  | dispatchWritable _ _ | takeWake _ => contradiction
  | write _ _ _ _ =>
    rename_i addr chunk _ _ _ _
    obtain ⟨hframe, hwake, hunread, hwritable⟩ := seen_send
      { wire with log := { wire.log with written := wire.log.written ++ [chunk] } }
      hwell wire.stream addr chunk ((wire.log.written ++ [chunk]).length - 1)
    exact ⟨⟨hframe.1, hframe.2, hframe.3, hframe.4, hframe.5⟩, hwake, hunread, hwritable⟩
  | final _ _ _ _ =>
    obtain ⟨hframe, hwake, hunread, hwritable⟩ :=
      seen_advance wire .ended (bareWorkletOnIpcEnd wire.queue) rfl
    exact ⟨⟨hframe.1, hframe.2, hframe.3, hframe.4, hframe.5⟩, hwake, hunread, hwritable⟩
  | read _ _ | onsignal _ _ _ => exact hquiet _ rfl ⟨rfl, rfl, rfl, rfl, rfl⟩ rfl
  | retryNone _ _ hnone =>
    rename_i addr _ _
    have hnot : wire.rouses (.retry addr) = false := by simp [rouses, hnone]
    rw [hnot]
    exact hquiet _ rfl ⟨rfl, rfl, rfl, rfl, rfl⟩ rfl
  | retry _ _ hparked =>
    rename_i addr chunk cb _ _
    obtain ⟨hframe, hwake, hunread, hwritable⟩ := seen_send wire hwell
      { wire.stream with pendingWrite := none } addr chunk cb
    have hrouses : wire.rouses (.retry addr) =
        (bareQueueListening wire.queue.threadState && wire.first chunk) := by
      simp [rouses, hparked]
    rw [hrouses]
    exact ⟨⟨hframe.1, hframe.2, hframe.3, hframe.4, hframe.5⟩, hwake, hunread, hwritable⟩
  | drain _ _ hnext => exact seen_drain hwell _ hnext
  | openUv hidle _ =>
    refine Frames.seen ⟨rfl, rfl, rfl, rfl, rfl⟩ ?_ rfl rfl (Or.inr ⟨hidle, rfl⟩)
    simp only [apply, bareQueueOpenUv]
    split <;> simp
  | exit _ _ | abandon _ _ => exact seen_advance wire .closed _ rfl
  | destroy _ =>
    exact Frames.seen ⟨rfl, rfl, rfl, rfl, rfl⟩ (by simp [apply, bareQueueDestroy]) rfl
      rfl (Or.inl rfl)

/-- How the host's end hangs together with its ipc: it is closed by the ipc alone, and can
be signalled for as long as it is not. -/
structure Hosted (wire : Wire) : Prop where
  signal : wire.queue.threadState ≠ .idle → wire.queue.onSignalThread.isSome = true
  shut : wire.queue.threadState = .closed →
    wire.held = some .closing ∨ ∃ ipc, wire.ipc = some ipc ∧ ipc.port = false
  closing : wire.held = some .closing → wire.queue.threadState = .closed
  gone : ∀ ipc, wire.ipc = some ipc → ipc.port = false → wire.queue.threadState = .closed
  created : wire.queue.threadState ≠ .idle → wire.ipc ≠ none

def Alerting (wire : Wire) : Prop :=
  wire.held = some .signalling ∨ ∃ len, wire.held = some (.reading len false)

def Ending (wire : Wire) : Prop := wire.held = some .signalling ∨ wire.held = some .closing

structure Hosts (wire next : Wire) (label : Step) : Prop where
  wakeThread : next.wakeThread = (wire.wakeThread || wire.rouses label)
  unread : bareQueueListening next.queue.threadState = true → next.Unread →
    next.wakeThread = true ∨ next.Alerting ∨ (label.reads = false ∧ wire.Unread ∧
      bareQueueListening wire.queue.threadState = true ∧ ¬ wire.Alerting)
  hostWritable : next.hostWritable = true → wire.hostWritable = true ∨ next.Ending
  ending : wire.Ending → next.Ending ∨ next.wakeThread = true

theorem Hosted.shut_of_lock (h : wire.Hosted) (hheld : wire.held = none)
    (hipc : wire.ipc = some ipc)
    (hport : ipc.port = true) : wire.queue.threadState ≠ .closed := by
  intro hclosed
  rcases h.shut hclosed with hclosing | ⟨other, hother, hgone⟩
  · simp [hheld] at hclosing
  · rw [hipc] at hother
    cases hother
    simp [hport] at hgone

theorem Hosted.frame (h : wire.Hosted) (hipc : next.ipc = wire.ipc) (hheld : next.held = wire.held)
    (hstate : next.queue.threadState = wire.queue.threadState)
    (hsignal : next.queue.onSignalThread = wire.queue.onSignalThread) : next.Hosted := by
  constructor
  · rw [hstate, hsignal]
    exact h.signal
  · rw [hstate, hheld, hipc]
    exact h.shut
  · rw [hstate, hheld]
    exact h.closing
  · rw [hstate, hipc]
    exact h.gone
  · rw [hstate, hipc]
    exact h.created

theorem Hosted.lock (h : wire.Hosted) (hheld : wire.held = none) (hipc : wire.ipc = some ipc)
    (hnext : ∀ other, next.ipc = some other → other.port = ipc.port) (hsome : next.ipc ≠ none)
    (hclosing : next.held ≠ some .closing)
    (hstate : next.queue.threadState = .closed ↔ wire.queue.threadState = .closed)
    (hsignal : next.queue.onSignalThread = wire.queue.onSignalThread)
    (hused : wire.queue.threadState ≠ .idle) : next.Hosted := by
  constructor
  · intro _
    rw [hsignal]
    exact h.signal hused
  · intro hclosed
    rcases h.shut (hstate.mp hclosed) with hbusy | ⟨found, hfound, hgone⟩
    · simp [hheld] at hbusy
    · rw [hipc] at hfound
      cases hfound
      obtain ⟨other, hother⟩ := Option.ne_none_iff_exists'.mp hsome
      exact Or.inr ⟨other, hother, (hnext other hother).trans hgone⟩
  · intro hbusy
    exact absurd hbusy hclosing
  · intro other hother hgone
    exact hstate.mpr (h.gone ipc hipc ((hnext other hother).symm.trans hgone))
  · exact fun _ => hsome

theorem hostWritable_congr (hipc : wire.ipc = some ipc)
    (hnext : ∀ other, next.ipc = some other → other.port = ipc.port) (hsome : next.ipc ≠ none)
    (htoUv : next.queue.toUv = wire.queue.toUv)
    (hthread : next.queue.threadState = wire.queue.threadState)
    (huv : next.queue.uvState = wire.queue.uvState) : next.hostWritable = wire.hostWritable := by
  obtain ⟨other, hother⟩ := Option.ne_none_iff_exists'.mp hsome
  simp only [hostWritable, hipc, hother, hnext other hother]
  unfold bareQueueWritable bareQueueOutbox bareQueueState bareQueuePeerState
  dsimp only
  rw [htoUv, hthread, huv]

theorem signalUv_beq (queue : Queue) : (bareQueueSignalUv queue == some .thread) = false := by
  unfold bareQueueSignalUv
  split <;> rfl

theorem threadState_used (hsound : wire.Sound) (hipc : wire.ipc = some ipc) :
    wire.queue.threadState ≠ .idle := hsound.opened (by simp [hipc])

theorem Hosts.refl (hheld : wire.held = none) (hreads : label.reads = false)
    (hrouses : wire.rouses label = false) : Hosts wire wire label where
  wakeThread := by simp [hrouses]
  unread := fun hlistening hunread =>
    Or.inr (Or.inr ⟨hreads, hunread, hlistening, by simp [Alerting, hheld]⟩)
  hostWritable := Or.inl
  ending := Or.inl

theorem hosts_ipcRead (hsound : wire.Sound) (hhosted : wire.Hosted) (hheld : wire.held = none)
    (hipc : wire.ipc = some ipc) {len : Nat}
    (hnext : next = { wire.apply (bareIpcReadQueue wire.queue ipc) with
      ipc := some (bareIpcReadQueue wire.queue ipc).result.1
      held := some (.reading len (bareIpcReadQueue wire.queue ipc).result.2) }) :
    Hosts wire next (.ipcRead len) ∧ next.Hosted := by
  have hwell := hsound.queue
  have hused := threadState_used hsound hipc
  have hidle : ¬ wire.Ending := by simp [Ending, hheld]
  have hport : ∀ outcome : Outcome (Ipc × Bool), outcome = bareIpcReadQueue wire.queue ipc →
      outcome.result.1.port = ipc.port ∧ outcome.queue.toUv = wire.queue.toUv ∧
        outcome.queue.threadState = wire.queue.threadState ∧
        outcome.queue.uvState = wire.queue.uvState ∧
        outcome.queue.onSignalThread = wire.queue.onSignalThread ∧
        (outcome.wake == some .thread) = false := by
    rintro outcome rfl
    rcases Ipc.readQueue_cases ipc hwell with ⟨hr, _⟩ | ⟨_, _, ⟨_, _, _, _, _, _, _, hwake, hr⟩ |
      ⟨_, _, hr⟩ | ⟨_, _, hr⟩⟩
    · rw [hr]
      exact ⟨rfl, rfl, rfl, rfl, rfl, rfl⟩
    · rw [hr, hwake]
      refine ⟨rfl, rfl, rfl, rfl, rfl, ?_⟩
      split
      · exact signalUv_beq wire.queue
      · rfl
    · rw [hr]
      exact ⟨rfl, rfl, rfl, rfl, rfl, rfl⟩
    · rw [hr]
      exact ⟨rfl, rfl, rfl, rfl, rfl, rfl⟩
  obtain ⟨hsame, htoUv, hthread, huv, hsignal, hwake⟩ := hport _ rfl
  subst hnext
  refine ⟨⟨?_, fun _ hunread => ?_, fun hnext => Or.inl ?_, fun hending => absurd hending hidle⟩,
    ?_⟩
  · simp only [apply, hwake]
    rfl
  · rcases Ipc.readQueue_cases ipc hwell with ⟨hr, _⟩ | ⟨_, hbase, ⟨_, _, _, _, _, _, _, _, hr⟩ |
      ⟨_, _, hr⟩ | ⟨hinbox, hfin, hr⟩⟩
    · exact Or.inr (Or.inl (Or.inr ⟨len, by rw [hr]⟩))
    · exact Or.inr (Or.inl (Or.inr ⟨len, by rw [hr]⟩))
    · exact Or.inr (Or.inl (Or.inr ⟨len, by rw [hr]⟩))
    · -- nothing was there to read
      rw [hr] at hunread
      have hempty := (hwell.ring .thread).empty_iff.mpr hinbox
      rcases hunread with ⟨other, hother, hrest⟩ | hnonempty | ⟨hended, _⟩
      · cases hother
        exact absurd hbase hrest
      · exact absurd (hempty.symm.trans hnonempty) (by decide)
      · exact absurd ((Queue.channel_finished .thread).mpr hended) hfin
  · exact (hostWritable_congr hipc (fun other hother => by cases hother; exact hsame)
      (Option.some_ne_none _) htoUv hthread huv).symm.trans hnext
  · exact hhosted.lock hheld hipc (fun other hother => by cases hother; exact hsame) (by simp)
      (by simp) (by rw [apply_queue, hthread]) hsignal hused

theorem hosts_ipcWrite (hsound : wire.Sound) (hhosted : wire.Hosted) (hheld : wire.held = none)
    (hipc : wire.ipc = some ipc) {addr : Pointer} {data : Bytes}
    (hnext : next = { wire.apply (bareIpcWrite wire.queue ipc addr data) with
      log := { wire.log with
        sent := wire.log.sent ++ data.take (bareIpcWrite wire.queue ipc addr data).result.toNat }
        }) :
    Hosts wire next (.ipcWrite addr data) ∧ next.Hosted := by
  have hcalm : ¬ wire.Alerting := by simp [Alerting, hheld]
  have hidle : ¬ wire.Ending := by simp [Ending, hheld]
  subst hnext
  rcases Ipc.write_cases ipc hsound.queue addr data with ⟨hqueue, hwake, _⟩ |
    ⟨hport, _, haccepted, ring, _, _, wake, hwake, hw⟩
  · have hsame : (wire.apply (bareIpcWrite wire.queue ipc addr data)).queue = wire.queue := hqueue
    refine ⟨⟨by simp [apply, hwake, rouses], fun hlistening hunread => ?_, fun hnext => Or.inl ?_,
      fun hending => absurd hending hidle⟩, hhosted.frame rfl rfl (by rw [hsame]) (by rw [hsame])⟩
    · simp only [Unread, hsame] at hlistening hunread
      exact Or.inr (Or.inr ⟨rfl, hunread, hlistening, hcalm⟩)
    · simp only [hostWritable, hsame] at hnext
      exact hnext
  · rw [hw]
    have hroom := (Channel.sendResult_accepted.mp haccepted).2
    have hwritable : wire.hostWritable = true := by
      have hfull := (hsound.queue.ring .uv).full_iff
      have hnot : bareQueueRingFull (bareQueueOutbox wire.queue .thread) = false :=
        Bool.eq_false_iff.mpr fun h => hroom (hfull.mp h)
      simp [hostWritable, hipc, bareQueueWritable, hnot]
    refine ⟨⟨?_, fun hlistening hunread => Or.inr (Or.inr ⟨rfl, hunread, hlistening, hcalm⟩),
      fun _ => Or.inl hwritable, fun hending => absurd hending hidle⟩,
      hhosted.frame rfl rfl rfl rfl⟩
    rw [hwake]
    simp only [apply]
    split
    · rw [signalUv_beq]
      rfl
    · rfl

theorem hosts_advance (hsound : wire.Sound) (hhosted : wire.Hosted) (hheld : wire.held = none)
    (hipc : wire.ipc = some ipc) (hport : ipc.port = true)
    (hrouses : wire.rouses label = false) {state : EndState} {held : Section}
    (hcase : (state = .ended ∧ held = .signalling) ∨ (state = .closed ∧ held = .closing))
    {outcome : Outcome Bool} (houtcome : outcome = bareQueueAdvance wire.queue .thread state) :
    Hosts wire { wire.apply outcome with held := some held } label ∧
      Hosted { wire.apply outcome with held := some held } := by
  subst houtcome
  have hused := threadState_used hsound hipc
  have hopen := hhosted.shut_of_lock hheld hipc hport
  have hstate : (bareQueueAdvance wire.queue .thread state).queue.threadState =
      if wire.queue.threadState < state then state else wire.queue.threadState :=
    Queue.advance_state_self .thread state
  have hsignal : (bareQueueAdvance wire.queue .thread state).queue.onSignalThread =
      wire.queue.onSignalThread := Queue.advance_onSignalThread .thread state
  have hwake : ((bareQueueAdvance wire.queue .thread state).wake == some .thread) = false :=
    signalUv_beq _
  have hending : Ending { wire.apply (bareQueueAdvance wire.queue .thread state) with
      held := some held } := by
    rcases hcase with ⟨-, rfl⟩ | ⟨-, rfl⟩
    · exact Or.inl rfl
    · exact Or.inr rfl
  refine ⟨⟨by simp [apply, hwake, hrouses], fun hlistening _ => ?_, fun _ => Or.inr hending,
    fun _ => Or.inl hending⟩, ?_⟩
  · rcases hcase with ⟨-, rfl⟩ | ⟨rfl, -⟩
    · exact Or.inr (Or.inl (Or.inl rfl))
    · simp only [apply_queue, hstate] at hlistening
      exfalso
      revert hlistening
      cases wire.queue.threadState <;> decide
  · rcases hcase with ⟨rfl, rfl⟩ | ⟨rfl, rfl⟩
    · refine hhosted.lock hheld hipc (fun other hother => ?_) (by simp [hipc]) (by simp)
        ?_ hsignal hused
      · simp only [apply_ipc, hipc, Option.some.injEq] at hother
        rw [hother]
      · simp only [apply_queue, hstate]
        cases wire.queue.threadState <;> decide
    · refine ⟨fun _ => ?_, fun _ => Or.inl rfl, fun _ => ?_, fun other hother hgone => ?_,
        fun _ => by simp [hipc]⟩
      · simp only [apply_queue, hsignal]
        exact hhosted.signal hused
      · simp only [apply_queue, hstate]
        revert hopen
        cases wire.queue.threadState <;> decide
      · simp only [apply_ipc, hipc, Option.some.injEq] at hother
        rw [← hother, hport] at hgone
        contradiction

theorem hosts_ipcReadPending (hsound : wire.Sound) (hhosted : wire.Hosted)
    (hipc : wire.ipc = some ipc) {len : Nat} {blocked : Bool}
    (hheld : wire.held = some (.reading len blocked))
    (hnext : next = { wire with
      ipc := some (bareIpcReadPending wire.queue ipc len blocked).ipc
      held := if (bareIpcReadPending wire.queue ipc len blocked).signal then some .signalling
        else none
      log := { wire.log with
        received := wire.log.received ++ (bareIpcReadPending wire.queue ipc len blocked).data
        receivedEnd := wire.log.receivedEnd ||
          (ipc.port && (bareIpcReadPending wire.queue ipc len blocked).result == 0) } }) :
    Hosts wire next .ipcReadPending ∧ next.Hosted := by
  have hused := threadState_used hsound hipc
  have hidle : ¬ wire.Ending := by simp [Ending, hheld]
  have hlen := hsound.buffered len blocked hheld
  have hports : (bareIpcReadPending wire.queue ipc len blocked).ipc.port = ipc.port := by
    rcases (hsound.ipc ipc hipc).readPending_cases wire.queue hlen blocked with
      ⟨_, hr⟩ | ⟨_, _, _, hsame, _⟩
    · rw [hr]
    · exact hsame
  subst hnext
  refine ⟨⟨by simp [rouses], fun hlistening hunread => ?_, fun hnext => Or.inl ?_,
    fun hending => absurd hending hidle⟩, ?_⟩
  · rcases (hsound.ipc ipc hipc).readPending_cases wire.queue hlen blocked with
      ⟨hbase, hr⟩ | ⟨_, _, _, _, _, hsignal⟩
    · rw [hr] at hunread
      have hopen : ipc.port = true := by
        by_contra hgone
        have hclosed := hhosted.gone ipc hipc (by simpa using hgone)
        simp only [hclosed] at hlistening
        contradiction
      cases blocked with
      | true =>
        refine Or.inr (Or.inr ⟨rfl, ?_, hlistening, by simp [Alerting, hheld]⟩)
        rcases hunread with ⟨other, hother, hrest⟩ | hnonempty | ⟨hended, hend⟩
        · cases hother
          exact absurd hbase hrest
        · exact Or.inr (Or.inl hnonempty)
        · refine Or.inr (Or.inr ⟨hended, ?_⟩)
          simpa [bareIpcWouldBlock] using hend
      | false =>
        -- the read returned the end of the stream
        obtain ⟨hinbox, _⟩ := hsound.reading len ipc hheld hipc hopen hbase
        have hempty := (hsound.queue.ring .thread).empty_iff.mpr hinbox
        rcases hunread with ⟨other, hother, hrest⟩ | hnonempty | ⟨_, hend⟩
        · cases hother
          exact absurd hbase hrest
        · exact absurd (hempty.symm.trans hnonempty) (by decide)
        · simp [hopen] at hend
    · have hsignalled : (bareIpcReadPending wire.queue ipc len blocked).signal = true := by
        rw [hsignal, Bool.or_eq_true, bareQueueReadable, Bool.or_eq_true]
        rcases hunread with ⟨other, hother, hrest⟩ | hnonempty | ⟨hended, _⟩
        · cases hother
          exact Or.inl (Option.isSome_iff_ne_none.mpr hrest)
        · simp only [Bool.not_eq_true']
          exact Or.inr (Or.inl hnonempty)
        · exact Or.inr (Or.inr (decide_eq_true hended))
      exact Or.inr (Or.inl (Or.inl (by simp [hsignalled])))
  · refine (hostWritable_congr hipc ?_ ?_ ?_ ?_ ?_).symm.trans hnext
    · intro other hother
      cases hother
      exact hports
    · exact Option.some_ne_none _
    all_goals rfl
  · refine ⟨hhosted.signal, fun hclosed => ?_, fun hclosing => ?_, fun other hother hgone => ?_,
      fun _ => Option.some_ne_none _⟩
    · rcases hhosted.shut hclosed with hbusy | ⟨found, hfound, hgone⟩
      · simp [hheld] at hbusy
      · rw [hipc] at hfound
        cases hfound
        exact Or.inr ⟨_, rfl, hports.trans hgone⟩
    · revert hclosing
      cases (bareIpcReadPending wire.queue ipc len blocked).signal <;> simp
    · cases hother
      exact hhosted.gone ipc hipc (hports.symm.trans hgone)

theorem hosts_move (hsound : wire.Sound) (hhosted : wire.Hosted) (hmove : Move wire label next)
    (hhost : label.ofWorklet = false) (htake : label ≠ .takeWake)
    (hcreate : ∀ onSignal data, label ≠ .ipcCreate onSignal data) :
    Hosts wire next label ∧ next.Hosted := by
  -- a thread that lets go of the lock did not close the ipc
  have hfreed : ∀ {held : Section}, wire.held = some held → held ≠ .closing →
      wire.queue.threadState = .closed → ∃ ipc, wire.ipc = some ipc ∧ ipc.port = false := by
    intro held hheld hne hclosed
    refine (hhosted.shut hclosed).resolve_left fun hbusy => hne ?_
    rw [hheld] at hbusy
    exact Option.some.inj hbusy
  cases hmove with
  | write _ _ _ _ | final _ _ _ _ | read _ _ | onsignal _ _ _ | retryNone _ _ _ | retry _ _ _
  | drain _ _ _ | openUv _ _ | exit _ _ | abandon _ _ | destroy _ => contradiction
  | takeWake _ => exact absurd rfl htake
  | ipcCreate _ => exact absurd rfl (hcreate _ _)
  | ipcRead hheld hipc _ => exact hosts_ipcRead hsound hhosted hheld hipc rfl
  | ipcReadPending hipc hheld => exact hosts_ipcReadPending hsound hhosted hipc hheld rfl
  | ipcWrite hheld hipc => exact hosts_ipcWrite hsound hhosted hheld hipc rfl
  | ipcEnd hheld hipc hport =>
    exact hosts_advance hsound hhosted hheld hipc hport rfl (Or.inl ⟨rfl, rfl⟩) rfl
  | ipcClose hheld hipc hport =>
    exact hosts_advance hsound hhosted hheld hipc hport rfl (Or.inr ⟨rfl, rfl⟩) rfl
  | ipcEndGone hheld _ _ | ipcCloseGone hheld _ _ => exact ⟨Hosts.refl hheld rfl rfl, hhosted⟩
  | ipcCloseRelease _ hheld =>
    have hclosed := hhosted.closing hheld
    refine ⟨⟨by simp [rouses], fun hlistening _ => ?_, fun _ => Or.inr (Or.inl rfl),
      fun _ => Or.inl (Or.inl rfl)⟩, hhosted.signal, fun _ => Or.inr ⟨_, rfl, rfl⟩, fun hbusy => ?_,
      fun other _ _ => hclosed, fun _ => Option.some_ne_none _⟩
    · simp only [hclosed] at hlistening
      contradiction
    · cases hbusy
  | ipcSignal _ hheld =>
    exact ⟨⟨by simp [rouses], fun _ _ => Or.inl rfl, Or.inl, fun _ => Or.inr rfl⟩, hhosted.signal,
      fun hclosed => Or.inr (hfreed hheld (by decide) hclosed), fun hbusy => (by cases hbusy),
      hhosted.gone, hhosted.created⟩
  | dispatch hheld hipc =>
    have hcalm : ¬ wire.Alerting := by simp [Alerting, hheld]
    refine ⟨⟨by simp [rouses], fun hlistening hunread => Or.inr (Or.inr ⟨rfl, hunread, hlistening,
      hcalm⟩), Or.inl, by simp [Ending, hheld]⟩, ?_⟩
    refine hhosted.lock hheld hipc (fun other hother => ?_) (by simp [hipc]) (by simp) Iff.rfl rfl
      (threadState_used hsound hipc)
    rw [hipc] at hother
    cases hother
    rfl
  | dispatchWritable _ hheld =>
    refine ⟨⟨by simp [rouses], fun hlistening hunread => Or.inr (Or.inr ⟨rfl, hunread, hlistening,
      by simp [Alerting, hheld]⟩), Or.inl, fun hending => ?_⟩, hhosted.signal,
      fun hclosed => Or.inr (hfreed hheld (by decide) hclosed), fun hbusy => (by cases hbusy),
      hhosted.gone, hhosted.created⟩
    simp [Ending, hheld] at hending

theorem ipcCreate_refused (hsound : wire.Sound) (hipc : wire.ipc ≠ none) (onSignal data : Pointer) :
    bareIpcCreate wire.queue onSignal data = ⟨wire.queue, none, none, none⟩ := by
  have hused : wire.queue.threadState ≠ .idle := hsound.opened hipc
  simp only [bareIpcCreate, bareQueueOpenThread, hused, ne_eq, not_false_eq_true, if_true]
  rfl

theorem Hosted.ipcCreate (hsound : wire.Sound) (hhosted : wire.Hosted) (onSignal data : Pointer) :
    Hosted { wire.apply (bareIpcCreate wire.queue onSignal data) with
      ipc := (bareIpcCreate wire.queue onSignal data).result.or wire.ipc } := by
  by_cases hipc : wire.ipc = none
  · have hheld : wire.held = none := not_not.mp fun hheld => hsound.holder hheld hipc
    by_cases hidle : wire.queue.threadState = .idle
    · have hcreated :
          (bareIpcCreate wire.queue onSignal data).result = some ⟨true, ⟨none, 0⟩, 0⟩ := by
        simp [bareIpcCreate, bareQueueOpenThread, hidle]
      have hqueue : (bareIpcCreate wire.queue onSignal data).queue = { wire.queue with
          threadData := some data, onSignalThread := some onSignal, threadState := .opened } := by
        simp [bareIpcCreate, bareQueueOpenThread, hidle]
      simp only [hcreated, Option.some_or]
      refine ⟨fun _ => ?_, fun hclosed => ?_, fun hclosing => ?_, fun other hother hgone => ?_,
        fun _ => Option.some_ne_none _⟩
      · simp only [apply_queue, hqueue]
        rfl
      · simp only [apply_queue, hqueue] at hclosed
        contradiction
      · simp [hheld] at hclosing
      · cases hother
        contradiction
    · have hcreated : bareIpcCreate wire.queue onSignal data = ⟨wire.queue, none, none, none⟩ := by
        simp only [bareIpcCreate, bareQueueOpenThread, hidle, ne_eq, not_false_eq_true, if_true]
        rfl
      rw [hcreated]
      exact hhosted.frame rfl rfl rfl rfl
  · rw [ipcCreate_refused hsound hipc]
    exact hhosted.frame rfl rfl rfl rfl

/-- Every step of the host but the taking of a wake, as it shows to the host. -/
theorem hosts_step (hsound : wire.Sound) (hhosted : wire.Hosted) (hipc : wire.ipc ≠ none)
    (hhost : label.ofWorklet = false) (htake : label ≠ .takeWake)
    (hstep : wire.step label = some next) : Hosts wire next label := by
  have hmove := move_step hstep
  by_cases hcreate : ∃ onSignal data, label = .ipcCreate onSignal data
  · obtain ⟨onSignal, data, rfl⟩ := hcreate
    cases hmove with
    | ipcCreate _ =>
      rw [ipcCreate_refused hsound hipc]
      refine ⟨by simp [apply, rouses], fun hlistening hunread => ?_, Or.inl, Or.inl⟩
      by_cases hcalm : wire.Alerting
      · exact Or.inr (Or.inl hcalm)
      · exact Or.inr (Or.inr ⟨rfl, hunread, hlistening, hcalm⟩)
  · exact (hosts_move hsound hhosted hmove hhost htake fun onSignal data hlabel =>
      hcreate ⟨onSignal, data, hlabel⟩).1

theorem Hosted.step (hsound : wire.Sound) (hhosted : wire.Hosted)
    (hstep : wire.step label = some next) : next.Hosted := by
  cases hworklet : label.ofWorklet with
  | true =>
    have hseen := seen_step hsound.queue hworklet hstep
    exact hhosted.frame hseen.ipc hseen.held hseen.threadState hseen.onSignalThread
  | false =>
    have hmove := move_step hstep
    cases label with
    | takeWake =>
      cases hmove with
      | takeWake _ => exact hhosted.frame rfl rfl rfl rfl
    | ipcCreate onSignal data =>
      cases hmove with
      | ipcCreate _ => exact hhosted.ipcCreate hsound onSignal data
    | _ => exact (hosts_move hsound hhosted hmove hworklet (by simp) (by simp)).2

theorem Hosted.create (toUv toThread : Slots) :
    (ofQueue (bareQueueCreate toUv toThread)).Hosted := by
  refine ⟨fun hused => absurd rfl hused, fun hclosed => ?_, fun hclosing => ?_, fun _ hipc => ?_,
    fun hused => absurd rfl hused⟩
  · cases hclosed
  · cases hclosing
  · cases hipc

theorem hosted (h : system.Reachable wire) : wire.Hosted := by
  refine h.invariant (I := Hosted) ?_ fun wire label next hreach hhosted hstep =>
    hhosted.step (sound hreach) hstep
  rintro wire ⟨toUv, toThread, rfl⟩
  exact Hosted.create toUv toThread

theorem wakeThread_mono (hsound : wire.Sound) (hhosted : wire.Hosted) (hipc : wire.ipc ≠ none)
    (htake : label ≠ .takeWake) (hstep : wire.step label = some next)
    (hwake : wire.wakeThread = true) : next.wakeThread = true := by
  cases hworklet : label.ofWorklet with
  | true =>
    rw [(seen_step hsound.queue hworklet hstep).wakeThread, hwake]
    rfl
  | false =>
    rw [(hosts_step hsound hhosted hipc hworklet htake hstep).wakeThread, hwake]
    rfl

theorem ipc_kept (hsound : wire.Sound) (hstep : wire.step label = some next)
    (hipc : wire.ipc ≠ none) : next.ipc ≠ none := by
  cases hworklet : label.ofWorklet with
  | true =>
    rw [(seen_step hsound.queue hworklet hstep).ipc]
    exact hipc
  | false =>
    cases move_step hstep with
    | write _ _ _ _ | final _ _ _ _ | read _ _ | onsignal _ _ _ | retryNone _ _ _ | retry _ _ _
    | drain _ _ _ | openUv _ _ | exit _ _ | abandon _ _ | destroy _ => contradiction
    | ipcCreate _ =>
      rw [ipcCreate_refused hsound hipc]
      exact hipc
    | ipcRead _ _ _ | ipcReadPending _ _ | ipcCloseRelease _ _ => exact Option.some_ne_none _
    | takeWake _ | ipcWrite _ _ | ipcEnd _ _ _ | ipcClose _ _ _ | ipcEndGone _ _ _
    | ipcCloseGone _ _ _
    | ipcSignal _ _ | dispatch _ _ | dispatchWritable _ _ => exact hipc

theorem step_dispatch (hipc : wire.ipc = some ipc) (hheld : wire.held = none) :
    wire.step .dispatch = some { wire with held := some .dispatching } := by
  simp [Wire.step, lock, hheld, hipc, stepIpc]

theorem step_dispatchWritable (hipc : wire.ipc = some ipc)
    (hheld : wire.held = some .dispatching) :
    wire.step .dispatchWritable = some { wire with held := none } := by
  simp [Wire.step, hheld, hipc, stepHeld]

end Wire

end BareKit
