import BareKit.ByteStream

/-! Whether what is parked of a chunk is ever sent. A full ring wakes the worklet when
the host drains it, but a chunk longer than one message is parked with the ring no
fuller than the message made it. -/
namespace BareKit

namespace Wire

variable {wire next : Wire} {ipc : Ipc} {label : Step}

/-- Nothing will make the worklet send what is parked of a chunk: the ring has room, or
the host is gone, and no wake is pending. -/
def Stranded (wire : Wire) : Prop :=
  wire.stream.pendingWrite ≠ none ∧ wire.wakeUv = false ∧
    ¬ (bareQueueRingFull (bareQueueOutbox wire.queue .uv) = true ∧
      bareQueuePeerState wire.queue .uv ≠ .closed)

def offers (wire : Wire) : Step → Option Bytes
  | .write _ chunk => some chunk
  | .retry _ => wire.stream.pendingWrite.map PendingWrite.chunk
  | _ => none

/-- The chunk is longer than a message, at least two more messages fit, and no wake of
the worklet is pending. -/
def Splits (wire : Wire) (chunk : Bytes) : Prop :=
  intMax < chunk.length ∧ ¬ EndState.ended ≤ bareQueueState wire.queue .uv ∧
    bareQueuePeerState wire.queue .uv ≠ .closed ∧
    (wire.queue.channel.outbox .uv).length + 1 < Channel.bound ∧ wire.wakeUv = false

instance (wire : Wire) (chunk : Bytes) : Decidable (wire.Splits chunk) :=
  inferInstanceAs (Decidable (_ ∧ _))

/-- No step offers a chunk that would be split. -/
def Unsplit (wire : Wire) (label : Step) : Prop :=
  ∀ chunk ∈ wire.offers label, ¬ wire.Splits chunk

instance (wire : Wire) (label : Step) : Decidable (wire.Unsplit label) :=
  inferInstanceAs (Decidable (∀ chunk ∈ wire.offers label, ¬ wire.Splits chunk))

/-- A wake of the worklet is pending, or the host will wake it when it drains the ring
or leaves. -/
def Fed (wire : Wire) : Prop :=
  wire.wakeUv = true ∨ ((wire.queue.channel.inbox .thread).length = Channel.bound ∧
    wire.queue.channel.state .thread ≠ .closed)

structure Awaited (wire : Wire) : Prop where
  used : wire.started = true → wire.queue.channel.state .uv ≠ .idle
  parked : wire.stream.pendingWrite ≠ none → wire.started = true
  awaited : wire.stream.pendingWrite ≠ none → wire.queue.channel.state .uv ≠ .closed →
    wire.turn ≠ .retrying → wire.Fed

theorem signalUv_eq (queue : Queue) (hidle : queue.channel.state .uv ≠ .idle)
    (hclosed : queue.channel.state .uv ≠ .closed) : bareQueueSignalUv queue = some .uv := by
  simp only [Queue.channel_state, bareQueueState] at hidle hclosed
  unfold bareQueueSignalUv bareQueueListening
  revert hidle hclosed
  cases queue.uvState <;> simp

theorem Fed.keep (h : wire.Fed) (hwake : wire.wakeUv = true → next.wakeUv = true)
    (hinbox : next.queue.channel.inbox .thread = wire.queue.channel.inbox .thread)
    (hthread : next.queue.channel.state .thread = wire.queue.channel.state .thread) :
    next.Fed := by
  rcases h with hwoken | ⟨hfull, hopen⟩
  · exact Or.inl (hwake hwoken)
  · refine Or.inr ⟨?_, ?_⟩
    · rwa [hinbox]
    · rwa [hthread]

theorem apply_wakeUv {ρ : Type} (outcome : Outcome ρ) (hwoken : wire.wakeUv = true) :
    (wire.apply outcome).wakeUv = true := by
  simp [apply, hwoken]

theorem Awaited.frame (h : wire.Awaited)
    (hstream : next.stream.pendingWrite = wire.stream.pendingWrite)
    (hstarted : next.started = wire.started)
    (hstate : next.queue.channel.state .uv = wire.queue.channel.state .uv ∨
      next.queue.channel.state .uv = .closed)
    (hturn : next.turn ≠ .retrying → wire.turn ≠ .retrying ∨ wire.stream.pendingWrite = none)
    (hkept : next.turn ≠ .retrying → wire.queue.channel.state .uv ≠ .idle →
      wire.queue.channel.state .uv ≠ .closed → wire.Fed → next.Fed) : next.Awaited := by
  constructor
  · intro hnext
    have hused := h.used (hstarted ▸ hnext)
    rcases hstate with hsame | hclosed
    · rwa [hsame]
    · simp [hclosed]
  · rw [hstream, hstarted]
    exact h.parked
  · intro hparked hopen hsettled
    rw [hstream] at hparked
    have hwas : wire.queue.channel.state .uv ≠ .closed := by
      rcases hstate with hsame | hclosed
      · rwa [← hsame]
      · exact absurd hclosed hopen
    have hbefore : wire.turn ≠ .retrying := (hturn hsettled).resolve_right hparked
    exact hkept hsettled (h.used (h.parked hparked)) hwas (h.awaited hparked hwas hbefore)

theorem Awaited.advance (h : wire.Awaited) (state : EndState) {held : Option Section} :
    Awaited { wire.apply (bareQueueAdvance wire.queue .thread state) with held } := by
  have hother : (bareQueueAdvance wire.queue .thread state).queue.channel.state .uv =
      wire.queue.channel.state .uv := Queue.advance_state_peer .thread state
  refine h.frame rfl rfl (Or.inl hother) Or.inl fun _ hidle hclosed _ => Or.inl ?_
  have hwake : (bareQueueAdvance wire.queue .thread state).wake = some .uv :=
    signalUv_eq (bareQueueAdvance wire.queue .thread state).queue (hother ▸ hidle)
      (hother ▸ hclosed)
  simp [apply, hwake]

theorem Awaited.close (h : wire.Awaited) :
    (wire.apply (bareQueueClose wire.queue .uv)).Awaited := by
  have hclosed : (bareQueueClose wire.queue .uv).queue.channel.state .uv = .closed :=
    Queue.close_state .uv
  refine h.frame rfl rfl (Or.inr hclosed) Or.inl fun _ _ _ hfed => hfed.keep (apply_wakeUv _) ?_ ?_
  · simp only [apply_queue, bareQueueClose, Queue.channel_advance, Channel.advance_inbox]
  · exact Queue.advance_state_peer .uv .closed

theorem Awaited.ipcRead (h : wire.Awaited) (hwell : wire.queue.WellFormed) (ipc : Ipc)
    {held : Option Section} :
    Awaited { wire.apply (bareIpcReadQueue wire.queue ipc) with
      ipc := some (bareIpcReadQueue wire.queue ipc).result.1, held } := by
  rcases Ipc.readQueue_cases ipc hwell with ⟨hr, _⟩ | ⟨_, _, hcase⟩
  · rw [hr]
    exact h.frame rfl rfl (Or.inl rfl) Or.inl fun _ _ _ hfed => hfed.keep (apply_wakeUv _) rfl rfl
  · rcases hcase with ⟨buffer, rest, ring, _, _, _, wake, hwake, hr⟩ | ⟨_, _, hr⟩ | ⟨_, _, hr⟩
    · rw [hr]
      refine h.frame rfl rfl (Or.inl rfl) Or.inl fun _ hidle hclosed hfed => Or.inl ?_
      rcases hfed with hwoken | ⟨hfull, _⟩
      · exact apply_wakeUv _ hwoken
      · rw [if_pos hfull, signalUv_eq _ hidle hclosed] at hwake
        simp [apply, hwake]
    · rw [hr]
      exact h.frame rfl rfl (Or.inl rfl) Or.inl fun _ _ _ hfed => hfed.keep (apply_wakeUv _) rfl rfl
    · rw [hr]
      exact h.frame rfl rfl (Or.inl rfl) Or.inl fun _ _ _ hfed => hfed.keep (apply_wakeUv _) rfl rfl

theorem Awaited.ipcWrite (h : wire.Awaited) (hwell : wire.queue.WellFormed) (ipc : Ipc)
    (addr : Pointer)
    (data : Bytes) (log : Log) :
    Awaited { wire.apply (bareIpcWrite wire.queue ipc addr data) with log } := by
  rcases Ipc.write_cases ipc hwell addr data with ⟨hqueue, _, _⟩ | ⟨_, _, _, ring, _,
    _, wake, _, hw⟩
  · refine h.frame rfl rfl ?_ Or.inl fun _ _ _ hfed => hfed.keep (apply_wakeUv _) ?_ ?_
    · simp only [apply_queue, hqueue, true_or]
    · simp only [apply_queue, hqueue]
    · simp only [apply_queue, hqueue]
  · rw [hw]
    exact h.frame rfl rfl (Or.inl rfl) Or.inl fun _ _ _ hfed => hfed.keep (apply_wakeUv _) rfl rfl

/-- A chunk that is sent is done with, is parked at a full ring, or was split. -/
theorem send_fed (wire : Wire) (hwell : wire.queue.WellFormed) (addr : Pointer) {chunk : Bytes}
    (cb : Nat)
    (stream : IPCStream) (hnone : stream.pendingWrite = none) (hunsplit : ¬ wire.Splits chunk) :
    ((wire.send stream addr chunk cb).stream.pendingWrite ≠ none →
      wire.queue.channel.state .uv ≠ .closed → (wire.send stream addr chunk cb).Fed) ∧
      (wire.send stream addr chunk cb).queue.channel.state = wire.queue.channel.state := by
  unfold Wire.send
  rcases IPCStream.send_cases stream addr chunk cb hwell with
    ⟨_, _, hs⟩ | ⟨_, _, freed, _, hs⟩ | ⟨_, hblocked, freed, _, hs⟩ |
    ⟨_, haccepted, ring, _, hbuffers, wake, _, _, hs⟩
  · rw [hs]
    exact ⟨fun hparked => absurd hnone hparked, rfl⟩
  · rw [hs]
    exact ⟨fun hparked => absurd hnone hparked, rfl⟩
  · rw [hs]
    obtain ⟨hrefused, hfull⟩ := Channel.sendResult_blocked.mp hblocked
    refine ⟨fun _ _ => Or.inr ⟨hfull, fun hclosed => ?_⟩, rfl⟩
    exact hrefused (Or.inr hclosed)
  · rw [hs]
    obtain ⟨hrefused, hroom⟩ := Channel.sendResult_accepted.mp haccepted
    refine ⟨fun hparked _ => ?_, ?_⟩
    · unfold IPCStream.accept at hparked
      split at hparked
      · exact absurd hnone hparked
      · rename_i hlen
        by_cases hwoken : wire.wakeUv = true
        · exact Or.inl (apply_wakeUv _ hwoken)
        · have hclosed : wire.queue.channel.state .thread ≠ .closed :=
            fun hclosed => hrefused (Or.inr hclosed)
          refine Or.inr ⟨?_, hclosed⟩
          have hlength : ring.buffers.length = (wire.queue.channel.inbox .thread).length + 1 := by
            simp [hbuffers]
          have hbound := (hwell.ring .thread).length_le
          have hfull : ¬ (wire.queue.channel.outbox .uv).length + 1 < Channel.bound := by
            intro hlt
            refine hunsplit ⟨by omega, fun hended => hrefused (Or.inl hended), hclosed, hlt, ?_⟩
            simpa using hwoken
          simp only [Channel.outbox, Port.peer] at hroom hfull
          rw [← Queue.channel_inbox] at hbound
          change ring.buffers.length = Channel.bound
          omega
    · funext port
      cases port <;> rfl

theorem Awaited.drain (h : wire.Awaited) (hwell : wire.queue.WellFormed) (more : Bool)
    (hstep : wire.stepScript (.drain more) = some next) : next.Awaited := by
  simp only [stepScript] at hstep
  split at hstep
  · rename_i hturn
    have hbefore : wire.turn ≠ .retrying := by simp [hturn]
    rcases wire.stream.drain_cases hwell more with ⟨hd, _⟩ | ⟨_, _, hd⟩ |
      ⟨_, _, ring, _, _, _, wake, _, hd⟩
    all_goals
      simp only [hd, Option.some.injEq] at hstep
      subst hstep
      exact h.frame rfl rfl (Or.inl rfl) (fun _ => Or.inl hbefore)
        fun _ _ _ hfed => hfed.keep (apply_wakeUv _) rfl rfl
  · contradiction

theorem Awaited.ipcCreate (h : wire.Awaited) (onSignal data : Pointer) (created : Option Ipc) :
    Awaited { wire.apply (bareIpcCreate wire.queue onSignal data) with ipc := created } := by
  have hchannel := Queue.channel_openThread wire.queue (some onSignal) (some data)
  have hqueue : (wire.apply (bareIpcCreate wire.queue onSignal data)).queue.channel =
      if wire.queue.channel.state .thread ≠ .idle then wire.queue.channel
      else wire.queue.channel.setState .thread .opened := hchannel
  split at hqueue
  · refine h.frame rfl rfl (Or.inl ?_) Or.inl fun _ _ _ hfed => hfed.keep (apply_wakeUv _) ?_ ?_
    all_goals simp only [hqueue]
  · refine h.frame rfl rfl (Or.inl ?_) Or.inl fun _ _ _ hfed => ?_
    · simp only [hqueue]
      exact Channel.setState_state_peer _ .thread .opened
    · rcases hfed with hwoken | ⟨hfull, _⟩
      · exact Or.inl (apply_wakeUv _ hwoken)
      · refine Or.inr ⟨?_, ?_⟩
        · simp only [hqueue, Channel.setState_inbox]
          exact hfull
        · simp only [hqueue, Channel.setState_state_self]
          decide

theorem Awaited.step (h : wire.Awaited) (hwell : wire.queue.WellFormed)
    (hunsplit : wire.Unsplit label) (hstep : wire.step label = some next) : next.Awaited := by
  have hstarted : wire.running = true → wire.started = true :=
    fun hrunning => (Bool.and_eq_true_iff.mp hrunning).1
  cases move_step hstep with
  | ipcCreate _ => exact h.ipcCreate _ _ _
  | ipcRead _ _ _ => exact h.ipcRead hwell _
  | ipcWrite _ _ => exact h.ipcWrite hwell _ _ _ _
  | ipcEnd _ _ _ => exact h.advance .ended
  | ipcClose _ _ _ => exact h.advance .closed
  | ipcEndGone _ _ _ | ipcCloseGone _ _ _ => exact h
  | ipcReadPending _ _ | ipcCloseRelease _ _ | ipcSignal _ _ | dispatch _ _ | dispatchWritable _ _
  | takeWake _ => exact h.frame rfl rfl (Or.inl rfl) Or.inl fun _ _ _ => id
  | openUv hidle _ =>
    have hnone : ¬ wire.stream.pendingWrite ≠ none := fun hparked => h.used (h.parked hparked) hidle
    refine ⟨fun _ => ?_, fun hparked => absurd hparked hnone, fun hparked => absurd hparked hnone⟩
    simp only [apply_queue, Queue.channel_openUv, Channel.setState_state_self]
    decide
  | write hrunning hnone _ _ =>
    rename_i addr chunk _ _
    have hchunk : ¬ wire.Splits chunk := hunsplit chunk rfl
    obtain ⟨hfed, hstate⟩ := send_fed
      { wire with log := { wire.log with written := wire.log.written ++ [chunk] } }
      hwell addr ((wire.log.written ++ [chunk]).length - 1) wire.stream hnone hchunk
    refine ⟨fun _ => ?_, fun _ => hstarted hrunning, fun hparked hopen _ => ?_⟩
    · rw [hstate]
      exact h.used (hstarted hrunning)
    · rw [hstate] at hopen
      exact hfed hparked hopen
  | final hrunning hnone _ _ =>
    refine ⟨fun _ => ?_, fun hparked => absurd hnone hparked, fun hparked => absurd hnone hparked⟩
    have hused := h.used (hstarted hrunning)
    have hle := Channel.le_advance wire.queue.channel .uv .uv .ended
    rw [← Queue.channel_advance] at hle
    simp only [apply_queue, bareWorkletOnIpcEnd, bareQueueEnd]
    revert hle hused
    cases wire.queue.channel.state .uv <;>
      cases (bareQueueAdvance wire.queue .uv .ended).queue.channel.state .uv <;> decide
  | read _ hturn =>
    exact h.frame rfl rfl (Or.inl rfl) (fun _ => Or.inl (by simp [hturn])) fun _ _ _ => id
  | onsignal _ _ _ =>
    exact h.frame rfl rfl (Or.inl rfl) (fun hne => absurd rfl hne) fun hne => absurd rfl hne
  | retryNone _ _ hnone =>
    exact h.frame rfl rfl (Or.inl rfl) (fun _ => Or.inr hnone) fun _ _ _ => id
  | retry hrunning _ hparked =>
    rename_i addr chunk cb _
    have hchunk : ¬ wire.Splits chunk := hunsplit chunk (by simp [offers, hparked])
    obtain ⟨hfed, hstate⟩ := send_fed wire hwell addr cb
      { wire.stream with pendingWrite := none } rfl hchunk
    refine ⟨fun _ => ?_, fun _ => hstarted hrunning, fun hagain hopen _ => ?_⟩
    · simp only [hstate]
      exact h.used (hstarted hrunning)
    · simp only [hstate] at hopen
      exact hfed hagain hopen
  | drain _ _ hnext => exact h.drain hwell _ hnext
  | exit _ _ | abandon _ _ => exact h.close
  | destroy _ =>
    exact h.frame rfl rfl (Or.inl rfl) Or.inl fun _ _ _ hfed => hfed.keep (apply_wakeUv _) rfl rfl

theorem awaited (h : (system.guard Unsplit).Reachable wire) : wire.Awaited := by
  refine h.invariant (I := Awaited) ?_ ?_
  · rintro wire ⟨toUv, toThread, rfl⟩
    have hstopped : (ofQueue (bareQueueCreate toUv toThread)).started ≠ true := Bool.false_ne_true
    exact ⟨fun hstarted => absurd hstarted hstopped, fun hparked => absurd rfl hparked,
      fun hparked => absurd rfl hparked⟩
  · intro wire label next hreach hawaited hstep
    obtain ⟨hunsplit, hnext⟩ := Transition.System.guard_step.mp hstep
    exact hawaited.step (sound hreach.of_guard).queue hunsplit hnext

/-- A split leaves the rest of the chunk behind, with room in the ring and no wake. -/
theorem send_stranded (wire : Wire) (hwell : wire.queue.WellFormed) (addr : Pointer) {chunk : Bytes}
    (cb : Nat)
    (stream : IPCStream) (hsplits : wire.Splits chunk) :
    (wire.send stream addr chunk cb).Stranded ∧
      bareQueueState (wire.send stream addr chunk cb).queue .uv ≠ .closed := by
  obtain ⟨hlen, hopen, hpeer, hroom, hwake⟩ := hsplits
  have hrefused : ¬ wire.queue.channel.Refused .uv := by
    rintro (hended | hclosed)
    · exact hopen hended
    · exact hpeer hclosed
  have haccepted : wire.queue.channel.sendResult .uv = .accepted :=
    Channel.sendResult_accepted.mpr ⟨hrefused, by omega⟩
  unfold Wire.send
  rcases IPCStream.send_cases stream addr chunk cb hwell with
    ⟨hnil, _⟩ | ⟨_, hclosed, _⟩ | ⟨_, hblocked, _⟩ |
    ⟨_, _, ring, hring, hbuffers, wake, hsignal, _, hs⟩
  · simp [hnil] at hlen
  · simp [hclosed] at haccepted
  · simp [hblocked] at haccepted
  · rw [hs]
    refine ⟨⟨?_, ?_, ?_⟩, fun hclosed => ?_⟩
    · simp [IPCStream.accept, Nat.not_le.mpr hlen]
    · have hother : wake ≠ some .uv := by
        rw [hsignal]
        split
        · unfold bareQueueSignalThread
          split <;> simp
        · simp
      simp [apply, hwake, hother]
    · rintro ⟨hfull, -⟩
      have hlength : ring.buffers.length = (wire.queue.channel.inbox .thread).length + 1 := by
        simp [hbuffers]
      have hbound := hring.full_iff.mp hfull
      simp only [Channel.outbox, Port.peer] at hroom
      omega
    · have hstate : wire.queue.channel.state .uv = .closed := hclosed
      exact hopen (by rw [← Queue.channel_state, hstate]; decide)

theorem stranded_of_splits (hwell : wire.queue.WellFormed) (hsplits : ¬ wire.Unsplit label)
    (hstep : wire.step label = some next) :
    next.Stranded ∧ bareQueueState next.queue .uv ≠ .closed := by
  unfold Unsplit at hsplits
  cases move_step hstep with
  | write _ _ _ _ =>
    rename_i addr chunk _ _ _ _
    have hchunk : wire.Splits chunk := by simpa [offers] using hsplits
    exact send_stranded { wire with
        log := { wire.log with written := wire.log.written ++ [chunk] } }
      hwell addr _ _ hchunk
  | retryNone _ _ hnone => simp [offers, hnone] at hsplits
  | retry _ _ hparked =>
    rename_i addr chunk cb _ _
    have hchunk : wire.Splits chunk := by simpa [offers, hparked] using hsplits
    exact send_stranded wire hwell addr cb _ hchunk
  | _ => simp [offers] at hsplits

end Wire

/-- Between two turns of the script, something will have what is parked of a chunk sent.
This holds in a run exactly as long as no chunk is split: one that is leaves its rest
stranded at once. -/
theorem bareIpc_pendingWrite_awaited (wire : Wire) :
    ((Wire.system.guard Wire.Unsplit).Reachable wire →
      bareQueueState wire.queue .uv ≠ .closed → wire.turn = .idle → ¬ wire.Stranded) ∧
    (∀ label next, Wire.system.Reachable wire → Wire.system.step wire label = some next →
      ¬ wire.Unsplit label → next.Stranded ∧ bareQueueState next.queue .uv ≠ .closed) := by
  constructor
  · intro h hopen hidle hstranded
    have hwell := (Wire.sound h.of_guard).queue
    obtain ⟨hparked, hwake, hroom⟩ := hstranded
    rcases (Wire.awaited h).awaited hparked hopen (by simp [hidle]) with hwoken | ⟨hfull, hthread⟩
    · simp [hwake] at hwoken
    · exact hroom ⟨(hwell.ring .thread).full_iff.mpr hfull, hthread⟩
  · intro label next h hstep hsplits
    exact Wire.stranded_of_splits (Wire.sound h).queue hsplits hstep

def Wire.oversized : Bytes := List.replicate (intMax + 1) 0

def Wire.opened : Wire :=
  Wire.system.result (Wire.ofQueue (bareQueueCreate Slots.blank Slots.blank))
    [.openUv none none] rfl

theorem Wire.opened_reachable : Wire.system.Reachable Wire.opened :=
  Transition.System.Reachable.result (S := Wire.system) ⟨_, _, rfl⟩ _ _

theorem Wire.opened_write (chunk : Bytes) : ∃ next,
    Wire.system.step Wire.opened (.write 0 chunk) = some next ∧ next.turn = .idle :=
  ⟨_, rfl, rfl⟩

theorem Wire.opened_splits : ¬ Wire.opened.Unsplit (.write 0 Wire.oversized) := by
  intro hunsplit
  refine hunsplit Wire.oversized rfl ⟨?_, by decide, by decide, by decide, by decide⟩
  simp [Wire.oversized]

/-- The script between two writes that went through, with `n` messages that the host has
yet to read. -/
structure Wire.Flowing (wire : Wire) (n : Nat) : Prop where
  started : wire.started = true
  destroyed : wire.queue.destroyed = false
  opened : wire.queue.uvState = .opened
  host : wire.queue.threadState ≠ .closed
  parked : wire.stream.pendingWrite = none
  idle : wire.turn = .idle
  failed : wire.log.failed = false
  finalled : wire.log.finalled = false
  queued : (wire.queue.channel.inbox .thread).length = n

namespace Wire

variable {wire : Wire}

theorem Flowing.refused {n : Nat} (h : wire.Flowing n) : ¬ wire.queue.channel.Refused .uv := by
  rintro (hended | hclosed)
  · simp only [Queue.channel_state, bareQueueState, h.opened] at hended
    exact absurd hended (by decide)
  · exact h.host hclosed

theorem Flowing.step_write {n : Nat} (h : wire.Flowing n) : wire.step (.write 0 [0]) =
    some ({ wire with log := { wire.log with written := wire.log.written ++ [[0]] } }.send
      wire.stream
      0 [0] ((wire.log.written ++ [[0]]).length - 1)) := by
  simp [step, stepScript, running, h.started, h.destroyed, h.parked, h.failed, h.finalled]

theorem Flowing.write {n : Nat} (h : wire.Flowing n) (hwell : wire.queue.WellFormed)
    (hroom : n < Channel.bound) : ∃ next, wire.step (.write 0 [0]) = some next ∧
      next.Flowing (n + 1) := by
  have haccepted : wire.queue.channel.sendResult .uv = .accepted :=
    Channel.sendResult_accepted.mpr ⟨h.refused, by
      simp only [Channel.outbox, Port.peer, h.queued]
      omega⟩
  refine ⟨_, h.step_write, ?_⟩
  unfold Wire.send
  rcases IPCStream.send_cases wire.stream 0 [0] ((wire.log.written ++ [[0]]).length - 1) hwell with
    ⟨hnil, _⟩ | ⟨_, hclosed, _⟩ | ⟨_, hblocked, _⟩ |
    ⟨_, _, ring, hring, hbuffers, wake, _, _, hs⟩
  · simp at hnil
  · simp [hclosed] at haccepted
  · simp [hblocked] at haccepted
  · rw [hs]
    refine ⟨h.started, h.destroyed, h.opened, h.host, ?_, h.idle, ?_, h.finalled, ?_⟩
    · simpa [IPCStream.accept, intMax] using h.parked
    · simpa [IPCStream.accept, intMax, Log.failed] using h.failed
    · have hlength : ring.buffers.length = n + 1 := by simp [hbuffers, ← h.queued]
      exact hlength

theorem unsplit_byte : wire.Unsplit (.write 0 [0]) := by
  rintro chunk hchunk ⟨hlen, -⟩
  simp only [offers, Option.mem_def, Option.some.injEq] at hchunk
  subst hchunk
  exact absurd hlen (by decide)

theorem opened_flowing : opened.Flowing 0 := by
  constructor <;> decide

theorem filled {n : Nat} (hroom : n ≤ Channel.bound) :
    ∃ wire, (system.guard Unsplit).Reachable wire ∧ wire.Flowing n := by
  induction n with
  | zero =>
    exact ⟨opened, .next (.openUv none none) (.start ⟨_, _, rfl⟩) rfl, opened_flowing⟩
  | succ n ih =>
    obtain ⟨wire, hreach, hflowing⟩ := ih (by omega)
    obtain ⟨next, hstep, hnext⟩ := hflowing.write (sound hreach.of_guard).queue (by omega)
    exact ⟨next,
      hreach.next (.write 0 [0]) (Transition.System.guard_step.mpr ⟨unsplit_byte, hstep⟩),
      hnext⟩

theorem Flowing.write_full (h : wire.Flowing Channel.bound) (hwell : wire.queue.WellFormed) :
    ∃ next, wire.step (.write 0 [0]) = some next ∧ next.stream.pendingWrite ≠ none ∧
      next.turn = .idle ∧ next.queue = wire.queue := by
  have hblocked : wire.queue.channel.sendResult .uv = .blocked :=
    Channel.sendResult_blocked.mpr ⟨h.refused, h.queued⟩
  refine ⟨_, h.step_write, ?_⟩
  unfold Wire.send
  rcases IPCStream.send_cases wire.stream 0 [0] ((wire.log.written ++ [[0]]).length - 1) hwell with
    ⟨hnil, _⟩ | ⟨_, hclosed, _⟩ | ⟨_, _, freed, _, hs⟩ | ⟨_, haccepted, _⟩
  · simp at hnil
  · simp [hclosed] at hblocked
  · rw [hs]
    exact ⟨by simp, h.idle, rfl⟩
  · simp [haccepted] at hblocked

end Wire

/-- The first part where a chunk waits for room in a full ring, the second where one is
split. -/
theorem bareIpc_pendingWrite_oversized :
    (∃ wire, (Wire.system.guard Wire.Unsplit).Reachable wire ∧
      wire.stream.pendingWrite ≠ none ∧
      bareQueueRingFull (bareQueueOutbox wire.queue .uv) = true ∧ ¬ wire.Stranded) ∧
    ∃ next, Wire.system.step Wire.opened (.write 0 Wire.oversized) = some next ∧ next.Stranded := by
  constructor
  · obtain ⟨wire, hreach, hflowing⟩ := Wire.filled le_rfl
    have hwell := (Wire.sound hreach.of_guard).queue
    obtain ⟨next, hstep, hparked, hidle, hqueue⟩ := hflowing.write_full hwell
    have hnext : (Wire.system.guard Wire.Unsplit).Reachable next :=
      hreach.next (.write 0 [0]) (Transition.System.guard_step.mpr ⟨Wire.unsplit_byte, hstep⟩)
    refine ⟨next, hnext, hparked, ?_, (bareIpc_pendingWrite_awaited next).1 hnext ?_ hidle⟩
    · rw [hqueue]
      exact (hwell.ring .thread).full_iff.mpr hflowing.queued
    · simp [hqueue, bareQueueState, hflowing.opened]
  · obtain ⟨next, hstep, -⟩ := Wire.opened_write Wire.oversized
    exact ⟨next, hstep, ((bareIpc_pendingWrite_awaited Wire.opened).2 _ next Wire.opened_reachable
      hstep Wire.opened_splits).1⟩

theorem bareIpc_pendingWrite_stranded : ¬ ∀ wire, Wire.system.Reachable wire →
    bareQueueState wire.queue .uv ≠ .closed → wire.turn = .idle → ¬ wire.Stranded := by
  intro hclaim
  obtain ⟨next, hstep, hidle⟩ := Wire.opened_write Wire.oversized
  obtain ⟨hstranded, hopen⟩ := Wire.stranded_of_splits (Wire.sound Wire.opened_reachable).queue
    Wire.opened_splits hstep
  exact hclaim next (Wire.opened_reachable.next _ hstep) hopen hidle hstranded

end BareKit
