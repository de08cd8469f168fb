import BareKit.Calls
import BareKit.Ends
import BareKit.Wire

/-! The ipc is a byte stream in both directions. One conservation law links the
layers that each keep a part of it: what the script wrote is what the queue accepted
and what is parked, and what the queue accepted is what the host read, what the last
read left over and what is still queued. -/
namespace BareKit

/-- How the writes of the script, the callbacks it was called back with and what the
queue accepted of them hang together. -/
structure Ledger (log : Log) (pending : Option PendingWrite) : Prop where
  accepted : log.accepted <+: log.written.flatten
  parked : ∀ parked, pending = some parked →
    log.written.flatten = log.accepted ++ parked.chunk ∧ parked.cb + 1 = log.written.length ∧
      log.failed = false ∧ log.finalled = false ∧ ∀ settled ∈ log.settled, settled.cb < parked.cb
  clear : pending = none → log.failed = false → log.written.flatten = log.accepted
  finalled : log.finalled = true → log.failed = false
  settled_lt : ∀ settled ∈ log.settled, settled.cb < log.written.length
  once : (log.settled.map Settled.cb).Nodup
  whole : ∀ settled ∈ log.settled, settled.ok = true →
    (log.written.take (settled.cb + 1)).flatten <+: log.accepted

namespace Ledger

variable {log next : Log} {pending : Option PendingWrite} {chunk rest bytes : Bytes} {cb : Nat}

theorem empty : Ledger {} none where
  accepted := List.prefix_rfl
  parked := fun _ hpending => by contradiction
  clear := fun _ _ => rfl
  finalled := fun hfinalled => by contradiction
  settled_lt := fun _ hmem => by contradiction
  once := List.nodup_nil
  whole := fun _ hmem => by contradiction

theorem congr (h : Ledger log pending) (hwritten : next.written = log.written)
    (hsettled : next.settled = log.settled) (hfinalled : next.finalled = log.finalled)
    (haccepted : next.accepted = log.accepted) : Ledger next pending := by
  have hfailed : next.failed = log.failed := by rw [Log.failed, Log.failed, hsettled]
  constructor
  · rw [haccepted, hwritten]
    exact h.accepted
  · rw [haccepted, hwritten, hsettled, hfinalled, hfailed]
    exact h.parked
  · rw [haccepted, hwritten, hfailed]
    exact h.clear
  · rw [hfinalled, hfailed]
    exact h.finalled
  · rw [hsettled, hwritten]
    exact h.settled_lt
  · rw [hsettled]
    exact h.once
  · rw [hsettled, haccepted, hwritten]
    exact h.whole

theorem final (h : Ledger log none) (hfailed : log.failed = false) :
    Ledger { log with finalled := true } none where
  accepted := h.accepted
  parked := fun _ hpending => by contradiction
  clear := h.clear
  finalled := fun _ => hfailed
  settled_lt := h.settled_lt
  once := h.once
  whole := h.whole

theorem write (h : Ledger log none) (hfailed : log.failed = false)
    (hfinalled : log.finalled = false) :
    Ledger { log with written := log.written ++ [chunk] }
      (some ⟨chunk, (log.written ++ [chunk]).length - 1⟩) where
  accepted := by
    simpa using h.accepted.trans (List.prefix_append _ _)
  parked := by
    rintro parked hparked
    cases hparked
    refine ⟨?_, by simp, hfailed, hfinalled, ?_⟩
    · simpa using h.clear rfl hfailed
    · simpa using h.settled_lt
  clear := fun hnone => by contradiction
  finalled := fun _ => hfailed
  settled_lt := by
    intro settled hmem
    have := h.settled_lt settled hmem
    simp only [List.length_append, List.length_singleton]
    omega
  once := h.once
  whole := by
    intro settled hmem hok
    have hlt := h.settled_lt settled hmem
    rw [List.take_append_of_le_length (by omega)]
    exact h.whole settled hmem hok

theorem partly (h : Ledger log (some ⟨chunk, cb⟩)) (hchunk : chunk = bytes ++ rest) :
    Ledger { log with accepted := log.accepted ++ bytes } (some ⟨rest, cb⟩) := by
  obtain ⟨hwritten, hcb, hfailed, hfinalled, hlt⟩ := h.parked _ rfl
  have hall : log.written.flatten = log.accepted ++ bytes ++ rest := by
    rw [hwritten, hchunk, List.append_assoc]
  constructor
  · rw [hall]
    exact List.prefix_append _ _
  · rintro parked hparked
    cases hparked
    exact ⟨hall, hcb, hfailed, hfinalled, hlt⟩
  · intro hnone
    contradiction
  · exact h.finalled
  · exact h.settled_lt
  · exact h.once
  · intro settled hmem hok
    exact (h.whole settled hmem hok).trans (List.prefix_append _ _)

theorem settle (h : Ledger log (some ⟨chunk, cb⟩)) (ok : Bool) (hok : ok = true → chunk = []) :
    Ledger { log with settled := ⟨cb, ok⟩ :: log.settled } none := by
  obtain ⟨hwritten, hcb, hfailed, hfinalled, hlt⟩ := h.parked _ rfl
  simp only at hwritten hcb hlt
  have hnone : ok = true → log.written.flatten = log.accepted := by
    intro htrue
    rw [hwritten, hok htrue, List.append_nil]
  constructor
  · exact h.accepted
  · intro parked hparked
    contradiction
  · intro _ hnext
    apply hnone
    simp only [Log.failed, List.any_cons, Bool.or_eq_false_iff] at hnext
    simpa using hnext.1
  · intro hfinal
    simp [hfinalled] at hfinal
  · intro settled hmem
    rcases List.mem_cons.mp hmem with rfl | hold
    · show cb < log.written.length
      omega
    · exact h.settled_lt settled hold
  · simp only [List.map_cons, List.nodup_cons]
    refine ⟨?_, h.once⟩
    intro hmem
    obtain ⟨settled, hold, heq⟩ := List.mem_map.mp hmem
    have := hlt settled hold
    omega
  · intro settled hmem hsettled
    rcases List.mem_cons.mp hmem with rfl | hold
    · simp only [hcb, List.take_length]
      exact ⟨[], by rw [List.append_nil, hnone hsettled]⟩
    · exact h.whole settled hold hsettled

end Ledger

namespace Wire

variable {wire next : Wire} {ipc : Ipc}

def queued (wire : Wire) (port : Port) : Bytes :=
  ((wire.queue.channel.inbox port).map Buffer.bytes).flatten

def unread (wire : Wire) : Bytes :=
  match wire.ipc with
  | none => []
  | some ipc => ipc.unread

/-- The host has not given up its end. -/
def PortOpen (wire : Wire) : Prop := ∀ ipc, wire.ipc = some ipc → ipc.port = true

/-- Nothing is left for the port and its peer sends no more. -/
def Drained (wire : Wire) (port : Port) : Prop :=
  wire.queue.channel.inbox port = [] ∧ wire.queue.channel.Finished port

structure Sound (wire : Wire) : Prop where
  queue : wire.queue.WellFormed
  ipc : ∀ ipc, wire.ipc = some ipc → ipc.WellFormed
  opened : wire.ipc ≠ none → wire.queue.channel.state .thread ≠ .idle
  holder : wire.held ≠ none → wire.ipc ≠ none
  buffered : ∀ len blocked, wire.held = some (.reading len blocked) → 0 < len
  /-- A read that neither found a message nor would block is at the end of the stream. -/
  reading : ∀ len ipc, wire.held = some (.reading len false) → wire.ipc = some ipc →
    ipc.port = true → ipc.pending.base = none → wire.Drained .thread
  toHost : wire.PortOpen →
    wire.log.received ++ wire.unread ++ wire.queued .thread = wire.log.accepted
  received : wire.log.received <+: wire.log.accepted
  receivedEnd : wire.log.receivedEnd = true →
    wire.queue.channel.Finished .thread ∧ wire.log.received = wire.log.accepted
  toWorklet : wire.log.pushed ++ wire.queued .uv = wire.log.sent
  pushedEnd : wire.log.pushedEnd = true → wire.Drained .uv
  ledger : Ledger wire.log wire.stream.pendingWrite

section Apply

variable {ρ : Type} (outcome : Outcome ρ)

@[simp] theorem apply_queue : (wire.apply outcome).queue = outcome.queue := rfl
@[simp] theorem apply_ipc : (wire.apply outcome).ipc = wire.ipc := rfl
@[simp] theorem apply_held : (wire.apply outcome).held = wire.held := rfl
@[simp] theorem apply_stream : (wire.apply outcome).stream = wire.stream := rfl
@[simp] theorem apply_turn : (wire.apply outcome).turn = wire.turn := rfl
@[simp] theorem apply_log : (wire.apply outcome).log = wire.log := rfl
@[simp] theorem apply_started : (wire.apply outcome).started = wire.started := rfl

end Apply

theorem Sound.frame (h : wire.Sound) (hqueue : next.queue.WellFormed)
    (hinbox : next.queue.channel.inbox = wire.queue.channel.inbox)
    (hstate : ∀ port, wire.queue.channel.state port ≤ next.queue.channel.state port)
    (hipc : next.ipc = wire.ipc) (hlog : next.log = wire.log)
    (hpending : next.stream.pendingWrite = wire.stream.pendingWrite)
    (hholder : next.held ≠ none → next.ipc ≠ none)
    (hheld : ∀ len blocked, next.held = some (.reading len blocked) → next.held = wire.held) :
    next.Sound := by
  have hfinished : ∀ port, wire.queue.channel.Finished port → next.queue.channel.Finished port :=
    fun port hfin => Nat.le_trans hfin (hstate port.peer)
  have hdrained : ∀ port, wire.Drained port → next.Drained port := by
    intro port hdrained
    exact ⟨by rw [hinbox, hdrained.1], hfinished port hdrained.2⟩
  have hqueued : ∀ port, next.queued port = wire.queued port := by
    intro port
    rw [queued, queued, hinbox]
  constructor
  · exact hqueue
  · rw [hipc]
    exact h.ipc
  · rw [hipc]
    intro hopen hidle
    have hle := hstate .thread
    have hused := h.opened hopen
    rw [hidle] at hle
    revert hle hused
    cases wire.queue.channel.state .thread <;> decide
  · exact hholder
  · intro len blocked hreading
    exact h.buffered len blocked (hheld len blocked hreading ▸ hreading)
  · intro len ipc hreading hsome hport hbase
    rw [hipc] at hsome
    exact hdrained .thread
      (h.reading len ipc (hheld len false hreading ▸ hreading) hsome hport hbase)
  · rw [hlog, hqueued, PortOpen, unread, hipc]
    exact h.toHost
  · rw [hlog]
    exact h.received
  · rw [hlog]
    intro hend
    obtain ⟨hfin, hall⟩ := h.receivedEnd hend
    exact ⟨hfinished .thread hfin, hall⟩
  · rw [hlog, hqueued]
    exact h.toWorklet
  · rw [hlog]
    intro hend
    exact hdrained .uv (h.pushedEnd hend)
  · rw [hlog, hpending]
    exact h.ledger

theorem Sound.advance (h : wire.Sound) (port : Port) (state : EndState) :
    (wire.apply (bareQueueAdvance wire.queue port state)).Sound := by
  refine h.frame (h.queue.advance port state) ?_ ?_ rfl rfl rfl h.holder fun _ _ _ => rfl
  · rw [apply_queue, Queue.channel_advance, Channel.advance_inbox]
  · intro other
    rw [apply_queue, Queue.channel_advance]
    exact Channel.le_advance _ port other state

theorem Sound.ipcCreate (h : wire.Sound) (onSignal data : Pointer) :
    Sound { wire.apply (bareIpcCreate wire.queue onSignal data) with
      ipc := (bareIpcCreate wire.queue onSignal data).result.or wire.ipc } := by
  have hwell := h.queue.openThread (some onSignal) (some data)
  have hchannel := Queue.channel_openThread wire.queue (some onSignal) (some data)
  have hresult := Queue.openThread_result wire.queue (some onSignal) (some data)
  by_cases hidle : wire.queue.channel.state .thread = .idle
  · have hnone : wire.ipc = none := not_not.mp fun hopen => h.opened hopen hidle
    have hheld : wire.held = none := not_not.mp fun hheld => h.holder hheld hnone
    rw [if_neg (not_not.mpr hidle)] at hchannel
    have hfinished : ∀ port, wire.queue.channel.Finished port →
        (wire.queue.channel.setState .thread .opened).Finished port := by
      intro port hfin
      cases port
      · exact absurd hfin (by simp [Channel.Finished, Port.peer, hidle]; decide)
      · exact hfin
    have hsome : (bareIpcCreate wire.queue onSignal data).result = some ⟨true, ⟨none, 0⟩, 0⟩ := by
      simp [bareIpcCreate, hresult, hidle]
    have hqueue : (bareIpcCreate wire.queue onSignal data).queue =
      (bareQueueOpenThread wire.queue (some onSignal) (some data)).queue := rfl
    constructor
    · exact hwell
    · intro ipc hipc
      simp only [hsome, Option.some_or, Option.some.injEq] at hipc
      subst hipc
      exact ⟨fun hpending => absurd rfl hpending, fun base hbase => by contradiction⟩
    · intro _
      simp only [apply_queue, hqueue, hchannel]
      simp
    · intro hne
      exact absurd hheld hne
    · intro len blocked hreading
      simp [hheld] at hreading
    · intro len ipc hreading
      simp [hheld] at hreading
    · intro _
      have hall := h.toHost (fun ipc hipc => by simp [hnone] at hipc)
      simp only [queued, unread, apply_queue, hqueue, hchannel, hsome, apply_log, Option.some_or,
        Ipc.unread, Channel.setState_inbox]
      simpa only [queued, unread, hnone] using hall
    · exact h.received
    · intro hend
      obtain ⟨hfin, hall⟩ := h.receivedEnd hend
      refine ⟨?_, hall⟩
      simp only [apply_queue, hqueue, hchannel]
      exact hfinished .thread hfin
    · simp only [queued, apply_queue, hqueue, hchannel, apply_log, Channel.setState_inbox]
      exact h.toWorklet
    · intro hend
      obtain ⟨hinbox, hfin⟩ := h.pushedEnd hend
      simp only [Drained, apply_queue, hqueue, hchannel]
      exact ⟨hinbox, hfinished .uv hfin⟩
    · exact h.ledger
  · rw [if_pos hidle] at hchannel
    have hnone : (bareIpcCreate wire.queue onSignal data).result = none := by
      simp [bareIpcCreate, hresult, hidle]
    have hqueue : (wire.apply (bareIpcCreate wire.queue onSignal data)).queue.channel =
      wire.queue.channel := hchannel
    refine h.frame hwell ?_ ?_ ?_ rfl rfl ?_ fun _ _ _ => rfl
    · simp only [hqueue]
    · intro port
      simp only [hqueue]
      exact Nat.le_refl _
    · simp only [hnone, Option.none_or]
    · simp only [hnone, Option.none_or]
      exact h.holder

theorem Sound.ipcRead (h : wire.Sound) (hipc : wire.ipc = some ipc) {len : Nat} (hlen : 0 < len) :
    Sound { wire.apply (bareIpcReadQueue wire.queue ipc) with
      ipc := some (bareIpcReadQueue wire.queue ipc).result.1
      held := some (.reading len (bareIpcReadQueue wire.queue ipc).result.2) } := by
  have hwell := h.ipc ipc hipc
  have hopened : wire.queue.channel.state .thread ≠ .idle := h.opened (by simp [hipc])
  have hbuffered : ∀ (flag : Bool) (other : Nat) (blocked : Bool),
      some (Section.reading len flag) = some (.reading other blocked) → 0 < other := by
    intro flag other blocked heq
    cases heq
    exact hlen
  rcases Ipc.readQueue_cases ipc h.queue with ⟨hr, hrest⟩ | ⟨hport, hbase, hcase⟩
  · rw [hr]
    constructor
    · exact h.queue
    · rintro other hother
      cases hother
      exact hwell
    · exact fun _ => hopened
    · simp
    · exact hbuffered false
    · rintro _ other - hother hport hbase
      cases hother
      exact absurd hbase (hrest hport)
    · intro hopen
      have hall := h.toHost (fun other hother => hopen other (hother ▸ hipc.symm))
      simp only [unread, hipc] at hall
      exact hall
    · exact h.received
    · exact h.receivedEnd
    · exact h.toWorklet
    · exact h.pushedEnd
    · exact h.ledger
  · have hall := h.toHost (fun other hother => by
      rw [hipc] at hother
      cases hother
      exact hport)
    have hnothing : ipc.unread = [] := by simp [Ipc.unread, hbase]
    simp only [unread, hipc, hnothing, List.append_nil] at hall
    rcases hcase with ⟨buffer, rest, ring, hinbox, hring, hbuffers, wake, _,
      hr⟩ | ⟨hinbox, hfin, hr⟩ |
      ⟨hinbox, hfin, hr⟩
    · rw [hr]
      have hmem : buffer ∈ (bareQueueInbox wire.queue .thread).buffers := by
        rw [← Queue.channel_inbox, hinbox]
        simp
      have hsized := (h.queue.ring .thread).sized hmem
      constructor
      · exact h.queue.setInbox .thread _ hring
      · rintro other hother
        cases hother
        refine ⟨fun _ => hport, ?_⟩
        rintro base hsome
        cases hsome
        exact ⟨rfl, hsized.1⟩
      · exact fun _ => hopened
      · simp
      · exact hbuffered false
      · rintro _ other - hother _ hnone
        cases hother
        cases hnone
      · intro _
        have hqueued : wire.queued .thread = buffer.bytes ++ (rest.map Buffer.bytes).flatten := by
          simp [queued, hinbox]
        rw [hqueued] at hall
        simp only [apply_log, unread, Ipc.unread, Buffer.message, List.drop_zero]
        rw [List.append_assoc, ← hall]
        congr 2
        exact congrArg (fun buffers => (buffers.map Buffer.bytes).flatten) hbuffers
      · exact h.received
      · exact h.receivedEnd
      · exact h.toWorklet
      · exact h.pushedEnd
      · exact h.ledger
    · rw [hr]
      constructor
      · exact h.queue
      · rintro other hother
        cases hother
        exact ⟨fun hpending => absurd rfl hpending, fun base hsome => by contradiction⟩
      · exact fun _ => hopened
      · simp
      · exact hbuffered false
      · intro _ _ _ _ _ _
        exact ⟨hinbox, hfin⟩
      · intro _
        simp only [unread, Ipc.unread, List.append_nil]
        exact hall
      · exact h.received
      · exact h.receivedEnd
      · exact h.toWorklet
      · exact h.pushedEnd
      · exact h.ledger
    · rw [hr]
      constructor
      · exact h.queue
      · rintro other hother
        cases hother
        exact ⟨fun hpending => absurd hbase hpending, fun base hsome => by simp [hbase] at hsome⟩
      · exact fun _ => hopened
      · simp
      · exact hbuffered true
      · rintro other _ heq
        cases heq
      · intro _
        simp only [unread, Ipc.unread, hbase, List.append_nil]
        exact hall
      · exact h.received
      · exact h.receivedEnd
      · exact h.toWorklet
      · exact h.pushedEnd
      · exact h.ledger

theorem Sound.ipcReadPending (h : wire.Sound) (hipc : wire.ipc = some ipc) {len : Nat}
    {blocked : Bool} (hheld : wire.held = some (.reading len blocked)) {read : IpcRead}
    (hread : read = bareIpcReadPending wire.queue ipc len blocked) :
    Sound { wire with
      ipc := some read.ipc
      held := if read.signal then some .signalling else none
      log :=
        { wire.log with
          received := wire.log.received ++ read.data
          receivedEnd := wire.log.receivedEnd || (ipc.port && read.result == 0) } } := by
  have hopened : wire.queue.channel.state .thread ≠ .idle := h.opened (by simp [hipc])
  have hopen : ipc.port = true → wire.PortOpen := by
    intro hport other hother
    rw [hipc] at hother
    cases hother
    exact hport
  have hunread : wire.unread = ipc.unread := by rw [unread, hipc]
  have hreading : ∀ (signal : Bool) (other : Nat) (flag : Bool),
      (if signal then some Section.signalling else none) ≠ some (.reading other flag) := by
    intro signal other flag
    cases signal <;> simp
  have hlen := h.buffered len blocked hheld
  rcases (h.ipc ipc hipc).readPending_cases wire.queue hlen blocked with
    ⟨hbase, hr⟩ | ⟨hbase, hpos, hnext, hport, hdata, _⟩
  · rw [hread, hr]
    have hnothing : ipc.unread = [] := by simp [Ipc.unread, hbase]
    constructor
    · exact h.queue
    · rintro other hother
      cases hother
      exact h.ipc ipc hipc
    · exact fun _ => hopened
    · simp
    · intro other flag heq
      exact absurd heq (hreading false other flag)
    · intro other _ heq
      exact absurd heq (hreading false other false)
    · intro hall
      have hsum := h.toHost (hopen (hall ipc rfl))
      simp only [hunread] at hsum
      simp only [unread, List.append_nil]
      exact hsum
    · simpa using h.received
    · intro hend
      simp only [Bool.or_eq_true, Bool.and_eq_true, beq_iff_eq] at hend
      rcases hend with hend | ⟨hport, hzero⟩
      · simpa using h.receivedEnd hend
      · have hblocked : blocked = false := by
          cases blocked
          · rfl
          · simp [bareIpcWouldBlock] at hzero
        subst hblocked
        obtain ⟨hinbox, hfin⟩ := h.reading len ipc hheld hipc hport hbase
        have hsum := h.toHost (hopen hport)
        rw [hunread, hnothing, queued, hinbox] at hsum
        refine ⟨hfin, ?_⟩
        simpa using hsum
    · exact h.toWorklet
    · exact h.pushedEnd
    · exact h.ledger.congr rfl rfl rfl rfl
  · rw [← hread] at hpos hnext hport hdata
    have hopenPort : ipc.port = true := (h.ipc ipc hipc).port hbase
    have hsum := h.toHost (hopen hopenPort)
    rw [hunread, ← hdata, ← List.append_assoc, List.append_assoc _ read.ipc.unread] at hsum
    constructor
    · exact h.queue
    · rintro other hother
      cases hother
      exact hnext
    · exact fun _ => hopened
    · simp
    · intro other flag heq
      exact absurd heq (hreading _ other flag)
    · intro other _ heq
      exact absurd heq (hreading _ other false)
    · intro _
      simp only [unread]
      rw [List.append_assoc]
      exact hsum
    · rw [← hsum]
      exact List.prefix_append _ _
    · intro hend
      have hzero : read.result ≠ 0 := by omega
      simp only [beq_eq_false_iff_ne.mpr hzero, Bool.and_false, Bool.or_false] at hend
      obtain ⟨hfin, hall⟩ := h.receivedEnd hend
      rw [← hall] at hsum
      have hnone : read.data = [] := by
        have hlength := congrArg List.length hsum
        simp only [List.length_append] at hlength
        exact List.length_eq_zero_iff.mp (by omega)
      exact ⟨hfin, by simp [hnone, hall]⟩
    · exact h.toWorklet
    · exact h.pushedEnd
    · exact h.ledger.congr rfl rfl rfl rfl

theorem Sound.ipcWrite (h : wire.Sound) (addr : Pointer) (data : Bytes) :
    Sound { wire.apply (bareIpcWrite wire.queue ipc addr data) with
      log :=
        { wire.log with
          sent := wire.log.sent ++
            data.take (bareIpcWrite wire.queue ipc addr data).result.toNat } } := by
  rcases Ipc.write_cases ipc h.queue addr data with ⟨hqueue, _, hnone⟩ |
    ⟨_, _, haccepted, ring, hring, hbuffers, wake, _, hw⟩
  · rw [hnone, List.append_nil]
    have hchannel : (wire.apply (bareIpcWrite wire.queue ipc addr data)).queue = wire.queue :=
      hqueue
    refine h.frame ?_ ?_ ?_ rfl rfl rfl h.holder fun _ _ _ => rfl
    · simpa only [hchannel] using h.queue
    · simp only [hchannel]
    · intro port
      simp only [hchannel]
      exact Nat.le_refl _
  · rw [hw]
    have hrefused := (Channel.sendResult_accepted.mp haccepted).1
    constructor
    · exact h.queue.setInbox .uv _ hring
    · exact h.ipc
    · exact h.opened
    · exact h.holder
    · exact h.buffered
    · exact h.reading
    · exact h.toHost
    · exact h.received
    · exact h.receivedEnd
    · have hqueued : ((ring.buffers).map Buffer.bytes).flatten =
          wire.queued .uv ++ data.take intMax := by
        simp [queued, hbuffers]
      have htake : data.take (min data.length intMax) = data.take intMax :=
        Queue.take_offered data
      simp only [Int.toNat_natCast, htake]
      rw [← h.toWorklet, List.append_assoc, ← hqueued]
      rfl
    · intro hend
      exact absurd (Or.inl (h.pushedEnd hend).2) hrefused
    · exact h.ledger.congr rfl rfl rfl rfl

theorem Sound.ipcCloseRelease (h : wire.Sound) (hipc : wire.ipc = some ipc) :
    Sound { wire with ipc := some (bareIpcCloseRelease ipc).1, held := some .signalling } := by
  constructor
  · exact h.queue
  · rintro other hother
    cases hother
    exact ⟨fun hpending => absurd rfl hpending, fun base hbase => by contradiction⟩
  · exact fun _ => h.opened (by simp [hipc])
  · simp
  · intro len blocked hreading
    cases hreading
  · intro len other hreading
    cases hreading
  · intro hopen
    have hport := hopen _ rfl
    contradiction
  · exact h.received
  · exact h.receivedEnd
  · exact h.toWorklet
  · exact h.pushedEnd
  · exact h.ledger

theorem Sound.park (h : wire.Sound) (chunk : Bytes) (hnone : wire.stream.pendingWrite = none)
    (hfailed : wire.log.failed = false) (hfinalled : wire.log.finalled = false) :
    Sound { wire with
      stream :=
        { wire.stream with
          pendingWrite := some ⟨chunk, (wire.log.written ++ [chunk]).length - 1⟩ }
      log := { wire.log with written := wire.log.written ++ [chunk] } } := by
  constructor
  · exact h.queue
  · exact h.ipc
  · exact h.opened
  · exact h.holder
  · exact h.buffered
  · exact h.reading
  · exact h.toHost
  · exact h.received
  · exact h.receivedEnd
  · exact h.toWorklet
  · exact h.pushedEnd
  · have hledger := h.ledger
    rw [hnone] at hledger
    exact hledger.write hfailed hfinalled

theorem Sound.send (h : wire.Sound) (addr : Pointer) {chunk : Bytes} {cb : Nat}
    (hparked : wire.stream.pendingWrite = some ⟨chunk, cb⟩) :
    Sound (wire.send { wire.stream with pendingWrite := none } addr chunk cb) := by
  have hledger := h.ledger
  rw [hparked] at hledger
  unfold Wire.send
  rcases IPCStream.send_cases { wire.stream with pendingWrite := none } addr chunk cb h.queue with
    ⟨hchunk, hn, hs⟩ | ⟨_, _, freed, hn, hs⟩ | ⟨_, _, freed, hn, hs⟩ |
    ⟨_, haccepted, ring, hring, hbuffers, wake, _, hn, hs⟩
  · -- an empty chunk
    rw [hn, hs]
    have hnext := hledger.settle true fun _ => hchunk
    refine { h with toHost := ?_, received := ?_, receivedEnd := ?_, ledger := ?_ }
    all_goals simp only [Option.getD_some, Int.toNat_zero, List.take_zero, List.append_nil]
    · exact h.toHost
    · exact h.received
    · exact h.receivedEnd
    · exact hnext.congr rfl rfl rfl rfl
  · -- a closed end
    rw [hn, hs]
    have hnext := hledger.settle false fun hfalse => by contradiction
    refine { h with toHost := ?_, received := ?_, receivedEnd := ?_, ledger := ?_ }
    all_goals simp only [Option.getD_none, Int.toNat_zero, List.take_zero, List.append_nil]
    · exact h.toHost
    · exact h.received
    · exact h.receivedEnd
    · exact hnext.congr rfl rfl rfl rfl
  · -- a full ring
    rw [hn, hs]
    refine { h with toHost := ?_, received := ?_, receivedEnd := ?_, ledger := ?_ }
    all_goals simp only [Option.getD_some, Int.reduceNeg, Int.reduceToNat, List.take_zero,
      List.append_nil]
    · exact h.toHost
    · exact h.received
    · exact h.receivedEnd
    · exact hledger.congr rfl rfl rfl rfl
  · -- as much of the chunk as one message holds
    rw [hn, hs]
    have hrefused := (Channel.sendResult_accepted.mp haccepted).1
    have htake : chunk.take (min chunk.length intMax) = chunk.take intMax :=
      Queue.take_offered chunk
    have hqueued : (ring.buffers.map Buffer.bytes).flatten =
        wire.queued .thread ++ chunk.take intMax := by
      simp [queued, hbuffers]
    simp only [Option.getD_some, Int.toNat_natCast, htake]
    constructor
    · exact h.queue.setInbox .thread _ hring
    · exact h.ipc
    · exact h.opened
    · exact h.holder
    · exact h.buffered
    · intro len ipc hheld hipc hport hbase
      exact absurd (Or.inl (h.reading len ipc hheld hipc hport hbase).2) hrefused
    · intro hopen
      rw [← h.toHost hopen, List.append_assoc, List.append_assoc, List.append_assoc, ← hqueued]
      rfl
    · exact h.received.trans (List.prefix_append _ _)
    · intro hend
      exact absurd (Or.inl (h.receivedEnd hend).1) hrefused
    · exact h.toWorklet
    · exact h.pushedEnd
    · have hpart := hledger.partly (List.take_append_drop intMax chunk).symm
      unfold IPCStream.accept
      split
      · rename_i hlen
        have hrest : chunk.drop intMax = [] := List.drop_eq_nil_of_le hlen
        exact (hpart.settle true fun _ => hrest).congr rfl rfl rfl rfl
      · exact hpart.congr rfl rfl rfl rfl

theorem Sound.final (h : wire.Sound) (hnone : wire.stream.pendingWrite = none)
    (hfailed : wire.log.failed = false) :
    Sound { wire.apply (bareWorkletOnIpcEnd wire.queue) with
      log := { wire.log with finalled := true } } := by
  have hframe : (wire.apply (bareWorkletOnIpcEnd wire.queue)).Sound := h.advance .uv .ended
  have hledger := h.ledger
  rw [hnone] at hledger
  constructor
  · exact hframe.queue
  · exact hframe.ipc
  · exact hframe.opened
  · exact hframe.holder
  · exact hframe.buffered
  · exact hframe.reading
  · exact hframe.toHost
  · exact hframe.received
  · exact hframe.receivedEnd
  · exact hframe.toWorklet
  · exact hframe.pushedEnd
  · simp only [apply_stream, hnone]
    exact hledger.final hfailed

theorem Sound.drain (h : wire.Sound) (more : Bool)
    (hstep : wire.stepScript (.drain more) = some next) : next.Sound := by
  simp only [stepScript] at hstep
  split at hstep
  · rcases wire.stream.drain_cases h.queue more with ⟨hd, _⟩ | ⟨hinbox, hfin, hd⟩ |
      ⟨buffer, rest, ring, hinbox, hring, hbuffers, wake, _, hd⟩
    · simp only [hd, Option.some.injEq] at hstep
      subst hstep
      exact h.frame h.queue rfl (fun _ => Nat.le_refl _) rfl rfl rfl h.holder fun _ _ _ => rfl
    · simp only [hd, Option.some.injEq] at hstep
      subst hstep
      refine { h with pushedEnd := ?_, ledger := ?_ }
      · exact fun _ => ⟨hinbox, hfin⟩
      · exact h.ledger.congr rfl rfl rfl rfl
    · simp only [hd, Option.some.injEq] at hstep
      subst hstep
      constructor
      · exact h.queue.setInbox .uv _ hring
      · exact h.ipc
      · exact h.opened
      · exact h.holder
      · exact h.buffered
      · exact h.reading
      · exact h.toHost
      · exact h.received
      · exact h.receivedEnd
      · have hall := h.toWorklet
        have hqueued : wire.queued .uv = buffer.bytes ++ (rest.map Buffer.bytes).flatten := by
          simp [queued, hinbox]
        rw [hqueued, ← List.append_assoc, ← hbuffers] at hall
        exact hall
      · intro hend
        have := (h.pushedEnd hend).1
        simp [hinbox] at this
      · exact h.ledger.congr rfl rfl rfl rfl
  · contradiction

theorem Sound.setHeld (h : wire.Sound) (hipc : wire.ipc ≠ none) {held : Option Section}
    (hheld : ∀ len blocked, held ≠ some (.reading len blocked)) : Sound { wire with held } :=
  h.frame h.queue rfl (fun _ => Nat.le_refl _) rfl rfl rfl (fun _ => hipc)
    fun len blocked hreading => absurd hreading (hheld len blocked)

theorem Sound.woken (h : wire.Sound) (wakeThread : Bool) : Sound { wire with wakeThread } :=
  h.frame h.queue rfl (fun _ => Nat.le_refl _) rfl rfl rfl h.holder fun _ _ _ => rfl

theorem Sound.step (h : wire.Sound) {label : Step} (hstep : wire.step label = some next) :
    next.Sound := by
  cases move_step hstep with
  | ipcCreate _ => exact h.ipcCreate _ _
  | ipcRead _ hipc hlen => exact h.ipcRead hipc hlen
  | ipcReadPending hipc hheld => exact h.ipcReadPending hipc hheld rfl
  | ipcWrite _ _ => exact h.ipcWrite _ _
  | ipcEnd _ hipc _ | ipcClose _ hipc _ =>
    exact (h.advance .thread _).setHeld (by simp [hipc]) (by simp)
  | ipcEndGone _ _ _ | ipcCloseGone _ _ _ => exact h
  | ipcCloseRelease hipc _ => exact h.ipcCloseRelease hipc
  | ipcSignal hipc _ =>
    have hfree : Sound { wire with held := none } := h.setHeld (by simp [hipc]) (by simp)
    exact hfree.woken true
  | takeWake _ => exact h.woken false
  | read _ _ | onsignal _ _ _ | retryNone _ _ _ =>
    exact h.frame h.queue rfl (fun _ => Nat.le_refl _) rfl rfl rfl h.holder fun _ _ _ => rfl
  | dispatch _ hipc | dispatchWritable hipc _ => exact h.setHeld (by simp [hipc]) (by simp)
  | openUv hidle _ =>
    rename_i onRecv data _
    have hchannel := Queue.channel_openUv wire.queue onRecv data
    refine h.frame (h.queue.openUv onRecv data) ?_ ?_ rfl rfl rfl h.holder fun _ _ _ => rfl
    · simp only [apply_queue, hchannel, Channel.setState_inbox]
    · intro port
      have hstate : wire.queue.channel.state .uv = .idle := hidle
      simp only [apply_queue, hchannel]
      cases port
      · rw [hstate, Channel.setState_state_self]
        decide
      · exact Nat.le_refl _
  | write _ hnone hfailed hfinalled =>
    rename_i addr chunk _
    have hsent := (h.park chunk hnone hfailed hfinalled).send addr rfl
    have hstream : { wire.stream with pendingWrite := none } = wire.stream := by
      rw [← hnone]
    simp only [hstream] at hsent
    exact hsent
  | final _ hnone hfailed _ => exact h.final hnone hfailed
  | retry _ _ hparked =>
    rename_i addr chunk cb _ _
    have hsent := h.send addr hparked
    exact hsent.frame hsent.queue rfl (fun _ => Nat.le_refl _) rfl rfl rfl hsent.holder
      fun _ _ _ => rfl
  | drain _ _ hnext => exact h.drain _ hnext
  | exit _ _ | abandon _ _ => exact h.advance .uv .closed
  | destroy _ =>
    exact h.frame ⟨h.queue.ring⟩ rfl (fun _ => Nat.le_refl _) rfl rfl rfl h.holder fun _ _ _ => rfl

theorem Sound.create (toUv toThread : Slots) : (ofQueue (bareQueueCreate toUv toThread)).Sound := by
  obtain ⟨hwell, hchannel⟩ := Queue.refines_create toUv toThread
  have hempty : ∀ port, (ofQueue (bareQueueCreate toUv toThread)).queued port = [] := by
    intro port
    simp only [queued, ofQueue, hchannel]
    rfl
  refine
    { queue := hwell
      ipc := fun ipc hipc => by cases hipc
      opened := fun hne => absurd rfl hne
      holder := fun hne => absurd rfl hne
      buffered := fun len blocked hheld => by cases hheld
      reading := fun len ipc hheld => by cases hheld
      toHost := fun _ => ?_
      received := List.prefix_rfl
      receivedEnd := fun hend => by cases hend
      toWorklet := ?_
      pushedEnd := fun hend => by cases hend
      ledger := Ledger.empty }
  · rw [hempty]
    rfl
  · rw [hempty]
    rfl

theorem sound (h : system.Reachable wire) : wire.Sound := by
  refine h.invariant (I := Sound) ?_ fun wire label next _ hsound hstep => hsound.step hstep
  rintro wire ⟨toUv, toThread, rfl⟩
  exact Sound.create toUv toThread

end Wire

/-- What either end has taken from the ipc is a beginning of what the other end put in,
and all of it at the end of the stream. Callbacks are called once, and without an error
only for chunks that the queue accepted to the last byte. -/
theorem bareIpc_byteStream (wire : Wire) (h : Wire.system.Reachable wire) :
    wire.log.received <+: wire.log.written.flatten ∧
    wire.log.pushed <+: wire.log.sent ∧
    (wire.log.receivedEnd = true → wire.log.finalled = true →
      wire.log.received = wire.log.written.flatten) ∧
    (wire.log.pushedEnd = true → wire.log.pushed = wire.log.sent) ∧
    (wire.log.settled.map Settled.cb).Nodup ∧
    (∀ settled ∈ wire.log.settled, settled.cb < wire.log.written.length ∧ (settled.ok = true →
      (wire.log.written.take (settled.cb + 1)).flatten <+: wire.log.accepted)) := by
  have hsound := Wire.sound h
  have hledger := hsound.ledger
  refine ⟨hsound.received.trans hledger.accepted, ?_, ?_, ?_, hledger.once, ?_⟩
  · rw [← hsound.toWorklet]
    exact List.prefix_append _ _
  · intro hend hfinalled
    rw [(hsound.receivedEnd hend).2]
    cases hpending : wire.stream.pendingWrite with
    | none => exact (hledger.clear hpending (hledger.finalled hfinalled)).symm
    | some parked =>
      have hnot := (hledger.parked parked hpending).2.2.2.1
      simp [hfinalled] at hnot
  · intro hend
    have hall := hsound.toWorklet
    simp only [Wire.queued, (hsound.pushedEnd hend).1, List.map_nil, List.flatten_nil,
      List.append_nil] at hall
    exact hall
  · intro settled hmem
    exact ⟨hledger.settled_lt settled hmem, hledger.whole settled hmem⟩

def Wire.readToEnd : Wire :=
  Wire.system.result (Wire.ofQueue (bareQueueCreate Slots.blank Slots.blank))
    [.openUv none none, .ipcCreate 0 0, .write 0 [7], .final, .ipcRead 4, .ipcReadPending,
      .ipcSignal, .ipcRead 4, .ipcReadPending] (by decide +kernel)

theorem bareIpc_byteStream_readToEnd :
    Wire.readToEnd.log.received = [7] ∧
      Wire.readToEnd.log.received = Wire.readToEnd.log.written.flatten := by
  refine ⟨by decide +kernel, ?_⟩
  have hreach : Wire.system.Reachable Wire.readToEnd :=
    Transition.System.Reachable.result (S := Wire.system) ⟨_, _, rfl⟩ _ _
  exact (bareIpc_byteStream Wire.readToEnd hreach).2.2.1 (by decide +kernel)
    (by decide +kernel)

end BareKit
