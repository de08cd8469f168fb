import BareKit.Ipc
import BareKit.IPCStream
import BareKit.Refinement

/-! What the functions of the two ends do to the channel: one lemma for each of
them, from which everything about runs follows without unfolding them again. -/
namespace BareKit

namespace IPCStream

variable {queue : Queue} (stream : IPCStream) (addr : Pointer) (chunk : Bytes) (cb : Nat)

def accept : IPCStream × Option Settled :=
  if chunk.length ≤ intMax then (stream, some ⟨cb, true⟩)
  else ({ stream with pendingWrite := some ⟨chunk.drop intMax, cb⟩ }, none)

/-- An empty chunk succeeds whatever the queue is like. Any other one fails with a
closed end, is parked for a full ring, or is accepted as far as one message holds. -/
theorem send_cases (h : queue.WellFormed) :
    (chunk = [] ∧ bareWorkletOnIpcWrite queue addr chunk = ⟨queue, some 0, none, none⟩ ∧
      stream.send queue addr chunk cb = ⟨queue, (stream, some ⟨cb, true⟩), none, none⟩) ∨
    (chunk ≠ [] ∧ queue.channel.sendResult .uv = .closed ∧ ∃ freed,
      bareWorkletOnIpcWrite queue addr chunk = ⟨queue, none, none, freed⟩ ∧
      stream.send queue addr chunk cb = ⟨queue, (stream, some ⟨cb, false⟩), none, freed⟩) ∨
    (chunk ≠ [] ∧ queue.channel.sendResult .uv = .blocked ∧ ∃ freed,
      bareWorkletOnIpcWrite queue addr chunk = ⟨queue, some (-1), none, freed⟩ ∧
      stream.send queue addr chunk cb =
        ⟨queue, ({ stream with pendingWrite := some ⟨chunk, cb⟩ }, none), none, freed⟩) ∨
    (chunk ≠ [] ∧ queue.channel.sendResult .uv = .accepted ∧ ∃ next : Ring, next.WellFormed ∧
      next.buffers = queue.channel.inbox .thread ++ [⟨addr, chunk.take intMax⟩] ∧
      ∃ wake, wake =
      (if queue.channel.inbox .thread = [] then bareQueueSignalThread queue else none) ∧
      bareWorkletOnIpcWrite queue addr chunk =
        ⟨queue.setInbox .thread next, some (min chunk.length intMax : Nat), wake, none⟩ ∧
      stream.send queue addr chunk cb =
        ⟨queue.setInbox .thread next, stream.accept chunk cb, wake, none⟩) := by
  by_cases hchunk : chunk = []
  · left
    simp [hchunk, send, bareWorkletOnIpcWrite, Queue.write_nil, bareQueueClosed]
  · right
    rcases h.write_cases .uv addr chunk hchunk with ⟨hs, hw⟩ | ⟨hs, hw⟩ | ⟨hs, next,
      hnext, hbuf, hw⟩
    · left
      refine ⟨hchunk, hs, some ⟨addr, chunk.take (Queue.offered chunk)⟩, ?_, ?_⟩
      · simp only [bareWorkletOnIpcWrite, hw, if_true]
      · simp [send, bareWorkletOnIpcWrite, hw]
    · right; left
      refine ⟨hchunk, hs, some ⟨addr, chunk.take (Queue.offered chunk)⟩, ?_, ?_⟩
      · simp [bareWorkletOnIpcWrite, hw, bareQueueWouldBlock, bareQueueClosed]
      · simp [send, bareWorkletOnIpcWrite, hw, bareQueueWouldBlock, bareQueueClosed]
    · right; right
      have hoffered : (Queue.offered chunk : Int) ≠ bareQueueClosed := by
        simp only [bareQueueClosed]
        omega
      have hnative : bareWorkletOnIpcWrite queue addr chunk =
          ⟨queue.setInbox .thread next, some (min chunk.length intMax : Nat),
            if queue.channel.inbox .thread = [] then bareQueueSignalThread queue
            else none, none⟩ := by
        simp only [bareWorkletOnIpcWrite, hw, hoffered, if_false]
        rfl
      rw [Queue.take_offered] at hbuf
      refine ⟨hchunk, hs, next, hnext, hbuf, _, rfl, hnative, ?_⟩
      simp only [send, hnative, accept]
      congr 1
      have hnonneg : ¬ ((min chunk.length intMax : Nat) : Int) < 0 := by omega
      simp only [hnonneg, if_false]
      by_cases hlen : chunk.length ≤ intMax
      · simp [hlen]
      · have hmin : min chunk.length intMax = intMax := by omega
        have hlt : ((intMax : Nat) : Int) < chunk.length := by omega
        simp [hlen, hmin, hlt]

/-- One turn of the loop of `_drain`: a chunk, the end of the stream, or nothing. -/
theorem drain_cases (h : queue.WellFormed) (more : Bool) :
    (stream.drain queue more = ⟨queue, (stream, .done), none, none⟩ ∧
      (stream.reading = true → queue.channel.inbox .uv = [] ∧ ¬ queue.channel.Finished .uv)) ∨
    (queue.channel.inbox .uv = [] ∧ queue.channel.Finished .uv ∧
      stream.drain queue more = ⟨queue, ({ stream with reading := false }, .ended), none, none⟩) ∨
    (∃ buffer rest, ∃ next : Ring, queue.channel.inbox .uv = buffer :: rest ∧ next.WellFormed ∧
      next.buffers = rest ∧ ∃ wake, wake =
        (if (queue.channel.inbox .uv).length = Channel.bound then bareQueueSignalThread queue
          else none) ∧
      stream.drain queue more = ⟨queue.setInbox .uv next,
        ({ stream with reading := more }, .pushed buffer.bytes more), wake, none⟩) := by
  by_cases hreading : stream.reading = true
  · rcases h.read_cases .uv with ⟨buffer, rest, next, hinbox, hnext, hrest, hr⟩ |
      ⟨hinbox, hfin, hr⟩ | ⟨hinbox, hfin, hr⟩
    · right; right
      have hmem : buffer ∈ (bareQueueInbox queue .uv).buffers := by
        rw [← Queue.channel_inbox, hinbox]
        simp
      have hsized := (h.ring .uv).sized hmem
      have hlen : buffer.bytes.length ≠ 0 := Nat.pos_iff_ne_zero.mp hsized.1
      refine ⟨buffer, rest, next, hinbox, hnext, hrest, _, rfl, ?_⟩
      simp only [drain, hreading, if_true, bareWorkletOnIpcRead, hr, Buffer.message, hlen, if_false,
        List.take_length]
      rfl
    · right; left
      refine ⟨hinbox, hfin, ?_⟩
      simp only [drain, hreading, if_true, bareWorkletOnIpcRead, hr]
    · left
      refine ⟨?_, fun _ => ⟨hinbox, hfin⟩⟩
      simp only [drain, hreading, if_true, bareWorkletOnIpcRead, hr]
  · left
    refine ⟨?_, fun htrue => absurd htrue hreading⟩
    simp [drain, hreading]

end IPCStream

namespace Ipc

variable {queue : Queue} {ipc : Ipc}

structure WellFormed (ipc : Ipc) : Prop where
  port : ipc.pending.base ≠ none → ipc.port = true
  rest : ∀ base, ipc.pending.base = some base →
    ipc.pending.len = base.bytes.length ∧ ipc.offset < base.bytes.length

def unread (ipc : Ipc) : Bytes :=
  match ipc.pending.base with
  | none => []
  | some base => base.bytes.drop ipc.offset

theorem readQueue_cases (ipc : Ipc) (h : queue.WellFormed) :
    (bareIpcReadQueue queue ipc = ⟨queue, (ipc, false), none, none⟩ ∧
      (ipc.port = true → ipc.pending.base ≠ none)) ∨
    (ipc.port = true ∧ ipc.pending.base = none ∧
      ((∃ buffer rest, ∃ next : Ring, queue.channel.inbox .thread = buffer :: rest ∧
          next.WellFormed ∧ next.buffers = rest ∧ ∃ wake, wake =
            (if (queue.channel.inbox .thread).length = Channel.bound then bareQueueSignalUv queue
              else none) ∧
          bareIpcReadQueue queue ipc = ⟨queue.setInbox .thread next,
            ({ ipc with pending := buffer.message, offset := 0 }, false), wake, none⟩) ∨
        (queue.channel.inbox .thread = [] ∧ queue.channel.Finished .thread ∧
          bareIpcReadQueue queue ipc =
            ⟨queue, ({ ipc with pending := ⟨none, 0⟩, offset := 0 }, false), none, none⟩) ∨
        (queue.channel.inbox .thread = [] ∧ ¬ queue.channel.Finished .thread ∧
          bareIpcReadQueue queue ipc =
          ⟨queue, ({ ipc with offset := 0 }, true), none, none⟩))) := by
  by_cases hport : ipc.port = true ∧ ipc.pending.base = none
  · right
    refine ⟨hport.1, hport.2, ?_⟩
    rcases h.read_cases .thread with ⟨buffer, rest, next, hinbox, hnext, hrest, hr⟩ |
      ⟨hinbox, hfin, hr⟩ | ⟨hinbox, hfin, hr⟩
    · left
      refine ⟨buffer, rest, next, hinbox, hnext, hrest, _, rfl, ?_⟩
      simp only [bareIpcReadQueue, hport, and_self, if_true, hr]
      rfl
    · right; left
      refine ⟨hinbox, hfin, ?_⟩
      simp only [bareIpcReadQueue, hport, and_self, if_true, hr]
    · right; right
      refine ⟨hinbox, hfin, ?_⟩
      simp only [bareIpcReadQueue, hport, and_self, if_true, hr]
  · left
    refine ⟨?_, fun hopen hnone => hport ⟨hopen, hnone⟩⟩
    simp only [bareIpcReadQueue, hport, if_false]

/-- A read returns the next bytes of what is unread, and signals the polls as long as
anything stays ready. -/
theorem WellFormed.readPending_cases (h : ipc.WellFormed) (queue : Queue) {len : Nat}
    (hlen : 0 < len)
    (blocked : Bool) :
    (ipc.pending.base = none ∧ bareIpcReadPending queue ipc len blocked =
      { ipc, result := if blocked then bareIpcWouldBlock else 0 }) ∨
    (ipc.pending.base ≠ none ∧
      0 < (bareIpcReadPending queue ipc len blocked).result ∧
      (bareIpcReadPending queue ipc len blocked).ipc.WellFormed ∧
      (bareIpcReadPending queue ipc len blocked).ipc.port = ipc.port ∧
      (bareIpcReadPending queue ipc len blocked).data ++
        (bareIpcReadPending queue ipc len blocked).ipc.unread = ipc.unread ∧
      (bareIpcReadPending queue ipc len blocked).signal =
        ((bareIpcReadPending queue ipc len blocked).ipc.pending.base.isSome ||
          bareQueueReadable queue .thread)) := by
  cases hbase : ipc.pending.base with
  | none =>
    left
    simp [bareIpcReadPending, hbase]
  | some base =>
    right
    obtain ⟨htotal, hoffset⟩ := h.rest base hbase
    have hport : ipc.port = true := h.port (by simp [hbase])
    have hmax : 0 < intMax := by decide
    -- how far this read gets
    obtain ⟨n, hn⟩ : ∃ n, n = min (min len intMax) (base.bytes.length - ipc.offset) := ⟨_, rfl⟩
    have hcap : (if len > intMax then intMax else len) = min len intMax := by
      split <;> omega
    have hrest : (if (if len > intMax then intMax else len) > ipc.pending.len - ipc.offset then
        ipc.pending.len - ipc.offset else if len > intMax then intMax else len) = n := by
      rw [hcap, htotal, hn]
      split <;> omega
    have hread : bareIpcReadPending queue ipc len blocked =
        { ipc :=
            { ipc with
              pending := { ipc.pending with
                base := if ipc.offset + n = ipc.pending.len then none else some base }
              offset := ipc.offset + n }
          result := n
          data := (base.bytes.drop ipc.offset).take n
          signal := (if ipc.offset + n = ipc.pending.len then none else some base).isSome ||
            bareQueueReadable queue .thread
          freed := if ipc.offset + n = ipc.pending.len then some base else none } := by
      simp only [bareIpcReadPending, hbase, hrest]
    rw [hread]
    refine ⟨by simp, ?_, ⟨fun _ => hport, ?_⟩, rfl, ?_, rfl⟩
    · simp only
      omega
    · intro other hother
      simp only at hother ⊢
      split at hother
      · contradiction
      · cases hother
        refine ⟨htotal, ?_⟩
        omega
    · simp only [unread, hbase]
      by_cases hlast : ipc.offset + n = ipc.pending.len
      · have hall : base.bytes.length - ipc.offset ≤ n := by omega
        simp [hlast, List.take_of_length_le, hall]
      · simp only [hlast, if_false]
        rw [← List.drop_drop, List.take_append_drop]

theorem write_cases (ipc : Ipc) (h : queue.WellFormed) (addr : Pointer) (data : Bytes) :
    ((bareIpcWrite queue ipc addr data).queue = queue ∧
      (bareIpcWrite queue ipc addr data).wake = none ∧
      data.take (bareIpcWrite queue ipc addr data).result.toNat = []) ∨
    (ipc.port = true ∧ data ≠ [] ∧ queue.channel.sendResult .thread = .accepted ∧ ∃ next : Ring,
      next.WellFormed ∧ next.buffers = queue.channel.inbox .uv ++ [⟨addr, data.take intMax⟩] ∧
      ∃ wake, wake = (if queue.channel.inbox .uv = [] then bareQueueSignalUv queue else none) ∧
      bareIpcWrite queue ipc addr data =
        ⟨queue.setInbox .uv next, (min data.length intMax : Nat), wake, none⟩) := by
  by_cases hport : ipc.port = true
  · by_cases hdata : data = []
    · left
      simp [bareIpcWrite, hport, hdata, Queue.write_nil, bareQueueWouldBlock, bareQueueClosed]
    · rcases h.write_cases .thread addr data hdata with ⟨_, hw⟩ | ⟨_, hw⟩ |
        ⟨hs, next, hnext, hbuf, hw⟩
      · left
        simp [bareIpcWrite, hport, hw, bareQueueWouldBlock, bareQueueClosed, bareIpcError]
      · left
        simp [bareIpcWrite, hport, hw, bareQueueWouldBlock, bareIpcWouldBlock]
      · right
        rw [Queue.take_offered] at hbuf
        refine ⟨hport, hdata, hs, next, hnext, hbuf, _, rfl, ?_⟩
        have hblocked : (Queue.offered data : Int) ≠ bareQueueWouldBlock := by
          simp only [bareQueueWouldBlock]
          omega
        have hclosed : (Queue.offered data : Int) ≠ bareQueueClosed := by
          simp only [bareQueueClosed]
          omega
        simp only [bareIpcWrite, hport, if_true, hw, hblocked, hclosed, if_false]
        rfl
  · left
    simp [bareIpcWrite, hport, bareIpcError]

end Ipc

end BareKit
