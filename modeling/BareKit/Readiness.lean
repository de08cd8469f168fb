import BareKit.Poll
import BareKit.ByteStream

/-! What a poll is told to be ready agrees with the operations: each formula for
readiness, of the queue and of the ipc over it, is compared with the call it speaks of. -/
namespace BareKit

/-- `bare_ipc_read` with no step of the worklet in between. -/
def bareIpcRead (queue : Queue) (ipc : Ipc) (len : Nat) : IpcRead :=
  let read := bareIpcReadQueue queue ipc
  bareIpcReadPending read.queue read.result.1 len read.result.2

/-- What `bare_ipc__dispatch` leaves of the events it was asked for. -/
def bareIpcMask (queue : Queue) (ipc : Ipc) (requested : Events) : Events :=
  bareIpcMaskWritable queue ipc (bareIpcMaskReadable queue ipc requested)

theorem Events.eq_none_iff (events : Events) :
    events = Events.none ↔ ¬ events.readable = true ∧ ¬ events.writable = true := by
  obtain ⟨readable, writable⟩ := events
  cases readable <;> cases writable <;> decide

namespace Channel

variable {μ : Type} {channel : Channel μ} {port : Port}

theorem readable_iff : channel.readable port = true ↔ channel.receiveResult port ≠ .blocked := by
  rw [readable, receiveResult]
  cases channel.inbox port with
  | nil => by_cases hfinished : channel.Finished port <;> simp [hfinished]
  | cons message rest => simp

theorem writable_iff : channel.writable port = true ↔ channel.sendResult port ≠ .blocked := by
  rw [writable, sendResult]
  by_cases hrefused : channel.Refused port
  · simp [hrefused]
  · by_cases hfull : (channel.outbox port).length = bound <;> simp [hrefused, hfull]

end Channel

namespace Queue

variable {queue : Queue} {port : Port}

theorem WellFormed.readable_iff (h : queue.WellFormed) :
    bareQueueReadable queue port = true ↔ (bareQueueRead queue port).result ≠ .wouldBlock := by
  rw [h.readable_eq, Channel.readable_iff, h.read_result]
  cases queue.channel.receiveResult port <;> simp

theorem WellFormed.writable_iff (h : queue.WellFormed) (addr : Pointer) {data : Bytes}
    (hdata : data ≠ []) : bareQueueWritable queue port = true ↔
      (bareQueueWrite queue port addr data).result ≠ bareQueueWouldBlock := by
  rw [h.writable_eq, Channel.writable_iff, h.write_result port addr data hdata]
  cases queue.channel.sendResult port with
  | closed => simp [bareQueueClosed, bareQueueWouldBlock]
  | blocked => simp
  | accepted =>
    have hcount : (offered data : Int) ≠ bareQueueWouldBlock := by
      simp only [bareQueueWouldBlock]
      omega
    simp [hcount]

end Queue

namespace Ipc

variable {queue : Queue} {ipc : Ipc} {requested : Events}

theorem readPending_wouldBlock_iff (queue : Queue) (ipc : Ipc) (len : Nat) (blocked : Bool) :
    (bareIpcReadPending queue ipc len blocked).result = bareIpcWouldBlock ↔
      ipc.pending.base = none ∧ blocked = true := by
  unfold bareIpcReadPending
  cases hbase : ipc.pending.base with
  | none => cases blocked <;> simp [bareIpcWouldBlock]
  | some base =>
    simp only [bareIpcWouldBlock, reduceCtorEq, false_and]

theorem read_wouldBlock_iff (h : queue.WellFormed) (len : Nat) :
    (bareIpcRead queue ipc len).result = bareIpcWouldBlock ↔
      ipc.port = true ∧ ipc.pending.base = none ∧ bareQueueReadable queue .thread = false := by
  have hreadable : bareQueueReadable queue .thread = true ↔
      (bareQueueRead queue .thread).result ≠ .wouldBlock := h.readable_iff
  rw [bareIpcRead, readPending_wouldBlock_iff, bareIpcReadQueue]
  by_cases hasks : ipc.port = true ∧ ipc.pending.base = none
  · rw [if_pos hasks]
    obtain ⟨hport, hbase⟩ := hasks
    cases hread : (bareQueueRead queue .thread).result with
    | ok message => simp [hreadable, hread]
    | wouldBlock => simpa [hport, hbase, hread] using hreadable
  · rw [if_neg hasks]
    refine iff_of_false (fun hblocked => ?_) (fun hblocked => hasks ⟨hblocked.1, hblocked.2.1⟩)
    exact absurd hblocked.2 Bool.false_ne_true

theorem write_wouldBlock_iff (h : queue.WellFormed) (addr : Pointer) {data : Bytes}
    (hdata : data ≠ []) :
    (bareIpcWrite queue ipc addr data).result = bareIpcWouldBlock ↔
      ipc.port = true ∧ bareQueueWritable queue .thread = false := by
  have hwritable : bareQueueWritable queue .thread = true ↔
      (bareQueueWrite queue .thread addr data).result ≠
      bareQueueWouldBlock := h.writable_iff addr hdata
  unfold bareIpcWrite
  cases hport : ipc.port with
  | false => simp [bareIpcError, bareIpcWouldBlock]
  | true =>
    by_cases hblocked : (bareQueueWrite queue .thread addr data).result = bareQueueWouldBlock
    · simpa [hblocked] using hwritable
    · have hfree : bareQueueWritable queue .thread = true := hwritable.mpr hblocked
      by_cases hclosed : (bareQueueWrite queue .thread addr data).result = bareQueueClosed
      · simp [hclosed, hfree, bareQueueClosed, bareQueueWouldBlock, bareIpcError, bareIpcWouldBlock]
      · have hkept : (bareQueueWrite queue .thread addr data).result ≠ bareIpcWouldBlock := hblocked
        simp [hblocked, hclosed, hfree, hkept]

theorem mask_readable_iff (queue : Queue) (ipc : Ipc) (requested : Events) :
    (bareIpcMask queue ipc requested).readable = true ↔ requested.readable = true ∧
      ¬ (ipc.port = true ∧ ipc.pending.base = none ∧ bareQueueReadable queue .thread = false) := by
  unfold bareIpcMask bareIpcMaskWritable bareIpcMaskReadable
  split <;> split <;> simp_all

theorem mask_writable_iff (queue : Queue) (ipc : Ipc) (requested : Events) :
    (bareIpcMask queue ipc requested).writable = true ↔ requested.writable = true ∧
      ¬ (ipc.port = true ∧ bareQueueWritable queue .thread = false) := by
  unfold bareIpcMask bareIpcMaskWritable bareIpcMaskReadable
  split <;> split <;> simp_all

end Ipc

namespace Polled

variable {polled : Polled} {ipc : Ipc} {cb : Pointer} {ready : Events}

theorem step_maskReadable (hdispatch : polled.dispatch = .ready cb ready)
    (hipc : polled.wire.ipc = some ipc) (hheld : polled.wire.held = none) :
    polled.step .maskReadable = some { polled with
      wire := { polled.wire with held := some .dispatching }
      dispatch := .locked cb (bareIpcMaskReadable polled.wire.queue ipc ready) } := by
  have hlock : polled.wire.step .dispatch =
      some { polled.wire with held := some .dispatching } := by
    simp only [Wire.step, Wire.lock, hheld, hipc, Option.bind_some, Wire.stepIpc]
  simp only [step, stepDispatch, hdispatch, hipc, hlock, Option.bind_some, Option.map_some]

theorem step_maskWritable (hdispatch : polled.dispatch = .locked cb ready)
    (hipc : polled.wire.ipc = some ipc) (hheld : polled.wire.held = some .dispatching) :
    polled.step .maskWritable = some { polled with
      wire := { polled.wire with held := none }
      dispatch := .unlocked cb (bareIpcMaskWritable polled.wire.queue ipc ready) } := by
  have hunlock : polled.wire.step .dispatchWritable = some { polled.wire with held := none } := by
    simp only [Wire.step, hheld, hipc, Option.bind_some, Wire.stepHeld]
  simp only [step, stepDispatch, hdispatch, hipc, hunlock, Option.bind_some, Option.map_some]

theorem step_call (hdispatch : polled.dispatch = .unlocked cb ready) :
    polled.step .call = some { polled with
      dispatch := if ready = Events.none then .idle else .running cb ready false } := by
  simp only [step, stepDispatch, hdispatch]

theorem run_dispatch (hdispatch : polled.dispatch = .ready cb ready)
    (hipc : polled.wire.ipc = some ipc) (hheld : polled.wire.held = none) :
    (system.run polled [.maskReadable, .maskWritable, .call]).map dispatch = some
      (if bareIpcMask polled.wire.queue ipc ready = Events.none then .idle
        else .running cb (bareIpcMask polled.wire.queue ipc ready) false) := by
  have hreadable : system.step polled .maskReadable = _ := step_maskReadable hdispatch hipc hheld
  rw [Transition.System.run_cons, hreadable, Option.bind_some, Transition.System.run_cons]
  have hwritable (locked : Polled) (hlocked : locked.dispatch =
      .locked cb (bareIpcMaskReadable polled.wire.queue ipc ready)) (hsame : locked.wire =
      { polled.wire with held := some .dispatching }) : system.step locked .maskWritable = _ :=
    step_maskWritable hlocked (by rw [hsame]; exact hipc) (by rw [hsame])
  rw [hwritable _ rfl rfl, Option.bind_some, Transition.System.run_cons]
  have hcall (unlocked : Polled) (hunlocked : unlocked.dispatch =
      .unlocked cb (bareIpcMask polled.wire.queue ipc ready)) : system.step unlocked .call = _ :=
    step_call hunlocked
  rw [hcall _ rfl]
  rfl

end Polled

/-- In every state of a queue and its ipc, what is said to be ready is what would not block:
of either port of the queue, and of the ipc, for whichever events a poll was started for. -/
theorem bareIpc_readiness (wire : Wire) (h : Wire.system.Reachable wire) :
    (∀ port, bareQueueReadable wire.queue port = true ↔
      (bareQueueRead wire.queue port).result ≠ .wouldBlock) ∧
    (∀ port addr data, data ≠ [] → (bareQueueWritable wire.queue port = true ↔
      (bareQueueWrite wire.queue port addr data).result ≠ bareQueueWouldBlock)) ∧
    ∀ ipc, wire.ipc = some ipc → ∀ requested len addr data, 0 < len → data ≠ [] →
      ((bareIpcMask wire.queue ipc requested).readable = true ↔ requested.readable = true ∧
        (bareIpcRead wire.queue ipc len).result ≠ bareIpcWouldBlock) ∧
      ((bareIpcMask wire.queue ipc requested).writable = true ↔ requested.writable = true ∧
        (bareIpcWrite wire.queue ipc addr data).result ≠ bareIpcWouldBlock) ∧
      (bareIpcMask wire.queue ipc requested = Events.none ↔
        ¬ (requested.readable = true ∧
          (bareIpcRead wire.queue ipc len).result ≠ bareIpcWouldBlock) ∧
        ¬ (requested.writable = true ∧
          (bareIpcWrite wire.queue ipc addr data).result ≠ bareIpcWouldBlock)) ∧
      ∀ polled cb, polled.wire = wire → wire.held = none → polled.dispatch = .ready cb requested →
        (Polled.system.run polled [.maskReadable, .maskWritable, .call]).map Polled.dispatch = some
          (if bareIpcMask wire.queue ipc requested = Events.none then .idle
            else .running cb (bareIpcMask wire.queue ipc requested) false) := by
  have hwell := (Wire.sound h).queue
  refine ⟨fun port => hwell.readable_iff,
    fun port addr data hdata => hwell.writable_iff addr hdata, ?_⟩
  intro ipc hipc requested len addr data _ hdata
  have hreadable : (bareIpcMask wire.queue ipc requested).readable = true ↔
      requested.readable = true ∧ (bareIpcRead wire.queue ipc len).result ≠ bareIpcWouldBlock := by
    rw [Ipc.mask_readable_iff, Ne, Ipc.read_wouldBlock_iff hwell]
  have hwritable : (bareIpcMask wire.queue ipc requested).writable = true ↔
      requested.writable = true ∧
        (bareIpcWrite wire.queue ipc addr data).result ≠ bareIpcWouldBlock := by
    rw [Ipc.mask_writable_iff, Ne, Ipc.write_wouldBlock_iff hwell addr hdata]
  refine ⟨hreadable, hwritable, ?_, ?_⟩
  · rw [← hreadable, ← hwritable, Events.eq_none_iff]
  · rintro polled cb rfl hheld hdispatch
    exact Polled.run_dispatch hdispatch hipc hheld

def Wire.halfRead : Wire :=
  Wire.system.result (Wire.ofQueue (bareQueueCreate Slots.blank Slots.blank))
    [.ipcCreate 1 2, .openUv none none, .write 0 [1, 2], .ipcRead 1, .ipcReadPending, .ipcSignal,
      .exit] (by decide +kernel)

theorem bareIpc_readiness_halfRead : ∃ ipc, Wire.halfRead.ipc = some ipc ∧
    (bareIpcRead Wire.halfRead.queue ipc 1).result ≠ bareIpcWouldBlock ∧
    (bareIpcWrite Wire.halfRead.queue ipc 0 [3]).result ≠ bareIpcWouldBlock := by
  have hipc : Wire.halfRead.ipc = some ⟨true, ⟨some ⟨0, [1, 2]⟩, 2⟩, 1⟩ := by decide +kernel
  obtain ⟨hreadable, hwritable, -⟩ := (bareIpc_readiness Wire.halfRead
    (.result (S := Wire.system) ⟨_, _, rfl⟩ _ _)).2.2 _ hipc ⟨true, true⟩ 1 0 [3]
      (by decide) (by decide)
  exact ⟨_, hipc, (hreadable.mp (by decide +kernel)).2, (hwritable.mp (by decide +kernel)).2⟩

end BareKit
