import BareKit.Ipc
import BareKit.IPCStream
import BareKit.Transition

/-! The two ends of a worklet's ipc at work: the host's threads, which take turns at
`ipc->lock`, and the one thread of the worklet, with the queue between them. A step
is one locked section of the queue together with the code up to the next one, and
the log records what went in and came out at either end. -/
namespace BareKit

/-- What the holder of `ipc->lock` still has to do. -/
inductive Section where
  | reading (len : Nat) (blocked : Bool)
  | closing
  | signalling
  | dispatching
  deriving DecidableEq, Repr

/-- Where the worklet is in `_onsignal`, or in the `_drain` of a `_read`. -/
inductive Turn where
  | idle
  | retrying
  | draining
  deriving DecidableEq, Repr

structure Log where
  /-- The chunks passed to `_write`. -/
  written : List Bytes := []
  /-- Latest first. -/
  settled : List Settled := []
  finalled : Bool := false
  /-- What the queue accepted from the worklet. -/
  accepted : Bytes := []
  /-- What `bare_ipc_read` returned. -/
  received : Bytes := []
  /-- Whether `bare_ipc_read` returned 0 with the port still open. -/
  receivedEnd : Bool := false
  /-- What `bare_ipc_write` accepted. -/
  sent : Bytes := []
  pushed : Bytes := []
  pushedEnd : Bool := false

def Log.failed (log : Log) : Bool := log.settled.any fun settled => !settled.ok

structure Wire where
  queue : Queue
  ipc : Option Ipc := none
  held : Option Section := none
  /-- A wake of the ipc's polls that has not been taken yet. -/
  wakeThread : Bool := false
  started : Bool := false
  stream : IPCStream := IPCStream.create
  turn : Turn := .idle
  /-- A wake of the worklet that has not been taken yet. -/
  wakeUv : Bool := false
  log : Log := {}

inductive Step where
  -- The host.
  | ipcCreate (onSignal ipc : Pointer)
  | ipcRead (len : Nat)
  | ipcReadPending
  | ipcWrite (addr : Pointer) (data : Bytes)
  | ipcEnd
  | ipcClose
  | ipcCloseRelease
  | ipcSignal
  | dispatch
  | dispatchWritable
  | takeWake
  -- The worklet.
  | openUv (onRecv data : Option Pointer)
  | write (addr : Pointer) (chunk : Bytes)
  | final
  | read
  | onsignal
  | retry (addr : Pointer)
  | drain (more : Bool)
  | exit
  | abandon
  | destroy

namespace Wire

def ofQueue (queue : Queue) : Wire := { queue }

/-- The wakes of an operation on the queue are kept until they are taken: however
often an end was woken, it sees one wake. -/
def apply {ρ : Type} (wire : Wire) (outcome : Outcome ρ) : Wire :=
  { wire with
    queue := outcome.queue
    wakeThread := wire.wakeThread || outcome.wake == some .thread
    wakeUv := wire.wakeUv || outcome.wake == some .uv }

def lock (wire : Wire) : Option Ipc :=
  match wire.held with
  | none => wire.ipc
  | some _ => none

/-- Whether the worklet's thread runs script. -/
def running (wire : Wire) : Bool := wire.started && !wire.queue.destroyed

/-- A `_write` or what is left of one, and the log of what the queue accepted. -/
def send (wire : Wire) (stream : IPCStream) (addr : Pointer) (chunk : Bytes) (cb : Nat) : Wire :=
  let sent := stream.send wire.queue addr chunk cb
  { wire.apply sent with
    stream := sent.result.1
    log :=
      { wire.log with
        settled := sent.result.2.toList ++ wire.log.settled
        accepted := wire.log.accepted ++
          chunk.take ((bareWorkletOnIpcWrite wire.queue addr chunk).result.getD 0).toNat } }

/-- The steps of `bare_ipc_read` and of the other functions of the host end. -/
def stepIpc (wire : Wire) (ipc : Ipc) : Step → Option Wire
  | .ipcRead len =>
    if 0 < len then
      let read := bareIpcReadQueue wire.queue ipc
      some { wire.apply read with
        ipc := some read.result.1, held := some (.reading len read.result.2) }
    else none
  | .ipcWrite addr data =>
    let written := bareIpcWrite wire.queue ipc addr data
    some { wire.apply written with
      log := { wire.log with sent := wire.log.sent ++ data.take written.result.toNat } }
  | .ipcEnd =>
    match bareIpcEnd wire.queue ipc with
    | none => some wire
    | some ended => some { wire.apply ended with held := some .signalling }
  | .ipcClose =>
    match bareIpcClose wire.queue ipc with
    | none => some wire
    | some closed => some { wire.apply closed with held := some .closing }
  | .dispatch => some { wire with held := some .dispatching }
  | _ => none

/-- The steps of a thread that holds `ipc->lock` already. -/
def stepHeld (wire : Wire) (ipc : Ipc) : Section → Step → Option Wire
  | .reading len blocked, .ipcReadPending =>
    let read := bareIpcReadPending wire.queue ipc len blocked
    some { wire with
      ipc := some read.ipc
      held := if read.signal then some .signalling else none
      log :=
        { wire.log with
          received := wire.log.received ++ read.data
          receivedEnd := wire.log.receivedEnd || (ipc.port && read.result == 0) } }
  | .closing, .ipcCloseRelease =>
    some { wire with ipc := some (bareIpcCloseRelease ipc).1, held := some .signalling }
  | .signalling, .ipcSignal => some { wire with held := none, wakeThread := true }
  | .dispatching, .dispatchWritable => some { wire with held := none }
  | _, _ => none

/-- The steps of the script. The stream is written to once the callback of the write
before it was called without an error, and ended once the last one was. -/
def stepScript (wire : Wire) : Step → Option Wire
  | .write addr chunk =>
    if wire.stream.pendingWrite = none ∧ wire.log.failed = false ∧ wire.log.finalled = false then
      let wire :=
        { wire with log := { wire.log with written := wire.log.written ++ [chunk] } }
      some (wire.send wire.stream addr chunk (wire.log.written.length - 1))
    else none
  | .final =>
    if wire.stream.pendingWrite = none ∧ wire.log.failed = false ∧ wire.log.finalled = false then
      some { wire.apply (bareWorkletOnIpcEnd wire.queue) with
        log := { wire.log with finalled := true } }
    else none
  | .read =>
    if wire.turn = .idle then
      some { wire with stream := { wire.stream with reading := true }, turn := .draining }
    else none
  | .onsignal =>
    if wire.turn = .idle ∧ wire.wakeUv then
      some { wire with wakeUv := false, turn := .retrying }
    else none
  | .retry addr =>
    if wire.turn = .retrying then
      match wire.stream.pendingWrite with
      | none => some { wire with turn := .draining }
      | some ⟨chunk, cb⟩ =>
        some { wire.send { wire.stream with pendingWrite := none } addr chunk cb with
          turn := .draining }
    else none
  | .drain more =>
    if wire.turn = .draining then
      let drained := wire.stream.drain wire.queue more
      let wire := { wire.apply drained with stream := drained.result.1 }
      match drained.result.2 with
      | .done => some { wire with turn := .idle }
      | .ended => some { wire with turn := .idle, log := { wire.log with pushedEnd := true } }
      | .pushed chunk more =>
        some { wire with
          turn := if more then .draining else .idle
          log := { wire.log with pushed := wire.log.pushed ++ chunk } }
    else none
  | _ => none

/-- The steps of the worklet's thread outside the script, or of a host that destroys
a worklet that never started. -/
def stepNative (wire : Wire) : Step → Option Wire
  | .openUv onRecv data =>
    if wire.queue.uvState = .idle ∧ wire.queue.destroyed = false then
      some { wire.apply (bareQueueOpenUv wire.queue onRecv data) with started := true }
    else none
  | .exit =>
    if wire.running ∧ wire.turn = .idle then
      some (wire.apply (bareQueueClose wire.queue .uv))
    else none
  | .abandon =>
    if wire.started = false ∧ wire.queue.destroyed = false then
      some (wire.apply (bareQueueClose wire.queue .uv))
    else none
  | .destroy =>
    if wire.queue.uvState = .closed then some (wire.apply (bareQueueDestroy wire.queue)) else none
  | _ => none

def step (wire : Wire) (label : Step) : Option Wire :=
  match label with
  | .ipcCreate onSignal ipc =>
    if wire.queue.destroyed then none
    else
      let created := bareIpcCreate wire.queue onSignal ipc
      some { wire.apply created with ipc := created.result.or wire.ipc }
  | .ipcRead _ | .ipcWrite _ _ | .ipcEnd | .ipcClose | .dispatch =>
    wire.lock.bind fun ipc => wire.stepIpc ipc label
  | .ipcReadPending | .ipcCloseRelease | .ipcSignal | .dispatchWritable =>
    wire.ipc.bind fun ipc => wire.held.bind fun held => wire.stepHeld ipc held label
  | .takeWake => if wire.wakeThread then some { wire with wakeThread := false } else none
  | .write _ _ | .final | .read | .onsignal | .retry _ | .drain _ =>
    if wire.running then wire.stepScript label else none
  | .openUv _ _ | .exit | .abandon | .destroy => wire.stepNative label

def system : Transition.System Wire Step where
  init wire := ∃ toUv toThread, wire = ofQueue (bareQueueCreate toUv toThread)
  step := step

inductive Move (wire : Wire) : Step → Wire → Prop where
  | ipcCreate {onSignal data} (hdestroyed : wire.queue.destroyed = false) :
    Move wire (.ipcCreate onSignal data)
      { wire.apply (bareIpcCreate wire.queue onSignal data) with
        ipc := (bareIpcCreate wire.queue onSignal data).result.or wire.ipc }
  | ipcRead {ipc len} (hheld : wire.held = none) (hipc : wire.ipc = some ipc) (hlen : 0 < len) :
    Move wire (.ipcRead len)
      { wire.apply (bareIpcReadQueue wire.queue ipc) with
        ipc := some (bareIpcReadQueue wire.queue ipc).result.1
        held := some (.reading len (bareIpcReadQueue wire.queue ipc).result.2) }
  | ipcReadPending {ipc len blocked} (hipc : wire.ipc = some ipc)
      (hheld : wire.held = some (.reading len blocked)) :
    Move wire .ipcReadPending
      { wire with
        ipc := some (bareIpcReadPending wire.queue ipc len blocked).ipc
        held :=
          if (bareIpcReadPending wire.queue ipc len blocked).signal then some .signalling else none
        log :=
          { wire.log with
            received := wire.log.received ++ (bareIpcReadPending wire.queue ipc len blocked).data
            receivedEnd := wire.log.receivedEnd ||
              (ipc.port && (bareIpcReadPending wire.queue ipc len blocked).result == 0) } }
  | ipcWrite {ipc addr data} (hheld : wire.held = none) (hipc : wire.ipc = some ipc) :
    Move wire (.ipcWrite addr data)
      { wire.apply (bareIpcWrite wire.queue ipc addr data) with
        log :=
          { wire.log with
            sent := wire.log.sent ++
            data.take (bareIpcWrite wire.queue ipc addr data).result.toNat } }
  | ipcEnd {ipc} (hheld : wire.held = none) (hipc : wire.ipc = some ipc) (hport : ipc.port = true) :
    Move wire .ipcEnd
      { wire.apply (bareQueueEnd wire.queue .thread) with held := some .signalling }
  | ipcClose {ipc} (hheld : wire.held = none) (hipc : wire.ipc = some ipc)
      (hport : ipc.port = true) :
    Move wire .ipcClose
      { wire.apply (bareQueueClose wire.queue .thread) with held := some .closing }
  -- A closed ipc is neither ended nor closed once more.
  | ipcEndGone {ipc} (hheld : wire.held = none) (hipc : wire.ipc = some ipc)
      (hport : ipc.port = false) : Move wire .ipcEnd wire
  | ipcCloseGone {ipc} (hheld : wire.held = none) (hipc : wire.ipc = some ipc)
      (hport : ipc.port = false) : Move wire .ipcClose wire
  | ipcCloseRelease {ipc} (hipc : wire.ipc = some ipc) (hheld : wire.held = some .closing) :
    Move wire .ipcCloseRelease
      { wire with ipc := some (bareIpcCloseRelease ipc).1, held := some .signalling }
  | ipcSignal {ipc} (hipc : wire.ipc = some ipc) (hheld : wire.held = some .signalling) :
    Move wire .ipcSignal { wire with held := none, wakeThread := true }
  | dispatch {ipc} (hheld : wire.held = none) (hipc : wire.ipc = some ipc) :
    Move wire .dispatch { wire with held := some .dispatching }
  | dispatchWritable {ipc} (hipc : wire.ipc = some ipc) (hheld : wire.held = some .dispatching) :
    Move wire .dispatchWritable { wire with held := none }
  | takeWake (hwake : wire.wakeThread = true) :
      Move wire .takeWake { wire with wakeThread := false }
  | openUv {onRecv data} (hidle : wire.queue.uvState = .idle)
      (hdestroyed : wire.queue.destroyed = false) :
    Move wire (.openUv onRecv data)
      { wire.apply (bareQueueOpenUv wire.queue onRecv data) with started := true }
  | write {addr chunk} (hrunning : wire.running = true) (hnone : wire.stream.pendingWrite = none)
      (hfailed : wire.log.failed = false) (hfinalled : wire.log.finalled = false) :
    Move wire (.write addr chunk)
      ({ wire with log := { wire.log with written := wire.log.written ++ [chunk] } }.send
        wire.stream
        addr chunk ((wire.log.written ++ [chunk]).length - 1))
  | final (hrunning : wire.running = true) (hnone : wire.stream.pendingWrite = none)
      (hfailed : wire.log.failed = false) (hfinalled : wire.log.finalled = false) :
    Move wire .final
      { wire.apply (bareWorkletOnIpcEnd wire.queue) with log := { wire.log with finalled := true } }
  | read (hrunning : wire.running = true) (hturn : wire.turn = .idle) :
    Move wire .read { wire with stream := { wire.stream with reading := true }, turn := .draining }
  | onsignal (hrunning : wire.running = true) (hturn : wire.turn = .idle)
      (hwake : wire.wakeUv = true) :
    Move wire .onsignal { wire with wakeUv := false, turn := .retrying }
  | retryNone {addr} (hrunning : wire.running = true) (hturn : wire.turn = .retrying)
      (hnone : wire.stream.pendingWrite = none) : Move wire (.retry addr)
      { wire with turn := .draining }
  | retry {addr chunk cb} (hrunning : wire.running = true) (hturn : wire.turn = .retrying)
      (hparked : wire.stream.pendingWrite = some ⟨chunk, cb⟩) :
    Move wire (.retry addr)
      { wire.send { wire.stream with pendingWrite := none } addr chunk cb with turn := .draining }
  | drain {more next} (hrunning : wire.running = true) (hturn : wire.turn = .draining)
      (hnext : wire.stepScript (.drain more) = some next) : Move wire (.drain more) next
  | exit (hrunning : wire.running = true) (hturn : wire.turn = .idle) :
    Move wire .exit (wire.apply (bareQueueClose wire.queue .uv))
  | abandon (hstarted : wire.started = false) (hdestroyed : wire.queue.destroyed = false) :
    Move wire .abandon (wire.apply (bareQueueClose wire.queue .uv))
  | destroy (hclosed : wire.queue.uvState = .closed) :
    Move wire .destroy (wire.apply (bareQueueDestroy wire.queue))

variable {wire next : Wire} {ipc : Ipc} {label : Step}

theorem lock_eq_some (h : wire.lock = some ipc) :
    wire.held = none ∧ wire.ipc = some ipc := by
  unfold lock at h
  split at h
  · exact ⟨‹_›, h⟩
  · contradiction

theorem move_stepIpc (hlock : wire.lock = some ipc) (hstep : wire.stepIpc ipc label = some next) :
    Move wire label next := by
  obtain ⟨hheld, hipc⟩ := lock_eq_some hlock
  cases label with
  | ipcRead len =>
    simp only [stepIpc] at hstep
    split at hstep
    · cases hstep
      exact .ipcRead hheld hipc ‹_›
    · contradiction
  | ipcWrite addr data =>
    cases hstep
    exact .ipcWrite hheld hipc
  | ipcEnd =>
    cases hport : ipc.port <;> simp only [stepIpc, bareIpcEnd, hport] at hstep
    · cases hstep
      exact .ipcEndGone hheld hipc hport
    · cases hstep
      exact .ipcEnd hheld hipc hport
  | ipcClose =>
    cases hport : ipc.port <;> simp only [stepIpc, bareIpcClose, hport] at hstep
    · cases hstep
      exact .ipcCloseGone hheld hipc hport
    · cases hstep
      exact .ipcClose hheld hipc hport
  | dispatch =>
    cases hstep
    exact .dispatch hheld hipc
  | _ => contradiction

theorem move_stepHeld {held : Section} (hipc : wire.ipc = some ipc) (hheld : wire.held = some held)
    (hstep : wire.stepHeld ipc held label = some next) : Move wire label next := by
  cases held <;> cases label <;> try contradiction
  all_goals cases hstep
  · exact .ipcReadPending hipc hheld
  · exact .ipcCloseRelease hipc hheld
  · exact .ipcSignal hipc hheld
  · exact .dispatchWritable hipc hheld

theorem move_stepScript (hrunning : wire.running = true)
    (hstep : wire.stepScript label = some next) :
    Move wire label next := by
  cases label with
  | write addr chunk =>
    simp only [stepScript] at hstep
    split at hstep
    · rename_i hguard
      cases hstep
      exact .write hrunning hguard.1 hguard.2.1 hguard.2.2
    · contradiction
  | final =>
    simp only [stepScript] at hstep
    split at hstep
    · rename_i hguard
      cases hstep
      exact .final hrunning hguard.1 hguard.2.1 hguard.2.2
    · contradiction
  | read =>
    simp only [stepScript] at hstep
    split at hstep
    · cases hstep
      exact .read hrunning ‹_›
    · contradiction
  | onsignal =>
    simp only [stepScript] at hstep
    split at hstep
    · rename_i hguard
      cases hstep
      exact .onsignal hrunning hguard.1 hguard.2
    · contradiction
  | retry addr =>
    simp only [stepScript] at hstep
    split at hstep
    · rename_i hturn
      split at hstep <;> cases hstep
      · exact .retryNone hrunning hturn ‹_›
      · exact .retry hrunning hturn ‹_›
    · contradiction
  | drain more =>
    have hturn : wire.turn = .draining := by
      simp only [stepScript] at hstep
      split at hstep
      · assumption
      · contradiction
    exact .drain hrunning hturn hstep
  | _ => contradiction

theorem move_stepNative (hstep : wire.stepNative label = some next) : Move wire label next := by
  cases label with
  | openUv onRecv data =>
    simp only [stepNative] at hstep
    split at hstep
    · rename_i hguard
      cases hstep
      exact .openUv hguard.1 hguard.2
    · contradiction
  | exit =>
    simp only [stepNative] at hstep
    split at hstep
    · rename_i hguard
      cases hstep
      exact .exit hguard.1 hguard.2
    · contradiction
  | abandon =>
    simp only [stepNative] at hstep
    split at hstep
    · rename_i hguard
      cases hstep
      exact .abandon hguard.1 hguard.2
    · contradiction
  | destroy =>
    simp only [stepNative] at hstep
    split at hstep
    · cases hstep
      exact .destroy ‹_›
    · contradiction
  | _ => contradiction

theorem move_step (hstep : wire.step label = some next) : Move wire label next := by
  cases label with
  | ipcCreate onSignal data =>
    simp only [step] at hstep
    split at hstep
    · contradiction
    · cases hstep
      exact .ipcCreate (eq_false_of_ne_true ‹_›)
  | takeWake =>
    simp only [step] at hstep
    split at hstep
    · cases hstep
      exact .takeWake ‹_›
    · contradiction
  | ipcRead _ | ipcWrite _ _ | ipcEnd | ipcClose | dispatch =>
    obtain ⟨ipc, hlock, hnext⟩ := Option.bind_eq_some_iff.mp hstep
    exact move_stepIpc hlock hnext
  | ipcReadPending | ipcCloseRelease | ipcSignal | dispatchWritable =>
    obtain ⟨ipc, hipc, hrest⟩ := Option.bind_eq_some_iff.mp hstep
    obtain ⟨held, hheld, hnext⟩ := Option.bind_eq_some_iff.mp hrest
    exact move_stepHeld hipc hheld hnext
  | write _ _ | final | read | onsignal | retry _ | drain _ =>
    simp only [step] at hstep
    split at hstep
    · exact move_stepScript ‹_› hstep
    · contradiction
  | openUv _ _ | exit | abandon | destroy => exact move_stepNative hstep

end Wire

end BareKit
