import BareKit.Queue

/-! The host end of `src/ipc.c`. Its functions hold `ipc->lock` from beginning to
end, but the queue's lock only within each call on the queue, so the worklet can
take a step between two such calls. A function that makes two is cut between them. -/
namespace BareKit

def bareIpcWouldBlock : Int := -1
def bareIpcError : Int := -2

/-- `port` is whether the pointer is there: closing sets it to `NULL`. -/
structure Ipc where
  port : Bool
  pending : Message
  offset : Nat
  deriving DecidableEq, Repr

/-- `bare_ipc_readable` and `bare_ipc_writable`. -/
structure Events where
  readable : Bool
  writable : Bool
  deriving DecidableEq, Repr

def Events.none : Events := ⟨false, false⟩

/-- The signal of the ipc exists before its port is opened. `none` stands for the
failure of an ipc that the worklet has no port left for. -/
def bareIpcCreate (queue : Queue) (onSignal ipc : Pointer) : Outcome (Option Ipc) :=
  let port := bareQueueOpenThread queue (some onSignal) (some ipc)
  { queue := port.queue
    result := if port.result then some ⟨true, ⟨none, 0⟩, 0⟩ else none
    wake := port.wake }

/-- `bare_ipc_read` up to the end of `bare_queue_read`, if it gets there. The flag is
whether the result is `bare_ipc_would_block` so far. -/
def bareIpcReadQueue (queue : Queue) (ipc : Ipc) : Outcome (Ipc × Bool) :=
  if ipc.port ∧ ipc.pending.base = none then
    let read := bareQueueRead queue .thread
    { queue := read.queue
      result :=
        match read.result with
        | .ok pending => ({ ipc with pending, offset := 0 }, false)
        | .wouldBlock => ({ ipc with offset := 0 }, true)
      wake := read.wake }
  else { queue, result := (ipc, false) }

/-- What the rest of `bare_ipc_read` does: `signal` is whether it calls
`bare_ipc__signal` before it lets go of the lock. -/
structure IpcRead where
  ipc : Ipc
  result : Int
  data : Bytes := []
  signal : Bool := false
  freed : Option Buffer := none

def bareIpcReadPending (queue : Queue) (ipc : Ipc) (len : Nat) (blocked : Bool) : IpcRead :=
  match ipc.pending.base with
  | none => { ipc, result := if blocked then bareIpcWouldBlock else 0 }
  | some base =>
    let len := if len > intMax then intMax else len
    let remaining := ipc.pending.len - ipc.offset
    let len := if len > remaining then remaining else len
    let offset := ipc.offset + len
    let pending := if offset = ipc.pending.len then none else some base
    { ipc := { ipc with pending := { ipc.pending with base := pending }, offset }
      result := len
      data := (base.bytes.drop ipc.offset).take len
      signal := pending.isSome || bareQueueReadable queue .thread
      freed := if offset = ipc.pending.len then some base else none }

def bareIpcWrite (queue : Queue) (ipc : Ipc) (addr : Pointer) (data : Bytes) : Outcome Int :=
  if ipc.port then
    let written := bareQueueWrite queue .thread addr data
    { written with
      result :=
        if written.result = bareQueueWouldBlock then bareIpcWouldBlock
        else if written.result = bareQueueClosed then bareIpcError
        else written.result }
  else { queue, result := bareIpcError }

/-- `none` when the port is gone. Otherwise `bare_ipc__signal` follows. -/
def bareIpcEnd (queue : Queue) (ipc : Ipc) : Option (Outcome Bool) :=
  if ipc.port then some (bareQueueEnd queue .thread) else none

/-- `none` when the port is gone. Otherwise `bareIpcCloseRelease` follows. -/
def bareIpcClose (queue : Queue) (ipc : Ipc) : Option (Outcome Bool) :=
  if ipc.port then some (bareQueueClose queue .thread) else none

/-- The rest of `bare_ipc_close`, up to `bare_ipc__signal`, with what it frees. -/
def bareIpcCloseRelease (ipc : Ipc) : Ipc × Option Buffer :=
  ({ ipc with port := false, pending := { ipc.pending with base := none } }, ipc.pending.base)

/-- The first check of `bare_ipc__dispatch`. -/
def bareIpcMaskReadable (queue : Queue) (ipc : Ipc) (ready : Events) : Events :=
  if ipc.port ∧ ipc.pending.base = none ∧ bareQueueReadable queue .thread = false then
    { ready with readable := false }
  else ready

/-- The second check of `bare_ipc__dispatch`. -/
def bareIpcMaskWritable (queue : Queue) (ipc : Ipc) (ready : Events) : Events :=
  if ipc.port ∧ bareQueueWritable queue .thread = false then { ready with writable := false }
  else ready

end BareKit
