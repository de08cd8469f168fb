import BareKit.Queue

/-! The worklet end: the native functions of `src/worklet.c` that the script is
given, and the stream of `src/worklet.js` on top of them. A definition is one call on
the queue with the script up to the next one, as other threads run in between. -/
namespace BareKit

/-- What `native.read()` returns: an `ArrayBuffer`, `null` or `undefined`. -/
inductive NativeRead where
  | chunk (bytes : Bytes)
  | null
  | undefined
  deriving DecidableEq, Repr

def bareWorkletOnIpcRead (queue : Queue) : Outcome NativeRead :=
  let status := bareQueueRead queue .uv
  { queue := status.queue
    result :=
      match status.result with
      | .wouldBlock => .undefined
      | .ok ⟨some data, len⟩ => if len = 0 then .null else .chunk (data.bytes.take len)
      | .ok ⟨none, _⟩ => .null
    wake := status.wake }

/-- What `native.write(buffer)` returns, with `none` for `null`. -/
def bareWorkletOnIpcWrite (queue : Queue) (addr : Pointer) (chunk : Bytes) :
    Outcome (Option Int) :=
  let n := bareQueueWrite queue .uv addr chunk
  { queue := n.queue
    result := if n.result = bareQueueClosed then none else some n.result
    wake := n.wake
    freed := n.freed }

def bareWorkletOnIpcEnd (queue : Queue) : Outcome Bool := bareQueueEnd queue .uv

/-- The rest of a chunk, and the callback of the write it came with. Callbacks are
numbered in the order of the writes. -/
structure PendingWrite where
  chunk : Bytes
  cb : Nat
  deriving DecidableEq, Repr

/-- The call of a callback, with whether its argument was `null`. -/
structure Settled where
  cb : Nat
  ok : Bool
  deriving DecidableEq, Repr

structure IPCStream where
  reading : Bool
  pendingWrite : Option PendingWrite
  deriving DecidableEq, Repr

namespace IPCStream

/-- The stream that `openIPC` constructs. -/
def create : IPCStream := ⟨false, none⟩

/-- `_send`, with the callback that it calls. -/
def send (stream : IPCStream) (queue : Queue) (addr : Pointer) (chunk : Bytes) (cb : Nat) :
    Outcome (IPCStream × Option Settled) :=
  let written := bareWorkletOnIpcWrite queue addr chunk
  { queue := written.queue
    result :=
      match written.result with
      | none => (stream, some ⟨cb, false⟩)
      | some n =>
        if n < 0 then ({ stream with pendingWrite := some ⟨chunk, cb⟩ }, none)
        else if n < chunk.length then
          ({ stream with pendingWrite := some ⟨chunk.drop n.toNat, cb⟩ }, none)
        else (stream, some ⟨cb, true⟩)
    wake := written.wake
    freed := written.freed }

def retry (stream : IPCStream) (queue : Queue) (addr : Pointer) :
    Outcome (IPCStream × Option Settled) :=
  match stream.pendingWrite with
  | none => { queue, result := (stream, none) }
  | some ⟨chunk, cb⟩ => send { stream with pendingWrite := none } queue addr chunk cb

/-- How one turn of the loop in `_drain` ends: not reading or nothing to read, the end of
the stream was pushed, or a chunk was. -/
inductive Drained where
  | done
  | ended
  | pushed (chunk : Bytes) (more : Bool)
  deriving DecidableEq, Repr

/-- One turn of the loop in `_drain`, where `more` is what `this.push` returns. -/
def drain (stream : IPCStream) (queue : Queue) (more : Bool) : Outcome (IPCStream × Drained) :=
  if stream.reading then
    let read := bareWorkletOnIpcRead queue
    { queue := read.queue
      result :=
        match read.result with
        | .undefined => (stream, .done)
        | .null => ({ stream with reading := false }, .ended)
        | .chunk chunk => ({ stream with reading := more }, .pushed chunk more)
      wake := read.wake }
  else { queue, result := (stream, .done) }

end IPCStream

end BareKit
