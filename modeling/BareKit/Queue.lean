import Mathlib.Data.List.Basic

/-! The queue of `src/queue.c`: two rings of owned messages and the states of the
two ends, under one lock. A definition is the locked section of the function it is
named after, with the signals and frees that the function makes as part of what it
returns. Allocation is assumed to succeed, and the address it yields is an argument. -/
namespace BareKit

abbrev Bytes := List UInt8
abbrev Pointer := Nat

def bareQueueCapacity : Nat := 1024
def bareQueueMask : Nat := bareQueueCapacity - 1
def intMax : Nat := 2147483647

def bareQueueWouldBlock : Int := -1
def bareQueueClosed : Int := -2

/-- What an end does: it starts idle and only moves forward once opened. -/
inductive EndState where
  | idle
  | opened
  | ended
  | closed
  deriving DecidableEq, Repr

def EndState.rank : EndState → Nat
  | .idle => 0
  | .opened => 1
  | .ended => 2
  | .closed => 3

instance : LE EndState := ⟨fun left right => left.rank ≤ right.rank⟩
instance : LT EndState := ⟨fun left right => left.rank < right.rank⟩
instance (left right : EndState) : Decidable (left ≤ right) :=
  inferInstanceAs (Decidable (left.rank ≤ right.rank))
instance (left right : EndState) : Decidable (left < right) :=
  inferInstanceAs (Decidable (left.rank < right.rank))

/-- A heap block: where it is and what was copied into it. -/
structure Buffer where
  addr : Pointer
  bytes : Bytes
  deriving DecidableEq, Repr

/-- `base` is `none` for the `NULL` of an end of stream. -/
structure Message where
  base : Option Buffer
  len : Nat
  deriving DecidableEq, Repr

abbrev Slots := Vector Message bareQueueCapacity

def Slots.blank : Slots := Vector.replicate bareQueueCapacity ⟨none, 0⟩

structure Ring where
  slots : Slots
  head : Nat
  tail : Nat

/-- The worklet has the `uv` port and the host the `thread` port. -/
inductive Port where
  | uv
  | thread
  deriving DecidableEq, Repr

def Port.peer : Port → Port
  | .uv => .thread
  | .thread => .uv

structure Queue where
  toUv : Ring
  toThread : Ring
  uvState : EndState
  threadState : EndState
  destroyed : Bool
  onSignalThread : Option Pointer
  onRecvUv : Option Pointer
  uvData : Option Pointer
  threadData : Option Pointer

/-- What a locked section leaves behind: the queue, the result, the end whose
signal was called, and the buffer that was freed. -/
structure Outcome (ρ : Type) where
  queue : Queue
  result : ρ
  wake : Option Port := none
  freed : Option Buffer := none

def bareQueueRingEmpty (ring : Ring) : Bool := ring.head == ring.tail

def bareQueueRingFull (ring : Ring) : Bool :=
  ((ring.head + 1) &&& bareQueueMask) == ring.tail

def bareQueueRingPush (ring : Ring) (base : Buffer) (len : Nat) : Option Ring :=
  if bareQueueRingFull ring then none
  else some
    { slots := ring.slots.setIfInBounds ring.head ⟨some base, len⟩
      head := (ring.head + 1) &&& bareQueueMask
      tail := ring.tail }

def bareQueueRingShift (ring : Ring) : Option (Message × Ring) :=
  if bareQueueRingEmpty ring then none
  else ring.slots[ring.tail]?.map fun message =>
    (message, { ring with tail := (ring.tail + 1) &&& bareQueueMask })

def bareQueueInbox (queue : Queue) : Port → Ring
  | .uv => queue.toUv
  | .thread => queue.toThread

def bareQueueOutbox (queue : Queue) : Port → Ring
  | .uv => queue.toThread
  | .thread => queue.toUv

def Queue.setInbox (queue : Queue) (port : Port) (ring : Ring) : Queue :=
  match port with
  | .uv => { queue with toUv := ring }
  | .thread => { queue with toThread := ring }

def bareQueueState (queue : Queue) : Port → EndState
  | .uv => queue.uvState
  | .thread => queue.threadState

def Queue.setState (queue : Queue) (port : Port) (state : EndState) : Queue :=
  match port with
  | .uv => { queue with uvState := state }
  | .thread => { queue with threadState := state }

def bareQueuePeerState (queue : Queue) : Port → EndState
  | .uv => queue.threadState
  | .thread => queue.uvState

def bareQueueListening (state : EndState) : Bool := state == .opened || state == .ended

/-- `uv_async_send` on the queue's handle. -/
def bareQueueSignalUv (queue : Queue) : Option Port :=
  if bareQueueListening queue.uvState then some .uv else none

/-- A call of `on_signal_thread`, which the host may have left `NULL`. -/
def bareQueueSignalThread (queue : Queue) : Option Port :=
  if bareQueueListening queue.threadState && queue.onSignalThread.isSome then some .thread
  else none

def bareQueueSignalPeer (queue : Queue) : Port → Option Port
  | .uv => bareQueueSignalThread queue
  | .thread => bareQueueSignalUv queue

/-- The slots are whatever `malloc` returned. -/
def bareQueueCreate (toUv toThread : Slots) : Queue where
  toUv := ⟨toUv, 0, 0⟩
  toThread := ⟨toThread, 0, 0⟩
  uvState := .idle
  threadState := .idle
  destroyed := false
  onSignalThread := none
  onRecvUv := none
  uvData := none
  threadData := none

/-- The catch-up signal is sent after the lock is released, and unlike the others
does not ask whether the end is listening. -/
def bareQueueOpenUv (queue : Queue) (onRecv data : Option Pointer) : Outcome Unit where
  queue := { queue with uvData := data, onRecvUv := onRecv, uvState := .opened }
  result := ()
  wake := if !bareQueueRingEmpty queue.toUv then some .uv else none

/-- `false` stands for the `NULL` of a host end that was opened before. -/
def bareQueueOpenThread (queue : Queue) (onSignal data : Option Pointer) : Outcome Bool :=
  if queue.threadState ≠ .idle then { queue, result := false }
  else
    let queue :=
      { queue with threadData := data, onSignalThread := onSignal, threadState := .opened }
    { queue
      result := true
      wake := if !bareQueueRingEmpty queue.toThread then bareQueueSignalThread queue else none }

def bareQueueWrite (queue : Queue) (port : Port) (addr : Pointer) (data : Bytes) :
    Outcome Int :=
  if data.length = 0 then { queue, result := 0 }
  else
    let len := if data.length > intMax then intMax else data.length
    let ring := bareQueueOutbox queue port
    let base : Buffer := ⟨addr, data.take len⟩
    let wasEmpty := bareQueueRingEmpty ring
    if EndState.ended ≤ bareQueueState queue port ∨ bareQueuePeerState queue port = .closed then
      { queue, result := bareQueueClosed, freed := some base }
    else
      match bareQueueRingPush ring base len with
      | none => { queue, result := bareQueueWouldBlock, freed := some base }
      | some ring =>
        let queue := queue.setInbox port.peer ring
        { queue
          result := len
          wake := if wasEmpty then bareQueueSignalPeer queue port else none }

inductive ReadResult where
  | ok (message : Message)
  | wouldBlock
  deriving DecidableEq, Repr

def bareQueueRead (queue : Queue) (port : Port) : Outcome ReadResult :=
  let ring := bareQueueInbox queue port
  let wasFull := bareQueueRingFull ring
  let peerEnded := decide (EndState.ended ≤ bareQueuePeerState queue port)
  match bareQueueRingShift ring with
  | some (message, ring) =>
    let queue := queue.setInbox port ring
    { queue
      result := .ok message
      wake := if wasFull then bareQueueSignalPeer queue port else none }
  | none =>
    { queue, result := if peerEnded then .ok ⟨none, 0⟩ else .wouldBlock }

/-- Whether the last share of the queue is gone. -/
def bareQueueUnowned (queue : Queue) : Bool :=
  queue.destroyed && (queue.threadState == .idle || queue.threadState == .closed)

/-- The result is whether the caller frees the queue once it has let go of the lock. -/
def bareQueueAdvance (queue : Queue) (port : Port) (state : EndState) : Outcome Bool :=
  let queue := if bareQueueState queue port < state then queue.setState port state else queue
  { queue
    result := bareQueueUnowned queue
    wake := bareQueueSignalPeer queue port }

def bareQueueEnd (queue : Queue) (port : Port) : Outcome Bool :=
  bareQueueAdvance queue port .ended

def bareQueueClose (queue : Queue) (port : Port) : Outcome Bool :=
  bareQueueAdvance queue port .closed

def bareQueueReadable (queue : Queue) (port : Port) : Bool :=
  !bareQueueRingEmpty (bareQueueInbox queue port) ||
    decide (EndState.ended ≤ bareQueuePeerState queue port)

def bareQueueWritable (queue : Queue) (port : Port) : Bool :=
  !bareQueueRingFull (bareQueueOutbox queue port) ||
    decide (EndState.ended ≤ bareQueueState queue port) ||
    bareQueuePeerState queue port == .closed

def bareQueueDestroy (queue : Queue) : Outcome Bool :=
  let queue := { queue with destroyed := true }
  { queue, result := bareQueueUnowned queue }

@[simp] theorem Port.peer_peer (port : Port) : port.peer.peer = port := by cases port <;> rfl

@[simp] theorem Port.peer_ne (port : Port) : port.peer ≠ port := by cases port <;> decide

@[simp] theorem Port.ne_peer (port : Port) : port ≠ port.peer := by cases port <;> decide

theorem Port.eq_or_eq_peer (port other : Port) : other = port ∨ other = port.peer := by
  cases port <;> cases other <;> decide

theorem EndState.not_closed_lt {state : EndState} : ¬ EndState.closed < state := by
  cases state <;> decide

theorem bareQueueListening_iff {state : EndState} :
    bareQueueListening state = true ↔ state = .opened ∨ state = .ended := by
  simp [bareQueueListening]

theorem bareQueueOutbox_eq_inbox (queue : Queue) (port : Port) :
    bareQueueOutbox queue port = bareQueueInbox queue port.peer := by
  cases port <;> rfl

theorem bareQueuePeerState_eq (queue : Queue) (port : Port) :
    bareQueuePeerState queue port = bareQueueState queue port.peer := by
  cases port <;> rfl

end BareKit
