import BareKit.Queue
import Mathlib.Logic.Function.Basic

/-! What the queue is for: two independent bounded first-in first-out lists, one
towards each end, and what each end still does. Messages are of any type. -/
namespace BareKit

structure Channel (μ : Type*) where
  inbox : Port → List μ
  state : Port → EndState

inductive SendResult where
  | closed
  | blocked
  | accepted
  deriving DecidableEq, Repr

inductive ReceiveResult (μ : Type*) where
  | message (message : μ)
  | endOfStream
  | blocked

namespace Channel

variable {μ ν : Type*}

/-- One slot of each ring always stays free. -/
def bound : Nat := bareQueueCapacity - 1

@[ext] theorem ext {left right : Channel μ} (hinbox : ∀ port, left.inbox port = right.inbox port)
    (hstate : ∀ port, left.state port = right.state port) : left = right := by
  cases left
  cases right
  congr 1
  · exact funext hinbox
  · exact funext hstate

def empty : Channel μ where
  inbox _ := []
  state _ := .idle

def outbox (channel : Channel μ) (port : Port) : List μ := channel.inbox port.peer

/-- Writes of an end fail once it has ended or its peer has closed. -/
def Refused (channel : Channel μ) (port : Port) : Prop :=
  EndState.ended ≤ channel.state port ∨ channel.state port.peer = .closed

/-- Reads of an end that find nothing are at the end of the stream. -/
def Finished (channel : Channel μ) (port : Port) : Prop :=
  EndState.ended ≤ channel.state port.peer

instance (channel : Channel μ) (port : Port) : Decidable (channel.Refused port) :=
  inferInstanceAs (Decidable (_ ∨ _))

instance (channel : Channel μ) (port : Port) : Decidable (channel.Finished port) :=
  inferInstanceAs (Decidable (_ ≤ _))

def sendResult (channel : Channel μ) (port : Port) : SendResult :=
  if channel.Refused port then .closed
  else if (channel.outbox port).length = bound then .blocked
  else .accepted

def send (channel : Channel μ) (port : Port) (message : μ) : Channel μ :=
  if channel.sendResult port = .accepted then
    { channel with
      inbox := Function.update channel.inbox port.peer (channel.outbox port ++ [message]) }
  else channel

def receiveResult (channel : Channel μ) (port : Port) : ReceiveResult μ :=
  match channel.inbox port with
  | message :: _ => .message message
  | [] => if channel.Finished port then .endOfStream else .blocked

def receive (channel : Channel μ) (port : Port) : Channel μ :=
  { channel with inbox := Function.update channel.inbox port (channel.inbox port).tail }

def setState (channel : Channel μ) (port : Port) (state : EndState) : Channel μ :=
  { channel with state := Function.update channel.state port state }

/-- Ends only move forward. -/
def advance (channel : Channel μ) (port : Port) (state : EndState) : Channel μ :=
  if channel.state port < state then channel.setState port state else channel

def readable (channel : Channel μ) (port : Port) : Bool :=
  !(channel.inbox port).isEmpty || decide (channel.Finished port)

def writable (channel : Channel μ) (port : Port) : Bool :=
  decide ((channel.outbox port).length ≠ bound) || decide (channel.Refused port)

/-! What each operation does to each list and each state. -/

section Fields

variable (channel : Channel μ) (port other : Port) (message : μ) (state : EndState)

@[simp] theorem send_state : (channel.send port message).state = channel.state := by
  unfold send
  split <;> rfl

theorem send_inbox_peer (h : channel.sendResult port = .accepted) :
    (channel.send port message).inbox port.peer = channel.inbox port.peer ++ [message] := by
  simp [send, h, outbox]

@[simp] theorem send_inbox_self : (channel.send port message).inbox port = channel.inbox port := by
  unfold send
  split
  · simp [Function.update_of_ne]
  · rfl

theorem send_eq_self (h : channel.sendResult port ≠ .accepted) :
    channel.send port message = channel := by
  simp [send, h]

@[simp] theorem receive_state : (channel.receive port).state = channel.state := rfl

@[simp] theorem receive_inbox_self :
    (channel.receive port).inbox port = (channel.inbox port).tail := by
  simp [receive]

@[simp] theorem receive_inbox_peer :
    (channel.receive port).inbox port.peer = channel.inbox port.peer := by
  simp [receive, Function.update_of_ne]

@[simp] theorem setState_inbox : (channel.setState port state).inbox = channel.inbox := rfl

@[simp] theorem setState_state_self : (channel.setState port state).state port = state := by
  simp [setState]

@[simp] theorem setState_state_peer :
    (channel.setState port state).state port.peer = channel.state port.peer := by
  simp [setState, Function.update_of_ne]

@[simp] theorem advance_inbox : (channel.advance port state).inbox = channel.inbox := by
  unfold advance
  split <;> rfl

theorem advance_state_self : (channel.advance port state).state port =
    if channel.state port < state then state else channel.state port := by
  unfold advance
  split <;> simp

@[simp] theorem advance_state_peer :
    (channel.advance port state).state port.peer = channel.state port.peer := by
  unfold advance
  split <;> simp

theorem le_advance : channel.state other ≤ (channel.advance port state).state other := by
  rcases port.eq_or_eq_peer other with rfl | rfl
  · rw [advance_state_self]
    split
    · exact Nat.le_of_lt ‹_›
    · exact Nat.le_refl _
  · rw [advance_state_peer]
    exact Nat.le_refl _

end Fields

theorem sendResult_closed {channel : Channel μ} {port : Port} :
    channel.sendResult port = .closed ↔ channel.Refused port := by
  unfold sendResult
  split
  · simp_all
  · split <;> simp_all

theorem sendResult_blocked {channel : Channel μ} {port : Port} :
    channel.sendResult port = .blocked ↔
      ¬ channel.Refused port ∧ (channel.outbox port).length = bound := by
  unfold sendResult
  split
  · simp_all
  · split <;> simp_all

theorem sendResult_accepted {channel : Channel μ} {port : Port} :
    channel.sendResult port = .accepted ↔
      ¬ channel.Refused port ∧ (channel.outbox port).length ≠ bound := by
  unfold sendResult
  split
  · simp_all
  · split <;> simp_all

end Channel

end BareKit
