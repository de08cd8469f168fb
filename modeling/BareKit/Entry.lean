import BareKit.Wakeups

/-! What one section of the lock of a queue does to the states of the two ends, and which
end it signals: the whole of what a signal relies on. -/
namespace BareKit

inductive Entry where
  | call (call : Call)
  | destroy
  deriving DecidableEq, Repr

def Queue.enter (queue : Queue) : Entry → Queue × Option Port
  | .call call => ((queue.call call).queue, (queue.call call).wake)
  | .destroy => ((bareQueueDestroy queue).queue, none)

namespace Entry

def opensUv : Entry → Bool
  | .call (.openUv _ _) => true
  | _ => false

def closes (entry : Entry) (port : Port) : Bool :=
  match entry with
  | .call (.closePort closing) => closing == port
  | _ => false

def after (entry : Entry) (port : Port) (state : EndState) : EndState :=
  match entry with
  | .call (.openUv _ _) => if port = .uv then .opened else state
  | .call (.openThread _ _) => if port = .thread ∧ state = .idle then .opened else state
  | .call (.endPort ending) => if port = ending ∧ state < .ended then .ended else state
  | .call (.closePort closing) => if port = closing ∧ state < .closed then .closed else state
  | _ => state

end Entry

namespace Queue

variable {queue : Queue} {entry : Entry} {port : Port}

theorem write_state (queue : Queue) (port other : Port) (addr : Pointer) (data : Bytes) :
    bareQueueState (bareQueueWrite queue port addr data).queue other =
      bareQueueState queue other := by
  unfold bareQueueWrite
  dsimp only
  split
  · rfl
  · split
    · rfl
    · split
      · rfl
      · exact setInbox_state _ _ other

theorem read_state (queue : Queue) (port other : Port) :
    bareQueueState (bareQueueRead queue port).queue other = bareQueueState queue other := by
  unfold bareQueueRead
  dsimp only
  split
  · exact setInbox_state _ _ other
  · rfl

theorem enter_state (queue : Queue) (entry : Entry) (port : Port) :
    bareQueueState (queue.enter entry).1 port = entry.after port (bareQueueState queue port) := by
  cases entry with
  | destroy => cases port <;> rfl
  | call call =>
    cases call with
    | openUv onRecv data => cases port <;> rfl
    | openThread onSignal data =>
      simp only [enter, call, Outcome.answer, bareQueueOpenThread, Entry.after]
      by_cases hidle : queue.threadState = .idle <;> cases port <;> simp [hidle, bareQueueState]
    | write writer addr data => exact write_state queue writer port addr data
    | read reader => exact read_state queue reader port
    | endPort ending => exact advance_state ending .ended port
    | closePort closing => exact advance_state closing .closed port
    | readable _ | writable _ => rfl

theorem signalPeer_hears {woken : Port} (port : Port)
    (h : bareQueueSignalPeer queue port = some woken) : queue.Hears woken := by
  cases port with
  | uv =>
    simp only [bareQueueSignalPeer, bareQueueSignalThread] at h
    split at h
    · rename_i hlistening
      rw [Bool.and_eq_true] at hlistening
      cases h
      exact ⟨hlistening.1, fun _ => hlistening.2⟩
    · contradiction
  | thread =>
    simp only [bareQueueSignalPeer, bareQueueSignalUv] at h
    split at h
    · rename_i hlistening
      cases h
      exact ⟨hlistening, fun huv => by contradiction⟩
    · contradiction

theorem enter_wake (h : (queue.enter entry).2 = some port) (hentry : entry.opensUv = false) :
    (queue.enter entry).1.Hears port := by
  cases entry with
  | destroy => contradiction
  | call call =>
    cases call with
    | openUv _ _ => contradiction
    | openThread onSignal data =>
      simp only [enter, Queue.call, Outcome.answer, bareQueueOpenThread] at h ⊢
      split at h
      · contradiction
      · rename_i hidle
        rw [if_neg hidle]
        split at h
        · exact signalPeer_hears .uv h
        · contradiction
    | write writer addr data =>
      simp only [enter, Queue.call, Outcome.answer, bareQueueWrite] at h ⊢
      split at h
      · contradiction
      · rename_i hlen
        rw [if_neg hlen]
        split at h
        · contradiction
        · rename_i hopen
          rw [if_neg hopen]
          split at h
          · contradiction
          · dsimp only at h ⊢
            split at h
            · exact signalPeer_hears _ h
            · contradiction
    | read reader =>
      simp only [enter, Queue.call, Outcome.answer, bareQueueRead] at h ⊢
      split at h
      · dsimp only at h ⊢
        split at h
        · exact signalPeer_hears _ h
        · contradiction
      · contradiction
    | endPort ending => exact signalPeer_hears ending h
    | closePort closing => exact signalPeer_hears closing h
    | readable _ | writable _ => contradiction

end Queue

namespace Entry

variable {entry : Entry} {port : Port} {state : EndState}

theorem after_closed (hentry : entry.opensUv = true → port = .thread) :
    entry.after port .closed = .closed := by
  cases entry with
  | destroy => rfl
  | call call =>
    cases call with
    | openUv _ _ => simp [after, hentry rfl]
    | openThread _ _ => simp [after]
    | endPort _ | closePort _ => simp [after, EndState.not_closed_lt]
    | write _ _ _ | read _ | readable _ | writable _ => rfl

theorem after_closes (hentry : entry.closes port = true) : entry.after port state = .closed := by
  cases entry with
  | destroy => contradiction
  | call call =>
    cases call with
    | closePort closing =>
      have hport : closing = port := by simpa [closes] using hentry
      subst hport
      cases state <;> simp [after] <;> decide
    | _ => contradiction

end Entry

theorem Queue.enter_closed {queue : Queue} (h : queue.threadState = .closed) (entry : Entry) :
    (queue.enter entry).1.threadState = .closed := by
  have hstate := enter_state queue entry .thread
  simp only [bareQueueState, h] at hstate
  rw [hstate]
  exact Entry.after_closed fun _ => rfl

end BareKit
