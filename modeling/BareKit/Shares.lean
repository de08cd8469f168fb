import BareKit.Life

/-! What each step on the wire does to the shares of the queue: the calls on the ipc and
those of the script access a queue that is owned, and only the last owner to let go finds
that it is not any more. -/
namespace BareKit

theorem bareQueueRead_queue (queue : Queue) (port : Port) :
    ∃ ring, (bareQueueRead queue port).queue = queue.setInbox port ring := by
  unfold bareQueueRead
  dsimp only
  split
  · exact ⟨_, rfl⟩
  · exact ⟨bareQueueInbox queue port, by cases port <;> rfl⟩

theorem bareQueueWrite_queue (queue : Queue) (port : Port) (addr : Pointer) (data : Bytes) :
    ∃ ring, (bareQueueWrite queue port addr data).queue = queue.setInbox port.peer ring := by
  have hself : ∃ ring, queue = queue.setInbox port.peer ring :=
    ⟨bareQueueInbox queue port.peer, by cases port <;> rfl⟩
  unfold bareQueueWrite
  dsimp only
  split
  · exact hself
  · split
    · exact hself
    · split
      · exact hself
      · exact ⟨_, rfl⟩

theorem bareIpcReadQueue_queue (queue : Queue) (ipc : Ipc) :
    ∃ ring, (bareIpcReadQueue queue ipc).queue = queue.setInbox .thread ring := by
  unfold bareIpcReadQueue
  split
  · exact bareQueueRead_queue queue .thread
  · exact ⟨queue.toThread, rfl⟩

theorem bareIpcWrite_queue (queue : Queue) (ipc : Ipc) (addr : Pointer) (data : Bytes) :
    ∃ ring, (bareIpcWrite queue ipc addr data).queue = queue.setInbox .uv ring := by
  unfold bareIpcWrite
  split
  · exact bareQueueWrite_queue queue .thread addr data
  · exact ⟨queue.toUv, rfl⟩

namespace Wire

variable {wire next : Wire} {ipc : Ipc} {label : Step}

def HostLetGo (wire : Wire) : Prop :=
  wire.ipc = none ∨ wire.held = some .closing ∨ ∃ ipc, wire.ipc = some ipc ∧ ipc.port = false

theorem hostLetGo_iff (hsound : wire.Sound) (hhosted : wire.Hosted) :
    wire.HostLetGo ↔ wire.queue.threadState = .idle ∨ wire.queue.threadState = .closed := by
  constructor
  · rintro (hnone | hclosing | ⟨ipc, hipc, hport⟩)
    · left
      by_contra hused
      exact hhosted.created hused hnone
    · exact Or.inr (hhosted.closing hclosing)
    · exact Or.inr (hhosted.gone ipc hipc hport)
  · rintro (hidle | hclosed)
    · left
      by_contra hipc
      exact hsound.opened hipc hidle
    · exact Or.inr (hhosted.shut hclosed)

theorem unowned_iff (queue : Queue) : bareQueueUnowned queue = true ↔
    queue.destroyed = true ∧ (queue.threadState = .idle ∨ queue.threadState = .closed) := by
  simp [bareQueueUnowned]

theorem unowned_of_destroyed {queue : Queue} (h : queue.destroyed = false) :
    bareQueueUnowned queue = false := by
  simp [bareQueueUnowned, h]

/-- What the calls on the ipc and those of the script leave to the thread of the worklet. -/
structure Keeps (wire next : Wire) : Prop where
  destroyed : next.queue.destroyed = wire.queue.destroyed
  started : next.started = wire.started
  closed : wire.queue.uvState = .closed → next.queue.uvState = .closed

theorem Keeps.ring {port : Port} (hqueue : ∃ ring, next.queue = wire.queue.setInbox port ring)
    (hstarted : next.started = wire.started) : Keeps wire next := by
  obtain ⟨ring, hring⟩ := hqueue
  refine ⟨?_, hstarted, ?_⟩
  · rw [hring]
    cases port <;> rfl
  · rw [hring]
    cases port <;> exact id

theorem Keeps.advance (wire : Wire) (port : Port) (state : EndState) :
    Keeps wire (wire.apply (bareQueueAdvance wire.queue port state)) := by
  refine ⟨Queue.advance_destroyed port state, rfl, fun hclosed => ?_⟩
  cases port with
  | uv => exact Queue.advance_closed .uv state hclosed
  | thread => exact (Queue.advance_state_peer .thread state).trans hclosed

theorem keeps_script (hworklet : label.ofWorklet = true) (hscript : wire.stepNative label = none)
    (hstep : wire.step label = some next) : Keeps wire next := by
  have hself : ∀ other : Wire, other.queue = wire.queue → other.started = wire.started →
      Keeps wire other := by
    intro other hqueue hstarted
    exact ⟨by rw [hqueue], hstarted, by rw [hqueue]; exact id⟩
  cases move_step hstep with
  | ipcCreate _ | ipcRead _ _ _ | ipcReadPending _ _ | ipcWrite _ _ | ipcEnd _ _ _ | ipcClose _ _ _
  | ipcEndGone _ _ _ | ipcCloseGone _ _ _ | ipcCloseRelease _ _ | ipcSignal _ _ | dispatch _ _
  | dispatchWritable _ _ | takeWake _ => contradiction
  | openUv _ _ | exit _ _ | abandon _ _ | destroy _ =>
    have hnone := hscript.symm.trans hstep
    contradiction
  | write _ _ _ _ => exact Keeps.ring (bareQueueWrite_queue _ .uv _ _) rfl
  | final _ _ _ _ =>
    obtain ⟨hdestroyed, hstarted, hclosed⟩ := Keeps.advance wire .uv .ended
    exact ⟨hdestroyed, hstarted, hclosed⟩
  | read _ _ | onsignal _ _ _ | retryNone _ _ _ => exact hself _ rfl rfl
  | retry _ _ _ => exact Keeps.ring (bareQueueWrite_queue _ .uv _ _) rfl
  | drain _ _ hnext =>
    rename_i more _ _
    have hdrained : ∃ ring, (wire.stream.drain wire.queue more).queue =
        wire.queue.setInbox .uv ring := by
      unfold IPCStream.drain
      split
      · exact bareQueueRead_queue wire.queue .uv
      · exact ⟨wire.queue.toUv, rfl⟩
    simp only [stepScript] at hnext
    split at hnext
    · split at hnext <;>
      · cases hnext
        exact Keeps.ring hdrained rfl
    · contradiction

theorem owned_of_port (hsound : wire.Sound) (hhosted : wire.Hosted) (hipc : wire.ipc = some ipc)
    (hport : ipc.port = true) (hheld : wire.held ≠ some .closing) :
    bareQueueUnowned wire.queue = false := by
  rw [Bool.eq_false_iff, Ne, unowned_iff, ← hostLetGo_iff hsound hhosted]
  rintro ⟨_, hnone | hclosing | ⟨other, hother, hgone⟩⟩
  · simp [hipc] at hnone
  · exact hheld hclosing
  · rw [hipc] at hother
    cases hother
    simp [hport] at hgone

/-- What a step of the host leaves to the thread of the worklet, and to whom it leaves the
queue: it accesses a queue that is owned, and frees it if no one owns it any more. -/
structure Spares (wire next : Wire) (label : Step) : Prop extends Keeps wire next where
  uvState : next.queue.uvState = wire.queue.uvState
  turn : next.turn = wire.turn
  touches : wire.touches label = true → bareQueueUnowned wire.queue = false
  unowned : bareQueueUnowned next.queue = (bareQueueUnowned wire.queue || wire.frees label)

theorem Spares.ring (port : Port) (hqueue : ∃ ring, next.queue = wire.queue.setInbox port ring)
    (hstarted : next.started = wire.started) (hturn : next.turn = wire.turn)
    (htouches : wire.touches label = true → bareQueueUnowned wire.queue = false)
    (hfrees : wire.frees label = false) : Spares wire next label := by
  refine ⟨Keeps.ring hqueue hstarted, ?_, hturn, htouches, ?_⟩
  · obtain ⟨ring, hring⟩ := hqueue
    rw [hring]
    cases port <;> rfl
  · obtain ⟨ring, hring⟩ := hqueue
    rw [hfrees, Bool.or_false, hring]
    cases port <;> rfl

theorem Spares.quiet (hqueue : next.queue = wire.queue) (hstarted : next.started = wire.started)
    (hturn : next.turn = wire.turn)
    (htouches : wire.touches label = true → bareQueueUnowned wire.queue = false)
    (hfrees : wire.frees label = false) : Spares wire next label :=
  Spares.ring .uv ⟨wire.queue.toUv, hqueue⟩ hstarted hturn htouches hfrees

theorem Spares.advance (state : EndState)
    (hnext : next.queue = (bareQueueAdvance wire.queue .thread state).queue)
    (hstarted : next.started = wire.started) (hturn : next.turn = wire.turn)
    (howned : bareQueueUnowned wire.queue = false)
    (hfrees : wire.frees label = (bareQueueAdvance wire.queue .thread state).result) :
    Spares wire next label := by
  have hkeeps := Keeps.advance wire .thread state
  refine ⟨⟨?_, hstarted, ?_⟩, ?_, hturn, fun _ => howned, ?_⟩
  · rw [hnext]
    exact hkeeps.destroyed
  · rw [hnext]
    exact hkeeps.closed
  · rw [hnext]
    exact Queue.advance_state_peer .thread state
  · rw [howned, Bool.false_or, hfrees, hnext]
    rfl

theorem frees_of_lock (hheld : wire.held = none) (hipc : wire.ipc = some ipc) :
    wire.frees .ipcEnd = (bareIpcEnd wire.queue ipc).any Outcome.result ∧
      wire.frees .ipcClose = (bareIpcClose wire.queue ipc).any Outcome.result := by
  simp [frees, lock, hheld, hipc]

theorem spares_step (hsound : wire.Sound) (hhosted : wire.Hosted) (hhost : label.ofWorklet = false)
    (hstep : wire.step label = some next) : Spares wire next label := by
  have howned : ∀ {ipc}, wire.ipc = some ipc → ipc.port = true → wire.held ≠ some .closing →
      bareQueueUnowned wire.queue = false := owned_of_port hsound hhosted
  cases move_step hstep with
  | write _ _ _ _ | final _ _ _ _ | read _ _ | onsignal _ _ _ | retryNone _ _ _ | retry _ _ _
  | drain _ _ _ | openUv _ _ | exit _ _ | abandon _ _ | destroy _ => contradiction
  | ipcCreate hdestroyed =>
    rename_i onSignal data
    have howned := unowned_of_destroyed hdestroyed
    have hkept : ∀ queue : Queue, queue = (bareIpcCreate wire.queue onSignal data).queue →
        queue.destroyed = wire.queue.destroyed ∧ queue.uvState = wire.queue.uvState := by
      rintro queue rfl
      simp only [bareIpcCreate, bareQueueOpenThread]
      split <;> exact ⟨rfl, rfl⟩
    obtain ⟨hsame, huv⟩ := hkept _ rfl
    refine ⟨⟨hsame, rfl, fun hclosed => huv.trans hclosed⟩, huv, rfl, fun _ => howned, ?_⟩
    rw [howned]
    exact unowned_of_destroyed (hsame.trans hdestroyed)
  | ipcRead hheld hipc _ =>
    refine Spares.ring _ (bareIpcReadQueue_queue _ _) rfl rfl (fun htouches => ?_) rfl
    simp only [touches, hipc, Option.any_some, Bool.and_eq_true] at htouches
    exact howned hipc htouches.1 (by simp [hheld])
  | ipcReadPending hipc hheld =>
    refine Spares.quiet rfl rfl rfl (fun htouches => ?_) rfl
    simp only [touches, hipc, Option.any_some] at htouches
    have hport := (hsound.ipc _ hipc).port (Option.isSome_iff_ne_none.mp htouches)
    exact howned hipc hport (by simp [hheld])
  | ipcWrite hheld hipc =>
    refine Spares.ring _ (bareIpcWrite_queue _ _ _ _) rfl rfl (fun htouches => ?_) rfl
    simp only [touches, hipc, Option.any_some] at htouches
    exact howned hipc htouches (by simp [hheld])
  | ipcEnd hheld hipc hport =>
    refine Spares.advance .ended rfl rfl rfl (howned hipc hport (by simp [hheld])) ?_
    rw [(frees_of_lock hheld hipc).1, bareIpcEnd, if_pos hport]
    rfl
  | ipcClose hheld hipc hport =>
    refine Spares.advance .closed rfl rfl rfl (howned hipc hport (by simp [hheld])) ?_
    rw [(frees_of_lock hheld hipc).2, bareIpcClose, if_pos hport]
    rfl
  | ipcEndGone hheld hipc hport | ipcCloseGone hheld hipc hport =>
    have hfrees := frees_of_lock hheld hipc
    refine Spares.quiet rfl rfl rfl (fun htouches => ?_)
      (by simp [hfrees, bareIpcEnd, bareIpcClose, hport])
    simp [touches, hipc, hport] at htouches
  | ipcCloseRelease _ _ | ipcSignal _ _ | takeWake _ =>
    exact Spares.quiet rfl rfl rfl (fun htouches => by contradiction) rfl
  | dispatch hheld hipc =>
    refine Spares.quiet rfl rfl rfl (fun htouches => ?_) rfl
    simp only [touches, hipc, Option.any_some, Bool.and_eq_true] at htouches
    exact howned hipc htouches.1 (by simp [hheld])
  | dispatchWritable hipc hheld =>
    refine Spares.quiet rfl rfl rfl (fun htouches => ?_) rfl
    simp only [touches, hipc, Option.any_some] at htouches
    exact howned hipc htouches (by simp [hheld])

end Wire

end BareKit
