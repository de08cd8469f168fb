import BareKit.Pipe
import BareKit.Retry

/-! What readers can rely on. The script of a worklet that waits for data is woken for it, and a
host that keeps reading after the worklet has ended gets to the end of the stream. -/
namespace BareKit

namespace Wire

variable {wire next : Wire} {ipc : Ipc} {label : Step}

def Heard (wire : Wire) : Prop :=
  wire.wakeUv = true ∨ wire.queue.channel.inbox .uv = [] ∧ ¬ wire.queue.channel.Finished .uv

/-- Between two turns of the script, nothing is left for a stream that reads without a wake. -/
structure Hearing (wire : Wire) : Prop where
  used : wire.started = true → wire.queue.channel.state .uv ≠ .idle
  reading : wire.stream.reading = true → wire.started = true
  heard : wire.stream.reading = true → wire.turn = .idle → wire.queue.channel.state .uv ≠ .closed →
    wire.Heard

theorem Heard.keep (h : wire.Heard) (hwake : wire.wakeUv = true → next.wakeUv = true)
    (hinbox : next.queue.channel.inbox .uv = wire.queue.channel.inbox .uv)
    (hthread : next.queue.channel.Finished .uv → wire.queue.channel.Finished .uv) : next.Heard := by
  rcases h with hwoken | ⟨hempty, hopen⟩
  · exact Or.inl (hwake hwoken)
  · exact Or.inr ⟨by rw [hinbox, hempty], fun hfinished => hopen (hthread hfinished)⟩

theorem signalUv_listening (queue : Queue) (hidle : queue.channel.state .uv ≠ .idle)
    (hclosed : queue.channel.state .uv ≠ .closed) {ρ : Type} {outcome : Outcome ρ}
    (hwake : outcome.wake = bareQueueSignalUv queue) : (wire.apply outcome).wakeUv = true := by
  simp [apply, hwake, signalUv_eq queue hidle hclosed]

theorem Hearing.frame (h : wire.Hearing) (hstarted : next.started = wire.started)
    (hreading : next.stream.reading = true → wire.started = true)
    (hstate : wire.queue.channel.state .uv ≤ next.queue.channel.state .uv)
    (hheard : next.stream.reading = true → next.turn = .idle →
      wire.queue.channel.state .uv ≠ .idle →
      wire.queue.channel.state .uv ≠ .closed → next.Heard) : next.Hearing := by
  constructor
  · intro hnext hidle
    rw [hidle] at hstate
    apply h.used (hstarted ▸ hnext)
    revert hstate
    cases wire.queue.channel.state .uv <;> decide
  · intro hnext
    rw [hstarted]
    exact hreading hnext
  · intro hnext hturn hopen
    refine hheard hnext hturn (h.used (hreading hnext)) fun hclosed => hopen ?_
    rw [hclosed] at hstate
    revert hstate
    cases next.queue.channel.state .uv <;> decide

theorem Hearing.outside (h : wire.Hearing) (hstarted : next.started = wire.started)
    (hstream : next.stream.reading = wire.stream.reading) (hturn : next.turn = wire.turn)
    (hstate : wire.queue.channel.state .uv ≤ next.queue.channel.state .uv)
    (hkept : wire.queue.channel.state .uv ≠ .idle → wire.queue.channel.state .uv ≠ .closed →
      wire.Heard → next.Heard) : next.Hearing := by
  refine h.frame hstarted (fun hnext => h.reading (hstream ▸ hnext)) hstate ?_
  intro hnext hidle hused hopen
  exact hkept hused hopen (h.heard (hstream ▸ hnext) (hturn ▸ hidle) hopen)

theorem Hearing.inside (h : wire.Hearing) (hrunning : wire.running = true)
    (hstarted : next.started = wire.started)
    (hstate : wire.queue.channel.state .uv ≤ next.queue.channel.state .uv)
    (hbusy : next.stream.reading = true → next.turn ≠ .idle) : next.Hearing := by
  refine h.frame hstarted (fun _ => (Bool.and_eq_true_iff.mp hrunning).1) hstate ?_
  intro hnext hidle
  exact absurd hidle (hbusy hnext)

theorem Hearing.advance (h : wire.Hearing) (state : EndState) {held : Option Section} :
    Hearing { wire.apply (bareQueueAdvance wire.queue .thread state) with held } := by
  have hother : (bareQueueAdvance wire.queue .thread state).queue.channel.state .uv =
      wire.queue.channel.state .uv := Queue.advance_state_peer .thread state
  refine h.outside rfl rfl rfl ?_ fun hidle hclosed _ => Or.inl ?_
  · exact Nat.le_of_eq (congrArg EndState.rank hother.symm)
  · exact signalUv_listening _ (hother ▸ hidle) (hother ▸ hclosed) rfl

theorem Hearing.ipcWrite (h : wire.Hearing) (hwell : wire.queue.WellFormed) (ipc : Ipc)
    (addr : Pointer)
    (data : Bytes) (log : Log) :
    Hearing { wire.apply (bareIpcWrite wire.queue ipc addr data) with log } := by
  rcases Ipc.write_cases ipc hwell addr data with ⟨hqueue, _, _⟩ |
    ⟨_, _, _, ring, _, _, wake, hwake, hw⟩
  · refine h.outside rfl rfl rfl ?_ fun _ _ hheard => hheard.keep (apply_wakeUv _) ?_ ?_
    all_goals simp only [apply_queue, hqueue]
    · exact Nat.le_refl _
    · exact id
  · rw [hw]
    refine h.outside rfl rfl rfl (Nat.le_refl _) fun hidle hclosed hheard => Or.inl ?_
    rcases hheard with hwoken | ⟨hempty, _⟩
    · exact apply_wakeUv _ hwoken
    · rw [if_pos hempty] at hwake
      exact signalUv_listening wire.queue hidle hclosed hwake

theorem Hearing.ipcRead (h : wire.Hearing) (hwell : wire.queue.WellFormed) (ipc : Ipc)
    {held : Option Section} :
    Hearing { wire.apply (bareIpcReadQueue wire.queue ipc) with
      ipc := some (bareIpcReadQueue wire.queue ipc).result.1, held } := by
  have hframe :
      (bareIpcReadQueue wire.queue ipc).queue.channel.inbox .uv = wire.queue.channel.inbox .uv ∧
      (bareIpcReadQueue wire.queue ipc).queue.channel.state = wire.queue.channel.state := by
    rcases Ipc.readQueue_cases ipc hwell with ⟨hr, _⟩ | ⟨_, _, ⟨_, _, ring, _, _, _, _, _, hr⟩ |
      ⟨_, _, hr⟩ | ⟨_, _, hr⟩⟩
    all_goals
      rw [hr]
      exact ⟨rfl, rfl⟩
  obtain ⟨hinbox, hstate⟩ := hframe
  refine h.outside rfl rfl rfl ?_ fun _ _ hheard => hheard.keep (apply_wakeUv _) hinbox ?_
  · exact Nat.le_of_eq (congrArg EndState.rank (congrFun hstate .uv).symm)
  · simp only [Channel.Finished, apply_queue, hstate]
    exact id

theorem Hearing.ipcCreate (h : wire.Hearing) (onSignal data : Pointer) (created : Option Ipc) :
    Hearing { wire.apply (bareIpcCreate wire.queue onSignal data) with ipc := created } := by
  have hchannel : (bareIpcCreate wire.queue onSignal data).queue.channel = _ :=
    Queue.channel_openThread wire.queue (some onSignal) (some data)
  by_cases hidle : wire.queue.channel.state .thread = .idle
  · rw [if_neg (not_not.mpr hidle)] at hchannel
    refine h.outside rfl rfl rfl ?_ fun _ _ hheard => hheard.keep (apply_wakeUv _) ?_ ?_
    all_goals simp only [apply_queue, hchannel, Channel.Finished]
    · exact Nat.le_refl _
    · rfl
    · intro hfinished
      simp [Channel.setState] at hfinished
      contradiction
  · rw [if_pos hidle] at hchannel
    refine h.outside rfl rfl rfl ?_ fun _ _ hheard => hheard.keep (apply_wakeUv _) ?_ ?_
    all_goals simp only [apply_queue, hchannel]
    · exact Nat.le_refl _
    · exact id

theorem Hearing.leave (h : wire.Hearing) (state : EndState) (log : Log) :
    Hearing { wire.apply (bareQueueAdvance wire.queue .uv state) with log } := by
  have hchannel : (bareQueueAdvance wire.queue .uv state).queue.channel = _ :=
    Queue.channel_advance .uv state
  refine h.outside rfl rfl rfl ?_ fun _ _ hheard => hheard.keep (apply_wakeUv _) ?_ ?_
  all_goals simp only [apply_queue, hchannel]
  · exact Channel.le_advance wire.queue.channel .uv .uv state
  · simp only [Channel.advance_inbox]
  · simp only [Channel.Finished, Channel.advance_state_peer]
    exact id

theorem send_uv (wire : Wire) (hwell : wire.queue.WellFormed) (stream : IPCStream) (addr : Pointer)
    (chunk : Bytes) (cb : Nat) :
    (wire.send stream addr chunk cb).queue.channel.inbox .uv = wire.queue.channel.inbox .uv ∧
      (wire.send stream addr chunk cb).queue.channel.state = wire.queue.channel.state ∧
      (wire.send stream addr chunk cb).stream.reading = stream.reading := by
  unfold Wire.send
  rcases IPCStream.send_cases stream addr chunk cb hwell with ⟨_, _, hs⟩ | ⟨_, _, _, _, hs⟩ |
    ⟨_, _, _, _, hs⟩ | ⟨_, _, ring, _, _, _, _, _, hs⟩
  all_goals rw [hs]
  · exact ⟨rfl, rfl, rfl⟩
  · exact ⟨rfl, rfl, rfl⟩
  · exact ⟨rfl, rfl, rfl⟩
  · refine ⟨rfl, rfl, ?_⟩
    simp only [IPCStream.accept]
    split <;> rfl

theorem Hearing.write (h : wire.Hearing) (hwell : wire.queue.WellFormed) (addr : Pointer)
    (chunk : Bytes) (cb : Nat) (log : Log) :
    Hearing ({ wire with log }.send wire.stream addr chunk cb) := by
  obtain ⟨hinbox, hstate, hreading⟩ := send_uv { wire with log } hwell wire.stream addr chunk cb
  refine h.outside rfl hreading rfl ?_ fun _ _ hheard => hheard.keep (apply_wakeUv _) hinbox ?_
  · exact Nat.le_of_eq (congrArg EndState.rank (congrFun hstate .uv).symm)
  · simp only [Channel.Finished, hstate]
    exact id

theorem Hearing.drain (h : wire.Hearing) (hwell : wire.queue.WellFormed)
    (hrunning : wire.running = true)
    {more : Bool} (hstep : wire.stepScript (.drain more) = some next) : next.Hearing := by
  simp only [stepScript] at hstep
  split at hstep
  · rcases wire.stream.drain_cases hwell more with ⟨hd, hnone⟩ | ⟨_, _, hd⟩ |
      ⟨_, _, ring, _, _, _, wake, _, hd⟩
    all_goals
      simp only [hd, Option.some.injEq] at hstep
      subst hstep
    · refine h.frame rfl h.reading (Nat.le_refl _) fun hreading _ _ _ => Or.inr (hnone hreading)
    · exact h.inside hrunning rfl (Nat.le_refl _) fun hreading => by contradiction
    · refine h.inside hrunning rfl (Nat.le_refl _) fun hreading => ?_
      have hmore : more = true := hreading
      simp [hmore]
  · contradiction

theorem Hearing.step (h : wire.Hearing) (hwell : wire.queue.WellFormed)
    (hstep : wire.step label = some next) : next.Hearing := by
  cases move_step hstep with
  | ipcCreate _ => exact h.ipcCreate _ _ _
  | ipcRead _ _ _ => exact h.ipcRead hwell _
  | ipcWrite _ _ => exact h.ipcWrite hwell _ _ _ _
  | ipcEnd _ _ _ => exact h.advance .ended
  | ipcClose _ _ _ => exact h.advance .closed
  | ipcEndGone _ _ _ | ipcCloseGone _ _ _ => exact h
  | ipcReadPending _ _ | ipcCloseRelease _ _ | ipcSignal _ _ | dispatch _ _ | dispatchWritable _ _
  | takeWake _ => exact h.outside rfl rfl rfl (Nat.le_refl _) fun _ _ => id
  | openUv hidle _ =>
    -- nothing has been read yet, as the worklet has not started
    have hfresh : wire.stream.reading ≠ true := fun hreading => h.used (h.reading hreading) hidle
    refine ⟨fun _ => ?_, fun hreading => absurd hreading hfresh,
      fun hreading => absurd hreading hfresh⟩
    simp only [apply_queue, Queue.channel_openUv, Channel.setState_state_self]
    decide
  | write _ _ _ _ => exact h.write hwell _ _ _ _
  | final _ _ _ _ => exact h.leave .ended _
  | read hrunning hturn =>
    exact h.inside hrunning rfl (Nat.le_refl _) fun _ => by simp
  | onsignal hrunning _ _ =>
    exact h.inside hrunning rfl (Nat.le_refl _) fun _ => by simp
  | retryNone hrunning _ hnone =>
    exact h.inside hrunning rfl (Nat.le_refl _) fun _ => by simp
  | retry hrunning _ _ =>
    rename_i addr chunk cb _ _
    have hstate := (send_uv wire hwell { wire.stream with pendingWrite := none } addr chunk cb).2.1
    refine h.inside hrunning rfl ?_ fun _ => by simp
    exact Nat.le_of_eq (congrArg EndState.rank (congrFun hstate .uv).symm)
  | drain hrunning _ hnext => exact h.drain hwell hrunning hnext
  | exit _ _ | abandon _ _ => exact h.leave .closed wire.log
  | destroy _ =>
    exact h.outside rfl rfl rfl (Nat.le_refl _) fun _ _ hheard =>
      hheard.keep (apply_wakeUv _) rfl id

theorem hearing (h : system.Reachable wire) : wire.Hearing := by
  refine h.invariant (I := Hearing) ?_ ?_
  · rintro wire ⟨toUv, toThread, rfl⟩
    exact ⟨fun hstarted => by contradiction, fun hreading => by contradiction,
      fun hreading => by contradiction⟩
  · intro wire label next hreach hhearing hstep
    exact hhearing.step (sound hreach).queue hstep

def blocked : Option Section → Nat
  | some (.reading _ true) => 1
  | _ => 0

/-- What the host still has to read before it gets to the end of the stream. -/
def owed (wire : Wire) : Nat :=
  wire.unread.length + (wire.queued .thread).length + blocked wire.held

/-- The host has closed its end, or has read to the end of the stream. -/
def ReadOut (wire : Wire) : Prop := ¬ wire.PortOpen ∨ wire.log.receivedEnd = true

def returnsRead : Step → Bool
  | .ipcReadPending => true
  | _ => false

theorem ended_kept (h : system.Reachable wire)
    (hended : EndState.ended ≤ wire.queue.channel.state .uv)
    (hstep : wire.step label = some next) : EndState.ended ≤ next.queue.channel.state .uv := by
  have hrefines := refines_step h hstep
  have hle : wire.pipe.channel.state .uv ≤ next.pipe.channel.state .uv := by
    cases hcall : wire.pipeCall label with
    | none =>
      simp only [Refines, hcall] at hrefines
      rw [hrefines]
      exact Nat.le_refl _
    | some call =>
      simp only [Refines, hcall] at hrefines
      have hnext : (Pipe.machine wire.pipe call).1 = next.pipe := congrArg Prod.fst hrefines
      rw [← hnext]
      refine Pipe.state_le_machine wire.pipe call fun hopen => ?_
      subst hopen
      cases label with
      | openUv _ _ =>
        cases move_step hstep with
        | openUv hidle _ =>
          have hstate : wire.queue.channel.state .uv = .idle := hidle
          rw [hstate] at hended
          contradiction
      | _ => simp [pipeCall] at hcall
  exact Nat.le_trans hended hle

theorem not_portOpen : ¬ wire.PortOpen ↔ ∃ ipc, wire.ipc = some ipc ∧ ipc.port = false := by
  simp [PortOpen]

theorem owed_congr (hunread : next.unread = wire.unread)
    (hinbox : next.queue.channel.inbox .thread = wire.queue.channel.inbox .thread)
    (hheld : blocked next.held = blocked wire.held) : next.owed = wire.owed := by
  simp only [owed, queued, hunread, hinbox, hheld]

theorem owed_worklet (hsound : wire.Sound) (hended : EndState.ended ≤ wire.queue.channel.state .uv)
    (hworklet : label.ofWorklet = true) (hstep : wire.step label = some next) :
    next.owed = wire.owed := by
  have hseen := seen_step hsound.queue hworklet hstep
  refine owed_congr (by rw [unread, hseen.ipc, unread]) ?_ (by rw [hseen.held])
  -- a write is refused
  have hsend :
      ∀ stream addr chunk cb log,
        (({ wire with log } : Wire).send stream addr chunk cb).queue.channel.inbox
      .thread = wire.queue.channel.inbox .thread := by
    intro stream addr chunk cb log
    unfold Wire.send
    rcases IPCStream.send_cases stream addr chunk cb hsound.queue with ⟨_, _, hs⟩ | ⟨_,
      _, _, _, hs⟩ |
      ⟨_, _, _, _, hs⟩ | ⟨_, haccepted, _⟩
    · simp [hs]
    · simp [hs]
    · simp [hs]
    · exact absurd (Or.inl hended) (Channel.sendResult_accepted.mp haccepted).1
  have hadvance : ∀ state, (bareQueueAdvance wire.queue .uv state).queue.channel.inbox .thread =
      wire.queue.channel.inbox .thread := by
    intro state
    rw [Queue.channel_advance, Channel.advance_inbox]
  cases move_step hstep with
  | ipcCreate _ | ipcRead _ _ _ | ipcReadPending _ _ | ipcWrite _ _ | ipcEnd _ _ _ | ipcClose _ _ _
  | ipcEndGone _ _ _ | ipcCloseGone _ _ _ | ipcCloseRelease _ _ | ipcSignal _ _ | dispatch _ _
  | dispatchWritable _ _ | takeWake _ => contradiction
  | openUv hidle _ =>
    have hstate : wire.queue.channel.state .uv = .idle := hidle
    rw [hstate] at hended
    contradiction
  | write _ _ _ _ => exact hsend _ _ _ _ _
  | retry _ _ _ =>
    rename_i addr chunk cb _ _ _
    exact hsend { wire.stream with pendingWrite := none } addr chunk cb wire.log
  | final _ _ _ _ => exact hadvance .ended
  | exit _ _ | abandon _ _ => exact hadvance .closed
  | read _ _ | onsignal _ _ _ | retryNone _ _ _ | destroy _ => rfl
  | drain _ _ hnext =>
    rename_i more _ _
    simp only [stepScript] at hnext
    split at hnext
    · rcases wire.stream.drain_cases hsound.queue more with ⟨hd, _⟩ | ⟨_, _, hd⟩ |
        ⟨_, _, ring, _, _, _, wake, _, hd⟩
      all_goals
        simp only [hd, Option.some.injEq] at hnext
        subst hnext
        rfl
    · contradiction

theorem readQueue_port (queue : Queue) (ipc : Ipc) :
    (bareIpcReadQueue queue ipc).result.1.port = ipc.port := by
  unfold bareIpcReadQueue
  split
  · simp only
    split <;> rfl
  · rfl

theorem readPending_port (queue : Queue) (ipc : Ipc) (len : Nat) (blocked : Bool) :
    (bareIpcReadPending queue ipc len blocked).ipc.port = ipc.port := by
  unfold bareIpcReadPending
  split <;> rfl

theorem ReadOut.step (h : wire.ReadOut) (hsound : wire.Sound)
    (hstep : wire.step label = some next) :
    next.ReadOut := by
  have hframe : next.ipc = wire.ipc → next.log.receivedEnd = wire.log.receivedEnd →
      next.ReadOut := by
    intro hipc hlog
    simpa only [ReadOut, PortOpen, hipc, hlog] using h
  cases hworklet : label.ofWorklet with
  | true =>
    have hseen := seen_step hsound.queue hworklet hstep
    exact hframe hseen.ipc hseen.receivedEnd
  | false =>
    cases move_step hstep with
    | write _ _ _ _ | final _ _ _ _ | read _ _ | onsignal _ _ _ | retryNone _ _ _ | retry _ _ _
    | drain _ _ _ | openUv _ _ | exit _ _ | abandon _ _ | destroy _ => contradiction
    | ipcCreate _ =>
      by_cases hipc : wire.ipc = none
      · refine Or.inr ?_
        rcases h with hclosed | hend
        · obtain ⟨ipc, hsome, -⟩ := not_portOpen.mp hclosed
          simp [hipc] at hsome
        · exact hend
      · refine hframe ?_ rfl
        simp [ipcCreate_refused hsound hipc]
    | ipcRead _ hipc _ =>
      rename_i ipc _ _ _
      rcases h with hclosed | hend
      · obtain ⟨other, hother, hport⟩ := not_portOpen.mp hclosed
        cases hipc.symm.trans hother
        exact Or.inl (not_portOpen.mpr ⟨_, rfl, (readQueue_port _ _).trans hport⟩)
      · exact Or.inr hend
    | ipcReadPending hipc _ =>
      rcases h with hclosed | hend
      · obtain ⟨other, hother, hport⟩ := not_portOpen.mp hclosed
        cases hipc.symm.trans hother
        exact Or.inl (not_portOpen.mpr ⟨_, rfl, (readPending_port _ _ _ _).trans hport⟩)
      · exact Or.inr (by simp [hend])
    | ipcCloseRelease _ _ => exact Or.inl (not_portOpen.mpr ⟨_, rfl, rfl⟩)
    | ipcWrite _ _ | ipcEnd _ _ _ | ipcClose _ _ _ | ipcEndGone _ _ _ | ipcCloseGone _ _ _
    | ipcSignal _ _ | dispatch _ _ | dispatchWritable _ _ | takeWake _ => exact hframe rfl rfl

/-- A read that returns has got some of what is left, or the end of the stream, unless it had
found nothing before the worklet ended. -/
theorem owed_readPending (hsound : wire.Sound) {len : Nat} {found : Bool}
    (hipc : wire.ipc = some ipc)
    (hheld : wire.held = some (.reading len found)) {held : Option Section}
    (hfree : blocked held = 0)
    (log : Log) (hlog : log.receivedEnd = (wire.log.receivedEnd ||
      (ipc.port && (bareIpcReadPending wire.queue ipc len found).result == 0))) :
    ReadOut { wire with ipc := some (bareIpcReadPending wire.queue ipc len found).ipc, held, log } ∨
      owed { wire with
        ipc := some (bareIpcReadPending wire.queue ipc len found).ipc, held, log } + 1 ≤
        wire.owed := by
  have hwell := hsound.ipc ipc hipc
  have hlen := hsound.buffered len found hheld
  by_cases hpending : ipc.pending.base = none
  · have hr := readPending_none wire.queue len found hpending
    cases hport : ipc.port with
    | false =>
      exact Or.inl (Or.inl (not_portOpen.mpr ⟨_, rfl, (readPending_port _ _ _ _).trans hport⟩))
    | true =>
      cases found with
      | false => exact Or.inl (Or.inr (by simp [hlog, hr, hport]))
      | true =>
        right
        rw [hr]
        simp only [owed, unread, hipc, hheld, hfree, queued]
        exact Nat.le_refl _
  · right
    have hmax : 0 < intMax := by decide
    have hsome := List.length_pos_iff.mpr (unread_ne_nil hwell hpending)
    have hrest := congrArg List.length (readPending_eq hwell wire.queue len found hpending).2.2
    rw [List.length_drop] at hrest
    simp only [owed, unread, hipc, hfree, queued]
    omega

theorem owed_ipcCreate (hipc : wire.ipc = none) (onSignal data : Pointer) :
    owed { wire.apply (bareIpcCreate wire.queue onSignal data) with
      ipc := (bareIpcCreate wire.queue onSignal data).result.or wire.ipc } = wire.owed := by
  have hchannel : (bareIpcCreate wire.queue onSignal data).queue.channel = _ :=
    Queue.channel_openThread wire.queue (some onSignal) (some data)
  have hinbox : (bareIpcCreate wire.queue onSignal data).queue.channel.inbox .thread =
      wire.queue.channel.inbox .thread := by
    rw [hchannel]
    split <;> rfl
  have hunread : unread { wire.apply (bareIpcCreate wire.queue onSignal data) with
      ipc := (bareIpcCreate wire.queue onSignal data).result.or wire.ipc } = wire.unread := by
    have hfresh : ∀ ipc, (bareIpcCreate wire.queue onSignal data).result = some ipc →
        ipc.unread = [] := by
      intro ipc hcreated
      simp only [bareIpcCreate] at hcreated
      split at hcreated
      · cases hcreated
        rfl
      · contradiction
    simp only [unread, hipc, Option.or_none]
    split
    · rfl
    · exact hfresh _ ‹_›
  exact owed_congr hunread hinbox rfl

theorem owed_ipcRead (hsound : wire.Sound) (hended : EndState.ended ≤ wire.queue.channel.state .uv)
    {len : Nat} (hheld : wire.held = none) (hipc : wire.ipc = some ipc) :
    owed { wire.apply (bareIpcReadQueue wire.queue ipc) with
      ipc := some (bareIpcReadQueue wire.queue ipc).result.1
      held := some (.reading len (bareIpcReadQueue wire.queue ipc).result.2) } = wire.owed := by
  simp only [owed, hheld]
  rcases Ipc.readQueue_cases ipc hsound.queue with ⟨hr, _⟩ | ⟨_, hpending,
    ⟨buffer, rest, ring, hinbox, _, hrest, _, _, hr⟩ |
    ⟨_, _, hr⟩ | ⟨_, hunfinished, _⟩⟩
  · simp [hr, unread, hipc, queued, blocked]
  · have hchannel : (wire.queue.setInbox .thread ring).channel.inbox .thread = rest := by
      simp [Queue.channel_setInbox, hrest]
    simp only [hr, apply_queue, unread, hipc, queued, hchannel, hinbox, Ipc.unread,
      hpending, blocked]
    simp [Buffer.message]
  · simp [hr, unread, hipc, queued, blocked, Ipc.unread, hpending]
  · exact absurd hended hunfinished

theorem owed_ipcWrite (hsound : wire.Sound) (addr : Pointer) (data : Bytes) (log : Log) :
    owed { wire.apply (bareIpcWrite wire.queue ipc addr data) with log } = wire.owed := by
  refine owed_congr rfl ?_ rfl
  rcases Ipc.write_cases ipc hsound.queue addr data with
    ⟨hqueue, _⟩ | ⟨_, _, _, ring, _, _, _, _, hw⟩
  · simp only [apply_queue, hqueue]
  · rw [hw]
    rfl

theorem owed_advance (hheld : wire.held = none) {state : EndState} {held : Section}
    (hfree : blocked (some held) = 0) :
    owed { wire.apply (bareQueueAdvance wire.queue .thread state) with held := some held } =
      wire.owed := by
  refine owed_congr rfl ?_ ?_
  · simp only [apply_queue, Queue.channel_advance, Channel.advance_inbox]
  · rw [hheld]
    exact hfree

theorem owed_other (hsound : wire.Sound) (hended : EndState.ended ≤ wire.queue.channel.state .uv)
    (hother : returnsRead label = false) (hstep : wire.step label = some next) :
    next.ReadOut ∨ next.owed = wire.owed := by
  cases hworklet : label.ofWorklet with
  | true => exact Or.inr (owed_worklet hsound hended hworklet hstep)
  | false =>
    cases move_step hstep with
    | write _ _ _ _ | final _ _ _ _ | read _ _ | onsignal _ _ _ | retryNone _ _ _ | retry _ _ _
    | drain _ _ _ | openUv _ _ | exit _ _ | abandon _ _ | destroy _ => cases hworklet
    | ipcReadPending _ _ => cases hother
    | ipcCreate _ =>
      right
      by_cases hipc : wire.ipc = none
      · exact owed_ipcCreate hipc _ _
      · rw [ipcCreate_refused hsound hipc]
        exact owed_congr rfl rfl rfl
    | ipcRead hheld hipc _ => exact Or.inr (owed_ipcRead hsound hended hheld hipc)
    | ipcCloseRelease _ _ => exact Or.inl (Or.inl (not_portOpen.mpr ⟨_, rfl, rfl⟩))
    | ipcWrite _ _ => exact Or.inr (owed_ipcWrite hsound _ _ _)
    | ipcEnd hheld _ _ | ipcClose hheld _ _ => exact Or.inr (owed_advance hheld rfl)
    | ipcEndGone _ _ _ | ipcCloseGone _ _ _ | takeWake _ => exact Or.inr rfl
    | ipcSignal _ hheld | dispatch hheld _ | dispatchWritable _ hheld =>
      refine Or.inr (owed_congr rfl rfl ?_)
      rw [hheld]
      rfl

theorem owed_step (hsound : wire.Sound) (hended : EndState.ended ≤ wire.queue.channel.state .uv)
    (hstep : wire.step label = some next) :
    next.ReadOut ∨ next.owed + (if returnsRead label then 1 else 0) ≤ wire.owed := by
  cases hreturns : returnsRead label with
  | false =>
    refine (owed_other hsound hended hreturns hstep).imp_right fun hsame => ?_
    rw [hsame]
    exact Nat.le_refl _
  | true =>
    cases move_step hstep with
    | ipcReadPending hipc hheld =>
      refine owed_readPending hsound hipc hheld ?_ _ rfl
      split <;> rfl
    | _ => cases hreturns

end Wire

/-- A stream that reads, between two turns of the script, has left nothing that it could read
without a wake to come for it. -/
theorem ipcStream_reads_woken (wire : Wire) (h : Wire.system.Reachable wire)
    (hreading : wire.stream.reading = true) (hidle : wire.turn = .idle)
    (hopen : bareQueueState wire.queue .uv ≠ .closed) :
    wire.wakeUv = true ∨ bareQueueReadable wire.queue .uv = false := by
  rcases (Wire.hearing h).heard hreading hidle hopen with hwoken | ⟨hempty, hunfinished⟩
  · exact Or.inl hwoken
  · right
    rw [(Wire.sound h).queue.readable_eq, Channel.readable, hempty]
    simpa using hunfinished

def Wire.writtenTo : Wire :=
  Wire.system.result (Wire.ofQueue (bareQueueCreate Slots.blank Slots.blank))
    [.openUv none none, .read, .drain true, .ipcCreate 0 0, .ipcWrite 0 [7]] (by decide +kernel)

theorem ipcStream_reads_woken_writtenTo : Wire.writtenTo.wakeUv = true ∨
    bareQueueReadable Wire.writtenTo.queue .uv = false :=
  ipcStream_reads_woken Wire.writtenTo
    (Transition.System.Reachable.result (S := Wire.system) ⟨_, _, rfl⟩ _ _) (by decide +kernel)
    (by decide +kernel) (by decide +kernel)

/-- Once the worklet has ended, the host gets to the end of the stream after at most as many
reads as there are bytes left for it, whatever the sizes of its buffers. -/
theorem bareIpc_reads_end (wire next : Wire) (h : Wire.system.Reachable wire)
    (hended : EndState.ended ≤ bareQueueState wire.queue .uv) {labels : List Step}
    (hrun : Wire.system.run wire labels = some next) (hopen : next.PortOpen)
    (hmany : wire.owed < labels.countP Wire.returnsRead) : next.log.receivedEnd = true := by
  have hspent := h.spends (P := fun wire => EndState.ended ≤ wire.queue.channel.state .uv)
    (F := Wire.ReadOut) (m := Wire.owed) (k := Wire.returnsRead) hended
    (fun wire label next hreach hle hstep => ?_)
    (fun wire label next hreach hout hstep => hout.step (Wire.sound hreach) hstep)
    (fun wire label next hreach hle hstep => Wire.owed_step (Wire.sound hreach) hle hstep) hrun
  · rcases hspent with (hclosed | hend) | hle
    · exact absurd hopen hclosed
    · exact hend
    · omega
  · exact Wire.ended_kept hreach hle hstep

def Wire.leftOneByte : Wire :=
  Wire.system.result (Wire.ofQueue (bareQueueCreate Slots.blank Slots.blank))
    [.openUv none none, .ipcCreate 0 0, .write 0 [7], .final] (by decide +kernel)

def Wire.readTwice : Wire :=
  Wire.system.result Wire.leftOneByte
    [.ipcRead 4, .ipcReadPending, .ipcSignal, .ipcRead 4, .ipcReadPending] (by decide +kernel)

theorem bareIpc_reads_end_readTwice : Wire.readTwice.log.receivedEnd = true := by
  have hreach : Wire.system.Reachable Wire.leftOneByte :=
    Transition.System.Reachable.result (S := Wire.system) ⟨_, _, rfl⟩ _ _
  have hopen : Wire.readTwice.PortOpen := by
    intro ipc hipc
    have hport : Wire.readTwice.ipc.map Ipc.port = some true := by decide +kernel
    simpa [hipc] using hport
  exact bareIpc_reads_end Wire.leftOneByte Wire.readTwice hreach (by decide +kernel)
    (Wire.system.run_result _ _ _) hopen (by decide +kernel)

end BareKit
