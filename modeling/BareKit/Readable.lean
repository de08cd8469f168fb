import BareKit.HostView

/-! A host that reads in every readable callback is never left with unread data. What
keeps the promise is passed on: the worklet's first write sets the wake, the poll's
thread takes it into a dispatch, the dispatch finds the ipc readable and calls back, and
the callback's read signals again as long as anything is left. -/
namespace BareKit

def Dispatch.Watching : Dispatch → Prop
  | .idle => False
  | .woken => True
  | .loaded _ => True
  | .ready _ events => events.readable = true
  | .locked _ events => events.readable = true
  | .unlocked _ events => events.readable = true
  | .running _ events read => events.readable = true ∧ read = false

namespace Polled

variable {polled next : Polled} {label : PollStep}

/-- A callback that is called for readable reads before it returns. -/
def Reads (polled : Polled) (label : PollStep) : Prop :=
  match label, polled.dispatch with
  | .leave, .running _ ready read => ready.readable = true → read = true
  | _, _ => True

instance (polled : Polled) (label : PollStep) : Decidable (polled.Reads label) := by
  unfold Reads
  split <;> infer_instance

/-- The poll is started for readable, and no start is yet to signal. -/
def Started (polled : Polled) : Prop :=
  (∃ poll, polled.poll = some poll ∧ poll.events.readable = true ∧ poll.cb ≠ none) ∧
    polled.storing = [] ∧ polled.signalling = 0

def Alarmed (polled : Polled) : Prop :=
  polled.wire.wakeThread = true ∨ polled.wire.Alerting ∨ polled.dispatch.Watching

structure Grounded (polled : Polled) : Prop where
  sound : polled.wire.Sound
  hosted : polled.wire.Hosted
  attached : polled.poll ≠ none → polled.wire.ipc ≠ none

def Attentive (polled : Polled) : Prop :=
  polled.Started → bareQueueListening polled.wire.queue.threadState = true →
    polled.wire.Unread → polled.Alarmed

theorem Grounded.advance (h : polled.Grounded) {step : Step} {wire : Wire}
    (hstep : polled.wire.step step = some wire) (hsame : next.poll = polled.poll)
    (hwire : next.wire = wire) : next.Grounded := by
  refine ⟨?_, ?_, fun hpoll => ?_⟩
  · rw [hwire]
    exact h.sound.step hstep
  · rw [hwire]
    exact h.hosted.step h.sound hstep
  · rw [hwire]
    rw [hsame] at hpoll
    exact Wire.ipc_kept h.sound hstep (h.attached hpoll)

theorem Grounded.step (h : polled.Grounded) (hstep : polled.step label = some next) :
    next.Grounded := by
  cases move_step hstep with
  | wire _ hwire => exact h.advance hwire rfl rfl
  | callback _ _ hwire => exact h.advance hwire rfl rfl
  | create _ hipc => exact ⟨h.sound, h.hosted, fun _ => Option.isSome_iff_ne_none.mp hipc⟩
  | start hpoll _ => exact ⟨h.sound, h.hosted, fun _ => h.attached (by simp [hpoll])⟩
  | startCb hpoll _ => exact ⟨h.sound, h.hosted, fun _ => h.attached (by simp [hpoll])⟩
  | startSignal hpoll _ hsignalled =>
    subst hsignalled
    exact ⟨h.sound.woken true, h.hosted.frame rfl rfl rfl rfl, h.attached⟩
  | stop hpoll => exact ⟨h.sound, h.hosted, fun _ => h.attached (by simp [hpoll])⟩
  | stopCb hpoll _ => exact ⟨h.sound, h.hosted, fun _ => h.attached (by simp [hpoll])⟩
  | wake _ _ => exact ⟨h.sound.woken false, h.hosted.frame rfl rfl rfl rfl, h.attached⟩
  | loadNull _ _ => exact ⟨h.sound, h.hosted, h.attached⟩
  | loadCb _ _ => exact ⟨h.sound, h.hosted, h.attached⟩
  | loadEvents _ _ => exact ⟨h.sound, h.hosted, h.attached⟩
  | maskReadable _ hipc hheld => exact h.advance (Wire.step_dispatch hipc hheld) rfl rfl
  | maskWritable _ hipc hheld => exact h.advance (Wire.step_dispatchWritable hipc hheld) rfl rfl
  | skip _ => exact ⟨h.sound, h.hosted, h.attached⟩
  | call _ _ => exact ⟨h.sound, h.hosted, h.attached⟩
  | leave _ => exact ⟨h.sound, h.hosted, h.attached⟩

theorem grounded (h : system.Reachable polled) : polled.Grounded := by
  refine h.invariant (I := Grounded) ?_ fun polled label next _ hgrounded hstep =>
    hgrounded.step hstep
  rintro polled ⟨toUv, toThread, rfl⟩
  exact ⟨Wire.Sound.create toUv toThread, Wire.Hosted.create toUv toThread,
    fun hpoll => absurd rfl hpoll⟩

/-- A step of the wire under a started poll: what was going to make the poll's thread look
still is, or the step signals itself. -/
theorem alarmed_wire (h : polled.Grounded) (hattentive : polled.Attentive) {step : Step}
    {wire : Wire}
    (hdispatch : step.ofDispatch = false) (hstep : polled.wire.step step = some wire)
    (hstarted : polled.Started) (hlistening : bareQueueListening wire.queue.threadState = true)
    (hunread : wire.Unread) : wire.wakeThread = true ∨ wire.Alerting ∨
      (step.reads = false ∧ polled.dispatch.Watching) := by
  have hipc : polled.wire.ipc ≠ none := by
    obtain ⟨⟨poll, hpoll, -⟩, -⟩ := hstarted
    exact h.attached (by simp [hpoll])
  have htake : step ≠ .takeWake := by
    rintro rfl
    contradiction
  have hmono := Wire.wakeThread_mono h.sound h.hosted hipc htake hstep
  cases hworklet : step.ofWorklet with
  | true =>
    have hseen := Wire.seen_step h.sound.queue hworklet hstep
    have hreads : step.reads = false := by
      cases step <;> first | rfl | contradiction
    rw [hseen.threadState] at hlistening
    cases hrouses : polled.wire.rouses step with
    | true =>
      have hused : polled.wire.queue.threadState ≠ .idle := h.sound.opened hipc
      left
      rw [hseen.wakeThread, hrouses, h.hosted.signal hused]
      simp
    | false =>
      rcases hattentive hstarted hlistening (hseen.unread hrouses hlistening hunread) with
        hwake | halerting | hwatching
      · exact Or.inl (hmono hwake)
      · refine Or.inr (Or.inl ?_)
        rw [Wire.Alerting, hseen.held]
        exact halerting
      · exact Or.inr (Or.inr ⟨hreads, hwatching⟩)
  | false =>
    have hhosts := Wire.hosts_step h.sound h.hosted hipc hworklet htake hstep
    rcases hhosts.unread hlistening hunread with hwake | halerting | ⟨hreads, hbefore,
      hlistening', hcalm⟩
    · exact Or.inl hwake
    · exact Or.inr (Or.inl halerting)
    · rcases hattentive hstarted hlistening' hbefore with hwake | halerting | hwatching
      · exact Or.inl (hmono hwake)
      · exact absurd halerting hcalm
      · exact Or.inr (Or.inr ⟨hreads, hwatching⟩)

theorem Attentive.step (h : polled.Grounded) (hattentive : polled.Attentive)
    (hreads : polled.Reads label) (hstep : polled.step label = some next) : next.Attentive := by
  intro hstarted hlistening hunread
  have hcallback : ∀ step : Step, step.ofCallback = true → step.ofDispatch = false := by
    intro step
    cases step <;> first | exact fun _ => rfl | exact fun hfalse => by contradiction
  cases move_step hstep with
  | wire hdispatch hwire =>
    rcases alarmed_wire h hattentive hdispatch hwire hstarted hlistening hunread with
      hwake | halerting | ⟨-, hwatching⟩
    · exact Or.inl hwake
    · exact Or.inr (Or.inl halerting)
    · exact Or.inr (Or.inr hwatching)
  | callback hrunning hofCallback hwire =>
    rcases alarmed_wire h hattentive (hcallback _ hofCallback) hwire hstarted
      hlistening hunread with
      hwake | halerting | ⟨hnot, hwatching⟩
    · exact Or.inl hwake
    · exact Or.inr (Or.inl halerting)
    · -- a callback that has not read yet
      refine Or.inr (Or.inr ?_)
      rw [hrunning] at hwatching
      simp only [hnot, Bool.or_false]
      exact hwatching
  | create hnone _ =>
    obtain ⟨⟨poll, hpoll, hevents, -⟩, -⟩ := hstarted
    cases hpoll
    contradiction
  | start _ _ => exact absurd hstarted.2.1 (List.cons_ne_nil _ _)
  | startCb _ _ => exact absurd hstarted.2.2 (Nat.succ_ne_zero _)
  | startSignal _ _ hsignalled =>
    subst hsignalled
    exact Or.inl rfl
  | stop hpoll =>
    obtain ⟨⟨poll, hstopped, hevents, -⟩, -⟩ := hstarted
    cases hstopped
    contradiction
  | stopCb hpoll _ =>
    obtain ⟨⟨poll, hstopped, -, hcb⟩, -⟩ := hstarted
    cases hstopped
    exact absurd rfl hcb
  | wake _ _ => exact Or.inr (Or.inr trivial)
  | loadNull _ hnull =>
    obtain ⟨⟨poll, hpoll, -, hcb⟩, -⟩ := hstarted
    simp only at hpoll
    simp [hpoll, hcb] at hnull
  | loadCb _ _ => exact Or.inr (Or.inr trivial)
  | loadEvents _ hpoll =>
    obtain ⟨⟨other, hother, hevents, -⟩, -⟩ := hstarted
    simp only [hpoll, Option.some.injEq] at hother
    subst hother
    exact Or.inr (Or.inr hevents)
  | maskReadable hdispatch hipc hheld =>
    rcases hattentive hstarted hlistening hunread with hwake | halerting | hwatching
    · exact Or.inl hwake
    · simp [Wire.Alerting, hheld] at halerting
    · refine Or.inr (Or.inr ?_)
      rw [hdispatch] at hwatching
      simp only [Dispatch.Watching, bareIpcMaskReadable]
      split
      · rename_i hmasked
        exfalso
        obtain ⟨-, hbase, hnot⟩ := hmasked
        simp only [bareQueueReadable, Bool.or_eq_false_iff, Bool.not_eq_false',
          decide_eq_false_iff_not] at hnot
        rcases hunread with ⟨other, hother, hrest⟩ | hnonempty | ⟨hended, -⟩
        · simp only [hipc, Option.some.injEq] at hother
          subst hother
          exact hrest hbase
        · exact absurd (hnot.1.symm.trans hnonempty) (by decide)
        · exact hnot.2 hended
      · exact hwatching
  | maskWritable hdispatch hipc hheld =>
    rcases hattentive hstarted hlistening hunread with hwake | halerting | hwatching
    · exact Or.inl hwake
    · simp [Wire.Alerting, hheld] at halerting
    · refine Or.inr (Or.inr ?_)
      rw [hdispatch] at hwatching
      simp only [Dispatch.Watching, bareIpcMaskWritable]
      split <;> exact hwatching
  | skip hdispatch =>
    rcases hattentive hstarted hlistening hunread with hwake | halerting | hwatching
    · exact Or.inl hwake
    · exact Or.inr (Or.inl halerting)
    · rw [hdispatch] at hwatching
      contradiction
  | call hdispatch _ =>
    rcases hattentive hstarted hlistening hunread with hwake | halerting | hwatching
    · exact Or.inl hwake
    · exact Or.inr (Or.inl halerting)
    · rw [hdispatch] at hwatching
      exact Or.inr (Or.inr ⟨hwatching, rfl⟩)
  | leave hdispatch =>
    rcases hattentive hstarted hlistening hunread with hwake | halerting | hwatching
    · exact Or.inl hwake
    · exact Or.inr (Or.inl halerting)
    · rw [hdispatch] at hwatching
      simp only [Reads, hdispatch] at hreads
      have hread := hreads hwatching.1
      simp [hwatching.2] at hread

theorem attentive (h : (system.guard Reads).Reachable polled) : polled.Attentive := by
  refine h.invariant (I := Attentive) ?_ ?_
  · rintro polled ⟨toUv, toThread, rfl⟩ ⟨⟨poll, hpoll, -⟩, -⟩
    cases hpoll
  · intro polled label next hreach hattentive hstep
    obtain ⟨hreads, hnext⟩ := Transition.System.guard_step.mp hstep
    exact hattentive.step (grounded hreach.of_guard) hreads hnext

theorem inFlight_eq_false : polled.inFlight = false ↔
    polled.storing = [] ∧ polled.signalling = 0 ∧ polled.stopping = 0 := by
  simp [inFlight, and_assoc]

structure Ordered (polled : Polled) : Prop where
  fresh : polled.poll = none → polled.starting = false
  starting : polled.starting = true → polled.stopping = 0 ∧ ∀ poll, polled.poll = some poll →
    poll.events.readable = true ∧ (0 < polled.signalling → poll.cb ≠ none)
  started : polled.started = true → polled.inFlight = false ∧ ∃ poll, polled.poll = some poll ∧
    poll.events.readable = true ∧ poll.cb ≠ none

theorem Ordered.step (h : polled.Ordered) (hstep : polled.step label = some next) :
    next.Ordered := by
  cases move_step hstep with
  | wire _ _ => exact ⟨h.fresh, h.starting, h.started⟩
  | callback _ _ _ => exact ⟨h.fresh, h.starting, h.started⟩
  | create hnone _ =>
    refine ⟨fun hpoll => absurd hpoll (Option.some_ne_none _), fun hstarting => ?_,
      fun hstarted => ?_⟩
    · simp [h.fresh hnone] at hstarting
    · obtain ⟨-, poll, hpoll, -⟩ := h.started hstarted
      simp [hnone] at hpoll
  | start hpoll hevents =>
    refine ⟨fun hnone => absurd hnone (Option.some_ne_none _), fun hstarting => ?_,
      fun hstarted => absurd hstarted Bool.false_ne_true⟩
    simp only [Bool.and_eq_true, Bool.or_eq_true, Bool.not_eq_true'] at hstarting
    obtain ⟨hcalls, hreadable⟩ := hstarting
    rcases hcalls with hidle | hbusy
    · obtain ⟨-, hsignalling, hstopping⟩ := inFlight_eq_false.mp hidle
      refine ⟨hstopping, fun other hother => ?_⟩
      cases hother
      exact ⟨hreadable, fun hpos => by simp [hsignalling] at hpos⟩
    · obtain ⟨hstopping, hbefore⟩ := h.starting hbusy
      refine ⟨hstopping, fun other hother => ?_⟩
      cases hother
      exact ⟨hreadable, (hbefore _ hpoll).2⟩
  | startCb hpoll hmem =>
    refine ⟨fun hnone => absurd hnone (Option.some_ne_none _), fun hstarting => ?_,
      fun hstarted => ?_⟩
    · obtain ⟨hstopping, hbefore⟩ := h.starting hstarting
      refine ⟨hstopping, fun other hother => ?_⟩
      cases hother
      exact ⟨(hbefore _ hpoll).1, fun _ => Option.some_ne_none _⟩
    · obtain ⟨hidle, -⟩ := h.started hstarted
      rw [(inFlight_eq_false.mp hidle).1] at hmem
      contradiction
  | startSignal hpoll hpos hsignalled =>
    subst hsignalled
    refine ⟨h.fresh, fun hstarting => ?_, fun hstarted => ?_⟩
    · obtain ⟨hstopping, hbefore⟩ := h.starting hstarting
      refine ⟨hstopping, fun other hother => ?_⟩
      exact ⟨(hbefore other hother).1, fun _ => (hbefore other hother).2 hpos⟩
    · simp only [Bool.and_eq_true, Bool.not_eq_true'] at hstarted
      obtain ⟨poll, hsome⟩ := Option.ne_none_iff_exists'.mp hpoll
      obtain ⟨-, hbefore⟩ := h.starting hstarted.1
      exact ⟨hstarted.2, poll, hsome, (hbefore poll hsome).1, (hbefore poll hsome).2 hpos⟩
  | stop _ =>
    refine ⟨fun hnone => absurd hnone (Option.some_ne_none _),
      fun hstarting => absurd hstarting Bool.false_ne_true,
      fun hstarted => absurd hstarted Bool.false_ne_true⟩
  | stopCb hpoll hpos =>
    refine ⟨fun hnone => absurd hnone (Option.some_ne_none _), fun hstarting => ?_,
      fun hstarted => ?_⟩
    · obtain ⟨hstopping, -⟩ := h.starting hstarting
      simp [hstopping] at hpos
    · obtain ⟨hidle, -⟩ := h.started hstarted
      simp [(inFlight_eq_false.mp hidle).2.2] at hpos
  | wake _ _ => exact ⟨h.fresh, h.starting, h.started⟩
  | loadNull _ _ => exact ⟨h.fresh, h.starting, h.started⟩
  | loadCb _ _ => exact ⟨h.fresh, h.starting, h.started⟩
  | loadEvents _ _ => exact ⟨h.fresh, h.starting, h.started⟩
  | maskReadable _ _ _ => exact ⟨h.fresh, h.starting, h.started⟩
  | maskWritable _ _ _ => exact ⟨h.fresh, h.starting, h.started⟩
  | skip _ => exact ⟨h.fresh, h.starting, h.started⟩
  | call _ _ => exact ⟨h.fresh, h.starting, h.started⟩
  | leave _ => exact ⟨h.fresh, h.starting, h.started⟩

theorem ordered (h : system.Reachable polled) : polled.Ordered := by
  refine h.invariant (I := Ordered) ?_ fun polled label next _ hordered hstep =>
    hordered.step hstep
  rintro polled ⟨toUv, toThread, rfl⟩
  refine ⟨fun _ => rfl, fun hstarting => ?_, fun hstarted => ?_⟩
  · cases hstarting
  · cases hstarted

/-- A start for readable that has returned, and that no start or stop overlapped or
followed, is in effect. -/
theorem Ordered.in_effect (h : polled.Ordered) (hstarted : polled.started = true) :
    polled.Started := by
  obtain ⟨hidle, hpoll⟩ := h.started hstarted
  obtain ⟨hstoring, hsignalling, -⟩ := inFlight_eq_false.mp hidle
  exact ⟨hpoll, hstoring, hsignalling⟩

end Polled

/-- With a poll started for readable whose callbacks read, unread data of an open ipc never
waits without a wake, once no call and no dispatch is under way. -/
theorem bareIpc_poll_readable (polled : Polled)
    (h : (Polled.system.guard Polled.Reads).Reachable polled)
    (hstarted : polled.started = true ∨ polled.Started) (ipc : Ipc)
    (hipc : polled.wire.ipc = some ipc) (hport : ipc.port = true)
    (hunread : polled.wire.Unread) (hidle : polled.dispatch = .idle)
    (hheld : polled.wire.held = none) : polled.wire.wakeThread = true := by
  have hgrounded := Polled.grounded h.of_guard
  have hin : polled.Started := by
    rcases hstarted with hreturned | hin
    · exact (Polled.ordered h.of_guard).in_effect hreturned
    · exact hin
  have hlistening : bareQueueListening polled.wire.queue.threadState = true := by
    have hused := Wire.threadState_used hgrounded.sound hipc
    have hopen := hgrounded.hosted.shut_of_lock hheld hipc hport
    revert hused hopen
    cases polled.wire.queue.threadState <;> decide
  rcases Polled.attentive h hin hlistening hunread with hwake | halerting | hwatching
  · exact hwake
  · simp [Wire.Alerting, hheld] at halerting
  · rw [hidle] at hwatching
    contradiction

def Polled.partlyRead : Polled :=
  (Polled.system.guard Polled.Reads).result
    { wire := Wire.ofQueue (bareQueueCreate Slots.blank Slots.blank) }
    [.wire (.openUv none none), .wire (.ipcCreate 0 0), .create, .start ⟨true, false⟩ 1,
      .startCb 1, .startSignal, .wire (.write 0 [7, 8]), .wake, .loadCb, .loadEvents,
      .maskReadable, .maskWritable, .call, .callback (.ipcRead 1), .wire .ipcReadPending,
      .wire .ipcSignal, .leave] (by decide +kernel)

theorem bareIpc_poll_readable_partlyRead :
    Polled.partlyRead.wire.unread = [8] ∧ Polled.partlyRead.wire.wakeThread = true := by
  refine ⟨by decide +kernel, ?_⟩
  have hreach : (Polled.system.guard Polled.Reads).Reachable Polled.partlyRead :=
    Transition.System.Reachable.result (S := Polled.system.guard Polled.Reads) ⟨_, _, rfl⟩ _ _
  have hipc : Polled.partlyRead.wire.ipc = some ⟨true, ⟨some ⟨0, [7, 8]⟩, 2⟩, 1⟩ := by
    decide +kernel
  exact bareIpc_poll_readable Polled.partlyRead hreach (Or.inl (by decide +kernel)) _ hipc rfl
    (Or.inl ⟨_, hipc, Option.some_ne_none _⟩) (by decide +kernel) (by decide +kernel)

end BareKit
