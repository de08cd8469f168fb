import BareKit.Shares

/-! The queue and the state of a worklet are freed once and not accessed after that. The
invariant is in two parts: how the thread of the worklet and the calls of the host take
turns, and how the queue follows them. -/
namespace BareKit

namespace Life

variable {life next : Life} {label : LifeStep} {party : Party}

def statesFreed (life : Life) : List Party :=
  match life.worklet, life.host with
  | .absent, .closing | .absent, .destroying | .absent, .gone => [.host]
  | .gone, _ => [.worklet]
  | _, _ => []

structure Control (life : Life) : Prop where
  thread : life.thread = true ↔ life.worklet ≠ .absent
  starting : life.worklet.starting = true → life.host = .alive
  started : life.host = .terminating ∨ life.host = .posting → life.worklet ≠ .absent
  unstarted : life.host = .freeing ∨ life.host = .closing ∨ life.host = .destroying →
    life.worklet = .absent
  posted : life.posted = true → life.host = .gone
  handed : life.host = .gone → life.worklet ≠ .absent → life.posted = true
  taken : life.worklet = .destroying ∨ life.worklet = .freeing ∨ life.worklet = .gone →
    life.posted = true
  stateFrees : life.stateFrees = life.statesFreed

theorem Control.frame (h : life.Control) (hworklet : next.worklet = life.worklet)
    (hhost : next.host = life.host) (hthread : next.thread = life.thread)
    (hposted : next.posted = life.posted) (hstate : next.stateFrees = life.stateFrees) :
    next.Control := by
  constructor
  · rw [hthread, hworklet]
    exact h.thread
  · rw [hworklet, hhost]
    exact h.starting
  · rw [hworklet, hhost]
    exact h.started
  · rw [hworklet, hhost]
    exact h.unstarted
  · rw [hposted, hhost]
    exact h.posted
  · rw [hposted, hworklet, hhost]
    exact h.handed
  · rw [hposted, hworklet]
    exact h.taken
  · rw [hstate, statesFreed, hworklet, hhost]
    exact h.stateFrees

/-- The thread of a worklet that has started is the one to free its state. -/
theorem statesFreed_eq (hpresent : life.worklet ≠ .absent) :
    life.statesFreed = if life.worklet = .gone then [.worklet] else [] := by
  rw [statesFreed]
  cases hworklet : life.worklet with
  | absent => contradiction
  | _ => rfl

theorem statesFreed_congr (hpresent : life.worklet ≠ .absent)
    (hworklet : next.worklet = life.worklet) : next.statesFreed = life.statesFreed := by
  rw [statesFreed_eq hpresent, statesFreed_eq (hworklet ▸ hpresent), hworklet]

theorem Control.resting (h : life.Control) (hhost : life.host ≠ .alive) :
    life.worklet.starting ≠ true := fun hstarting => hhost (h.starting hstarting)

theorem Control.terminates (h : life.Control) (hhost : life.host = .terminating) :
    Control { life.touchState with host := .posting } :=
  have hpresent := h.started (Or.inl hhost)
  have hsame : statesFreed { life.touchState with host := .posting } = life.statesFreed :=
    statesFreed_congr hpresent rfl
  { h with
    starting := fun hstarting => absurd hstarting (h.resting (by simp [hhost]))
    started := fun _ => hpresent
    unstarted := by simp
    posted := fun hposted => absurd (h.posted hposted) (by simp [hhost])
    handed := by simp
    stateFrees := h.stateFrees.trans hsame.symm }

theorem Control.posts (h : life.Control) (hhost : life.host = .posting) :
    Control { life with posted := true, host := .gone } :=
  have hpresent := h.started (Or.inr hhost)
  have hsame : statesFreed { life with posted := true, host := .gone } = life.statesFreed :=
    statesFreed_congr hpresent rfl
  { h with
    starting := fun hstarting => absurd hstarting (h.resting (by simp [hhost]))
    started := by simp
    unstarted := by simp
    posted := fun _ => rfl
    handed := fun _ _ => rfl
    taken := fun _ => rfl
    stateFrees := h.stateFrees.trans hsame.symm }

/-- The host of a worklet that never started goes on, and frees the state by the first of
its steps. -/
theorem Control.abandons (h : life.Control)
    (hhost : life.host = .freeing ∨ life.host = .closing ∨ life.host = .destroying)
    (hworklet : next.worklet = life.worklet) (hthread : next.thread = life.thread)
    (hposted : next.posted = life.posted)
    (hnext : next.host = .closing ∨ next.host = .destroying ∨ next.host = .gone)
    (hfrees : next.stateFrees = [.host]) : next.Control := by
  have habsent := h.unstarted hhost
  have hunposted : life.posted ≠ true := by
    intro hset
    rw [h.posted hset] at hhost
    simp at hhost
  refine ⟨?_, ?_, ?_, fun _ => hworklet.trans habsent,
    fun hset => absurd (hposted ▸ hset) hunposted,
    fun _ hpresent => absurd (hworklet.trans habsent) hpresent, ?_, ?_⟩
  · rw [hthread, hworklet]
    exact h.thread
  · simp [hworklet, habsent, OnThread.starting]
  · rcases hnext with hclosing | hdestroying | hgone <;> simp [*]
  · simp [hworklet, habsent]
  · rw [hfrees, statesFreed, hworklet, habsent]
    rcases hnext with hclosing | hdestroying | hgone <;> simp [*]

theorem control_stepDestroy (h : life.Control) (hstep : life.stepDestroy = some next) :
    next.Control := by
  have hfreed (habsent : life.worklet = .absent) (hhost : life.host = .closing ∨
      life.host = .destroying) : life.stateFrees = [.host] := by
    rw [h.stateFrees, statesFreed, habsent]
    rcases hhost with hhost | hhost <;> rw [hhost]
  cases hhost : life.host <;>
    simp only [stepDestroy, hhost, reduceCtorEq, Option.some.injEq] at hstep <;> subst hstep
  case terminating => exact h.terminates hhost
  case posting => exact h.posts hhost
  case freeing =>
    have habsent := h.unstarted (Or.inl hhost)
    have hkept : life.stateFrees = [] := by
      rw [h.stateFrees, statesFreed, habsent, hhost]
    exact h.abandons (Or.inl hhost) rfl rfl rfl (Or.inl rfl)
      (by simp [freeState, touchState, hkept])
  case closing =>
    have habsent := h.unstarted (Or.inr (Or.inl hhost))
    exact h.abandons (Or.inr (Or.inl hhost)) rfl rfl rfl (Or.inr (Or.inl rfl))
      (hfreed habsent (Or.inl hhost))
  case destroying =>
    have habsent := h.unstarted (Or.inr (Or.inr hhost))
    exact h.abandons (Or.inr (Or.inr hhost)) rfl rfl rfl (Or.inr (Or.inr rfl))
      (hfreed habsent (Or.inr hhost))

/-- The thread goes on, and does not free the state. -/
theorem Control.goesOn (h : life.Control) (hpresent : life.worklet ≠ .absent)
    (hgone : life.worklet ≠ .gone) (hnext : next.worklet ≠ .absent)
    (hleft : next.worklet ≠ .gone) (hhost : next.host = life.host)
    (hthread : next.thread = life.thread) (hposted : next.posted = life.posted)
    (hfrees : next.stateFrees = life.stateFrees)
    (hstarting : next.worklet.starting = true → life.worklet.starting = true)
    (htaken : next.worklet = .destroying ∨ next.worklet = .freeing → life.posted = true) :
    next.Control := by
  constructor
  · rw [hthread, h.thread]
    exact iff_of_true hpresent hnext
  · rw [hhost]
    exact fun hstarts => h.starting (hstarting hstarts)
  · exact fun _ => hnext
  · rw [hhost]
    exact fun hunstarted => absurd (h.unstarted hunstarted) hpresent
  · rw [hposted, hhost]
    exact h.posted
  · rw [hposted, hhost]
    exact fun hover _ => h.handed hover hpresent
  · rw [hposted]
    rintro (hdestroying | hfreeing | hover)
    · exact htaken (Or.inl hdestroying)
    · exact htaken (Or.inr hfreeing)
    · exact absurd hover hleft
  · rw [hfrees, h.stateFrees, statesFreed_eq hpresent, statesFreed_eq hnext, if_neg hgone,
      if_neg hleft]

theorem Control.frees (h : life.Control) (hworklet : life.worklet = .freeing) :
    Control { life.freeState .worklet with worklet := .gone } := by
  have hpresent : life.worklet ≠ .absent := by simp [hworklet]
  have hnone : life.stateFrees = [] := by
    rw [h.stateFrees, statesFreed_eq hpresent, if_neg (by simp [hworklet])]
  exact
    { h with
      thread := iff_of_true (h.thread.mpr hpresent) (by simp)
      starting := by simp [OnThread.starting]
      started := by simp
      unstarted := fun hhost => absurd (h.unstarted hhost) hpresent
      handed := fun hover _ => h.handed hover hpresent
      taken := fun _ => h.taken (Or.inr (Or.inl hworklet))
      stateFrees := by simp [freeState, touchState, hnone, statesFreed] }

theorem control_stepThread (h : life.Control) (hstep : life.stepThread = some next) :
    next.Control := by
  cases hworklet : life.worklet <;>
    simp only [stepThread, hworklet, reduceCtorEq, Option.ite_none_right_eq_some,
      Option.some.injEq] at hstep
  case freeing => exact hstep ▸ h.frees hworklet
  case waiting =>
    obtain ⟨hposted, rfl⟩ := hstep
    apply h.goesOn <;> simp [hworklet, hposted, OnThread.starting]
  case running | tearingDown =>
    obtain ⟨-, rfl⟩ := hstep
    apply h.goesOn <;> simp [hworklet, touchState, OnThread.starting]
  case destroying =>
    subst hstep
    have hposted := h.taken (Or.inl hworklet)
    apply h.goesOn <;> simp [hworklet, hposted, touchQueue, onQueue, OnThread.starting]
  all_goals
    subst hstep
    apply h.goesOn <;> simp [hworklet, touchState, touchQueue, onQueue, OnThread.starting]

theorem stepWire_cases {label : Step} (hstep : life.stepWire label = some next) :
    ∃ wire party, life.wire.step label = some wire ∧
      (label.ofWorklet = true → life.worklet.scripting = true ∧ life.wire.stepNative label = none) ∧
      next = { life with
        wire
        freeing := if life.wire.frees label then party :: life.freeing else life.freeing
        fault := life.fault || life.wire.touches label && life.queueGone } := by
  have honWire : ∀ party, life.onWire party label = some next →
      ∃ wire, life.wire.step label = some wire ∧ next = { life with
        wire
        freeing := if life.wire.frees label then party :: life.freeing else life.freeing
        fault := life.fault || life.wire.touches label && life.queueGone } := by
    intro party hparty
    obtain ⟨wire, hwire, rfl⟩ := Option.map_eq_some_iff.mp hparty
    exact ⟨wire, hwire, rfl⟩
  cases label with
  | openUv _ _ | exit | abandon | destroy => contradiction
  | write _ _ | final | read | onsignal | retry _ | drain _ =>
    simp only [stepWire] at hstep
    split at hstep
    · rename_i hscript
      obtain ⟨wire, hwire, hnext⟩ := honWire _ hstep
      exact ⟨wire, _, hwire, fun _ => ⟨hscript.1, rfl⟩, hnext⟩
    · contradiction
  | takeWake =>
    obtain ⟨wire, hwire, hnext⟩ := honWire _ hstep
    exact ⟨wire, _, hwire, fun hworklet => by contradiction, hnext⟩
  | ipcCreate _ _ | ipcRead _ | ipcReadPending | ipcWrite _ _ | ipcEnd | ipcClose
  | ipcCloseRelease | ipcSignal | dispatch | dispatchWritable =>
    simp only [stepWire] at hstep
    split at hstep
    · obtain ⟨wire, hwire, hnext⟩ := honWire _ hstep
      exact ⟨wire, _, hwire, fun hworklet => by contradiction, hnext⟩
    · contradiction

theorem control_step (h : life.Control) (hstarts : life.Starts label)
    (hstep : life.step label = some next) : next.Control := by
  cases label with
  | start =>
    simp only [step] at hstep
    split at hstep
    · rename_i henabled
      obtain ⟨hthread, hstarting, hstarted, hunstarted, hposted, hhanded, htaken, hstate⟩ := h
      cases hstep
      constructor <;> simp_all [statesFreed]
    · contradiction
  | startTornDown =>
    simp only [step] at hstep
    split at hstep
    · cases hstep
      exact h
    · contradiction
  | startFails =>
    simp only [step] at hstep
    split at hstep
    · cases hstep
      have habsent : life.worklet = .absent := hstarts
      have hthread : life.thread = false := by
        by_contra hset
        exact h.thread.mp (Bool.not_eq_false _ ▸ hset) habsent
      exact h.frame rfl rfl hthread.symm rfl rfl
    · contradiction
  | call | callback =>
    simp only [step] at hstep
    split at hstep
    · cases hstep
      exact h.frame rfl rfl rfl rfl rfl
    · contradiction
  | destroy =>
    simp only [step] at hstep
    split at hstep
    · rename_i henabled
      obtain ⟨hthread, hstarting, hstarted, hunstarted, hposted, hhanded, htaken, hstate⟩ := h
      cases hstep
      cases hset : life.thread <;> constructor <;> simp_all [statesFreed]
    · contradiction
  | onDestroy =>
    simp only [step] at hstep
    split at hstep
    · exact control_stepDestroy h hstep
    · contradiction
  | onThread =>
    simp only [step] at hstep
    split at hstep
    · exact control_stepThread h hstep
    · contradiction
  | openUv onRecv data =>
    simp only [step] at hstep
    split at hstep
    · rename_i hworklet
      obtain ⟨hthread, hstarting, hstarted, hunstarted, hposted, hhanded, htaken, hstate⟩ := h
      cases hstep
      constructor <;> simp_all [touchQueue, statesFreed, OnThread.starting]
    · contradiction
  | ref =>
    simp only [step] at hstep
    split at hstep
    · cases hstep
      exact h.frame rfl rfl rfl rfl rfl
    · contradiction
  | wire label =>
    obtain ⟨wire, party, _, _, rfl⟩ := stepWire_cases hstep
    exact h.frame rfl rfl rfl rfl rfl
  | free party =>
    simp only [step] at hstep
    split at hstep
    · cases hstep
      exact h.frame rfl rfl rfl rfl rfl
    · contradiction

def Fresh (life : Life) : Prop :=
  life.worklet.opened = false ∧ life.host ≠ .destroying ∧ life.host ≠ .gone

def Shut (life : Life) : Prop :=
  life.worklet.closed = true ∨
    (life.worklet = .absent ∧ (life.host = .destroying ∨ life.host = .gone))

/-- How the queue follows the threads that own it: one of them frees it or has freed it
exactly if it is unowned. -/
structure Shared (life : Life) : Prop where
  wire : Wire.system.Reachable life.wire
  destroyed : life.wire.queue.destroyed = true ↔ life.LetGo
  started : life.wire.started = life.worklet.opened
  fresh : life.Fresh → life.wire.queue.uvState = .idle
  shut : life.Shut → life.wire.queue.uvState = .closed
  turn : life.worklet = .closing → life.wire.turn = .idle
  settled : life.freeing.length + life.queueFrees.length =
    if bareQueueUnowned life.wire.queue then 1 else 0
  fault : life.fault = false

theorem Shared.kept (h : life.Shared) (hlet : ¬ life.LetGo) : life.wire.queue.destroyed = false :=
  Bool.eq_false_iff.mpr fun hdestroyed => hlet (h.destroyed.mp hdestroyed)

theorem Shared.owned (h : life.Shared) (hlet : ¬ life.LetGo) :
    bareQueueUnowned life.wire.queue = false := Wire.unowned_of_destroyed (h.kept hlet)

theorem Shared.unfreed (h : life.Shared) (howned : bareQueueUnowned life.wire.queue = false) :
    life.freeing = [] ∧ life.queueFrees = [] := by
  have hsettled := h.settled
  rw [howned, if_neg Bool.false_ne_true, Nat.add_eq_zero_iff] at hsettled
  exact ⟨List.eq_nil_of_length_eq_zero hsettled.1, List.eq_nil_of_length_eq_zero hsettled.2⟩

theorem Shared.queueGone (h : life.Shared) (howned : bareQueueUnowned life.wire.queue = false) :
    life.queueGone = false := by
  obtain ⟨hfreeing, hfrees⟩ := h.unfreed howned
  simp [Life.queueGone, hfreeing, hfrees]

theorem Control.stateGone (h : life.Control) (hfreed : life.statesFreed = []) :
    life.stateGone = false := by
  simp [Life.stateGone, h.stateFrees, hfreed]

theorem Shared.frame (h : life.Shared) (hwire : next.wire = life.wire)
    (hfreeing : next.freeing = life.freeing) (hfrees : next.queueFrees = life.queueFrees)
    (hlet : next.LetGo ↔ life.LetGo) (hopened : next.worklet.opened = life.worklet.opened)
    (hfresh : next.Fresh → life.Fresh) (hshut : next.Shut → life.Shut)
    (hturn : next.worklet = .closing → life.wire.turn = .idle) (hfault : next.fault = false) :
    next.Shared := by
  constructor
  · rw [hwire]
    exact h.wire
  · rw [hwire, hlet]
    exact h.destroyed
  · rw [hwire, hopened]
    exact h.started
  · rw [hwire]
    exact fun hnext => h.fresh (hfresh hnext)
  · rw [hwire]
    exact fun hnext => h.shut (hshut hnext)
  · rw [hwire]
    exact hturn
  · rw [hfreeing, hfrees, hwire]
    exact h.settled
  · exact hfault

theorem Shared.still (h : life.Shared) (hwire : next.wire = life.wire)
    (hfreeing : next.freeing = life.freeing) (hfrees : next.queueFrees = life.queueFrees)
    (hworklet : next.worklet = life.worklet) (hhost : next.host = life.host)
    (hfault : next.fault = false) : next.Shared := by
  refine h.frame hwire hfreeing hfrees ?_ (by rw [hworklet]) ?_ ?_ ?_ hfault
  · rw [LetGo, LetGo, hworklet, hhost]
  · rw [Fresh, Fresh, hworklet, hhost]
    exact id
  · rw [Shut, Shut, hworklet, hhost]
    exact id
  · rw [hworklet]
    exact h.turn

/-- A function of the queue that ends with the check for an unowned queue, of one that was
owned. -/
theorem Shared.onQueue (h : life.Shared) (howned : bareQueueUnowned life.wire.queue = false)
    (party : Party) {outcome : Outcome Bool}
    (hresult : outcome.result = bareQueueUnowned outcome.queue) :
    (life.onQueue party outcome).freeing.length + (life.onQueue party outcome).queueFrees.length =
        (if bareQueueUnowned outcome.queue then 1 else 0) ∧
      (life.onQueue party outcome).fault = false := by
  obtain ⟨hfreeing, hfrees⟩ := h.unfreed howned
  constructor
  · simp only [Life.onQueue, touchQueue, hresult, hfreeing, hfrees]
    cases bareQueueUnowned outcome.queue <;> rfl
  · simp [Life.onQueue, touchQueue, h.fault, h.queueGone howned]

theorem Control.unfreed (h : life.Control) (hhost : life.host = .alive ∨
    life.host = .terminating ∨ life.host = .posting ∨ life.host = .freeing) :
    life.statesFreed = [] := by
  have hgone : life.worklet ≠ .gone := by
    intro hworklet
    have := h.posted (h.taken (Or.inr (Or.inr hworklet)))
    simp [this] at hhost
  unfold statesFreed
  split <;> simp_all

theorem Shared.touchState (h : life.Shared) (hcontrol : life.Control)
    (hfreed : life.statesFreed = []) : life.touchState.fault = false := by
  simp [Life.touchState, h.fault, hcontrol.stateGone hfreed]

theorem Shared.close (h : life.Shared) (label : Step)
    (hstep : life.wire.step label = some (life.wire.apply (bareQueueClose life.wire.queue .uv)))
    (hwire : next.wire = life.wire.apply (bareQueueClose life.wire.queue .uv))
    (hlet : ¬ life.LetGo) (hnext : ¬ next.LetGo)
    (hopened : next.worklet.opened = life.worklet.opened)
    (hfresh : ¬ next.Fresh) (hturn : next.worklet ≠ .closing)
    (hrest : next.freeing.length + next.queueFrees.length =
      (if bareQueueUnowned (bareQueueClose life.wire.queue .uv).queue then 1 else 0) ∧
        next.fault = false) : next.Shared := by
  have hkeeps := Wire.Keeps.advance life.wire .uv .closed
  constructor
  · rw [hwire]
    exact h.wire.next label hstep
  · rw [hwire]
    refine iff_of_false ?_ hnext
    rw [Bool.not_eq_true]
    exact hkeeps.destroyed.trans (h.kept hlet)
  · rw [hwire, hopened]
    exact hkeeps.started.trans h.started
  · exact fun hfalse => absurd hfalse hfresh
  · intro _
    rw [hwire]
    exact Queue.close_state .uv
  · exact fun hfalse => absurd hfalse hturn
  · rw [hwire]
    exact hrest.1
  · exact hrest.2

theorem Shared.destroy (h : life.Shared)
    (hwire : next.wire = life.wire.apply (bareQueueDestroy life.wire.queue))
    (hshut : life.Shut) (hnext : next.LetGo) (hopened : next.worklet.opened = life.worklet.opened)
    (hfresh : ¬ next.Fresh) (hturn : next.worklet ≠ .closing)
    (hrest : next.freeing.length + next.queueFrees.length =
      (if bareQueueUnowned (bareQueueDestroy life.wire.queue).queue then 1 else 0) ∧
        next.fault = false) : next.Shared := by
  have hclosed := h.shut hshut
  constructor
  · rw [hwire]
    refine h.wire.next .destroy ?_
    simp [Wire.system, Wire.step, Wire.stepNative, hclosed]
  · rw [hwire]
    exact iff_of_true rfl hnext
  · rw [hwire, hopened]
    exact h.started
  · exact fun hfalse => absurd hfalse hfresh
  · intro _
    rw [hwire]
    exact hclosed
  · exact fun hfalse => absurd hfalse hturn
  · rw [hwire]
    exact hrest.1
  · exact hrest.2

theorem shared_stepDestroy (h : life.Shared) (hcontrol : life.Control)
    (hstep : life.stepDestroy = some next) : next.Shared := by
  unfold stepDestroy at hstep
  split at hstep <;> rename_i hhost
  · contradiction
  · contradiction
  · have hstarted := hcontrol.started (Or.inl hhost)
    cases hstep
    refine h.frame rfl rfl rfl ?_ rfl ?_ ?_ h.turn (h.touchState hcontrol ?_)
    · simp [LetGo, touchState, hstarted]
    · simp [Fresh, touchState, hhost]
    · simp [Shut, touchState, hstarted]
    · exact hcontrol.unfreed (Or.inr (Or.inl hhost))
  · have hstarted := hcontrol.started (Or.inr hhost)
    cases hstep
    refine h.frame rfl rfl rfl ?_ rfl ?_ ?_ h.turn h.fault
    · simp [LetGo, hstarted]
    · simp [Fresh]
    · simp [Shut, hstarted]
  · have habsent := hcontrol.unstarted (Or.inl hhost)
    cases hstep
    refine h.frame rfl rfl rfl ?_ rfl ?_ ?_ h.turn (h.touchState hcontrol ?_)
    · simp [LetGo, freeState, touchState, habsent, hhost]
    · simp [Fresh, freeState, touchState, hhost]
    · simp [Shut, freeState, touchState, habsent, OnThread.closed]
    · exact hcontrol.unfreed (Or.inr (Or.inr (Or.inr hhost)))
  · have habsent := hcontrol.unstarted (Or.inr (Or.inl hhost))
    have hlet : ¬ life.LetGo := by simp [LetGo, habsent, hhost]
    cases hstep
    refine h.close .abandon ?_ rfl hlet ?_ rfl ?_ ?_ (h.onQueue (h.owned hlet) .host rfl)
    · simp [Wire.step, Wire.stepNative, h.started, habsent, OnThread.opened, h.kept hlet]
    · simp [LetGo, onQueue, touchQueue, habsent]
    · simp [Fresh]
    · simp [onQueue, touchQueue, habsent]
  · have habsent := hcontrol.unstarted (Or.inr (Or.inr hhost))
    have hlet : ¬ life.LetGo := by simp [LetGo, habsent, hhost]
    cases hstep
    refine h.destroy rfl (Or.inr ⟨habsent, Or.inl hhost⟩) ?_ rfl ?_ ?_
      (h.onQueue (h.owned hlet) .host rfl)
    · exact Or.inr (Or.inr ⟨habsent, rfl⟩)
    · simp [Fresh]
    · simp [onQueue, touchQueue, habsent]

/-- A step of the thread that is neither the opening or closing of its end nor the giving
up of its share. -/
def Passes (pc after : OnThread) : Prop :=
  pc ≠ .absent ∧ after ≠ .absent ∧
    (after = .freeing ∨ after = .gone ↔ pc = .freeing ∨ pc = .gone) ∧
    after.opened = pc.opened ∧ after.closed = pc.closed

instance (pc after : OnThread) : Decidable (Passes pc after) :=
  inferInstanceAs (Decidable (_ ∧ _))

theorem Shared.thread (h : life.Shared) {pc : OnThread} (after : OnThread) (hpc : life.worklet = pc)
    (hafter : next.worklet = after) (hpasses : Passes pc after) (hwire : next.wire = life.wire)
    (hfreeing : next.freeing = life.freeing) (hfrees : next.queueFrees = life.queueFrees)
    (hhost : next.host = life.host) (hturn : after = .closing → life.wire.turn = .idle)
    (hfault : next.fault = false) : next.Shared := by
  obtain ⟨hpresent, hstays, hlet, hopened, hclosed⟩ := hpasses
  refine h.frame hwire hfreeing hfrees ?_ ?_ ?_ ?_ (hafter ▸ hturn) hfault
  · simp only [LetGo, hpc, hafter, hpresent, hstays, false_and, or_false, hlet]
  · rw [hafter, hpc, hopened]
  · rw [Fresh, Fresh, hafter, hpc, hopened, hhost]
    exact id
  · simp only [Shut, hpc, hafter, hpresent, hstays, false_and, or_false, hclosed]
    exact id

theorem shared_stepThread (h : life.Shared) (hcontrol : life.Control)
    (hstep : life.stepThread = some next) : next.Shared := by
  have htouch : life.worklet ≠ .absent → life.worklet ≠ .gone → life.touchState.fault = false := by
    intro habsent hgone
    apply h.touchState hcontrol
    unfold statesFreed
    split <;> simp_all
  unfold stepThread at hstep
  split at hstep <;> rename_i hworklet
  · contradiction
  · contradiction
  · contradiction
  · cases hstep
    exact h.thread .publishing hworklet rfl (by decide) rfl rfl rfl rfl (by simp)
      (htouch (by simp [hworklet]) (by simp [hworklet]))
  · cases hstep
    exact h.thread .opening hworklet rfl (by decide) rfl rfl rfl rfl (by simp)
      (htouch (by simp [hworklet]) (by simp [hworklet]))
  · cases hstep
    exact h.thread .running hworklet rfl (by decide) rfl rfl rfl rfl (by simp) h.fault
  · split at hstep
    · rename_i hturn
      cases hstep
      exact h.thread .closing hworklet rfl (by decide) rfl rfl rfl rfl (fun _ => hturn)
        (htouch (by simp [hworklet]) (by simp [hworklet]))
    · contradiction
  · have hlet : ¬ life.LetGo := by simp [LetGo, hworklet]
    cases hstep
    refine h.close .exit ?_ rfl hlet ?_ ?_ ?_ ?_ (h.onQueue (h.owned hlet) .worklet rfl)
    · simp [Wire.step, Wire.stepNative, Wire.running, h.started, hworklet, OnThread.opened,
        h.kept hlet, h.turn hworklet]
    · simp [LetGo]
    · simp [hworklet, OnThread.opened]
    · simp [Fresh, OnThread.opened]
    · simp
  · cases hstep
    exact h.thread .shuttingDown hworklet rfl (by decide) rfl rfl rfl rfl (by simp)
      (htouch (by simp [hworklet]) (by simp [hworklet]))
  · have hlet : ¬ life.LetGo := by simp [LetGo, hworklet]
    cases hstep
    refine h.thread .tearingDown hworklet rfl (by decide) rfl rfl rfl rfl (by simp) ?_
    simp [touchQueue, h.fault, h.queueGone (h.owned hlet)]
  · split at hstep
    · cases hstep
      exact h.thread .waiting hworklet rfl (by decide) rfl rfl rfl rfl (by simp)
        (htouch (by simp [hworklet]) (by simp [hworklet]))
    · contradiction
  · split at hstep
    · cases hstep
      exact h.thread .destroying hworklet rfl (by decide) rfl rfl rfl rfl (by simp) h.fault
    · contradiction
  · have hlet : ¬ life.LetGo := by simp [LetGo, hworklet]
    cases hstep
    refine h.destroy rfl (Or.inl ?_) (Or.inl rfl) ?_ ?_ ?_ (h.onQueue (h.owned hlet) .worklet rfl)
    · simp [hworklet, OnThread.closed]
    · simp [hworklet, OnThread.opened]
    · simp [Fresh, OnThread.opened]
    · simp
  · cases hstep
    exact h.thread .gone hworklet rfl (by decide) rfl rfl rfl rfl (by simp)
      (htouch (by simp [hworklet]) (by simp [hworklet]))

theorem frees_script {wire : Wire} {label : Step} (hdestroyed : wire.queue.destroyed = false)
    (hworklet : label.ofWorklet = true) : wire.frees label = false := by
  cases label with
  | final =>
    exact Wire.unowned_of_destroyed
      ((Wire.Keeps.advance wire .uv .ended).destroyed.trans hdestroyed)
  | ipcCreate _ _ | ipcRead _ | ipcReadPending | ipcWrite _ _ | ipcEnd | ipcClose
  | ipcCloseRelease | ipcSignal | dispatch | dispatchWritable | takeWake => contradiction
  | write _ _ | read | onsignal | retry _ | drain _ | openUv _ _ | exit | abandon | destroy => rfl

structure Calls (life : Life) (wire : Wire) (label : Step) : Prop
    extends Wire.Keeps life.wire wire where
  fresh : life.Fresh → wire.queue.uvState = life.wire.queue.uvState
  turn : life.worklet = .closing → wire.turn = life.wire.turn
  touches : life.wire.touches label = true → bareQueueUnowned life.wire.queue = false
  unowned : bareQueueUnowned wire.queue =
    (bareQueueUnowned life.wire.queue || life.wire.frees label)

theorem Shared.calls (h : life.Shared) {label : Step} {wire : Wire}
    (hstep : life.wire.step label = some wire)
    (hscript : label.ofWorklet = true →
      life.worklet.scripting = true ∧ life.wire.stepNative label = none) :
    life.Calls wire label := by
  cases hworklet : label.ofWorklet with
  | true =>
    obtain ⟨hscripting, hnative⟩ := hscript hworklet
    have hlet : ¬ life.LetGo := by
      rintro (hpc | hpc | ⟨hpc, _⟩) <;> simp [hpc, OnThread.scripting] at hscripting
    have hkeeps := Wire.keeps_script hworklet hnative hstep
    refine ⟨hkeeps, fun hfresh => ?_, fun hclosing => ?_, fun _ => h.owned hlet, ?_⟩
    · have hopened := hfresh.1
      revert hopened hscripting
      cases life.worklet <;> simp [OnThread.opened, OnThread.scripting]
    · simp [hclosing, OnThread.scripting] at hscripting
    · rw [h.owned hlet, frees_script (h.kept hlet) hworklet]
      exact Wire.unowned_of_destroyed (hkeeps.destroyed.trans (h.kept hlet))
  | false =>
    have hspares := Wire.spares_step (Wire.sound h.wire) (Wire.hosted h.wire) hworklet hstep
    exact ⟨hspares.toKeeps, fun _ => hspares.uvState, fun _ => hspares.turn, hspares.touches,
      hspares.unowned⟩

theorem frees_touches {wire : Wire} {label : Step} (hfrees : wire.frees label = true) :
    wire.touches label = true := by
  cases label with
  | ipcEnd | ipcClose =>
    simp only [Wire.frees, Option.any_eq_true] at hfrees
    obtain ⟨outcome, hbind, _⟩ := hfrees
    obtain ⟨ipc, hlock, hsome⟩ := Option.bind_eq_some_iff.mp hbind
    have hipc := (Wire.lock_eq_some hlock).2
    have hport : ipc.port = true := by
      simp only [bareIpcEnd, bareIpcClose] at hsome
      split at hsome
      · assumption
      · contradiction
    simp [Wire.touches, hipc, hport]
  | final => rfl
  | ipcCreate _ _ | ipcRead _ | ipcReadPending | ipcWrite _ _ | ipcCloseRelease | ipcSignal
  | dispatch | dispatchWritable | takeWake | write _ _ | read | onsignal | retry _ | drain _
  | openUv _ _ | exit | abandon | destroy => contradiction

theorem Shared.call (h : life.Shared) {label : Step} {wire : Wire}
    (hstep : life.wire.step label = some wire) (hcalls : life.Calls wire label) :
    Shared { life with
      wire
      freeing := if life.wire.frees label then party :: life.freeing else life.freeing
      fault := life.fault || life.wire.touches label && life.queueGone } := by
  constructor
  · exact h.wire.next label hstep
  · exact (by rw [hcalls.destroyed] : wire.queue.destroyed = true ↔ _).trans h.destroyed
  · exact hcalls.started.trans h.started
  · exact fun hfresh => (hcalls.fresh hfresh).trans (h.fresh hfresh)
  · exact fun hshut => hcalls.closed (h.shut hshut)
  · exact fun hclosing => (hcalls.turn hclosing).trans (h.turn hclosing)
  · simp only [hcalls.unowned]
    cases hfrees : life.wire.frees label with
    | true =>
      have howned := hcalls.touches (frees_touches hfrees)
      obtain ⟨hfreeing, hnone⟩ := h.unfreed howned
      simp [hfreeing, hnone]
    | false => simpa using h.settled
  · simp only [h.fault, Bool.false_or, Bool.and_eq_false_iff]
    cases htouches : life.wire.touches label with
    | true => exact Or.inr (h.queueGone (hcalls.touches htouches))
    | false => exact Or.inl rfl

theorem Shared.free (h : life.Shared) (hmem : party ∈ life.freeing) :
    Shared { life with
      freeing := life.freeing.erase party
      queueFrees := party :: life.queueFrees
      fault := life.fault || !(life.freeing.erase party).isEmpty || !life.queueFrees.isEmpty } := by
  have hsettled := h.settled
  have hlength := List.length_erase_of_mem hmem
  have hpos := List.length_pos_of_mem hmem
  have hbound : life.freeing.length + life.queueFrees.length ≤ 1 := by
    rw [hsettled]
    split <;> omega
  have herased : life.freeing.erase party = [] := List.eq_nil_of_length_eq_zero (by omega)
  have hnone : life.queueFrees = [] := List.eq_nil_of_length_eq_zero (by omega)
  refine ⟨h.wire, h.destroyed, h.started, h.fresh, h.shut, h.turn, ?_, ?_⟩
  · simp only [← hsettled, List.length_cons]
    omega
  · simp [h.fault, herased, hnone]

theorem shared_step (h : life.Shared) (hcontrol : life.Control)
    (hstep : life.step label = some next) : next.Shared := by
  cases label with
  | start =>
    simp only [step] at hstep
    split at hstep
    · rename_i henabled
      cases hstep
      refine h.frame rfl rfl rfl ?_ ?_ ?_ ?_ (by simp) h.fault
      · simp [LetGo, henabled.1, henabled.2]
      · simp [henabled.2, OnThread.opened]
      · simp [Fresh, henabled.1, henabled.2, OnThread.opened]
      · simp [Shut, OnThread.closed]
    · contradiction
  | startTornDown =>
    simp only [step] at hstep
    split at hstep
    · cases hstep
      exact h
    · contradiction
  | startFails =>
    simp only [step] at hstep
    split at hstep
    · cases hstep
      exact h.still rfl rfl rfl rfl rfl h.fault
    · contradiction
  | call =>
    simp only [step] at hstep
    split at hstep
    · rename_i halive
      cases hstep
      exact h.still rfl rfl rfl rfl rfl (h.touchState hcontrol (hcontrol.unfreed (Or.inl halive)))
    · contradiction
  | callback =>
    simp only [step] at hstep
    split at hstep
    · rename_i hscripting
      cases hstep
      refine h.still rfl rfl rfl rfl rfl (h.touchState hcontrol ?_)
      revert hscripting
      unfold statesFreed
      split <;> simp_all [OnThread.scripting]
    · contradiction
  | destroy =>
    simp only [step] at hstep
    split at hstep
    · rename_i henabled
      cases hstep
      refine h.frame rfl rfl rfl ?_ rfl ?_ ?_ h.turn h.fault
      · cases life.thread <;> simp [LetGo, henabled.1]
      · simp only [Fresh, henabled.1]
        exact fun hfresh => ⟨hfresh.1, by decide, by decide⟩
      · cases life.thread <;> simp [Shut, henabled.1]
    · contradiction
  | onDestroy =>
    simp only [step] at hstep
    split at hstep
    · exact shared_stepDestroy h hcontrol hstep
    · contradiction
  | onThread =>
    simp only [step] at hstep
    split at hstep
    · exact shared_stepThread h hcontrol hstep
    · contradiction
  | openUv onRecv data =>
    simp only [step] at hstep
    split at hstep
    · rename_i hworklet
      have hlet : ¬ life.LetGo := by simp [LetGo, hworklet]
      have halive := hcontrol.starting (by simp [hworklet, OnThread.starting])
      have hidle :=
        h.fresh ⟨by simp [hworklet, OnThread.opened], by simp [halive], by simp [halive]⟩
      cases hstep
      constructor
      · refine h.wire.next (.openUv onRecv data) ?_
        simp [Wire.system, Wire.step, Wire.stepNative, hidle, h.kept hlet]
      · refine iff_of_false ?_ ?_
        · simp [Wire.apply, bareQueueOpenUv, h.kept hlet]
        · simp [LetGo]
      · rfl
      · simp [Fresh, OnThread.opened]
      · simp [Shut, OnThread.closed]
      · simp
      · exact h.settled
      · simp [touchQueue, h.fault, h.queueGone (h.owned hlet)]
    · contradiction
  | ref =>
    simp only [step] at hstep
    split at hstep
    · rename_i hscripting
      have hlet : ¬ life.LetGo := by
        rintro (hpc | hpc | ⟨hpc, _⟩) <;> simp [hpc, OnThread.scripting] at hscripting
      cases hstep
      refine h.still rfl rfl rfl rfl rfl ?_
      simp [touchQueue, h.fault, h.queueGone (h.owned hlet)]
    · contradiction
  | wire label =>
    obtain ⟨wire, party, hwire, hscript, rfl⟩ := stepWire_cases hstep
    exact h.call hwire (h.calls hwire hscript)
  | free party =>
    simp only [step] at hstep
    split at hstep
    · rename_i hmem
      cases hstep
      exact h.free hmem
    · contradiction

theorem control_create (toUv toThread : Slots) :
    (ofWire (Wire.ofQueue (bareQueueCreate toUv toThread))).Control := by
  constructor <;> simp [ofWire, statesFreed, OnThread.starting]

theorem shared_create (toUv toThread : Slots) :
    (ofWire (Wire.ofQueue (bareQueueCreate toUv toThread))).Shared := by
  constructor
  · exact .start ⟨toUv, toThread, rfl⟩
  · simp [ofWire, Wire.ofQueue, bareQueueCreate, LetGo]
  · rfl
  · exact fun _ => rfl
  · simp [Shut, ofWire, OnThread.closed]
  · simp [ofWire]
  · rfl
  · rfl

theorem control_shared (h : (system.guard Starts).Reachable life) : life.Control ∧ life.Shared := by
  refine h.invariant (I := fun life => life.Control ∧ life.Shared) ?_ ?_
  · rintro life ⟨toUv, toThread, rfl⟩
    exact ⟨control_create toUv toThread, shared_create toUv toThread⟩
  · rintro life label next _ ⟨hcontrol, hshared⟩ hstep
    obtain ⟨hstarts, hnext⟩ := Transition.System.guard_step.mp hstep
    exact ⟨control_step hcontrol hstarts hnext, shared_step hshared hcontrol hnext⟩

/-- A step that the host has no part in: it is up to the thread of the worklet, or to a
thread that has a free to make. -/
def Unaided : LifeStep → Prop
  | .onThread | .openUv _ _ | .free _ => True
  | .wire label => label.ofWorklet = true
  | _ => False

def Over (life : Life) : Prop :=
  life.freeing = [] ∧ (life.worklet = .absent ∨ life.worklet = .gone)

theorem turn_step {wire : Wire} (hrunning : wire.running = true) (hturn : wire.turn ≠ .idle) :
    (wire.step (.retry 0)).isSome ∨ (wire.step (.drain false)).isSome := by
  cases hat : wire.turn with
  | idle => exact absurd hat hturn
  | retrying =>
    left
    simp only [Wire.step, hrunning, Wire.stepScript, hat, if_true]
    split <;> rfl
  | draining =>
    right
    simp only [Wire.step, hrunning, Wire.stepScript, hat, if_true]
    split <;> rfl

theorem script_step (hshared : life.Shared) (hfreeing : life.freeing = [])
    (hpc : life.worklet = .running ∨ life.worklet = .tearingDown) (hturn : life.wire.turn ≠ .idle) :
    ∃ label, Unaided label ∧ (life.step label).isSome := by
  have hlet : ¬ life.LetGo := by rcases hpc with hpc | hpc <;> simp [LetGo, hpc]
  have hscripting : life.worklet.scripting = true := by
    rcases hpc with hpc | hpc <;> rw [hpc] <;> rfl
  have hopened : life.worklet.opened = true := by
    rcases hpc with hpc | hpc <;> rw [hpc] <;> rfl
  have hrunning : life.wire.running = true := by
    simp [Wire.running, hshared.started, hopened, hshared.kept hlet]
  rcases turn_step hrunning hturn with hsome | hsome
  · refine ⟨.wire (.retry 0), rfl, ?_⟩
    simpa [step, stepWire, hscripting, hfreeing, onWire] using hsome
  · refine ⟨.wire (.drain false), rfl, ?_⟩
    simpa [step, stepWire, hscripting, hfreeing, onWire] using hsome

theorem over_or_step (hcontrol : life.Control) (hshared : life.Shared) (hhost : life.host = .gone) :
    life.Over ∨ ∃ label, Unaided label ∧ (life.step label).isSome := by
  by_cases hfreeing : life.freeing = []
  · by_cases hover : life.worklet = .absent ∨ life.worklet = .gone
    · exact Or.inl ⟨hfreeing, hover⟩
    · right
      rw [not_or] at hover
      by_cases hopening : life.worklet = .opening
      · exact ⟨.openUv none none, trivial, by simp [step, hopening]⟩
      · by_cases hturn : (life.worklet = .running ∨ life.worklet = .tearingDown) ∧
            life.wire.turn ≠ .idle
        · exact script_step hshared hfreeing hturn.1 hturn.2
        · refine ⟨.onThread, trivial, ?_⟩
          have hposted := hcontrol.handed hhost hover.1
          simp only [step, hfreeing, List.not_mem_nil, not_false_eq_true, if_true, stepThread]
          split <;> simp_all
  · obtain ⟨party, rest, hcons⟩ := List.exists_cons_of_ne_nil hfreeing
    exact Or.inr ⟨.free party, trivial, by simp [step, hcons]⟩

/-! A start that fails although the worklet has started makes the host take it for one
that never did. -/

/-- The worklet has started, and `worklet->thread` was reset. -/
def Forgotten (life : Life) : Prop := life.worklet ≠ .absent ∧ life.thread = false

structure Destroyed (life : Life) : Prop where
  terminating : life.host = .terminating ∨ life.host = .posting ∨ life.posted = true →
    life.thread = true
  posted : life.posted = true → life.host = .gone
  freed : life.host = .closing ∨ life.host = .destroying ∨
    (life.host = .gone ∧ life.posted = false) →
    Party.host ∈ life.stateFrees

theorem Destroyed.frame (h : life.Destroyed) (hhost : next.host = life.host)
    (hthread : next.thread = life.thread) (hposted : next.posted = life.posted)
    (hstate : life.stateFrees ⊆ next.stateFrees) : next.Destroyed := by
  constructor
  · rw [hhost, hposted, hthread]
    exact h.terminating
  · rw [hhost, hposted]
    exact h.posted
  · rw [hhost, hposted]
    exact fun hpast => hstate (h.freed hpast)

theorem stepThread_frame (hstep : life.stepThread = some next) :
    next.host = life.host ∧ next.thread = life.thread ∧ next.posted = life.posted ∧
      life.stateFrees ⊆ next.stateFrees ∧ next.worklet ≠ .absent := by
  unfold stepThread at hstep
  split at hstep
  · contradiction
  · contradiction
  · contradiction
  case h_7 | h_11 | h_12 =>
    split at hstep
    · cases hstep
      exact ⟨rfl, rfl, rfl, List.Subset.refl _, by simp⟩
    · contradiction
  case h_14 =>
    cases hstep
    exact ⟨rfl, rfl, rfl, List.subset_cons_self _ _, by simp⟩
  all_goals
    cases hstep
    exact ⟨rfl, rfl, rfl, List.Subset.refl _, by simp⟩

theorem destroyed_stepDestroy (h : life.Destroyed) (hstep : life.stepDestroy = some next) :
    next.Destroyed := by
  obtain ⟨hterminating, hposted, hfreed⟩ := h
  unfold stepDestroy at hstep
  split at hstep <;> rename_i hhost
  · contradiction
  · contradiction
  all_goals
    cases hstep
    constructor <;> simp_all [touchState, touchQueue, freeState, onQueue]

theorem destroyed_step (h : life.Destroyed) (hstep : life.step label = some next) :
    next.Destroyed := by
  cases label with
  | start | startFails | destroy =>
    simp only [step] at hstep
    split at hstep
    · rename_i henabled
      obtain ⟨hterminating, hposted, hfreed⟩ := h
      cases hstep
      cases hthread : life.thread <;> constructor <;> simp_all
    · contradiction
  | startTornDown | call | openUv _ _ | callback | ref | free _ =>
    simp only [step] at hstep
    split at hstep
    · cases hstep
      exact h.frame rfl rfl rfl (List.Subset.refl _)
    · contradiction
  | onDestroy =>
    simp only [step] at hstep
    split at hstep
    · exact destroyed_stepDestroy h hstep
    · contradiction
  | onThread =>
    simp only [step] at hstep
    split at hstep
    · obtain ⟨hhost, hthread, hposted, hstate, _⟩ := stepThread_frame hstep
      exact h.frame hhost hthread hposted hstate
    · contradiction
  | wire label =>
    obtain ⟨wire, party, _, _, rfl⟩ := stepWire_cases hstep
    exact h.frame rfl rfl rfl (List.Subset.refl _)

theorem destroyed (h : system.Reachable life) : life.Destroyed := by
  refine h.invariant (I := Destroyed) ?_ fun life label next _ hdestroyed hstep =>
    destroyed_step hdestroyed hstep
  rintro life ⟨toUv, toThread, rfl⟩
  constructor <;> simp [ofWire]

theorem Forgotten.step (h : life.Forgotten) (hstep : life.step label = some next) :
    next.Forgotten := by
  obtain ⟨hstarted, hthread⟩ := h
  cases label with
  | start =>
    simp only [Life.step] at hstep
    split at hstep
    · rename_i henabled
      exact absurd henabled.2 hstarted
    · contradiction
  | startFails =>
    simp only [Life.step] at hstep
    split at hstep
    · cases hstep
      exact ⟨hstarted, rfl⟩
    · contradiction
  | openUv _ _ =>
    simp only [Life.step] at hstep
    split at hstep
    · cases hstep
      exact ⟨by simp, hthread⟩
    · contradiction
  | startTornDown | call | callback | destroy | ref | free _ =>
    simp only [Life.step] at hstep
    split at hstep
    · cases hstep
      exact ⟨hstarted, hthread⟩
    · contradiction
  | onDestroy =>
    simp only [Life.step] at hstep
    split at hstep
    · unfold stepDestroy at hstep
      split at hstep
      · contradiction
      · contradiction
      all_goals
        cases hstep
        exact ⟨hstarted, hthread⟩
    · contradiction
  | onThread =>
    simp only [Life.step] at hstep
    split at hstep
    · obtain ⟨_, hsame, _, _, hpresent⟩ := stepThread_frame hstep
      exact ⟨hpresent, hsame.trans hthread⟩
    · contradiction
  | wire label =>
    obtain ⟨wire, party, _, _, rfl⟩ := stepWire_cases hstep
    exact ⟨hstarted, hthread⟩

/-- The host frees the state of a worklet that it has forgotten to have started. -/
theorem Forgotten.freed (h : life.Forgotten) (hdestroyed : life.Destroyed)
    (hhost : life.host = .closing ∨ life.host = .destroying ∨ life.host = .gone) :
    Party.host ∈ life.stateFrees := by
  apply hdestroyed.freed
  rcases hhost with hclosing | hdestroying | hgone
  · exact Or.inl hclosing
  · exact Or.inr (Or.inl hdestroying)
  · refine Or.inr (Or.inr ⟨hgone, ?_⟩)
    rw [← Bool.not_eq_true]
    intro hposted
    have hthread := hdestroyed.terminating (Or.inr (Or.inr hposted))
    rw [h.2] at hthread
    contradiction

end Life

/-- The queue and the state of a worklet are each freed once, by the last to let go of the
queue and by the one who has the state, and are not accessed after that, as long as no
start fails for want of a thread once another has succeeded. After such a start, the host
frees the state when it destroys the worklet, although the worklet has started. -/
theorem bareWorklet_sharedOwnership (life : Life) :
    ((Life.system.guard Life.Starts).Reachable life →
      life.queueFrees.length ≤ 1 ∧
      (life.LetGo ∧ life.wire.HostLetGo → life.freeing.length + life.queueFrees.length = 1) ∧
      (¬ (life.LetGo ∧ life.wire.HostLetGo) → life.freeing = [] ∧ life.queueFrees = []) ∧
      life.stateFrees = life.statesFreed ∧
      life.fault = false ∧
      (life.host = .gone → life.Over ∨ ∃ label, Life.Unaided label ∧ (life.step label).isSome)) ∧
    ∀ next last labels, Life.system.Reachable life → ¬ life.Starts .startFails →
      life.step .startFails = some next → Life.system.run next labels = some last →
      last.host = .closing ∨ last.host = .destroying ∨ last.host = .gone →
      last.worklet ≠ .absent ∧ Party.host ∈ last.stateFrees := by
  constructor
  · intro h
    obtain ⟨hcontrol, hshared⟩ := Life.control_shared h
    have hunowned : bareQueueUnowned life.wire.queue = true ↔ life.LetGo ∧ life.wire.HostLetGo := by
      rw [Wire.unowned_iff, hshared.destroyed,
        Wire.hostLetGo_iff (Wire.sound hshared.wire) (Wire.hosted hshared.wire)]
    have hsettled := hshared.settled
    refine ⟨?_, ?_, ?_, hcontrol.stateFrees, hshared.fault, Life.over_or_step hcontrol hshared⟩
    · split at hsettled <;> omega
    · intro hgone
      rw [hsettled, if_pos (hunowned.mpr hgone)]
    · intro hkept
      exact hshared.unfreed (Bool.eq_false_iff.mpr fun hfree => hkept (hunowned.mp hfree))
  · intro next last labels h hlate hstep hrun hhost
    have hnext : Life.system.Reachable next := h.next .startFails hstep
    have hforgotten : next.Forgotten := by
      simp only [Life.step] at hstep
      split at hstep
      · cases hstep
        exact ⟨hlate, rfl⟩
      · contradiction
    have hlast : last.Forgotten :=
      hnext.persists hforgotten (fun _ _ _ _ hkept hstep => Life.Forgotten.step hkept hstep) hrun
    exact ⟨hlast.1, hlast.freed (Life.destroyed (hnext.run hrun)) hhost⟩

def Life.created : Life := Life.ofWire (Wire.ofQueue (bareQueueCreate Slots.blank Slots.blank))

def Life.running : Life :=
  Life.system.result Life.created [.start, .onThread, .onThread, .openUv none none, .onThread]
    (by decide +kernel)

def Life.startedTwice : Life :=
  Life.system.result Life.running [.startFails, .destroy, .onDestroy] (by decide +kernel)

theorem Life.running_reachable : Life.system.Reachable Life.running :=
  .result (S := Life.system) ⟨_, _, rfl⟩ _ _

def Life.closedLast : Life :=
  (Life.system.guard Life.Starts).result Life.created
    [.startFails, .start, .onThread, .onThread, .openUv none none, .onThread,
      .wire (.ipcCreate 1 2), .destroy, .onDestroy, .onDestroy, .onThread, .onThread, .onThread,
      .onThread, .onThread, .onThread, .onThread, .onThread, .wire .ipcClose] (by decide +kernel)

/-- The calls on the ipc free the queue of a worklet whose thread is gone, and a worklet
that was started twice loses its state. -/
theorem bareWorklet_sharedOwnership_closedLast :
    (Life.closedLast.freeing.length + Life.closedLast.queueFrees.length = 1 ∧
        Life.closedLast.freeing = [.ipc]) ∧ Party.host ∈ Life.startedTwice.stateFrees := by
  refine ⟨⟨?_, by decide +kernel⟩, ?_⟩
  · exact ((bareWorklet_sharedOwnership Life.closedLast).1
      (.result (S := Life.system.guard Life.Starts) ⟨_, _, rfl⟩ _ _)).2.1
        ⟨by decide +kernel, Or.inr (Or.inl (by decide +kernel))⟩
  · exact ((bareWorklet_sharedOwnership Life.running).2 { Life.running with thread := false }
      Life.startedTwice [.destroy, .onDestroy] Life.running_reachable (by decide +kernel) rfl rfl
      (by decide +kernel)).2

/-- A worklet that runs loses its state to a host that takes it for one that never
started. -/
theorem bareWorklet_sharedOwnership_startedTwice :
    ¬ ∀ life, Life.system.Reachable life → life.fault = false := by
  intro h
  have hfault := h (Life.system.result Life.running [.startFails, .destroy, .onDestroy, .callback]
    (by decide +kernel)) (Life.running_reachable.run (Option.some_get _).symm)
  revert hfault
  decide +kernel

end BareKit
