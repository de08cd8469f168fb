import BareKit.Stopping

/-! The events and the callback of a poll are stored and loaded one after the other. Each
start is numbered here, and the number goes with what it stores, to tell whose callback and
whose events a dispatch has put together. -/
namespace BareKit

/-- A call of the callback, with the starts whose callback and whose events it is made of. -/
structure Invocation where
  cb : Pointer
  ready : Events
  cbBy : Option Nat
  eventsBy : Option Nat
  deriving DecidableEq, Repr

/-- `starts` has what each start was called with, and `pending` those that have stored their
events and not their callback. -/
structure Paired extends Polled where
  starts : List (Events × Pointer) := []
  pending : List Nat := []
  cbBy : Option Nat := none
  eventsBy : Option Nat := none
  loadedCbBy : Option Nat := none
  loadedEventsBy : Option Nat := none
  invocations : List Invocation := []

inductive PairedStep where
  | poll (step : PollStep)
  /-- The store of the callback, by the start of that number. -/
  | startCb (number : Nat)

def PollStep.storesCb : PollStep → Bool
  | .startCb _ => true
  | _ => false

def Events.within (ready events : Events) : Prop :=
  (ready.readable = true → events.readable = true) ∧
    (ready.writable = true → events.writable = true)

def Invocation.Whole (invocation : Invocation) (starts : List (Events × Pointer)) : Prop :=
  ∃ number events, invocation.cbBy = some number ∧ invocation.eventsBy = some number ∧
    starts[number]? = some (events, invocation.cb) ∧ invocation.ready ≠ Events.none ∧
    invocation.ready.within events

namespace Paired

def follow (paired : Paired) (label : PollStep) (next : Polled) : Paired :=
  match label with
  | .start events cb =>
    { paired with
      toPolled := next
      starts := paired.starts ++ [(events, cb)]
      pending := paired.starts.length :: paired.pending
      eventsBy := some paired.starts.length }
  | .stop => { paired with toPolled := next, eventsBy := none }
  | .stopCb => { paired with toPolled := next, cbBy := none }
  | .loadCb => { paired with toPolled := next, loadedCbBy := paired.cbBy }
  | .loadEvents => { paired with toPolled := next, loadedEventsBy := paired.eventsBy }
  | .call =>
    { paired with
      toPolled := next
      invocations :=
        match next.dispatch with
        | .running cb ready _ =>
          ⟨cb, ready, paired.loadedCbBy, paired.loadedEventsBy⟩ :: paired.invocations
        | _ => paired.invocations }
  | _ => { paired with toPolled := next }

def step (paired : Paired) : PairedStep → Option Paired
  | .poll label =>
    if label.storesCb then none else (paired.toPolled.step label).map (paired.follow label)
  | .startCb number =>
    if number ∈ paired.pending then
      paired.starts[number]?.bind fun start =>
        (paired.toPolled.step (.startCb start.2)).map fun next =>
          { paired with
            toPolled := next
            pending := paired.pending.erase number
            cbBy := some number }
    else none

def system : Transition.System Paired PairedStep where
  init paired := ∃ polled, Polled.system.init polled ∧ paired = { toPolled := polled }
  step := step

/-- There is a callback to be called, with events to call it for. -/
def inUse (paired : Paired) : Bool :=
  paired.poll.any fun poll => poll.cb.isSome && poll.events != Events.none

/-- No start begins while another has only stored its events, or while a dispatch has only
loaded the callback, and no dispatch loads the callback of a poll that is in use while a
start has only stored its events. -/
def Exclusive (paired : Paired) (label : PairedStep) : Prop :=
  match label with
  | .poll (.start _ _) => paired.pending = [] ∧ paired.dispatch.halfLoaded = false
  | .poll .loadCb => paired.pending = [] ∨ paired.inUse = false
  | _ => True

instance (paired : Paired) (label : PairedStep) : Decidable (paired.Exclusive label) := by
  unfold Exclusive
  split <;> infer_instance

variable {paired next : Paired} {label : PairedStep} {number : Option Nat} {events : Events}
  {cb : Pointer}

def Started (starts : List (Events × Pointer)) (number : Option Nat) (events : Events)
    (cb : Pointer) :
    Prop :=
  ∃ n, number = some n ∧ starts[n]? = some (events, cb)

theorem Started.append {starts : List (Events × Pointer)} (h : Started starts number events cb)
    (others : List (Events × Pointer)) : Started (starts ++ others) number events cb := by
  obtain ⟨n, hnumber, hstart⟩ := h
  refine ⟨n, hnumber, ?_⟩
  rw [List.getElem?_append_left (List.getElem?_eq_some_iff.mp hstart).1]
  exact hstart

theorem Started.same {starts : List (Events × Pointer)} {otherEvents : Events} {otherCb : Pointer}
    (h : Started starts number events cb) (hother : Started starts number otherEvents otherCb) :
    events = otherEvents ∧ cb = otherCb := by
  obtain ⟨n, rfl, hstart⟩ := h
  obtain ⟨m, hnumber, hsecond⟩ := hother
  cases hnumber
  rw [hstart] at hsecond
  exact Prod.mk.inj (Option.some.inj hsecond)

/-- Events that a dispatch has loaded are of the start whose callback it has loaded. -/
def Told (paired : Paired) (cb : Pointer) (ready : Events) : Prop :=
  ready ≠ Events.none → paired.loadedEventsBy = paired.loadedCbBy ∧
    ∃ events, Started paired.starts paired.loadedCbBy events cb ∧ ready.within events

theorem Told.mask {ready masked : Events} (h : paired.Told cb ready)
    (hwithin : masked.within ready) :
    paired.Told cb masked := by
  intro hmasked
  have hready : ready ≠ Events.none := by
    rintro rfl
    apply hmasked
    obtain ⟨readable, writable⟩ := masked
    cases readable <;> cases writable <;> simp [Events.within, Events.none] at hwithin ⊢
  obtain ⟨hsame, installed, hstarted, hinstalled⟩ := h hready
  refine ⟨hsame, installed, hstarted, ?_, ?_⟩
  · exact fun hset => hinstalled.1 (hwithin.1 hset)
  · exact fun hset => hinstalled.2 (hwithin.2 hset)

theorem maskReadable_within (queue : Queue) (ipc : Ipc) (ready : Events) :
    (bareIpcMaskReadable queue ipc ready).within ready := by
  unfold bareIpcMaskReadable
  split
  · exact ⟨fun hset => by contradiction, id⟩
  · exact ⟨id, id⟩

theorem maskWritable_within (queue : Queue) (ipc : Ipc) (ready : Events) :
    (bareIpcMaskWritable queue ipc ready).within ready := by
  unfold bareIpcMaskWritable
  split
  · exact ⟨id, fun hset => by contradiction⟩
  · exact ⟨id, id⟩

structure Matched (paired : Paired) : Prop where
  pending : paired.pending = [] ∨ ∃ n, paired.pending = [n]
  cb : ∀ poll cb, paired.poll = some poll → poll.cb = some cb →
    ∃ events, Started paired.starts paired.cbBy events cb
  events : ∀ poll, paired.poll = some poll → poll.events ≠ Events.none →
    ∃ cb, Started paired.starts paired.eventsBy poll.events cb
  stored : paired.pending = [] → ∀ poll, paired.poll = some poll → poll.cb ≠ none →
    poll.events ≠ Events.none → paired.eventsBy = paired.cbBy
  half : ∀ n poll, paired.pending = [n] → paired.poll = some poll → poll.events ≠ Events.none →
    paired.eventsBy = some n
  loaded : ∀ cb, paired.dispatch = .loaded cb →
    (∃ events, Started paired.starts paired.loadedCbBy events cb) ∧
      ∀ poll, paired.poll = some poll → poll.events ≠ Events.none →
        paired.eventsBy = paired.loadedCbBy
  told : ∀ cb ready, paired.dispatch = .ready cb ready ∨ paired.dispatch = .locked cb ready ∨
    paired.dispatch = .unlocked cb ready → paired.Told cb ready
  invocations : ∀ invocation ∈ paired.invocations, invocation.Whole paired.starts

theorem Matched.turn (h : paired.Matched) {polled : Polled} (hpoll : polled.poll = paired.poll)
    (hloaded : ∀ cb, polled.dispatch = .loaded cb → paired.dispatch = .loaded cb)
    (htold : ∀ cb ready, polled.dispatch = .ready cb ready ∨ polled.dispatch = .locked cb ready ∨
      polled.dispatch = .unlocked cb ready → paired.Told cb ready) :
    Matched { paired with toPolled := polled } := by
  refine ⟨h.pending, ?_, ?_, ?_, ?_, ?_, htold, h.invocations⟩
  · intro poll cb hsome hcb
    exact h.cb poll cb (hpoll ▸ hsome) hcb
  · intro poll hsome hevents
    exact h.events poll (hpoll ▸ hsome) hevents
  · intro hnone poll hsome hcb hevents
    exact h.stored hnone poll (hpoll ▸ hsome) hcb hevents
  · intro n poll hhalf hsome hevents
    exact h.half n poll hhalf (hpoll ▸ hsome) hevents
  · intro cb hdispatch
    obtain ⟨hstarted, hevents⟩ := h.loaded cb (hloaded cb hdispatch)
    exact ⟨hstarted, fun poll hsome => hevents poll (hpoll ▸ hsome)⟩

theorem Matched.start (h : paired.Matched) {poll : Poll} (hpoll : paired.poll = some poll)
    (hpending : paired.pending = []) (hloaded : paired.dispatch.halfLoaded = false)
    {polled : Polled} (hsome : polled.poll = some { poll with events })
    (hdispatch : polled.dispatch = paired.dispatch) :
    (paired.follow (.start events cb) polled).Matched := by
  refine ⟨Or.inr ⟨paired.starts.length, by rw [follow, hpending]⟩, ?_, ?_, ?_, ?_, ?_, ?_, ?_⟩
  · intro other callback hother hcb
    rw [follow, hsome] at hother
    cases hother
    obtain ⟨installed, hstarted⟩ := h.cb poll callback hpoll hcb
    exact ⟨installed, hstarted.append _⟩
  · intro other hother _
    rw [follow, hsome] at hother
    cases hother
    exact ⟨cb, paired.starts.length, rfl, by simp [follow]⟩
  · intro hnone
    simp [follow] at hnone
  · intro n other hhalf _ _
    simp only [follow, List.cons.injEq] at hhalf
    exact congrArg some hhalf.1
  · intro callback hhalf
    rw [follow, hdispatch] at hhalf
    rw [hhalf] at hloaded
    contradiction
  · intro callback ready htelling hready
    rw [follow, hdispatch] at htelling
    obtain ⟨hsame, installed, hstarted, hwithin⟩ := h.told callback ready htelling hready
    exact ⟨hsame, installed, hstarted.append _, hwithin⟩
  · intro invocation hmem
    obtain ⟨n, installed, hcb, hevents, hstart, hrest⟩ := h.invocations invocation hmem
    refine ⟨n, installed, hcb, hevents, ?_, hrest⟩
    rw [follow, List.getElem?_append_left (List.getElem?_eq_some_iff.mp hstart).1]
    exact hstart

theorem Matched.startCb (h : paired.Matched) {poll : Poll} (hpoll : paired.poll = some poll)
    {n : Nat}
    (hmem : n ∈ paired.pending) (hstart : paired.starts[n]? = some (events, cb)) {polled : Polled}
    (hsome : polled.poll = some { poll with cb := some cb })
    (hdispatch : polled.dispatch = paired.dispatch) :
    Matched { paired with
      toPolled := polled, pending := paired.pending.erase n, cbBy := some n } := by
  have hone : paired.pending = [n] := by
    rcases h.pending with hnone | ⟨m, hone⟩
    · simp [hnone] at hmem
    · rw [hone, List.mem_singleton] at hmem
      rw [hone, hmem]
  have hhalf := h.half n poll hone hpoll
  refine ⟨Or.inl (by simp [hone]), ?_, ?_, ?_, ?_, ?_, ?_, h.invocations⟩
  · intro other callback hother hcb
    rw [hsome] at hother
    cases hother
    cases hcb
    exact ⟨events, n, rfl, hstart⟩
  · intro other hother
    rw [hsome] at hother
    cases hother
    exact h.events poll hpoll
  · intro _ other hother _ hevents
    rw [hsome] at hother
    cases hother
    exact hhalf hevents
  · intro m other hlater
    simp [hone] at hlater
  · intro callback hloaded
    rw [hdispatch] at hloaded
    obtain ⟨hstarted, hevents⟩ := h.loaded callback hloaded
    refine ⟨hstarted, fun other hother => ?_⟩
    rw [hsome] at hother
    cases hother
    exact hevents poll hpoll
  · intro callback ready htelling
    rw [hdispatch] at htelling
    exact h.told callback ready htelling

theorem Matched.clear (h : paired.Matched) {polled : Polled}
    (hdispatch : polled.dispatch = paired.dispatch)
    {cbBy eventsBy : Option Nat}
    (hcb : ∀ poll, polled.poll = some poll → poll.cb = none ∨
      cbBy = paired.cbBy ∧ ∃ before, paired.poll = some before ∧ before.cb = poll.cb)
    (hevents : ∀ poll, polled.poll = some poll → poll.events = Events.none ∨
      eventsBy = paired.eventsBy ∧ ∃ before, paired.poll = some before ∧
      before.events = poll.events)
    (hpair : ∀ poll, polled.poll = some poll → poll.cb = none ∨ poll.events = Events.none) :
    Matched { paired with toPolled := polled, cbBy, eventsBy } := by
  refine ⟨h.pending, ?_, ?_, ?_, ?_, ?_, ?_, h.invocations⟩
  · intro poll callback hsome hcallback
    rcases hcb poll hsome with hnull | ⟨rfl, before, hbefore, hsame⟩
    · rw [hnull] at hcallback
      contradiction
    · exact h.cb before callback hbefore (hsame.trans hcallback)
  · intro poll hsome hasked
    rcases hevents poll hsome with hnone | ⟨rfl, before, hbefore, hsame⟩
    · exact absurd hnone hasked
    · rw [← hsame] at hasked ⊢
      exact h.events before hbefore hasked
  · intro _ poll hsome hset hasked
    rcases hpair poll hsome with hnull | hnone
    · exact absurd hnull hset
    · exact absurd hnone hasked
  · intro n poll hone hsome hasked
    rcases hevents poll hsome with hnone | ⟨rfl, before, hbefore, hsame⟩
    · exact absurd hnone hasked
    · rw [← hsame] at hasked
      exact h.half n before hone hbefore hasked
  · intro callback hloaded
    rw [hdispatch] at hloaded
    obtain ⟨hstarted, hmatched⟩ := h.loaded callback hloaded
    refine ⟨hstarted, fun poll hsome hasked => ?_⟩
    rcases hevents poll hsome with hnone | ⟨rfl, before, hbefore, hsame⟩
    · exact absurd hnone hasked
    · rw [← hsame] at hasked
      exact hmatched before hbefore hasked
  · intro callback ready htelling
    rw [hdispatch] at htelling
    exact h.told callback ready htelling

theorem Matched.loadCb (h : paired.Matched) {poll : Poll} (hpoll : paired.poll = some poll)
    (hcb : poll.cb = some cb) (hexclusive : paired.pending = [] ∨ paired.inUse = false)
    {polled : Polled}
    (hsome : polled.poll = paired.poll) (hdispatch : polled.dispatch = .loaded cb) :
    Matched { paired with toPolled := polled, loadedCbBy := paired.cbBy } := by
  refine ⟨h.pending, ?_, ?_, ?_, ?_, ?_, ?_, h.invocations⟩
  · intro other callback hother
    exact h.cb other callback (hsome ▸ hother)
  · intro other hother
    exact h.events other (hsome ▸ hother)
  · intro hnone other hother
    exact h.stored hnone other (hsome ▸ hother)
  · intro n other hone hother
    exact h.half n other hone (hsome ▸ hother)
  · intro callback hloaded
    rw [hdispatch] at hloaded
    cases hloaded
    refine ⟨h.cb poll cb hpoll hcb, fun other hother hasked => ?_⟩
    rw [hsome, hpoll] at hother
    cases hother
    rcases hexclusive with hnone | hunused
    · exact h.stored hnone poll hpoll (by simp [hcb]) hasked
    · simp [inUse, hpoll, hcb, hasked] at hunused
  · rintro callback ready (htelling | htelling | htelling) <;>
      · rw [hdispatch] at htelling
        contradiction

theorem Matched.loadEvents (h : paired.Matched) {poll : Poll} (hpoll : paired.poll = some poll)
    (hloaded : paired.dispatch = .loaded cb) {polled : Polled} (hsome : polled.poll = paired.poll)
    (hdispatch : polled.dispatch = .ready cb poll.events) :
    Matched { paired with toPolled := polled, loadedEventsBy := paired.eventsBy } := by
  obtain ⟨⟨installed, hstarted⟩, hmatched⟩ := h.loaded cb hloaded
  refine ⟨h.pending, ?_, ?_, ?_, ?_, ?_, ?_, h.invocations⟩
  · intro other callback hother
    exact h.cb other callback (hsome ▸ hother)
  · intro other hother
    exact h.events other (hsome ▸ hother)
  · intro hnone other hother
    exact h.stored hnone other (hsome ▸ hother)
  · intro n other hone hother
    exact h.half n other hone (hsome ▸ hother)
  · intro callback hother
    rw [hdispatch] at hother
    contradiction
  · rintro callback ready (htelling | htelling | htelling) <;> rw [hdispatch] at htelling
    · cases htelling
      intro hasked
      have hsame := hmatched poll hpoll hasked
      obtain ⟨other, hevents⟩ := h.events poll hpoll hasked
      rw [hsame] at hevents
      obtain ⟨rfl, rfl⟩ := hstarted.same hevents
      exact ⟨hsame, _, hstarted, id, id⟩
    · contradiction
    · contradiction

theorem Matched.poll (h : paired.Matched) {step : PollStep} {polled : Polled}
    (hexclusive : paired.Exclusive (.poll step)) (hstores : step.storesCb = false)
    (hstep : paired.toPolled.step step = some polled) : (paired.follow step polled).Matched := by
  cases Polled.move_step hstep with
  | wire _ _ => exact h.turn rfl (fun _ => id) h.told
  | callback hdispatch _ _ => exact h.turn rfl (by simp) (by simp)
  | create _ _ =>
    refine h.clear ?_ (fun poll hpoll => Or.inl ?_) (fun poll hpoll => Or.inl ?_)
      (fun poll hpoll => Or.inl ?_)
    · rfl
    all_goals
      cases hpoll
      rfl
  | start hpoll _ => exact h.start hpoll hexclusive.1 hexclusive.2 rfl rfl
  | startCb _ _ => contradiction
  | startSignal _ _ hsignalled =>
    subst hsignalled
    exact h.turn rfl (fun _ => id) h.told
  | stop hpoll =>
    refine h.clear ?_ (fun poll hnext => Or.inr ⟨rfl, _, hpoll, ?_⟩) (fun poll hnext => Or.inl ?_)
      (fun poll hnext => Or.inr ?_)
    · rfl
    all_goals
      cases hnext
      rfl
  | stopCb hpoll _ =>
    refine h.clear ?_ (fun poll hnext => Or.inl ?_) (fun poll hnext => Or.inr ⟨rfl, _, hpoll, ?_⟩)
      (fun poll hnext => Or.inl ?_)
    · rfl
    all_goals
      cases hnext
      rfl
  | wake _ _ => exact h.turn rfl (by simp) (by simp)
  | @loadNull _ _ =>
    have hidle : Matched { paired with toPolled := { paired.toPolled with dispatch := .idle } } :=
      h.turn rfl (by simp) (by simp)
    exact ⟨hidle.pending, hidle.cb, hidle.events, hidle.stored, hidle.half,
      fun cb hloaded => by contradiction, by simp [follow], hidle.invocations⟩
  | loadCb _ hcb =>
    obtain ⟨poll, hpoll, hset⟩ := Option.bind_eq_some_iff.mp hcb
    exact h.loadCb hpoll hset hexclusive rfl rfl
  | loadEvents hdispatch hpoll => exact h.loadEvents hpoll hdispatch rfl rfl
  | @maskReadable ipc _ ready hdispatch _ _ =>
    refine h.turn rfl (by simp) ?_
    rintro cb masked (htelling | htelling | htelling) <;> cases htelling
    exact (h.told _ ready (Or.inl hdispatch)).mask (maskReadable_within _ ipc ready)
  | @maskWritable ipc _ ready hdispatch _ _ =>
    refine h.turn rfl (by simp) ?_
    rintro cb masked (htelling | htelling | htelling) <;> cases htelling
    exact (h.told _ ready (Or.inr (Or.inl hdispatch))).mask (maskWritable_within _ ipc ready)
  | skip _ => exact h.turn rfl (by simp) (by simp)
  | @call cb ready hdispatch hready =>
    have hrunning :
        Matched { paired with
          toPolled := { paired.toPolled with dispatch := .running cb ready false } } :=
      h.turn rfl (by simp) (by simp)
    refine ⟨hrunning.pending, hrunning.cb, hrunning.events, hrunning.stored, hrunning.half,
      hrunning.loaded, hrunning.told, ?_⟩
    intro invocation hmem
    rcases List.mem_cons.mp hmem with rfl | hold
    · obtain ⟨hsame, events, ⟨n, hcbBy, hstart⟩, hwithin⟩ :=
        h.told cb ready (Or.inr (Or.inr hdispatch)) hready
      exact ⟨n, events, hcbBy, hsame.trans hcbBy, hstart, hready, hwithin⟩
    · exact h.invocations invocation hold
  | leave _ => exact h.turn rfl (by simp) (by simp)

theorem Matched.step (h : paired.Matched) (hexclusive : paired.Exclusive label)
    (hstep : paired.step label = some next) : next.Matched := by
  cases label with
  | poll step =>
    simp only [Paired.step] at hstep
    split at hstep
    · contradiction
    · rename_i hstores
      obtain ⟨polled, hpolled, rfl⟩ := Option.map_eq_some_iff.mp hstep
      exact h.poll hexclusive (eq_false_of_ne_true hstores) hpolled
  | startCb n =>
    simp only [Paired.step] at hstep
    split at hstep
    · rename_i hmem
      obtain ⟨⟨events, cb⟩, hstart, hrest⟩ := Option.bind_eq_some_iff.mp hstep
      obtain ⟨polled, hpolled, rfl⟩ := Option.map_eq_some_iff.mp hrest
      cases Polled.move_step hpolled with
      | startCb hpoll _ => exact h.startCb hpoll hmem hstart rfl rfl
    · contradiction

theorem matched (h : (system.guard Exclusive).Reachable paired) : paired.Matched := by
  refine h.invariant (I := Matched) ?_ fun paired label next _ hmatched hstep => ?_
  · rintro paired ⟨polled, ⟨toUv, toThread, rfl⟩, rfl⟩
    exact ⟨Or.inl rfl, by simp, by simp, by simp, by simp, by simp, by simp, by simp⟩
  · obtain ⟨hexclusive, hnext⟩ := Transition.System.guard_step.mp hstep
    exact hmatched.step hexclusive hnext

/-- The events of a start that begins between the two loads are loaded with the callback of
another. -/
theorem loadEvents_restarted {other : Pointer} (hdispatch : paired.dispatch = .loaded cb)
    (hstep : paired.step (.poll (.start events other)) = some next) :
    ∃ last, next.step (.poll .loadEvents) = some last ∧ last.dispatch = .ready cb events ∧
      last.loadedCbBy = paired.loadedCbBy ∧ last.loadedEventsBy = some paired.starts.length := by
  obtain ⟨polled, hpolled, rfl⟩ := Option.map_eq_some_iff.mp hstep
  cases Polled.move_step hpolled with
  | start hpoll _ =>
    simp [Paired.step, PollStep.storesCb, follow, Polled.step, hdispatch, Polled.stepDispatch]

end Paired

/-- In a run where starts exclude one another, and the two stores of one and the two loads
of a dispatch do too, each call of the callback is told of events that the start of this
callback asked for. A start between the two loads has its events told to another's. -/
theorem bareIpcDispatch_pairs (paired : Paired) :
    ((Paired.system.guard Paired.Exclusive).Reachable paired →
      ∀ invocation ∈ paired.invocations, invocation.Whole paired.starts) ∧
    ∀ cb other events next, Paired.system.Reachable paired → paired.dispatch = .loaded cb →
      paired.step (.poll (.start events other)) = some next →
      ∃ last, next.step (.poll .loadEvents) = some last ∧ last.dispatch = .ready cb events ∧
        last.loadedCbBy = paired.loadedCbBy ∧ last.loadedEventsBy = some paired.starts.length :=
  ⟨fun h => (Paired.matched h).invocations, fun _ _ _ _ _ hdispatch hstep =>
    Paired.loadEvents_restarted hdispatch hstep⟩

def Paired.halfLoaded : Paired :=
  Paired.system.result { wire := Wire.ofQueue (bareQueueCreate Slots.blank Slots.blank) }
    [.poll (.wire (.ipcCreate 0 0)), .poll .create, .poll (.start ⟨true, false⟩ 7), .startCb 0,
      .poll .startSignal, .poll .wake, .poll .loadCb] (by decide +kernel)

theorem Paired.halfLoaded_reachable : Paired.system.Reachable Paired.halfLoaded :=
  .result (S := Paired.system) ⟨_, ⟨_, _, rfl⟩, rfl⟩ _ _

def Paired.restarted : Paired :=
  (Paired.system.guard Paired.Exclusive).result
    { wire := Wire.ofQueue (bareQueueCreate Slots.blank Slots.blank) }
    [.poll (.wire (.ipcCreate 0 0)), .poll .create, .poll (.start ⟨false, true⟩ 7), .startCb 0,
      .poll .startSignal, .poll .wake, .poll .loadCb, .poll .loadEvents, .poll .maskReadable,
      .poll .maskWritable, .poll .call, .poll .leave, .poll (.start ⟨true, true⟩ 8), .startCb 1,
      .poll .startSignal, .poll .wake, .poll .loadCb, .poll .loadEvents, .poll .maskReadable,
      .poll .maskWritable, .poll .call] (by decide +kernel)

theorem bareIpcDispatch_pairs_restarted :
    (∀ invocation ∈ [⟨8, ⟨false, true⟩, some 1, some 1⟩, ⟨7, ⟨false, true⟩, some 0, some 0⟩],
      Invocation.Whole invocation Paired.restarted.starts) ∧
    ∃ next last, Paired.halfLoaded.step (.poll (.start ⟨false, true⟩ 8)) = some next ∧
      next.step (.poll .loadEvents) = some last ∧ last.dispatch = .ready 7 ⟨false, true⟩ := by
  constructor
  · intro invocation hmem
    refine (bareIpcDispatch_pairs Paired.restarted).1
      (.result (S := Paired.system.guard Paired.Exclusive) ⟨_, ⟨_, _, rfl⟩, rfl⟩ _ _) invocation ?_
    rw [show Paired.restarted.invocations = _ from rfl]
    exact hmem
  · obtain ⟨last, hlast, hdispatch, -⟩ :=
      (bareIpcDispatch_pairs Paired.halfLoaded).2 7 8 ⟨false, true⟩
      _ Paired.halfLoaded_reachable (by decide +kernel) (Option.some_get
        (show (Paired.halfLoaded.step
          (.poll (.start ⟨false, true⟩ 8))).isSome by decide +kernel)).symm
    exact ⟨_, last, (Option.some_get _).symm, hlast, hdispatch⟩

/-- A callback that was started for readable is told of writable, which another start
asked for. -/
theorem bareIpcDispatch_pairs_mixed : ¬ ∀ paired, Paired.system.Reachable paired →
    ∀ invocation ∈ paired.invocations, invocation.Whole paired.starts := by
  intro hclaim
  have hwhole := hclaim (Paired.system.result Paired.halfLoaded
    [.poll (.start ⟨false, true⟩ 8), .poll .loadEvents, .poll .maskReadable, .poll .maskWritable,
      .poll .call] (by decide +kernel)) (Paired.halfLoaded_reachable.run (Option.some_get _).symm)
    ⟨7, ⟨false, true⟩, some 0, some 1⟩ (by decide +kernel)
  obtain ⟨n, events, hcb, hevents, -⟩ := hwhole
  simp only [Option.some.injEq] at hcb hevents
  omega

end BareKit
