import BareKit.Shares
import BareKit.Standalone

/-! Destroying a poll or an ipc waits for the callback, unless it is called from it. The
lock of the signal keeps the two threads apart: who clears a pointer holds it, and so does
the thread of the poll from where it reads the pointer to the end of the callback. -/
namespace BareKit

namespace Teardown

def ofPoll : Teardown → Bool
  | .stopping | .stoppingCb | .pollLocking | .detaching | .pollUnlocking | .pollFreeing => true
  | _ => false

def ofIpc (teardown : Teardown) : Bool := !teardown.ofPoll

def locked : Teardown → Bool
  | .detaching | .pollUnlocking | .clearing | .unlocking => true
  | _ => false

/-- `ipc->poll` was cleared. -/
def detached : Teardown → Bool
  | .pollUnlocking | .pollFreeing => true
  | _ => false

def shut : Teardown → Bool
  | .releasing | .locking | .clearing | .unlocking | .sending | .leaving | .signalFreeing
  | .freeing => true
  | _ => false

/-- `signal->ipc` was cleared. -/
def cleared : Teardown → Bool
  | .unlocking | .sending | .leaving | .signalFreeing | .freeing => true
  | _ => false

def sent : Teardown → Bool
  | .leaving | .signalFreeing | .freeing => true
  | _ => false

def joined : Teardown → Bool
  | .signalFreeing | .freeing => true
  | _ => false

end Teardown

namespace OnWake

def locked : OnWake → Bool
  | .waiting | .locking | .finishing | .exited => false
  | _ => true

/-- In `bare_ipc__dispatch`, before the callback. -/
def dispatching : OnWake → Bool
  | .loadingPoll | .loadingCb | .loadingEvents _ | .masking _ _ | .maskingWritable _ _
  | .calling _ _ => true
  | _ => false

/-- In `bare_ipc__dispatch` with a poll, before the callback. -/
def loaded : OnWake → Bool
  | .loadingCb | .loadingEvents _ | .masking _ _ | .maskingWritable _ _ | .calling _ _ => true
  | _ => false

end OnWake

namespace Threads

variable {threads next : Threads} {thread : Thread}

def either (threads : Threads) (point : Teardown → Bool) : Bool :=
  threads.host.any point || (threads.teardown .poll).any point

def sections (threads : Threads) : Thread → Nat
  | .host => (threads.host.any Teardown.locked).toNat
  | .poll => threads.onWake.locked.toNat + ((threads.teardown .poll).any Teardown.locked).toNat

def signalFreed (threads : Threads) : List Thread :=
  match threads.ipcFate with
  | .alive => []
  | .destroying .host => if threads.host = some .freeing then [.host] else []
  | .destroyed .host => [.host]
  | .destroying .poll | .destroyed .poll => if threads.onWake = .exited then [.poll] else []

/-- The thread of the poll is in a call of the callback only where it calls back, and each
thread holds the lock of the signal as often as it is in a section under it. -/
structure Locked (threads : Threads) : Prop where
  level : ∀ thread, threads.running.level thread = threads.sections thread
  callback : threads.callback ≠ .idle → threads.onWake = .running

/-- How far the destroy of the poll has come, and what follows for `ipc->poll`. -/
structure Attached (threads : Threads) : Prop where
  fate : ∀ thread, threads.pollFate = .destroying thread ↔
    (threads.teardown thread).any Teardown.ofPoll = true
  attached : threads.attached = false ↔
    threads.pollFate.freed = true ∨ threads.either Teardown.detached = true
  loaded : threads.onWake.loaded = true → threads.attached = true
  running : threads.onWake = .running → threads.attached = true ∨
    threads.pollFate = .destroyed .poll ∨ (threads.teardown .poll).any Teardown.detached = true

/-- How far the destroy of the ipc has come, and what follows for `signal->ipc`. -/
structure Signalled (threads : Threads) : Prop where
  fate : ∀ thread, threads.ipcFate = .destroying thread ↔
    (threads.teardown thread).any Teardown.ofIpc = true
  order : threads.ipcFate ≠ .alive → threads.pollFate.freed = true
  ipc : threads.ipc = false ↔
    threads.ipcFate.freed = true ∨ threads.either Teardown.cleared = true
  dispatching : threads.onWake.dispatching = true → threads.ipc = true
  running : threads.onWake = .running → threads.ipc = true ∨
    threads.ipcFate = .destroyed .poll ∨ (threads.teardown .poll).any Teardown.cleared = true

structure Looped (threads : Threads) : Prop where
  close : threads.close = true ↔
    threads.ipcFate.freed = true ∨ threads.either Teardown.sent = true
  ended : threads.onWake = .finishing ∨ threads.onWake = .exited → threads.close = true

/-- Who frees the signal: the host once the thread of the poll is gone, or else that thread. -/
structure Freed (threads : Threads) : Prop where
  detached : threads.detached = true ↔
    threads.ipcFate = .destroyed .poll ∨ threads.teardown .poll = some .freeing
  self : threads.teardown .poll ≠ some .signalFreeing
  joined : threads.host.any Teardown.joined = true ∨ threads.ipcFate = .destroyed .host →
    threads.onWake = .exited
  signalFrees : threads.signalFrees = threads.signalFreed

structure Ordered (threads : Threads) : Prop where
  locked : threads.Locked
  attached : threads.Attached
  signalled : threads.Signalled
  looped : threads.Looped
  freed : threads.Freed

def Alike (threads next : Threads) (point : Teardown → Bool) : Prop :=
  ∀ thread, (next.teardown thread).any point = (threads.teardown thread).any point

theorem Alike.either {point : Teardown → Bool} (h : Alike threads next point) :
    next.either point = threads.either point := by
  have hhost : next.host.any point = threads.host.any point := h .host
  rw [Threads.either, Threads.either, hhost, h .poll]

theorem Attached.frame (h : threads.Attached) (honWake : next.onWake = threads.onWake)
    (hattached : next.attached = threads.attached) (hfate : next.pollFate = threads.pollFate)
    (hofPoll : Alike threads next Teardown.ofPoll)
    (hdetached : Alike threads next Teardown.detached) :
    next.Attached := by
  constructor
  · intro thread
    rw [hfate, hofPoll]
    exact h.fate thread
  · rw [hattached, hfate, hdetached.either]
    exact h.attached
  · rw [honWake, hattached]
    exact h.loaded
  · rw [honWake, hattached, hfate, hdetached]
    exact h.running

theorem Signalled.frame (h : threads.Signalled) (honWake : next.onWake = threads.onWake)
    (hipc : next.ipc = threads.ipc) (hfate : next.ipcFate = threads.ipcFate)
    (hpoll : threads.pollFate.freed = true → next.pollFate.freed = true)
    (hofIpc : Alike threads next Teardown.ofIpc) (hcleared : Alike threads next Teardown.cleared) :
    next.Signalled := by
  constructor
  · intro thread
    rw [hfate, hofIpc]
    exact h.fate thread
  · rw [hfate]
    exact fun halive => hpoll (h.order halive)
  · rw [hipc, hfate, hcleared.either]
    exact h.ipc
  · rw [honWake, hipc]
    exact h.dispatching
  · rw [honWake, hipc, hfate, hcleared]
    exact h.running

theorem any_beq (threads : Threads) (thread : Thread) (teardown : Teardown) :
    (threads.teardown thread).any (· == teardown) = true ↔
      threads.teardown thread = some teardown := by
  cases threads.teardown thread <;> simp

theorem Alike.eq {teardown : Teardown} (h : Alike threads next (· == teardown)) (thread : Thread) :
    next.teardown thread = some teardown ↔ threads.teardown thread = some teardown := by
  rw [← any_beq, ← any_beq, h]

theorem Looped.frame (h : threads.Looped) (honWake : next.onWake = threads.onWake)
    (hclose : next.close = threads.close) (hfate : next.ipcFate = threads.ipcFate)
    (hsent : Alike threads next Teardown.sent) : next.Looped := by
  constructor
  · rw [hclose, hfate, hsent.either]
    exact h.close
  · rw [honWake, hclose]
    exact h.ended

theorem Freed.frame (h : threads.Freed) (honWake : next.onWake = threads.onWake)
    (hdetached : next.detached = threads.detached) (hfate : next.ipcFate = threads.ipcFate)
    (hfrees : next.signalFrees = threads.signalFrees) (hjoined : Alike threads next Teardown.joined)
    (hfreeing : Alike threads next (· == .freeing))
    (hsignal : Alike threads next (· == .signalFreeing)) : next.Freed := by
  have hfreed : next.signalFreed = threads.signalFreed := by
    have hhost : next.host = some .freeing ↔ threads.host = some .freeing := hfreeing.eq .host
    simp only [signalFreed, hfate, honWake, hhost]
  have hhost : next.host.any Teardown.joined = threads.host.any Teardown.joined := hjoined .host
  constructor
  · rw [hdetached, hfate, hfreeing.eq]
    exact h.detached
  · rw [Ne, hsignal.eq]
    exact h.self
  · rw [honWake, hfate, hhost]
    exact h.joined
  · rw [hfrees, hfreed]
    exact h.signalFrees

theorem Ordered.excludes (h : threads.Ordered) (hhost : threads.host.any Teardown.locked = true) :
    threads.onWake.locked = false := by
  by_contra hlocked
  have hself : 0 < threads.running.level .host := by
    rw [h.locked.level, sections, hhost]
    exact Nat.one_pos
  have hother : 0 < threads.running.level .poll := by
    rw [h.locked.level, sections, eq_true_of_ne_false hlocked]
    exact Nat.lt_of_lt_of_le Nat.one_pos (Nat.le_add_right _ _)
  exact absurd (RecursiveMutex.exclusive hself hother) (by decide)

/-- What the thread of the poll relies on where it is, unless a call of the callback has
destroyed it since. -/
def Admits (threads : Threads) : OnWake → Prop
  | .waiting | .locking | .checking | .unlocking => True
  | .loadingPoll => threads.ipc = true
  | .loadingCb | .loadingEvents _ | .masking _ _ | .maskingWritable _ _ | .calling _ _
  | .running => threads.attached = true ∧ threads.ipc = true
  | .finishing => threads.close = true
  | .exited => False

theorem Ordered.advance (h : threads.Ordered) (after : OnWake) (running : RecursiveMutex Thread)
    (hlevel : ∀ thread, running.level thread =
      sections { threads with onWake := after, running } thread)
    (hcallback : threads.callback = .idle) (hexited : threads.onWake ≠ .exited)
    (hadmits : threads.Admits after) : Ordered { threads with onWake := after, running } := by
  obtain ⟨_, hattached, hsignalled, hlooped, hfreed⟩ := h
  have hends : after ≠ .exited := by
    rintro rfl
    exact hadmits
  refine ⟨⟨hlevel, fun hbusy => absurd hcallback hbusy⟩, ?_, ?_, ⟨hlooped.close, ?_⟩, ?_⟩
  · refine ⟨hattached.fate, hattached.attached, fun hloaded => ?_, ?_⟩
    · revert hloaded hadmits
      cases after <;> simp +contextual [Admits, OnWake.loaded]
    · rintro rfl
      exact Or.inl hadmits.1
  · refine ⟨hsignalled.fate, hsignalled.order, hsignalled.ipc, fun hdispatching => ?_, ?_⟩
    · revert hdispatching hadmits
      cases after <;> simp +contextual [Admits, OnWake.dispatching]
    · rintro rfl
      exact Or.inl hadmits.2
  · rintro (rfl | hgone)
    · exact hadmits
    · exact absurd hgone hends
  · refine ⟨hfreed.detached, hfreed.self, fun hjoined => absurd (hfreed.joined hjoined) hexited, ?_⟩
    refine hfreed.signalFrees.trans ?_
    simp only [signalFreed, hexited, hends]

theorem Ordered.calls (h : threads.Ordered) {activity : Activity}
    (hrunning : threads.onWake = .running)
    (hbefore : threads.teardown .poll = none)
    (hafter : teardown { threads with callback := activity } .poll = none) :
    Ordered { threads with callback := activity } := by
  have hteardown : ∀ thread, teardown { threads with callback := activity } thread =
      threads.teardown thread := by
    intro thread
    cases thread with
    | host => rfl
    | poll => rw [hbefore, hafter]
  have halike : ∀ point, Alike threads { threads with callback := activity } point := by
    intro point thread
    rw [hteardown]
  refine ⟨⟨fun thread => ?_, fun _ => hrunning⟩, ?_, ?_, ?_, ?_⟩
  · refine (h.locked.level thread).trans ?_
    cases thread with
    | host => rfl
    | poll => rw [sections, sections, hteardown]
  · exact h.attached.frame rfl rfl rfl (halike _) (halike _)
  · exact h.signalled.frame rfl rfl rfl id (halike _) (halike _)
  · exact h.looped.frame rfl rfl rfl (halike _)
  · exact h.freed.frame rfl rfl rfl rfl (halike _) (halike _) (halike _)

@[simp] theorem teardown_setTeardown (threads : Threads) (thread : Thread)
    (after : Option Teardown) :
    (threads.setTeardown thread after).teardown thread = after := by
  cases thread with
  | host => rfl
  | poll => cases after <;> rfl

theorem teardown_setTeardown_of_ne {other : Thread} (h : other ≠ thread) (threads : Threads)
    (after : Option Teardown) :
    (threads.setTeardown thread after).teardown other = threads.teardown other := by
  cases thread <;> cases other <;> first | rfl | exact absurd rfl h

theorem Ordered.running_of_teardown (h : threads.Ordered) {before : Teardown}
    (hbefore : threads.teardown .poll = some before) : threads.onWake = .running := by
  apply h.locked.callback
  intro hidle
  simp [teardown, hidle] at hbefore

theorem Alike.setTeardown {after : Option Teardown} {point : Teardown → Bool}
    (hpoint : after.any point = (threads.teardown thread).any point)
    {other : Threads} (hhost : other.host = threads.host)
    (hcallback : other.callback = threads.callback) :
    Alike threads (other.setTeardown thread after) point := by
  have hteardown : ∀ thread, other.teardown thread = threads.teardown thread := by
    intro thread
    cases thread with
    | host => exact hhost
    | poll => rw [teardown, teardown, hcallback]
  intro each
  by_cases heach : each = thread
  · rw [heach, teardown_setTeardown, hpoint]
  · rw [teardown_setTeardown_of_ne heach, hteardown]

theorem Ordered.locked_setTeardown (h : threads.Ordered) {before : Teardown}
    (hbefore : threads.teardown thread = some before) {after : Option Teardown} {other : Threads}
    (hcallback : other.callback = threads.callback) (honWake : other.onWake = threads.onWake)
    (hlevel : ∀ each, other.running.level each = (other.setTeardown thread after).sections each) :
    Locked (other.setTeardown thread after) := by
  refine ⟨hlevel, fun hbusy => ?_⟩
  rw [show (other.setTeardown thread after).onWake = threads.onWake from honWake]
  cases thread with
  | host => exact h.locked.callback (hcallback ▸ hbusy)
  | poll => exact h.running_of_teardown hbefore

theorem sections_setTeardown {before : Teardown} (hbefore : threads.teardown thread = some before)
    {after : Option Teardown} (hlocked : after.any Teardown.locked = before.locked)
    {other : Threads}
    (hhost : other.host = threads.host) (hcallback : other.callback = threads.callback)
    (honWake : other.onWake = threads.onWake) (each : Thread) :
    (other.setTeardown thread after).sections each = threads.sections each := by
  have hpoint : after.any Teardown.locked = (threads.teardown thread).any Teardown.locked := by
    rw [hbefore, hlocked, Option.any_some]
  have halike := Alike.setTeardown hpoint hhost hcallback
  cases each with
  | host => exact congrArg Bool.toNat (halike .host)
  | poll =>
    rw [sections, sections, halike, show (other.setTeardown thread after).onWake = _ from honWake]

theorem Ordered.locked_same (h : threads.Ordered) {before : Teardown}
    (hbefore : threads.teardown thread = some before) {after : Option Teardown}
    (hlocked : after.any Teardown.locked = before.locked) {other : Threads}
    (hhost : other.host = threads.host) (hcallback : other.callback = threads.callback)
    (honWake : other.onWake = threads.onWake) (hrunning : other.running = threads.running) :
    Locked (other.setTeardown thread after) := by
  refine h.locked_setTeardown hbefore hcallback honWake fun each => ?_
  rw [hrunning, sections_setTeardown hbefore hlocked hhost hcallback honWake]
  exact h.locked.level each

def Passes (before after : Teardown) : Prop :=
  after.ofPoll = before.ofPoll ∧ after.detached = before.detached ∧ after.cleared = before.cleared ∧
    after.sent = before.sent ∧ after.joined = before.joined ∧ before ≠ .freeing ∧
    after ≠ .freeing ∧ before ≠ .signalFreeing ∧ after ≠ .signalFreeing

instance (before after : Teardown) : Decidable (Passes before after) :=
  inferInstanceAs (Decidable (_ ∧ _))

theorem Ordered.pass (h : threads.Ordered) {before : Teardown} (after : Teardown)
    (hbefore : threads.teardown thread = some before) (hpasses : Passes before after)
    {running : RecursiveMutex Thread}
    (hlevel : ∀ each, running.level each =
      (threads.setTeardown thread (some after)).sections each) :
    Ordered ({ threads with running }.setTeardown thread (some after)) := by
  obtain ⟨hofPoll, hdetached, hcleared, hsent, hjoined, hfreed, hfreeing, hwas, hsignal⟩ := hpasses
  have halike : ∀ point : Teardown → Bool, point after = point before →
      Alike threads ({ threads with running }.setTeardown thread (some after)) point := by
    intro point hpoint
    exact Alike.setTeardown (by rw [hbefore]; exact hpoint) rfl rfl
  have hofIpc : after.ofIpc = before.ofIpc := by rw [Teardown.ofIpc, Teardown.ofIpc, hofPoll]
  refine ⟨h.locked_setTeardown hbefore rfl rfl ?_, ?_, ?_, ?_, ?_⟩
  · intro each
    refine (hlevel each).trans ?_
    cases each <;> rfl
  · exact h.attached.frame rfl rfl rfl (halike _ hofPoll) (halike _ hdetached)
  · exact h.signalled.frame rfl rfl rfl id (halike _ hofIpc) (halike _ hcleared)
  · exact h.looped.frame rfl rfl rfl (halike _ hsent)
  · exact h.freed.frame rfl rfl rfl rfl (halike _ hjoined) (halike _ (by simp [hfreed, hfreeing]))
      (halike _ (by simp [hwas, hsignal]))

theorem Ordered.stay (h : threads.Ordered) {before : Teardown} (after : Teardown)
    (hbefore : threads.teardown thread = some before) (hpasses : Passes before after)
    (hlocked : after.locked = before.locked) :
    Ordered (threads.setTeardown thread (some after)) := by
  refine h.pass after hbefore hpasses fun each => ?_
  rw [sections_setTeardown hbefore (show (some after).any _ = _ from hlocked) rfl rfl rfl]
  exact h.locked.level each

theorem Ordered.lock (h : threads.Ordered) {before : Teardown} (after : Teardown)
    (hbefore : threads.teardown thread = some before) (hpasses : Passes before after)
    (hfree : before.locked = false) (hlocked : after.locked = true)
    {running : RecursiveMutex Thread} (hlock : threads.running.lock thread = some running) :
    Ordered ({ threads with running }.setTeardown thread (some after)) := by
  refine h.pass after hbefore hpasses fun each => ?_
  rw [RecursiveMutex.lock_level hlock, h.locked.level]
  cases thread <;> cases each <;> simp_all [sections, setTeardown, teardown]

theorem Ordered.unlock (h : threads.Ordered) {before : Teardown} (after : Teardown)
    (hbefore : threads.teardown thread = some before) (hpasses : Passes before after)
    (hlocked : before.locked = true) (hfree : after.locked = false) :
    Ordered ({ threads with running := threads.running.unlock }.setTeardown thread
      (some after)) := by
  refine h.pass after hbefore hpasses fun each => ?_
  have hlevel : 0 < threads.running.level thread := by
    rw [h.locked.level]
    cases thread <;> simp_all [sections, teardown]
  rw [RecursiveMutex.unlock_level hlevel, h.locked.level]
  cases thread <;> cases each <;> simp_all [sections, setTeardown, teardown]

theorem any_of_teardown {before : Teardown} (hbefore : threads.teardown thread = some before)
    (point : Teardown → Bool) : (threads.teardown thread).any point = point before := by
  rw [hbefore, Option.any_some]

theorem any_of_host {before : Teardown} (hbefore : threads.host = some before)
    (point : Teardown → Bool) : threads.host.any point = point before := by
  rw [hbefore, Option.any_some]

theorem either_of_host {point : Teardown → Bool} (h : threads.host.any point = true) :
    threads.either point = true := Bool.or_eq_true_iff.mpr (Or.inl h)

theorem either_of_any {point : Teardown → Bool} (h : (threads.teardown thread).any point = true) :
    threads.either point = true := by
  cases thread with
  | host => exact either_of_host h
  | poll => exact Bool.or_eq_true_iff.mpr (Or.inr h)

/-- `ipc->poll` is cleared: the thread of the poll does not use the poll meanwhile, unless
it is the one to clear it. -/
theorem Ordered.detach (h : threads.Ordered) (hbefore : threads.teardown thread = some .detaching) :
    Ordered ({ threads with attached := false }.setTeardown thread (some .pollUnlocking)) := by
  have halike : ∀ point : Teardown → Bool, point .pollUnlocking = point .detaching →
      Alike threads ({ threads with attached := false }.setTeardown thread (some .pollUnlocking))
        point := by
    intro point hpoint
    exact Alike.setTeardown (by rw [hbefore]; exact hpoint) rfl rfl
  have hpast : ((({ threads with attached := false }.setTeardown thread
      (some .pollUnlocking)).teardown thread).any Teardown.detached) = true := by
    rw [teardown_setTeardown]
    rfl
  refine ⟨h.locked_same hbefore rfl rfl rfl rfl rfl, ?_, ?_, ?_, ?_⟩
  · refine ⟨fun each => ?_, ?_, fun hloaded => ?_, fun hrunning => ?_⟩
    · rw [halike Teardown.ofPoll rfl]
      exact h.attached.fate each
    · exact iff_of_true rfl (Or.inr (either_of_any hpast))
    · cases thread with
      | host =>
        have hfree := h.excludes (any_of_host hbefore Teardown.locked)
        have hat : threads.onWake.loaded = true := hloaded
        revert hat hfree
        cases threads.onWake <;> simp [OnWake.loaded, OnWake.locked]
      | poll =>
        have hrunning : threads.onWake = .running := h.running_of_teardown hbefore
        have hat : threads.onWake.loaded = true := hloaded
        simp [hrunning, OnWake.loaded] at hat
    · cases thread with
      | host =>
        have hfree := h.excludes (any_of_host hbefore Teardown.locked)
        rw [show threads.onWake = .running from hrunning] at hfree
        contradiction
      | poll => exact Or.inr (Or.inr hpast)
  · exact h.signalled.frame rfl rfl rfl id (halike _ rfl) (halike _ rfl)
  · exact h.looped.frame rfl rfl rfl (halike _ rfl)
  · exact h.freed.frame rfl rfl rfl rfl (halike _ rfl) (halike _ rfl) (halike _ rfl)

/-- `signal->ipc` is cleared, and likewise no dispatch has read it, but for one that calls
back to the thread that clears it. -/
theorem Ordered.clear (h : threads.Ordered) (hbefore : threads.teardown thread = some .clearing) :
    Ordered ({ threads with ipc := false }.setTeardown thread (some .unlocking)) := by
  have halike : ∀ point : Teardown → Bool, point .unlocking = point .clearing →
      Alike threads ({ threads with ipc := false }.setTeardown thread (some .unlocking)) point := by
    intro point hpoint
    exact Alike.setTeardown (by rw [hbefore]; exact hpoint) rfl rfl
  have hpast : ((({ threads with ipc := false }.setTeardown thread
      (some .unlocking)).teardown thread).any Teardown.cleared) = true := by
    rw [teardown_setTeardown]
    rfl
  refine ⟨h.locked_same hbefore rfl rfl rfl rfl rfl, ?_, ?_, ?_, ?_⟩
  · exact h.attached.frame rfl rfl rfl (halike _ rfl) (halike _ rfl)
  · refine ⟨fun each => ?_, h.signalled.order, ?_, fun hdispatching => ?_, fun hrunning => ?_⟩
    · rw [halike Teardown.ofIpc rfl]
      exact h.signalled.fate each
    · exact iff_of_true rfl (Or.inr (either_of_any hpast))
    · cases thread with
      | host =>
        have hfree := h.excludes (any_of_host hbefore Teardown.locked)
        have hat : threads.onWake.dispatching = true := hdispatching
        revert hat hfree
        cases threads.onWake <;> simp [OnWake.dispatching, OnWake.locked]
      | poll =>
        have hrunning : threads.onWake = .running := h.running_of_teardown hbefore
        have hat : threads.onWake.dispatching = true := hdispatching
        simp [hrunning, OnWake.dispatching] at hat
    · cases thread with
      | host =>
        have hfree := h.excludes (any_of_host hbefore Teardown.locked)
        rw [show threads.onWake = .running from hrunning] at hfree
        contradiction
      | poll => exact Or.inr (Or.inr hpast)
  · exact h.looped.frame rfl rfl rfl (halike _ rfl)
  · exact h.freed.frame rfl rfl rfl rfl (halike _ rfl) (halike _ rfl) (halike _ rfl)

theorem any_ofPoll (h : (threads.teardown thread).any Teardown.detached = true) :
    (threads.teardown thread).any Teardown.ofPoll = true := by
  rw [Option.any_eq_true] at h
  obtain ⟨teardown, hteardown, hdetached⟩ := h
  rw [hteardown, Option.any_some]
  revert hdetached
  cases teardown <;> simp [Teardown.detached, Teardown.ofPoll]

theorem Ordered.freePoll (h : threads.Ordered)
    (hbefore : threads.teardown thread = some .pollFreeing) :
    Ordered ({ threads with pollFate := .destroyed thread }.setTeardown thread none) := by
  have halike : ∀ point : Teardown → Bool, point .pollFreeing = false →
      Alike threads ({ threads with pollFate := .destroyed thread }.setTeardown thread none)
      point := by
    intro point hpoint
    exact Alike.setTeardown (by rw [hbefore]; exact hpoint.symm) rfl rfl
  have hfate := (h.attached.fate thread).mpr (any_of_teardown hbefore Teardown.ofPoll)
  have hdetached : threads.attached = false :=
    h.attached.attached.mpr (Or.inr (either_of_any (any_of_teardown hbefore Teardown.detached)))
  refine ⟨h.locked_same hbefore rfl rfl rfl rfl rfl, ?_, ?_, ?_, ?_⟩
  · refine ⟨fun each => ?_, ?_, h.attached.loaded, fun hrunning => ?_⟩
    · refine iff_of_false (by simp [setTeardown]) ?_
      by_cases heach : each = thread
      · rw [heach, teardown_setTeardown]
        exact Bool.false_ne_true
      · intro hother
        have hsame := (h.attached.fate each).mpr (by
          rw [teardown_setTeardown_of_ne heach] at hother
          cases each <;> exact hother)
        rw [hfate] at hsame
        exact heach (Fate.destroying.inj hsame).symm
    · exact iff_of_true hdetached (Or.inl rfl)
    · cases thread with
      | host =>
        rcases h.attached.running hrunning with hattached | hdestroyed | hself
        · simp [hdetached] at hattached
        · simp [hfate] at hdestroyed
        · rw [(h.attached.fate .poll).mpr (any_ofPoll hself)] at hfate
          contradiction
      | poll => exact Or.inr (Or.inl rfl)
  · exact h.signalled.frame rfl rfl rfl (fun _ => rfl) (halike _ rfl) (halike _ rfl)
  · exact h.looped.frame rfl rfl rfl (halike _ rfl)
  · exact h.freed.frame rfl rfl rfl rfl (halike _ rfl) (halike _ rfl) (halike _ rfl)

theorem Ordered.send (h : threads.Ordered) (hbefore : threads.teardown thread = some .sending) :
    Ordered ({ threads with close := true }.setTeardown thread (some .leaving)) := by
  have halike : ∀ point : Teardown → Bool, point .leaving = point .sending →
      Alike threads ({ threads with close := true }.setTeardown thread (some .leaving)) point := by
    intro point hpoint
    exact Alike.setTeardown (by rw [hbefore]; exact hpoint) rfl rfl
  have hpast : ((({ threads with close := true }.setTeardown thread
      (some .leaving)).teardown thread).any Teardown.sent) = true := by
    rw [teardown_setTeardown]
    rfl
  refine ⟨h.locked_same hbefore rfl rfl rfl rfl rfl, ?_, ?_, ⟨?_, fun _ => rfl⟩, ?_⟩
  · exact h.attached.frame rfl rfl rfl (halike _ rfl) (halike _ rfl)
  · exact h.signalled.frame rfl rfl rfl id (halike _ rfl) (halike _ rfl)
  · exact iff_of_true rfl (Or.inr (either_of_any hpast))
  · exact h.freed.frame rfl rfl rfl rfl (halike _ rfl) (halike _ rfl) (halike _ rfl)

theorem Ordered.leaveSelf (h : threads.Ordered) (hbefore : threads.teardown .poll = some .leaving) :
    Ordered ({ threads with detached := true }.setTeardown .poll (some .freeing)) := by
  have halike : ∀ point : Teardown → Bool, point .freeing = point .leaving →
      Alike threads ({ threads with detached := true }.setTeardown .poll (some .freeing))
      point := by
    intro point hpoint
    exact Alike.setTeardown (by rw [hbefore]; exact hpoint) rfl rfl
  refine ⟨h.locked_same hbefore rfl rfl rfl rfl rfl, ?_, ?_, ?_, ?_⟩
  · exact h.attached.frame rfl rfl rfl (halike _ rfl) (halike _ rfl)
  · exact h.signalled.frame rfl rfl rfl id (halike _ rfl) (halike _ rfl)
  · exact h.looped.frame rfl rfl rfl (halike _ rfl)
  · refine ⟨iff_of_true rfl (Or.inr rfl), ?_, h.freed.joined, h.freed.signalFrees⟩
    rw [teardown_setTeardown]
    decide

theorem Ordered.join (h : threads.Ordered) (hbefore : threads.teardown .host = some .leaving)
    (hexited : threads.onWake = .exited) :
    Ordered (threads.setTeardown .host (some .signalFreeing)) := by
  have halike : ∀ point : Teardown → Bool, point .signalFreeing = point .leaving →
      Alike threads (threads.setTeardown .host (some .signalFreeing)) point := by
    intro point hpoint
    exact Alike.setTeardown (by rw [hbefore]; exact hpoint) rfl rfl
  have hhost : threads.host = some .leaving := hbefore
  refine ⟨h.locked_same hbefore rfl rfl rfl rfl rfl, ?_, ?_, ?_, ?_⟩
  · exact h.attached.frame rfl rfl rfl (halike _ rfl) (halike _ rfl)
  · exact h.signalled.frame rfl rfl rfl id (halike _ rfl) (halike _ rfl)
  · exact h.looped.frame rfl rfl rfl (halike _ rfl)
  · refine ⟨h.freed.detached, h.freed.self, fun _ => hexited, h.freed.signalFrees.trans ?_⟩
    have hfate : threads.ipcFate = .destroying .host :=
      (h.signalled.fate .host).mpr (any_of_teardown hbefore Teardown.ofIpc)
    simp [signalFreed, setTeardown, hhost, hfate]

theorem Ordered.freeSignal (h : threads.Ordered)
    (hbefore : threads.teardown thread = some .signalFreeing) :
    Ordered ({ threads with signalFrees := thread :: threads.signalFrees }.setTeardown thread
      (some .freeing)) := by
  cases thread with
  | poll => exact absurd hbefore h.freed.self
  | host =>
    have halike : ∀ point : Teardown → Bool, point .freeing = point .signalFreeing →
        Alike threads
        ({ threads with signalFrees := .host :: threads.signalFrees }.setTeardown .host
          (some .freeing)) point := by
      intro point hpoint
      exact Alike.setTeardown (by rw [hbefore]; exact hpoint) rfl rfl
    have hhost : threads.host = some .signalFreeing := hbefore
    have hexited : threads.onWake = .exited := h.freed.joined (Or.inl (by rw [hhost]; rfl))
    refine ⟨h.locked_same hbefore rfl rfl rfl rfl rfl, ?_, ?_, ?_, ?_⟩
    · exact h.attached.frame rfl rfl rfl (halike _ rfl) (halike _ rfl)
    · exact h.signalled.frame rfl rfl rfl id (halike _ rfl) (halike _ rfl)
    · exact h.looped.frame rfl rfl rfl (halike _ rfl)
    · refine ⟨h.freed.detached, h.freed.self, fun _ => hexited, ?_⟩
      have hfate : threads.ipcFate = .destroying .host :=
        (h.signalled.fate .host).mpr (any_of_teardown hbefore Teardown.ofIpc)
      simp [signalFreed, setTeardown, hfate, h.freed.signalFrees, hhost]

theorem Ordered.freeIpc (h : threads.Ordered) (hbefore : threads.teardown thread = some .freeing) :
    Ordered ({ threads with ipcFate := .destroyed thread }.setTeardown thread none) := by
  have halike : ∀ point : Teardown → Bool, point .freeing = false →
      Alike threads ({ threads with ipcFate := .destroyed thread }.setTeardown thread none)
      point := by
    intro point hpoint
    exact Alike.setTeardown (by rw [hbefore]; exact hpoint.symm) rfl rfl
  have hfate := (h.signalled.fate thread).mpr (any_of_teardown hbefore Teardown.ofIpc)
  have hcleared : threads.ipc = false :=
    h.signalled.ipc.mpr (Or.inr (either_of_any (any_of_teardown hbefore Teardown.cleared)))
  have hclose : threads.close = true :=
    h.looped.close.mpr (Or.inr (either_of_any (any_of_teardown hbefore Teardown.sent)))
  refine ⟨h.locked_same hbefore rfl rfl rfl rfl rfl, ?_, ?_, ⟨?_, fun _ => hclose⟩, ?_⟩
  · exact h.attached.frame rfl rfl rfl (halike _ rfl) (halike _ rfl)
  · refine ⟨fun each => ?_, fun _ => h.signalled.order (by simp [hfate]), ?_,
      h.signalled.dispatching, fun hrunning => ?_⟩
    · refine iff_of_false (by simp [setTeardown]) ?_
      by_cases heach : each = thread
      · rw [heach, teardown_setTeardown]
        exact Bool.false_ne_true
      · intro hother
        have hsame := (h.signalled.fate each).mpr (by
          rw [teardown_setTeardown_of_ne heach] at hother
          cases each <;> exact hother)
        rw [hfate] at hsame
        exact heach (Fate.destroying.inj hsame).symm
    · exact iff_of_true hcleared (Or.inl rfl)
    · cases thread with
      | host =>
        have hexited := h.freed.joined (Or.inl (any_of_host hbefore Teardown.joined))
        rw [show threads.onWake = .running from hrunning] at hexited
        contradiction
      | poll => exact Or.inr (Or.inl rfl)
  · exact iff_of_true hclose (Or.inl rfl)
  · cases thread with
    | host =>
      have hhost : threads.host = some .freeing := hbefore
      have hother : threads.teardown .poll ≠ some .freeing := by
        intro hpoll
        rw [(h.signalled.fate .poll).mpr (any_of_teardown hpoll Teardown.ofIpc)] at hfate
        contradiction
      refine ⟨?_, h.freed.self, fun _ => h.freed.joined (Or.inl ?_), ?_⟩
      · refine (iff_of_false (fun hdetached => ?_) ?_)
        · rcases h.freed.detached.mp hdetached with hdestroyed | hfreeing
          · simp [hfate] at hdestroyed
          · exact hother hfreeing
        · rintro (hdestroyed | hfreeing)
          · exact absurd (Fate.destroyed.inj hdestroyed) (by decide)
          · exact hother hfreeing
      · rw [hhost]
        rfl
      · simp [signalFreed, setTeardown, h.freed.signalFrees, hfate, hhost]
    | poll =>
      refine ⟨?_, by simp, ?_, ?_⟩
      · exact iff_of_true (h.freed.detached.mpr (Or.inr hbefore)) (Or.inl rfl)
      · rintro (hjoined | hdestroyed)
        · exact h.freed.joined (Or.inl hjoined)
        · exact absurd (Fate.destroyed.inj hdestroyed) (by decide)
      · simp [signalFreed, setTeardown, h.freed.signalFrees, hfate]

theorem Ordered.locked_begin (h : threads.Ordered) (hbefore : threads.teardown thread = none)
    (hrunning : thread = .poll → threads.onWake = .running) {after : Teardown}
    (hfree : after.locked = false) {other : Threads} (hhost : other.host = threads.host)
    (hcallback : other.callback = threads.callback) (honWake : other.onWake = threads.onWake)
    (hlock : other.running = threads.running) : Locked (other.setTeardown thread (some after)) := by
  have halike : Alike threads (other.setTeardown thread (some after)) Teardown.locked :=
    Alike.setTeardown (by rw [hbefore]; exact hfree) hhost hcallback
  have hsame : (other.setTeardown thread (some after)).onWake = threads.onWake := honWake
  constructor
  · intro each
    rw [show (other.setTeardown thread (some after)).running = threads.running from hlock,
      h.locked.level]
    cases each with
    | host => exact congrArg Bool.toNat (halike .host).symm
    | poll => rw [sections, sections, halike, hsame]
  · intro hbusy
    rw [hsame]
    cases thread with
    | host => exact h.locked.callback (hcallback ▸ hbusy)
    | poll => exact hrunning rfl

theorem fate_begin {fate : Fate} {point : Teardown → Bool} {after : Teardown}
    (h : ∀ thread, fate = .destroying thread ↔ (threads.teardown thread).any point = true)
    (halive : fate = .alive) (hpoint : point after = true) {other : Threads}
    (hhost : other.host = threads.host) (hcallback : other.callback = threads.callback)
    (each : Thread) : Fate.destroying thread = .destroying each ↔
      ((other.setTeardown thread (some after)).teardown each).any point = true := by
  by_cases heach : each = thread
  · rw [heach, teardown_setTeardown]
    exact iff_of_true rfl hpoint
  · refine iff_of_false (fun hsame => heach (Fate.destroying.inj hsame).symm) ?_
    rw [teardown_setTeardown_of_ne heach]
    intro hother
    have hteardown : other.teardown each = threads.teardown each := by
      cases each with
      | host => exact hhost
      | poll => rw [teardown, teardown, hcallback]
    rw [hteardown, ← h, halive] at hother
    contradiction

theorem Ordered.pollDestroy (h : threads.Ordered) (hbefore : threads.teardown thread = none)
    (hrunning : thread = .poll → threads.onWake = .running) (halive : threads.pollFate = .alive) :
    Ordered ({ threads with pollFate := .destroying thread }.setTeardown thread
      (some .stopping)) := by
  have halike : ∀ point : Teardown → Bool, point .stopping = false → Alike threads
      ({ threads with pollFate := .destroying thread }.setTeardown thread (some .stopping))
        point := by
    intro point hpoint
    exact Alike.setTeardown (by rw [hbefore]; exact hpoint) rfl rfl
  have hunfreed : threads.pollFate.freed = false := by
    rw [halive]
    rfl
  refine ⟨h.locked_begin hbefore hrunning rfl rfl rfl rfl rfl,
    ⟨?_, ?_, h.attached.loaded, ?_⟩, ?_, ?_, ?_⟩
  · exact fate_begin h.attached.fate halive rfl rfl rfl
  · refine h.attached.attached.trans ?_
    rw [hunfreed, (halike Teardown.detached rfl).either]
    rfl
  · intro hat
    rcases h.attached.running hat with hattached | hdestroyed | hdetached
    · exact Or.inl hattached
    · simp [halive] at hdestroyed
    · rw [halike Teardown.detached rfl]
      exact Or.inr (Or.inr hdetached)
  · refine h.signalled.frame rfl rfl rfl (fun hfreed => ?_) (halike _ rfl) (halike _ rfl)
    exact absurd hfreed (by simp [hunfreed])
  · exact h.looped.frame rfl rfl rfl (halike _ rfl)
  · exact h.freed.frame rfl rfl rfl rfl (halike _ rfl) (halike _ rfl) (halike _ rfl)

theorem Ordered.ipcDestroy (h : threads.Ordered) (hbefore : threads.teardown thread = none)
    (hrunning : thread = .poll → threads.onWake = .running) (hpoll : threads.pollFate.freed = true)
    (halive : threads.ipcFate = .alive) :
    Ordered ({ threads with ipcFate := .destroying thread }.setTeardown thread
      (some .closing)) := by
  have halike : ∀ point : Teardown → Bool, point .closing = false → Alike threads
      ({ threads with ipcFate := .destroying thread }.setTeardown thread (some .closing))
        point := by
    intro point hpoint
    exact Alike.setTeardown (by rw [hbefore]; exact hpoint) rfl rfl
  have hunfreed : threads.ipcFate.freed = false := by
    rw [halive]
    rfl
  have hjoined : Alike threads _ Teardown.joined := halike Teardown.joined rfl
  have hfreeing := halike (· == .freeing) rfl
  have hsignal := halike (· == .signalFreeing) rfl
  refine ⟨h.locked_begin hbefore hrunning rfl rfl rfl rfl rfl, ?_, ⟨?_, fun _ => hpoll, ?_,
    h.signalled.dispatching, ?_⟩, ⟨?_, h.looped.ended⟩, ⟨?_, ?_, ?_, ?_⟩⟩
  · exact h.attached.frame rfl rfl rfl (halike _ rfl) (halike _ rfl)
  · exact fate_begin h.signalled.fate halive rfl rfl rfl
  · refine h.signalled.ipc.trans ?_
    rw [hunfreed, (halike Teardown.cleared rfl).either]
    rfl
  · intro hat
    rcases h.signalled.running hat with hipc | hdestroyed | hcleared
    · exact Or.inl hipc
    · simp [halive] at hdestroyed
    · rw [halike Teardown.cleared rfl]
      exact Or.inr (Or.inr hcleared)
  · refine h.looped.close.trans ?_
    rw [hunfreed, (halike Teardown.sent rfl).either]
    rfl
  · refine h.freed.detached.trans ?_
    rw [hfreeing.eq, halive]
    simp [setTeardown]
  · rw [Ne, hsignal.eq]
    exact h.freed.self
  · have hhost : _ = threads.host.any Teardown.joined := hjoined .host
    rintro (hnow | hdestroyed)
    · exact h.freed.joined (Or.inl (hhost ▸ hnow))
    · contradiction
  · refine h.freed.signalFrees.trans ?_
    simp only [signalFreed, halive]
    cases thread with
    | host => rfl
    | poll => simp [setTeardown, hrunning rfl]

theorem Ordered.idle (h : threads.Ordered) (honWake : threads.onWake ≠ .running) :
    threads.callback = .idle := by
  by_contra hbusy
  exact honWake (h.locked.callback hbusy)

theorem teardown_of_idle (hidle : threads.callback = .idle) : threads.teardown .poll = none := by
  rw [teardown, hidle]

theorem Ordered.advance_same (h : threads.Ordered) (after : OnWake)
    (hlocked : after.locked = threads.onWake.locked) (hidle : threads.callback = .idle)
    (hexited : threads.onWake ≠ .exited) (hadmits : threads.Admits after) :
    Ordered { threads with onWake := after } := by
  refine h.advance after threads.running (fun thread => ?_) hidle hexited hadmits
  refine (h.locked.level thread).trans ?_
  cases thread with
  | host => rfl
  | poll => rw [sections, sections, hlocked]; rfl

theorem Ordered.onLock (h : threads.Ordered) (honWake : threads.onWake = .locking)
    {running : RecursiveMutex Thread} (hlock : threads.running.lock .poll = some running) :
    Ordered { threads with onWake := .checking, running } := by
  refine h.advance .checking running (fun thread => ?_) (h.idle (by simp [honWake]))
    (by simp [honWake]) trivial
  rw [RecursiveMutex.lock_level hlock, h.locked.level]
  cases thread with
  | host => rfl
  | poll =>
    simp only [sections, honWake, teardown, h.idle (by simp [honWake] : threads.onWake ≠ .running)]
    rfl

theorem Ordered.onUnlock (h : threads.Ordered) (honWake : threads.onWake = .unlocking) :
    Ordered { threads with onWake := .waiting, running := threads.running.unlock } := by
  have hlevel : 0 < threads.running.level .poll := by
    rw [h.locked.level, sections, honWake]
    exact Nat.lt_of_lt_of_le Nat.one_pos (Nat.le_add_right _ _)
  refine h.advance .waiting _ (fun thread => ?_) (h.idle (by simp [honWake]))
    (by simp [honWake]) trivial
  rw [RecursiveMutex.unlock_level hlevel, h.locked.level]
  cases thread with
  | host => rfl
  | poll =>
    simp only [sections, honWake, teardown, h.idle (by simp [honWake] : threads.onWake ≠ .running)]
    rfl

theorem Ordered.dispatch (h : threads.Ordered) (after : OnWake)
    (hdispatching : threads.onWake.dispatching = true) (hlocked : after.locked = true)
    (hadmits : threads.Admits after) : Ordered { threads with onWake := after } := by
  have hbefore : threads.onWake.locked = true := by
    revert hdispatching
    cases threads.onWake <;> simp [OnWake.dispatching, OnWake.locked]
  have hidle : threads.callback = .idle := by
    apply h.idle
    intro hrunning
    simp [hrunning, OnWake.dispatching] at hdispatching
  refine h.advance_same after (hlocked.trans hbefore.symm) hidle ?_ hadmits
  intro hexited
  simp [hexited, OnWake.locked] at hbefore

/-! Where nothing has been freed yet. -/

theorem Ordered.poll_of_attached (h : threads.Ordered) (hattached : threads.attached = true) :
    threads.pollFate.freed = false := by
  by_contra hfreed
  rw [h.attached.attached.mpr (Or.inl (eq_true_of_ne_false hfreed))] at hattached
  contradiction

theorem Ordered.poll_of_running (h : threads.Ordered) (hrunning : threads.onWake = .running)
    (hkept : threads.pollFate ≠ .destroyed .poll) : threads.pollFate.freed = false := by
  rcases h.attached.running hrunning with hattached | hdestroyed | hdetached
  · exact h.poll_of_attached hattached
  · exact absurd hdestroyed hkept
  · rw [(h.attached.fate .poll).mpr (any_ofPoll hdetached)]
    rfl

theorem Ordered.poll_of_teardown (h : threads.Ordered) {stage : Teardown}
    (hteardown : threads.teardown thread = some stage) (hofPoll : stage.ofPoll = true) :
    threads.pollFate.freed = false := by
  rw [(h.attached.fate thread).mpr ((any_of_teardown hteardown _).trans hofPoll)]
  rfl

theorem Ordered.ipc_of_poll (h : threads.Ordered) (hpoll : threads.pollFate.freed = false) :
    threads.ipcFate = .alive := by
  by_contra halive
  rw [h.signalled.order halive] at hpoll
  contradiction

theorem Ordered.ipc_of_dispatching (h : threads.Ordered)
    (hdispatching : threads.onWake.dispatching = true) : threads.ipcFate.freed = false := by
  by_contra hfreed
  have hipc := h.signalled.dispatching hdispatching
  rw [h.signalled.ipc.mpr (Or.inl (eq_true_of_ne_false hfreed))] at hipc
  contradiction

theorem any_ofIpc (h : (threads.teardown thread).any Teardown.cleared = true) :
    (threads.teardown thread).any Teardown.ofIpc = true := by
  rw [Option.any_eq_true] at h
  obtain ⟨teardown, hteardown, hcleared⟩ := h
  rw [hteardown, Option.any_some]
  revert hcleared
  cases teardown <;> simp [Teardown.cleared, Teardown.ofIpc, Teardown.ofPoll]

theorem Ordered.ipc_of_running (h : threads.Ordered) (hrunning : threads.onWake = .running)
    (hkept : threads.ipcFate ≠ .destroyed .poll) : threads.ipcFate.freed = false := by
  rcases h.signalled.running hrunning with hipc | hdestroyed | hcleared
  · by_contra hfreed
    rw [h.signalled.ipc.mpr (Or.inl (eq_true_of_ne_false hfreed))] at hipc
    contradiction
  · exact absurd hdestroyed hkept
  · rw [(h.signalled.fate .poll).mpr (any_ofIpc hcleared)]
    rfl

theorem Ordered.ipc_of_teardown (h : threads.Ordered) {stage : Teardown}
    (hteardown : threads.teardown thread = some stage) : threads.ipcFate.freed = false := by
  cases hofPoll : stage.ofPoll with
  | true =>
    rw [h.ipc_of_poll (h.poll_of_teardown hteardown hofPoll)]
    rfl
  | false =>
    have hofIpc : stage.ofIpc = true := by
      rw [Teardown.ofIpc, hofPoll]
      rfl
    rw [(h.signalled.fate thread).mpr ((any_of_teardown hteardown _).trans hofIpc)]
    rfl

theorem Ordered.signal_of_onWake (h : threads.Ordered) (hexited : threads.onWake ≠ .exited) :
    threads.signalFrees = [] := by
  have hjoined : ¬ (threads.host.any Teardown.joined = true ∨ threads.ipcFate = .destroyed .host) :=
    fun hdone => hexited (h.freed.joined hdone)
  rw [h.freed.signalFrees]
  unfold signalFreed
  split
  · rfl
  · split
    · rename_i hfreeing
      exact absurd (Or.inl (by rw [hfreeing]; rfl)) hjoined
    · rfl
  · rename_i hdestroyed
    exact absurd (Or.inr hdestroyed) hjoined
  · rw [if_neg hexited]
  · rw [if_neg hexited]

theorem Ordered.signal_of_teardown (h : threads.Ordered) {stage : Teardown}
    (hteardown : threads.teardown thread = some stage) (hfreeing : stage ≠ .freeing) :
    threads.signalFrees = [] := by
  cases thread with
  | poll =>
    apply h.signal_of_onWake
    rw [h.running_of_teardown hteardown]
    decide
  | host =>
    have hhost : threads.host = some stage := hteardown
    rw [h.freed.signalFrees]
    cases hofPoll : stage.ofPoll with
    | true =>
      rw [signalFreed, h.ipc_of_poll (h.poll_of_teardown hteardown hofPoll)]
    | false =>
      have hofIpc : stage.ofIpc = true := by
        rw [Teardown.ofIpc, hofPoll]
        rfl
      rw [signalFreed, (h.signalled.fate .host).mpr ((any_of_teardown hteardown _).trans hofIpc),
        hhost]
      simp [hfreeing]

theorem Ordered.signal_of_open (h : threads.Ordered)
    (hopen : ¬ (threads.ipcFate.freed = true ∨ threads.either Teardown.shut = true)) :
    threads.signalFrees = [] := by
  rw [not_or] at hopen
  rw [h.freed.signalFrees]
  unfold signalFreed
  split <;> rename_i hfate
  · rfl
  · split
    · rename_i hfreeing
      exact absurd (either_of_host (any_of_host hfreeing Teardown.shut)) hopen.2
    · rfl
  · exact absurd (by rw [hfate]; rfl) hopen.1
  · have hany := (h.signalled.fate .poll).mp hfate
    rw [Option.any_eq_true] at hany
    obtain ⟨stage, hteardown, _⟩ := hany
    rw [h.running_of_teardown hteardown]
    rfl
  · exact absurd (by rw [hfate]; rfl) hopen.1

theorem Ordered.finish (h : threads.Ordered) (honWake : threads.onWake = .finishing) :
    Ordered { threads with
      onWake := .exited
      signalFrees :=
        if threads.detached then .poll :: threads.signalFrees else threads.signalFrees } := by
  have hidle : threads.callback = .idle := h.idle (by simp [honWake])
  have hpoll := teardown_of_idle hidle
  have hnone : threads.signalFrees = [] := h.signal_of_onWake (by simp [honWake])
  have hleft : threads.detached = true ↔ threads.ipcFate = .destroyed .poll := by
    rw [h.freed.detached, hpoll]
    simp
  refine ⟨⟨fun thread => ?_, fun hbusy => absurd hidle hbusy⟩, ?_, ?_,
    ⟨h.looped.close, fun _ => ?_⟩, ?_⟩
  · refine (h.locked.level thread).trans ?_
    cases thread with
    | host => rfl
    | poll => rw [sections, sections, honWake]; rfl
  · exact ⟨h.attached.fate, h.attached.attached, fun hloaded => by contradiction,
      fun hrunning => by contradiction⟩
  · exact ⟨h.signalled.fate, h.signalled.order, h.signalled.ipc,
      fun hdispatching => by contradiction, fun hrunning => by contradiction⟩
  · exact h.looped.ended (Or.inl honWake)
  · refine ⟨h.freed.detached, h.freed.self, fun _ => rfl, ?_⟩
    have hjoined :
        ¬ (threads.host.any Teardown.joined = true ∨ threads.ipcFate = .destroyed .host) := by
      intro hdone
      have hexited := h.freed.joined hdone
      rw [honWake] at hexited
      contradiction
    rw [not_or] at hjoined
    have hfreeing : threads.host ≠ some .freeing := by
      intro hfreeing
      exact hjoined.1 (by rw [hfreeing]; rfl)
    simp only [hnone, hleft, signalFreed]
    cases hfate : threads.ipcFate with
    | alive => rfl
    | destroying thread =>
      cases thread with
      | host => simp [hfreeing]
      | poll =>
        have hany := (h.signalled.fate .poll).mp hfate
        rw [hpoll] at hany
        contradiction
    | destroyed thread =>
      cases thread with
      | host => exact absurd hfate hjoined.2
      | poll => rfl

end Threads

end BareKit
