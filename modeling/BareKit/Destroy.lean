import BareKit.Teardown

/-! Every access of the two threads, and of the worklet that signals the ipc for as long
as its port is open, is to memory that is still there. -/
namespace BareKit

namespace Wire

variable {wire next : Wire} {label : Step}

theorem closed_kept (hsound : wire.Sound) (hstep : wire.step label = some next)
    (hclosed : wire.queue.threadState = .closed) : next.queue.threadState = .closed := by
  cases hworklet : label.ofWorklet with
  | true =>
    rw [(seen_step hsound.queue hworklet hstep).threadState]
    exact hclosed
  | false =>
    cases move_step hstep with
    | write _ _ _ _ | final _ _ _ _ | read _ _ | onsignal _ _ _ | retryNone _ _ _ | retry _ _ _
    | drain _ _ _ | openUv _ _ | exit _ _ | abandon _ _ | destroy _ => contradiction
    | ipcCreate _ => simp [apply, bareIpcCreate, bareQueueOpenThread, hclosed]
    | ipcRead _ _ _ =>
      rename_i ipc len _ _ _
      obtain ⟨ring, hring⟩ := bareIpcReadQueue_queue wire.queue ipc
      simp only [apply, hring]
      exact hclosed
    | ipcWrite _ _ =>
      rename_i ipc addr data _ _
      obtain ⟨ring, hring⟩ := bareIpcWrite_queue wire.queue ipc addr data
      simp only [apply, hring]
      exact hclosed
    | ipcEnd _ _ _ | ipcClose _ _ _ => exact Queue.advance_closed .thread _ hclosed
    | ipcEndGone _ _ _ | ipcCloseGone _ _ _ | ipcReadPending _ _ | ipcCloseRelease _ _
    | ipcSignal _ _
    | dispatch _ _ | dispatchWritable _ _ | takeWake _ => exact hclosed

theorem ipcClose_closes (hhosted : wire.Hosted) (hstep : wire.step .ipcClose = some next) :
    next.queue.threadState = .closed := by
  cases move_step hstep with
  | ipcClose _ _ _ => exact Queue.close_state .thread
  | ipcCloseGone _ hipc hport => exact hhosted.gone _ hipc hport

theorem rouses_listening (hworklet : label.ofWorklet = true) (hrouses : wire.rouses label = true) :
    bareQueueListening wire.queue.threadState = true := by
  cases label with
  | ipcCreate _ _ | ipcRead _ | ipcReadPending | ipcWrite _ _ | ipcEnd | ipcClose
  | ipcCloseRelease | ipcSignal | dispatch | dispatchWritable | takeWake => contradiction
  | write _ _ | retry _ | drain _ => simp_all [rouses]
  | final | exit | abandon => exact hrouses
  | read | onsignal | openUv _ _ | destroy => contradiction

end Wire

namespace Activity

def polls : Activity → Bool
  | .startingCb _ | .startingSignal | .stoppingCb => true
  | _ => false

end Activity

structure Threads.Kept (threads : Threads) : Prop where
  poll : threads.callback.polls = true → threads.pollFate ≠ .destroyed .poll
  ipc : threads.callback = .calling → threads.ipcFate ≠ .destroyed .poll

namespace Threads

variable {threads other : Threads} {thread : Thread}

theorem Kept.setTeardown (h : threads.Kept) (after : Option Teardown)
    (hcallback : other.callback = threads.callback)
    (hpoll : other.pollFate = .destroyed .poll → threads.pollFate = .destroyed .poll ∨
      thread = .poll)
    (hipc : other.ipcFate = .destroyed .poll → threads.ipcFate = .destroyed .poll ∨
      thread = .poll) :
    (other.setTeardown thread after).Kept := by
  cases thread with
  | host =>
    constructor
    · intro hpolls hdestroyed
      exact (hpoll hdestroyed).elim (h.poll (hcallback ▸ hpolls)) (by simp)
    · intro hcalling hdestroyed
      exact (hipc hdestroyed).elim (h.ipc (hcallback ▸ hcalling)) (by simp)
  | poll =>
    cases after with
    | none => exact ⟨fun hpolls => by contradiction, fun hcalling => by contradiction⟩
    | some after => exact ⟨fun hpolls => by contradiction, fun hcalling => by contradiction⟩

end Threads

namespace Standalone

variable {standalone next : Standalone} {thread : Thread} {label : StandaloneStep}

def Shut (standalone : Standalone) : Prop :=
  standalone.ipcFate.freed = true ∨ standalone.toThreads.either Teardown.shut = true

structure Safe (standalone : Standalone) : Prop where
  ordered : standalone.toThreads.Ordered
  sound : standalone.wire.Sound
  hosted : standalone.wire.Hosted
  present : standalone.wire.ipc ≠ none
  shut : standalone.Shut → standalone.wire.queue.threadState = .closed
  fault : standalone.fault = false

theorem Safe.frame (h : standalone.Safe) (hordered : next.toThreads.Ordered)
    (hwire : next.wire = standalone.wire) (hshut : next.Shut → standalone.Shut)
    (hfault : next.fault = false) : next.Safe := by
  refine ⟨hordered, ?_, ?_, ?_, ?_, hfault⟩
  · rw [hwire]
    exact h.sound
  · rw [hwire]
    exact h.hosted
  · rw [hwire]
    exact h.present
  · rw [hwire]
    exact fun hnext => h.shut (hshut hnext)

theorem Safe.call (h : standalone.Safe) {step : Step} {wire : Wire}
    (hstep : standalone.wire.step step = some wire) (hordered : next.toThreads.Ordered)
    (hwire : next.wire = wire)
    (hshut : next.Shut → standalone.Shut ∨ wire.queue.threadState = .closed)
    (hfault : next.fault = false) : next.Safe := by
  refine ⟨hordered, ?_, ?_, ?_, ?_, hfault⟩
  · rw [hwire]
    exact h.sound.step hstep
  · rw [hwire]
    exact h.hosted.step h.sound hstep
  · rw [hwire]
    exact Wire.ipc_kept h.sound hstep h.present
  · rw [hwire]
    intro hnext
    rcases hshut hnext with hbefore | hclosed
    · exact Wire.closed_kept h.sound hstep (h.shut hbefore)
    · exact hclosed

section Touch

variable (h : standalone.Safe)
include h

theorem Safe.touchPoll (hpoll : standalone.pollFate.freed = false) :
    standalone.touchPoll.fault = false := by
  simp [Standalone.touchPoll, h.fault, hpoll]

theorem Safe.touchIpc (hipc : standalone.ipcFate.freed = false) :
    standalone.touchIpc.fault = false := by
  simp [Standalone.touchIpc, h.fault, hipc]

theorem Safe.touchSignal (hsignal : standalone.signalFrees = []) :
    standalone.touchSignal.fault = false := by
  simp [Standalone.touchSignal, h.fault, hsignal]

theorem Safe.signal (hipc : standalone.ipcFate.freed = false)
    (hsignal : standalone.signalFrees = []) :
    standalone.signal.fault = false := by
  simp [Standalone.signal, Standalone.touchSignal, Standalone.touchIpc, h.fault, hipc, hsignal]

end Touch

theorem shut_of_teardown {stage : Teardown} (hstage : standalone.teardown thread = some stage)
    (hshut : stage.shut = true) : standalone.Shut :=
  Or.inr (Threads.either_of_any ((Threads.any_of_teardown hstage _).trans hshut))

theorem shut_of_open {stage : Teardown} (hstage : standalone.teardown thread = some stage)
    (hopen : stage.shut = false) {after : Option Teardown}
    (hafter : after.any Teardown.shut = false)
    (other : Threads) (hhost : other.host = standalone.host)
    (hcallback : other.callback = standalone.callback) (hfate : other.ipcFate = standalone.ipcFate)
    (hnext : next.toThreads = other.setTeardown thread after) (hshut : next.Shut) :
    standalone.Shut := by
  have halike : standalone.toThreads.Alike (other.setTeardown thread after) Teardown.shut :=
    Threads.Alike.setTeardown (by rw [hstage, hafter]; exact hopen.symm) hhost hcallback
  rw [Shut, hnext, halike.either] at hshut
  rcases hshut with hfreed | heither
  · left
    rw [← hfate]
    exact hfreed
  · exact Or.inr heither

theorem safe_close (h : standalone.Safe) {step : Step} {wire : Wire} {stage : Teardown}
    (hstage : standalone.teardown thread = some stage)
    (hat : stage = .closing ∧ step = .ipcClose ∨ stage = .releasing)
    (hwire : standalone.wire.step step = some wire) :
    Safe ({ if step.signals then standalone.signal else standalone.touchIpc with
      wire }.setTeardown thread
      (some (if wire.held = none then .locking else .releasing))) := by
  have hipc := h.ordered.ipc_of_teardown hstage
  have hsignal : standalone.signalFrees = [] := by
    apply h.ordered.signal_of_teardown hstage
    rcases hat with ⟨hclosing, _⟩ | hreleasing
    · simp [hclosing]
    · simp [hreleasing]
  have hfault :
      (if step.signals then standalone.signal else standalone.touchIpc).fault = false := by
    split
    · exact h.signal hipc hsignal
    · exact h.touchIpc hipc
  have hthreads : (if step.signals then standalone.signal else standalone.touchIpc).toThreads =
      standalone.toThreads := by
    split <;> rfl
  refine h.call hwire ?_ rfl (fun _ => ?_) hfault
  · have hordered : Threads.Ordered (standalone.toThreads.setTeardown thread
        (some (if wire.held = none then .locking else .releasing))) := by
      rcases hat with ⟨hclosing, _⟩ | hreleasing
      · rw [hclosing] at hstage
        split
        · exact h.ordered.stay _ hstage (by decide) rfl
        · exact h.ordered.stay _ hstage (by decide) rfl
      · rw [hreleasing] at hstage
        split
        · exact h.ordered.stay _ hstage (by decide) rfl
        · exact h.ordered.stay _ hstage (by decide) rfl
    rw [← hthreads] at hordered
    exact hordered
  · rcases hat with ⟨_, hclose⟩ | hreleasing
    · right
      rw [hclose] at hwire
      exact Wire.ipcClose_closes h.hosted hwire
    · rw [hreleasing] at hstage
      exact Or.inl (shut_of_teardown hstage rfl)

theorem safe_tear (h : standalone.Safe) {stage : Teardown}
    (hstage : standalone.teardown thread = some stage) (hstep : Tear standalone thread stage next) :
    next.Safe := by
  have hipc := h.ordered.ipc_of_teardown hstage
  have hpoll := h.ordered.poll_of_teardown hstage
  have hsignal := h.ordered.signal_of_teardown hstage
  have hshut : stage.shut = true → standalone.Shut := shut_of_teardown hstage
  cases hstep with
  | stop | stopCb =>
    exact h.frame (h.ordered.stay _ hstage (by decide) rfl) rfl
      (shut_of_open hstage rfl rfl standalone.toThreads rfl rfl rfl rfl) (h.touchPoll (hpoll rfl))
  | pollLock hlock =>
    rename_i running
    refine h.frame (h.ordered.lock _ hstage (by decide) rfl rfl hlock) rfl
      (shut_of_open hstage rfl rfl { standalone.toThreads with running } rfl rfl rfl rfl) ?_
    simp [setTeardown, signal, touchPoll, touchIpc, touchSignal, h.fault, hpoll rfl, hipc,
      hsignal (by decide)]
  | detach =>
    exact h.frame (h.ordered.detach hstage) rfl
      (shut_of_open hstage rfl rfl { standalone.toThreads with attached := false } rfl rfl rfl rfl)
      (h.touchIpc hipc)
  | pollUnlock =>
    exact h.frame (h.ordered.unlock _ hstage (by decide) rfl rfl) rfl
      (shut_of_open hstage rfl rfl { standalone.toThreads with
        running := standalone.running.unlock }
        rfl rfl rfl rfl) (h.touchSignal (hsignal (by decide)))
  | pollFree =>
    exact h.frame (h.ordered.freePoll hstage) rfl
      (shut_of_open hstage rfl rfl { standalone.toThreads with pollFate := .destroyed thread }
        rfl rfl rfl rfl) (h.touchPoll (hpoll rfl))
  | close hat hwire => exact safe_close h hstage hat hwire
  | lock hlock =>
    exact h.frame (h.ordered.lock _ hstage (by decide) rfl rfl hlock) rfl (fun _ => hshut rfl)
      (h.signal hipc (hsignal (by decide)))
  | clear =>
    exact h.frame (h.ordered.clear hstage) rfl (fun _ => hshut rfl)
      (h.touchSignal (hsignal (by decide)))
  | unlock =>
    exact h.frame (h.ordered.unlock _ hstage (by decide) rfl rfl) rfl (fun _ => hshut rfl)
      (h.touchSignal (hsignal (by decide)))
  | send =>
    exact h.frame (h.ordered.send hstage) rfl (fun _ => hshut rfl)
      (h.touchSignal (hsignal (by decide)))
  | leave hthread =>
    subst hthread
    exact h.frame (h.ordered.leaveSelf hstage) rfl (fun _ => hshut rfl)
      (h.touchSignal (hsignal (by decide)))
  | join hthread hexited =>
    subst hthread
    exact h.frame (h.ordered.join hstage hexited) rfl (fun _ => hshut rfl)
      (h.touchSignal (hsignal (by decide)))
  | signalFree =>
    exact h.frame (h.ordered.freeSignal hstage) rfl (fun _ => hshut rfl)
      (h.touchSignal (hsignal (by decide)))
  | free => exact h.frame (h.ordered.freeIpc hstage) rfl (fun _ => hshut rfl) (h.touchIpc hipc)

theorem shut_of_idle (hshut : next.Shut) (hhost : next.host = standalone.host)
    (hfate : next.ipcFate = standalone.ipcFate) (hidle : next.teardown .poll = none) :
    standalone.Shut := by
  rw [Shut, Threads.either, hhost, hfate, hidle, Option.any_none, Bool.or_false] at hshut
  rcases hshut with hfreed | hhost
  · exact Or.inl hfreed
  · exact Or.inr (Threads.either_of_host hhost)

theorem safe_worklet (h : standalone.Safe) {step : Step} {wire : Wire}
    (hworklet : step.ofWorklet = true)
    (hwire : standalone.wire.step step = some wire) :
    Safe { if standalone.wire.rouses step then standalone.signal else standalone with wire } := by
  by_cases hrouses : standalone.wire.rouses step = true
  · have hopen : ¬ standalone.Shut := by
      intro hshut
      have hlistening := Wire.rouses_listening hworklet hrouses
      rw [h.shut hshut] at hlistening
      contradiction
    have hipc : standalone.ipcFate.freed = false := by
      by_contra hfreed
      exact hopen (Or.inl (eq_true_of_ne_false hfreed))
    have hsignal := h.ordered.signal_of_open hopen
    rw [if_pos hrouses]
    exact h.call hwire h.ordered rfl Or.inl (h.signal hipc hsignal)
  · rw [if_neg hrouses]
    exact h.call hwire h.ordered rfl Or.inl h.fault

theorem safe_dispatch (h : standalone.Safe) (hmove : Move standalone .dispatch next) :
    next.Safe := by
  have hdispatch := h.ordered.dispatch
  have hattached := h.ordered.attached.loaded
  have hsignal := h.ordered.signalled.dispatching
  have hpoll := fun hloaded => h.ordered.poll_of_attached (hattached hloaded)
  have hipc := h.ordered.ipc_of_dispatching
  cases hmove with
  | loadPoll honWake =>
    rw [honWake] at hdispatch hsignal hipc
    refine h.frame (hdispatch _ rfl ?_ ?_) rfl id (h.touchIpc (hipc rfl))
    · split <;> rfl
    · split
      · rename_i hpresent
        exact ⟨hpresent, hsignal rfl⟩
      · trivial
  | loadCb honWake =>
    rw [honWake] at hdispatch hattached hsignal hpoll
    refine h.frame (hdispatch _ rfl ?_ ?_) rfl id (h.touchPoll (hpoll rfl))
    · split <;> rfl
    · split
      · trivial
      · exact ⟨hattached rfl, hsignal rfl⟩
  | loadEvents honWake =>
    rw [honWake] at hdispatch hattached hsignal hpoll
    exact h.frame (hdispatch _ rfl rfl ⟨hattached rfl, hsignal rfl⟩) rfl id
      (h.touchPoll (hpoll rfl))
  | mask honWake hwire | maskWritable honWake hwire =>
    rw [honWake] at hdispatch hattached hsignal hipc
    exact h.call hwire (hdispatch _ rfl rfl ⟨hattached rfl, hsignal rfl⟩) rfl Or.inl
      (h.touchIpc (hipc rfl))
  | callBack honWake =>
    rw [honWake] at hdispatch hattached hsignal
    refine h.frame (hdispatch _ rfl ?_ ?_) rfl id h.fault
    · split <;> rfl
    · split
      · trivial
      · exact ⟨hattached rfl, hsignal rfl⟩

theorem safe_stepLoop (h : standalone.Safe) (honWake : standalone.onWake ≠ .exited)
    (hordered : next.toThreads.Ordered) (hwire : next.wire = standalone.wire)
    (hhost : next.host = standalone.host) (hcallback : next.callback = standalone.callback)
    (hfate : next.ipcFate = standalone.ipcFate)
    (hfault : next.fault = standalone.touchSignal.fault) : next.Safe := by
  refine h.frame hordered hwire (fun hshut => ?_) ?_
  · rw [Shut, Threads.either, Threads.teardown, hhost, hcallback, hfate] at hshut
    exact hshut
  · rw [hfault]
    exact h.touchSignal (h.ordered.signal_of_onWake honWake)

theorem safe_check (h : standalone.Safe) (honWake : standalone.onWake = .checking) :
    Safe { standalone.touchSignal with
      onWake := if standalone.ipc then .loadingPoll else .unlocking } := by
  refine safe_stepLoop h (by simp [honWake]) ?_ rfl rfl rfl rfl rfl
  have hidle := h.ordered.idle (by simp [honWake])
  cases hipc : standalone.ipc with
  | true =>
    exact h.ordered.advance_same .loadingPoll (by rw [honWake]; rfl) hidle (by simp [honWake]) hipc
  | false =>
    exact h.ordered.advance_same .unlocking (by rw [honWake]; rfl) hidle (by simp [honWake]) trivial

theorem Safe.calls (h : standalone.Safe) (honWake : standalone.onWake = .running)
    (hbefore : standalone.teardown .poll = none) {step : Step} {wire : Wire}
    (hstep : standalone.wire.step step = some wire) {activity : Activity}
    (hafter : next.toThreads = { standalone.toThreads with callback := activity })
    (hidle : next.teardown .poll = none) (hwire : next.wire = wire) (hfault : next.fault = false) :
    next.Safe := by
  refine h.call hstep ?_ hwire (fun hshut => Or.inl ?_) hfault
  · rw [hafter] at hidle ⊢
    exact h.ordered.calls honWake hbefore hidle
  · exact shut_of_idle hshut (by rw [hafter]) (by rw [hafter]) hidle

theorem Safe.polls (h : standalone.Safe) (honWake : standalone.onWake = .running)
    (hbefore : standalone.teardown .poll = none) {activity : Activity}
    (hafter : next.toThreads = { standalone.toThreads with callback := activity })
    (hidle : next.teardown .poll = none) (hwire : next.wire = standalone.wire)
    (hfault : next.fault = false) : next.Safe := by
  refine h.frame ?_ hwire (fun hshut => ?_) hfault
  · rw [hafter] at hidle ⊢
    exact h.ordered.calls honWake hbefore hidle
  · exact shut_of_idle hshut (by rw [hafter]) (by rw [hafter]) hidle

theorem safe_startSignal (h : standalone.Safe) (honWake : standalone.onWake = .running)
    (hcallback : standalone.callback = .startingSignal)
    (hpoll : standalone.pollFate.freed = false) :
    Safe { standalone.touchPoll.signal with
      wire := { standalone.wire with wakeThread := true }, callback := .idle } := by
  have hbefore : standalone.teardown .poll = none := by simp [Threads.teardown, hcallback]
  have hipc : standalone.ipcFate.freed = false := by
    rw [h.ordered.ipc_of_poll hpoll]
    rfl
  refine ⟨h.ordered.calls honWake hbefore rfl, h.sound.woken true, h.hosted.frame rfl rfl rfl rfl,
    h.present, fun hshut => h.shut (shut_of_idle hshut rfl rfl rfl), ?_⟩
  simp [signal, touchPoll, touchIpc, touchSignal, h.fault, hpoll, hipc,
    h.ordered.signal_of_onWake (by simp [honWake])]

theorem teardown_of_mayCall (hmay : standalone.mayCall thread = true) :
    standalone.teardown thread = none ∧ (thread = .poll → standalone.onWake = .running) := by
  cases thread with
  | host => exact ⟨by simpa [mayCall, Threads.teardown] using hmay, by simp⟩
  | poll =>
    simp only [mayCall, Bool.and_eq_true, beq_iff_eq] at hmay
    exact ⟨Threads.teardown_of_idle hmay.2, fun _ => hmay.1⟩

theorem shut_of_begin (hbefore : standalone.teardown thread = none) {after : Teardown}
    (hopen : after.shut = false) (other : Threads) (hhost : other.host = standalone.host)
    (hcallback : other.callback = standalone.callback) (hunfreed : other.ipcFate.freed = false)
    (hnext : next.toThreads = other.setTeardown thread (some after)) (hshut : next.Shut) :
    standalone.Shut := by
  have halike : standalone.toThreads.Alike (other.setTeardown thread (some after)) Teardown.shut :=
    Threads.Alike.setTeardown (by rw [hbefore]; exact hopen) hhost hcallback
  rw [Shut, hnext, halike.either] at hshut
  refine Or.inr (hshut.resolve_left fun hfreed => ?_)
  exact absurd (hunfreed.symm.trans hfreed) (by decide)

theorem safe_pollDestroy (h : standalone.Safe) (hmay : standalone.mayCall thread = true)
    (halive : standalone.pollFate = .alive) :
    Safe ({ standalone with pollFate := .destroying thread }.setTeardown thread
      (some .stopping)) := by
  obtain ⟨hbefore, hrunning⟩ := teardown_of_mayCall hmay
  have hunfreed : standalone.ipcFate.freed = false := by
    rw [h.ordered.ipc_of_poll (by rw [halive]; rfl)]
    rfl
  exact h.frame (h.ordered.pollDestroy hbefore hrunning halive) rfl
    (shut_of_begin hbefore rfl { standalone.toThreads with pollFate := .destroying thread }
      rfl rfl hunfreed rfl) h.fault

theorem safe_ipcDestroy (h : standalone.Safe) (hmay : standalone.mayCall thread = true)
    (hpoll : standalone.pollFate.freed = true) (halive : standalone.ipcFate = .alive) :
    Safe ({ standalone with ipcFate := .destroying thread }.setTeardown thread
      (some .closing)) := by
  obtain ⟨hbefore, hrunning⟩ := teardown_of_mayCall hmay
  exact h.frame (h.ordered.ipcDestroy hbefore hrunning hpoll halive) rfl
    (shut_of_begin hbefore rfl { standalone.toThreads with ipcFate := .destroying thread }
      rfl rfl rfl rfl) h.fault

theorem Safe.step (h : standalone.Safe) (hkept : standalone.Kept)
    (hstep : standalone.step label = some next) : next.Safe := by
  have hipc := h.ordered.ipc_of_running
  have hpoll := h.ordered.poll_of_running
  have hsignal : standalone.onWake ≠ .exited → standalone.signalFrees = [] :=
    h.ordered.signal_of_onWake
  have hmove := move_step hstep
  cases hmove with
  | worklet hworklet hwire => exact safe_worklet h hworklet hwire
  | wake honWake hwire =>
    refine h.call hwire ?_ rfl Or.inl (h.touchSignal (hsignal (by simp [honWake])))
    exact h.ordered.advance_same .locking (by rw [honWake]; rfl)
      (h.ordered.idle (by simp [honWake])) (by simp [honWake]) trivial
  | lock honWake hlock =>
    exact safe_stepLoop h (by simp [honWake]) (h.ordered.onLock honWake hlock) rfl rfl rfl rfl rfl
  | check honWake => exact safe_check h honWake
  | loadPoll _ | loadCb _ | loadEvents _ | mask _ _ | maskWritable _ _ | callBack _ =>
    exact safe_dispatch h (move_step hstep)
  | unlock honWake =>
    exact safe_stepLoop h (by simp [honWake]) (h.ordered.onUnlock honWake) rfl rfl rfl rfl rfl
  | onClose honWake hclose =>
    refine safe_stepLoop h (by simp [honWake]) ?_ rfl rfl rfl rfl rfl
    exact h.ordered.advance_same .finishing (by rw [honWake]; rfl)
      (h.ordered.idle (by simp [honWake])) (by simp [honWake]) hclose
  | finish honWake =>
    exact safe_stepLoop h (by simp [honWake]) (h.ordered.finish honWake) rfl rfl rfl rfl rfl
  | call honWake hidle hfate hwire =>
    rename_i wire
    refine h.calls honWake (Threads.teardown_of_idle hidle) hwire rfl ?_ rfl
      (h.touchIpc (hipc honWake hfate))
    by_cases hheld : wire.held = none <;> simp [Threads.teardown, hheld]
  | rest honWake hcallback hwire =>
    rename_i wire
    have hunfreed := hipc honWake (hkept.ipc hcallback)
    refine h.calls honWake ?_ hwire rfl ?_ rfl (h.signal hunfreed (hsignal (by simp [honWake])))
    · simp only [Threads.teardown, hcallback]
    · by_cases hheld : wire.held = none <;> simp [Threads.teardown, hheld]
  | startCb honWake hcallback | stopCb honWake hcallback =>
    have hbefore : standalone.teardown .poll = none := by simp [Threads.teardown, hcallback]
    have hunfreed := hpoll honWake (hkept.poll (by rw [hcallback]; rfl))
    exact h.polls honWake hbefore rfl rfl rfl (h.touchPoll hunfreed)
  | startSignal honWake hcallback =>
    exact safe_startSignal h honWake hcallback (hpoll honWake (hkept.poll (by rw [hcallback]; rfl)))
  | start honWake hidle hfate =>
    rename_i events cb
    refine h.polls honWake (Threads.teardown_of_idle hidle) rfl ?_ rfl
      (h.touchPoll (hpoll honWake hfate))
    by_cases hnone : events = Events.none <;> simp [Threads.teardown, hnone]
  | stop honWake hidle hfate =>
    exact h.polls honWake (Threads.teardown_of_idle hidle) rfl rfl rfl
      (h.touchPoll (hpoll honWake hfate))
  | leave honWake hidle =>
    refine h.frame ?_ rfl id h.fault
    exact h.ordered.advance_same .unlocking (by rw [honWake]; rfl) hidle (by simp [honWake]) trivial
  | pollDestroy hmay halive => exact safe_pollDestroy h hmay halive
  | ipcDestroy hmay hfreed halive => exact safe_ipcDestroy h hmay hfreed halive
  | teardown hstage htear => exact safe_tear h hstage htear

theorem kept_tear (hkept : standalone.Kept) {stage : Teardown}
    (hstep : Tear standalone thread stage next) :
    next.Kept := by
  have hset : ∀ {other : Threads} (after : Option Teardown), _ → _ → _ →
      (other.setTeardown thread after).Kept := hkept.setTeardown
  cases hstep with
  | stop | stopCb | pollLock _ | detach | pollUnlock | lock _ | clear | unlock | send | leave _
  | join _ _
  | signalFree => exact hset _ rfl Or.inl Or.inl
  | close _ _ => split <;> exact hset _ rfl Or.inl Or.inl
  | pollFree => exact hset _ rfl (fun hsame => Or.inr (Fate.destroyed.inj hsame)) Or.inl
  | free => exact hset _ rfl Or.inl (fun hsame => Or.inr (Fate.destroyed.inj hsame))

theorem kept_step (hkept : standalone.Kept) (hstep : standalone.step label = some next) :
    next.Kept := by
  cases move_step hstep with
  | worklet _ _ => split <;> exact ⟨hkept.poll, hkept.ipc⟩
  | wake _ _ | lock _ _ | check _ | loadPoll _ | loadCb _ | loadEvents _ | mask _ _
  | maskWritable _ _
  | callBack _ | unlock _ | onClose _ _ | finish _ | leave _ _ => exact ⟨hkept.poll, hkept.ipc⟩
  | call _ _ hfate _ =>
    rename_i wire _ _ _
    refine ⟨fun hpolls => ?_, fun _ => hfate⟩
    revert hpolls
    by_cases hheld : wire.held = none <;> simp [hheld, Activity.polls]
  | rest _ hcallback _ =>
    rename_i wire _ _
    refine ⟨fun hpolls => ?_, fun _ => hkept.ipc hcallback⟩
    revert hpolls
    by_cases hheld : wire.held = none <;> simp [hheld, Activity.polls]
  | startCb _ hcallback =>
    exact ⟨fun _ => hkept.poll (by rw [hcallback]; rfl), fun hcalling => by contradiction⟩
  | startSignal _ _ | stopCb _ _ =>
    exact ⟨fun hpolls => by contradiction, fun hcalling => by contradiction⟩
  | start _ _ hfate =>
    rename_i events cb _ _
    refine ⟨fun _ => hfate, fun hcalling => ?_⟩
    revert hcalling
    by_cases hnone : events = Events.none <;> simp [hnone]
  | stop _ _ hfate => exact ⟨fun _ => hfate, fun hcalling => by contradiction⟩
  | pollDestroy _ _ => exact hkept.setTeardown _ rfl (fun hsame => by contradiction) Or.inl
  | ipcDestroy _ _ _ => exact hkept.setTeardown _ rfl Or.inl fun hsame => by contradiction
  | teardown _ htear => exact kept_tear hkept htear

theorem ordered_initial : Threads.Ordered {} := by
  refine ⟨⟨?_, by simp⟩, ⟨?_, ?_, ?_, ?_⟩, ⟨?_, ?_, ?_, ?_, ?_⟩, ⟨?_, ?_⟩, ⟨?_, ?_, ?_, rfl⟩⟩
  all_goals first | decide | intro thread; cases thread <;> decide

theorem safe_initial (h : system.init standalone) : standalone.Safe ∧ standalone.Kept := by
  obtain ⟨wire, poll, hwire, hipc, -, rfl⟩ := h
  refine ⟨⟨ordered_initial, Wire.sound hwire, Wire.hosted hwire, hipc, ?_, rfl⟩, ?_⟩
  · rintro (hfreed | heither) <;> contradiction
  · exact ⟨fun hpolls => by contradiction, fun hcalling => by contradiction⟩

theorem safe (h : system.Reachable standalone) : standalone.Safe := by
  refine (h.invariant (fun _ hinit => safe_initial hinit) ?_).1
  intro standalone label next _ hinv hstep
  exact ⟨hinv.1.step hinv.2 hstep, kept_step hinv.2 hstep⟩

theorem pollDestroyed_step (h : standalone.Safe) {destroyer : Thread}
    (hstep : standalone.step label = some next)
    (hdestroyed : standalone.pollFate = .destroyed destroyer) :
    next.pollFate = .destroyed destroyer := by
  cases move_step hstep with
  | worklet _ _ => split <;> exact hdestroyed
  | pollDestroy _ halive => simp [hdestroyed] at halive
  | teardown hstage htear =>
    cases htear with
    | pollFree =>
      have hunfreed := h.ordered.poll_of_teardown hstage rfl
      rw [hdestroyed] at hunfreed
      contradiction
    | close _ _ => split <;> exact hdestroyed
    | _ => exact hdestroyed
  | _ => exact hdestroyed

theorem pollDestroyed_run (h : system.Reachable standalone) {destroyer : Thread}
    (hdestroyed : standalone.pollFate = .destroyed destroyer) {labels : List StandaloneStep}
    (hrun : system.run standalone labels = some next) : next.pollFate = .destroyed destroyer :=
  h.persists (P := fun standalone => standalone.pollFate = .destroyed destroyer) hdestroyed
    (fun _ _ _ hreach hbefore hstep => pollDestroyed_step (safe hreach) hstep hbefore) hrun

end Standalone

namespace Threads

variable {threads : Threads}

theorem Ordered.onWake_of_destroyed (h : threads.Ordered)
    (hfate : threads.pollFate = .destroyed .host) :
    threads.onWake.loaded = false ∧ threads.onWake ≠ .running := by
  have hdetached : threads.attached = false := h.attached.attached.mpr (Or.inl (by rw [hfate]; rfl))
  constructor
  · by_contra hloaded
    rw [h.attached.loaded (eq_true_of_ne_false hloaded)] at hdetached
    contradiction
  · intro hrunning
    rcases h.attached.running hrunning with hattached | hself | hpast
    · rw [hattached] at hdetached
      contradiction
    · rw [hfate] at hself
      exact absurd (Fate.destroyed.inj hself) (by decide)
    · rw [(h.attached.fate .poll).mpr (any_ofPoll hpast)] at hfate
      contradiction

/-- The signal is freed once at most, by who destroys the ipc, and after the loop has ended. -/
theorem Ordered.signalFrees_cases (h : threads.Ordered) :
    threads.signalFrees = [] ∨ ∃ thread, threads.signalFrees = [thread] ∧ threads.onWake = .exited ∧
      (threads.ipcFate = .destroying thread ∨ threads.ipcFate = .destroyed thread) := by
  by_cases hexited : threads.onWake = .exited
  · rw [h.freed.signalFrees, signalFreed]
    cases hfate : threads.ipcFate with
    | alive => exact Or.inl rfl
    | destroying thread =>
      cases thread with
      | host =>
        simp only
        split
        · exact Or.inr ⟨.host, rfl, hexited, Or.inl rfl⟩
        · exact Or.inl rfl
      | poll => exact Or.inr ⟨.poll, by simp [hexited], hexited, Or.inl rfl⟩
    | destroyed thread =>
      cases thread with
      | host => exact Or.inr ⟨.host, rfl, hexited, Or.inr rfl⟩
      | poll => exact Or.inr ⟨.poll, by simp [hexited], hexited, Or.inr rfl⟩
  · exact Or.inl (h.signal_of_onWake hexited)

theorem Ordered.signalFrees_destroyed (h : threads.Ordered) {thread : Thread}
    (hfate : threads.ipcFate = .destroyed thread)
    (hdone : thread = .poll → threads.onWake = .exited) :
    threads.signalFrees = [thread] := by
  rw [h.freed.signalFrees, signalFreed, hfate]
  cases thread with
  | host => rfl
  | poll => simp [hdone rfl]

end Threads

/-- In every run, whichever thread destroys the poll and the ipc: no access to freed memory
was made, by a dispatch or otherwise; a poll that the host has destroyed is called back no
more; and the signal is freed once, by who destroyed the ipc, and only once the loop ended. -/
theorem bareIpc_destroy_safe (standalone : Standalone)
    (h : Standalone.system.Reachable standalone) :
    standalone.fault = false ∧
    (standalone.pollFate = .destroyed .host → ∀ labels later,
      Standalone.system.run standalone labels = some later →
      later.onWake.loaded = false ∧ later.onWake ≠ .running) ∧
    (standalone.signalFrees = [] ∨ ∃ thread, standalone.signalFrees = [thread] ∧
      standalone.onWake = .exited ∧
      (standalone.ipcFate = .destroying thread ∨ standalone.ipcFate = .destroyed thread)) ∧
    ∀ thread, standalone.ipcFate = .destroyed thread →
      (thread = .poll → standalone.onWake = .exited) → standalone.signalFrees = [thread] := by
  have hsafe := Standalone.safe h
  refine ⟨hsafe.fault, fun hdestroyed labels later hrun => ?_, hsafe.ordered.signalFrees_cases,
    fun thread hfate hdone => hsafe.ordered.signalFrees_destroyed hfate hdone⟩
  have hlater := Standalone.safe (h.run hrun)
  exact hlater.ordered.onWake_of_destroyed (Standalone.pollDestroyed_run h hdestroyed hrun)

def Standalone.written : Standalone where
  wire :=
    Wire.system.result (Wire.ofQueue (bareQueueCreate Slots.blank Slots.blank))
      [.ipcCreate 1 2, .openUv none none, .write 0 [1, 2, 3]] (by decide +kernel)
  poll := ⟨⟨true, false⟩, some 7⟩

def Standalone.inCallback : Standalone :=
  Standalone.system.result Standalone.written
    (.flatten [[.wake, .lock, .check], .replicate 6 .dispatch,
      [.call (.ipcRead 10), .rest .ipcReadPending, .pollDestroy .poll],
      .replicate 6 (.teardown .poll), [.ipcDestroy .poll], .replicate 9 (.teardown .poll),
      [.leave, .unlock, .onClose, .finish]])
    (by decide +kernel)

def Standalone.overCallback : Standalone :=
  Standalone.system.result Standalone.written
    (.flatten [[.wake, .lock, .check], .replicate 6 .dispatch,
      [.call (.ipcRead 10), .rest .ipcReadPending, .pollDestroy .host],
      .replicate 2 (.teardown .host), [.leave, .unlock], .replicate 4 (.teardown .host),
      [.ipcDestroy .host], .replicate 7 (.teardown .host),
      [.wake, .lock, .check, .unlock, .onClose, .finish], .replicate 3 (.teardown .host)])
    (by decide +kernel)

theorem Standalone.written_init : Standalone.system.init Standalone.written := by
  refine ⟨_, _, .result (S := Wire.system) ⟨_, _, rfl⟩ _ _, ?_, ?_, rfl⟩
  · decide +kernel
  · decide +kernel

theorem bareIpc_destroy_safe_inCallback :
    Standalone.inCallback.signalFrees = [.poll] ∧ Standalone.overCallback.signalFrees = [.host] ∧
      Standalone.overCallback.onWake ≠ .running := by
  have hin : Standalone.system.Reachable Standalone.inCallback :=
    .result (S := Standalone.system) Standalone.written_init _ _
  have hover : Standalone.system.Reachable Standalone.overCallback :=
    .result (S := Standalone.system) Standalone.written_init _ _
  refine ⟨?_, ?_, ?_⟩
  · exact (bareIpc_destroy_safe Standalone.inCallback hin).2.2.2 .poll (by decide +kernel)
      (by decide +kernel)
  · exact (bareIpc_destroy_safe Standalone.overCallback hover).2.2.2 .host (by decide +kernel)
      (by simp)
  · exact ((bareIpc_destroy_safe Standalone.overCallback hover).2.1 (by decide +kernel) [] _ rfl).2

end BareKit
