import BareKit.Custody
import BareKit.Ends
import BareKit.IPCStream
import BareKit.Shares
import BareKit.Entry
import BareKit.Calls

/-! Where the buffers of the messages are: with the call that allocated one for what it writes,
in a ring, with the ipc that reads a message, or with the script as an external `ArrayBuffer`.
The threads of the host take turns at `ipc->lock`, and the worklet's is one thread. A step is a
section of the lock of the queue, or what its thread does before, after or between them. -/
namespace BareKit

/-- The external `ArrayBuffer` that `bare_worklet__on_ipc_read` makes of a message. -/
def externalArrayBuffer : ReadResult → Option Buffer
  | .ok ⟨base, len⟩ => if len = 0 then none else base
  | .wouldBlock => none

/-- Where `bare_queue_write` is: it has copied its data, or has to free the copy. -/
inductive OnWrite where
  | idle
  | writing (addr : Pointer) (data : Bytes)
  | refused (base : Buffer)
  deriving DecidableEq, Repr

/-- Where the thread that holds `ipc->lock` is, if it is not in a write. -/
inductive OnIpc where
  | idle
  | reading (len : Nat) (blocked : Bool)
  | closing
  deriving DecidableEq, Repr

/-- What the thread of the worklet has done to its end of the queue, or what the host does in
place of a thread that never started. -/
inductive OnEnd where
  | absent
  | running
  | tearingDown
  | toreDown
  | abandoned
  | destroyed
  deriving DecidableEq, Repr

namespace OnEnd

def scripting : OnEnd → Bool
  | .running | .tearingDown => true
  | _ => false

end OnEnd

inductive Site where
  | refused (port : Port)
  | read
  | closed
  | finalized
  | drained
  deriving DecidableEq, Repr

structure Release where
  site : Site
  addr : Pointer
  deriving DecidableEq, Repr

inductive Place where
  | writing (port : Port)
  /-- The slots between the tail and the head of the ring that `port` reads. -/
  | ring (port : Port)
  | pending
  | array
  deriving DecidableEq, Repr

/-- `arrays` are the buffers of the external `ArrayBuffer`s whose finalizers have not run,
`draining` is who is in `bare_queue__free`, and `gone` whether it has freed the queue. A buffer
has the number of its `malloc` for its address. -/
structure Buffers where
  queue : Queue
  ipc : Option Ipc := none
  onIpc : OnIpc := .idle
  onEnd : OnEnd := .absent
  onWrite : Port → OnWrite := fun _ => .idle
  arrays : List Buffer := []
  /-- The host has not called `bare_worklet_destroy`. -/
  alive : Bool := true
  draining : Option Party := none
  gone : Bool := false
  mallocs : Nat := 0
  frees : List Release := []

inductive BufferStep where
  -- The host.
  | ipcCreate (onSignal ipc : Pointer)
  | ipcWrite (data : Bytes)
  | ipcRead (len : Nat)
  | ipcReadPending
  | ipcEnd
  | ipcClose
  | ipcCloseRelease
  | destroy
  -- The worklet.
  | openUv (onRecv data : Option Pointer)
  | write (data : Bytes)
  | read
  | endUv
  | finalize (buffer : Buffer)
  | exit
  | tearDown
  -- Either.
  | onWrite (port : Port)
  | onDestroy
  | drain
  deriving DecidableEq, Repr

theorem Ring.WellFormed.shift_cases {ring next : Ring} {message : Message} (h : ring.WellFormed)
    (hshift : bareQueueRingShift ring = some (message, next)) :
    ∃ buffer, ring.buffers = buffer :: next.buffers ∧ message = buffer.message ∧
      next.WellFormed := by
  have hcases := h.shift
  cases hbuffers : ring.buffers with
  | nil =>
    rw [hbuffers, hshift] at hcases
    contradiction
  | cons buffer rest =>
    rw [hbuffers] at hcases
    obtain ⟨found, hfound, hwell, hrest⟩ := hcases
    rw [hshift] at hfound
    cases hfound
    exact ⟨buffer, by rw [hrest], rfl, hwell⟩

namespace Buffers

def put (buffers : Buffers) (port : Port) (write : OnWrite) : Buffers :=
  { buffers with onWrite := Function.update buffers.onWrite port write }

def free (buffers : Buffers) (site : Site) (base : Option Buffer) : Buffers :=
  { buffers with frees := (base.toList.map fun base => ⟨site, base.addr⟩) ++ buffers.frees }

def lock (buffers : Buffers) : Option Ipc :=
  if buffers.onIpc = .idle ∧ buffers.onWrite .thread = .idle ∧ buffers.draining ≠ some .ipc then
    buffers.ipc
  else none

def advance (buffers : Buffers) (party : Party) (outcome : Outcome Bool) : Buffers :=
  { buffers with
    queue := outcome.queue
    draining := if outcome.result then some party else buffers.draining }

def malloc (buffers : Buffers) (port : Port) (data : Bytes) : Buffers :=
  { buffers.put port (.writing buffers.mallocs data) with mallocs := buffers.mallocs + 1 }

/-- The section of `bare_queue_write`, and what follows it. -/
def stepWrite (buffers : Buffers) (port : Port) : OnWrite → Option Buffers
  | .idle => none
  | .writing addr data =>
    let written := bareQueueWrite buffers.queue port addr data
    some { buffers.put port (written.freed.elim .idle .refused) with queue := written.queue }
  | .refused base => some ((buffers.put port .idle).free (.refused port) (some base))

def stepIpc (buffers : Buffers) (ipc : Ipc) : BufferStep → Option Buffers
  | .ipcWrite data =>
    if ipc.port ∧ data ≠ [] then some (buffers.malloc .thread data) else some buffers
  | .ipcRead len =>
    if 0 < len then
      let read := bareIpcReadQueue buffers.queue ipc
      some { buffers with
        queue := read.queue, ipc := some read.result.1, onIpc := .reading len read.result.2 }
    else none
  | .ipcEnd =>
    match bareIpcEnd buffers.queue ipc with
    | none => some buffers
    | some ended => some (buffers.advance .ipc ended)
  | .ipcClose =>
    match bareIpcClose buffers.queue ipc with
    | none => some buffers
    | some closed => some { buffers.advance .ipc closed with onIpc := .closing }
  | _ => none

/-- The steps of a thread that holds `ipc->lock` already. -/
def stepHeld (buffers : Buffers) (ipc : Ipc) : OnIpc → BufferStep → Option Buffers
  | .reading len blocked, .ipcReadPending =>
    let read := bareIpcReadPending buffers.queue ipc len blocked
    some ({ buffers with ipc := some read.ipc, onIpc := .idle }.free .read read.freed)
  | .closing, .ipcCloseRelease =>
    let closed := bareIpcCloseRelease ipc
    if buffers.draining = some .ipc then none
    else some ({ buffers with ipc := some closed.1, onIpc := .idle }.free .closed closed.2)
  | _, _ => none

def stepScript (buffers : Buffers) : BufferStep → Option Buffers
  | .write data => if data ≠ [] then some (buffers.malloc .uv data) else some buffers
  | .read =>
    let read := bareQueueRead buffers.queue .uv
    some { buffers with
      queue := read.queue, arrays := buffers.arrays ++ (externalArrayBuffer read.result).toList }
  | .endUv => some (buffers.advance .worklet (bareQueueEnd buffers.queue .uv))
  | .finalize buffer =>
    if buffer ∈ buffers.arrays then
      some ({ buffers with arrays := buffers.arrays.erase buffer }.free .finalized (some buffer))
    else none
  | _ => none

/-- `bare_queue__free` takes what is left from the one ring, then from the other. -/
def stepDrain (buffers : Buffers) : Buffers :=
  match bareQueueRingShift buffers.queue.toUv with
  | some (message, ring) =>
    { buffers with queue := { buffers.queue with toUv := ring } }.free .drained message.base
  | none =>
    match bareQueueRingShift buffers.queue.toThread with
    | some (message, ring) =>
      { buffers with queue := { buffers.queue with toThread := ring } }.free .drained message.base
    | none => { buffers with draining := none, gone := true }

def step (buffers : Buffers) (label : BufferStep) : Option Buffers :=
  match label with
  | .ipcCreate onSignal ipc =>
    if buffers.alive then
      let created := bareIpcCreate buffers.queue onSignal ipc
      some { buffers with queue := created.queue, ipc := created.result.or buffers.ipc }
    else none
  | .ipcWrite _ | .ipcRead _ | .ipcEnd | .ipcClose =>
    buffers.lock.bind fun ipc => buffers.stepIpc ipc label
  | .ipcReadPending | .ipcCloseRelease =>
    buffers.ipc.bind fun ipc => buffers.stepHeld ipc buffers.onIpc label
  | .destroy =>
    if buffers.alive then
      -- The thread of the worklet is left to tear down by itself, if it was started.
      if buffers.onEnd = .absent then
        some { buffers.advance .host (bareQueueClose buffers.queue .uv) with
          alive := false, onEnd := .abandoned }
      else some { buffers with alive := false }
    else none
  | .openUv onRecv data =>
    if buffers.onEnd = .absent then
      some { buffers with
        queue := (bareQueueOpenUv buffers.queue onRecv data).queue, onEnd := .running }
    else none
  | .write _ | .read | .endUv | .finalize _ =>
    if buffers.onEnd.scripting ∧ buffers.onWrite .uv = .idle ∧ buffers.draining ≠ some .worklet then
      buffers.stepScript label
    else none
  | .exit =>
    if buffers.onEnd = .running ∧ buffers.onWrite .uv = .idle ∧
      buffers.draining ≠ some .worklet then
      some { buffers.advance .worklet (bareQueueClose buffers.queue .uv) with
        onEnd := .tearingDown }
    else none
  | .tearDown =>
    -- The end of the environment finalizes what is left of the script's buffers.
    if buffers.onEnd = .tearingDown ∧ buffers.onWrite .uv = .idle ∧
        buffers.draining ≠ some .worklet ∧ buffers.arrays = [] then
      some { buffers with onEnd := .toreDown }
    else none
  | .onWrite port => buffers.stepWrite port (buffers.onWrite port)
  | .onDestroy =>
    if buffers.onEnd = .toreDown ∧ buffers.alive = false then
      some { buffers.advance .worklet (bareQueueDestroy buffers.queue) with onEnd := .destroyed }
    else if buffers.onEnd = .abandoned ∧ buffers.draining ≠ some .host then
      some { buffers.advance .host (bareQueueDestroy buffers.queue) with onEnd := .destroyed }
    else none
  | .drain => if buffers.draining.isSome then some buffers.stepDrain else none

def system : Transition.System Buffers BufferStep where
  init buffers := ∃ toUv toThread, buffers = { queue := bareQueueCreate toUv toThread }
  step := step

def held (buffers : Buffers) : Place → List Pointer
  | .writing port =>
    match buffers.onWrite port with
    | .idle => []
    | .writing addr _ => [addr]
    | .refused base => [base.addr]
  | .ring port => (bareQueueInbox buffers.queue port).buffers.map Buffer.addr
  | .pending => ((buffers.ipc.bind fun ipc => ipc.pending.base).map Buffer.addr).toList
  | .array => buffers.arrays.map Buffer.addr

def custody (buffers : Buffers) : Custody Place where
  held := buffers.held
  issued := buffers.mallocs
  released := buffers.frees.map Release.addr

inductive Move (buffers : Buffers) : BufferStep → Buffers → Prop where
  | same {label} : Move buffers label buffers
  | created {onSignal ipc} (halive : buffers.alive = true) :
    Move buffers (.ipcCreate onSignal ipc)
      { buffers with
        queue := (bareIpcCreate buffers.queue onSignal ipc).queue
        ipc := (bareIpcCreate buffers.queue onSignal ipc).result.or buffers.ipc }
  | hostMalloc {ipc data} (hlock : buffers.lock = some ipc) (hport : ipc.port = true)
      (hdata : data ≠ []) :
    Move buffers (.ipcWrite data) (buffers.malloc .thread data)
  | scriptMalloc {data} (hscript : buffers.onEnd.scripting = true)
      (hidle : buffers.onWrite .uv = .idle)
      (hdata : data ≠ []) : Move buffers (.write data) (buffers.malloc .uv data)
  | wrote {port addr data} (hwrite : buffers.onWrite port = .writing addr data) :
    Move buffers (.onWrite port)
      { buffers.put port
        ((bareQueueWrite buffers.queue port addr data).freed.elim .idle .refused) with
        queue := (bareQueueWrite buffers.queue port addr data).queue }
  | refused {port base} (hwrite : buffers.onWrite port = .refused base) :
    Move buffers (.onWrite port) ((buffers.put port .idle).free (.refused port) (some base))
  | hostRead {ipc len} (hlock : buffers.lock = some ipc) (hlen : 0 < len) :
    Move buffers (.ipcRead len)
      { buffers with
        queue := (bareIpcReadQueue buffers.queue ipc).queue
        ipc := some (bareIpcReadQueue buffers.queue ipc).result.1
        onIpc := .reading len (bareIpcReadQueue buffers.queue ipc).result.2 }
  | hostCopied {ipc len blocked} (hipc : buffers.ipc = some ipc)
      (hheld : buffers.onIpc = .reading len blocked) :
    Move buffers .ipcReadPending
      ({ buffers with
        ipc := some (bareIpcReadPending buffers.queue ipc len blocked).ipc,
        onIpc := .idle }.free .read
          (bareIpcReadPending buffers.queue ipc len blocked).freed)
  | hostEnded {ipc} (hlock : buffers.lock = some ipc) (hport : ipc.port = true) :
    Move buffers .ipcEnd (buffers.advance .ipc (bareQueueEnd buffers.queue .thread))
  | hostClosed {ipc} (hlock : buffers.lock = some ipc) (hport : ipc.port = true) :
    Move buffers .ipcClose
      { buffers.advance .ipc (bareQueueClose buffers.queue .thread) with onIpc := .closing }
  | hostReleased {ipc} (hipc : buffers.ipc = some ipc) (hheld : buffers.onIpc = .closing) :
    Move buffers .ipcCloseRelease
      ({ buffers with ipc := some (bareIpcCloseRelease ipc).1, onIpc := .idle }.free .closed
        (bareIpcCloseRelease ipc).2)
  | abandoned (hend : buffers.onEnd = .absent) :
    Move buffers .destroy
      { buffers.advance .host (bareQueueClose buffers.queue .uv) with
        alive := false, onEnd := .abandoned }
  | left : Move buffers .destroy { buffers with alive := false }
  | opened {onRecv data} (hend : buffers.onEnd = .absent) :
    Move buffers (.openUv onRecv data)
      { buffers with
        queue := (bareQueueOpenUv buffers.queue onRecv data).queue, onEnd := .running }
  | scriptRead (hscript : buffers.onEnd.scripting = true) :
    Move buffers .read
      { buffers with
        queue := (bareQueueRead buffers.queue .uv).queue
        arrays := buffers.arrays ++
          (externalArrayBuffer (bareQueueRead buffers.queue .uv).result).toList }
  | scriptEnded (hscript : buffers.onEnd.scripting = true) :
    Move buffers .endUv (buffers.advance .worklet (bareQueueEnd buffers.queue .uv))
  | finalized {buffer} (hscript : buffers.onEnd.scripting = true) (hmem : buffer ∈ buffers.arrays) :
    Move buffers (.finalize buffer)
      ({ buffers with arrays := buffers.arrays.erase buffer }.free .finalized (some buffer))
  | exited (hend : buffers.onEnd = .running) :
    Move buffers .exit
      { buffers.advance .worklet (bareQueueClose buffers.queue .uv) with onEnd := .tearingDown }
  | toreDown (hend : buffers.onEnd = .tearingDown) (hidle : buffers.onWrite .uv = .idle)
      (harrays : buffers.arrays = []) : Move buffers .tearDown { buffers with onEnd := .toreDown }
  | destroyed {party} (hend : buffers.onEnd = .toreDown ∨ buffers.onEnd = .abandoned)
      (hleft : buffers.onEnd = .toreDown → buffers.alive = false) :
    Move buffers .onDestroy
      { buffers.advance party (bareQueueDestroy buffers.queue) with onEnd := .destroyed }
  | drained {port message ring} (hdraining : buffers.draining.isSome)
      (hshift : bareQueueRingShift (bareQueueInbox buffers.queue port) = some (message, ring)) :
    Move buffers .drain
      ({ buffers with queue := buffers.queue.setInbox port ring }.free .drained message.base)
  | freed (hdraining : buffers.draining.isSome)
      (hshift : ∀ port, bareQueueRingShift (bareQueueInbox buffers.queue port) = none) :
    Move buffers .drain { buffers with draining := none, gone := true }

variable {buffers next : Buffers} {label : BufferStep} {port : Port}

theorem lock_eq_some {ipc : Ipc} (h : buffers.lock = some ipc) :
    buffers.ipc = some ipc ∧ buffers.onIpc = .idle ∧ buffers.onWrite .thread = .idle := by
  unfold lock at h
  split at h
  · rename_i hfree
    exact ⟨h, hfree.1, hfree.2.1⟩
  · contradiction

theorem move_stepIpc {ipc : Ipc} (hlock : buffers.lock = some ipc)
    (hstep : buffers.stepIpc ipc label = some next) : Move buffers label next := by
  cases label with
  | ipcWrite data =>
    simp only [stepIpc] at hstep
    split at hstep
    · rename_i hguard
      cases hstep
      exact .hostMalloc hlock hguard.1 hguard.2
    · cases hstep
      exact .same
  | ipcRead len =>
    simp only [stepIpc] at hstep
    split at hstep
    · cases hstep
      exact .hostRead hlock ‹_›
    · contradiction
  | ipcEnd =>
    simp only [stepIpc, bareIpcEnd] at hstep
    split at hstep <;> rename_i hended
    · cases hstep
      exact .same
    · split at hended <;> cases hended
      cases hstep
      exact .hostEnded hlock ‹_›
  | ipcClose =>
    simp only [stepIpc, bareIpcClose] at hstep
    split at hstep <;> rename_i hclosed
    · cases hstep
      exact .same
    · split at hclosed <;> cases hclosed
      cases hstep
      exact .hostClosed hlock ‹_›
  | _ => contradiction

theorem move_stepHeld {ipc : Ipc} (hipc : buffers.ipc = some ipc)
    (hstep : buffers.stepHeld ipc buffers.onIpc label = some next) : Move buffers label next := by
  cases hheld : buffers.onIpc with
  | idle =>
    rw [hheld] at hstep
    contradiction
  | reading len blocked =>
    rw [hheld] at hstep
    cases label with
    | ipcReadPending =>
      cases hstep
      exact .hostCopied hipc hheld
    | _ => contradiction
  | closing =>
    rw [hheld] at hstep
    cases label with
    | ipcCloseRelease =>
      simp only [stepHeld] at hstep
      split at hstep
      · contradiction
      · cases hstep
        exact .hostReleased hipc hheld
    | _ => contradiction

theorem move_stepScript (hscript : buffers.onEnd.scripting = true)
    (hidle : buffers.onWrite .uv = .idle)
    (hstep : buffers.stepScript label = some next) : Move buffers label next := by
  cases label with
  | write data =>
    simp only [stepScript] at hstep
    split at hstep
    · cases hstep
      exact .scriptMalloc hscript hidle ‹_›
    · cases hstep
      exact .same
  | read =>
    cases hstep
    exact .scriptRead hscript
  | endUv =>
    cases hstep
    exact .scriptEnded hscript
  | finalize buffer =>
    simp only [stepScript] at hstep
    split at hstep
    · cases hstep
      exact .finalized hscript ‹_›
    · contradiction
  | _ => contradiction

theorem move_stepWrite (hstep : buffers.stepWrite port (buffers.onWrite port) = some next) :
    Move buffers (.onWrite port) next := by
  cases hwrite : buffers.onWrite port <;> rw [hwrite] at hstep <;> cases hstep
  · exact .wrote hwrite
  · exact .refused hwrite

theorem move_stepDrain (hdraining : buffers.draining.isSome) :
    Move buffers .drain buffers.stepDrain := by
  unfold stepDrain
  split
  · rename_i message ring hshift
    have huv : bareQueueRingShift (bareQueueInbox buffers.queue .uv) = some (message, ring) :=
      hshift
    exact .drained hdraining huv
  · rename_i huv
    split
    · rename_i message ring hshift
      have hthread :
          bareQueueRingShift (bareQueueInbox buffers.queue .thread) = some (message, ring) :=
        hshift
      exact .drained hdraining hthread
    · rename_i hthread
      refine .freed hdraining fun port => ?_
      cases port with
      | uv => exact huv
      | thread => exact hthread

theorem move_step (hstep : buffers.step label = some next) : Move buffers label next := by
  cases label with
  | ipcWrite _ | ipcRead _ | ipcEnd | ipcClose =>
    obtain ⟨ipc, hlock, hnext⟩ := Option.bind_eq_some_iff.mp hstep
    exact move_stepIpc hlock hnext
  | ipcReadPending | ipcCloseRelease =>
    obtain ⟨ipc, hipc, hnext⟩ := Option.bind_eq_some_iff.mp hstep
    exact move_stepHeld hipc hnext
  | write _ | read | endUv | finalize _ =>
    simp only [step] at hstep
    split at hstep
    · rename_i hguard
      exact move_stepScript hguard.1 hguard.2.1 hstep
    · contradiction
  | onWrite port => exact move_stepWrite hstep
  | ipcCreate _ _ =>
    simp only [step] at hstep
    split at hstep
    · cases hstep
      exact .created ‹_›
    · contradiction
  | destroy =>
    simp only [step] at hstep
    split at hstep
    · split at hstep <;> cases hstep
      · exact .abandoned ‹_›
      · exact .left
    · contradiction
  | openUv _ _ =>
    simp only [step] at hstep
    split at hstep
    · cases hstep
      exact .opened ‹_›
    · contradiction
  | exit =>
    simp only [step] at hstep
    split at hstep
    · rename_i hguard
      cases hstep
      exact .exited hguard.1
    · contradiction
  | tearDown =>
    simp only [step] at hstep
    split at hstep
    · rename_i hguard
      cases hstep
      exact .toreDown hguard.1 hguard.2.1 hguard.2.2.2
    · contradiction
  | onDestroy =>
    simp only [step] at hstep
    split at hstep
    · rename_i hguard
      cases hstep
      exact .destroyed (Or.inl hguard.1) fun _ => hguard.2
    · split at hstep
      · rename_i hguard
        cases hstep
        exact .destroyed (Or.inr hguard.1) fun htoreDown => by simp [hguard.1] at htoreDown
      · contradiction
  | drain =>
    simp only [step] at hstep
    split at hstep
    · cases hstep
      exact move_stepDrain ‹_›
    · contradiction

structure Turns (buffers : Buffers) : Prop where
  created : buffers.ipc = none ↔ buffers.queue.threadState = .idle
  shut : buffers.queue.threadState = .closed ↔
    buffers.onIpc = .closing ∨ ∃ ipc, buffers.ipc = some ipc ∧ ipc.port = false
  lock : buffers.onIpc ≠ .idle → buffers.ipc ≠ none ∧ buffers.onWrite .thread = .idle
  port : buffers.onWrite .thread ≠ .idle ∨ buffers.onIpc = .closing →
    ∃ ipc, buffers.ipc = some ipc ∧ ipc.port = true
  script : buffers.onEnd.scripting = false → buffers.onWrite .uv = .idle ∧ buffers.arrays = []
  destroyed : buffers.queue.destroyed = true ↔ buffers.onEnd = .destroyed
  alive : buffers.onEnd = .abandoned ∨ buffers.onEnd = .destroyed → buffers.alive = false
  unowned : buffers.draining ≠ none ∨ buffers.gone = true → bareQueueUnowned buffers.queue = true

theorem Turns.opened (h : buffers.Turns) {ipc : Ipc} (hipc : buffers.ipc = some ipc) :
    buffers.queue.threadState ≠ .idle := fun hidle => by simp [h.created.mpr hidle] at hipc

theorem Turns.closing (h : buffers.Turns) {ipc : Ipc} (hipc : buffers.ipc = some ipc)
    (hport : ipc.port = true) (hclosed : buffers.queue.threadState = .closed) :
    buffers.onIpc = .closing := by
  refine (h.shut.mp hclosed).resolve_right ?_
  rintro ⟨other, hother, hgone⟩
  rw [hipc] at hother
  cases hother
  rw [hport] at hgone
  contradiction

theorem Turns.still (h : buffers.Turns) (hunowned : bareQueueUnowned buffers.queue = true) :
    buffers.onEnd = .destroyed ∧ buffers.onWrite .thread = .idle ∧
      ∀ ipc, buffers.ipc = some ipc → ipc.port = true → buffers.onIpc = .closing := by
  obtain ⟨hdestroyed, hstate⟩ := (Wire.unowned_iff _).mp hunowned
  have hclosing : ∀ ipc, buffers.ipc = some ipc → ipc.port = true → buffers.onIpc = .closing :=
    fun ipc hipc hport => h.closing hipc hport (hstate.resolve_left (h.opened hipc))
  refine ⟨h.destroyed.mp hdestroyed, ?_, hclosing⟩
  by_contra hwrite
  obtain ⟨ipc, hipc, hport⟩ := h.port (Or.inl hwrite)
  exact hwrite (h.lock (by rw [hclosing ipc hipc hport]; simp)).2

theorem Turns.owned (h : buffers.Turns) (hend : buffers.onEnd ≠ .destroyed) :
    bareQueueUnowned buffers.queue = false :=
  eq_false_of_ne_true fun hunowned => hend (h.still hunowned).1

theorem Turns.kept (h : buffers.Turns) (howned : bareQueueUnowned buffers.queue = false) :
    ¬ (buffers.draining ≠ none ∨ buffers.gone = true) := fun hdrain => by
  simp [h.unowned hdrain] at howned

theorem Turns.unowned_advance (h : buffers.Turns) (howned : bareQueueUnowned buffers.queue = false)
    {party : Party} {outcome : Outcome Bool}
    (hresult : outcome.result = bareQueueUnowned outcome.queue)
    (hdrain : (buffers.advance party outcome).draining ≠ none ∨ buffers.gone = true) :
    bareQueueUnowned outcome.queue = true := by
  rw [← hresult]
  by_contra hkept
  simp only [Buffers.advance, if_neg hkept] at hdrain
  exact h.kept howned hdrain

theorem Turns.locked (h : buffers.Turns) {ipc : Ipc} (hlock : buffers.lock = some ipc)
    (hport : ipc.port = true) : bareQueueUnowned buffers.queue = false ∧
      (buffers.queue.threadState = .opened ∨ buffers.queue.threadState = .ended) := by
  obtain ⟨hipc, hidle, -⟩ := lock_eq_some hlock
  have hopen : buffers.queue.threadState ≠ .idle := h.opened hipc
  have hunclosed : buffers.queue.threadState ≠ .closed := fun hclosed => by
    simp [h.closing hipc hport hclosed] at hidle
  refine ⟨eq_false_of_ne_true fun hunowned => ?_, ?_⟩
  · exact ((Wire.unowned_iff _).mp hunowned).2.elim hopen hunclosed
  · cases hstate : buffers.queue.threadState <;> simp_all

theorem Turns.congr (h : buffers.Turns)
    (hstate : next.queue.threadState = buffers.queue.threadState)
    (hdestroyed : next.queue.destroyed = buffers.queue.destroyed)
    (hipc : next.ipc.map Ipc.port = buffers.ipc.map Ipc.port) (honIpc : next.onIpc = buffers.onIpc)
    (honEnd : next.onEnd = buffers.onEnd) (hwrite : next.onWrite = buffers.onWrite)
    (harrays : next.onEnd.scripting = false → buffers.arrays = [] → next.arrays = [])
    (halive : next.alive = true → buffers.alive = true)
    (hdraining : next.draining = buffers.draining)
    (hgone : next.gone = buffers.gone) : next.Turns := by
  have hnone : next.ipc = none ↔ buffers.ipc = none := by
    rw [← Option.map_eq_none_iff (f := Ipc.port), hipc, Option.map_eq_none_iff]
  have hport : ∀ port, (∃ ipc, next.ipc = some ipc ∧ ipc.port = port) ↔
      ∃ ipc, buffers.ipc = some ipc ∧ ipc.port = port := by
    intro port
    rw [← Option.map_eq_some_iff, hipc, Option.map_eq_some_iff]
  have hunowned : bareQueueUnowned next.queue = bareQueueUnowned buffers.queue := by
    rw [bareQueueUnowned, bareQueueUnowned, hstate, hdestroyed]
  refine ⟨?_, ?_, ?_, ?_, fun hscript => ?_, ?_, fun hend => ?_, ?_⟩
  · rw [hnone, hstate]
    exact h.created
  · rw [hstate, honIpc, hport false]
    exact h.shut
  · simp only [honIpc, hwrite, Ne, hnone]
    exact h.lock
  · rw [honIpc, hwrite, hport true]
    exact h.port
  · have hbefore := h.script (honEnd ▸ hscript)
    exact ⟨hwrite ▸ hbefore.1, harrays hscript hbefore.2⟩
  · rw [hdestroyed, honEnd]
    exact h.destroyed
  · have hdead := h.alive (honEnd ▸ hend)
    exact eq_false_of_ne_true fun hnext => by simp [halive hnext] at hdead
  · rw [hdraining, hgone, hunowned]
    exact h.unowned

theorem setInbox_frame (queue : Queue) (port : Port) (ring : Ring) :
    (queue.setInbox port ring).threadState = queue.threadState ∧
      (queue.setInbox port ring).destroyed = queue.destroyed := by
  cases port <;> exact ⟨rfl, rfl⟩

theorem Turns.ring (h : buffers.Turns) (port : Port) {queue : Queue}
    (hqueue : ∃ ring, queue = buffers.queue.setInbox port ring) : Turns { buffers with queue } := by
  obtain ⟨ring, rfl⟩ := hqueue
  obtain ⟨hstate, hdestroyed⟩ := setInbox_frame buffers.queue port ring
  exact h.congr hstate hdestroyed rfl rfl rfl rfl (fun _ harrays => harrays) id rfl rfl

theorem readQueue_port (queue : Queue) (ipc : Ipc) :
    (bareIpcReadQueue queue ipc).result.1.port = ipc.port := by
  unfold bareIpcReadQueue
  split
  · dsimp only
    split <;> rfl
  · rfl

theorem readPending_port (queue : Queue) (ipc : Ipc) (len : Nat) (blocked : Bool) :
    (bareIpcReadPending queue ipc len blocked).ipc.port = ipc.port := by
  unfold bareIpcReadPending
  split <;> rfl

theorem Turns.advance (h : buffers.Turns) (party : Party) (state : EndState) (onEnd : OnEnd)
    (hend : buffers.onEnd ≠ .destroyed ∧ onEnd ≠ .destroyed)
    (hscript : onEnd.scripting = false → buffers.onEnd.scripting = false)
    (alive : Bool) (halive : onEnd = .abandoned → alive = false) :
    Turns { buffers.advance party (bareQueueAdvance buffers.queue .uv state) with
      alive, onEnd } := by
  have howned := h.owned hend.1
  have hthread : (bareQueueAdvance buffers.queue .uv state).queue.threadState =
      buffers.queue.threadState := Queue.advance_state_peer .uv state
  refine ⟨?_, ?_, h.lock, h.port, fun hnone => h.script (hscript hnone), ?_, fun hover => ?_,
    fun hdrain => ?_⟩
  · simp only [Buffers.advance, hthread]
    exact h.created
  · simp only [Buffers.advance, hthread]
    exact h.shut
  · simp only [Buffers.advance, Queue.advance_destroyed, h.destroyed]
    exact iff_of_false hend.1 hend.2
  · rcases hover with habandoned | hdestroyed
    · exact halive habandoned
    · exact absurd hdestroyed hend.2
  · exact h.unowned_advance howned rfl hdrain

theorem Turns.hostAdvance (h : buffers.Turns) {ipc : Ipc} (hlock : buffers.lock = some ipc)
    (hport : ipc.port = true) {state : EndState} (onIpc : OnIpc)
    (hstate : state = .ended ∧ onIpc = .idle ∨ state = .closed ∧ onIpc = .closing) :
    Turns { buffers.advance .ipc (bareQueueAdvance buffers.queue .thread state) with onIpc } := by
  obtain ⟨hipc, hidle, hwrite⟩ := lock_eq_some hlock
  obtain ⟨howned, hopen⟩ := h.locked hlock hport
  have hnext : (bareQueueAdvance buffers.queue .thread state).queue.threadState = state := by
    have hused : bareQueueState buffers.queue .thread = .opened ∨
        bareQueueState buffers.queue .thread = .ended := hopen
    refine (Queue.advance_state_self .thread state).trans ?_
    rcases hused with hbefore | hbefore <;> rcases hstate with ⟨rfl, -⟩ | ⟨rfl, -⟩ <;>
      rw [hbefore] <;> decide
  have hopened : ∀ other, buffers.ipc = some other → other.port = true := by
    intro other hother
    rw [hipc] at hother
    cases hother
    exact hport
  refine ⟨?_, ?_, fun _ => ⟨by simp [Buffers.advance, hipc], hwrite⟩,
    fun _ => ⟨ipc, hipc, hport⟩, h.script, ?_, h.alive, fun hdrain => ?_⟩
  · simp only [Buffers.advance, hnext, hipc]
    rcases hstate with ⟨rfl, -⟩ | ⟨rfl, -⟩ <;> simp
  · simp only [Buffers.advance, hnext]
    have hnone : ¬ ∃ other, buffers.ipc = some other ∧ other.port = false := by
      rintro ⟨other, hother, hgone⟩
      rw [hopened other hother] at hgone
      contradiction
    rcases hstate with ⟨rfl, rfl⟩ | ⟨rfl, rfl⟩ <;> simp [hnone]
  · simp only [Buffers.advance, Queue.advance_destroyed]
    exact h.destroyed
  · exact h.unowned_advance howned rfl hdrain

theorem Turns.create (h : buffers.Turns) (halive : buffers.alive = true) (onSignal data : Pointer) :
    Turns { buffers with
      queue := (bareIpcCreate buffers.queue onSignal data).queue
      ipc := (bareIpcCreate buffers.queue onSignal data).result.or buffers.ipc } := by
  have hend : buffers.onEnd ≠ .destroyed := fun hend => by simp [h.alive (Or.inr hend)] at halive
  by_cases hidle : buffers.queue.threadState = .idle
  · have hnone := h.created.mpr hidle
    have honIpc : buffers.onIpc = .idle := by
      by_contra hheld
      exact (h.lock hheld).1 hnone
    have hkept := h.kept (h.owned hend)
    simp only [bareIpcCreate, bareQueueOpenThread, hidle]
    exact ⟨by simp, by simp [honIpc], fun hheld => absurd honIpc hheld, fun _ => ⟨_, rfl, rfl⟩,
      h.script, h.destroyed, h.alive, fun hdrain => absurd hdrain hkept⟩
  · simp only [bareIpcCreate, bareQueueOpenThread, if_pos hidle]
    exact h.congr rfl rfl rfl rfl rfl rfl (fun _ harrays => harrays) id rfl rfl

theorem Turns.release (h : buffers.Turns) (ipc : Ipc) (hheld : buffers.onIpc = .closing) :
    Turns { buffers with ipc := some (bareIpcCloseRelease ipc).1, onIpc := .idle } := by
  have hclosed := h.shut.mpr (Or.inl hheld)
  have hwrite := (h.lock (by rw [hheld]; simp)).2
  refine ⟨?_, ?_, fun hnone => absurd rfl hnone, fun hport => ?_, h.script, h.destroyed,
    h.alive, h.unowned⟩
  · simp [hclosed]
  · exact iff_of_true hclosed (Or.inr ⟨_, rfl, rfl⟩)
  · rcases hport with hwriting | hclosing
    · exact absurd hwrite hwriting
    · contradiction

theorem Turns.malloc (h : buffers.Turns) (data : Bytes)
    (hport : port = .thread → ∃ ipc, buffers.lock = some ipc ∧ ipc.port = true)
    (hscript : port = .uv → buffers.onEnd.scripting = true) : (buffers.malloc port data).Turns := by
  obtain ⟨created, shut, lock, portWrite, script, destroyed, alive, unowned⟩ := h
  cases port with
  | thread =>
    obtain ⟨ipc, hlock, hopen⟩ := hport rfl
    obtain ⟨hipc, hidle, -⟩ := lock_eq_some hlock
    exact ⟨created, shut, fun hheld => absurd hidle hheld, fun _ => ⟨ipc, hipc, hopen⟩,
      script, destroyed, alive, unowned⟩
  | uv =>
    refine ⟨created, shut, lock, portWrite, fun hnone => ?_, destroyed, alive, unowned⟩
    have hrunning := hscript rfl
    simp only [Buffers.malloc, put] at hnone
    rw [hrunning] at hnone
    contradiction

theorem Turns.put (h : buffers.Turns) (write : OnWrite) (hwriting : buffers.onWrite port ≠ .idle) :
    (buffers.put port write).Turns := by
  obtain ⟨created, shut, lock, portWrite, script, destroyed, alive, unowned⟩ := h
  cases port with
  | thread =>
    have hidle : buffers.onIpc = .idle := by
      by_contra hheld
      exact hwriting (lock hheld).2
    exact ⟨created, shut, fun hheld => absurd hidle hheld,
      fun _ => portWrite (Or.inl hwriting), script, destroyed, alive, unowned⟩
  | uv =>
    exact ⟨created, shut, lock, portWrite, fun hnone => absurd (script hnone).1 hwriting,
      destroyed, alive, unowned⟩

theorem Turns.destroy (h : buffers.Turns) {party : Party}
    (hend : buffers.onEnd = .toreDown ∨ buffers.onEnd = .abandoned)
    (hleft : buffers.onEnd = .toreDown → buffers.alive = false) :
    Turns { buffers.advance party (bareQueueDestroy buffers.queue) with onEnd := .destroyed } := by
  have halive : buffers.alive = false :=
    hend.elim hleft fun habandoned => h.alive (Or.inl habandoned)
  have howned := h.owned (by rcases hend with hend | hend <;> simp [hend])
  refine ⟨h.created, h.shut, h.lock, h.port, fun _ => h.script ?_, iff_of_true rfl rfl,
    fun _ => halive, fun hdrain => ?_⟩
  · rcases hend with hend | hend <;> rw [hend] <;> rfl
  · exact h.unowned_advance howned rfl hdrain

theorem Turns.free (h : buffers.Turns) (site : Site) (base : Option Buffer) :
    (buffers.free site base).Turns :=
  h.congr rfl rfl rfl rfl rfl rfl (fun _ harrays => harrays) id rfl rfl

theorem Turns.step (h : buffers.Turns) (hstep : buffers.step label = some next) : next.Turns := by
  cases move_step hstep with
  | same => exact h
  | created halive => exact h.create halive _ _
  | hostMalloc hlock hport _ => exact h.malloc _ (fun _ => ⟨_, hlock, hport⟩) (by simp)
  | scriptMalloc hscript _ _ => exact h.malloc _ (by simp) fun _ => hscript
  | wrote hwrite =>
    rename_i port addr data
    have hput := h.put ((bareQueueWrite buffers.queue port addr data).freed.elim .idle .refused)
      (by rw [hwrite]; simp)
    exact hput.ring port.peer (bareQueueWrite_queue buffers.queue port addr data)
  | refused hwrite => exact (h.put _ (by rw [hwrite]; simp)).free _ _
  | hostRead hlock hlen =>
    rename_i ipc len
    obtain ⟨hipc, hidle, hwrite⟩ := lock_eq_some hlock
    have hport := readQueue_port buffers.queue ipc
    obtain ⟨created, shut, lock, port, script, destroyed, alive, unowned⟩ :=
      h.ring .thread (bareIpcReadQueue_queue buffers.queue ipc)
    refine ⟨?_, ?_, fun _ => ⟨by simp, hwrite⟩, fun hclosing => ?_, script, destroyed,
      alive, unowned⟩
    · rw [← created, hipc]
      simp
    · rw [shut, hidle, hipc]
      simp [hport]
    · rcases hclosing with hwriting | hclosing
      · exact absurd hwrite hwriting
      · contradiction
  | hostCopied hipc hheld =>
    rename_i ipc len blocked
    have hport := readPending_port buffers.queue ipc len blocked
    have hwrite := (h.lock (by rw [hheld]; simp)).2
    obtain ⟨created, shut, lock, port, script, destroyed, alive, unowned⟩ := h
    apply Turns.free
    refine ⟨?_, ?_, fun hidle => absurd rfl hidle, fun hwriting => ?_, script, destroyed,
      alive, unowned⟩
    · rw [← created, hipc]
      simp
    · rw [shut, hheld, hipc]
      simp [hport]
    · rcases hwriting with hwriting | hclosing
      · exact absurd hwrite hwriting
      · contradiction
  | hostEnded hlock hport =>
    have hidle := (lock_eq_some hlock).2.1
    have hended := h.hostAdvance hlock hport .idle (Or.inl ⟨rfl, rfl⟩)
    rw [← hidle] at hended
    exact hended
  | hostClosed hlock hport => exact h.hostAdvance hlock hport .closing (Or.inr ⟨rfl, rfl⟩)
  | hostReleased _ hheld => exact (h.release _ hheld).free _ _
  | abandoned hend =>
    exact h.advance .host .closed .abandoned (by simp [hend]) (fun _ => by rw [hend]; rfl) false
      fun _ => rfl
  | left =>
    obtain ⟨created, shut, lock, port, script, destroyed, alive, unowned⟩ := h
    exact ⟨created, shut, lock, port, script, destroyed, fun _ => rfl, unowned⟩
  | opened hend =>
    obtain ⟨created, shut, lock, port, script, destroyed, alive, unowned⟩ := h
    refine ⟨created, shut, lock, port,
      fun hnone => by contradiction, ?_, fun hover => by simp at hover, unowned⟩
    rw [hend] at destroyed
    simpa [bareQueueOpenUv] using destroyed
  | scriptRead hscript =>
    obtain ⟨created, shut, lock, port, script, destroyed, alive, unowned⟩ :=
      h.ring .uv (bareQueueRead_queue buffers.queue .uv)
    exact ⟨created, shut, lock, port, fun hnone => absurd hscript (by simp [hnone]), destroyed,
      alive, unowned⟩
  | scriptEnded hscript =>
    have hended : buffers.onEnd ≠ .destroyed ∧ buffers.onEnd ≠ .abandoned := by
      refine ⟨fun hend => ?_, fun hend => ?_⟩ <;>
      · rw [hend] at hscript
        contradiction
    exact h.advance .worklet .ended buffers.onEnd ⟨hended.1, hended.1⟩ id buffers.alive
      fun hend => absurd hend hended.2
  | finalized hscript _ =>
    apply Turns.free
    obtain ⟨created, shut, lock, port, script, destroyed, alive, unowned⟩ := h
    exact ⟨created, shut, lock, port, fun hnone => absurd hscript (by simp [hnone]), destroyed,
      alive, unowned⟩
  | exited hend =>
    exact h.advance .worklet .closed .tearingDown (by simp [hend])
      (by simp [OnEnd.scripting]) buffers.alive
      (by simp)
  | toreDown hend hidle harrays =>
    obtain ⟨created, shut, lock, port, script, destroyed, alive, unowned⟩ := h
    rw [hend] at destroyed
    exact ⟨created, shut, lock, port, fun _ => ⟨hidle, harrays⟩, by simpa using destroyed,
      fun hover => by simp at hover, unowned⟩
  | destroyed hend hleft => exact h.destroy hend hleft
  | drained _ _ => exact (h.ring _ ⟨_, rfl⟩).free _ _
  | freed hdraining _ =>
    have hunowned := h.unowned (Or.inl fun hnone => by simp [hnone] at hdraining)
    exact ⟨h.created, h.shut, h.lock, h.port, h.script, h.destroyed, h.alive, fun _ => hunowned⟩

theorem turns (h : system.Reachable buffers) : buffers.Turns := by
  refine h.invariant (I := Turns) ?_ fun _ _ _ _ hturns hstep => hturns.step hstep
  rintro _ ⟨toUv, toThread, rfl⟩
  constructor <;> simp [bareQueueCreate]

structure Contents (buffers : Buffers) : Prop where
  queue : buffers.queue.WellFormed
  ipc : ∀ ipc, buffers.ipc = some ipc → ipc.WellFormed
  -- Some of a message is read with the lock that it is taken with.
  partly : ∀ ipc, buffers.ipc = some ipc → (∀ len blocked, buffers.onIpc ≠ .reading len blocked) →
    ipc.pending.base ≠ none → 0 < ipc.offset
  reading : ∀ len blocked, buffers.onIpc = .reading len blocked → 0 < len
  writing : ∀ port addr data, buffers.onWrite port = .writing addr data → data ≠ []
  gone : buffers.gone = true → ∀ port, (bareQueueInbox buffers.queue port).buffers = []

theorem Contents.congr (h : buffers.Contents)
    (hqueue : ∀ port, bareQueueInbox next.queue port = bareQueueInbox buffers.queue port)
    (hipc : next.ipc = buffers.ipc) (honIpc : next.onIpc = buffers.onIpc)
    (hwrite : next.onWrite = buffers.onWrite) (hgone : next.gone = buffers.gone) :
    next.Contents := by
  obtain ⟨queue, ipc, partly, reading, writing, gone⟩ := h
  refine ⟨⟨fun port => ?_⟩, hipc ▸ ipc, by rwa [hipc, honIpc], by rwa [honIpc], by rwa [hwrite],
    fun hover port => ?_⟩
  · rw [hqueue port]
    exact queue.ring port
  · rw [hqueue port]
    exact gone (hgone ▸ hover) port

theorem Contents.ring (h : buffers.Contents) (hgone : buffers.gone = false) {queue : Queue}
    (hqueue : queue.WellFormed) : Contents { buffers with queue } := by
  obtain ⟨-, ipc, partly, reading, writing, -⟩ := h
  exact ⟨hqueue, ipc, partly, reading, writing, fun hover => by simp [hgone] at hover⟩

theorem Contents.free (h : buffers.Contents) (site : Site) (base : Option Buffer) :
    (buffers.free site base).Contents := h.congr (fun _ => rfl) rfl rfl rfl rfl

theorem put_onWrite_self (port : Port) (write : OnWrite) :
    (buffers.put port write).onWrite port = write := Function.update_self ..

theorem put_onWrite_of_ne {other : Port} (write : OnWrite) (hne : other ≠ port) :
    (buffers.put port write).onWrite other = buffers.onWrite other := Function.update_of_ne hne ..

theorem Contents.put (h : buffers.Contents) {write : OnWrite}
    (hwrite : ∀ addr data, write = .writing addr data → data ≠ []) :
    (buffers.put port write).Contents := by
  refine ⟨h.queue, h.ipc, h.partly, h.reading, fun other addr data hother => ?_, h.gone⟩
  by_cases hport : other = port
  · subst hport
    rw [put_onWrite_self] at hother
    exact hwrite addr data hother
  · rw [put_onWrite_of_ne write hport] at hother
    exact h.writing other addr data hother

theorem Turns.unfreed (h : buffers.Turns) (howned : bareQueueUnowned buffers.queue = false) :
    buffers.gone = false :=
  eq_false_of_ne_true fun hgone => by simp [h.unowned (Or.inr hgone)] at howned

theorem Turns.scripting (h : buffers.Turns) (hscript : buffers.onEnd.scripting = true) :
    buffers.gone = false :=
  h.unfreed (h.owned fun hend => by simp [hend, OnEnd.scripting] at hscript)

theorem Turns.writing (h : buffers.Turns) (hwrite : buffers.onWrite port ≠ .idle) :
    buffers.gone = false := by
  refine h.unfreed (eq_false_of_ne_true fun hunowned => ?_)
  obtain ⟨hend, hidle, -⟩ := h.still hunowned
  cases port with
  | thread => exact hwrite hidle
  | uv => exact hwrite (h.script (by rw [hend]; rfl)).1

theorem readPending_partly {ipc : Ipc} (h : ipc.WellFormed) (queue : Queue) {len : Nat}
    (hlen : 0 < len)
    (blocked : Bool) (hbase : (bareIpcReadPending queue ipc len blocked).ipc.pending.base ≠ none) :
    0 < (bareIpcReadPending queue ipc len blocked).ipc.offset := by
  have hmax : 0 < intMax := by decide
  cases hpending : ipc.pending.base with
  | none => simp [bareIpcReadPending, hpending] at hbase
  | some base =>
    obtain ⟨htotal, hoffset⟩ := h.rest base hpending
    simp only [bareIpcReadPending, hpending]
    split <;> split <;> omega

theorem readPending_wellFormed {ipc : Ipc} (h : ipc.WellFormed) (queue : Queue) {len : Nat}
    (hlen : 0 < len) (blocked : Bool) :
    (bareIpcReadPending queue ipc len blocked).ipc.WellFormed := by
  rcases h.readPending_cases queue hlen blocked with ⟨-, hread⟩ | ⟨-, -, hwell, -⟩
  · rw [hread]
    exact h
  · exact hwell

theorem Contents.hostRead (h : buffers.Contents) (hturns : buffers.Turns) {ipc : Ipc} {len : Nat}
    (hlock : buffers.lock = some ipc) (hlen : 0 < len) :
    Contents { buffers with
      queue := (bareIpcReadQueue buffers.queue ipc).queue
      ipc := some (bareIpcReadQueue buffers.queue ipc).result.1
      onIpc := .reading len (bareIpcReadQueue buffers.queue ipc).result.2 } := by
  obtain ⟨hipc, -, -⟩ := lock_eq_some hlock
  have hwell := h.ipc ipc hipc
  have hmade : ∀ queue blocked other, queue.WellFormed → other.WellFormed →
      (buffers.gone = true → queue = buffers.queue) → Contents { buffers with
        queue, ipc := some other, onIpc := .reading len blocked } := by
    intro queue blocked other hqueue hother hgone
    refine ⟨hqueue, fun found hfound => Option.some.inj hfound ▸ hother,
      fun _ _ hreading => absurd rfl (hreading len blocked), fun found _ hfound => ?_, h.writing,
      fun hover => ?_⟩
    · cases hfound
      exact hlen
    · rw [hgone hover]
      exact h.gone hover
  rcases Ipc.readQueue_cases ipc h.queue with ⟨hread, -⟩ | ⟨hport, hbase, hcase⟩
  · rw [hread]
    exact hmade _ _ _ h.queue hwell fun _ => rfl
  · have hgone := hturns.unfreed (hturns.locked hlock hport).1
    rcases hcase with ⟨buffer, rest, ring, hinbox, hring, -, wake, -, hread⟩ | ⟨-, -, hread⟩ |
      ⟨-, -, hread⟩
    · rw [hread]
      have hsized := (h.queue.ring .thread).sized
        (show buffer ∈ buffers.queue.channel.inbox .thread by rw [hinbox]; exact List.mem_cons_self)
      refine hmade _ _ _ (h.queue.setInbox .thread ring hring)
        ⟨fun _ => hport, fun base hpending => ?_⟩
        fun hover => by simp [hgone] at hover
      cases hpending
      exact ⟨rfl, hsized.1⟩
    · rw [hread]
      exact hmade _ _ _ h.queue ⟨fun _ => hport, fun base hpending => by contradiction⟩ fun _ => rfl
    · rw [hread]
      exact hmade _ _ _ h.queue ⟨fun _ => hport, fun base hpending => by simp [hbase] at hpending⟩
        fun _ => rfl

theorem Contents.step (h : buffers.Contents) (hturns : buffers.Turns)
    (hstep : buffers.step label = some next) : next.Contents := by
  cases move_step hstep with
  | same => exact h
  | created halive =>
    rename_i onSignal data
    have hinbox : ∀ port, bareQueueInbox (bareIpcCreate buffers.queue onSignal data).queue port =
        bareQueueInbox buffers.queue port := by
      intro port
      unfold bareIpcCreate bareQueueOpenThread
      split <;> cases port <;> rfl
    refine ⟨⟨fun port => ?_⟩, fun ipc hipc => ?_, fun ipc hipc hreading hbase => ?_,
      h.reading, h.writing, fun hover port => ?_⟩
    · rw [hinbox port]
      exact h.queue.ring port
    · dsimp only at hipc
      rcases Option.or_eq_some_iff.mp hipc with hnew | ⟨-, hold⟩
      · simp only [bareIpcCreate] at hnew
        split at hnew <;> cases hnew
        exact ⟨fun hbase => absurd rfl hbase, fun base hbase => by contradiction⟩
      · exact h.ipc ipc hold
    · dsimp only at hipc
      rcases Option.or_eq_some_iff.mp hipc with hnew | ⟨-, hold⟩
      · simp only [bareIpcCreate] at hnew
        split at hnew <;> cases hnew
        exact absurd rfl hbase
      · exact h.partly ipc hold hreading hbase
    · rw [hinbox port]
      exact h.gone hover port
  | hostMalloc _ _ hdata | scriptMalloc _ _ hdata =>
    refine (h.put fun addr data hwrite => ?_).congr (fun _ => rfl) rfl rfl rfl rfl
    cases hwrite
    exact hdata
  | wrote hwrite =>
    rename_i port addr data
    have hgone := hturns.writing (show buffers.onWrite port ≠ .idle by rw [hwrite]; simp)
    have hput : (buffers.put port
        ((bareQueueWrite buffers.queue port addr data).freed.elim .idle .refused)).Contents :=
      h.put fun _ _ hwriting => by
        cases hfreed : (bareQueueWrite buffers.queue port addr data).freed <;>
          simp [hfreed] at hwriting
    exact hput.ring hgone (h.queue.write port addr data)
  | refused _ => exact (h.put fun _ _ hwriting => by contradiction).free _ _
  | hostRead hlock hlen => exact h.hostRead hturns hlock hlen
  | hostCopied hipc hheld =>
    have hwell := h.ipc _ hipc
    have hlen := h.reading _ _ hheld
    apply Contents.free
    refine ⟨h.queue, fun other hother => ?_, fun other hother _ hbase => ?_,
      fun _ _ hreading => by contradiction, h.writing, h.gone⟩
    · cases hother
      exact readPending_wellFormed hwell _ hlen _
    · cases hother
      exact readPending_partly hwell _ hlen _ hbase
  | hostEnded _ _ => exact h.congr (Queue.advance_inbox _ _) rfl rfl rfl rfl
  | hostClosed hlock _ =>
    obtain ⟨hipc, hidle, -⟩ := lock_eq_some hlock
    refine ⟨⟨fun port => ?_⟩, h.ipc, fun other hother _ => h.partly other hother (by simp [hidle]),
      fun _ _ hreading => by contradiction, h.writing, fun hover port => ?_⟩
    · have hring := h.queue.ring port
      rwa [← Queue.advance_inbox .thread .closed port] at hring
    · have hnone := h.gone hover port
      rwa [← Queue.advance_inbox .thread .closed port] at hnone
  | hostReleased hipc hheld =>
    apply Contents.free
    refine ⟨h.queue, fun other hother => ?_, fun other hother _ hbase => ?_,
      fun _ _ hreading => by contradiction, h.writing, h.gone⟩
    · cases hother
      exact ⟨fun hbase => absurd rfl hbase, fun base hbase => by contradiction⟩
    · cases hother
      exact absurd rfl hbase
  | abandoned _ | scriptEnded _ | exited _ =>
    exact h.congr (Queue.advance_inbox _ _) rfl rfl rfl rfl
  | left | toreDown _ _ _ | destroyed _ _ => exact h.congr (fun _ => rfl) rfl rfl rfl rfl
  | opened _ => exact h.congr (fun port => by cases port <;> rfl) rfl rfl rfl rfl
  | scriptRead hscript =>
    exact (h.ring (hturns.scripting hscript) (h.queue.read .uv)).congr (fun _ => rfl)
      rfl rfl rfl rfl
  | finalized _ _ =>
    apply Contents.free
    exact h.congr (fun _ => rfl) rfl rfl rfl rfl
  | drained hdraining hshift =>
    rename_i port message ring
    obtain ⟨buffer, hbuffers, -, hring⟩ := (h.queue.ring port).shift_cases hshift
    have hgone : buffers.gone = false := by
      refine eq_false_of_ne_true fun hgone => ?_
      rw [h.gone hgone port] at hbuffers
      contradiction
    exact (h.ring hgone (h.queue.setInbox port ring hring)).free _ _
  | freed _ hshift =>
    refine ⟨h.queue, h.ipc, h.partly, h.reading, h.writing, fun _ port => ?_⟩
    have hempty := (h.queue.ring port).shift
    cases hbuffers : (bareQueueInbox buffers.queue port).buffers with
    | nil => rfl
    | cons buffer rest =>
      rw [hbuffers] at hempty
      obtain ⟨ring, hring, -⟩ := hempty
      rw [hshift port] at hring
      contradiction

/-- A free that is due where it is made: the write was refused, the last byte was copied, the
port was closed with only a part read, the `ArrayBuffer` is of no use to the script any more,
or the queue has no owner left to read it. -/
def Due (buffers : Buffers) (release : Release) : Prop :=
  match release.site with
  | .refused port => ∃ base, buffers.onWrite port = .refused base ∧ base.addr = release.addr
  | .read => ∃ ipc len blocked base, buffers.ipc = some ipc ∧ buffers.onIpc = .reading len blocked ∧
      ipc.pending.base = some base ∧ base.addr = release.addr ∧
      ipc.offset + (bareIpcReadPending buffers.queue ipc len blocked).data.length =
      base.bytes.length
  | .closed => ∃ ipc base, buffers.ipc = some ipc ∧ buffers.onIpc = .closing ∧
      ipc.pending.base = some base ∧ base.addr = release.addr ∧
      0 < ipc.offset ∧ ipc.offset < base.bytes.length
  | .finalized => ∃ buffer ∈ buffers.arrays, buffer.addr = release.addr
  | .drained => bareQueueUnowned buffers.queue = true ∧
      ∃ port, ∃ buffer ∈ (bareQueueInbox buffers.queue port).buffers, buffer.addr = release.addr

structure Booked (buffers next : Buffers) : Prop where
  custody : next.custody = buffers.custody ∨ Custody.Step buffers.custody next.custody
  frees : next.frees = buffers.frees ∨ ∃ release, buffers.Due release ∧
    next.frees = release :: buffers.frees

theorem Booked.same (hring : ∀ port,
      (bareQueueInbox next.queue port).buffers = (bareQueueInbox buffers.queue port).buffers)
    (hwrite : ∀ port, next.held (.writing port) = buffers.held (.writing port))
    (hpending : next.held .pending = buffers.held .pending) (harrays : next.arrays = buffers.arrays)
    (hmallocs : next.mallocs = buffers.mallocs) (hfrees : next.frees = buffers.frees) :
    Booked buffers next := by
  refine ⟨Or.inl (Custody.ext (funext fun place => ?_) hmallocs ?_), Or.inl hfrees⟩
  · cases place with
    | writing port => exact hwrite port
    | ring port => exact congrArg (List.map Buffer.addr) (hring port)
    | pending => exact hpending
    | array => exact congrArg (List.map Buffer.addr) harrays
  · exact congrArg (List.map Release.addr) hfrees

theorem Booked.move (place other : Place) {token : Nat} {rest : List Nat} (hne : place ≠ other)
    (hfrom : buffers.held place = token :: rest) (hplace : next.held place = rest)
    (hother : next.held other = buffers.held other ++ [token])
    (hsame : ∀ third, third ≠ place → third ≠ other → next.held third = buffers.held third)
    (hmallocs : next.mallocs = buffers.mallocs) (hfrees : next.frees = buffers.frees) :
    Booked buffers next :=
  ⟨Or.inr (Custody.Step.ofMove place other hne hfrom hplace hother hsame hmallocs
    (congrArg (List.map Release.addr) hfrees)), Or.inl hfrees⟩

theorem Booked.release (place : Place) (release : Release) (hdue : buffers.Due release)
    (hmem : release.addr ∈ buffers.held place)
    (hplace : next.held place = (buffers.held place).erase release.addr)
    (hsame : ∀ other, other ≠ place → next.held other = buffers.held other)
    (hmallocs : next.mallocs = buffers.mallocs) (hfrees : next.frees = release :: buffers.frees) :
    Booked buffers next :=
  ⟨Or.inr (Custody.Step.ofRelease place hmem hplace hsame hmallocs
    (congrArg (List.map Release.addr) hfrees)), Or.inr ⟨release, hdue, hfrees⟩⟩

theorem setInbox_inbox_of_ne (queue : Queue) {port other : Port} (ring : Ring)
    (hne : other ≠ port) :
    bareQueueInbox (queue.setInbox port ring) other = bareQueueInbox queue other := by
  cases port <;> cases other <;> first | rfl | exact absurd rfl hne

/-! A change in one place is none in another. -/

section Frames

variable {place : Place}

theorem held_congr
    (hwrite : ∀ port, place = .writing port → next.onWrite port = buffers.onWrite port)
    (hring : ∀ port, place = .ring port →
      bareQueueInbox next.queue port = bareQueueInbox buffers.queue port)
    (hpending : place = .pending → next.ipc = buffers.ipc)
    (harrays : place = .array → next.arrays = buffers.arrays) :
    next.held place = buffers.held place := by
  cases place with
  | writing port => simp only [held, hwrite port rfl]
  | ring port => simp only [held, hring port rfl]
  | pending => simp only [held, hpending rfl]
  | array => simp only [held, harrays rfl]

theorem put_held_of_ne (write : OnWrite) (hne : place ≠ .writing port) :
    (buffers.put port write).held place = buffers.held place := by
  refine held_congr (fun other hother => put_onWrite_of_ne write ?_) (fun _ _ => rfl) (fun _ => rfl)
    fun _ => rfl
  rintro rfl
  exact hne hother

theorem setInbox_held_of_ne (buffers : Buffers) (ring : Ring) (hne : place ≠ .ring port) :
    held { buffers with queue := buffers.queue.setInbox port ring } place = buffers.held place := by
  refine held_congr (fun _ _ => rfl) (fun other hother => setInbox_inbox_of_ne _ ring ?_)
    (fun _ => rfl)
    fun _ => rfl
  rintro rfl
  exact hne hother

end Frames

theorem booked_malloc (port : Port) (data : Bytes) (hidle : buffers.onWrite port = .idle) :
    Booked buffers (buffers.malloc port data) := by
  refine ⟨Or.inr (Custody.Step.ofIssue (.writing port) ?_ (fun other hother => ?_) rfl rfl),
    Or.inl rfl⟩
  · simp [custody, held, Buffers.malloc, put, hidle]
  · exact put_held_of_ne _ hother

theorem booked_write (h : buffers.Contents) {addr : Pointer} {data : Bytes}
    (hwrite : buffers.onWrite port = .writing addr data) :
    Booked buffers
      { buffers.put port
        ((bareQueueWrite buffers.queue port addr data).freed.elim .idle .refused) with
        queue := (bareQueueWrite buffers.queue port addr data).queue } := by
  have hrefused : ∀ result wake, bareQueueWrite buffers.queue port addr data =
      ⟨buffers.queue, result, wake, some ⟨addr, data.take (Queue.offered data)⟩⟩ → Booked buffers
        { buffers.put port
          ((bareQueueWrite buffers.queue port addr data).freed.elim .idle .refused) with
          queue := (bareQueueWrite buffers.queue port addr data).queue } := by
    intro result wake hwritten
    rw [hwritten]
    refine Booked.same (fun _ => rfl) (fun other => ?_) rfl rfl rfl rfl
    by_cases hother : other = port
    · subst hother
      simp [held, put, hwrite]
    · exact put_held_of_ne _ (by simp [hother])
  rcases h.queue.write_cases port addr data (h.writing port addr data hwrite) with ⟨-, hwritten⟩ |
    ⟨-, hwritten⟩ | ⟨-, ring, -, hring, hwritten⟩
  · exact hrefused _ _ hwritten
  · exact hrefused _ _ hwritten
  · rw [hwritten]
    have hfrom : buffers.held (.writing port) = addr :: [] := by simp [held, hwrite]
    refine Booked.move (.writing port) (.ring port.peer) (by simp) hfrom (by simp [held, put]) ?_
      (fun third hthird hthird' => ?_) rfl rfl
    · simp [held, hring, Queue.channel_inbox]
    · exact ((buffers.put port .idle).setInbox_held_of_ne ring hthird').trans
        (put_held_of_ne .idle hthird)

theorem booked_shift {ring : Ring} {buffer : Buffer} (place : Place)
    (hplace : ∀ port, place ≠ .ring port)
    (hbuffers : (bareQueueInbox buffers.queue port).buffers = buffer :: ring.buffers)
    (hqueue : next.queue = buffers.queue.setInbox port ring)
    (hother : next.held place = buffers.held place ++ [buffer.addr])
    (hsame : ∀ third, (∀ port, third ≠ .ring port) → third ≠ place →
      next.held third = buffers.held third)
    (hmallocs : next.mallocs = buffers.mallocs) (hfrees : next.frees = buffers.frees) :
    Booked buffers next := by
  have hfrom : buffers.held (.ring port) = buffer.addr :: ring.buffers.map Buffer.addr := by
    simp [held, hbuffers]
  refine Booked.move (.ring port) place (Ne.symm (hplace port)) hfrom
    (by simp [held, hqueue]) hother
    (fun third hthird hthird' => ?_) hmallocs hfrees
  cases third with
  | ring other =>
    have hne : other ≠ port := fun heq => hthird (heq ▸ rfl)
    simp [held, hqueue, setInbox_inbox_of_ne _ _ hne]
  | writing _ | pending | array => exact hsame _ (by simp) hthird'

theorem map_erase_addr {buffers : List Buffer} {buffer : Buffer}
    (h : (buffers.map Buffer.addr).Nodup)
    (hmem : buffer ∈ buffers) :
    (buffers.erase buffer).map Buffer.addr = (buffers.map Buffer.addr).erase buffer.addr := by
  induction buffers with
  | nil => contradiction
  | cons first rest ih =>
    rw [List.map_cons, List.nodup_cons] at h
    by_cases hfirst : first = buffer
    · subst hfirst
      simp
    · have hrest : buffer ∈ rest := (List.mem_cons.mp hmem).resolve_left (Ne.symm hfirst)
      have haddr : first.addr ≠ buffer.addr := fun heq =>
        h.1 (heq ▸ List.mem_map_of_mem hrest)
      rw [List.erase_cons_tail (by simpa using hfirst), List.map_cons, List.map_cons,
        List.erase_cons_tail (by simpa using haddr), ih h.2 hrest]

/-- The rest of a read keeps a message that it leaves some of, and frees one that it has
copied the last byte of. -/
theorem readPending_freed {ipc : Ipc} {base : Buffer} (hpending : ipc.pending.base = some base)
    (htotal : ipc.pending.len = base.bytes.length) (queue : Queue) (len : Nat) (blocked : Bool) :
    ((bareIpcReadPending queue ipc len blocked).freed = none ∧
      (bareIpcReadPending queue ipc len blocked).ipc.pending.base = some base) ∨
    ((bareIpcReadPending queue ipc len blocked).freed = some base ∧
      (bareIpcReadPending queue ipc len blocked).ipc.pending.base = none ∧
      ipc.offset + (bareIpcReadPending queue ipc len blocked).data.length = base.bytes.length) := by
  simp only [bareIpcReadPending, hpending]
  generalize (if (if len > intMax then intMax else len) > ipc.pending.len - ipc.offset then
    ipc.pending.len - ipc.offset else if len > intMax then intMax else len) = n
  by_cases hlast : ipc.offset + n = ipc.pending.len
  · simp only [hlast, ↓reduceIte, List.length_take, List.length_drop, true_and, reduceCtorEq,
      false_and, false_or]
    omega
  · simp [hlast]

theorem booked_copied (h : buffers.Contents) {ipc : Ipc} {len : Nat} {blocked : Bool}
    (hipc : buffers.ipc = some ipc) (hheld : buffers.onIpc = .reading len blocked) :
    Booked buffers ({ buffers with
      ipc := some (bareIpcReadPending buffers.queue ipc len blocked).ipc,
      onIpc := .idle }.free .read
        (bareIpcReadPending buffers.queue ipc len blocked).freed) := by
  cases hpending : ipc.pending.base with
  | none =>
    simp only [bareIpcReadPending, hpending]
    refine Booked.same (fun _ => rfl) (fun _ => rfl) ?_ rfl rfl rfl
    simp [held, free, hipc, hpending]
  | some base =>
    have htotal := ((h.ipc ipc hipc).rest base hpending).1
    rcases readPending_freed hpending htotal buffers.queue len blocked with ⟨hfreed, hkept⟩ |
      ⟨hfreed, hnone, hlength⟩
    · rw [hfreed]
      refine Booked.same (fun _ => rfl) (fun _ => rfl) ?_ rfl rfl rfl
      simp [held, free, hipc, hpending, hkept]
    · rw [hfreed]
      refine Booked.release .pending ⟨.read, base.addr⟩
        ⟨ipc, len, blocked, base, hipc, hheld, hpending, rfl, hlength⟩ ?_ ?_
        (fun _ hother => held_congr (fun _ _ => rfl) (fun _ _ => rfl) (fun heq => absurd heq hother)
          fun _ => rfl) rfl rfl
      · simp [held, hipc, hpending]
      · simp [held, free, hipc, hpending, hnone]

theorem booked_read (h : buffers.Contents) {ipc : Ipc} {len : Nat} (hipc : buffers.ipc = some ipc) :
    Booked buffers { buffers with
      queue := (bareIpcReadQueue buffers.queue ipc).queue
      ipc := some (bareIpcReadQueue buffers.queue ipc).result.1
      onIpc := .reading len (bareIpcReadQueue buffers.queue ipc).result.2 } := by
  rcases Ipc.readQueue_cases ipc h.queue with ⟨hread, -⟩ | ⟨-, hbase, hcase⟩
  · rw [hread]
    exact Booked.same (fun _ => rfl) (fun _ => rfl) (by simp [held, hipc]) rfl rfl rfl
  · rcases hcase with ⟨buffer, rest, ring, hinbox, -, hrest, wake, -, hread⟩ | ⟨-, -, hread⟩ |
      ⟨-, -, hread⟩
    · rw [hread]
      have hbuffers : (bareQueueInbox buffers.queue .thread).buffers = buffer :: ring.buffers := by
        rw [hrest, ← hinbox, Queue.channel_inbox]
      refine booked_shift .pending (by simp) hbuffers rfl ?_ (fun _ hring hthird =>
        held_congr (fun _ _ => rfl) (fun port heq => absurd heq (hring port))
          (fun heq => absurd heq hthird)
          fun _ => rfl) rfl rfl
      simp [held, hipc, hbase, Buffer.message]
    · rw [hread]
      exact Booked.same (fun _ => rfl) (fun _ => rfl) (by simp [held, hipc, hbase]) rfl rfl rfl
    · rw [hread]
      exact Booked.same (fun _ => rfl) (fun _ => rfl) (by simp [held, hipc]) rfl rfl rfl

theorem booked_scriptRead (h : buffers.Contents) :
    Booked buffers { buffers with
      queue := (bareQueueRead buffers.queue .uv).queue
      arrays := buffers.arrays ++
        (externalArrayBuffer (bareQueueRead buffers.queue .uv).result).toList } := by
  rcases h.queue.read_cases .uv with ⟨buffer, rest, ring, hinbox, -, hrest, hread⟩ | ⟨-, -, hread⟩ |
    ⟨-, -, hread⟩
  · rw [hread]
    have hbuffers : (bareQueueInbox buffers.queue .uv).buffers = buffer :: ring.buffers := by
      rw [hrest, ← hinbox, Queue.channel_inbox]
    have hsized := (h.queue.ring .uv).sized (by rw [hbuffers]; exact List.mem_cons_self)
    have hlen : buffer.bytes.length ≠ 0 := Nat.pos_iff_ne_zero.mp hsized.1
    refine booked_shift .array (by simp) hbuffers rfl ?_ (fun _ hring hthird =>
      held_congr (fun _ _ => rfl) (fun port heq => absurd heq (hring port)) (fun _ => rfl)
        fun heq => absurd heq hthird) rfl rfl
    simp [held, externalArrayBuffer, Buffer.message, hlen]
  · rw [hread]
    exact Booked.same (fun _ => rfl) (fun _ => rfl) rfl (by simp [externalArrayBuffer]) rfl rfl
  · rw [hread]
    exact Booked.same (fun _ => rfl) (fun _ => rfl) rfl (by simp [externalArrayBuffer]) rfl rfl

theorem booked_released (h : buffers.Contents) {ipc : Ipc} (hipc : buffers.ipc = some ipc)
    (hheld : buffers.onIpc = .closing) :
    Booked buffers
      ({ buffers with ipc := some (bareIpcCloseRelease ipc).1, onIpc := .idle }.free .closed
      (bareIpcCloseRelease ipc).2) := by
  cases hpending : ipc.pending.base with
  | none =>
    simp only [bareIpcCloseRelease, hpending]
    exact Booked.same (fun _ => rfl) (fun _ => rfl)
      (by simp [held, free, hipc, hpending]) rfl rfl rfl
  | some base =>
    have hoffset := ((h.ipc ipc hipc).rest base hpending).2
    have hpartly := h.partly ipc hipc (by simp [hheld]) (by simp [hpending])
    simp only [bareIpcCloseRelease, hpending]
    refine Booked.release .pending ⟨.closed, base.addr⟩
      ⟨ipc, base, hipc, hheld, hpending, rfl, hpartly, hoffset⟩ ?_ ?_
      (fun _ hother => held_congr (fun _ _ => rfl) (fun _ _ => rfl) (fun heq => absurd heq hother)
          fun _ => rfl) rfl rfl
    · simp [held, hipc, hpending]
    · simp [held, free, hipc, hpending]

theorem booked_refused {base : Buffer} (hwrite : buffers.onWrite port = .refused base) :
    Booked buffers ((buffers.put port .idle).free (.refused port) (some base)) := by
  refine Booked.release (.writing port) ⟨.refused port, base.addr⟩ ⟨base, hwrite, rfl⟩ ?_ ?_
    (fun _ hother => put_held_of_ne .idle hother) rfl rfl
  · simp [held, hwrite]
  · simp [held, free, put, hwrite]

theorem booked_finalized (hsound : buffers.custody.Sound []) {buffer : Buffer}
    (hmem : buffer ∈ buffers.arrays) :
    Booked buffers
      ({ buffers with arrays := buffers.arrays.erase buffer }.free .finalized (some buffer)) := by
  exact Booked.release .array ⟨.finalized, buffer.addr⟩ ⟨buffer, hmem, rfl⟩
    (List.mem_map_of_mem hmem) (map_erase_addr (hsound.nodup .array) hmem)
    (fun _ hother => held_congr (fun _ _ => rfl) (fun _ _ => rfl) (fun _ => rfl)
      fun heq => absurd heq hother) rfl rfl

theorem booked_drained (h : buffers.Contents) (hturns : buffers.Turns) {message : Message}
    {ring : Ring}
    (hdraining : buffers.draining.isSome)
    (hshift : bareQueueRingShift (bareQueueInbox buffers.queue port) = some (message, ring)) :
    Booked buffers
      ({ buffers with queue := buffers.queue.setInbox port ring }.free .drained message.base) := by
  obtain ⟨buffer, hbuffers, rfl, -⟩ := (h.queue.ring port).shift_cases hshift
  have hunowned := hturns.unowned (Or.inl fun hnone => by simp [hnone] at hdraining)
  have hmem : buffer ∈ (bareQueueInbox buffers.queue port).buffers := by
    rw [hbuffers]
    exact List.mem_cons_self
  rw [Buffer.message_base]
  refine Booked.release (.ring port) ⟨.drained, buffer.addr⟩ ⟨hunowned, port, buffer, hmem, rfl⟩
    (List.mem_map_of_mem hmem) ?_ (fun _ hother => buffers.setInbox_held_of_ne ring hother) rfl rfl
  simp [held, free, hbuffers]

theorem booked_created (hturns : buffers.Turns) (onSignal data : Pointer) :
    Booked buffers { buffers with
      queue := (bareIpcCreate buffers.queue onSignal data).queue
      ipc := (bareIpcCreate buffers.queue onSignal data).result.or buffers.ipc } := by
  by_cases hidle : buffers.queue.threadState = .idle
  · have hnone := hturns.created.mpr hidle
    simp only [bareIpcCreate, bareQueueOpenThread, hidle]
    exact Booked.same (fun port => by cases port <;> rfl) (fun _ => rfl)
      (by simp [held, hnone]) rfl rfl rfl
  · simp only [bareIpcCreate, bareQueueOpenThread, if_pos hidle]
    exact Booked.same (fun _ => rfl) (fun _ => rfl) rfl rfl rfl rfl

theorem booked_step (h : buffers.Contents) (hturns : buffers.Turns)
    (hsound : buffers.custody.Sound [])
    (hstep : buffers.step label = some next) : Booked buffers next := by
  cases move_step hstep with
  | same => exact Booked.same (fun _ => rfl) (fun _ => rfl) rfl rfl rfl rfl
  | created _ => exact booked_created hturns _ _
  | hostMalloc hlock _ _ => exact booked_malloc .thread _ (lock_eq_some hlock).2.2
  | scriptMalloc _ hidle _ => exact booked_malloc .uv _ hidle
  | wrote hwrite => exact booked_write h hwrite
  | refused hwrite => exact booked_refused hwrite
  | hostRead hlock _ => exact booked_read h (lock_eq_some hlock).1
  | hostCopied hipc hheld => exact booked_copied h hipc hheld
  | hostReleased hipc hheld => exact booked_released h hipc hheld
  | hostEnded _ _ | hostClosed _ _ | abandoned _ | scriptEnded _ | exited _ =>
    exact Booked.same (fun _ => congrArg Ring.buffers (Queue.advance_inbox _ _ _)) (fun _ => rfl)
      rfl rfl rfl rfl
  | left | toreDown _ _ _ | destroyed _ _ | freed _ _ =>
    exact Booked.same (fun _ => rfl) (fun _ => rfl) rfl rfl rfl rfl
  | opened _ => exact Booked.same (fun port => by cases port <;> rfl) (fun _ => rfl) rfl rfl rfl rfl
  | scriptRead _ => exact booked_scriptRead h
  | finalized _ hmem => exact booked_finalized hsound hmem
  | drained hdraining hshift => exact booked_drained h hturns hdraining hshift

theorem sound (h : system.Reachable buffers) : buffers.Contents ∧ buffers.custody.Sound [] := by
  refine h.invariant (I := fun buffers => buffers.Contents ∧ buffers.custody.Sound []) ?_
    fun middle label next hreach hsound hstep => ?_
  · rintro _ ⟨toUv, toThread, rfl⟩
    obtain ⟨hwell, hchannel⟩ := Queue.refines_create toUv toThread
    refine ⟨⟨hwell, by simp, by simp, by simp, by simp, by simp⟩, Custody.Sound.empty _
      fun place => ?_⟩
    cases place with
    | ring port =>
      have hinbox := congrArg (fun channel => channel.inbox port) hchannel
      simp only [held, ← Queue.channel_inbox, hinbox]
      rfl
    | writing _ | pending | array => rfl
  · have hturns := turns hreach
    refine ⟨hsound.1.step hturns hstep, ?_⟩
    rcases (booked_step hsound.1 hturns hsound.2 hstep).custody with hsame | hmoved
    · rw [hsame]
      exact hsound.2
    · exact hsound.2.step hmoved

/-- Once the queue is freed, no one has a buffer but an ipc that is being closed. -/
theorem held_gone (h : system.Reachable buffers) (hgone : buffers.gone = true) {place : Place}
    {addr : Pointer} (hheld : addr ∈ buffers.held place) :
    buffers.onIpc = .closing ∧ place = .pending := by
  have hturns := turns h
  have hcontents := (sound h).1
  obtain ⟨hend, hidle, hclosing⟩ := hturns.still (hturns.unowned (Or.inr hgone))
  obtain ⟨huv, harrays⟩ := hturns.script (by rw [hend]; rfl)
  cases place with
  | writing port => cases port <;> simp [held, hidle, huv] at hheld
  | ring port => simp [held, hcontents.gone hgone port] at hheld
  | array => simp [held, harrays] at hheld
  | pending =>
    refine ⟨?_, rfl⟩
    obtain ⟨base, hbase, -⟩ := Option.map_eq_some_iff.mp (Option.mem_toList.mp hheld)
    obtain ⟨ipc, hipc, hpending⟩ := Option.bind_eq_some_iff.mp hbase
    exact hclosing ipc hipc ((hcontents.ipc ipc hipc).port (by simp [hpending]))

end Buffers

/-- A buffer that a write has allocated is in one place until it is freed, once, where that is
due. With the queue freed, and the ipc closed, every one of them was. -/
theorem bareQueue_buffers_freedOnce {buffers : Buffers} (h : Buffers.system.Reachable buffers) :
    (∀ addr < buffers.mallocs,
      ((∃! place, addr ∈ buffers.held place) ∧ (∀ place, (buffers.held place).count addr ≤ 1) ∧
        (buffers.frees.map Release.addr).count addr = 0) ∨
      ((∀ place, addr ∉ buffers.held place) ∧ (buffers.frees.map Release.addr).count addr = 1)) ∧
    (∀ label next, buffers.step label = some next → next.frees = buffers.frees ∨
      ∃ release, buffers.Due release ∧ next.frees = release :: buffers.frees) ∧
    (buffers.gone = true → ∀ addr < buffers.mallocs,
      (buffers.frees.map Release.addr).count addr = 1 ∨
        buffers.onIpc = .closing ∧ addr ∈ buffers.held .pending) := by
  obtain ⟨hcontents, hsound⟩ := Buffers.sound h
  refine ⟨fun addr haddr => hsound.owned haddr, fun label next hstep => ?_,
    fun hgone addr haddr => ?_⟩
  · exact (Buffers.booked_step hcontents (Buffers.turns h) hsound hstep).frees
  · rcases hsound.owned haddr with ⟨⟨place, hheld, -⟩, -⟩ | ⟨-, honce⟩
    · obtain ⟨hclosing, rfl⟩ := Buffers.held_gone h hgone hheld
      exact Or.inr ⟨hclosing, hheld⟩
    · exact Or.inl honce

/-- The worklet has finalized one message and has another one left to read, as has the host,
which has read one and a part of a second; a write was refused. The last to let go, the host
frees the queue while it closes its ipc. -/
def Buffers.spent : Buffers :=
  Buffers.system.result { queue := bareQueueCreate Slots.blank Slots.blank }
    [.openUv none none, .ipcCreate 1 2, .ipcWrite [1, 2], .onWrite .thread, .read,
      .finalize ⟨0, [1, 2]⟩, .write [3], .onWrite .uv, .ipcRead 4, .ipcReadPending, .write [4, 5],
      .onWrite .uv, .ipcRead 1, .ipcReadPending, .write [6], .onWrite .uv, .ipcWrite [7],
      .onWrite .thread, .exit, .ipcWrite [8], .onWrite .thread, .onWrite .thread, .tearDown,
      .destroy, .onDestroy, .ipcClose, .drain, .drain, .drain, .ipcCloseRelease] (by decide +kernel)

theorem bareQueue_buffers_freedOnce_byAll :
    Buffers.spent.frees =
      [⟨.closed, 2⟩, ⟨.drained, 3⟩, ⟨.drained, 4⟩, ⟨.refused .thread, 5⟩, ⟨.read, 1⟩,
      ⟨.finalized, 0⟩] ∧
    ∀ addr < 6, (Buffers.spent.frees.map Release.addr).count addr = 1 := by
  have hmallocs : Buffers.spent.mallocs = 6 := by decide +kernel
  have hidle : Buffers.spent.onIpc = .idle := by decide +kernel
  have hspent : Buffers.system.Reachable Buffers.spent :=
    .result (S := Buffers.system) ⟨_, _, rfl⟩ _ _
  obtain ⟨-, -, hgone⟩ := bareQueue_buffers_freedOnce hspent
  refine ⟨by decide +kernel, fun addr haddr => ?_⟩
  refine (hgone (by decide +kernel) addr (hmallocs ▸ haddr)).resolve_right fun hclosing => ?_
  rw [hidle] at hclosing
  exact absurd hclosing.1 (by decide)

end BareKit
