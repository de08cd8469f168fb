import BareKit.HostView

/-! What the ipc of a worklet is for: a pipe of messages in either direction, of which the host
may read one in parts. Each step on the wire is one call on the pipe, or nothing that can be
told from outside. -/
namespace BareKit

namespace Channel

variable {μ ν : Type*}

def map (f : μ → ν) (channel : Channel μ) : Channel ν where
  inbox port := (channel.inbox port).map f
  state := channel.state

section Map

variable (f : μ → ν) (channel : Channel μ) (port : Port)

@[simp] theorem map_state : (channel.map f).state = channel.state := rfl

@[simp] theorem map_inbox : (channel.map f).inbox port = (channel.inbox port).map f := rfl

@[simp] theorem map_sendResult : (channel.map f).sendResult port = channel.sendResult port := by
  have hlength : ((channel.map f).outbox port).length = (channel.outbox port).length := by
    simp [outbox]
  by_cases hrefused : channel.Refused port
  · rw [sendResult_closed.mpr hrefused]
    exact sendResult_closed.mpr hrefused
  · by_cases hfull : (channel.outbox port).length = bound
    · rw [sendResult_blocked.mpr ⟨hrefused, hfull⟩]
      exact sendResult_blocked.mpr ⟨hrefused, hlength.trans hfull⟩
    · rw [sendResult_accepted.mpr ⟨hrefused, hfull⟩]
      exact sendResult_accepted.mpr ⟨hrefused, fun hmapped => hfull (hlength.symm.trans hmapped)⟩

theorem map_send (message : μ) :
    (channel.send port message).map f = (channel.map f).send port (f message) := by
  by_cases haccepted : channel.sendResult port = .accepted
  · apply ext
    · intro other
      rcases port.eq_or_eq_peer other with rfl | rfl
      · simp
      · rw [map_inbox, send_inbox_peer _ _ _ haccepted,
          send_inbox_peer _ _ _ (by simpa using haccepted)]
        simp
    · intro other
      simp
  · rw [send_eq_self _ _ _ haccepted, send_eq_self _ _ _ (by simpa using haccepted)]

theorem map_receive : (channel.receive port).map f = (channel.map f).receive port := by
  apply ext
  · intro other
    rcases port.eq_or_eq_peer other with rfl | rfl <;> simp
  · intro other
    rfl

theorem map_advance (state : EndState) :
    (channel.advance port state).map f = (channel.map f).advance port state := by
  unfold advance
  split
  · exact (if_pos ‹_›).symm
  · exact (if_neg ‹_›).symm

theorem map_receiveResult : (channel.map f).receiveResult port =
    match channel.receiveResult port with
    | .message message => .message (f message)
    | .endOfStream => .endOfStream
    | .blocked => .blocked := by
  have hfinished : (channel.map f).Finished port ↔ channel.Finished port := Iff.rfl
  simp only [receiveResult, map_inbox, hfinished]
  cases channel.inbox port with
  | nil => by_cases hend : channel.Finished port <;> simp [hend]
  | cons message rest => simp

end Map

end Channel

@[ext] structure Pipe where
  channel : Channel Bytes
  rest : Bytes

/-- The calls of the host, and those of the worklet on the native side of its stream. -/
inductive PipeCall where
  | ipcCreate
  | ipcRead (len : Nat)
  | ipcWrite (data : Bytes)
  | ipcEnd
  | ipcClose
  | openUv
  | read
  | write (chunk : Bytes)
  | final
  | close
  deriving DecidableEq, Repr

inductive PipeAnswer where
  | created (ok : Bool)
  | result (value : Int) (data : Bytes)
  | read (result : NativeRead)
  | written (result : Option Int)
  | done
  deriving DecidableEq, Repr

namespace Pipe

def empty : Pipe := ⟨Channel.empty, []⟩

def ipcCount (data : Bytes) : SendResult → Int
  | .closed => bareIpcError
  | .blocked => bareIpcWouldBlock
  | .accepted => (min data.length intMax : Nat)

/-- What `native.write` returns. -/
def nativeCount (chunk : Bytes) : SendResult → Option Int
  | .closed => none
  | .blocked => some bareQueueWouldBlock
  | .accepted => some (min chunk.length intMax : Nat)

/-- What `native.read` returns. -/
def nativeRead : ReceiveResult Bytes → NativeRead
  | .message chunk => .chunk chunk
  | .endOfStream => .null
  | .blocked => .undefined

def deliver (channel : Channel Bytes) (message : Bytes) (len : Nat) : Pipe × PipeAnswer :=
  (⟨channel, message.drop (min len intMax)⟩,
    .result (message.take (min len intMax)).length (message.take (min len intMax)))

def machine : Transition.Machine Pipe PipeCall PipeAnswer := fun pipe call =>
  match call with
  | .ipcCreate =>
    if pipe.channel.state .thread = .idle then
      ({ pipe with channel := pipe.channel.setState .thread .opened }, .created true)
    else (pipe, .created false)
  | .ipcRead len =>
    if pipe.rest ≠ [] then deliver pipe.channel pipe.rest len
    else if pipe.channel.state .thread = .closed then (pipe, .result 0 [])
    else
      match pipe.channel.receiveResult .thread with
      | .message message => deliver (pipe.channel.receive .thread) message len
      | .endOfStream => (pipe, .result 0 [])
      | .blocked => (pipe, .result bareIpcWouldBlock [])
  | .ipcWrite data =>
    if pipe.channel.state .thread = .closed then (pipe, .result bareIpcError [])
    else if data = [] then (pipe, .result 0 [])
    else
      ({ pipe with channel := pipe.channel.send .thread (data.take intMax) },
        .result (ipcCount data (pipe.channel.sendResult .thread)) [])
  | .ipcEnd => ({ pipe with channel := pipe.channel.advance .thread .ended }, .done)
  | .ipcClose => (⟨pipe.channel.advance .thread .closed, []⟩, .done)
  | .openUv => ({ pipe with channel := pipe.channel.setState .uv .opened }, .done)
  | .read =>
    ({ pipe with channel := pipe.channel.receive .uv },
      .read (nativeRead (pipe.channel.receiveResult .uv)))
  | .write chunk =>
    if chunk = [] then (pipe, .written (some 0))
    else
      ({ pipe with channel := pipe.channel.send .uv (chunk.take intMax) },
        .written (nativeCount chunk (pipe.channel.sendResult .uv)))
  | .final => ({ pipe with channel := pipe.channel.advance .uv .ended }, .done)
  | .close => ({ pipe with channel := pipe.channel.advance .uv .closed }, .done)

theorem state_le_machine (pipe : Pipe) (call : PipeCall) (hopen : call ≠ .openUv) :
    pipe.channel.state .uv ≤ (machine pipe call).1.channel.state .uv := by
  have hrefl : pipe.channel.state .uv ≤ pipe.channel.state .uv := Nat.le_refl _
  cases call with
  | ipcCreate =>
    simp only [machine]
    split
    · exact Nat.le_of_eq
        (congrArg EndState.rank (Channel.setState_state_peer _ .thread .opened).symm)
    · exact hrefl
  | ipcWrite data | write chunk =>
    simp only [machine]
    split_ifs <;> simpa using hrefl
  | ipcRead len =>
    simp only [machine]
    split_ifs
    · exact hrefl
    · exact hrefl
    · split <;> exact hrefl
  | read => exact hrefl
  | ipcEnd => exact Channel.le_advance pipe.channel .thread .uv .ended
  | ipcClose => exact Channel.le_advance pipe.channel .thread .uv .closed
  | final => exact Channel.le_advance pipe.channel .uv .uv .ended
  | close => exact Channel.le_advance pipe.channel .uv .uv .closed
  | openUv => contradiction

end Pipe

namespace Wire

/-- The pipe that the wire stands for. A read has its bytes from where it finds the message on,
and a close the rest of one. -/
def pipe (wire : Wire) : Pipe where
  channel := wire.queue.channel.map Buffer.bytes
  rest :=
    match wire.held with
    | some (.reading len _) => wire.unread.drop (min len intMax)
    | some .closing => []
    | _ => wire.unread

def pipeCall (wire : Wire) : Step → Option PipeCall
  | .ipcCreate _ _ => some .ipcCreate
  | .ipcRead len => some (.ipcRead len)
  | .ipcWrite _ data => some (.ipcWrite data)
  | .ipcEnd => some .ipcEnd
  | .ipcClose => some .ipcClose
  | .openUv _ _ => some .openUv
  | .write _ chunk => some (.write chunk)
  | .retry _ => wire.stream.pendingWrite.map fun pending => .write pending.chunk
  | .drain _ => if wire.stream.reading then some .read else none
  | .final => some .final
  | .exit | .abandon => some .close
  | _ => none

/-- What `bare_ipc_read` will have returned, once it has got as far as its call on the queue. -/
def readResult (wire : Wire) (ipc : Ipc) (len : Nat) : PipeAnswer :=
  let found := bareIpcReadQueue wire.queue ipc
  let read := bareIpcReadPending found.queue found.result.1 len found.result.2
  .result read.result read.data

def pipeAnswer (wire : Wire) (label : Step) : PipeAnswer :=
  match label, wire.ipc with
  | .ipcCreate onSignal data, _ => .created (bareIpcCreate wire.queue onSignal data).result.isSome
  | .ipcRead len, some ipc => wire.readResult ipc len
  | .ipcWrite addr data, some ipc => .result (bareIpcWrite wire.queue ipc addr data).result []
  | .write addr chunk, _ => .written (bareWorkletOnIpcWrite wire.queue addr chunk).result
  | .retry addr, _ =>
    match wire.stream.pendingWrite with
    | some pending => .written (bareWorkletOnIpcWrite wire.queue addr pending.chunk).result
    | none => .done
  | .drain _, _ => .read (bareWorkletOnIpcRead wire.queue).result
  | _, _ => .done

def Refines (wire : Wire) (label : Step) (next : Wire) : Prop :=
  match wire.pipeCall label with
  | none => next.pipe = wire.pipe
  | some call => Pipe.machine wire.pipe call = (next.pipe, wire.pipeAnswer label)

variable {wire next : Wire} {ipc : Ipc} {label : Step}

theorem refines_none (hcall : wire.pipeCall label = none)
    (hchannel : next.queue.channel = wire.queue.channel) (hrest : next.pipe.rest = wire.pipe.rest) :
    wire.Refines label next := by
  simp only [Refines, hcall, pipe, Pipe.mk.injEq]
  exact ⟨by rw [hchannel], hrest⟩

theorem refines_call {call : PipeCall} {after : Pipe} {answer : PipeAnswer}
    (hcall : wire.pipeCall label = some call)
    (hmachine : Pipe.machine wire.pipe call = (after, answer))
    (hchannel : next.queue.channel.map Buffer.bytes = after.channel)
    (hrest : next.pipe.rest = after.rest) (hanswer : wire.pipeAnswer label = answer) :
    wire.Refines label next := by
  simp only [Refines, hcall, hmachine]
  exact Prod.ext (Pipe.ext hchannel.symm hrest.symm) hanswer.symm

theorem pipe_rest (hheld : wire.held = none) : wire.pipe.rest = wire.unread := by
  simp only [pipe, hheld]

theorem readPending_eq (hwell : ipc.WellFormed) (queue : Queue) (len : Nat) (blocked : Bool)
    (hpending : ipc.pending.base ≠ none) :
    (bareIpcReadPending queue ipc len blocked).result = (ipc.unread.take (min len intMax)).length ∧
      (bareIpcReadPending queue ipc len blocked).data = ipc.unread.take (min len intMax) ∧
      (bareIpcReadPending queue ipc len blocked).ipc.unread = ipc.unread.drop (min len intMax) := by
  obtain ⟨base, hbase⟩ := Option.ne_none_iff_exists'.mp hpending
  obtain ⟨htotal, hoffset⟩ := hwell.rest base hbase
  obtain ⟨n, hn⟩ : ∃ n, n = min (min len intMax) (base.bytes.length - ipc.offset) := ⟨_, rfl⟩
  have hcap : (if len > intMax then intMax else len) = min len intMax := by
    split <;> omega
  have hlen : (if (if len > intMax then intMax else len) > ipc.pending.len - ipc.offset then
      ipc.pending.len - ipc.offset else if len > intMax then intMax else len) = n := by
    rw [hcap, htotal, hn]
    split <;> omega
  have htake :
      (base.bytes.drop ipc.offset).take n = (base.bytes.drop ipc.offset).take (min len intMax) := by
    rw [List.take_eq_take_iff, List.length_drop]
    omega
  have hdrop :
      (base.bytes.drop ipc.offset).drop n = (base.bytes.drop ipc.offset).drop (min len intMax) := by
    by_cases hall : min len intMax ≤ base.bytes.length - ipc.offset
    · congr 1
      omega
    · rw [List.drop_eq_nil_of_le, List.drop_eq_nil_of_le] <;> rw [List.length_drop] <;> omega
  simp only [bareIpcReadPending, hbase, hlen, Ipc.unread]
  refine ⟨?_, htake, ?_⟩
  · rw [← htake, List.length_take, List.length_drop]
    congr 1
    omega
  · rw [← hdrop, List.drop_drop]
    by_cases hlast : ipc.offset + n = ipc.pending.len
    · rw [if_pos hlast, List.drop_eq_nil_of_le]
      omega
    · rw [if_neg hlast]

theorem readPending_none (queue : Queue) (len : Nat) (blocked : Bool)
    (hpending : ipc.pending.base = none) : bareIpcReadPending queue ipc len blocked =
      { ipc, result := if blocked then bareIpcWouldBlock else 0 } := by
  simp only [bareIpcReadPending, hpending]

theorem unread_none (hpending : ipc.pending.base = none) : ipc.unread = [] := by
  simp only [Ipc.unread, hpending]

theorem unread_ne_nil (hwell : ipc.WellFormed) (hpending : ipc.pending.base ≠ none) :
    ipc.unread ≠ [] := by
  obtain ⟨base, hbase⟩ := Option.ne_none_iff_exists'.mp hpending
  obtain ⟨-, hoffset⟩ := hwell.rest base hbase
  simp only [Ipc.unread, hbase, ne_eq, List.drop_eq_nil_iff]
  omega

theorem state_of_port (hhosted : wire.Hosted) (hheld : wire.held = none)
    (hipc : wire.ipc = some ipc) :
    wire.pipe.channel.state .thread = .closed ↔ ipc.port = false := by
  constructor
  · intro hclosed
    rcases hhosted.shut hclosed with hclosing | ⟨other, hother, hgone⟩
    · rw [hheld] at hclosing
      contradiction
    · rw [hipc] at hother
      cases hother
      exact hgone
  · exact hhosted.gone ipc hipc

theorem refines_ipcCreate (hsound : wire.Sound) (onSignal data : Pointer) :
    wire.Refines (.ipcCreate onSignal data)
      { wire.apply (bareIpcCreate wire.queue onSignal data) with
        ipc := (bareIpcCreate wire.queue onSignal data).result.or wire.ipc } := by
  have hchannel : (bareIpcCreate wire.queue onSignal data).queue.channel = _ :=
    Queue.channel_openThread wire.queue (some onSignal) (some data)
  have hresult := Queue.openThread_result wire.queue (some onSignal) (some data)
  by_cases hidle : wire.queue.channel.state .thread = .idle
  · -- the first ipc, so nothing is held or read of it
    have hipc : wire.ipc = none := by
      by_contra hne
      exact hsound.opened hne hidle
    have hheld : wire.held = none := by
      by_contra hne
      exact hsound.holder hne hipc
    have hmachine : Pipe.machine wire.pipe .ipcCreate =
        ({ wire.pipe with channel := wire.pipe.channel.setState .thread .opened }, .created true) :=
      if_pos hidle
    refine refines_call rfl hmachine ?_ ?_ ?_
    · rw [apply_queue, hchannel, if_neg (not_not.mpr hidle)]
      rfl
    · simp [pipe, hheld, unread, hipc, bareIpcCreate, hresult, hidle, Ipc.unread]
    · simp [pipeAnswer, bareIpcCreate, hresult, hidle]
  · have hmachine : Pipe.machine wire.pipe .ipcCreate = (wire.pipe, .created false) := if_neg hidle
    refine refines_call rfl hmachine ?_ ?_ ?_
    · rw [apply_queue, hchannel, if_pos hidle]
      rfl
    · simp [pipe, unread, bareIpcCreate, hresult, hidle]
    · simp [pipeAnswer, bareIpcCreate, hresult, hidle]

theorem deliver_eq (hwell : ipc.WellFormed) (queue : Queue) (len : Nat) (blocked : Bool)
    (hpending : ipc.pending.base ≠ none) (channel : Channel Bytes) :
    Pipe.deliver channel ipc.unread len =
      (⟨channel, ipc.unread.drop (min len intMax)⟩,
        .result (bareIpcReadPending queue ipc len blocked).result
          (bareIpcReadPending queue ipc len blocked).data) := by
  obtain ⟨hresult, hdata, -⟩ := readPending_eq hwell queue len blocked hpending
  rw [hresult, hdata]
  rfl

theorem refines_ipcRead_rest (hsound : wire.Sound) (hhosted : wire.Hosted)
    (hheld : wire.held = none)
    (hipc : wire.ipc = some ipc) (len : Nat)
    (hr : bareIpcReadQueue wire.queue ipc = ⟨wire.queue, (ipc, false), none, none⟩)
    (hport : ipc.port = true → ipc.pending.base ≠ none) :
    wire.Refines (.ipcRead len)
      { wire.apply (bareIpcReadQueue wire.queue ipc) with
        ipc := some (bareIpcReadQueue wire.queue ipc).result.1
        held := some (.reading len (bareIpcReadQueue wire.queue ipc).result.2) } := by
  have hwell := hsound.ipc ipc hipc
  have hrest : wire.pipe.rest = ipc.unread := by
    rw [pipe_rest hheld, unread, hipc]
  by_cases hpending : ipc.pending.base = none
  · have hgone : ipc.port = false := by
      by_contra hopen
      exact hport (eq_true_of_ne_false hopen) hpending
    have hmachine : Pipe.machine wire.pipe (.ipcRead len) = (wire.pipe, .result 0 []) := by
      simp only [Pipe.machine, hrest, unread_none hpending, ne_eq, not_true, if_false]
      exact if_pos ((state_of_port hhosted hheld hipc).mpr hgone)
    refine refines_call rfl hmachine ?_ ?_ ?_
    · rw [hr]
      rfl
    · rw [hr, hrest]
      simp [pipe, unread, unread_none hpending]
    · simp [hr, pipeAnswer, hipc, readResult, readPending_none _ _ _ hpending]
  · have hmachine : Pipe.machine wire.pipe (.ipcRead len) =
        Pipe.deliver wire.pipe.channel ipc.unread len := by
      simp only [Pipe.machine, hrest]
      exact if_pos (unread_ne_nil hwell hpending)
    rw [deliver_eq hwell wire.queue len false hpending] at hmachine
    refine refines_call rfl hmachine ?_ ?_ ?_
    · rw [hr]
      rfl
    · rw [hr]
      rfl
    · simp [hr, pipeAnswer, hipc, readResult]

theorem machine_ipcRead (hhosted : wire.Hosted) (hheld : wire.held = none)
    (hipc : wire.ipc = some ipc)
    (hport : ipc.port = true) (hpending : ipc.pending.base = none) (len : Nat) :
    Pipe.machine wire.pipe (.ipcRead len) =
      match wire.queue.channel.receiveResult .thread with
      | .message buffer => Pipe.deliver (wire.pipe.channel.receive .thread) buffer.bytes len
      | .endOfStream => (wire.pipe, .result 0 [])
      | .blocked => (wire.pipe, .result bareIpcWouldBlock []) := by
  have hrest : wire.pipe.rest = [] := by
    rw [pipe_rest hheld, unread, hipc]
    exact unread_none hpending
  have hopen : wire.pipe.channel.state .thread ≠ .closed := by
    rw [ne_eq, state_of_port hhosted hheld hipc, hport]
    simp
  have hreceive : wire.pipe.channel.receiveResult .thread = _ :=
    Channel.map_receiveResult Buffer.bytes wire.queue.channel .thread
  simp only [Pipe.machine, hrest, ne_eq, not_true, if_false, hopen, hreceive]
  cases wire.queue.channel.receiveResult .thread <;> rfl

/-- A read has its bytes, or that there are none, from where it finds them on. -/
theorem refines_ipcRead (hsound : wire.Sound) (hhosted : wire.Hosted) (hheld : wire.held = none)
    (hipc : wire.ipc = some ipc) (len : Nat) :
    wire.Refines (.ipcRead len)
      { wire.apply (bareIpcReadQueue wire.queue ipc) with
        ipc := some (bareIpcReadQueue wire.queue ipc).result.1
        held := some (.reading len (bareIpcReadQueue wire.queue ipc).result.2) } := by
  rcases Ipc.readQueue_cases ipc hsound.queue with ⟨hr, hport⟩ | ⟨hport, hpending, hcase⟩
  · exact refines_ipcRead_rest hsound hhosted hheld hipc len hr hport
  · have hmachine := machine_ipcRead hhosted hheld hipc hport hpending len
    have hunread : wire.pipe.rest = [] := by
      rw [pipe_rest hheld, unread, hipc]
      exact unread_none hpending
    rcases hcase with ⟨buffer, rest, ring, hinbox, hring, hbuffers, wake, -, hr⟩ |
      ⟨hinbox, hfin, hr⟩ | ⟨hinbox, hfin, hr⟩
    · have hreceive : wire.queue.channel.receiveResult .thread = .message buffer := by
        simp only [Channel.receiveResult, hinbox]
      have hmem : buffer ∈ (bareQueueInbox wire.queue .thread).buffers := by
        rw [← Queue.channel_inbox, hinbox]
        simp
      have hfound : Ipc.WellFormed { ipc with pending := buffer.message, offset := 0 } := by
        refine ⟨fun _ => hport, fun base hbase => ?_⟩
        cases hbase
        exact ⟨rfl, ((hsound.queue.ring .thread).sized hmem).1⟩
      rw [hreceive] at hmachine
      replace hmachine :=
        hmachine.trans (deliver_eq hfound (wire.queue.setInbox .thread ring) len false
        (by simp [Buffer.message]) _)
      refine refines_call rfl hmachine ?_ ?_ ?_
      · rw [hr]
        show (wire.queue.setInbox .thread ring).channel.map Buffer.bytes =
          (wire.queue.channel.map Buffer.bytes).receive .thread
        rw [← Channel.map_receive, Queue.channel_setInbox, hbuffers, Channel.receive, hinbox,
          List.tail_cons]
      · rw [hr]
        rfl
      · simp only [pipeAnswer, hipc, readResult, hr]
    · have hreceive : wire.queue.channel.receiveResult .thread = .endOfStream := by
        simp only [Channel.receiveResult, hinbox, hfin, if_true]
      rw [hreceive] at hmachine
      refine refines_call rfl hmachine ?_ ?_ ?_
      · rw [hr]
        rfl
      · rw [hr, hunread]
        simp [pipe, unread, Ipc.unread]
      · simp [hr, pipeAnswer, hipc, readResult, bareIpcReadPending]
    · have hreceive : wire.queue.channel.receiveResult .thread = .blocked := by
        simp only [Channel.receiveResult, hinbox, hfin, if_false]
      rw [hreceive] at hmachine
      refine refines_call rfl hmachine ?_ ?_ ?_
      · rw [hr]
        rfl
      · rw [hr, hunread]
        simp [pipe, unread, Ipc.unread, hpending]
      · simp [hr, pipeAnswer, hipc, readResult, bareIpcReadPending, hpending]

theorem refines_ipcReadPending (hsound : wire.Sound) {len : Nat} {blocked : Bool}
    (hipc : wire.ipc = some ipc) (hheld : wire.held = some (.reading len blocked))
    {held : Option Section}
    (hfree : held = some .signalling ∨ held = none) (log : Log) :
    wire.Refines .ipcReadPending
      { wire with ipc := some (bareIpcReadPending wire.queue ipc len blocked).ipc, held, log } := by
  have hrest : wire.pipe.rest = ipc.unread.drop (min len intMax) := by
    simp only [pipe, hheld, unread, hipc]
  refine refines_none rfl rfl ?_
  rw [hrest]
  have hnext :
      ({ wire with ipc := some (bareIpcReadPending wire.queue ipc len blocked).ipc, held, log } :
      Wire).pipe.rest = (bareIpcReadPending wire.queue ipc len blocked).ipc.unread := by
    rcases hfree with rfl | rfl <;> rfl
  rw [hnext]
  by_cases hpending : ipc.pending.base = none
  · rw [readPending_none _ _ _ hpending, unread_none hpending, List.drop_nil]
  · exact (readPending_eq (hsound.ipc ipc hipc) wire.queue len blocked hpending).2.2

theorem refines_ipcWrite (hsound : wire.Sound) (hhosted : wire.Hosted) (hheld : wire.held = none)
    (hipc : wire.ipc = some ipc) (addr : Pointer) (data : Bytes) (log : Log) :
    wire.Refines (.ipcWrite addr data)
      { wire.apply (bareIpcWrite wire.queue ipc addr data) with log } := by
  have hclosed := state_of_port hhosted hheld hipc
  by_cases hport : ipc.port = true
  · have hopen : wire.pipe.channel.state .thread ≠ .closed := by
      rw [ne_eq, hclosed, hport]
      simp
    by_cases hdata : data = []
    · have hmachine : Pipe.machine wire.pipe (.ipcWrite data) = (wire.pipe, .result 0 []) := by
        simp only [Pipe.machine, hopen, if_false, hdata, if_true]
      have hw : bareIpcWrite wire.queue ipc addr data = ⟨wire.queue, 0, none, none⟩ := by
        simp [bareIpcWrite, hport, hdata, Queue.write_nil, bareQueueWouldBlock, bareQueueClosed]
      refine refines_call rfl hmachine ?_ ?_ ?_
      · rw [hw]
        rfl
      · rfl
      · simp [pipeAnswer, hipc, hw]
    · have hmachine : Pipe.machine wire.pipe (.ipcWrite data) =
          ({ wire.pipe with channel := wire.pipe.channel.send .thread (data.take intMax) },
            .result (Pipe.ipcCount data (wire.queue.channel.sendResult .thread)) []) := by
        have hsend : wire.pipe.channel.sendResult .thread = wire.queue.channel.sendResult .thread :=
          Channel.map_sendResult Buffer.bytes wire.queue.channel .thread
        simp only [Pipe.machine, hopen, if_false, hdata, hsend]
      have hqueue : (bareIpcWrite wire.queue ipc addr data).queue =
          (bareQueueWrite wire.queue .thread addr data).queue := by
        simp only [bareIpcWrite, hport, if_true]
      refine refines_call rfl hmachine ?_ ?_ ?_
      · rw [apply_queue, hqueue, hsound.queue.channel_write .thread addr data hdata,
          Queue.take_offered, Channel.map_send]
        rfl
      · rfl
      · simp only [pipeAnswer, hipc, bareIpcWrite, hport, if_true,
          hsound.queue.write_result .thread addr data hdata]
        have hblocked : (Queue.offered data : Int) ≠ bareQueueWouldBlock := by
          simp only [bareQueueWouldBlock]
          omega
        have hcount : (Queue.offered data : Int) ≠ bareQueueClosed := by
          simp only [bareQueueClosed]
          omega
        cases wire.queue.channel.sendResult .thread
        · rfl
        · rfl
        · simp only [hblocked, hcount, if_false]
          rfl
  · have hgone : ipc.port = false := eq_false_of_ne_true hport
    have hmachine :
        Pipe.machine wire.pipe (.ipcWrite data) = (wire.pipe, .result bareIpcError []) :=
      if_pos (hclosed.mpr hgone)
    have hw : bareIpcWrite wire.queue ipc addr data = ⟨wire.queue, bareIpcError, none, none⟩ := by
      simp [bareIpcWrite, hgone]
    refine refines_call rfl hmachine ?_ ?_ ?_
    · rw [hw]
      rfl
    · rfl
    · simp [pipeAnswer, hipc, hw]

theorem channel_advance_map (port : Port) (state : EndState) :
    (bareQueueAdvance wire.queue port state).queue.channel.map Buffer.bytes =
      wire.pipe.channel.advance port state := by
  rw [Queue.channel_advance, Channel.map_advance]
  rfl

theorem refines_ipcEnd (hheld : wire.held = none) :
    wire.Refines .ipcEnd
      { wire.apply (bareQueueEnd wire.queue .thread) with held := some .signalling } := by
  exact refines_call rfl rfl (channel_advance_map .thread .ended) (pipe_rest hheld).symm rfl

theorem refines_ipcClose : wire.Refines .ipcClose
    { wire.apply (bareQueueClose wire.queue .thread) with held := some .closing } := by
  exact refines_call rfl rfl (channel_advance_map .thread .closed) rfl rfl

theorem refines_gone (hsound : wire.Sound) (hhosted : wire.Hosted) (hheld : wire.held = none)
    (hipc : wire.ipc = some ipc) (hport : ipc.port = false) :
    wire.Refines .ipcEnd wire ∧ wire.Refines .ipcClose wire := by
  have hclosed : wire.pipe.channel.state .thread = .closed :=
    (state_of_port hhosted hheld hipc).mpr hport
  have hsame : ∀ state, wire.pipe.channel.advance .thread state = wire.pipe.channel := by
    intro state
    refine if_neg ?_
    rw [hclosed]
    cases state <;> decide
  have hrest : wire.pipe.rest = [] := by
    rw [pipe_rest hheld, unread, hipc]
    refine unread_none ?_
    by_contra hpending
    have hopen := (hsound.ipc ipc hipc).port hpending
    simp [hport] at hopen
  constructor
  · exact refines_call rfl rfl (hsame .ended).symm rfl rfl
  · exact refines_call rfl rfl (hsame .closed).symm hrest rfl

theorem refines_openUv (onRecv data : Option Pointer) :
    wire.Refines (.openUv onRecv data)
      { wire.apply (bareQueueOpenUv wire.queue onRecv data) with started := true } := by
  refine refines_call rfl rfl ?_ rfl rfl
  exact congrArg (Channel.map Buffer.bytes) (Queue.channel_openUv wire.queue onRecv data)

theorem refines_send (hsound : wire.Sound) (stream : IPCStream) (addr : Pointer) (chunk : Bytes)
    (cb : Nat) (hcall : wire.pipeCall label = some (.write chunk))
    (hanswer : wire.pipeAnswer label =
      .written (bareWorkletOnIpcWrite wire.queue addr chunk).result) (log : Log) (turn : Turn) :
    wire.Refines label { { wire with log }.send stream addr chunk cb with turn } := by
  have hqueue : (({ wire with log } : Wire).send stream addr chunk cb).queue =
      (bareQueueWrite wire.queue .uv addr chunk).queue := rfl
  by_cases hchunk : chunk = []
  · have hmachine : Pipe.machine wire.pipe (.write chunk) = (wire.pipe, .written (some 0)) :=
      if_pos hchunk
    refine refines_call hcall hmachine ?_ rfl ?_
    · rw [hqueue, Queue.write_nil .uv addr chunk hchunk]
      rfl
    · rw [hanswer]
      simp [bareWorkletOnIpcWrite, hchunk, Queue.write_nil, bareQueueClosed]
  · have hmachine : Pipe.machine wire.pipe (.write chunk) =
        ({ wire.pipe with channel := wire.pipe.channel.send .uv (chunk.take intMax) },
          .written (Pipe.nativeCount chunk (wire.queue.channel.sendResult .uv))) := by
      have hsend : wire.pipe.channel.sendResult .uv = wire.queue.channel.sendResult .uv :=
        Channel.map_sendResult Buffer.bytes wire.queue.channel .uv
      simp only [Pipe.machine, hchunk, if_false, hsend]
    refine refines_call hcall hmachine ?_ rfl ?_
    · rw [hqueue, hsound.queue.channel_write .uv addr chunk hchunk, Queue.take_offered,
        Channel.map_send]
      rfl
    · rw [hanswer]
      have hcount : (Queue.offered chunk : Int) ≠ bareQueueClosed := by
        simp only [bareQueueClosed]
        omega
      simp only [bareWorkletOnIpcWrite, hsound.queue.write_result .uv addr chunk hchunk]
      cases wire.queue.channel.sendResult .uv
      · rfl
      · rfl
      · simp only [hcount, if_false]
        rfl

theorem nativeRead_eq (h : wire.queue.WellFormed) : (bareWorkletOnIpcRead wire.queue).result =
    Pipe.nativeRead (wire.pipe.channel.receiveResult .uv) := by
  have hreceive : wire.pipe.channel.receiveResult .uv = _ :=
    Channel.map_receiveResult Buffer.bytes wire.queue.channel .uv
  rw [hreceive]
  rcases h.read_cases .uv with ⟨buffer, rest, ring, hinbox, -, -, hr⟩ | ⟨hinbox, hfin, hr⟩ |
    ⟨hinbox, hfin, hr⟩
  · have hmem : buffer ∈ (bareQueueInbox wire.queue .uv).buffers := by
      rw [← Queue.channel_inbox, hinbox]
      simp
    have hlen : buffer.bytes.length ≠ 0 := Nat.pos_iff_ne_zero.mp ((h.ring .uv).sized hmem).1
    simp [bareWorkletOnIpcRead, hr, Channel.receiveResult, hinbox, Buffer.message, hlen,
      Pipe.nativeRead]
  · simp [bareWorkletOnIpcRead, hr, Channel.receiveResult, hinbox, hfin, Pipe.nativeRead]
  · simp [bareWorkletOnIpcRead, hr, Channel.receiveResult, hinbox, hfin, Pipe.nativeRead]

theorem refines_drain (hsound : wire.Sound) {more : Bool} (hturn : wire.turn = .draining)
    (hnext : wire.stepScript (.drain more) = some next) : wire.Refines (.drain more) next := by
  have hframe : next.queue = (wire.stream.drain wire.queue more).queue ∧ next.ipc = wire.ipc ∧
      next.held = wire.held := by
    simp only [stepScript, hturn, if_true] at hnext
    split at hnext <;>
    · cases hnext
      exact ⟨rfl, rfl, rfl⟩
  obtain ⟨hqueue, hipc, hheld⟩ := hframe
  have hrest : next.pipe.rest = wire.pipe.rest := by
    simp only [pipe, hheld, unread, hipc]
  by_cases hreading : wire.stream.reading = true
  · have hread : next.queue = (bareQueueRead wire.queue .uv).queue := by
      rw [hqueue]
      simp only [IPCStream.drain, hreading, if_true]
      rfl
    refine refines_call (if_pos hreading) rfl ?_ hrest ?_
    · rw [hread, hsound.queue.channel_read, Channel.map_receive]
      rfl
    · exact congrArg PipeAnswer.read (nativeRead_eq hsound.queue)
  · have hsame : next.queue = wire.queue := by
      rw [hqueue]
      simp only [IPCStream.drain, hreading]
      rfl
    exact refines_none (if_neg hreading) (by rw [hsame]) hrest

theorem refines_advance {call : PipeCall} (state : EndState)
    (hcall : wire.pipeCall label = some call)
    (hanswer : wire.pipeAnswer label = .done)
    (hmachine : Pipe.machine wire.pipe call =
      ({ wire.pipe with channel := wire.pipe.channel.advance .uv state }, .done)) (log : Log) :
    wire.Refines label { wire.apply (bareQueueAdvance wire.queue .uv state) with log } := by
  exact refines_call hcall hmachine (channel_advance_map .uv state) rfl hanswer

/-- Each step on the wire does what its call does to the pipe, and answers what it answers there.
The other steps do nothing to the pipe. -/
theorem refines_step (h : system.Reachable wire) (hstep : wire.step label = some next) :
    wire.Refines label next := by
  have hsound := sound h
  have hhosted := hosted h
  cases move_step hstep with
  | ipcCreate _ => exact refines_ipcCreate hsound _ _
  | ipcRead hheld hipc _ => exact refines_ipcRead hsound hhosted hheld hipc _
  | ipcReadPending hipc hheld =>
    refine refines_ipcReadPending hsound hipc hheld ?_ _
    split
    · exact Or.inl rfl
    · exact Or.inr rfl
  | ipcWrite hheld hipc => exact refines_ipcWrite hsound hhosted hheld hipc _ _ _
  | ipcEnd hheld _ _ => exact refines_ipcEnd hheld
  | ipcClose _ _ _ => exact refines_ipcClose
  | ipcEndGone hheld hipc hport => exact (refines_gone hsound hhosted hheld hipc hport).1
  | ipcCloseGone hheld hipc hport => exact (refines_gone hsound hhosted hheld hipc hport).2
  | ipcCloseRelease _ hheld =>
    refine refines_none rfl rfl ?_
    simp only [pipe, hheld]
    rfl
  | ipcSignal hipc hheld => 
    refine refines_none rfl rfl ?_
    simp only [pipe, hheld]
    rfl
  | dispatch hheld _ =>
    refine refines_none rfl rfl ?_
    simp only [pipe, hheld]
    rfl
  | dispatchWritable _ hheld => 
    refine refines_none rfl rfl ?_
    simp only [pipe, hheld]
    rfl
  | takeWake _ | read _ _ | onsignal _ _ _ => exact refines_none rfl rfl rfl
  | openUv _ _ => exact refines_openUv _ _
  | write _ _ _ _ => exact refines_send hsound _ _ _ _ rfl rfl _ _
  | final _ _ _ _ => exact refines_advance .ended rfl rfl rfl _
  | retryNone _ _ hnone => 
    refine refines_none ?_ rfl rfl
    simp only [pipeCall, hnone, Option.map_none]
  | retry _ _ hparked =>
    refine refines_send hsound _ _ _ _ ?_ ?_ _ _
    · simp only [pipeCall, hparked, Option.map_some]
    · simp only [pipeAnswer, hparked]
  | drain _ hturn hnext => exact refines_drain hsound hturn hnext
  | exit _ _ => exact refines_advance .closed rfl rfl rfl _
  | abandon _ _ => exact refines_advance .closed rfl rfl rfl _
  | destroy _ => exact refines_none rfl rfl rfl

end Wire

end BareKit
