import VirtualCaptureStream.Lib.Transition
import VirtualCaptureStream.MediaSample

/- CVirtualStreamSinkInputPin with everything that runs on it: the streaming and
   application threads (Receive, Reset, BeginFlush, NotifyAllocator, BreakConnect,
   EndOfStream), the writer thread, the listener thread, and the clients of the
   data pipe. A thread is where it is in its function; one action of the system is
   one step of one thread, up to its next call that another thread can see.

   Correspondence (C++ ↔ Lean):
     `Receive`, `CBaseInputPin::Receive`   ↔ `receive`, `baseReceive`
     `InstanceWritePipeThread`             ↔ `WriterPc`, `writerStep`
     `InstanceThread`                      ↔ `ListenerPc`, `listenerStep`
     `StopServer`                          ↔ `StopPc`, `stopStep`
     `BreakConnect`, up to its wait        ↔ `breakConnect`; its wait ↔ `breakWait`
     the pin lock `m_pinLock`              ↔ `lock`, when it is held over steps

   `std::queue::empty()` only tests a queue, so Reset and BreakConnect leave
   `m_writeBuffer` as it is; BeginFlush does not mention it. -/
namespace VirtualCaptureStream

/-- A captured sample in the write buffer; `id` counts the calls of Receive. -/
structure Queued where
  id : Nat
  sample : MediaSampleX

/-- `m_hThread2`: the constructor leaves it as the heap had it. -/
inductive ThreadHandle where
  | null
  | garbage
  | thread
  deriving DecidableEq

/-- The members of the pin and of its base class that streaming uses. -/
structure SinkInputPin where
  allocProperties : AllocatorProperties
  hPipe : HANDLE
  pipeBufferSize : UInt32
  hThread2 : ThreadHandle
  bConnected : Bool
  rtRefPoint : Int64
  rtRefPoint2 : Int64
  writeBuffer : List Queued
  bWriteBuffering : Bool
  bPipeServerRunning : Bool
  bFlushing : Bool
  bRunTimeError : Bool

/-- "No reference point yet". -/
def noRefPoint : Int64 := -999999999

namespace SinkInputPin

/-- The constructor; `m_hThread2` and `m_rtRefPoint2` are not initialised. -/
def new (hThread2 : ThreadHandle) (rtRefPoint2 : Int64) : SinkInputPin where
  allocProperties := ⟨0, 0, 0, 0⟩
  hPipe := .null
  pipeBufferSize := 0
  hThread2 := hThread2
  bConnected := false
  rtRefPoint := noRefPoint
  rtRefPoint2 := rtRefPoint2
  writeBuffer := []
  bWriteBuffering := false
  bPipeServerRunning := false
  bFlushing := false
  bRunTimeError := false

/-! Receive. -/

def checkMediaType (majortype : GUID) : HRESULT :=
  if majortype = MEDIATYPE_Video ∨ majortype = MEDIATYPE_Audio ∨
    majortype = MEDIATYPE_AUXLine21Data then S_OK else E_INVALIDARG

def checkStreaming (stopped : Bool) (p : SinkInputPin) : HRESULT :=
  if stopped then VFW_E_WRONG_STATE
  else if p.bFlushing then S_FALSE
  else if p.bRunTimeError then VFW_E_RUNTIME_ERROR
  else S_OK

/-- What a call of Receive meets: the heap, whether the filter is stopped, the
    result of the sample's GetProperties, and whether CreateThread succeeds. -/
structure ReceiveEnv where
  capture : CaptureEnv
  stopped : Bool
  getProperties : HRESULT
  thread : Bool

/-- The result of the base class's Receive, and whether it calls EndOfStream: the
    sample changes the format to one the pin does not accept. -/
def baseReceive (env : ReceiveEnv) (s : MediaSample) (p : SinkInputPin) : HRESULT × Bool :=
  let hr := checkStreaming env.stopped p
  if hr ≠ S_OK then (hr, false)
  else if failed env.getProperties then (env.getProperties, false)
  else match s.mediaType with
    | none => (S_OK, false)
    | some mt =>
      if checkMediaType mt.amt.majortype = S_OK then (S_OK, false)
      else (VFW_E_INVALIDMEDIATYPE, true)

theorem baseReceive_same_format {env : ReceiveEnv} {s : MediaSample} {p : SinkInputPin}
    (h : s.mediaType = none) : (baseReceive env s p).2 = false := by
  unfold baseReceive
  rw [h]
  dsimp only
  repeat' split
  all_goals rfl

/-- What Receive returns and leaves behind: the pin, whether it has started the
    writer thread, and whether EndOfStream was called. -/
structure Received where
  hr : HRESULT
  pin : SinkInputPin
  startWriter : Bool
  endOfStream : Bool

/-- CreateWriteBufferThread. -/
def createWriteBufferThread (thread : Bool) (p : SinkInputPin) : SinkInputPin :=
  { p with bWriteBuffering := true, hThread2 := if thread then .thread else .null }

/-- Receive. The sample is captured and queued before the base class is asked. -/
def receive (env : ReceiveEnv) (id : Nat) (s : MediaSample) (p : SinkInputPin) : Received :=
  let started := !p.bWriteBuffering
  let p := if started then p.createWriteBufferThread env.thread else p
  let p := { p with writeBuffer := p.writeBuffer ++ [⟨id, MediaSampleX.new env.capture s⟩] }
  let base := baseReceive env s p
  { hr := if failed base.1 then base.1 else S_OK
    pin := if base.2 then { p with bRunTimeError := true } else p
    startWriter := started && env.thread
    endOfStream := base.2 }

section
variable (env : ReceiveEnv) (id : Nat) (s : MediaSample) (p : SinkInputPin)

/-- Whatever the base class answers, the sample is queued. -/
@[simp] theorem receive_writeBuffer : (p.receive env id s).pin.writeBuffer =
    p.writeBuffer ++ [⟨id, MediaSampleX.new env.capture s⟩] := by
  simp only [receive, createWriteBufferThread]
  repeat' split
  all_goals rfl

@[simp] theorem receive_bWriteBuffering : (p.receive env id s).pin.bWriteBuffering = true := by
  cases h : p.bWriteBuffering <;> simp only [receive, createWriteBufferThread, h] <;>
    (repeat' split) <;> simp_all

@[simp] theorem receive_startWriter :
    (p.receive env id s).startWriter = (!p.bWriteBuffering && env.thread) := rfl

@[simp] theorem receive_hThread2 : (p.receive env id s).pin.hThread2 =
    if p.bWriteBuffering then p.hThread2 else if env.thread then .thread else .null := by
  cases h : p.bWriteBuffering <;> simp only [receive, createWriteBufferThread, h] <;>
    (repeat' split) <;> simp_all

@[simp] theorem receive_rtRefPoint : (p.receive env id s).pin.rtRefPoint = p.rtRefPoint ∧
    (p.receive env id s).pin.rtRefPoint2 = p.rtRefPoint2 := by
  simp only [receive, createWriteBufferThread]
  repeat' split
  all_goals exact ⟨rfl, rfl⟩

@[simp] theorem receive_hPipe : (p.receive env id s).pin.hPipe = p.hPipe := by
  simp only [receive, createWriteBufferThread]
  repeat' split
  all_goals rfl

@[simp] theorem receive_bConnected : (p.receive env id s).pin.bConnected = p.bConnected := by
  simp only [receive, createWriteBufferThread]
  repeat' split
  all_goals rfl

end

/-! The other calls that hold the pin lock for themselves. -/

/-- Reset. -/
def reset (p : SinkInputPin) : SinkInputPin := { p with rtRefPoint := noRefPoint }

def beginFlush (p : SinkInputPin) : SinkInputPin := { p with bFlushing := true }

def endFlush (p : SinkInputPin) : SinkInputPin :=
  { p with bFlushing := false, bRunTimeError := false }

/-- The in and out buffer size NotifyAllocator asks CreateNamedPipe for. -/
def pipeSize (a : AllocatorProperties) : UInt32 := (a.cbBuffer * (a.cBuffers * 10)).toUInt32

end SinkInputPin

/-! The threads. -/

/-- Where the writer thread is. `latching`: `m_rtRefPoint` has been set, and
    `m_rtRefPoint2` has not; `header`: `m_bConnected` was set and the header is built;
    `payload`: the header was written, to the client `sentTo` if one took it. -/
inductive WriterPc where
  | outer
  | inner
  | next
  | taken (x : Queued)
  | latching (x : Queued)
  | latched (x : Queued)
  | header (x : Queued) (p : Packet)
  | payload (x : Queued) (p : Packet) (sentTo : Option Nat)
  | sleeping

/-- Where the listener thread is. -/
inductive ListenerPc where
  | start
  | test
  | connect
  | waiting
  | check
  | sleeping
  deriving DecidableEq

/-- Where a call of StopServer is. -/
inductive StopPc where
  | openPipe
  | closeClient (client : Nat)
  | waitListener
  | disconnect
  | closeHandle
  | clear
  deriving DecidableEq

/-- Who holds the pin lock over several steps: a BreakConnect that waits for the
    writer, or a Receive inside StopServer. -/
inductive LockOwner where
  | breakConnect
  | receive
  deriving DecidableEq

/-- The states of a pipe instance. -/
inductive PipeState where
  | listening
  | connected (client : Nat)
  | closing
  | disconnected
  deriving DecidableEq

/-- A message, with the sample it belongs to. -/
abbrev Sent := Framing.Part (Nat × Packet)

/-- A message reaches the client that is attached, if there is one. -/
def deliver (client : Option Nat) (m : Sent) (logs : List (List Sent)) : List (List Sent) :=
  match client with
  | some c => logs.modify c (· ++ [m])
  | none => logs

/-- The pin, the pipe instance behind `m_hPipe` (none once it is closed), what each
    client has been sent (clients are numbered as they attach), the lock and the
    threads. `cut`: the clients whose last header lost its payload because the
    writer was terminated. -/
structure SinkSystem where
  pin : SinkInputPin
  instances : Nat
  pipe : Option PipeState
  logs : List (List Sent)
  lock : Option LockOwner
  writer : Option WriterPc
  listener : Option ListenerPc
  stopper : Option StopPc
  received : Nat
  cut : List Nat

namespace SinkSystem

/-- A new pin. -/
def new (hThread2 : ThreadHandle) (rtRefPoint2 : Int64) : SinkSystem where
  pin := SinkInputPin.new hThread2 rtRefPoint2
  instances := 0
  pipe := none
  logs := []
  lock := none
  writer := none
  listener := none
  stopper := none
  received := 0
  cut := []

/-- The client that is attached to the pipe. -/
def client (s : SinkSystem) : Option Nat :=
  match s.pipe with
  | some (.connected c) => some c
  | _ => none

/-- A client opens the pipe. -/
def attach (s : SinkSystem) : SinkSystem :=
  { s with pipe := some (.connected s.logs.length), logs := s.logs ++ [[]] }

/-- WriteFile. -/
def write (s : SinkSystem) (m : Sent) : SinkSystem := { s with logs := deliver s.client m s.logs }

/-- One step of the writer thread. -/
def writerStep (s : SinkSystem) : WriterPc → Option SinkSystem
  | .outer =>
    if s.pin.bWriteBuffering then some { s with writer := some .inner }
    else some { s with writer := none }
  | .inner =>
    if s.pin.bWriteBuffering then some { s with writer := some .next }
    else some { s with writer := some .sleeping }
  | .next =>
    -- GetNextWriteBufferSample takes the pin lock
    if s.lock = none then
      match s.pin.writeBuffer with
      | [] => some { s with writer := some .sleeping }
      | x :: xs =>
        some { s with pin := { s.pin with writeBuffer := xs }, writer := some (.taken x) }
    else none
  | .taken x =>
    if s.pin.rtRefPoint = noRefPoint then
      some { s with
        pin := { s.pin with rtRefPoint := x.sample.timeStart }, writer := some (.latching x) }
    else some { s with writer := some (.latched x) }
  | .latching x =>
    some { s with
      pin := { s.pin with rtRefPoint2 := x.sample.mediaTimeStart }, writer := some (.latched x) }
  | .latched x =>
    -- without a connection the sample is deleted unsent
    if s.pin.bConnected then
      some { s with
        writer := some (.header x (x.sample.packet s.pin.rtRefPoint s.pin.rtRefPoint2)) }
    else some { s with writer := some .inner }
  | .header x p =>
    -- the result of the WriteFile is not looked at
    some { s.write (.head (x.id, p)) with
      writer := some (if p.hasPayload then .payload x p s.client else .inner) }
  | .payload x p _ => some { s.write (.body (x.id, p)) with writer := some .inner }
  | .sleeping => some { s with writer := some .outer }

/-- What a step of the writer writes. -/
theorem writerStep_writes {s t : SinkSystem} {pc : WriterPc} (h : s.writerStep pc = some t) :
    ∃ rtRefPoint rtRefPoint2 writeBuffer logs writer, t = { s with
      pin := { s.pin with
        rtRefPoint := rtRefPoint, rtRefPoint2 := rtRefPoint2, writeBuffer := writeBuffer }
      logs := logs
      writer := writer } := by
  cases pc with
  | next =>
    simp only [writerStep, Option.ite_none_right_eq_some] at h
    obtain ⟨_, h⟩ := h
    split at h <;> obtain rfl := Option.some.inj h <;> exact ⟨_, _, _, _, _, rfl⟩
  | outer | inner | taken | latched =>
    simp only [writerStep] at h
    split at h <;> obtain rfl := Option.some.inj h <;> exact ⟨_, _, _, _, _, rfl⟩
  | latching | header | payload | sleeping =>
    obtain rfl := Option.some.inj h
    exact ⟨_, _, _, _, _, rfl⟩

/-- One step of the listener thread. ConnectNamedPipe waits while nobody has opened
    the pipe; it fails on a pipe whose client has closed it. -/
def listenerStep (s : SinkSystem) : ListenerPc → Option SinkSystem
  | .start =>
    some { s with pin := { s.pin with bPipeServerRunning := true }, listener := some .test }
  | .test =>
    if s.pin.bPipeServerRunning && s.pin.hPipe != .null then
      some { s with listener := some .connect }
    else some { s with pin := { s.pin with bPipeServerRunning := false }, listener := none }
  | .connect =>
    match s.pipe with
    | some .listening => some { s with listener := some .waiting }
    | some .disconnected =>
      some { s with pipe := some .listening, listener := some .waiting }
    | some (.connected _) =>
      some { s with pin := { s.pin with bConnected := true }, listener := some .check }
    | some .closing | none =>
      some { s with pin := { s.pin with bConnected := false }, listener := some .check }
  | .waiting =>
    match s.pipe with
    | some .listening => none
    | some (.connected _) | some .closing =>
      some { s with pin := { s.pin with bConnected := true }, listener := some .check }
    | some .disconnected | none =>
      some { s with pin := { s.pin with bConnected := false }, listener := some .check }
  | .check =>
    if s.pin.bPipeServerRunning && !s.pin.bConnected && s.pin.hPipe != .null then
      some { s with pipe := s.pipe.map fun _ => .disconnected, listener := some .sleeping }
    else some { s with listener := some .sleeping }
  | .sleeping => some { s with listener := some .test }

/-- What a step of the listener writes. -/
theorem listenerStep_writes {s t : SinkSystem} {pc : ListenerPc} (h : s.listenerStep pc = some t) :
    ∃ bPipeServerRunning bConnected pipe listener, t = { s with
      pin := { s.pin with bPipeServerRunning := bPipeServerRunning, bConnected := bConnected }
      pipe := pipe
      listener := listener } := by
  cases pc with
  | waiting =>
    simp only [listenerStep] at h
    split at h
    · cases h
    all_goals
      obtain rfl := Option.some.inj h
      exact ⟨_, _, _, _, rfl⟩
  | start | sleeping =>
    obtain rfl := Option.some.inj h
    exact ⟨_, _, _, _, rfl⟩
  | test | connect | check =>
    simp only [listenerStep] at h
    split at h
    all_goals
      obtain rfl := Option.some.inj h
      exact ⟨_, _, _, _, rfl⟩

/-- One step of StopServer: open the pipe as a client, close it again, wait for the
    listener (and terminate it after ten seconds), disconnect and close the pipe. -/
def stopStep (s : SinkSystem) (timeout : Bool) : StopPc → Option SinkSystem
  | .openPipe =>
    if s.pipe = some .listening then
      some { s.attach with stopper := some (.closeClient s.logs.length) }
    else some { s with stopper := some .waitListener }
  | .closeClient c =>
    some { s with
      pipe := if s.pipe = some (.connected c) then some .closing else s.pipe
      stopper := some .waitListener }
  | .waitListener =>
    if s.listener = none then some { s with stopper := some .disconnect }
    -- TerminateThread
    else if timeout then some { s with listener := none, stopper := some .disconnect }
    else none
  | .disconnect =>
    some { s with pipe := s.pipe.map fun _ => .disconnected, stopper := some .closeHandle }
  | .closeHandle => some { s with pipe := none, stopper := some .clear }
  | .clear =>
    some { s with
      pin := { s.pin with hPipe := .null }
      stopper := none
      lock := if s.lock = some .receive then none else s.lock }

/-- What a step of StopServer writes; a lock of BreakConnect it does not touch. -/
theorem stopStep_writes {s t : SinkSystem} {timeout : Bool} {pc : StopPc}
    (h : s.stopStep timeout pc = some t) :
    ∃ hPipe pipe logs listener stopper lock,
      t = { s with
        pin := { s.pin with hPipe := hPipe }
        pipe := pipe
        logs := logs
        listener := listener
        stopper := stopper
        lock := lock } ∧
      (lock = some .breakConnect ↔ s.lock = some .breakConnect) := by
  cases pc with
  | openPipe =>
    simp only [stopStep] at h
    split at h <;> obtain rfl := Option.some.inj h <;> exact ⟨_, _, _, _, _, _, rfl, Iff.rfl⟩
  | waitListener =>
    simp only [stopStep] at h
    split at h
    · obtain rfl := Option.some.inj h
      exact ⟨_, _, _, _, _, _, rfl, Iff.rfl⟩
    · rw [Option.ite_none_right_eq_some] at h
      obtain rfl := Option.some.inj h.2
      exact ⟨_, _, _, _, _, _, rfl, Iff.rfl⟩
  | closeClient | disconnect | closeHandle =>
    obtain rfl := Option.some.inj h
    exact ⟨_, _, _, _, _, _, rfl, Iff.rfl⟩
  | clear =>
    obtain rfl := Option.some.inj h
    refine ⟨_, _, _, _, _, _, rfl, ?_⟩
    by_cases hr : s.lock = some .receive <;> simp [hr]

/-- `if (m_hPipe != NULL) StopServer();` One call is in progress at a time. -/
def endOfStream (s : SinkSystem) : Option SinkSystem :=
  if s.pin.hPipe = .null then some s
  else if s.stopper = none then
    some { s with pin := { s.pin with bPipeServerRunning := false }, stopper := some .openPipe }
  else none

theorem endOfStream_cases {s t : SinkSystem} (h : s.endOfStream = some t) :
    t = s ∨ (s.stopper = none ∧ t =
      { s with pin := { s.pin with bPipeServerRunning := false }, stopper := some .openPipe }) := by
  unfold endOfStream at h
  split at h
  · exact Or.inl (Option.some.inj h).symm
  · rw [Option.ite_none_right_eq_some] at h
    exact Or.inr ⟨h.1, (Option.some.inj h.2).symm⟩

/-- The terminated writer leaves its sample, and the client that took the header of
    it waits for the payload. -/
def terminateWriter (s : SinkSystem) : SinkSystem :=
  match s.writer with
  | some (.payload _ _ (some c)) => { s with writer := none, cut := c :: s.cut }
  | _ => { s with writer := none }

/-- What TerminateThread writes. -/
theorem terminateWriter_writes (s : SinkSystem) :
    ∃ cut, s.terminateWriter = { s with writer := none, cut := cut } := by
  unfold terminateWriter
  split <;> exact ⟨_, rfl⟩

@[simp] theorem terminateWriter_pin (s : SinkSystem) : s.terminateWriter.pin = s.pin := by
  obtain ⟨cut, hcut⟩ := terminateWriter_writes s
  rw [hcut]

@[simp] theorem terminateWriter_writer (s : SinkSystem) : s.terminateWriter.writer = none := by
  obtain ⟨cut, hcut⟩ := terminateWriter_writes s
  rw [hcut]

inductive SinkAction where
  | receive (env : SinkInputPin.ReceiveEnv) (sample : MediaSample)
  | reset
  | beginFlush
  | endFlush
  | endOfStream
  | notifyAllocator (allocProperties : AllocatorProperties) (created thread : Bool)
  | breakConnect
  | breakWait (timeout : Bool)
  | stopServer (timeout : Bool)
  | writer
  | listener
  | clientOpen
  | clientClose

/-- Receive, as far as EndOfStream; the rest of that runs with the lock held. -/
def receiveStep (s : SinkSystem) (env : SinkInputPin.ReceiveEnv) (sample : MediaSample) :
    Option SinkSystem :=
  let r := s.pin.receive env s.received sample
  let t := { s with
    pin := r.pin
    received := s.received + 1
    writer := if r.startWriter then some .outer else s.writer }
  if r.endOfStream then
    if t.pin.hPipe = .null then some t
    else t.endOfStream.map fun u => { u with lock := some .receive }
  else some t

/-- A Receive step leaves the state after the capture, possibly inside StopServer. -/
theorem receiveStep_cases {s t : SinkSystem} {env : SinkInputPin.ReceiveEnv} {sample : MediaSample}
    (h : s.receiveStep env sample = some t) :
    ∃ u, u = { s with
        pin := (s.pin.receive env s.received sample).pin
        received := s.received + 1
        writer := if (s.pin.receive env s.received sample).startWriter then some .outer
          else s.writer } ∧
      (t = u ∨ t = { u with
        pin := { u.pin with bPipeServerRunning := false }
        stopper := some .openPipe
        lock := some .receive }) := by
  refine ⟨_, rfl, ?_⟩
  unfold receiveStep at h
  dsimp only at h
  cases heos : (s.pin.receive env s.received sample).endOfStream
  · rw [heos, if_neg Bool.false_ne_true] at h
    exact Or.inl (Option.some.inj h).symm
  · rw [heos, if_pos rfl] at h
    by_cases hp : (s.pin.receive env s.received sample).pin.hPipe = .null
    · rw [if_pos hp] at h
      exact Or.inl (Option.some.inj h).symm
    · rw [if_neg hp, Option.map_eq_some_iff] at h
      obtain ⟨u, hu, rfl⟩ := h
      rw [endOfStream, if_neg hp, Option.ite_none_right_eq_some] at hu
      obtain rfl := Option.some.inj hu.2
      exact Or.inr rfl

/-- A sample that does not change the format does not end the stream. -/
theorem receiveStep_same_format {s : SinkSystem} {env : SinkInputPin.ReceiveEnv}
    {sample : MediaSample} (h : sample.mediaType = none) :
    s.receiveStep env sample = some { s with
      pin := (s.pin.receive env s.received sample).pin
      received := s.received + 1
      writer := if (s.pin.receive env s.received sample).startWriter then some .outer
        else s.writer } := by
  have hno : (s.pin.receive env s.received sample).endOfStream = false :=
    SinkInputPin.baseReceive_same_format h
  rw [receiveStep, hno, if_neg Bool.false_ne_true]

/-- NotifyAllocator. The pipe is created once; `created` and `thread` say whether
    CreateNamedPipe and CreateThread succeed. -/
def notifyAllocatorStep (s : SinkSystem) (a : AllocatorProperties) (created thread : Bool) :
    SinkSystem :=
  if s.pin.hPipe = .null then
    { s with
      pin := { s.pin with
        allocProperties := a
        hPipe := if created then .handle s.instances else .invalid
        pipeBufferSize := SinkInputPin.pipeSize a }
      instances := s.instances + 1
      pipe := if created then some .listening else none
      listener := if thread then some .start else s.listener }
  else { s with pin := { s.pin with allocProperties := a } }

/-- One step of the system. -/
def step (s : SinkSystem) : SinkAction → Option SinkSystem
  | .receive env sample => if s.lock = none then s.receiveStep env sample else none
  | .reset => if s.lock = none then some { s with pin := s.pin.reset } else none
  | .beginFlush => if s.lock = none then some { s with pin := s.pin.beginFlush } else none
  | .endFlush => if s.lock = none then some { s with pin := s.pin.endFlush } else none
  | .endOfStream => s.endOfStream
  | .notifyAllocator a created thread =>
    if s.lock = none then some (s.notifyAllocatorStep a created thread) else none
  | .breakConnect =>
    if s.lock = none then
      if s.pin.hThread2 = .null then some s
      else some { s with
        pin := { s.pin with bWriteBuffering := false }, lock := some .breakConnect }
    else none
  | .breakWait timeout =>
    if s.lock = some .breakConnect ∧ (s.writer.isNone ∨ timeout = true) then
      some { s.terminateWriter with
        pin := { s.pin with hThread2 := .null }, lock := none }
    else none
  | .stopServer timeout => s.stopper.bind (s.stopStep timeout)
  | .writer => s.writer.bind s.writerStep
  | .listener => s.listener.bind s.listenerStep
  | .clientOpen => if s.pipe = some .listening then some s.attach else none
  | .clientClose => s.client.map fun _ => { s with pipe := some .closing }

/-- A Receive call on a streaming filter, with every call it makes succeeding. -/
def streaming : SinkInputPin.ReceiveEnv := ⟨clearedHeap, false, S_OK, true⟩

/-- The pipe is created, the listener waits, a client opens the pipe, and the
    listener sees it. -/
def connectClient : List SinkAction :=
  [.notifyAllocator ⟨1, 1, 1, 0⟩ true true, .listener, .listener, .listener, .clientOpen, .listener]

end SinkSystem

end VirtualCaptureStream
