import VirtualCaptureStream.SinkCore
import VirtualCaptureStream.SourceFillBuffer

/- A sink pin and a source pin, joined by the data pipe. The source pin is one of
   the clients of the sink pin's pipe: what the writer sends while it is attached
   waits in `unread` until FillBuffer reads it. FillBuffer is two steps, one up to
   the payload read and one for that read, so that anything may happen between
   them; `fill_header_payload` says that the two make up `fillConnected`.

   Correspondence (C++ ↔ Lean):
     CreateOutputPins makes the pin from the sink's record  ↔ `discover`
     the allocator of the pin's connection, DecideBufferSize ↔ `decideBufferSize`
     FillBuffer's DisconnectPipe, ConnectToSinkPin           ↔ the steps of those names
     FillBuffer from the header read on                      ↔ `fillHeader`, `fillPayload`
     ReadFile waits while the pipe is open and empty         ↔ `blocked` -/
namespace VirtualCaptureStream

/-- The bytes of a message. -/
def Sent.message : Sent → Msg
  | .head m => Packet.message (.head m.2)
  | .body m => Packet.message (.body m.2)

/-- A FillBuffer call about to make its payload read of `n` bytes; it will return
    `hr`. -/
structure Filling where
  sample : MediaSample
  n : Nat
  hr : HRESULT
  getPointer : Bool

/-- `client`: the source's number among the clients while its handle is open.
    `bufferSize`: the size of the samples of the allocator that DecideBufferSize
    accepted. `received`: the samples Receive was called with. `filled`: the samples
    of the FillBuffer calls that read from the pipe and returned S_OK. -/
structure Link where
  sink : SinkSystem
  pin : SourceOutputPin
  client : Option Nat
  unread : List (Sent × Msg)
  bufferSize : Option Nat
  filling : Option Filling
  received : List MediaSample
  filled : List MediaSample

namespace Link

open SinkSystem (SinkAction)
open SourceOutputPin (SetterResults afterHeader connectToSinkPin readTagged fillConnected
  payloadRead fillConnected_no_header fillConnected_ret fillConnected_readPayload)

inductive LinkAction where
  | sink (a : SinkAction)
  | discover (pName : WStr) (mt : MediaType) (rtStart : Int64) (bRunning : Bool)
  | decideBufferSize (setProperties : AllocatorProperties → HRESULT × AllocatorProperties)
  | onThreadStartPlay
  | onThreadDestroy
  | reset
  | stop
  | disconnectPipe
  | connectToSinkPin (opened modeSet : Bool)
  | fillHeader (r : SetterResults) (sample : MediaSample)
  | fillPayload

/-- The source's end of the pipe is attached. -/
def Attached (s : Link) : Prop := s.client.isSome ∧ s.sink.client = s.client

instance (s : Link) : Decidable s.Attached := inferInstanceAs (Decidable (_ ∧ _))

/-- ReadFile waits for a message. -/
def blocked (s : Link) : Prop := s.unread = [] ∧ s.Attached

instance (s : Link) : Decidable s.blocked := inferInstanceAs (Decidable (_ ∧ _))

/-- The messages a client has got since its log was `old`. -/
def arrived (client : Option Nat) (old new : List (List Sent)) : List Sent :=
  match client with
  | some c => (new[c]?.getD []).drop (old[c]?.getD []).length
  | none => []

theorem arrived_append {c : Nat} {old new : List (List Sent)} {log more : List Sent}
    (hold : old[c]? = some log) (hnew : new[c]? = some (log ++ more)) :
    arrived (some c) old new = more := by
  simp only [arrived, hold, hnew, Option.getD_some, List.drop_left]

/-- What there is to read after a step of the sink: DisconnectNamedPipe discards
    what was not read. -/
def unreadAfter (s : Link) (t : SinkSystem) : List (Sent × Msg) :=
  if t.pipe = some .disconnected then []
  else s.unread ++ (arrived s.client s.sink.logs t.logs).map fun m => (m, m.message)

/-- The samples Receive was called with, after a step of the sink. -/
def receivedAfter (s : Link) : SinkAction → List MediaSample
  | .receive _ sample => s.received ++ [sample]
  | _ => s.received

/-- A step of the sink and its other clients; the source's end is only closed by the
    source. -/
def sinkStep (s : Link) (a : SinkAction) : Option Link :=
  match a, decide s.Attached with
  | .clientClose, true => none
  | _, _ => (s.sink.step a).map fun t =>
    { s with sink := t, unread := s.unreadAfter t, received := s.receivedAfter a }

theorem sinkStep_cases {s t : Link} {a : SinkAction} (h : s.sinkStep a = some t) :
    (a = .clientClose → ¬ s.Attached) ∧ ∃ u, s.sink.step a = some u ∧
      t = { s with sink := u, unread := s.unreadAfter u, received := s.receivedAfter a } := by
  unfold sinkStep at h
  split at h
  · cases h
  · rename_i hno
    obtain ⟨u, hu, rfl⟩ := Option.map_eq_some_iff.mp h
    exact ⟨fun ha hatt => hno ha (decide_eq_true hatt), u, hu, rfl⟩

/-- The source closes its handle. -/
def detach (s : Link) : Link :=
  { s with
    sink := if s.Attached then { s.sink with pipe := some .closing } else s.sink
    client := none
    unread := [] }

/-- ConnectToSinkPin; its CreateFile succeeds on a pipe that waits for a client. -/
def connectStep (s : Link) (opened modeSet : Bool) : Option Link :=
  if opened then
    if s.sink.pipe = some .listening then
      (connectToSinkPin ⟨[.opened s.sink.logs.length], modeSet⟩ s.pin []).map fun c =>
        { s with
          sink := s.sink.attach, pin := c.2.1, client := some s.sink.logs.length, unread := [] }
    else none
  else (connectToSinkPin ⟨[.error], modeSet⟩ s.pin []).map fun c =>
    { s.detach with pin := c.2.1 }

/-- FillBuffer returns `hr`. -/
def finish (s : Link) (hr : HRESULT) (sample : MediaSample) : Link :=
  { s with filling := none, filled := if hr = S_OK then s.filled ++ [sample] else s.filled }

/-- FillBuffer on a running, connected pin up to the payload read. -/
def fillHeader (s : Link) (r : SetterResults) (sample : MediaSample) : Option Link :=
  if s.blocked then none
  else
    let header := readTagged sizeofMediaSampleInfo s.unread
    if header.1.fSuccess = false then some ({ s with unread := header.2 }.finish S_OK sample)
    else
      let a := afterHeader s.pin sample r (MediaSampleInfo.codec.dec header.1.bytes)
      let s := { s with pin := a.pin, unread := header.2 }
      match a.next with
      | .ret hr => some (s.finish hr a.sample)
      | .readPayload n hr => some { s with filling := some ⟨a.sample, n, hr, r.getPointer⟩ }

/-- The payload read. -/
def fillPayload (s : Link) (f : Filling) : Option Link :=
  if f.getPointer then
    if s.blocked then none
    else
      let payload := readTagged f.n s.unread
      some ({ s with unread := payload.2 }.finish f.hr (f.sample.store payload.1.bytes))
  else some (s.finish f.hr (f.sample.store ReadResult.broken.bytes))

/-- One step of the two processes. Between its header and its payload FillBuffer
    holds the streaming thread; the samples it fills come from the allocator. -/
def step (s : Link) : LinkAction → Option Link
  | .sink a => s.sinkStep a
  | .discover pName mt rtStart bRunning =>
    if s.filling = none then
      some { s.detach with
        pin := SourceOutputPin.new pName mt s.sink.pin.allocProperties rtStart bRunning
        bufferSize := none }
    else none
  | .decideBufferSize setProperties =>
    if s.filling = none ∧ s.pin.decideBufferSize setProperties = S_OK then
      some { s with
        bufferSize := some (setProperties s.pin.allocProperties).2.cbBuffer.toNatClampNeg }
    else none
  | .onThreadStartPlay => if s.filling = none then some { s with pin := s.pin.onThreadStartPlay }
    else none
  | .onThreadDestroy => if s.filling = none then some { s with pin := s.pin.onThreadDestroy }
    else none
  | .reset => some { s with pin := s.pin.reset }
  | .stop => some { s with pin := s.pin.stop }
  | .disconnectPipe =>
    if s.filling = none then
      some { s.detach with pin := (SourceOutputPin.disconnectPipe s.pin []).1 }
    else none
  | .connectToSinkPin opened modeSet =>
    if s.filling = none then s.connectStep opened modeSet else none
  | .fillHeader r sample =>
    if s.filling = none ∧ s.pin.bRunning = true ∧ s.pin.bConnected = true ∧
      s.bufferSize = some sample.getSize then s.fillHeader r sample
    else none
  | .fillPayload => s.filling.bind s.fillPayload

/-- Both pins as they are constructed; the source has not discovered its pin yet. -/
def new (hThread2 : ThreadHandle) (rtRefPoint2 : Int64) : Link where
  sink := SinkSystem.new hThread2 rtRefPoint2
  pin := SourceOutputPin.new [] bareVideo ⟨0, 0, 0, 0⟩ 0 false
  client := none
  unread := []
  bufferSize := none
  filling := none
  received := []
  filled := []

/-! The two steps of FillBuffer are the function of the source. -/

/-- A header step that ends the call leaves what `fillConnected` leaves. -/
theorem fillHeader_eq_fillConnected {s t : Link} {r : SetterResults} {sample : MediaSample}
    (h : s.fillHeader r sample = some t) (hend : t.filling = none) (calls : List OsCall) :
    t = ({ s with
      pin := (fillConnected readTagged r s.pin calls sample s.unread).pin
      unread := (fillConnected readTagged r s.pin calls sample s.unread).world }.finish
        (fillConnected readTagged r s.pin calls sample s.unread).hr
        (fillConnected readTagged r s.pin calls sample s.unread).sample) := by
  rw [fillHeader, Option.ite_none_left_eq_some] at h
  obtain ⟨_, h⟩ := h
  dsimp only at h
  split at h
  · rename_i hs
    obtain rfl := Option.some.inj h
    rw [fillConnected_no_header hs]
  · rename_i hs
    rw [Bool.not_eq_false] at hs
    split at h
    · rename_i hr hnext
      obtain rfl := Option.some.inj h
      rw [fillConnected_ret hs hnext]
      rfl
    · obtain rfl := Option.some.inj h
      cases hend

/-- A header step followed by its payload step, with nothing read or sent in
    between, leaves what `fillConnected` leaves. -/
theorem fill_header_payload {s t u : Link} {r : SetterResults} {sample : MediaSample} {f : Filling}
    (h : s.fillHeader r sample = some t) (hf : t.filling = some f)
    (hu : t.fillPayload f = some u) (calls : List OsCall) :
    u = ({ s with
      pin := (fillConnected readTagged r s.pin calls sample s.unread).pin
      unread := (fillConnected readTagged r s.pin calls sample s.unread).world }.finish
        (fillConnected readTagged r s.pin calls sample s.unread).hr
        (fillConnected readTagged r s.pin calls sample s.unread).sample) := by
  rw [fillHeader, Option.ite_none_left_eq_some] at h
  obtain ⟨_, h⟩ := h
  dsimp only at h
  split at h
  · obtain rfl := Option.some.inj h
    cases hf
  · rename_i hok
    rw [Bool.not_eq_false] at hok
    split at h
    · obtain rfl := Option.some.inj h
      cases hf
    · rename_i n hr hnext
      obtain rfl := Option.some.inj h
      obtain rfl := Option.some.inj hf
      rw [fillConnected_readPayload hok hnext]
      unfold fillPayload at hu
      dsimp only at hu
      split at hu
      · rename_i hptr
        rw [Option.ite_none_left_eq_some] at hu
        obtain rfl := Option.some.inj hu.2
        simp only [payloadRead, hptr, if_true]
        rfl
      · rename_i hptr
        obtain rfl := Option.some.inj hu
        simp only [payloadRead, hptr]
        rfl

/-- The sink's pipe is created and waits; the source discovers its pin, starts and
    opens the pipe, and the listener sees it. -/
def connectSource : List LinkAction :=
  [.sink (.notifyAllocator ⟨1, 1, 1, 0⟩ true true), .sink .listener, .sink .listener,
    .sink .listener, .discover [] bareVideo 0 false, .decideBufferSize fun a => (S_OK, a),
    .onThreadStartPlay, .connectToSinkPin true true, .sink .listener]

/-- A sample with data goes all the way. -/
def send (o : MediaSample) : List LinkAction :=
  [.sink (.receive SinkSystem.streaming o), .sink .writer, .sink .writer, .sink .writer,
    .sink .writer, .sink .writer, .sink .writer, .sink .writer, .fillHeader .allOk byteSample,
    .sink .writer, .fillPayload]

end Link

end VirtualCaptureStream
