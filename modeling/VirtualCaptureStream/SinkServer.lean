import VirtualCaptureStream.SinkInputPin

/- CVirtualStreamSink's discovery server: the thread that waits for a client on the
   discovery pipe and sends it the list of the pins, the calls that create and stop
   it, and the clients. As with the pins, the thread is where it is in its function
   and one action is one step of one party.

   Correspondence (C++ ↔ Lean):
     `InitializePipe`, `StopServer`         ↔ `initializePipe`, `stopServer`; in progress `call`
     its CreateNamedPipe and CreateThread   ↔ `createPipe`
     `InstanceThread`, `PipeOutMediaTypes`  ↔ `ServerPc`, `threadStep`
     `m_pinList`                            ↔ `pinList`, the pins as the objects they are

   What PipeOutMediaTypes writes is in PinDescriptor; here a record is the time in
   which the thread reads the pin. One call of InitializePipe or StopServer is in
   progress at a time. -/
namespace VirtualCaptureStream

/-- Where the server thread is. `walk`: before the test of PipeOutMediaTypes' loop;
    `record`: with the pin it has taken out of `m_pinList`; `finish`: before the
    empty message, the flush and the disconnect; `rest`: before the Sleep. -/
inductive ServerPc where
  | start
  | test
  | connect
  | waiting
  | check
  | walk (i : Nat)
  | record (i pin : Nat)
  | finish
  | rest
  | sleeping
  deriving DecidableEq

/-- A call of StopServer; InitializePipe goes on to create a pipe, with these
    results of CreateNamedPipe and CreateThread. -/
structure ServerCall where
  pc : StopPc
  creates : Option (Bool × Bool)

/-- The members of the filter that the server uses, the pipe instance behind
    `m_hPipe`, the number of clients so far, the thread and the call in progress. -/
structure SinkServer where
  hPipe : HANDLE
  bServerRunning : Bool
  bConnected : Bool
  pinList : List Nat
  instances : Nat
  pipe : Option PipeState
  clients : Nat
  thread : Option ServerPc
  call : Option ServerCall

namespace SinkServer

/-- A new filter with these pins. -/
def new (pinList : List Nat) : SinkServer where
  hPipe := .null
  bServerRunning := false
  bConnected := false
  pinList := pinList
  instances := 0
  pipe := none
  clients := 0
  thread := none
  call := none

/-- A client opens the pipe. -/
def attach (s : SinkServer) : SinkServer :=
  { s with pipe := some (.connected s.clients), clients := s.clients + 1 }

/-- InitializePipe from CreateNamedPipe on. -/
def createPipe (s : SinkServer) (created thread : Bool) : SinkServer :=
  { s with
    hPipe := if created then .handle s.instances else .invalid
    instances := s.instances + 1
    pipe := if created then some .listening else none
    thread := if thread then some .start else s.thread }

/-- StopServer up to its CreateFile. -/
def beginStop (s : SinkServer) (creates : Option (Bool × Bool)) : SinkServer :=
  { s with bServerRunning := false, call := some ⟨.openPipe, creates⟩ }

/-- One step of the thread. ConnectNamedPipe fails on a pipe whose client has
    closed it, and nothing but DisconnectNamedPipe takes the pipe out of that state. -/
def threadStep (s : SinkServer) : ServerPc → Option SinkServer
  | .start => some { s with bServerRunning := true, bConnected := false, thread := some .test }
  | .test =>
    if s.bServerRunning then some { s with thread := some .connect }
    else some { s with bServerRunning := false, bConnected := false, thread := none }
  | .connect =>
    match s.pipe with
    | some .listening => some { s with thread := some .waiting }
    | some .disconnected => some { s with pipe := some .listening, thread := some .waiting }
    | some (.connected _) => some { s with bConnected := true, thread := some .check }
    | some .closing | none => some { s with bConnected := false, thread := some .check }
  | .waiting =>
    match s.pipe with
    | some .listening => none
    | some (.connected _) | some .closing =>
      some { s with bConnected := true, thread := some .check }
    | some .disconnected | none => some { s with bConnected := false, thread := some .check }
  | .check =>
    if s.bConnected && s.bServerRunning then some { s with thread := some (.walk 0) }
    -- unlike the pin's thread, this one does not disconnect a pipe it could not connect
    else some { s with thread := some .rest }
  | .walk i =>
    match s.pinList[i]? with
    | some pin => some { s with thread := some (.record i pin) }
    | none => some { s with thread := some .finish }
  | .record i _ => some { s with thread := some (.walk (i + 1)) }
  | .finish => some { s with pipe := s.pipe.map fun _ => .disconnected, thread := some .rest }
  | .rest =>
    if s.bServerRunning then some { s with thread := some .sleeping }
    else some { s with thread := some .test }
  | .sleeping => some { s with thread := some .test }

/-- One step of the call in progress. -/
def callStep (s : SinkServer) (timeout : Bool) (creates : Option (Bool × Bool)) :
    StopPc → Option SinkServer
  | .openPipe =>
    if s.pipe = some .listening then
      some { s.attach with call := some ⟨.closeClient s.clients, creates⟩ }
    else some { s with call := some ⟨.waitListener, creates⟩ }
  | .closeClient c =>
    some { s with
      pipe := if s.pipe = some (.connected c) then some .closing else s.pipe
      call := some ⟨.waitListener, creates⟩ }
  | .waitListener =>
    if s.thread = none then some { s with call := some ⟨.disconnect, creates⟩ }
    -- TerminateThread
    else if timeout then some { s with thread := none, call := some ⟨.disconnect, creates⟩ }
    else none
  | .disconnect =>
    some { s with
      pipe := s.pipe.map fun _ => .disconnected, call := some ⟨.closeHandle, creates⟩ }
  | .closeHandle => some { s with pipe := none, call := some ⟨.clear, creates⟩ }
  | .clear =>
    match creates with
    | none => some { s with hPipe := .null, call := none }
    | some (created, thread) =>
      some (createPipe { s with hPipe := .null, call := none } created thread)

inductive ServerAction where
  | initializePipe (created thread : Bool)
  | stopServer
  | call (timeout : Bool)
  | thread
  | clientOpen
  | clientClose
  | pins (pinList : List Nat)

/-- A client that is attached to the pipe, other than StopServer itself. -/
def client (s : SinkServer) : Option Nat :=
  match s.pipe with
  | some (.connected c) =>
    if s.call.map (·.pc) = some (.closeClient c) then none else some c
  | _ => none

/-- One step of the server, its callers or its clients; the list of the pins is
    changed by the rest of the filter. -/
def step (s : SinkServer) : ServerAction → Option SinkServer
  | .initializePipe created thread =>
    if s.call.isSome then none
    else if s.hPipe = .null then some (s.createPipe created thread)
    else some (s.beginStop (some (created, thread)))
  | .stopServer =>
    if s.call.isSome then none
    else if s.hPipe = .null then some s
    else some (s.beginStop none)
  | .call timeout => s.call.bind fun c => s.callStep timeout c.creates c.pc
  | .thread => s.thread.bind s.threadStep
  | .clientOpen => if s.pipe = some .listening then some s.attach else none
  | .clientClose => s.client.map fun _ => { s with pipe := some .closing }
  | .pins pinList => some { s with pinList := pinList }

/-- There is a thread, and a call of StopServer, only for an open pipe, and past its
    wait StopServer has no thread. -/
structure Sound (s : SinkServer) : Prop where
  no_pipe : s.hPipe = .null → s.thread = none ∧ s.call = none
  waited : ∀ c, s.call = some c → c.pc = .disconnect ∨ c.pc = .closeHandle ∨ c.pc = .clear →
    s.thread = none

theorem sound_new (pinList : List Nat) : Sound (new pinList) :=
  ⟨fun _ => ⟨rfl, rfl⟩, fun c h => (by cases h)⟩

/-- A new pipe has a handle value other than NULL, whether it was created or not. -/
theorem Sound.createPipe {s : SinkServer} (hcall : s.call = none) (created thread : Bool) :
    Sound (s.createPipe created thread) := by
  refine ⟨fun h => ?_, fun c hc => ?_⟩
  · cases created <;> cases h
  · rw [show s.call = some c from hc] at hcall
    cases hcall

/-- What a step of the thread writes. -/
theorem threadStep_writes {s t : SinkServer} {pc : ServerPc} (h : s.threadStep pc = some t) :
    ∃ bServerRunning bConnected pipe thread, t = { s with
      bServerRunning := bServerRunning
      bConnected := bConnected
      pipe := pipe
      thread := thread } := by
  cases pc with
  | start | record | finish | sleeping =>
    obtain rfl := Option.some.inj h
    exact ⟨_, _, _, _, rfl⟩
  | waiting =>
    simp only [threadStep] at h
    split at h
    · cases h
    all_goals
      obtain rfl := Option.some.inj h
      exact ⟨_, _, _, _, rfl⟩
  | test | connect | check | walk | rest =>
    simp only [threadStep] at h
    split at h
    all_goals
      obtain rfl := Option.some.inj h
      exact ⟨_, _, _, _, rfl⟩

theorem Sound.callStep {s t : SinkServer} {timeout : Bool} {c : ServerCall} (hs : Sound s)
    (hc : s.call = some c) (h : s.callStep timeout c.creates c.pc = some t) : Sound t := by
  have hpipe : s.hPipe ≠ .null := by
    intro e
    rw [(hs.no_pipe e).2] at hc
    cases hc
  have hwaited := hs.waited c hc
  obtain ⟨pc, creates⟩ := c
  cases pc with
  | openPipe =>
    simp only [SinkServer.callStep] at h
    split at h <;> obtain rfl := Option.some.inj h
    · refine ⟨fun e => absurd e hpipe, fun c e hpc => ?_⟩
      obtain rfl := Option.some.inj e
      simp at hpc
    · refine ⟨fun e => absurd e hpipe, fun c e hpc => ?_⟩
      obtain rfl := Option.some.inj e
      simp at hpc
  | closeClient n =>
    obtain rfl := Option.some.inj h
    refine ⟨fun e => absurd e hpipe, fun c e hpc => ?_⟩
    obtain rfl := Option.some.inj e
    simp at hpc
  | waitListener =>
    simp only [SinkServer.callStep] at h
    split at h
    · rename_i hnone
      obtain rfl := Option.some.inj h
      exact ⟨fun e => absurd e hpipe, fun _ _ _ => hnone⟩
    · rw [Option.ite_none_right_eq_some] at h
      obtain rfl := Option.some.inj h.2
      exact ⟨fun e => absurd e hpipe, fun _ _ _ => rfl⟩
  | disconnect =>
    obtain rfl := Option.some.inj h
    exact ⟨fun e => absurd e hpipe, fun _ _ _ => hwaited (Or.inl rfl)⟩
  | closeHandle =>
    obtain rfl := Option.some.inj h
    exact ⟨fun e => absurd e hpipe, fun _ _ _ => hwaited (Or.inr (Or.inl rfl))⟩
  | clear =>
    cases creates with
    | none =>
      obtain rfl := Option.some.inj h
      exact ⟨fun _ => ⟨hwaited (Or.inr (Or.inr rfl)), rfl⟩, fun c e => (by cases e)⟩
    | some p =>
      obtain rfl := Option.some.inj h
      exact Sound.createPipe rfl p.1 p.2

theorem Sound.step (s : SinkServer) (a : ServerAction) (t : SinkServer) (hs : Sound s)
    (h : s.step a = some t) : Sound t := by
  cases a with
  | initializePipe created thread =>
    simp only [SinkServer.step, Option.ite_none_left_eq_some] at h
    obtain ⟨hcall, h⟩ := h
    split at h
    · obtain rfl := Option.some.inj h
      exact Sound.createPipe (Option.not_isSome_iff_eq_none.mp hcall) created thread
    · rename_i hpipe
      obtain rfl := Option.some.inj h
      refine ⟨fun e => absurd e hpipe, fun c e hpc => ?_⟩
      obtain rfl := Option.some.inj e
      simp at hpc
  | stopServer =>
    simp only [SinkServer.step, Option.ite_none_left_eq_some] at h
    obtain ⟨_, h⟩ := h
    split at h
    · obtain rfl := Option.some.inj h
      exact hs
    · rename_i hpipe
      obtain rfl := Option.some.inj h
      refine ⟨fun e => absurd e hpipe, fun c e hpc => ?_⟩
      obtain rfl := Option.some.inj e
      simp at hpc
  | call timeout =>
    obtain ⟨c, hc, h⟩ := Option.bind_eq_some_iff.mp h
    exact hs.callStep hc h
  | thread =>
    obtain ⟨pc, hpc, h⟩ := Option.bind_eq_some_iff.mp h
    obtain ⟨_, _, _, _, rfl⟩ := threadStep_writes h
    refine ⟨fun e => ?_, fun c hc hlate => ?_⟩
    · rw [(hs.no_pipe e).1] at hpc
      cases hpc
    · rw [hs.waited c hc hlate] at hpc
      cases hpc
  | clientOpen =>
    simp only [SinkServer.step, Option.ite_none_right_eq_some] at h
    obtain rfl := Option.some.inj h.2
    exact ⟨hs.no_pipe, hs.waited⟩
  | clientClose =>
    obtain ⟨c, _, rfl⟩ := Option.map_eq_some_iff.mp h
    exact ⟨hs.no_pipe, hs.waited⟩
  | pins pinList =>
    obtain rfl := Option.some.inj h
    exact ⟨hs.no_pipe, hs.waited⟩

end SinkServer

end VirtualCaptureStream
