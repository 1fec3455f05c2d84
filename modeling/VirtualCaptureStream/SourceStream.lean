import VirtualCaptureStream.SourceFillBuffer
import VirtualCaptureStream.Lib.Rendezvous
import VirtualCaptureStream.Lib.StopFlag

/- CSourceStream: the worker thread that fills and delivers a pin's samples, and the calls
   Active and Inactive that start and end it. The calling thread holds the filter's state
   lock, so there is one at a time; it talks to the worker through CAMThread, whose two
   events and two words are a `Rendezvous.Exchange`. The filter's Stop and Run clear the
   pin's flags without the lock, at any time.

   A step is one access to what the threads share, or a call that can take as long as it
   wants: GetBuffer, the pipe calls of FillBuffer, Receive. What these return is the
   step's input.

   What is proved:
     1. `commands_answered` — each command gets its own answer, and the answer is NOERROR,
        so Active and Inactive fail only where the allocator or CreateThread does.
     2. `worker_ends_with_inactive` — while no call is in progress there is a worker
        exactly when the thread handle is set, and none after an Inactive.
     3. `events_orderly` — after OnThreadStartPlay come samples, then at most one end of
        stream, then nothing.

   Correspondence (C++ ↔ Lean):
     `CSourceStream::ThreadProc`               ↔ `work`, with `initRequest`, `threadRequest`
     `DoBufferProcessingLoop`                  ↔ `work`, with `loopRequest`
     `FillBuffer`, between its blocking calls  ↔ `fillStep`
     `CAMThread::CallWorker`, `Reply`          ↔ `callWorker`, `replyStep`
     `Active`, `Inactive`                      ↔ `ClientPc` and `client`
   The tests of Active and Inactive on the filter's state and the connection are their
   caller's here. OnThreadCreate is the base class's, which returns NOERROR. -/
namespace VirtualCaptureStream

def E_NOTIMPL : HRESULT := Int32.ofBitVec 0x80004001#32
def E_UNEXPECTED : HRESULT := Int32.ofBitVec 0x8000FFFF#32

/-- The worker's commands, CMD_INIT to CMD_EXIT. -/
inductive Command where
  | init
  | pause
  | run
  | stop
  | exit
  deriving DecidableEq

/-- Where the worker goes on after a Reply. -/
inductive AfterReply where
  | awaitInit
  | command
  | startPlay
  | poll
  | destroy
  deriving DecidableEq

/-- Where it goes on after it has released its sample. -/
inductive AfterRelease where
  | poll
  | command
  | endOfStream (hr : HRESULT)
  deriving DecidableEq

/-- How far the worker thread is. `awaitInit` and `command` are the two GetRequest calls of
    ThreadProc, `poll` is the loop's CheckRequest; from `fill` to `filled` it is in
    FillBuffer with the sample, which `filled` leaves with a result. -/
inductive WorkerPc where
  | none
  | awaitInit
  | command
  | reply (hr : HRESULT) (next : AfterReply)
  | startPlay
  | poll
  | getBuffer
  | fill (sample : MediaSample)
  | connect (sample : MediaSample)
  | readHeader (sample : MediaSample)
  | readPayload (sample : MediaSample) (n : Nat) (hr : HRESULT)
  | filled (sample : MediaSample) (hr : HRESULT)
  | deliver (sample : MediaSample)
  | release (next : AfterRelease)
  | endOfStream (hr : HRESULT)
  | notify (hr : HRESULT)
  | destroy

/-- The sample the worker has, as FillBuffer has left it so far. -/
def WorkerPc.sample? : WorkerPc → Option MediaSample
  | .fill m | .connect m | .readHeader m | .readPayload m _ _ | .filled m _ | .deliver m => some m
  | _ => Option.none

def AfterReply.pc : AfterReply → WorkerPc
  | .awaitInit => .awaitInit
  | .command => .command
  | .startPlay => .startPlay
  | .poll => .poll
  | .destroy => .destroy

def AfterRelease.pc : AfterRelease → WorkerPc
  | .poll => .poll
  | .command => .command
  | .endOfStream hr => .endOfStream hr

/-- How far the thread is that has called Active (`commit`, `create`, Init, Pause) or
    Inactive (`decommit`, Stop, Exit, `close`, `join`). -/
inductive ClientPc where
  | idle
  | commit
  | create
  | call (c : Command)
  | decommit
  | close
  | join
  deriving DecidableEq

inductive StreamCall where
  | active
  | inactive
  deriving DecidableEq

/-- The function that sends the command. Nobody sends CMD_RUN. -/
def Command.caller : Command → StreamCall
  | .init | .pause | .run => .active
  | .stop | .exit => .inactive

/-- What the pin gives its neighbours, and where OnThreadStartPlay was called. -/
inductive StreamEvent where
  | start
  | deliver (sample : MediaSample)
  | endOfStream
  | error (hr : HRESULT)

/-- The pin with its thread. `events` and `returned`, what Active and Inactive returned,
    are newest first. -/
structure SourceStream where
  exchange : Rendezvous.Exchange Command HRESULT
  hThread : Bool
  worker : WorkerPc
  client : ClientPc
  pin : SourceOutputPin
  events : List StreamEvent
  returned : List (StreamCall × HRESULT)

/-- What the worker is told by a call it makes. `header` has the results of the
    IMediaSample calls too. -/
inductive WorkerInput where
  | go
  | buffer (sample : Option MediaSample)
  | connected (env : SourceOutputPin.ConnectEnv)
  | header (r : ReadResult) (setters : SourceOutputPin.SetterResults)
  | payload (r : ReadResult)
  | received (hr : HRESULT)

inductive StreamAction where
  | active
  | inactive
  | allocator (hr : HRESULT)
  | createThread (ok : Bool)
  | client
  | work (input : WorkerInput)
  | stop
  | reset

namespace SourceStream

/-- The constructor; the members it does not set are as the heap had them. -/
def new (pin : SourceOutputPin) (dwParam : Command) (dwReturnVal : HRESULT) : SourceStream where
  exchange := .new dwParam dwReturnVal
  hThread := false
  worker := .none
  client := .idle
  pin := pin
  events := []
  returned := []

/-! The worker. -/

/-- A command in the first loop of ThreadProc. -/
def initRequest : Command → WorkerPc
  | .init => .reply S_OK .command
  | _ => .reply E_UNEXPECTED .awaitInit

/-- A command in the second loop of ThreadProc. -/
def threadRequest : Command → WorkerPc
  | .exit => .reply S_OK .destroy
  | .run | .pause => .reply S_OK .startPlay
  | .stop => .reply S_OK .command
  | .init => .reply E_NOTIMPL .command

/-- A command in DoBufferProcessingLoop. CMD_STOP is left to ThreadProc, which sees it
    again and replies. -/
def loopRequest : Command → WorkerPc
  | .run | .pause => .reply S_OK .poll
  | .stop => .command
  | .init | .exit => .reply E_UNEXPECTED .poll

/-- GetRequest, or a CheckRequest that finds one. -/
def getRequest (s : SourceStream) (next : Command → WorkerPc) : Option SourceStream :=
  (Rendezvous.step s.exchange .take).map fun x =>
    { s with exchange := x, worker := next s.exchange.param }

/-- Reply, one access after the other. -/
def replyStep (s : SourceStream) (hr : HRESULT) (next : AfterReply) : Option SourceStream :=
  match s.exchange.server with
  | .idle => none
  | .serving _ => (Rendezvous.step s.exchange (.answer hr)).map fun x => { s with exchange := x }
  | .answered _ _ => (Rendezvous.step s.exchange .clear).map fun x => { s with exchange := x }
  | .cleared _ _ =>
    (Rendezvous.step s.exchange .finish).map fun x => { s with exchange := x, worker := next.pc }

/-- FillBuffer up to its next blocking call, or its return. -/
def fillStep (p : SourceOutputPin) : WorkerPc → WorkerInput → Option (SourceOutputPin × WorkerPc)
  | .fill m, .go =>
    if p.bRunning = false then some ((p.disconnectPipe []).1, .filled m S_FALSE)
    else some (p, if p.bConnected then .readHeader m else .connect m)
  | .connect m, .connected env =>
    (SourceOutputPin.connectToSinkPin env p []).map fun (_, p, _) =>
      (p, if p.bConnected then .readHeader m else .filled m S_OK)
  | .readHeader m, .header r setters =>
    if r.fSuccess = false then some (p, .filled m S_OK)
    else
      let a := SourceOutputPin.afterHeader p m setters (MediaSampleInfo.codec.dec r.bytes)
      match a.next with
      | .ret hr => some (a.pin, .filled a.sample hr)
      | .readPayload n hr =>
        some (a.pin, if setters.getPointer then .readPayload a.sample n hr
          else .filled (a.sample.store ReadResult.broken.bytes) hr)
  | .readPayload m _ hr, .payload r => some (p, .filled (m.store r.bytes) hr)
  | _, _ => none

/-- The worker's next step. -/
def work (s : SourceStream) (input : WorkerInput) : Option SourceStream :=
  match s.worker, input with
  | .awaitInit, .go => s.getRequest initRequest
  | .command, .go => s.getRequest threadRequest
  | .reply hr next, .go => s.replyStep hr next
  | .destroy, .go => some { s with worker := .none, pin := s.pin.onThreadDestroy }
  | .startPlay, .go => some { s with
      worker := .poll, pin := s.pin.onThreadStartPlay, events := .start :: s.events }
  | .poll, .go =>
    if s.exchange.send then s.getRequest loopRequest else some { s with worker := .getBuffer }
  -- after Sleep(1), where GetDeliveryBuffer has failed
  | .getBuffer, .buffer none => some { s with worker := .poll }
  | .getBuffer, .buffer (some m) => some { s with worker := .fill m }
  | .filled m hr, .go =>
    if hr = S_OK then some { s with worker := .deliver m, events := .deliver m :: s.events }
    else some { s with worker := .release (.endOfStream hr) }
  | .deliver _, .received hr =>
    some { s with worker := .release (if hr = S_OK then .poll else .command) }
  | .release next, .go => some { s with worker := next.pc }
  | .endOfStream hr, .go => some { s with
      worker := if hr = S_FALSE then .command else .notify hr, events := .endOfStream :: s.events }
  | .notify hr, .go => some { s with worker := .command, events := .error hr :: s.events }
  | _, _ => (fillStep s.pin s.worker input).map fun (p, w) => { s with pin := p, worker := w }

/-! Active and Inactive. -/

/-- The call returns. -/
def returns (s : SourceStream) (call : StreamCall) (hr : HRESULT) : SourceStream :=
  { s with client := .idle, returned := (call, hr) :: s.returned }

/-- CallWorker has returned `hr` for the command. -/
def afterCall (s : SourceStream) (c : Command) (hr : HRESULT) : SourceStream :=
  if failed hr then s.returns c.caller hr
  else
    match c with
    | .init => { s with client := .call .pause }
    | .pause | .run => s.returns .active hr
    | .stop => { s with client := .call .exit }
    | .exit => { s with client := .close }

/-- CallWorker, one access after the other. -/
def callWorker (s : SourceStream) (c : Command) : Option SourceStream :=
  match s.exchange.caller with
  | none =>
    if s.hThread = false then some (s.afterCall c E_FAIL)
    else (Rendezvous.step s.exchange (.enter 0 c)).map fun x => { s with exchange := x }
  | some (_, .entered _) =>
    (Rendezvous.step s.exchange .store).map fun x => { s with exchange := x }
  | some (_, .stored _) =>
    (Rendezvous.step s.exchange .signal).map fun x => { s with exchange := x }
  | some (_, .signalled _) =>
    (Rendezvous.step s.exchange .wake).map fun x => { s with exchange := x }
  | some (_, .woken _) =>
    (Rendezvous.step s.exchange .leave).map fun x =>
      { s with exchange := x }.afterCall c s.exchange.result

/-- Close: the handle is reset before the wait for the thread. -/
def clientStep (s : SourceStream) : Option SourceStream :=
  match s.client with
  | .call c => s.callWorker c
  | .close => some { s with hThread := false, client := .join }
  | .join =>
    match s.worker with
    | .none => some (s.returns .inactive S_OK)
    | _ => none
  | _ => none

/-- What Commit or Decommit has returned. -/
def allocatorStep (s : SourceStream) (hr : HRESULT) : Option SourceStream :=
  match s.client with
  | .commit => some (if failed hr then s.returns .active hr else { s with client := .create })
  | .decommit => some
    (if failed hr then s.returns .inactive hr
      else if s.hThread then { s with client := .call .stop }
      else s.returns .inactive S_OK)
  | _ => none

/-- Create; `ok`: CreateThread succeeds. -/
def createThread (s : SourceStream) (ok : Bool) : SourceStream :=
  if s.hThread ∨ ok = false then s.returns .active E_FAIL
  else { s with hThread := true, worker := .awaitInit, client := .call .init }

def step (s : SourceStream) : StreamAction → Option SourceStream
  | .active => if s.client = .idle then some { s with client := .commit } else none
  | .inactive => if s.client = .idle then some { s with client := .decommit } else none
  | .allocator hr => s.allocatorStep hr
  | .createThread ok => if s.client = .create then some (s.createThread ok) else none
  | .client => s.clientStep
  | .work input => s.work input
  | .stop => some { s with pin := s.pin.stop }
  | .reset => some { s with pin := s.pin.reset }

/-! FillBuffer in one go. -/

section
variable {ω : Type} {rd : Nat → ω → ReadResult × ω} {p : SourceOutputPin} {m : MediaSample}

/-- FillBuffer's pin and place. -/
def fillStepOn (s : SourceOutputPin × WorkerPc) (i : WorkerInput) :
    Option (SourceOutputPin × WorkerPc) :=
  fillStep s.1 s.2 i

theorem disconnectPipe_pin (calls : List OsCall) :
    (p.disconnectPipe calls).1 = (p.disconnectPipe []).1 := by
  unfold SourceOutputPin.disconnectPipe
  split <;> rfl

theorem openLoop_log {path : WStr} {h : HANDLE} {ok : Bool} :
    ∀ {attempts : List SourceOutputPin.OpenAttempt} {cs cs' : List OsCall}
      (ds : List OsCall),
      SourceOutputPin.openLoop path attempts cs = some (h, ok, cs') →
      ∃ ds', SourceOutputPin.openLoop path attempts ds = some (h, ok, ds') := by
  intro attempts
  induction attempts with
  | nil => intro _ _ _ hloop; cases hloop
  | cons a rest ih =>
    intro cs cs' ds hloop
    cases a with
    | busy waited =>
      cases waited with
      | true => exact ih _ hloop
      | false => cases hloop; exact ⟨_, rfl⟩
    | opened n => cases hloop; exact ⟨_, rfl⟩
    | error => cases hloop; exact ⟨_, rfl⟩

/-- The log does not matter to the pin. -/
theorem connectToSinkPin_log {env : SourceOutputPin.ConnectEnv} {hr : HRESULT}
    {q : SourceOutputPin} {cs cs' : List OsCall}
    (h : SourceOutputPin.connectToSinkPin env p cs = some (hr, q, cs')) :
    ∃ ds, SourceOutputPin.connectToSinkPin env p [] = some (hr, q, ds) := by
  simp only [SourceOutputPin.connectToSinkPin, Option.map_eq_some_iff] at h ⊢
  obtain ⟨⟨hd, ok, cs''⟩, hloop, hres⟩ := h
  rw [disconnectPipe_pin] at hloop hres
  obtain ⟨ds, hds⟩ := openLoop_log (p.disconnectPipe []).2 hloop
  refine ⟨ds, _, hds, ?_⟩
  dsimp only at hres ⊢
  split at hres <;> rename_i hif
  · rw [if_pos hif]
    cases hres
    rfl
  · rw [if_neg hif]
    cases hres
    rfl

theorem fillConnected_in_steps (r : SourceOutputPin.SetterResults)
    (calls : List OsCall) (w : ω) :
    ∃ inputs, Transition.run fillStepOn (p, .readHeader m) inputs =
      some ((SourceOutputPin.fillConnected rd r p calls m w).pin,
        .filled (SourceOutputPin.fillConnected rd r p calls m w).sample
          (SourceOutputPin.fillConnected rd r p calls m w).hr) := by
  cases hs : (rd sizeofMediaSampleInfo w).1.fSuccess with
  | false =>
    refine ⟨[.header (rd sizeofMediaSampleInfo w).1 r], Transition.run_cons.mpr ⟨_, ?_, rfl⟩⟩
    rw [SourceOutputPin.fillConnected_no_header hs]
    simp [fillStepOn, fillStep, hs]
  | true =>
    have hheader : fillStepOn (p, .readHeader m) (.header (rd sizeofMediaSampleInfo w).1 r) =
        some ((SourceOutputPin.afterHeader p m r (SourceOutputPin.headerOf rd w)).pin,
          match (SourceOutputPin.afterHeader p m r (SourceOutputPin.headerOf rd w)).next with
          | .ret hr =>
            .filled (SourceOutputPin.afterHeader p m r (SourceOutputPin.headerOf rd w)).sample hr
          | .readPayload n hr =>
            if r.getPointer then .readPayload
              (SourceOutputPin.afterHeader p m r (SourceOutputPin.headerOf rd w)).sample n hr
            else .filled ((SourceOutputPin.afterHeader p m r
              (SourceOutputPin.headerOf rd w)).sample.store ReadResult.broken.bytes) hr) := by
      simp only [fillStepOn, fillStep, hs, Bool.true_eq_false, if_false, SourceOutputPin.headerOf]
      split <;> rfl
    cases hn : (SourceOutputPin.afterHeader p m r (SourceOutputPin.headerOf rd w)).next with
    | ret hr =>
      rw [SourceOutputPin.fillConnected_ret hs hn]
      rw [hn] at hheader
      exact ⟨[_], Transition.run_cons.mpr ⟨_, hheader, rfl⟩⟩
    | readPayload n hr =>
      rw [SourceOutputPin.fillConnected_readPayload hs hn]
      rw [hn] at hheader
      unfold SourceOutputPin.payloadRead
      cases hptr : r.getPointer with
      | true =>
        simp only [hptr, if_true] at hheader ⊢
        exact ⟨[_, .payload (rd n (rd sizeofMediaSampleInfo w).2).1],
          Transition.run_cons.mpr ⟨_, hheader, Transition.run_cons.mpr ⟨_, rfl, rfl⟩⟩⟩
      | false =>
        simp only [hptr, Bool.false_eq_true, if_false] at hheader ⊢
        exact ⟨[_], Transition.run_cons.mpr ⟨_, hheader, rfl⟩⟩

/-- FillBuffer without anybody in between is the sequence of its steps. -/
theorem fillBuffer_in_steps {env : SourceOutputPin.FillEnv} {calls : List OsCall}
    {w : ω} {f : SourceOutputPin.FillResult ω}
    (h : SourceOutputPin.fillBuffer rd env p calls m w = some f) :
    ∃ inputs, Transition.run fillStepOn (p, .fill m) inputs =
      some (f.pin, .filled f.sample f.hr) := by
  unfold SourceOutputPin.fillBuffer at h
  split at h
  · rename_i hrun
    obtain rfl := Option.some.inj h
    refine ⟨[.go], Transition.run_cons.mpr ⟨_, ?_, rfl⟩⟩
    rw [disconnectPipe_pin]
    simp [fillStepOn, fillStep, hrun]
  · rename_i hrun
    obtain ⟨⟨q, cs⟩, hconn, hf⟩ := Option.map_eq_some_iff.mp h
    have hgo : fillStepOn (p, .fill m) .go =
        some (p, if p.bConnected then .readHeader m else .connect m) := by
      simp [fillStepOn, fillStep, hrun]
    split at hconn
    · rename_i hc
      obtain ⟨rfl, rfl⟩ := Prod.mk.inj (Option.some.inj hconn)
      dsimp only at hf
      rw [if_pos hc] at hf hgo
      subst hf
      obtain ⟨inputs, hinputs⟩ := fillConnected_in_steps env.setters calls w
      exact ⟨.go :: inputs, Transition.run_cons.mpr ⟨_, hgo, hinputs⟩⟩
    · rename_i hc
      rw [if_neg hc] at hgo
      obtain ⟨⟨hr, q', cs'⟩, hsink, hq⟩ := Option.map_eq_some_iff.mp hconn
      obtain ⟨rfl, rfl⟩ := Prod.mk.inj hq
      obtain ⟨ds, hds⟩ := connectToSinkPin_log hsink
      have hconnect : fillStepOn (p, .connect m) (.connected env.connect) =
          some (q', if q'.bConnected then .readHeader m else .filled m S_OK) := by
        simp [fillStepOn, fillStep, hds]
      dsimp only at hf
      split at hf
      · rename_i hc'
        subst hf
        rw [if_pos hc'] at hconnect
        obtain ⟨inputs, hinputs⟩ := fillConnected_in_steps env.setters cs' w
        exact ⟨.go :: .connected env.connect :: inputs, Transition.run_cons.mpr ⟨_, hgo,
          Transition.run_cons.mpr ⟨_, hconnect, hinputs⟩⟩⟩
      · rename_i hc'
        subst hf
        rw [if_neg hc'] at hconnect
        exact ⟨[.go, .connected env.connect], Transition.run_cons.mpr ⟨_, hgo,
          Transition.run_cons.mpr ⟨_, hconnect, rfl⟩⟩⟩

end

/-! What a step of the worker can do. -/

/-- Between the answer to CMD_INIT and the one to CMD_EXIT, and not in a Reply. -/
def live : WorkerPc → Bool
  | .none | .awaitInit | .reply _ _ | .destroy => false
  | _ => true

/-- In FillBuffer, before its return. -/
def inFill : WorkerPc → Bool
  | .fill _ | .connect _ | .readHeader _ | .readPayload _ _ _ => true
  | _ => false

/-- How many steps the worker is from ThreadProc's GetRequest at most, when a CMD_STOP is
    there to be found. -/
def distance : WorkerPc → Nat
  | .getBuffer => 10
  | .fill _ => 9
  | .connect _ => 8
  | .readHeader _ => 7
  | .readPayload _ _ _ => 6
  | .filled _ _ => 5
  | .deliver _ => 4
  | .release _ => 3
  | .startPlay | .endOfStream _ => 2
  | .poll | .notify _ => 1
  | _ => 0

/-- A step of DoBufferProcessingLoop that is not about commands, and its event. -/
inductive Plays : WorkerPc → List StreamEvent → WorkerPc → List StreamEvent → Prop
  | poll {es} : Plays .poll es .getBuffer es
  | again {es} : Plays .getBuffer es .poll es
  | buffer {m es} : Plays .getBuffer es (.fill m) es
  | fill {w w' es} (hw : inFill w = true) (hw' : inFill w' = true ∨ ∃ m hr, w' = .filled m hr)
      (hlt : distance w' < distance w)
      (hsize : ∀ m m', w.sample? = some m → w'.sample? = some m' → m'.getSize = m.getSize) :
      Plays w es w' es
  | deliver {m es} : Plays (.filled m S_OK) es (.deliver m) (.deliver m :: es)
  | end_ {m hr es} (hne : hr ≠ S_OK) : Plays (.filled m hr) es (.release (.endOfStream hr)) es
  | received {m next es} (hnext : next = .poll ∨ next = .command) :
      Plays (.deliver m) es (.release next) es
  | release {next es} : Plays (.release next) es next.pc es
  | endOfStream {hr w es} (hw : w = .command ∨ w = .notify hr) :
      Plays (.endOfStream hr) es w (.endOfStream :: es)
  | notify {hr es} : Plays (.notify hr) es .command (.error hr :: es)

theorem live_of_inFill {w : WorkerPc} (h : inFill w = true) : live w = true := by
  cases w <;> simp_all [inFill, live]

theorem Plays.live {w w' : WorkerPc} {es es' : List StreamEvent} (h : Plays w es w' es') :
    SourceStream.live w = true ∧ SourceStream.live w' = true := by
  cases h with
  | fill hw hw' =>
    refine ⟨live_of_inFill hw, ?_⟩
    rcases hw' with hw' | ⟨m, hr, rfl⟩
    · exact live_of_inFill hw'
    · rfl
  | release => rename_i next; cases next <;> exact ⟨rfl, rfl⟩
  | endOfStream hw => rcases hw with rfl | rfl <;> exact ⟨rfl, rfl⟩
  | _ => exact ⟨rfl, rfl⟩

/-- Without a command to see, ThreadProc waits. -/
theorem Plays.ne_command {w w' : WorkerPc} {es es' : List StreamEvent} (h : Plays w es w' es') :
    w ≠ .command := by
  rintro rfl
  cases h with
  | fill hw => cases hw

theorem Plays.distance_lt {w w' : WorkerPc} {es es' : List StreamEvent} (h : Plays w es w' es')
    (hw : w ≠ .poll) : distance w' < distance w := by
  cases h with
  | poll => exact absurd rfl hw
  | fill _ _ hlt _ => exact hlt
  | release => rename_i next; cases next <;> simp [AfterRelease.pc, distance]
  | endOfStream hw => rcases hw with rfl | rfl <;> simp [distance]
  | _ => simp [distance]

/-- A sample of the same size. -/
theorem size_of_some {m m' k k' : MediaSample} (h : m'.getSize = m.getSize) (hk : some m = some k)
    (hk' : some m' = some k') : k'.getSize = k.getSize := by
  obtain rfl := Option.some.inj hk
  obtain rfl := Option.some.inj hk'
  exact h

theorem fillStep_plays {p p' : SourceOutputPin} {w w' : WorkerPc} {i : WorkerInput}
    (h : fillStep p w i = some (p', w')) (es : List StreamEvent) :
    Plays w es w' es ∧ p'.bRunning = p.bRunning := by
  unfold fillStep at h
  split at h
  · rename_i m
    split at h
    · obtain ⟨rfl, rfl⟩ := Prod.mk.inj (Option.some.inj h)
      refine ⟨.fill rfl (Or.inr ⟨_, _, rfl⟩) (by simp [distance]) fun _ _ => size_of_some rfl, ?_⟩
      unfold SourceOutputPin.disconnectPipe
      split <;> rfl
    · obtain ⟨rfl, rfl⟩ := Prod.mk.inj (Option.some.inj h)
      refine ⟨.fill rfl (Or.inl ?_) ?_ ?_, rfl⟩
      · split <;> rfl
      · split <;> simp [distance]
      · split <;> exact fun _ _ => size_of_some rfl
  · rename_i m env
    obtain ⟨⟨hr, q, cs⟩, hconn, hres⟩ := Option.map_eq_some_iff.mp h
    obtain ⟨rfl, rfl⟩ := Prod.mk.inj hres
    refine ⟨.fill rfl ?_ ?_ ?_, ?_⟩
    · split
      · exact Or.inl rfl
      · exact Or.inr ⟨_, _, rfl⟩
    · split <;> simp [distance]
    · split <;> exact fun _ _ => size_of_some rfl
    · simp only [SourceOutputPin.connectToSinkPin, Option.map_eq_some_iff] at hconn
      obtain ⟨⟨_, ok, _⟩, -, hq⟩ := hconn
      have hclosed : (SourceOutputPin.disconnectPipe p []).1.bRunning = p.bRunning := by
        unfold SourceOutputPin.disconnectPipe
        split <;> rfl
      split at hq
      · rw [← hclosed, ← (Prod.mk.inj (Prod.mk.inj hq).2).1]
      · rw [← hclosed, ← (Prod.mk.inj (Prod.mk.inj hq).2).1]
  · rename_i m r setters
    have hpin := (SourceOutputPin.afterHeader_pin p m setters
      (MediaSampleInfo.codec.dec r.bytes)).2.2
    have hsize : (SourceOutputPin.afterHeader p m setters
        (MediaSampleInfo.codec.dec r.bytes)).sample.getSize = m.getSize :=
      SourceOutputPin.afterHeader_size _
    split at h
    · obtain ⟨rfl, rfl⟩ := Prod.mk.inj (Option.some.inj h)
      exact ⟨.fill rfl (Or.inr ⟨_, _, rfl⟩) (by simp [distance]) fun _ _ => size_of_some rfl, rfl⟩
    · dsimp only at h
      split at h
      · obtain ⟨rfl, rfl⟩ := Prod.mk.inj (Option.some.inj h)
        exact ⟨.fill rfl (Or.inr ⟨_, _, rfl⟩) (by simp [distance]) fun _ _ => size_of_some hsize,
          hpin⟩
      · obtain ⟨rfl, rfl⟩ := Prod.mk.inj (Option.some.inj h)
        refine ⟨.fill rfl ?_ ?_ ?_, hpin⟩
        · split
          · exact Or.inl rfl
          · exact Or.inr ⟨_, _, rfl⟩
        · split <;> simp [distance]
        · split
          · exact fun _ _ => size_of_some hsize
          · exact fun _ _ => size_of_some ((MediaSample.store_size _ _).trans hsize)
  · obtain ⟨rfl, rfl⟩ := Prod.mk.inj (Option.some.inj h)
    exact ⟨.fill rfl (Or.inr ⟨_, _, rfl⟩) (by simp [distance])
      fun _ _ => size_of_some (MediaSample.store_size _ _), rfl⟩
  · cases h

/-- Where the worker looks for a command. -/
inductive Looks : WorkerPc → (Command → WorkerPc) → Prop
  | init : Looks .awaitInit initRequest
  | thread : Looks .command threadRequest
  | loop : Looks .poll loopRequest

/-- Everything a step of the worker can do. -/
inductive Worked (s : SourceStream) : SourceStream → Prop
  | take {next x} (hw : Looks s.worker next) (hx : Rendezvous.step s.exchange .take = some x) :
      Worked s { s with exchange := x, worker := next s.exchange.param }
  | answer {hr next x} (hw : s.worker = .reply hr next)
      (hx : Rendezvous.step s.exchange (.answer hr) = some x) : Worked s { s with exchange := x }
  | clear {hr next x} (hw : s.worker = .reply hr next)
      (hx : Rendezvous.step s.exchange .clear = some x) : Worked s { s with exchange := x }
  | finish {hr next x} (hw : s.worker = .reply hr next)
      (hx : Rendezvous.step s.exchange .finish = some x) :
      Worked s { s with exchange := x, worker := next.pc }
  | destroy (hw : s.worker = .destroy) :
      Worked s { s with worker := .none, pin := s.pin.onThreadDestroy }
  | start (hw : s.worker = .startPlay) : Worked s { s with
      worker := .poll, pin := s.pin.onThreadStartPlay, events := .start :: s.events }
  | play {p w es} (hw : Plays s.worker s.events w es) (hrun : p.bRunning = s.pin.bRunning)
      (hsend : s.worker = .poll → s.exchange.send = false) :
      Worked s { s with pin := p, worker := w, events := es }

theorem work_cases {s t : SourceStream} {i : WorkerInput} (h : s.work i = some t) : Worked s t := by
  have take : ∀ {next}, Looks s.worker next → s.getRequest next = some t → Worked s t := by
    intro next hw h
    obtain ⟨x, hx, rfl⟩ := Option.map_eq_some_iff.mp h
    exact .take hw hx
  unfold work at h
  split at h
  · rename_i hw
    exact take (hw ▸ .init) h
  · rename_i hw
    exact take (hw ▸ .thread) h
  · rename_i hr next hw
    unfold replyStep at h
    split at h
    · cases h
    · obtain ⟨x, hx, rfl⟩ := Option.map_eq_some_iff.mp h
      exact .answer hw hx
    · obtain ⟨x, hx, rfl⟩ := Option.map_eq_some_iff.mp h
      exact .clear hw hx
    · obtain ⟨x, hx, rfl⟩ := Option.map_eq_some_iff.mp h
      exact .finish hw hx
  · rename_i hw
    obtain rfl := Option.some.inj h
    exact .destroy hw
  · rename_i hw
    obtain rfl := Option.some.inj h
    exact .start hw
  · rename_i hw
    split at h
    · exact take (hw ▸ .loop) h
    · rename_i hsend
      obtain rfl := Option.some.inj h
      exact .play (hw ▸ .poll) rfl fun _ => by simpa using hsend
  · rename_i hw
    obtain rfl := Option.some.inj h
    exact .play (hw ▸ .again) rfl fun hp => by rw [hw] at hp; cases hp
  · rename_i m hw
    obtain rfl := Option.some.inj h
    exact .play (hw ▸ .buffer) rfl fun hp => by rw [hw] at hp; cases hp
  · rename_i m hr hw
    split at h
    · rename_i hok
      obtain rfl := Option.some.inj h
      exact .play (hw ▸ hok ▸ .deliver) rfl fun hp => by rw [hw] at hp; cases hp
    · rename_i hne
      obtain rfl := Option.some.inj h
      exact .play (hw ▸ .end_ hne) rfl fun hp => by rw [hw] at hp; cases hp
  · rename_i m hr hw
    obtain rfl := Option.some.inj h
    refine .play (hw ▸ .received ?_) rfl fun hp => by rw [hw] at hp; cases hp
    split
    · exact Or.inl rfl
    · exact Or.inr rfl
  · rename_i next hw
    obtain rfl := Option.some.inj h
    exact .play (hw ▸ .release) rfl fun hp => by rw [hw] at hp; cases hp
  · rename_i hr hw
    obtain rfl := Option.some.inj h
    refine .play (hw ▸ .endOfStream ?_) rfl fun hp => by rw [hw] at hp; cases hp
    split
    · exact Or.inl rfl
    · exact Or.inr rfl
  · rename_i hr hw
    obtain rfl := Option.some.inj h
    exact .play (hw ▸ .notify) rfl fun hp => by rw [hw] at hp; cases hp
  · obtain ⟨⟨p, w⟩, hfill, rfl⟩ := Option.map_eq_some_iff.mp h
    obtain ⟨hplays, hrun⟩ := fillStep_plays hfill s.events
    refine .play hplays hrun fun hp => ?_
    rw [hp] at hfill
    cases hfill

/-- The worker leaves the calling thread's side alone. -/
theorem Worked.frame {s t : SourceStream} (h : Worked s t) :
    t.client = s.client ∧ t.hThread = s.hThread ∧ t.returned = s.returned ∧
      t.exchange.caller = s.exchange.caller ∧ t.exchange.calls = s.exchange.calls := by
  cases h with
  | take _ hx =>
    obtain ⟨hcaller, hcalls, -⟩ := Rendezvous.server_frame hx (Or.inl rfl)
    exact ⟨rfl, rfl, rfl, hcaller, hcalls⟩
  | answer _ hx =>
    obtain ⟨hcaller, hcalls, -⟩ := Rendezvous.server_frame hx (Or.inr (Or.inl ⟨_, rfl⟩))
    exact ⟨rfl, rfl, rfl, hcaller, hcalls⟩
  | clear _ hx =>
    obtain ⟨hcaller, hcalls, -⟩ := Rendezvous.server_frame hx (Or.inr (Or.inr (Or.inl rfl)))
    exact ⟨rfl, rfl, rfl, hcaller, hcalls⟩
  | finish _ hx =>
    obtain ⟨hcaller, hcalls, -⟩ := Rendezvous.server_frame hx (Or.inr (Or.inr (Or.inr rfl)))
    exact ⟨rfl, rfl, rfl, hcaller, hcalls⟩
  | destroy | start | play => exact ⟨rfl, rfl, rfl, rfl, rfl⟩

/-! Where the worker is, as the calling thread goes along. -/

/-- What the worker does when the command arrives, and where it goes from there. Between
    Pause and Stop it runs by itself. -/
def before : Command → WorkerPc → Prop
  | .init, w => w = .awaitInit
  | .pause, w | .run, w | .exit, w => w = .command
  | .stop, w => live w = true

def target : Command → AfterReply
  | .init | .stop => .command
  | .pause | .run => .startPlay
  | .exit => .destroy

def after : Command → WorkerPc → Prop
  | .init, w | .stop, w => w = .command
  | .pause, w | .run, w => live w = true
  | .exit, w => w = .destroy ∨ w = .none

/-- The command `c` on its way: the worker has not seen it, has passed it on to ThreadProc,
    replies to it, or has replied. -/
inductive Serves (c : Command) (x : Rendezvous.Exchange Command HRESULT) (w : WorkerPc) : Prop
  | unseen (hc : x.caller = none ∨ ∃ i, x.caller = some (i, .entered c) ∨
        x.caller = some (i, .stored c) ∨ x.caller = some (i, .signalled c) ∧ x.send = true)
      (hs : x.server = .idle) (hw : before c w)
  | passed {i} (hc : x.caller = some (i, .signalled c)) (hs : x.server = .serving c)
      (hstop : c = .stop) (hw : w = .command)
  | replying {i} (hc : x.caller = some (i, .signalled c)) (hs : x.server = .serving c ∨
        x.server = .answered c S_OK ∨ x.server = .cleared c S_OK) (hw : w = .reply S_OK (target c))
  | done {i} (hc : x.caller = some (i, .signalled c) ∧ x.send = false ∨
        x.caller = some (i, .woken c)) (hs : x.server = .idle) (hr : x.result = S_OK)
      (hw : after c w)

/-- No command is on its way. -/
structure Rests (x : Rendezvous.Exchange Command HRESULT) (P : WorkerPc → Prop) (w : WorkerPc) :
    Prop where
  caller : x.caller = none
  worker : P w

/-- The thread handle is set, and the worker takes commands; or there is neither. -/
def Settled (s : SourceStream) : Prop :=
  Rests s.exchange (fun w => if s.hThread = true then live w = true else w = .none) s.worker

def WorkerAgrees (s : SourceStream) : Prop :=
  match s.client with
  | .call c => s.hThread = true ∧ Serves c s.exchange s.worker
  | .close => s.hThread = true ∧ Rests s.exchange (after .exit) s.worker
  | .join => s.hThread = false ∧ Rests s.exchange (after .exit) s.worker
  | .idle | .commit | .create | .decommit => s.Settled

/-- What holds of the two threads at every point. -/
structure Agrees (s : SourceStream) : Prop where
  sound : Rendezvous.Sound s.exchange
  noerror : ∀ e ∈ s.exchange.answers, e.2 = S_OK
  worker : s.WorkerAgrees
  quiet : s.worker = .none → s.exchange.calls ≠ [] → s.pin.bRunning = false

theorem agrees_new (pin : SourceOutputPin) (dwParam : Command) (dwReturnVal : HRESULT) :
    (new pin dwParam dwReturnVal).Agrees where
  sound := Rendezvous.sound_new dwParam dwReturnVal
  noerror := fun _ he => by cases he
  worker := ⟨rfl, rfl⟩
  quiet := fun _ hcalls => absurd rfl hcalls

section
variable {s t : SourceStream} {x : Rendezvous.Exchange Command HRESULT} {c : Command}
  {w w' : WorkerPc}

theorem not_before_reply {hr : HRESULT} {next : AfterReply} : ¬ before c (.reply hr next) := by
  cases c <;> simp [before, live]

theorem not_after_reply {hr : HRESULT} {next : AfterReply} : ¬ after c (.reply hr next) := by
  cases c <;> simp [after, live]

theorem after_target : ∀ c : Command, after c (target c).pc
  | .exit => Or.inl rfl
  | .init | .pause | .run | .stop => rfl

/-- A worker that goes about its own business. -/
theorem before_roam (h : before c w) (hw : live w = true) (hne : w ≠ .command)
    (hw' : live w' = true) : before c w' := by
  cases c with
  | init => obtain rfl := h; cases hw
  | pause | run | exit => exact absurd h hne
  | stop => exact hw'

theorem after_roam (h : after c w) (hw : live w = true) (hne : w ≠ .command)
    (hw' : live w' = true) : after c w' := by
  cases c with
  | init | stop => exact absurd h hne
  | pause | run => exact hw'
  | exit => rcases h with rfl | rfl <;> cases hw

theorem Serves.roam (h : Serves c x w) (hw : live w = true) (hne : w ≠ .command)
    (hw' : live w' = true) : Serves c x w' := by
  cases h with
  | unseen hc hs hb => exact .unseen hc hs (before_roam hb hw hne hw')
  | passed _ _ _ hp => exact absurd hp hne
  | replying _ _ hp => rw [hp] at hw; cases hw
  | done hc hs hr ha => exact .done hc hs hr (after_roam ha hw hne hw')

/-- The worker sees the command. -/
theorem before_looks {next : Command → WorkerPc} (h : before c w) (hw : Looks w next) :
    next c = .reply S_OK (target c) ∨ c = .stop ∧ next c = .command := by
  cases c with
  | init | pause | run | exit => obtain rfl := h; cases hw; exact Or.inl rfl
  | stop =>
    cases hw with
    | init => cases h
    | thread => exact Or.inl rfl
    | loop => exact Or.inr ⟨rfl, rfl⟩

theorem looks_ne_none {next : Command → WorkerPc} (hw : Looks w next) (c : Command) :
    next c ≠ .none := by
  cases hw <;> cases c <;> exact fun h => by cases h

theorem Serves.take {next : Command → WorkerPc} {y : Rendezvous.Exchange Command HRESULT}
    (h : Serves c x w) (hx : Rendezvous.Sound x) (hw : Looks w next)
    (hy : Rendezvous.step x .take = some y) : Serves c y (next x.param) := by
  obtain ⟨i, q, hcaller, hparam, hserver, hsend, -, -, rfl⟩ := hx.take_cases hy
  cases h with
  | unseen hc _ hb =>
    have hq : q = c := by
      rcases hc with hc | ⟨j, hc | hc | ⟨hc, -⟩⟩ <;> rw [hcaller] at hc <;> cases hc
      rfl
    subst hq
    rw [hparam]
    rcases before_looks hb hw with hn | ⟨hstop, hn⟩
    · exact .replying hcaller (Or.inl rfl) hn
    · exact .passed hcaller rfl hstop hn
  | passed hc _ hstop hp =>
    rw [hcaller] at hc
    cases hc
    subst hp hstop
    rw [hparam]
    cases hw
    exact .replying hcaller (Or.inl rfl) rfl
  | replying _ _ hp => rw [hp] at hw; cases hw
  | done hc =>
    rcases hc with ⟨-, hsend'⟩ | hc
    · rw [hsend] at hsend'
      cases hsend'
    · rw [hcaller] at hc
      cases hc

/-- The worker is in a Reply, which says NOERROR. -/
theorem Serves.of_reply {hr : HRESULT} {next : AfterReply} (h : Serves c x (.reply hr next)) :
    ∃ i, x.caller = some (i, .signalled c) ∧ hr = S_OK ∧ next = target c ∧
      (x.server = .serving c ∨ x.server = .answered c S_OK ∨ x.server = .cleared c S_OK) := by
  cases h with
  | unseen _ _ hb => exact absurd hb not_before_reply
  | passed _ _ _ hp => cases hp
  | replying hc hs hp => cases hp; exact ⟨_, hc, rfl, rfl, hs⟩
  | done _ _ _ ha => exact absurd ha not_after_reply

end

section
variable {s t : SourceStream}

/-- Somebody is in CallWorker. -/
theorem WorkerAgrees.calling (h : s.WorkerAgrees) {i : Nat} {pc : Rendezvous.CallerPc Command}
    (hc : s.exchange.caller = some (i, pc)) :
    ∃ c, s.client = .call c ∧ s.hThread = true ∧ Serves c s.exchange s.worker := by
  unfold WorkerAgrees at h
  split at h
  · rename_i c hclient
    exact ⟨c, hclient, h⟩
  · rw [h.2.caller] at hc
    cases hc
  · rw [h.2.caller] at hc
    cases hc
  all_goals
    rw [h.caller] at hc
    cases hc

/-- A worker that goes about its own business. -/
theorem WorkerAgrees.roam (h : s.WorkerAgrees) (hclient : t.client = s.client)
    (hthread : t.hThread = s.hThread) (hexchange : t.exchange = s.exchange)
    (hw : live s.worker = true) (hne : s.worker ≠ .command) (hw' : live t.worker = true) :
    t.WorkerAgrees := by
  unfold WorkerAgrees at h ⊢
  rw [hclient]
  split at h
  · rw [hthread, hexchange]
    exact ⟨h.1, h.2.roam hw hne hw'⟩
  · rw [hthread, hexchange]
    exact ⟨h.1, h.2.caller, after_roam h.2.worker hw hne hw'⟩
  · rw [hthread, hexchange]
    exact ⟨h.1, h.2.caller, after_roam h.2.worker hw hne hw'⟩
  all_goals
    refine ⟨hexchange ▸ h.caller, ?_⟩
    have hsettled := h.worker
    show if t.hThread = true then live t.worker = true else t.worker = .none
    rw [hthread]
    split at hsettled
    · rw [if_pos ‹_›]
      exact hw'
    · rw [hsettled] at hw
      cases hw

theorem Agrees.take {next : Command → WorkerPc} {x : Rendezvous.Exchange Command HRESULT}
    (h : s.Agrees) (hw : Looks s.worker next) (hx : Rendezvous.step s.exchange .take = some x) :
    ({ s with exchange := x, worker := next s.exchange.param }).Agrees := by
  have hsound := h.sound.take hx
  obtain ⟨i, q, hcaller, -, -, -, -, -, hy⟩ := h.sound.take_cases hx
  obtain ⟨c, hclient, hthread, hserves⟩ := h.worker.calling hcaller
  have hnext := hserves.take h.sound hw hx
  refine ⟨hsound, by rw [hy]; exact h.noerror, ?_, fun hnone => absurd hnone (looks_ne_none hw _)⟩
  unfold WorkerAgrees
  rw [hclient]
  exact ⟨hthread, hnext⟩

/-- Whose request the worker replies to, and what it says. -/
theorem Agrees.replying {hr : HRESULT} {next : AfterReply} {i : Nat} {q : Command} (h : s.Agrees)
    (hw : s.worker = .reply hr next) (hcaller : s.exchange.caller = some (i, .signalled q)) :
    s.client = .call q ∧ s.hThread = true ∧ hr = S_OK ∧ next = target q ∧
      (s.exchange.server = .serving q ∨ s.exchange.server = .answered q S_OK ∨
        s.exchange.server = .cleared q S_OK) := by
  obtain ⟨c, hclient, hthread, hserves⟩ := h.worker.calling hcaller
  rw [hw] at hserves
  obtain ⟨j, hc, hok, hnext, hs⟩ := hserves.of_reply
  rw [hcaller] at hc
  cases hc
  exact ⟨hclient, hthread, hok, hnext, hs⟩

theorem Agrees.reply {hr : HRESULT} {next : AfterReply} {x : Rendezvous.Exchange Command HRESULT}
    {a : Rendezvous.Action Command HRESULT} (h : s.Agrees) (hw : s.worker = .reply hr next)
    (ha : a = .answer hr ∨ a = .clear) (hx : Rendezvous.step s.exchange a = some x) :
    ({ s with exchange := x }).Agrees := by
  rcases ha with rfl | rfl
  · obtain ⟨i, q, hcaller, hserver, -, -, hy⟩ := h.sound.answer_cases hx
    obtain ⟨hclient, hthread, rfl, rfl, -⟩ := h.replying hw hcaller
    refine ⟨h.sound.answer hx, ?_, ?_, fun hnone => ?_⟩
    · rw [hy]
      intro e he
      rcases List.mem_append.mp he with he | he
      · exact h.noerror e he
      · rw [List.mem_singleton.mp he]
    · unfold WorkerAgrees
      rw [hclient]
      refine ⟨hthread, ?_⟩
      rw [hy]
      exact .replying hcaller (Or.inr (Or.inl rfl)) hw
    · rw [hw] at hnone
      cases hnone
  · obtain ⟨i, q, r, hcaller, hserver, -, -, -, hy⟩ := h.sound.clear_cases hx
    obtain ⟨hclient, hthread, rfl, rfl, hs⟩ := h.replying hw hcaller
    have hr : r = S_OK := by
      rcases hs with hs | hs | hs <;> rw [hserver] at hs <;> cases hs
      rfl
    subst hr
    refine ⟨h.sound.clear hx, by rw [hy]; exact h.noerror, ?_, fun hnone => ?_⟩
    · unfold WorkerAgrees
      rw [hclient]
      refine ⟨hthread, ?_⟩
      rw [hy]
      exact .replying hcaller (Or.inr (Or.inr rfl)) hw
    · rw [hw] at hnone
      cases hnone

theorem Agrees.finish {hr : HRESULT} {next : AfterReply} {x : Rendezvous.Exchange Command HRESULT}
    (h : s.Agrees) (hw : s.worker = .reply hr next)
    (hx : Rendezvous.step s.exchange .finish = some x) :
    ({ s with exchange := x, worker := next.pc }).Agrees := by
  obtain ⟨i, q, r, hcaller, hserver, hsend, hresult, -, hy⟩ := h.sound.finish_cases hx
  obtain ⟨hclient, hthread, rfl, rfl, hs⟩ := h.replying hw hcaller
  have hr : r = S_OK := by
    rcases hs with hs | hs | hs <;> rw [hserver] at hs <;> cases hs
    rfl
  refine ⟨h.sound.finish hx, by rw [hy]; exact h.noerror, ?_, fun hnone => ?_⟩
  · unfold WorkerAgrees
    rw [hclient]
    refine ⟨hthread, ?_⟩
    rw [hy]
    exact .done (Or.inl ⟨hcaller, hsend⟩) rfl (hresult.trans hr) (after_target q)
  · have hn : (target q).pc = .none := hnone
    cases q <;> cases hn

theorem Agrees.worked (h : s.Agrees) (hstep : Worked s t) : t.Agrees := by
  cases hstep with
  | take hw hx => exact h.take hw hx
  | answer hw hx => exact h.reply hw (Or.inl rfl) hx
  | clear hw hx => exact h.reply hw (Or.inr rfl) hx
  | finish hw hx => exact h.finish hw hx
  | destroy hw =>
    refine ⟨h.sound, h.noerror, ?_, fun _ _ => rfl⟩
    have hagrees := h.worker
    unfold WorkerAgrees at hagrees ⊢
    split at hagrees
    · rename_i c hclient
      simp only [hclient]
      refine ⟨hagrees.1, ?_⟩
      rw [hw] at hagrees
      have hserves := hagrees.2
      cases hserves with
      | unseen _ _ hb => cases c <;> cases hb
      | passed _ _ _ hp => cases hp
      | replying _ _ hp => cases hp
      | done hc hs hr ha =>
        cases c with
        | exit => exact .done hc hs hr (Or.inr rfl)
        | _ => cases ha
    · rename_i hclient
      simp only [hclient]
      exact ⟨hagrees.1, hagrees.2.caller, Or.inr rfl⟩
    · rename_i hclient
      simp only [hclient]
      exact ⟨hagrees.1, hagrees.2.caller, Or.inr rfl⟩
    all_goals
      have hsettled := hagrees.worker
      rw [hw] at hsettled
      split at hsettled <;> cases hsettled
  | start hw =>
    refine ⟨h.sound, h.noerror, ?_, fun hnone => by cases hnone⟩
    exact h.worker.roam rfl rfl rfl (by rw [hw]; rfl) (by rw [hw]; exact fun e => by cases e) rfl
  | @play p w es hw hrun hsend =>
    obtain ⟨hlive, hlive'⟩ := hw.live
    refine ⟨h.sound, h.noerror, h.worker.roam rfl rfl rfl hlive hw.ne_command hlive', fun hnone => ?_⟩
    have hw' : w = .none := hnone
    rw [hw'] at hlive'
    cases hlive'

/-! The calling thread. -/

theorem Serves.of_none {c : Command} {x : Rendezvous.Exchange Command HRESULT} {w : WorkerPc}
    (h : Serves c x w) (hc : x.caller = none) : x.server = .idle ∧ before c w := by
  cases h with
  | unseen _ hs hb => exact ⟨hs, hb⟩
  | passed hc' | replying hc' => rw [hc] at hc'; cases hc'
  | done hc' => rcases hc' with ⟨hc', -⟩ | hc' <;> rw [hc] at hc' <;> cases hc'

theorem Serves.of_early {c q : Command} {i : Nat} {x : Rendezvous.Exchange Command HRESULT}
    {w : WorkerPc} (h : Serves c x w)
    (hc : x.caller = some (i, .entered q) ∨ x.caller = some (i, .stored q)) :
    q = c ∧ x.server = .idle ∧ before c w := by
  rcases hc with hc | hc <;>
  · cases h with
    | unseen hc' hs hb =>
      rcases hc' with hc' | ⟨j, hc' | hc' | ⟨hc', -⟩⟩ <;> rw [hc] at hc' <;> cases hc'
      exact ⟨rfl, hs, hb⟩
    | passed hc' | replying hc' => rw [hc] at hc'; cases hc'
    | done hc' => rcases hc' with ⟨hc', -⟩ | hc' <;> rw [hc] at hc' <;> cases hc'

theorem Serves.of_idle {c q : Command} {i : Nat} {x : Rendezvous.Exchange Command HRESULT}
    {w : WorkerPc} (h : Serves c x w) (hc : x.caller = some (i, .signalled q))
    (hserver : x.server = .idle) (hsend : x.send = false) : q = c ∧ x.result = S_OK ∧ after c w := by
  cases h with
  | unseen hc' =>
    rcases hc' with hc' | ⟨j, hc' | hc' | ⟨-, hsend'⟩⟩
    · rw [hc] at hc'; cases hc'
    · rw [hc] at hc'; cases hc'
    · rw [hc] at hc'; cases hc'
    · rw [hsend] at hsend'; cases hsend'
  | passed _ hs => rw [hserver] at hs; cases hs
  | replying _ hs => rcases hs with hs | hs | hs <;> rw [hserver] at hs <;> cases hs
  | done hc' _ hr ha =>
    rcases hc' with ⟨hc', -⟩ | hc' <;> rw [hc] at hc' <;> cases hc'
    exact ⟨rfl, hr, ha⟩

theorem Serves.of_woken {c q : Command} {i : Nat} {x : Rendezvous.Exchange Command HRESULT}
    {w : WorkerPc} (h : Serves c x w) (hc : x.caller = some (i, .woken q)) :
    q = c ∧ x.result = S_OK ∧ after c w := by
  cases h with
  | unseen hc' => rcases hc' with hc' | ⟨j, hc' | hc' | ⟨hc', -⟩⟩ <;> rw [hc] at hc' <;> cases hc'
  | passed hc' | replying hc' => rw [hc] at hc'; cases hc'
  | done hc' _ hr ha =>
    rcases hc' with ⟨hc', -⟩ | hc' <;> rw [hc] at hc' <;> cases hc'
    exact ⟨rfl, hr, ha⟩

theorem before_ne_none {c : Command} {w : WorkerPc} (h : before c w) : w ≠ .none := by
  rintro rfl
  cases c <;> cases h

/-- Everything a step of CallWorker can do. -/
inductive Called (s : SourceStream) (c : Command) : SourceStream → Prop
  | enter (hc : s.exchange.caller = none) (hserver : s.exchange.server = .idle)
      (hb : before c s.worker) : Called s c { s with exchange := { s.exchange with
        caller := some (0, .entered c), calls := s.exchange.calls ++ [(0, c)] } }
  | store {i} (hc : s.exchange.caller = some (i, .entered c)) (hserver : s.exchange.server = .idle)
      (hb : before c s.worker) : Called s c { s with exchange := { s.exchange with
        param := c, caller := some (i, .stored c) } }
  | signal {i} (hc : s.exchange.caller = some (i, .stored c)) (hserver : s.exchange.server = .idle)
      (hb : before c s.worker) : Called s c { s with exchange := { s.exchange with
        send := true, caller := some (i, .signalled c) } }
  | wake {i} (hc : s.exchange.caller = some (i, .signalled c))
      (hserver : s.exchange.server = .idle) (hsend : s.exchange.send = false)
      (hr : s.exchange.result = S_OK) (ha : after c s.worker) : Called s c { s with
        exchange := { s.exchange with complete := false, caller := some (i, .woken c) } }
  | leave {i} (hc : s.exchange.caller = some (i, .woken c)) (hserver : s.exchange.server = .idle)
      (ha : after c s.worker) : Called s c ({ s with exchange := { s.exchange with
        caller := none, returns := s.exchange.returns ++ [(i, c, s.exchange.result)] } }.afterCall c S_OK)

/-- CallWorker leaves the worker's side alone. -/
theorem Called.frame {c : Command} (h : Called s c t) :
    t.worker = s.worker ∧ t.pin = s.pin ∧ t.events = s.events := by
  cases h with
  | leave => cases c <;> exact ⟨rfl, rfl, rfl⟩
  | _ => exact ⟨rfl, rfl, rfl⟩

theorem Agrees.serves {c : Command} (h : s.Agrees) (hclient : s.client = .call c) :
    s.hThread = true ∧ Serves c s.exchange s.worker := by
  have hagrees := h.worker
  unfold WorkerAgrees at hagrees
  simp only [hclient] at hagrees
  exact hagrees

theorem callWorker_cases {c : Command} (h : s.Agrees) (hclient : s.client = .call c)
    (hstep : s.callWorker c = some t) : Called s c t ∧ Rendezvous.Sound t.exchange := by
  obtain ⟨hthread, hserves⟩ := h.serves hclient
  unfold SourceStream.callWorker at hstep
  split at hstep
  · rename_i hc
    rw [if_neg (by simp [hthread])] at hstep
    obtain ⟨x, hx, rfl⟩ := Option.map_eq_some_iff.mp hstep
    obtain ⟨hserver, hb⟩ := hserves.of_none hc
    have hsound := h.sound.enter hx
    simp only [Rendezvous.step, hc, Option.some.injEq] at hx
    subst hx
    exact ⟨.enter hc hserver hb, hsound⟩
  · rename_i i q hc
    obtain ⟨x, hx, rfl⟩ := Option.map_eq_some_iff.mp hstep
    have hsound := h.sound.store hx
    obtain ⟨rfl, hserver, hb⟩ := hserves.of_early (Or.inl hc)
    simp only [Rendezvous.step, hc, Option.some.injEq] at hx
    subst hx
    exact ⟨.store hc hserver hb, hsound⟩
  · rename_i i q hc
    obtain ⟨x, hx, rfl⟩ := Option.map_eq_some_iff.mp hstep
    have hsound := h.sound.signal hx
    obtain ⟨rfl, hserver, hb⟩ := hserves.of_early (Or.inr hc)
    simp only [Rendezvous.step, hc, Option.some.injEq] at hx
    subst hx
    exact ⟨.signal hc hserver hb, hsound⟩
  · rename_i i q hc
    obtain ⟨x, hx, rfl⟩ := Option.map_eq_some_iff.mp hstep
    have hsound := h.sound.wake hx
    obtain ⟨j, q', hc', hserver, hsend, -, rfl⟩ := h.sound.wake_cases hx
    obtain ⟨rfl, hr, ha⟩ := hserves.of_idle hc' hserver hsend
    exact ⟨.wake hc' hserver hsend hr ha, hsound⟩
  · rename_i i q hc
    obtain ⟨x, hx, rfl⟩ := Option.map_eq_some_iff.mp hstep
    have hsound := h.sound.leave hx
    obtain ⟨j, q', hc', hserver, -, -, -, rfl⟩ := h.sound.leave_cases hx
    obtain ⟨rfl, hr, ha⟩ := hserves.of_woken hc'
    have hok : ∀ u : SourceStream, u.afterCall q' s.exchange.result = u.afterCall q' S_OK :=
      fun u => by rw [hr]
    rw [hok]
    refine ⟨.leave hc' hserver ha, ?_⟩
    cases q' <;> exact hsound

/-- Everything an action can do. -/
inductive Stepped (s : SourceStream) : StreamAction → SourceStream → Prop
  | work {i t} (hw : Worked s t) : Stepped s (.work i) t
  | called {c t} (hclient : s.client = .call c) (hc : Called s c t) : Stepped s .client t
  | close (hclient : s.client = .close) :
      Stepped s .client { s with hThread := false, client := .join }
  | join (hclient : s.client = .join) (hw : s.worker = .none) :
      Stepped s .client (s.returns .inactive S_OK)
  | active (hclient : s.client = .idle) : Stepped s .active { s with client := .commit }
  | inactive (hclient : s.client = .idle) : Stepped s .inactive { s with client := .decommit }
  | refused {call hr} (hclient : s.client = .commit ∨ s.client = .decommit)
      (hf : failed hr = true) : Stepped s (.allocator hr) (s.returns call hr)
  | committed {hr} (hclient : s.client = .commit) :
      Stepped s (.allocator hr) { s with client := .create }
  | stopping {hr} (hclient : s.client = .decommit) (hthread : s.hThread = true) :
      Stepped s (.allocator hr) { s with client := .call .stop }
  | no_thread {hr} (hclient : s.client = .decommit) (hthread : s.hThread = false) :
      Stepped s (.allocator hr) (s.returns .inactive S_OK)
  | not_created {ok} (hclient : s.client = .create) :
      Stepped s (.createThread ok) (s.returns .active E_FAIL)
  | created {ok} (hclient : s.client = .create) (hthread : s.hThread = false) :
      Stepped s (.createThread ok)
        { s with hThread := true, worker := .awaitInit, client := .call .init }
  | stop : Stepped s .stop { s with pin := s.pin.stop }
  | reset : Stepped s .reset { s with pin := s.pin.reset }

theorem step_cases {a : StreamAction} (h : s.Agrees) (hstep : s.step a = some t) :
    Stepped s a t := by
  cases a with
  | active =>
    simp only [SourceStream.step, Option.ite_none_right_eq_some] at hstep
    obtain rfl := Option.some.inj hstep.2
    exact .active hstep.1
  | inactive =>
    simp only [SourceStream.step, Option.ite_none_right_eq_some] at hstep
    obtain rfl := Option.some.inj hstep.2
    exact .inactive hstep.1
  | allocator hr =>
    simp only [SourceStream.step, SourceStream.allocatorStep] at hstep
    split at hstep
    · rename_i hclient
      obtain rfl := Option.some.inj hstep
      split
      · exact .refused (Or.inl hclient) ‹_›
      · exact .committed hclient
    · rename_i hclient
      obtain rfl := Option.some.inj hstep
      split
      · exact .refused (Or.inr hclient) ‹_›
      · split
        · exact .stopping hclient ‹_›
        · exact .no_thread hclient (by simpa using ‹¬ s.hThread = true›)
    · cases hstep
  | createThread ok =>
    simp only [SourceStream.step, Option.ite_none_right_eq_some] at hstep
    obtain rfl := Option.some.inj hstep.2
    unfold SourceStream.createThread
    split
    · exact .not_created hstep.1
    · rename_i hno
      exact .created hstep.1 (by simpa using fun e => hno (Or.inl e))
  | client =>
    simp only [SourceStream.step, SourceStream.clientStep] at hstep
    split at hstep
    · rename_i c hclient
      exact .called hclient (callWorker_cases h hclient hstep).1
    · rename_i hclient
      obtain rfl := Option.some.inj hstep
      exact .close hclient
    · rename_i hclient
      split at hstep
      · obtain rfl := Option.some.inj hstep
        exact .join hclient ‹_›
      · cases hstep
    · cases hstep
  | work input => exact .work (work_cases hstep)
  | stop =>
    obtain rfl := Option.some.inj hstep
    exact .stop
  | reset =>
    obtain rfl := Option.some.inj hstep
    exact .reset

theorem WorkerAgrees.settled (h : s.WorkerAgrees) (hclient : s.client = .idle ∨
    s.client = .commit ∨ s.client = .create ∨ s.client = .decommit) : s.Settled := by
  unfold WorkerAgrees at h
  rcases hclient with hc | hc | hc | hc <;> rw [hc] at h <;> exact h

/-- CallWorker goes on, and the worker does not notice. -/
theorem Agrees.called {c : Command} (h : s.Agrees) (hclient : s.client = .call c)
    (hcalled : Called s c t) (hsound : Rendezvous.Sound t.exchange) : t.Agrees := by
  obtain ⟨hthread, -⟩ := h.serves hclient
  have serve : ∀ {x}, Serves c x s.worker → ({ s with exchange := x }).WorkerAgrees := by
    intro x hx
    unfold WorkerAgrees
    simp only [hclient]
    exact ⟨hthread, hx⟩
  cases hcalled with
  | enter hc hserver hb =>
    exact ⟨hsound, h.noerror, serve (.unseen (Or.inr ⟨0, Or.inl rfl⟩) hserver hb),
      fun hnone => absurd hnone (before_ne_none hb)⟩
  | @store i hc hserver hb =>
    exact ⟨hsound, h.noerror, serve (.unseen (Or.inr ⟨i, Or.inr (Or.inl rfl)⟩) hserver hb), h.quiet⟩
  | @signal i hc hserver hb =>
    exact ⟨hsound, h.noerror, serve (.unseen (Or.inr ⟨i, Or.inr (Or.inr ⟨rfl, rfl⟩)⟩) hserver hb),
      h.quiet⟩
  | wake hc hserver hsend hr ha =>
    exact ⟨hsound, h.noerror, serve (.done (Or.inr rfl) hserver hr ha), h.quiet⟩
  | leave hc hserver ha =>
    cases c with
    | init => exact ⟨hsound, h.noerror, ⟨hthread, .unseen (Or.inl rfl) hserver ha⟩, h.quiet⟩
    | pause | run =>
      refine ⟨hsound, h.noerror, ⟨rfl, ?_⟩, h.quiet⟩
      show if s.hThread = true then live s.worker = true else s.worker = .none
      rw [if_pos hthread]
      exact ha
    | stop => exact ⟨hsound, h.noerror, ⟨hthread, .unseen (Or.inl rfl) hserver ha⟩, h.quiet⟩
    | exit => exact ⟨hsound, h.noerror, ⟨hthread, rfl, ha⟩, h.quiet⟩

/-- A step of Active or Inactive around the calls of the worker. -/
theorem Agrees.settled (h : s.Agrees) (hs : s.Settled) (hexchange : t.exchange = s.exchange)
    (hthread : t.hThread = s.hThread) (hworker : t.worker = s.worker) (hpin : t.pin = s.pin)
    (hclient : t.client = .idle ∨ t.client = .commit ∨ t.client = .create ∨ t.client = .decommit) :
    t.Agrees := by
  have hsettled : t.Settled := by
    unfold Settled at hs ⊢
    rw [hexchange, hthread, hworker]
    exact hs
  refine ⟨hexchange ▸ h.sound, hexchange ▸ h.noerror, ?_, ?_⟩
  · unfold WorkerAgrees
    rcases hclient with hc | hc | hc | hc <;> rw [hc] <;> exact hsettled
  · rw [hexchange, hworker, hpin]
    exact h.quiet

theorem Settled.server (hs : s.Settled) (h : s.Agrees) : s.exchange.server = .idle :=
  (h.sound.quiet fun i q hc => by rw [hs.caller] at hc; cases hc).1

theorem Agrees.step (s : SourceStream) (a : StreamAction) (t : SourceStream) (h : s.Agrees)
    (hstep : s.step a = some t) : t.Agrees := by
  cases step_cases h hstep with
  | work hw => exact h.worked hw
  | called hclient hcalled =>
    refine h.called hclient hcalled (callWorker_cases h hclient ?_).2
    simpa only [SourceStream.step, SourceStream.clientStep, hclient] using hstep
  | close hclient =>
    have hagrees := h.worker
    unfold WorkerAgrees at hagrees
    simp only [hclient] at hagrees
    exact ⟨h.sound, h.noerror, ⟨rfl, hagrees.2⟩, h.quiet⟩
  | join hclient hw =>
    have hagrees := h.worker
    unfold WorkerAgrees at hagrees
    simp only [hclient] at hagrees
    refine ⟨h.sound, h.noerror, ⟨hagrees.2.caller, ?_⟩, h.quiet⟩
    show if s.hThread = true then live s.worker = true else s.worker = .none
    rw [if_neg (by simp [hagrees.1])]
    exact hw
  | active hclient =>
    exact h.settled (h.worker.settled (Or.inl hclient)) rfl rfl rfl rfl (Or.inr (Or.inl rfl))
  | inactive hclient =>
    exact h.settled (h.worker.settled (Or.inl hclient)) rfl rfl rfl rfl
      (Or.inr (Or.inr (Or.inr rfl)))
  | refused hclient =>
    have hs := h.worker.settled (by tauto)
    exact h.settled hs rfl rfl rfl rfl (Or.inl rfl)
  | committed hclient =>
    exact h.settled (h.worker.settled (Or.inr (Or.inl hclient))) rfl rfl rfl rfl
      (Or.inr (Or.inr (Or.inl rfl)))
  | stopping hclient hthread =>
    have hs := h.worker.settled (Or.inr (Or.inr (Or.inr hclient)))
    have hw := hs.worker
    rw [if_pos hthread] at hw
    exact ⟨h.sound, h.noerror, ⟨hthread, .unseen (Or.inl hs.caller) (hs.server h) hw⟩, h.quiet⟩
  | no_thread hclient =>
    exact h.settled (h.worker.settled (Or.inr (Or.inr (Or.inr hclient)))) rfl rfl rfl rfl (Or.inl rfl)
  | not_created hclient =>
    exact h.settled (h.worker.settled (Or.inr (Or.inr (Or.inl hclient)))) rfl rfl rfl rfl (Or.inl rfl)
  | created hclient =>
    have hs := h.worker.settled (Or.inr (Or.inr (Or.inl hclient)))
    exact ⟨h.sound, h.noerror, ⟨rfl, .unseen (Or.inl hs.caller) (hs.server h) rfl⟩,
      fun hnone => by cases hnone⟩
  | stop => exact ⟨h.sound, h.noerror, h.worker, fun _ _ => rfl⟩
  | reset => exact ⟨h.sound, h.noerror, h.worker, h.quiet⟩

end

/-- What follows from the agreement holds at every point of every run. -/
theorem always_of_agrees {P : SourceStream → Prop} (hP : ∀ s, s.Agrees → P s)
    (pin : SourceOutputPin) (dwParam : Command) (dwReturnVal : HRESULT) (as : List StreamAction) :
    Transition.Always step P (new pin dwParam dwReturnVal) as :=
  Transition.always_of_invariant hP Agrees.step as _ (agrees_new pin dwParam dwReturnVal)

/-- The same with an invariant beside the agreement. -/
theorem always_of_agrees_and {I P : SourceStream → Prop} (hIP : ∀ s, s.Agrees → I s → P s)
    (hstep : ∀ s a t, s.Agrees → I s → Stepped s a t → I t) (pin : SourceOutputPin)
    (dwParam : Command) (dwReturnVal : HRESULT) (hnew : I (new pin dwParam dwReturnVal))
    (as : List StreamAction) : Transition.Always step P (new pin dwParam dwReturnVal) as :=
  Transition.always_of_invariant (I := fun s => s.Agrees ∧ I s) (fun s h => hIP s h.1 h.2)
    (fun s a t h hs => ⟨Agrees.step s a t h.1 hs, hstep s a t h.1 h.2 (step_cases h.1 hs)⟩) as _
    ⟨agrees_new pin dwParam dwReturnVal, hnew⟩

/-! The commands. -/

/-- The commands of one life of the thread. -/
def round : List Command := [.init, .pause, .stop, .exit]

/-- Those of them that come before `c`. -/
def earlier (c : Command) : List Command := round.takeWhile (· ≠ c)

/-- What the current thread has been sent. -/
def sent (s : SourceStream) : List Command :=
  match s.client with
  | .call c => earlier c ++ if s.exchange.caller.isSome then [c] else []
  | .close | .join => []
  | .idle | .commit | .create | .decommit => if s.hThread then [.init, .pause] else []

/-- Whole rounds, and what the current thread has been sent. -/
structure InRounds (s : SourceStream) : Prop where
  calls : ∃ n, s.exchange.calls.map Prod.snd = (List.replicate n round).flatten ++ s.sent
  no_run : s.client ≠ .call .run

section
variable {s t : SourceStream}

theorem InRounds.congr (h : s.InRounds) (hcalls : t.exchange.calls = s.exchange.calls)
    (hsent : t.sent = s.sent) (hclient : t.client ≠ .call .run) : t.InRounds :=
  ⟨by rw [hcalls, hsent]; exact h.calls, hclient⟩

theorem InRounds.called {c : Command} (h : s.InRounds) (hthread : s.hThread = true)
    (hclient : s.client = .call c) (hc : Called s c t) : t.InRounds := by
  obtain ⟨n, hcalls⟩ := h.calls
  have hrun : c ≠ .run := fun e => h.no_run (e ▸ hclient)
  cases hc with
  | enter hcaller =>
    refine ⟨⟨n, ?_⟩, h.no_run⟩
    simp only [sent, hclient, hcaller, Option.isSome_none, Bool.false_eq_true, if_false,
      List.append_nil, Option.isSome_some, if_true, List.map_append, List.map_cons, List.map_nil] at hcalls ⊢
    rw [hcalls, List.append_assoc]
  | store hcaller | signal hcaller | wake hcaller =>
    exact h.congr rfl (by simp only [sent, hclient, hcaller, Option.isSome_some]) h.no_run
  | leave hcaller =>
    simp only [sent, hclient, hcaller, Option.isSome_some, if_true] at hcalls
    cases c with
    | init | stop => exact ⟨⟨n, hcalls⟩, fun e => by cases e⟩
    | pause =>
      refine ⟨⟨n, ?_⟩, fun e => by cases e⟩
      show _ = _ ++ if s.hThread = true then [Command.init, .pause] else []
      rw [if_pos hthread]
      exact hcalls
    | exit =>
      -- the round is complete
      refine ⟨⟨n + 1, ?_⟩, fun e => by cases e⟩
      show _ = (List.replicate (n + 1) round).flatten ++ []
      rw [List.append_nil, List.replicate_succ', List.flatten_append]
      exact hcalls
    | run => exact absurd rfl hrun

theorem InRounds.settled (h : s.InRounds) (hcalls : t.exchange.calls = s.exchange.calls)
    (hthread : t.hThread = s.hThread) (hs : s.client = .idle ∨ s.client = .commit ∨
      s.client = .create ∨ s.client = .decommit)
    (ht : t.client = .idle ∨ t.client = .commit ∨ t.client = .create ∨ t.client = .decommit) :
    t.InRounds := by
  refine h.congr hcalls ?_ fun e => ?_
  · unfold sent
    rcases hs with hs | hs | hs | hs <;> rcases ht with ht | ht | ht | ht <;> rw [hs, ht, hthread]
  · rcases ht with ht | ht | ht | ht <;> rw [ht] at e <;> cases e

theorem InRounds.step (s : SourceStream) (a : StreamAction) (t : SourceStream) (h : s.Agrees)
    (hs : s.InRounds) (hstep : Stepped s a t) : t.InRounds := by
  have hagrees := h.worker
  unfold WorkerAgrees at hagrees
  cases hstep with
  | work hw =>
    obtain ⟨hclient, hthread, -, hcaller, hcalls⟩ := hw.frame
    refine hs.congr hcalls ?_ (hclient ▸ hs.no_run)
    unfold sent
    rw [hclient, hthread, hcaller]
  | called hclient hc => exact hs.called (h.serves hclient).1 hclient hc
  | close hclient =>
    exact hs.congr rfl (by simp only [sent, hclient]) fun e => by cases e
  | join hclient =>
    simp only [hclient] at hagrees
    exact hs.congr rfl (by simp [sent, returns, hclient, hagrees.1]) fun e => by cases e
  | active hclient | inactive hclient | committed hclient | no_thread hclient | not_created hclient =>
    exact hs.settled rfl rfl (by simp [hclient]) (by simp [returns])
  | refused hclient => exact hs.settled rfl rfl (by tauto) (by simp [returns])
  | stopping hclient hthread =>
    simp only [hclient] at hagrees
    refine hs.congr rfl ?_ fun e => by cases e
    simp [sent, hclient, hthread, hagrees.caller, earlier, round]
  | created hclient hthread =>
    simp only [hclient] at hagrees
    refine hs.congr rfl ?_ fun e => by cases e
    simp [sent, hclient, hthread, hagrees.caller, earlier, round]
  | stop | reset => exact hs.congr rfl rfl hs.no_run

/-- Every command is answered once, the answer is NOERROR, and CallWorker returns it. -/
structure Answered (s : SourceStream) : Prop where
  aligned : Rendezvous.Aligned s.exchange
  noerror : ∀ e ∈ s.exchange.answers, e.2 = S_OK
  in_rounds : ∃ n, s.exchange.calls.map Prod.snd <+: (List.replicate n round).flatten
  returns_ok : ∀ t, s.step .client = some t → t.returned = s.returned ∨
    ∃ call, t.returned = (call, S_OK) :: s.returned

theorem sent_in_round (s : SourceStream) (h : s.client ≠ .call .run) : s.sent <+: round := by
  unfold sent
  split
  · rename_i c hclient
    cases c with
    | run => exact absurd hclient h
    | _ => split <;> decide
  · exact List.nil_prefix
  · exact List.nil_prefix
  all_goals split <;> decide

/-- **Every command gets its own answer**, in the order CMD_INIT, CMD_PAUSE, CMD_STOP,
    CMD_EXIT for each thread, and every answer is NOERROR. -/
theorem commands_answered (pin : SourceOutputPin) (dwParam : Command) (dwReturnVal : HRESULT)
    (as : List StreamAction) :
    Transition.Always step Answered (new pin dwParam dwReturnVal) as := by
  refine always_of_agrees_and (I := InRounds) (fun s h hs => ?_) InRounds.step pin dwParam
    dwReturnVal ⟨⟨0, rfl⟩, fun e => by cases e⟩ as
  refine ⟨h.sound.aligned, h.noerror, ?_, fun t ht => ?_⟩
  · obtain ⟨n, hcalls⟩ := hs.calls
    refine ⟨n + 1, ?_⟩
    rw [hcalls, List.replicate_succ', List.flatten_append, List.flatten_singleton]
    exact List.prefix_append_right_inj _ |>.mpr (sent_in_round s hs.no_run)
  · cases step_cases h ht with
    | called hclient hc =>
      cases hc with
      | leave =>
        rename_i c _ _ _ _
        cases c with
        | init | stop | exit => exact Or.inl rfl
        | pause | run => exact Or.inr ⟨_, rfl⟩
      | _ => exact Or.inl rfl
    | close => exact Or.inl rfl
    | join => exact Or.inr ⟨_, rfl⟩

/-! The thread. -/

/-- After an Inactive that has succeeded the handle is reset. -/
def Closed (s : SourceStream) : Prop :=
  s.client = .idle → ∀ hr, s.returned.head? = some (.inactive, hr) → failed hr = false →
    s.hThread = false

theorem closed_of_busy (h : s.client ≠ .idle) : s.Closed := fun hidle => absurd hidle h

/-- An Active, or an Inactive that has failed, has just returned. -/
theorem closed_of_returns {call : StreamCall} {hr : HRESULT}
    (h : call = .active ∨ failed hr = true) : (s.returns call hr).Closed := by
  intro _ hr' hhead hok
  obtain ⟨rfl, rfl⟩ := Prod.mk.inj (Option.some.inj hhead)
  rcases h with h | h
  · cases h
  · rw [hok] at h
    cases h

theorem Closed.step (s : SourceStream) (a : StreamAction) (t : SourceStream) (h : s.Agrees)
    (hs : s.Closed) (hstep : Stepped s a t) : t.Closed := by
  cases hstep with
  | work hw =>
    obtain ⟨hclient, hthread, hreturned, -⟩ := hw.frame
    intro hidle
    rw [hreturned, hthread]
    exact hs (hclient ▸ hidle)
  | called hclient hc =>
    cases hc with
    | leave =>
      rename_i c _ _ _ _
      cases c with
      | init | stop | exit => exact closed_of_busy fun e => by cases e
      | pause | run => exact closed_of_returns (Or.inl rfl)
    | _ => exact closed_of_busy (by simp [hclient])
  | close | active | inactive | committed | stopping | created =>
    exact closed_of_busy fun e => by cases e
  | join hclient =>
    have hagrees := h.worker
    unfold WorkerAgrees at hagrees
    simp only [hclient] at hagrees
    exact fun _ _ _ _ => hagrees.1
  | refused _ hf => exact closed_of_returns (Or.inr hf)
  | no_thread _ hthread => exact fun _ _ _ _ => hthread
  | not_created => exact closed_of_returns (Or.inl rfl)
  | stop | reset => exact hs

/-- No worker is left behind: `ended` is what the code after an Inactive can rely on. -/
structure Ends (s : SourceStream) : Prop where
  exists_iff : s.client = .idle → (s.hThread = true ↔ s.worker ≠ .none)
  ended : s.client = .idle → ∀ hr, s.returned.head? = some (.inactive, hr) → failed hr = false →
    s.worker = .none ∧ s.hThread = false ∧ (s.exchange.calls ≠ [] → s.pin.bRunning = false)

/-- **Inactive returns when the worker has ended**, with the pin's flag cleared; and while
    nobody is in Active or Inactive, there is a worker exactly when the handle is set. -/
theorem worker_ends_with_inactive (pin : SourceOutputPin) (dwParam : Command)
    (dwReturnVal : HRESULT) (as : List StreamAction) :
    Transition.Always step Ends (new pin dwParam dwReturnVal) as := by
  refine always_of_agrees_and (I := Closed) (fun s h hs => ?_) Closed.step pin dwParam dwReturnVal
    (fun _ _ hhead => by cases hhead) as
  have settled : s.client = .idle → (s.hThread = false → s.worker = .none) ∧
      (s.hThread = true → s.worker ≠ .none) := by
    intro hidle
    have hw := (h.worker.settled (Or.inl hidle)).worker
    refine ⟨fun hthread => ?_, fun hthread hnone => ?_⟩
    · rw [if_neg (by simp [hthread])] at hw
      exact hw
    · rw [if_pos hthread, hnone] at hw
      cases hw
  refine ⟨fun hidle => ⟨(settled hidle).2, fun hne => ?_⟩, fun hidle hr hhead hok => ?_⟩
  · by_contra hthread
    exact hne ((settled hidle).1 (by simpa using hthread))
  · have hthread := hs hidle hr hhead hok
    have hnone := (settled hidle).1 hthread
    exact ⟨hnone, hthread, h.quiet hnone⟩

/-! The events. -/

/-- The last event is a start or a sample. -/
def playing : List StreamEvent → Bool
  | .start :: _ | .deliver _ :: _ => true
  | _ => false

/-- From the newest event back: a sample or an end of stream comes after a start or a
    sample, an error after an end of stream. -/
def Orderly : List StreamEvent → Prop
  | [] => True
  | .start :: es => Orderly es
  | .deliver _ :: es | .endOfStream :: es => playing es = true ∧ Orderly es
  | .error _ :: es => es.head? = some .endOfStream ∧ Orderly es

/-- What the last event is where the worker is. -/
def Expects : WorkerPc → List StreamEvent → Prop
  | .notify _, es => es.head? = some .endOfStream
  | .reply _ .poll, es => playing es = true
  | .none, _ | .awaitInit, _ | .command, _ | .reply _ _, _ | .startPlay, _ | .destroy, _
  | .release .command, _ => True
  | _, es => playing es = true

theorem Plays.events {w w' : WorkerPc} {es es' : List StreamEvent} (h : Plays w es w' es')
    (hes : Orderly es) (hw : Expects w es) : Orderly es' ∧ Expects w' es' := by
  cases h with
  | poll | again | buffer => exact ⟨hes, hw⟩
  | fill hfill hfill' =>
    have hplaying : playing es = true := by
      cases w <;> first
        | exact hw
        | cases hfill
    refine ⟨hes, ?_⟩
    rcases hfill' with hfill' | ⟨m, hr, rfl⟩
    · cases w' <;> first
        | exact hplaying
        | cases hfill'
    · exact hplaying
  | deliver => exact ⟨⟨hw, hes⟩, rfl⟩
  | end_ => exact ⟨hes, hw⟩
  | received hnext => rcases hnext with rfl | rfl <;> exact ⟨hes, by first | exact hw | trivial⟩
  | release =>
    rename_i next
    cases next with
    | command => exact ⟨hes, trivial⟩
    | poll | endOfStream => exact ⟨hes, hw⟩
  | endOfStream hnext => rcases hnext with rfl | rfl <;> exact ⟨⟨hw, hes⟩, by first | rfl | trivial⟩
  | notify => exact ⟨⟨hw, hes⟩, trivial⟩

/-- The events so far, and the next one. -/
def InOrder (s : SourceStream) : Prop := Orderly s.events ∧ Expects s.worker s.events

theorem Worked.inOrder (hs : s.InOrder) (h : Worked s t) : t.InOrder := by
  obtain ⟨hes, hw⟩ := hs
  cases h with
  | take hlooks =>
    refine ⟨hes, ?_⟩
    generalize s.exchange.param = q
    generalize s.worker = w at hlooks hw
    cases hlooks with
    | init | thread => cases q <;> trivial
    | loop => cases q <;> first | exact hw | trivial
  | answer | clear => exact ⟨hes, hw⟩
  | finish hreply =>
    rename_i hr next x _
    rw [hreply] at hw
    cases next with
    | poll => exact ⟨hes, hw⟩
    | _ => exact ⟨hes, trivial⟩
  | destroy => exact ⟨hes, trivial⟩
  | start => exact ⟨hes, rfl⟩
  | play hplays => exact hplays.events hes hw

theorem InOrder.step (s : SourceStream) (a : StreamAction) (t : SourceStream) (_ : s.Agrees)
    (hs : s.InOrder) (hstep : Stepped s a t) : t.InOrder := by
  cases hstep with
  | work hw => exact hw.inOrder hs
  | called _ hc =>
    obtain ⟨hworker, -, hevents⟩ := hc.frame
    unfold InOrder
    rw [hworker, hevents]
    exact hs
  | created => exact ⟨hs.1, trivial⟩
  | _ => exact hs

/-- **After OnThreadStartPlay come samples, then at most one end of stream, then nothing**
    but the report of the error that ended the stream. -/
theorem events_orderly (pin : SourceOutputPin) (dwParam : Command) (dwReturnVal : HRESULT)
    (as : List StreamAction) :
    Transition.Always step (fun s => Orderly s.events) (new pin dwParam dwReturnVal) as :=
  always_of_agrees_and (I := InOrder) (fun _ _ hs => hs.1) InOrder.step pin dwParam dwReturnVal
    ⟨trivial, trivial⟩ as

end

end SourceStream

end VirtualCaptureStream
