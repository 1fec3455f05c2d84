import VirtualCaptureStream.LinkFidelity
import VirtualCaptureStream.SourceStop

/- Both processes with all their threads: the sink's pin, the data pipe, and the source's
   pin with its worker and the thread that is in Active or Inactive. FillBuffer's ReadFile
   gets what waits in the pipe, and waits itself while nothing does and the pipe is open;
   nothing but the sink can end that wait.

   What is proved:
     1. `step_stream` — the source's side is `SourceStream`, with the pipe's answers.
     2. `stop_waits_for_sink` — Inactive, from the signal of CMD_STOP on: the source's
        threads are stuck exactly while the worker waits in ReadFile, as long as the pipe
        stays empty and open; otherwise they take 28 steps at most, two reads among them.
     3. `stop_hangs` — with a sink that has nothing to send, this lasts forever.

   Correspondence (C++ ↔ Lean):
     the source pin's worker and its calls       ↔ `stream`
     the sink's pin and its other clients        ↔ `sink`, as in `Link`
     FillBuffer's DisconnectPipe                 ↔ `disconnectPipe`
     its ConnectToSinkPin                        ↔ `connectToSinkPin`
     its two ReadFile calls                      ↔ `readHeader`, `readPayload` -/
namespace VirtualCaptureStream

namespace WorkerPc

/-- The FillBuffer call that is about to read its payload. -/
def filling? : WorkerPc → Option Filling
  | .readPayload m n hr => some ⟨m, n, hr, true⟩
  | _ => Option.none

/-- The sample FillBuffer has just returned with S_OK. -/
def returned : WorkerPc → List MediaSample
  | .filled m hr => if hr = S_OK then [m] else []
  | _ => []

end WorkerPc

/-- The samples delivered since OnThreadStartPlay, oldest first. -/
def samplesSince : List StreamEvent → List MediaSample
  | .deliver m :: es => samplesSince es ++ [m]
  | .endOfStream :: es | .error _ :: es => samplesSince es
  | .start :: _ | [] => []

/-- `bufferSize`: of the allocator the pin has for its connection. -/
structure LinkThreads where
  sink : SinkSystem
  stream : SourceStream
  client : Option Nat
  unread : List (Sent × Msg)
  bufferSize : Nat
  received : List MediaSample

/-- `stream`: a step of the source that leaves the pipe alone. -/
inductive ThreadsAction where
  | sink (a : SinkSystem.SinkAction)
  | stream (a : StreamAction)
  | disconnectPipe
  | connectToSinkPin (opened modeSet : Bool)
  | readHeader (setters : SourceOutputPin.SetterResults)
  | readPayload

namespace LinkThreads

open SourceOutputPin (readTagged)

/-- The source's pin as the sink's counterpart. -/
def link (s : LinkThreads) : Link where
  sink := s.sink
  pin := s.stream.pin
  client := s.client
  unread := s.unread
  bufferSize := some s.bufferSize
  filling := s.stream.worker.filling?
  received := s.received
  filled := samplesSince s.stream.events ++ s.stream.worker.returned

/-- The source's worker has not begun. -/
def new (l : Link) (bufferSize : Nat) (dwParam : Command) (dwReturnVal : HRESULT) : LinkThreads where
  sink := l.sink
  stream := .new l.pin dwParam dwReturnVal
  client := l.client
  unread := l.unread
  bufferSize := bufferSize
  received := l.received

/-- The step leaves the pipe alone. Samples are of the allocator's size. -/
def leavesPipe (s : LinkThreads) : StreamAction → Bool
  | .work input =>
    match s.stream.worker, input with
    | .fill _, _ => s.stream.pin.bRunning
    | .connect _, _ | .readHeader _, _ | .readPayload _ _ _, _ => false
    | _, .buffer (some m) => m.getSize = s.bufferSize
    | _, _ => true
  | _ => true

/-- ReadFile, which has to wait for a message while the pipe is open. -/
def read (s : LinkThreads) (n : Nat) (input : ReadResult → WorkerInput) : Option LinkThreads :=
  if s.link.blocked then none
  else (s.stream.work (input (readTagged n s.unread).1)).map fun t =>
    { s with stream := t, unread := (readTagged n s.unread).2 }

/-- What CreateFile and SetNamedPipeHandleState do in ConnectToSinkPin. -/
def opening (s : LinkThreads) (opened modeSet : Bool) : SourceOutputPin.ConnectEnv :=
  ⟨[if opened then .opened s.sink.logs.length else .error], modeSet⟩

def step (s : LinkThreads) : ThreadsAction → Option LinkThreads
  | .sink a => (s.link.sinkStep a).map fun l =>
    { s with sink := l.sink, unread := l.unread, received := l.received }
  | .stream a =>
    if s.leavesPipe a then (s.stream.step a).map fun t => { s with stream := t } else none
  | .disconnectPipe =>
    match s.stream.worker, s.stream.pin.bRunning with
    | .fill _, false => (s.stream.work .go).map fun t =>
      { s with stream := t, sink := s.link.detach.sink, client := none, unread := [] }
    | _, _ => none
  | .connectToSinkPin opened modeSet =>
    match s.stream.worker with
    | .connect _ => (s.link.connectStep opened modeSet).bind fun l =>
      (s.stream.work (.connected (s.opening opened modeSet))).map fun t =>
        { s with stream := t, sink := l.sink, client := l.client, unread := l.unread }
    | _ => none
  | .readHeader setters =>
    match s.stream.worker with
    | .readHeader _ => s.read sizeofMediaSampleInfo fun r => .header r setters
    | _ => none
  | .readPayload =>
    match s.stream.worker with
    | .readPayload _ n _ => s.read n .payload
    | _ => none

/-- A step of the source's worker, or of the thread that is in Active or Inactive. -/
def ofSource : ThreadsAction → Bool
  | .sink _ => false
  | .stream a => SourceStream.ofThreads a
  | _ => true

section
variable {s t : LinkThreads}

/-! The source's side. -/

theorem read_stream {n : Nat} {input : ReadResult → WorkerInput} (h : s.read n input = some t) :
    ¬ s.link.blocked ∧ ∃ u, s.stream.step (.work (input (readTagged n s.unread).1)) = some u ∧
      t = { s with stream := u, unread := (readTagged n s.unread).2 } := by
  unfold read at h
  rw [Option.ite_none_left_eq_some] at h
  obtain ⟨hopen, h⟩ := h
  obtain ⟨u, hu, rfl⟩ := Option.map_eq_some_iff.mp h
  exact ⟨hopen, u, hu, rfl⟩

/-- **The source's side is the pin with its threads**: a step of theirs is one with the
    answer that the pipe gives, and no step of the sink is. -/
theorem step_stream {a : ThreadsAction} (h : s.step a = some t) :
    (∃ b, s.stream.step b = some t.stream ∧ SourceStream.ofThreads b = ofSource a) ∨
      (ofSource a = false ∧ t.stream = s.stream) := by
  cases a with
  | sink a =>
    obtain ⟨l, -, rfl⟩ := Option.map_eq_some_iff.mp h
    exact Or.inr ⟨rfl, rfl⟩
  | stream a =>
    simp only [step, Option.ite_none_right_eq_some] at h
    obtain ⟨u, hu, rfl⟩ := Option.map_eq_some_iff.mp h.2
    exact Or.inl ⟨a, hu, rfl⟩
  | disconnectPipe =>
    simp only [step] at h
    split at h
    · obtain ⟨u, hu, rfl⟩ := Option.map_eq_some_iff.mp h
      exact Or.inl ⟨.work .go, hu, rfl⟩
    · cases h
  | connectToSinkPin opened modeSet =>
    simp only [step] at h
    split at h
    · obtain ⟨l, -, h⟩ := Option.bind_eq_some_iff.mp h
      obtain ⟨u, hu, rfl⟩ := Option.map_eq_some_iff.mp h
      exact Or.inl ⟨.work _, hu, rfl⟩
    · cases h
  | readHeader setters =>
    simp only [step] at h
    split at h
    · obtain ⟨-, u, hu, rfl⟩ := read_stream h
      exact Or.inl ⟨.work _, hu, rfl⟩
    · cases h
  | readPayload =>
    simp only [step] at h
    split at h
    · obtain ⟨-, u, hu, rfl⟩ := read_stream h
      exact Or.inl ⟨.work _, hu, rfl⟩
    · cases h

/-- The two threads of the source agree, with whatever the sink does. -/
theorem agrees_step (s : LinkThreads) (a : ThreadsAction) (t : LinkThreads)
    (h : s.stream.Agrees) (hstep : s.step a = some t) : t.stream.Agrees := by
  rcases step_stream hstep with ⟨b, hb, -⟩ | ⟨-, heq⟩
  · exact SourceStream.Agrees.step s.stream b t.stream h hb
  · rw [heq]
    exact h

end

/-! Inactive, and a worker in ReadFile. -/

/-- The worker is in ReadFile, which waits for the sink. -/
def Waits (s : LinkThreads) : Prop :=
  ((∃ m, s.stream.worker = .readHeader m) ∨ ∃ m n hr, s.stream.worker = .readPayload m n hr) ∧
    s.link.blocked

/-- A ReadFile call that returns. -/
def reads : ThreadsAction → Bool
  | .readHeader _ | .readPayload => true
  | _ => false

/-- The reads that are left when CMD_STOP is there to be found: two for a worker that is not
    past its header. -/
def readRank (w : WorkerPc) : Nat := min 2 (SourceStream.distance w - 5)

section
variable {s t : LinkThreads}

/-- A worker that has not seen CMD_STOP finds it there. -/
theorem pending_of_live {u : SourceStream} (hs : u.Ending) (h : u.Agrees)
    (hlive : SourceStream.live u.worker = true) (hne : u.worker ≠ .command) :
    u.client = .call .stop ∧ (∃ j, u.exchange.caller = some (j, .signalled .stop)) ∧
      u.exchange.send = true := by
  have hno : ∀ {w}, SourceStream.live w = false → u.worker ≠ w := by
    rintro w hw rfl
    rw [hlive] at hw
    cases hw
  cases hs.cases h with
  | stop hclient hc hserves =>
    cases hserves with
    | passed _ _ _ hp => exact absurd hp hne
    | replying _ _ hp => exact absurd hp (hno rfl)
    | done _ _ _ ha => exact absurd ha hne
    | unseen hunseen =>
      refine ⟨hclient, ?_, (SourceStream.unseen_pending hunseen hc).1⟩
      rcases hc with hc | hc
      · exact ⟨_, hc⟩
      · rcases hunseen with hc' | ⟨i, hc' | hc' | ⟨hc', -⟩⟩ <;> rw [hc] at hc' <;> cases hc'
  | exit hclient hserves =>
    cases hserves with
    | unseen _ _ hb => exact absurd hb hne
    | passed _ _ hstop => cases hstop
    | replying _ _ hp => exact absurd hp (hno rfl)
    | done _ _ _ ha => rcases ha with ha | ha <;> exact absurd ha (hno rfl)
  | rest hclient hrests =>
    rcases hrests.worker with ha | ha <;> exact absurd ha (hno rfl)

/-- Meanwhile the calling thread waits. -/
theorem clientStep_of_live {u : SourceStream} (hs : u.Ending) (h : u.Agrees)
    (hlive : SourceStream.live u.worker = true) (hne : u.worker ≠ .command) :
    u.clientStep = none := by
  obtain ⟨hclient, ⟨j, hc⟩, hsend⟩ := pending_of_live hs h hlive hne
  -- the worker has not replied, so the event is not set
  have hnone : Rendezvous.step u.exchange .wake = none := by
    by_contra hsome
    obtain ⟨x, hx⟩ := Option.ne_none_iff_exists'.mp hsome
    obtain ⟨-, -, -, -, hno, -⟩ := h.sound.wake_cases hx
    rw [hsend] at hno
    cases hno
  simp only [SourceStream.clientStep, hclient, SourceStream.callWorker, hc, hnone, Option.map_none]

/-- Neither thread of the source has a step. -/
theorem Waits.stuck (hw : s.Waits) (hs : s.stream.Ending) (h : s.stream.Agrees) {a : ThreadsAction}
    (ha : ofSource a = true) : s.step a = none := by
  obtain ⟨hworker, hblocked⟩ := hw
  have hlive : SourceStream.live s.stream.worker = true := by
    rcases hworker with ⟨m, hm⟩ | ⟨m, n, hr, hm⟩ <;> rw [hm] <;> rfl
  have hne : s.stream.worker ≠ .command := by
    rcases hworker with ⟨m, hm⟩ | ⟨m, n, hr, hm⟩ <;> rw [hm] <;> exact fun e => by cases e
  cases a with
  | sink a => cases ha
  | stream a =>
    cases a with
    | client =>
      have hclient := clientStep_of_live hs h hlive hne
      simp only [step, SourceStream.step, hclient, Option.map_none, ite_self]
    | work input =>
      have hpipe : s.leavesPipe (.work input) = false := by
        rcases hworker with ⟨m, hm⟩ | ⟨m, n, hr, hm⟩ <;> simp only [leavesPipe, hm]
      simp only [step, hpipe, Bool.false_eq_true, if_false]
    | active | inactive | allocator | createThread | stop | reset => cases ha
  | disconnectPipe | connectToSinkPin =>
    rcases hworker with ⟨m, hm⟩ | ⟨m, n, hr, hm⟩ <;> simp only [step, hm]
  | readHeader setters =>
    rcases hworker with ⟨m, hm⟩ | ⟨m, n, hr, hm⟩ <;> simp only [step, hm, read, if_pos hblocked]
  | readPayload =>
    rcases hworker with ⟨m, hm⟩ | ⟨m, n, hr, hm⟩ <;> simp only [step, hm, read, if_pos hblocked]

/-- A worker that has a step to make has it here too, unless it waits. -/
theorem work_goes_on {input : WorkerInput} {u : SourceStream} (hu : s.stream.work input = some u)
    (hw : ¬ s.Waits) : ∃ a t, ofSource a = true ∧ s.step a = some t := by
  have byStream : s.leavesPipe (.work input) = true →
      ∃ a t, ofSource a = true ∧ s.step a = some t := by
    intro hpipe
    refine ⟨.stream (.work input), { s with stream := u }, rfl, ?_⟩
    simp only [step, if_pos hpipe, SourceStream.step, hu, Option.map_some]
  cases hworker : s.stream.worker with
  | fill m =>
    cases hrun : s.stream.pin.bRunning with
    | true => exact byStream (by simp only [leavesPipe, hworker, hrun])
    | false =>
      obtain ⟨v, hv⟩ : ∃ v, s.stream.work .go = some v :=
        ⟨_, by simp only [SourceStream.work, hworker, SourceStream.fillStep, hrun]; rfl⟩
      exact ⟨.disconnectPipe, _, rfl, by simp only [step, hworker, hrun, hv]; rfl⟩
  | connect m =>
    obtain ⟨l, hl⟩ : ∃ l, s.link.connectStep false false = some l := ⟨_, rfl⟩
    obtain ⟨v, hv⟩ : ∃ v, s.stream.work (.connected (s.opening false false)) = some v :=
      ⟨_, by simp only [SourceStream.work, hworker, SourceStream.fillStep]; rfl⟩
    exact ⟨.connectToSinkPin false false, _, rfl, by simp only [step, hworker, hl, hv]; rfl⟩
  | readHeader m =>
    have hopen : ¬ s.link.blocked := fun hb => hw ⟨Or.inl ⟨m, hworker⟩, hb⟩
    obtain ⟨v, hv⟩ : ∃ v, s.stream.work (.header (readTagged sizeofMediaSampleInfo s.unread).1
        .allOk) = some v := by
      simp only [SourceStream.work, hworker, SourceStream.fillStep]
      split
      · exact ⟨_, rfl⟩
      · split <;> exact ⟨_, rfl⟩
    exact ⟨.readHeader .allOk, _, rfl, by simp only [step, hworker, read, if_neg hopen, hv]; rfl⟩
  | readPayload m n hr =>
    have hopen : ¬ s.link.blocked := fun hb => hw ⟨Or.inr ⟨m, n, hr, hworker⟩, hb⟩
    obtain ⟨v, hv⟩ : ∃ v, s.stream.work (.payload (readTagged n s.unread).1) = some v :=
      ⟨_, by simp only [SourceStream.work, hworker, SourceStream.fillStep]; rfl⟩
    exact ⟨.readPayload, _, rfl, by simp only [step, hworker, read, if_neg hopen, hv]; rfl⟩
  | getBuffer =>
    obtain ⟨v, hv⟩ : ∃ v, s.stream.work (.buffer none) = some v :=
      ⟨_, by simp only [SourceStream.work, hworker]; rfl⟩
    refine ⟨.stream (.work (.buffer none)), { s with stream := v }, rfl, ?_⟩
    simp only [step, leavesPipe, hworker, if_true, SourceStream.step, hv, Option.map_some]
  | none | awaitInit | command | reply | startPlay | poll | filled | deliver | release
  | endOfStream | notify | destroy =>
    apply byStream
    cases input with
    | buffer m =>
      cases m with
      | none => simp only [leavesPipe, hworker]
      | some m =>
        simp only [SourceStream.work, hworker, SourceStream.fillStep, Option.map_none] at hu
        cases hu
    | _ => simp only [leavesPipe, hworker]

/-- **The source is stuck exactly while its worker waits for the sink.** -/
theorem stuck_iff (hs : s.stream.Ending) (h : s.stream.Agrees) :
    (∀ a, ofSource a = true → s.step a = none) ↔ s.Waits := by
  constructor
  · intro hstuck
    by_contra hw
    have hgoes : ∃ a t, ofSource a = true ∧ s.step a = some t := by
      obtain ⟨b, u, hb, hu⟩ := hs.goes_on h
      cases b with
      | work input => exact work_goes_on hu hw
      | client =>
        refine ⟨.stream .client, { s with stream := u }, rfl, ?_⟩
        simp only [step, leavesPipe, if_true, hu, Option.map_some]
      | active | inactive | allocator | createThread | stop | reset => cases hb
    obtain ⟨a, t, ha, ht⟩ := hgoes
    rw [hstuck a ha] at ht
    cases ht
  · exact fun hw a ha => hw.stuck hs h ha

theorem readRank_eq_zero {w : WorkerPc} (h : SourceStream.distance w ≤ 5) : readRank w = 0 := by
  unfold readRank
  omega

/-- A worker that will find CMD_STOP does not come to more reads. -/
theorem readRank_worked {u v : SourceStream} (hs : u.Ending) (h : u.Agrees)
    (hstep : SourceStream.Worked u v) : readRank v.worker ≤ readRank u.worker := by
  have zero : SourceStream.distance v.worker ≤ 5 → readRank v.worker ≤ readRank u.worker := by
    intro hv
    rw [readRank_eq_zero hv]
    exact Nat.zero_le _
  cases hstep with
  | take hw hx =>
    apply zero
    generalize u.worker = w at hw
    cases hw <;> cases u.exchange.param <;> exact Nat.zero_le _
  | answer | clear => exact Nat.le_refl _
  | @finish hr next x hw =>
    apply zero
    cases next <;> simp [AfterReply.pc, SourceStream.distance]
  | destroy => exact zero (Nat.zero_le _)
  | start => exact zero (by simp [SourceStream.distance])
  | @play p w es hw hrun hsend =>
    by_cases hpoll : u.worker = .poll
    · obtain ⟨-, -, hpending⟩ := pending_of_live hs h (by rw [hpoll]; rfl)
        (by rw [hpoll]; exact fun e => by cases e)
      rw [hsend hpoll] at hpending
      cases hpending
    · have hlt := hw.distance_lt hpoll
      simp only [readRank]
      omega

/-- A read brings the worker on. -/
theorem distance_read {n : Nat} {input : ReadResult → WorkerInput} (h : s.read n input = some t)
    (hw : (∃ m, s.stream.worker = .readHeader m) ∨ ∃ m n hr, s.stream.worker = .readPayload m n hr) :
    SourceStream.distance t.stream.worker < SourceStream.distance s.stream.worker := by
  obtain ⟨-, u, hu, rfl⟩ := read_stream h
  cases SourceStream.work_cases hu with
  | take hlooks => rcases hw with ⟨m, hm⟩ | ⟨m, n, hr, hm⟩ <;> rw [hm] at hlooks <;> cases hlooks
  | answer hr' | clear hr' | finish hr' =>
    rcases hw with ⟨m, hm⟩ | ⟨m, n, hr, hm⟩ <;> rw [hm] at hr' <;> cases hr'
  | destroy hd | start hd =>
    rcases hw with ⟨m, hm⟩ | ⟨m, n, hr, hm⟩ <;> rw [hm] at hd <;> cases hd
  | play hplays =>
    refine hplays.distance_lt ?_
    rcases hw with ⟨m, hm⟩ | ⟨m, n, hr, hm⟩ <;> rw [hm] <;> exact fun e => by cases e

/-- After a read fewer are left. -/
theorem readRank_read {n : Nat} {input : ReadResult → WorkerInput} (h : s.read n input = some t)
    (hw : (∃ m, s.stream.worker = .readHeader m) ∨ ∃ m n hr, s.stream.worker = .readPayload m n hr) :
    readRank t.stream.worker + 1 ≤ readRank s.stream.worker := by
  have hlt := distance_read h hw
  rcases hw with ⟨m, hm⟩ | ⟨m, n, hr, hm⟩ <;> rw [hm] at hlt ⊢ <;>
    simp only [readRank, SourceStream.distance] at hlt ⊢ <;> omega

/-- A step that is not the two threads' leaves them where they are, Inactive being on its
    way. -/
theorem frame_of_other {u v : SourceStream} {b : StreamAction} (hs : u.Ending) (h : u.Agrees)
    (hb : SourceStream.ofThreads b = false) (hstep : u.step b = some v) :
    v.worker = u.worker ∧ v.client = u.client ∧ v.Ending := by
  cases SourceStream.step_cases h hstep with
  | work | called | close | join => cases hb
  | active hclient | inactive hclient | committed hclient | stopping hclient | no_thread hclient
  | not_created hclient | created hclient =>
    unfold SourceStream.Ending at hs
    simp only [hclient] at hs
  | refused hclient =>
    unfold SourceStream.Ending at hs
    rcases hclient with hclient | hclient <;> simp only [hclient] at hs
  | stop | reset => exact ⟨rfl, rfl, hs⟩

theorem worker_of_client {u v : SourceStream} (h : u.Agrees) (hstep : u.step .client = some v) :
    v.worker = u.worker := by
  cases SourceStream.step_cases h hstep with
  | called _ hcalled => exact hcalled.frame.1
  | close | join => rfl

theorem readRank_step {a : ThreadsAction} (hs : s.stream.Ending) (h : s.stream.Agrees)
    (hstep : s.step a = some t) :
    readRank t.stream.worker + (if reads a then 1 else 0) ≤ readRank s.stream.worker := by
  have other : reads a = false →
      readRank t.stream.worker + (if reads a then 1 else 0) ≤ readRank s.stream.worker := by
    intro ha
    rw [ha, if_neg (fun e => by cases e), Nat.add_zero]
    rcases step_stream hstep with ⟨b, hb, -⟩ | ⟨-, heq⟩
    · cases hown : SourceStream.ofThreads b with
      | false => rw [(frame_of_other hs h hown hb).1]
      | true =>
        cases b with
        | work input => exact readRank_worked hs h (SourceStream.work_cases hb)
        | client =>
          rw [worker_of_client h hb]
        | active | inactive | allocator | createThread | stop | reset => cases hown
    · rw [heq]
  cases a with
  | sink a | stream a | disconnectPipe | connectToSinkPin => exact other rfl
  | readHeader setters =>
    simp only [step] at hstep
    split at hstep
    · rename_i m hm
      exact readRank_read hstep (Or.inl ⟨m, hm⟩)
    · cases hstep
  | readPayload =>
    simp only [step] at hstep
    split at hstep
    · rename_i m n hr hm
      exact readRank_read hstep (Or.inr ⟨m, n, hr, hm⟩)
    · cases hstep

/-- Each step of the two threads lowers the rank. -/
theorem endRank_step {a : ThreadsAction} (hs : s.stream.Ending) (h : s.stream.Agrees)
    (ht : t.stream.Ending) (hstep : s.step a = some t) :
    t.stream.endRank + (if ofSource a then 1 else 0) ≤ s.stream.endRank := by
  rcases step_stream hstep with ⟨b, hb, hown⟩ | ⟨hown, heq⟩
  · rw [← hown]
    exact (SourceStream.step_cases h hb).endRank_le h hs ht
  · rw [hown, heq]
    exact Nat.le_refl _

/-- Nor do the sink's steps move the source's threads, as long as the pipe stays empty and
    open. -/
theorem Waits.held (hw : s.Waits) (hs : s.stream.Ending) (h : s.stream.Agrees)
    {as : List ThreadsAction} (hrun : Transition.run step s as = some t)
    (hempty : Transition.Always step (fun s => s.link.blocked) s as) :
    t.stream.worker = s.stream.worker ∧ t.stream.client = s.stream.client := by
  induction as generalizing s with
  | nil =>
    obtain rfl := Option.some.inj hrun
    exact ⟨rfl, rfl⟩
  | cons a as ih =>
    obtain ⟨u, hu, hrun⟩ := Transition.run_cons.mp hrun
    have hframe : u.stream.worker = s.stream.worker ∧ u.stream.client = s.stream.client ∧
        u.stream.Ending := by
      cases hown : ofSource a with
      | true =>
        rw [hw.stuck hs h hown] at hu
        cases hu
      | false =>
        rcases step_stream hu with ⟨b, hb, hthreads⟩ | ⟨-, heq⟩
        · exact frame_of_other hs h (hthreads.trans hown) hb
        · rw [heq]
          exact ⟨rfl, rfl, hs⟩
    obtain ⟨hworker, hclient, hends⟩ := hframe
    have hnext : u.Waits := ⟨by rw [hworker]; exact hw.1, (hempty.2 u hu).head⟩
    obtain ⟨hworker', hclient'⟩ := ih hnext hends (agrees_step s a u h hu) hrun (hempty.2 u hu)
    exact ⟨hworker'.trans hworker, hclient'.trans hclient⟩

/-- While Inactive is on its way the two threads take 28 steps at most. -/
theorem countP_ofSource {as : List ThreadsAction} (h : s.stream.Agrees)
    (hrun : Transition.run step s as = some t)
    (hends : Transition.Always step (fun s => s.stream.Ending) s as) :
    as.countP ofSource ≤ 28 := by
  have hsteps := Transition.countP_le_of_rank (fun s => s.stream.endRank) ofSource
    (fun s a t hs hstep ht => endRank_step hs.1 hs.2 ht.1 hstep) as s t
    (hends.and_invariant agrees_step h) hrun
  exact (Nat.le_add_left _ _).trans (hsteps.trans s.stream.endRank_le)

/-- Two of them are reads. -/
theorem countP_reads {as : List ThreadsAction} (h : s.stream.Agrees)
    (hrun : Transition.run step s as = some t)
    (hends : Transition.Always step (fun s => s.stream.Ending) s as) : as.countP reads ≤ 2 := by
  have hrank : ∀ (s : LinkThreads) (a : ThreadsAction) (t : LinkThreads),
      s.stream.Ending ∧ s.stream.Agrees → s.step a = some t → t.stream.Ending ∧ t.stream.Agrees →
      readRank t.stream.worker + (if reads a then 1 else 0) ≤ readRank s.stream.worker :=
    fun s a t hs hstep _ => readRank_step hs.1 hs.2 hstep
  have hreads := Transition.countP_le_of_rank (fun s => readRank s.stream.worker) reads hrank as s t
    (hends.and_invariant agrees_step h) hrun
  exact (Nat.le_add_left _ _).trans (hreads.trans (Nat.min_le_left _ _))

/-- Inactive from the signal of CMD_STOP on. -/
structure Stops (s : LinkThreads) : Prop where
  stuck_iff : (∀ a, ofSource a = true → s.step a = none) ↔ s.Waits
  held : s.Waits → ∀ as t, Transition.run step s as = some t →
    Transition.Always step (fun s => s.link.blocked) s as →
    t.stream.worker = s.stream.worker ∧ t.stream.client = s.stream.client
  bounded : ∀ as t, Transition.run step s as = some t →
    Transition.Always step (fun s => s.stream.Ending) s as →
    as.countP ofSource ≤ 28 ∧ as.countP reads ≤ 2

/-- What the two threads agree on holds at every point of every run. -/
theorem always_of_agrees {P : LinkThreads → Prop} (hP : ∀ s, s.stream.Agrees → P s) (l : Link)
    (bufferSize : Nat) (dwParam : Command) (dwReturnVal : HRESULT) (as : List ThreadsAction) :
    Transition.Always step P (new l bufferSize dwParam dwReturnVal) as :=
  Transition.always_of_invariant (I := fun s => s.stream.Agrees) hP agrees_step as _
    (SourceStream.agrees_new l.pin dwParam dwReturnVal)

/-- **Inactive waits for the sink, and for nothing else**: once CMD_STOP is signalled the two
    threads of the source are stuck exactly while FillBuffer waits in ReadFile, and stay
    so until the sink sends a message or closes the pipe; at all other times they go on,
    with 28 steps and two messages from the pipe at most before Inactive is over. -/
theorem stop_waits_for_sink (l : Link) (bufferSize : Nat) (dwParam : Command)
    (dwReturnVal : HRESULT) (as : List ThreadsAction) :
    Transition.Always step (fun s => s.stream.Ending → s.Stops)
      (new l bufferSize dwParam dwReturnVal) as := by
  refine always_of_agrees (fun s h hs => ?_) l bufferSize dwParam dwReturnVal as
  exact ⟨stuck_iff hs h, fun hw bs t hrun hempty => hw.held hs h hrun hempty,
    fun bs t hrun hends => ⟨countP_ofSource h hrun hends, countP_reads h hrun hends⟩⟩

/-! A sink that has nothing to send. -/

/-- The sink serves the source on its pipe, and all it has captured is sent and read. -/
structure Drained (c : Nat) (s : LinkThreads) : Prop where
  serving : Link.Serving c s.sink
  handle : s.sink.pin.hPipe ≠ .null
  client : s.client = some c
  queue : s.sink.core.queue = []
  stage : s.sink.core.stage = .idle
  unread : s.unread = []

/-- The sink captures nothing, and does not end the connection: a Receive does the one, and
    EndOfStream with StopServer the other. -/
def Quiet (_ : LinkThreads) : ThreadsAction → Prop
  | .sink (.receive _ _) | .sink .endOfStream | .sink (.stopServer _) => False
  | _ => True

theorem Drained.blocked {c : Nat} (h : s.Drained c) : s.link.blocked := by
  refine ⟨h.unread, by rw [link, h.client]; rfl, ?_⟩
  rw [link, h.client]
  simp only [SinkSystem.client, h.serving.pipe]

/-- The pipe's handle stays until StopServer clears it. -/
theorem handle_step {u v : SinkSystem} {a : SinkSystem.SinkAction} (h : u.pin.hPipe ≠ .null)
    (ha : s.Quiet (.sink a)) (hstep : u.step a = some v) : v.pin.hPipe ≠ .null := by
  cases a with
  | receive | endOfStream | stopServer => exact ha.elim
  | reset | beginFlush | endFlush =>
    simp only [SinkSystem.step, Option.ite_none_right_eq_some] at hstep
    obtain rfl := Option.some.inj hstep.2
    exact h
  | notifyAllocator a created thread =>
    simp only [SinkSystem.step, Option.ite_none_right_eq_some] at hstep
    obtain rfl := Option.some.inj hstep.2
    rw [SinkSystem.notifyAllocatorStep, if_neg h]
    exact h
  | breakConnect =>
    simp only [SinkSystem.step, Option.ite_none_right_eq_some] at hstep
    obtain ⟨-, hstep⟩ := hstep
    split at hstep <;> obtain rfl := Option.some.inj hstep <;> exact h
  | breakWait timeout =>
    simp only [SinkSystem.step, Option.ite_none_right_eq_some] at hstep
    obtain rfl := Option.some.inj hstep.2
    exact h
  | writer =>
    obtain ⟨pc, -, hstep⟩ := Option.bind_eq_some_iff.mp hstep
    obtain ⟨_, _, _, _, _, rfl⟩ := SinkSystem.writerStep_writes hstep
    exact h
  | listener =>
    obtain ⟨pc, -, hstep⟩ := Option.bind_eq_some_iff.mp hstep
    obtain ⟨_, _, _, _, rfl⟩ := SinkSystem.listenerStep_writes hstep
    exact h
  | clientOpen =>
    simp only [SinkSystem.step, Option.ite_none_right_eq_some] at hstep
    obtain rfl := Option.some.inj hstep.2
    exact h
  | clientClose =>
    obtain ⟨_, -, rfl⟩ := Option.map_eq_some_iff.mp hstep
    exact h

/-- Its threads and its calls send nothing. -/
theorem Drained.sink {c : Nat} {a : SinkSystem.SinkAction} (h : s.Drained c)
    (ha : s.Quiet (.sink a)) (hstep : s.step (.sink a) = some t) : t.Drained c := by
  obtain ⟨l, hl, rfl⟩ := Option.map_eq_some_iff.mp hstep
  obtain ⟨hclose, u, hu, rfl⟩ := Link.sinkStep_cases hl
  have hattached : s.link.Attached := by
    refine ⟨by rw [link, h.client]; rfl, ?_⟩
    rw [link, h.client]
    simp only [SinkSystem.client, h.serving.pipe]
  have hnoclose : a ≠ .clientClose := fun e => hclose e hattached
  have hleaves : Link.LeavesClient s.sink a := by
    cases a with
    | receive | endOfStream | stopServer => exact ha.elim
    | clientClose => exact absurd rfl hnoclose
    | notifyAllocator => exact h.handle
    | _ => trivial
  have hserving := h.serving.step hleaves hu
  have hhandle : u.pin.hPipe ≠ .null := handle_step h.handle ha hu
  obtain ⟨l, hl, happ⟩ := SinkSystem.step_refines h.serving.life hu
  have hstage := h.stage
  have hcore : u.core = s.sink.core := by
    cases l with
    | quiet => exact (Option.some.inj happ).symm
    | attach =>
      rcases hl with rfl | ⟨_, rfl⟩
      · -- nobody can open the pipe that the source has
        simp only [SinkSystem.step, Option.ite_none_right_eq_some] at hu
        cases h.serving.pipe.symm.trans hu.1
      · exact ha.elim
    | detach =>
      rcases hl with ⟨_, hno⟩ | ⟨_, rfl⟩ | ⟨_, _, _, rfl, hnull⟩ | rfl
      · rw [h.serving.connected] at hno
        cases hno
      · exact ha.elim
      · exact absurd hnull h.handle
      · exact absurd rfl hnoclose
    | push x =>
      obtain ⟨env, sample, rfl, -⟩ := hl
      exact ha.elim
    | pop =>
      obtain ⟨x, xs, -, hqueue, -⟩ := Core.apply_pop happ
      rw [h.queue] at hqueue
      cases hqueue
    | build r r2 =>
      obtain ⟨x, hheld, -⟩ := Core.apply_build happ
      rw [hstage] at hheld
      cases hheld
    | skip =>
      obtain ⟨x, hheld, -⟩ := Core.apply_skip happ
      rw [hstage] at hheld
      cases hheld
    | head =>
      obtain ⟨x, p, hbuilt, -⟩ := Core.apply_head happ
      rw [hstage] at hbuilt
      cases hbuilt
    | body =>
      obtain ⟨x, p, sentTo, hsent, -⟩ := Core.apply_body happ
      rw [hstage] at hsent
      cases hsent
    | drop =>
      -- a terminated writer has no sample in hand
      rcases Core.apply_drop happ with ⟨x, p, c, hsent, -⟩ | heq
      · rw [hstage] at hsent
        cases hsent
      · rw [heq, ← hstage]
  refine ⟨hserving, hhandle, h.client, by rw [hcore]; exact h.queue, by rw [hcore]; exact hstage, ?_⟩
  have hlogs : u.logs = s.sink.logs := congrArg Core.logs hcore
  show s.link.unreadAfter u = []
  rw [Link.unreadAfter, hserving.pipe, if_neg (by simp), hlogs]
  simp only [link, h.unread, Link.arrived_self, List.map_nil, List.append_nil]

/-- Whatever the steps of others are, the worker goes on waiting. -/
theorem Drained.step {c : Nat} {a : ThreadsAction} (h : s.Drained c) (hw : s.Waits)
    (hs : s.stream.Ending) (hagrees : s.stream.Agrees) (ha : s.Quiet a) (hstep : s.step a = some t) :
    t.Drained c ∧ t.Waits ∧ t.stream.Ending := by
  have other : ofSource a = false → t.Drained c ∧ t.Waits ∧ t.stream.Ending := by
    intro hown
    have hframe : t.stream.worker = s.stream.worker ∧ t.stream.client = s.stream.client ∧
        t.stream.Ending := by
      rcases step_stream hstep with ⟨b, hb, hthreads⟩ | ⟨-, heq⟩
      · exact frame_of_other hs hagrees (hthreads.trans hown) hb
      · rw [heq]
        exact ⟨rfl, rfl, hs⟩
    have hdrained : t.Drained c := by
      cases a with
      | sink a => exact h.sink ha hstep
      | stream a =>
        simp only [LinkThreads.step, Option.ite_none_right_eq_some] at hstep
        obtain ⟨u, -, rfl⟩ := Option.map_eq_some_iff.mp hstep.2
        exact ⟨h.serving, h.handle, h.client, h.queue, h.stage, h.unread⟩
      | disconnectPipe | connectToSinkPin | readHeader | readPayload => cases hown
    exact ⟨hdrained, ⟨by rw [hframe.1]; exact hw.1, hdrained.blocked⟩, hframe.2.2⟩
  cases hown : ofSource a with
  | true =>
    rw [hw.stuck hs hagrees hown] at hstep
    cases hstep
  | false => exact other hown

end

/-- **Inactive can wait forever**: a worker that is in ReadFile when CMD_STOP comes, with a
    sink that has sent all it has and captures no more, stays there, and Inactive with it,
    in every order of the steps of both processes. -/
theorem stop_hangs (l : Link) (bufferSize : Nat) (dwParam : Command) (dwReturnVal : HRESULT)
    (bs : List ThreadsAction) (s : LinkThreads)
    (hreach : Transition.run step (new l bufferSize dwParam dwReturnVal) bs = some s) (c : Nat)
    (hdrained : s.Drained c) (hends : s.stream.Ending)
    (hreads : (∃ m, s.stream.worker = .readHeader m) ∨ ∃ m n hr, s.stream.worker = .readPayload m n hr)
    (as : List ThreadsAction) (hquiet : Transition.Meets step Quiet s as) :
    Transition.Always step (fun t => t.stream.Ending ∧ ∀ a, ofSource a = true → t.step a = none)
      s as := by
  have hagrees : s.stream.Agrees := Transition.run_invariant agrees_step bs _ s
    (SourceStream.agrees_new l.pin dwParam dwReturnVal) hreach
  refine Transition.always_of_meets
    (I := fun t => t.Drained c ∧ t.Waits ∧ t.stream.Ending ∧ t.stream.Agrees) ?_ ?_ as s
    ⟨hdrained, ⟨hreads, hdrained.blocked⟩, hends, hagrees⟩ hquiet
  · rintro t ⟨-, hw, hs, h⟩
    exact ⟨hs, fun a ha => hw.stuck hs h ha⟩
  · rintro t a u ⟨hd, hw, hs, h⟩ ha hstep
    obtain ⟨hd', hw', hs'⟩ := hd.step hw hs h ha hstep
    exact ⟨hd', hw', hs', agrees_step t a u h hstep⟩

/-- Active, and a first FillBuffer up to its ReadFile. -/
def startSource : List ThreadsAction :=
  let callWorker : List ThreadsAction := List.replicate 3 (.stream .client)
  let answer : List ThreadsAction := List.replicate 4 (.stream (.work .go))
  let returns : List ThreadsAction := List.replicate 2 (.stream .client)
  [.stream .active, .stream (.allocator S_OK), .stream (.createThread true)] ++
    callWorker ++ answer ++ returns ++ callWorker ++ answer ++ returns ++
    [.stream (.work .go), .stream (.work .go), .stream (.work (.buffer (some byteSample))),
      .stream (.work .go)]

/-- Then Stop, and Inactive up to the signal of CMD_STOP. -/
def stopInReadFile : List ThreadsAction :=
  startSource ++ [.stream .stop, .stream .inactive, .stream (.allocator S_OK), .stream .client,
    .stream .client, .stream .client]

set_option maxRecDepth 4000 in
theorem stop_hangs_in_readFile :
    ∃ l s, Transition.run Link.step (Link.new .null 0) Link.connectSource = some l ∧
      Transition.run step (new l 1 .init 0) stopInReadFile = some s ∧
      ∀ as, Transition.Meets step Quiet s as → Transition.Always step
        (fun t => t.stream.Ending ∧ ∀ a, ofSource a = true → t.step a = none) s as := by
  obtain ⟨l, s, hl, hs, hdrained, hends, hreads⟩ : ∃ l s,
      Transition.run Link.step (Link.new .null 0) Link.connectSource = some l ∧
      Transition.run step (new l 1 .init 0) stopInReadFile = some s ∧ s.Drained 0 ∧
      s.stream.Ending ∧ ∃ m, s.stream.worker = .readHeader m := by
    refine ⟨_, _, rfl, rfl, ⟨⟨⟨fun h => ?_, fun h => ?_⟩, rfl, rfl, Nat.zero_lt_one⟩, fun h => ?_, rfl,
      rfl, rfl, rfl⟩, trivial, _, rfl⟩
    · cases h
    · cases h
    · cases h
  exact ⟨l, s, hl, hs, fun as has =>
    stop_hangs l 1 .init 0 _ s hs 0 hdrained hends (Or.inl hreads) as has⟩

end LinkThreads

end VirtualCaptureStream
