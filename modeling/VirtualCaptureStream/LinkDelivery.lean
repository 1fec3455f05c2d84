import VirtualCaptureStream.LinkThreads
import VirtualCaptureStream.SourcePlay

/- From the sink's Receive to the source's Deliver. With the source's own threads beside the
   pipe, `delivered_prefix_of_received` carries the fidelity of an uninterrupted stream to
   what the worker gives the next filter: whatever the worker, Active, Inactive and the
   sink's threads do in between, the samples delivered since OnThreadStartPlay are the
   first of those received. -/
namespace VirtualCaptureStream.LinkThreads

open Transition
open Link (Flow firstStart)
open SourceOutputPin (readTagged)
open SourceStream (Agrees Stepped Worked step_cases work_cases)

/-! The worker's sample. -/

section
variable {u v : SourceStream}

/-- A step leaves the size of the worker's sample, or is GetBuffer's return. -/
theorem size_of_step {b : StreamAction} {n : Nat} (h : u.Agrees) (hstep : u.step b = some v)
    (hget : u.worker = .getBuffer → ∀ m, b = .work (.buffer (some m)) → m.getSize = n)
    (hu : ∀ m, u.worker.sample? = some m → m.getSize = n) :
    ∀ m, v.worker.sample? = some m → m.getSize = n := by
  intro m' hm'
  by_cases halone : SourcePlay.alone u b = true
  · obtain ⟨m, hm, hsize⟩ := (SourcePlay.alone_same h halone hstep).sample m' hm'
    rw [hsize]
    exact hu m hm
  cases b with
  | work input =>
    cases hworker : u.worker with
    | getBuffer =>
      simp only [SourceStream.step, SourceStream.work, hworker] at hstep
      cases input with
      | buffer m =>
        cases m with
        | none =>
          obtain rfl := Option.some.inj hstep
          cases hm'
        | some m =>
          obtain rfl := Option.some.inj hstep
          obtain rfl := Option.some.inj hm'
          exact hget hworker _ rfl
      | _ => cases hstep
    | release next =>
      cases input with
      | go =>
        simp only [SourceStream.step, SourceStream.work, hworker] at hstep
        obtain rfl := Option.some.inj hstep
        cases next <;> cases hm'
      | _ =>
        simp only [SourceStream.step, SourceStream.work, hworker, SourceStream.fillStep] at hstep
        cases hstep
    | _ => simp [SourcePlay.alone, hworker] at halone
  | allocator hr =>
    have hworker : v.worker = u.worker := by
      cases step_cases h hstep <;> rfl
    rw [hworker] at hm'
    exact hu m' hm'
  | _ => exact absurd rfl halone

end

section
variable {s t : LinkThreads} {c cap : Nat}

/-- The worker's sample is the allocator's. -/
def Sized (s : LinkThreads) : Prop :=
  ∀ m, s.stream.worker.sample? = some m → m.getSize = s.bufferSize

theorem sized_read {n : Nat} {input : ReadResult → WorkerInput} (h : s.stream.Agrees)
    (hs : s.Sized) (hne : s.stream.worker ≠ .getBuffer) (hstep : s.read n input = some t) :
    t.Sized := by
  obtain ⟨-, u, hu, rfl⟩ := read_stream hstep
  exact size_of_step h hu (fun e => absurd e hne) hs

theorem sized_step {a : ThreadsAction} (h : s.stream.Agrees) (hs : s.Sized)
    (hstep : s.step a = some t) : t.Sized := by
  cases a with
  | sink a =>
    obtain ⟨l, -, rfl⟩ := Option.map_eq_some_iff.mp hstep
    exact hs
  | stream b =>
    simp only [step, Option.ite_none_right_eq_some] at hstep
    obtain ⟨hpipe, hstep⟩ := hstep
    obtain ⟨u, hu, rfl⟩ := Option.map_eq_some_iff.mp hstep
    refine size_of_step h hu (fun hworker m hb => ?_) hs
    subst hb
    simpa only [leavesPipe, hworker, decide_eq_true_eq] using hpipe
  | disconnectPipe =>
    simp only [step] at hstep
    split at hstep
    · rename_i m hworker _
      obtain ⟨u, hu, rfl⟩ := Option.map_eq_some_iff.mp hstep
      exact size_of_step h (b := .work .go) hu (fun e => by rw [hworker] at e; cases e) hs
    · cases hstep
  | connectToSinkPin opened modeSet =>
    simp only [step] at hstep
    split at hstep
    · rename_i m hworker
      obtain ⟨l, -, hstep⟩ := Option.bind_eq_some_iff.mp hstep
      obtain ⟨u, hu, rfl⟩ := Option.map_eq_some_iff.mp hstep
      exact size_of_step h (b := .work _) hu (fun e => by rw [hworker] at e; cases e) hs
    · cases hstep
  | readHeader setters =>
    simp only [step] at hstep
    split at hstep
    · rename_i m hworker
      exact sized_read h hs (by rw [hworker]; exact fun e => by cases e) hstep
    · cases hstep
  | readPayload =>
    simp only [step] at hstep
    split at hstep
    · rename_i m n hr hworker
      exact sized_read h hs (by rw [hworker]; exact fun e => by cases e) hstep
    · cases hstep

/-! FillBuffer's reads are those of `Link`. -/

/-- What Deliver and FillBuffer's return have together. -/
theorem link_congr {u : SourceStream} (hpin : u.pin = s.stream.pin)
    (hfilling : u.worker.filling? = s.stream.worker.filling?)
    (hfilled : samplesSince u.events ++ u.worker.returned =
      samplesSince s.stream.events ++ s.stream.worker.returned) :
    { s with stream := u }.link = s.link := by
  simp only [link, hpin, hfilling, hfilled]

/-- A command leaves FillBuffer alone. -/
theorem link_of_getRequest {u : SourceStream} {next : Command → WorkerPc}
    (hlooks : SourceStream.Looks s.stream.worker next)
    (h : s.stream.getRequest next = some u) : { s with stream := u }.link = s.link := by
  obtain ⟨x, hx, rfl⟩ := Option.map_eq_some_iff.mp h
  have hnext : ∀ q, (next q).filling? = none ∧ (next q).returned = [] := by
    intro q
    generalize s.stream.worker = w at hlooks
    cases hlooks <;> cases q <;> exact ⟨rfl, rfl⟩
  have hworker : s.stream.worker.filling? = none ∧ s.stream.worker.returned = [] := by
    generalize s.stream.worker = w at hlooks
    cases hlooks <;> exact ⟨rfl, rfl⟩
  refine link_congr rfl ((hnext _).1.trans hworker.1.symm) ?_
  rw [(hnext _).2, hworker.2]

/-- FillBuffer's test of `m_bRunning`. -/
theorem link_of_fillStep {input : WorkerInput} {p : SourceOutputPin} {w : WorkerPc}
    (hpipe : s.leavesPipe (.work input) = true)
    (hfill : SourceStream.fillStep s.stream.pin s.stream.worker input = some (p, w)) :
    { s with stream := { s.stream with pin := p, worker := w } }.link = s.link := by
  cases hw : s.stream.worker with
  | fill m =>
    simp only [leavesPipe, hw] at hpipe
    cases input with
    | go =>
      simp only [hw, SourceStream.fillStep, hpipe, Bool.true_eq_false, if_false] at hfill
      obtain ⟨rfl, rfl⟩ := Prod.mk.inj (Option.some.inj hfill)
      have hnext : ∀ b : Bool, (if b then WorkerPc.readHeader m else .connect m).filling? = none ∧
          (if b then WorkerPc.readHeader m else .connect m).returned = [] := by
        intro b
        cases b <;> exact ⟨rfl, rfl⟩
      refine link_congr rfl ((hnext _).1.trans (by rw [hw]; rfl)) ?_
      dsimp only
      rw [(hnext _).2, hw]
      rfl
    | _ =>
      rw [hw] at hfill
      cases hfill
  | connect m | readHeader m | readPayload m n hr =>
    simp only [leavesPipe, hw] at hpipe
    cases hpipe
  | _ =>
    rw [hw] at hfill
    simp only [SourceStream.fillStep] at hfill
    cases hfill

/-- The worker's steps that leave the pipe alone, but for OnThreadStartPlay. -/
theorem link_of_work {input : WorkerInput} {u : SourceStream}
    (hpipe : s.leavesPipe (.work input) = true) (hstart : s.stream.worker ≠ .startPlay)
    (h : s.stream.work input = some u) : { s with stream := u }.link = s.link ∨
      { s with stream := u }.link = { s.link with pin := s.stream.pin.onThreadDestroy } := by
  unfold SourceStream.work at h
  split at h
  · rename_i hw
    exact Or.inl (link_of_getRequest (hw ▸ .init) h)
  · rename_i hw
    exact Or.inl (link_of_getRequest (hw ▸ .thread) h)
  · rename_i hr next hw
    unfold SourceStream.replyStep at h
    split at h
    · cases h
    · obtain ⟨x, -, rfl⟩ := Option.map_eq_some_iff.mp h
      exact Or.inl rfl
    · obtain ⟨x, -, rfl⟩ := Option.map_eq_some_iff.mp h
      exact Or.inl rfl
    · obtain ⟨x, -, rfl⟩ := Option.map_eq_some_iff.mp h
      refine Or.inl (link_congr rfl ?_ ?_)
      · rw [hw]
        cases next <;> rfl
      · rw [hw]
        cases next <;> rfl
  · rename_i hw
    obtain rfl := Option.some.inj h
    refine Or.inr ?_
    simp only [link, hw]
    rfl
  · rename_i hw
    exact absurd hw hstart
  · rename_i hw
    split at h
    · exact Or.inl (link_of_getRequest (hw ▸ .loop) h)
    · obtain rfl := Option.some.inj h
      exact Or.inl (link_congr rfl (by rw [hw]; rfl) (by rw [hw]; rfl))
  · rename_i hw
    obtain rfl := Option.some.inj h
    exact Or.inl (link_congr rfl (by rw [hw]; rfl) (by rw [hw]; rfl))
  · rename_i m hw
    obtain rfl := Option.some.inj h
    exact Or.inl (link_congr rfl (by rw [hw]; rfl) (by rw [hw]; rfl))
  · rename_i m hr hw
    refine Or.inl ?_
    split at h
    · -- FillBuffer's sample is delivered
      rename_i hok
      obtain rfl := Option.some.inj h
      refine link_congr rfl (by rw [hw]; rfl) ?_
      rw [hw, WorkerPc.returned, if_pos hok]
      exact List.append_nil _
    · rename_i hne
      obtain rfl := Option.some.inj h
      refine link_congr rfl (by rw [hw]; rfl) ?_
      rw [hw, WorkerPc.returned, if_neg hne]
      rfl
  · rename_i m hr hw
    obtain rfl := Option.some.inj h
    exact Or.inl (link_congr rfl (by rw [hw]; rfl) (by rw [hw]; rfl))
  · rename_i next hw
    obtain rfl := Option.some.inj h
    refine Or.inl (link_congr rfl ?_ ?_)
    · rw [hw]
      cases next <;> rfl
    · rw [hw]
      cases next <;> rfl
  · rename_i hr hw
    obtain rfl := Option.some.inj h
    refine Or.inl (link_congr rfl ?_ ?_)
    · rw [hw]
      dsimp only
      split <;> rfl
    · rw [hw]
      dsimp only
      split <;> rfl
  · rename_i hr hw
    obtain rfl := Option.some.inj h
    exact Or.inl (link_congr rfl (by rw [hw]; rfl) (by rw [hw]; rfl))
  · obtain ⟨⟨p, w⟩, hfill, rfl⟩ := Option.map_eq_some_iff.mp h
    exact Or.inl (link_of_fillStep hpipe hfill)

/-- The calling thread leaves FillBuffer and what is delivered alone. -/
theorem link_of_call {b : StreamAction} {u : SourceStream} (h : s.stream.Agrees)
    (hb : ∀ input, b ≠ .work input) (hstop : b ≠ .stop) (hreset : b ≠ .reset)
    (hstep : s.stream.step b = some u) :
    { s with stream := u }.link = s.link ∧
      (∀ m, u.worker = .readHeader m → s.stream.worker = .readHeader m) ∧
      u.pin = s.stream.pin := by
  cases step_cases h hstep with
  | work => exact absurd rfl (hb _)
  | called _ hcalled =>
    obtain ⟨hworker, hpin, hevents⟩ := hcalled.frame
    exact ⟨link_congr hpin (by rw [hworker]) (by rw [hworker, hevents]),
      fun m hm => hworker ▸ hm, hpin⟩
  | created hclient hthread =>
    have hnone := (h.worker.settled (Or.inr (Or.inr (Or.inl hclient)))).worker
    rw [if_neg (by simp [hthread])] at hnone
    exact ⟨link_congr rfl (by rw [hnone]; rfl) (by rw [hnone]; rfl),
      fun m hm => (by cases hm), rfl⟩
  | stop => exact absurd rfl hstop
  | reset => exact absurd rfl hreset
  | _ => exact ⟨rfl, fun m hm => hm, rfl⟩

end

section
variable {s t : LinkThreads} {c cap : Nat}

/-- An uninterrupted stream: the sink's side as in `Link`, and on the source's side all but a
    new start, Stop, Reset, and the pipe's closing and opening. -/
def Streaming (cap : Nat) (s : LinkThreads) : ThreadsAction → Prop
  | .sink a => Link.Streaming cap s.link (.sink a)
  | .stream (.work _) => s.stream.worker ≠ .startPlay
  | .stream .stop | .stream .reset => False
  | .stream _ => True
  | .disconnectPipe | .connectToSinkPin _ _ => False
  | .readHeader setters => setters = .allOk
  | .readPayload => True

/-- The flow of samples from Receive to FillBuffer, with a worker that is in ReadFile only
    while the pin runs. -/
structure Flows (c cap : Nat) (s : LinkThreads) : Prop where
  flow : ∃ w, Flow c cap w s.link
  agrees : s.stream.Agrees
  sized : s.Sized
  running : ∀ m, s.stream.worker = .readHeader m → s.stream.pin.bRunning = true

/-- OnThreadDestroy touches nothing of it. -/
theorem flow_destroyed {w : Places} {l : Link} (h : Flow c cap w l) :
    Flow c cap w { l with pin := l.pin.onThreadDestroy } :=
  ⟨⟨h.streams.serving, h.streams.client, h.streams.connected, h.streams.bufferSize⟩, h.received,
    h.valid, h.sends, ⟨h.fills.filled, h.fills.filling, h.fills.fresh, h.fills.latched⟩⟩

/-- Only from FillBuffer's test, or behind ConnectToSinkPin, does the worker come to
    ReadFile. -/
theorem plays_readHeader {w w' : WorkerPc} {m : MediaSample} {es es' : List StreamEvent}
    (h : SourceStream.Plays w es w' es') (hw' : w' = .readHeader m) :
    (∃ m, w = .fill m) ∨ ∃ m, w = .connect m := by
  cases h with
  | fill hin _ hlt _ =>
    subst hw'
    cases w with
    | fill m => exact Or.inl ⟨m, rfl⟩
    | connect m => exact Or.inr ⟨m, rfl⟩
    | readHeader | readPayload => simp [SourceStream.distance] at hlt
    | _ => cases hin
  | release => rename_i next; cases next <;> cases hw'
  | endOfStream hnext => rcases hnext with rfl | rfl <;> cases hw'
  | _ => cases hw'

/-- It comes there with `m_bRunning` set. -/
theorem running_work {input : WorkerInput} {u : SourceStream}
    (hpipe : s.leavesPipe (.work input) = true) (h : s.stream.work input = some u)
    {m : MediaSample} (hm : u.worker = .readHeader m) : u.pin.bRunning = true := by
  cases work_cases h with
  | @take next x hlooks =>
    have hnext : next s.stream.exchange.param = .readHeader m := hm
    generalize s.stream.exchange.param = q at hnext
    generalize s.stream.worker = w at hlooks
    cases hlooks <;> cases q <;> cases hnext
  | answer hw | clear hw =>
    rw [show s.stream.worker = _ from hm] at hw
    cases hw
  | @finish hr next x hw => cases next <;> cases hm
  | destroy | start => cases hm
  | @play p w es hplays hrun =>
    rw [hrun]
    rcases plays_readHeader hplays hm with ⟨m', hw⟩ | ⟨m', hw⟩
    · simpa only [leavesPipe, hw] using hpipe
    · simp only [leavesPipe, hw] at hpipe
      cases hpipe

theorem Flows.stream {b : StreamAction} (h : s.Flows c cap) (ha : s.Streaming cap (.stream b))
    (hstep : s.step (.stream b) = some t) : t.Flows c cap := by
  obtain ⟨w, hflow⟩ := h.flow
  have hagrees := agrees_step s _ t h.agrees hstep
  have hsized := sized_step h.agrees h.sized hstep
  simp only [step, Option.ite_none_right_eq_some] at hstep
  obtain ⟨hpipe, hstep⟩ := hstep
  obtain ⟨u, hu, rfl⟩ := Option.map_eq_some_iff.mp hstep
  by_cases hwork : ∃ input, b = .work input
  · obtain ⟨input, rfl⟩ := hwork
    refine ⟨?_, hagrees, hsized, fun m hm => running_work hpipe hu hm⟩
    rcases link_of_work hpipe ha hu with heq | heq
    · exact ⟨w, by rw [heq]; exact hflow⟩
    · exact ⟨w, by rw [heq]; exact flow_destroyed hflow⟩
  · have hstop : b ≠ .stop := by
      rintro rfl
      exact ha
    have hreset : b ≠ .reset := by
      rintro rfl
      exact ha
    obtain ⟨heq, hread, hpin⟩ := link_of_call h.agrees (fun i e => hwork ⟨i, e⟩) hstop hreset hu
    refine ⟨⟨w, by rw [heq]; exact hflow⟩, hagrees, hsized, fun m hm => ?_⟩
    rw [show u.pin = _ from hpin]
    exact h.running m (hread m hm)

/-- The samples delivered since OnThreadStartPlay are those received, up to some point: none
    is lost, repeated, merged or out of order, and each is faithful. -/
def Delivers (s : LinkThreads) : Prop := ∃ done, done <+: s.received ∧
  List.Forall₂ (Faithful (firstStart s.received)) done (samplesSince s.stream.events)

theorem Flows.delivers (h : s.Flows c cap) : s.Delivers := by
  obtain ⟨w, hflow⟩ := h.flow
  obtain ⟨done, hdone, hfaithful⟩ := hflow.delivers
  exact ⟨done.take (samplesSince s.stream.events).length, (List.take_prefix _ _).trans hdone,
    List.forall₂_take_append _ _ _ hfaithful⟩

/-- The source has attached, nothing is on its way, and the worker, if it is in ReadFile
    already, has found the pin running. -/
structure Ready (c cap : Nat) (s : LinkThreads) : Prop where
  link : Link.Ready c cap s.link
  running : ∀ m, s.stream.worker = .readHeader m → s.stream.pin.bRunning = true

end

/-- A sample with data comes from Receive to FillBuffer's return. -/
def fillByte : List ThreadsAction :=
  .sink (.receive SinkSystem.streaming byteSample) :: List.replicate 8 (.sink .writer) ++
    [.readHeader .allOk, .readPayload]

end VirtualCaptureStream.LinkThreads
