import Mathlib.Data.List.Forall2
import VirtualCaptureStream.Link

/- Fidelity of a stream that is not interrupted. While the source stays attached and
   nothing is reset, a received sample is in one of five places: filled, in the hand
   of FillBuffer, in the pipe, in the writer's hand or in the write buffer. `Flow`
   says that these five, in this order, are what Receive was called with, and what
   every place knows of the sample; every step moves a sample from one place to the
   next. `filled_prefix_of_received` follows, with a media end that is cut to a LONG
   behind the media start (`far_media_end_cut`), and for two pins side by side
   `start_differences_kept_iff`: the start times of the two streams keep their
   difference exactly when the streams began at the same time. -/
namespace VirtualCaptureStream

open Transition

namespace MediaSample

/-- The sample has times and media times, and no more data than `cap`. -/
structure Valid (cap : Nat) (o : MediaSample) : Prop where
  time : ∃ start stop, o.time = .startStop start stop
  mediaTime : ∃ start stop, o.mediaTime = some (start, stop)
  fits : o.actualDataLength ≤ cap

/-- GetTime's start time. -/
def start (o : MediaSample) : Int64 := (o.getTime (0, 0)).1

end MediaSample

/-! What each place knows of a sample. -/

/-- The capture has everything of the original. -/
structure Captures (o : MediaSample) (x : MediaSampleX) : Prop where
  length : x.actualDataLength = Int32.ofNat o.actualDataLength
  data : x.buffer = o.data
  time : o.time = .startStop x.timeStart x.timeEnd
  mediaTime : o.mediaTime = some (x.mediaTimeStart, x.mediaTimeEnd)
  sync : x.isSyncPoint = o.isSyncPoint

/-- The two messages have everything of the original. -/
structure Carries (o : MediaSample) (p : Packet) : Prop where
  length : p.info.actualDataLength = Int32.ofNat o.actualDataLength
  data : p.payload = o.data
  time : o.time = .startStop p.info.timeStart p.info.timeEnd
  mediaTime : o.mediaTime = some (p.info.mediaTimeStart, p.info.mediaTimeEnd)
  sync : decide (p.info.isSyncPoint ≠ 0) = o.isSyncPoint

/-- The media times of a sample are as far apart as a LONG can say. -/
def MediaSample.MediaFits (o : MediaSample) : Prop :=
  ∀ start stop, o.mediaTime = some (start, stop) →
    -2147483648 ≤ (stop - start).toInt ∧ (stop - start).toInt ≤ 2147483647

/-- The filled sample is the original with its times moved by `first`, and with a media end
    that CMediaSample can keep. -/
structure Faithful (first : Int64) (o d : MediaSample) : Prop where
  data : d.data = o.data
  length : d.actualDataLength = o.actualDataLength
  time : ∃ start stop, o.time = .startStop start stop ∧
    d.time = .startStop (start - first) (stop - first)
  mediaTime : ∃ start stop, o.mediaTime = some (start, stop) ∧
    d.mediaTime = some (start, MediaSample.longEnd start stop)
  sameMediaTime : d.mediaTime = o.mediaTime ↔ o.MediaFits
  sync : d.isSyncPoint = o.isSyncPoint

theorem mediaFits_iff {o : MediaSample} {start stop : Int64}
    (h : o.mediaTime = some (start, stop)) :
    some (start, MediaSample.longEnd start stop) = o.mediaTime ↔ o.MediaFits := by
  rw [h, Option.some_inj, Prod.mk.injEq, MediaSample.longEnd_eq_iff]
  refine ⟨fun hfits a b hab => ?_, fun hfits => ⟨rfl, hfits start stop h⟩⟩
  obtain ⟨rfl, rfl⟩ := Prod.mk.inj (Option.some.inj (h.symm.trans hab))
  exact hfits.2

/-- FillBuffer before its payload read: all but the data is there. -/
structure HalfFilled (first : Int64) (o : MediaSample) (f : Filling) : Prop where
  n : f.n = o.actualDataLength
  hr : f.hr = S_OK
  getPointer : f.getPointer = true
  fits : o.actualDataLength ≤ f.sample.getSize
  length : f.sample.actualDataLength = o.actualDataLength
  time : ∃ start stop, o.time = .startStop start stop ∧
    f.sample.time = .startStop (start - first) (stop - first)
  mediaTime : ∃ start stop, o.mediaTime = some (start, stop) ∧
    f.sample.mediaTime = some (start, MediaSample.longEnd start stop)
  sync : f.sample.isSyncPoint = o.isSyncPoint

/-- With an allocation and a GetPointer that succeed the capture is complete. -/
theorem captures_new {env : CaptureEnv} {o : MediaSample} {cap : Nat} (hmalloc : env.malloc = true)
    (hptr : env.getPointer = true) (ho : o.Valid cap) : Captures o (MediaSampleX.new env o) := by
  obtain ⟨start, stop, htime⟩ := ho.time
  obtain ⟨mStart, mStop, hmtime⟩ := ho.mediaTime
  have hempty : ¬ 0 < o.actualDataLength → o.actualDataLength = 0 := by omega
  refine ⟨?_, ?_, ?_, ?_, rfl⟩
  · by_cases h : 0 < o.actualDataLength
    · simp [MediaSampleX.new, h, hmalloc]
    · simp [MediaSampleX.new, hempty h]
  · by_cases h : 0 < o.actualDataLength
    · simp [MediaSampleX.new, h, hmalloc, CaptureEnv.copy, hptr]
    · simp [MediaSampleX.new, hempty h, MediaSample.data]
  · simp [MediaSampleX.new, MediaSample.getTime, htime]
  · simp [MediaSampleX.new, MediaSample.getMediaTime, hmtime]

theorem Captures.packet {o : MediaSample} {x : MediaSampleX} (h : Captures o x)
    (rtRefPoint rtRefPoint2 : Int64) : Carries o (x.packet rtRefPoint rtRefPoint2) :=
  ⟨h.length, h.data, h.time, h.mediaTime, (BOOL_ne_zero x.isSyncPoint).trans h.sync⟩

section
variable {o : MediaSample} {p : Packet} (h : Carries o p)
include h

theorem Carries.toNat_length : p.info.actualDataLength.toNatClampNeg = o.actualDataLength := by
  rw [h.length]
  exact o.toNatClampNeg_actual

theorem Carries.length_nonneg : 0 ≤ p.info.actualDataLength := by
  rw [h.length, Int32.le_iff_toInt_le, Int32.toInt_ofNat_of_lt o.actual_lt]
  simp

theorem Carries.hasPayload_iff : p.hasPayload = true ↔ 0 < o.actualDataLength := by
  rw [Packet.hasPayload, decide_eq_true_eq, h.length, Int32.lt_iff_toInt_lt,
    Int32.toInt_ofNat_of_lt o.actual_lt]
  simp

end

/-- A header without payload fills a sample. -/
theorem HalfFilled.store {first : Int64} {o : MediaSample} {f : Filling} {p : Packet}
    (h : HalfFilled first o f) (hp : Carries o p) :
    Faithful first o (f.sample.store p.payload) := by
  have hlen : p.payload.length = o.actualDataLength := by
    rw [hp.data, o.data_length]
  have hsame : f.sample.mediaTime = o.mediaTime ↔ o.MediaFits := by
    obtain ⟨start, stop, ho, hf⟩ := h.mediaTime
    rw [hf]
    exact mediaFits_iff ho
  refine ⟨?_, h.length, h.time, h.mediaTime, hsame, h.sync⟩
  have htake := MediaSample.store_take f.sample p.payload (by rw [hlen]; exact h.fits)
  have hactual : (f.sample.store p.payload).actualDataLength = p.payload.length := by
    rw [hlen]
    exact h.length
  rw [MediaSample.data, hactual, htake, hp.data]

/-- What FillBuffer makes of a header: the sample is filled when there is no data,
    and half filled otherwise. -/
theorem afterHeader_carries (pin : SourceOutputPin) {dst o : MediaSample} {p : Packet}
    (hp : Carries o p) (hfits : o.actualDataLength ≤ dst.getSize) :
    let a := SourceOutputPin.afterHeader pin dst .allOk p.info
    (p.hasPayload = false ∧ a.next = .ret S_OK ∧ Faithful a.pin.rtStart o a.sample) ∨
      (p.hasPayload = true ∧ a.next = .readPayload o.actualDataLength S_OK ∧
        HalfFilled a.pin.rtStart o ⟨a.sample, o.actualDataLength, S_OK, true⟩) := by
  intro a
  obtain ⟨htime, hmtime, hsync, hlen⟩ := SourceOutputPin.afterHeader_allOk pin dst p.info
  have hsize : a.sample.getSize = dst.getSize := SourceOutputPin.afterHeader_size p.info
  have hlength : a.sample.actualDataLength = o.actualDataLength := by
    rw [← hp.toNat_length]
    exact hlen hp.length_nonneg (by rw [hp.toNat_length]; exact hfits)
  have hnext := SourceOutputPin.afterHeader_next pin dst .allOk p.info
  simp only [SourceOutputPin.SetterResults.allOk, not_failed_S_OK, Bool.false_eq_true,
    if_false] at hnext
  have htimes : ∃ start stop, o.time = .startStop start stop ∧
      a.sample.time = .startStop (start - a.pin.rtStart) (stop - a.pin.rtStart) :=
    ⟨_, _, hp.time, htime⟩
  have hmtimes : ∃ start stop, o.mediaTime = some (start, stop) ∧
      a.sample.mediaTime = some (start, MediaSample.longEnd start stop) :=
    ⟨_, _, hp.mediaTime, hmtime⟩
  cases hpay : p.hasPayload with
  | false =>
    have hzero : o.actualDataLength = 0 := by
      have := hp.hasPayload_iff
      rw [hpay] at this
      simp only [Bool.false_eq_true, false_iff] at this
      omega
    rw [if_neg (by simpa [Packet.hasPayload] using hpay)] at hnext
    refine Or.inl ⟨rfl, hnext, ?_, hlength, htimes, hmtimes, ?_, hsync.trans hp.sync⟩
    swap
    · rw [hmtime]
      exact mediaFits_iff hp.mediaTime
    rw [MediaSample.data, MediaSample.data, hlength, hzero, List.take_zero, List.take_zero]
  | true =>
    rw [if_pos (by simpa [Packet.hasPayload] using hpay), hp.toNat_length] at hnext
    refine Or.inr ⟨rfl, hnext, rfl, rfl, rfl, ?_, hlength, htimes, hmtimes,
      hsync.trans hp.sync⟩
    rw [hsize]
    exact hfits

/-! The five places. -/

/-- Where the received samples are, oldest first. A sample in the pipe comes with the
    packet that carries it. -/
structure Places where
  done : List MediaSample
  filling : Option (MediaSample × Nat × Packet)
  pipe : List (MediaSample × Nat × Packet)
  hand : Option MediaSample
  queue : List MediaSample

/-- The samples of all places. -/
def Places.all (w : Places) : List MediaSample :=
  w.done ++ (w.filling.map Prod.fst).toList ++ w.pipe.map Prod.fst ++ w.hand.toList ++ w.queue

/-- The writer's hand. -/
def InHand : Stage → Option MediaSample → Prop
  | .idle, o => o = none
  | .held x, o => ∃ o', o = some o' ∧ Captures o' x.sample
  | .built _ p, o => ∃ o', o = some o' ∧ Carries o' p
  | .sent _ _ _, o => o = none

/-- The payload the writer still has to write. -/
def Stage.due : Stage → List Sent
  | .sent x p _ => [.body (x.id, p)]
  | _ => []

/-- The payload FillBuffer is about to read. -/
def Places.awaited (w : Places) : List Sent :=
  (w.filling.map fun m => Framing.Part.body m.2).toList

namespace Link

open SinkSystem (SinkAction)

/-- The part of the invariant that looks at the samples on their way from Receive to
    the pipe. -/
structure Sends (w : Places) (k : Core) (unread : List (Sent × Msg)) : Prop where
  queue : List.Forall₂ (fun o x => Captures o x.sample) w.queue k.queue
  hand : InHand k.stage w.hand
  carried : ∀ m ∈ w.pipe, Carries m.1 m.2.2
  pipe : ∃ ts : List Sent, unread = ts.map (fun m => (m, m.message)) ∧
    ts ++ k.stage.due = w.awaited ++ Framing.stream sentHasPayload (w.pipe.map Prod.snd)

/-- The part that looks at the source pin. -/
structure Fills (w : Places) (s : Link) : Prop where
  filled : List.Forall₂ (Faithful s.pin.rtStart) w.done s.filled
  filling : (w.filling = none ∧ s.filling = none) ∨
    ∃ o m f, w.filling = some (o, m) ∧ s.filling = some f ∧ Carries o m.2 ∧
      HalfFilled s.pin.rtStart o f
  fresh : s.pin.fFirstSampleDelivered = false → w.done = [] ∧ w.filling = none
  latched : s.pin.fFirstSampleDelivered = true → ∃ o rest, s.received = o :: rest ∧
    s.pin.rtStart = o.start

/-- The pipe serves client `c`. -/
structure Serving (c : Nat) (s : SinkSystem) : Prop where
  life : s.life.Sound
  connected : s.pin.bConnected = true
  pipe : s.pipe = some (.connected c)
  placed : c < s.logs.length

/-- The source holds the pipe the sink serves, and fills samples of size `cap`. -/
structure Streams (c cap : Nat) (s : Link) : Prop where
  serving : Serving c s.sink
  client : s.client = some c
  connected : s.pin.bConnected = true
  bufferSize : s.bufferSize = some cap

/-- **The invariant**: the received samples are the samples of the five places, in
    order. -/
structure Flow (c cap : Nat) (w : Places) (s : Link) : Prop where
  streams : Streams c cap s
  received : s.received = w.all
  valid : ∀ o ∈ s.received, o.Valid cap
  sends : Sends w s.sink.core s.unread
  fills : Fills w s

/-! The sink's steps. -/

theorem arrived_self (client : Option Nat) (logs : List (List Sent)) :
    arrived client logs logs = [] := by
  cases client with
  | none => rfl
  | some c => exact List.drop_length

/-- A message to the attached client arrives. -/
theorem arrived_write {k : Core} {c : Nat} (hc : k.client = some c) (hlt : c < k.logs.length)
    (m : Sent) : arrived (some c) k.logs (k.write m).logs = [m] := by
  have hlog : k.logs[c]? = some k.logs[c] := List.getElem?_eq_getElem hlt
  exact arrived_append hlog (Core.write_attached hc hlog m)

section
variable {w : Places} {k : Core} {unread : List (Sent × Msg)} {c : Nat}

theorem Sends.push {o : MediaSample} {x : MediaSampleX} (h : Sends w k unread)
    (hx : Captures o x) :
    Sends { w with queue := w.queue ++ [o] }
      { k with queue := k.queue ++ [⟨k.received, x⟩], received := k.received + 1 } unread :=
  ⟨List.rel_append h.queue (.cons hx .nil), h.hand, h.carried, h.pipe⟩

/-- A sample goes from the queue into the writer's hand. -/
theorem Sends.pop {x : Queued} {xs : List Queued} (h : Sends w k unread)
    (hstage : k.stage = .idle) (hq : k.queue = x :: xs) :
    ∃ o os, w.queue = o :: os ∧ w.hand = none ∧
      Sends { w with hand := some o, queue := os } { k with queue := xs, stage := .held x }
        unread := by
  have hqueue := h.queue
  rw [hq] at hqueue
  have hcons : ∃ o os, Captures o x.sample ∧
      List.Forall₂ (fun o y => Captures o (Queued.sample y)) os xs ∧ w.queue = o :: os :=
    List.forall₂_cons_right_iff.mp hqueue
  obtain ⟨o, os, hx, hrest, hw⟩ := hcons
  have hhand := h.hand
  rw [hstage] at hhand
  have hpipe := h.pipe
  rw [hstage] at hpipe
  exact ⟨o, os, hw, hhand, hrest, ⟨o, rfl, hx⟩, h.carried, hpipe⟩

theorem Sends.build {x : Queued} (h : Sends w k unread) (hstage : k.stage = .held x)
    (rtRefPoint rtRefPoint2 : Int64) :
    Sends w { k with stage := .built x (x.sample.packet rtRefPoint rtRefPoint2) } unread := by
  have hhand := h.hand
  rw [hstage] at hhand
  obtain ⟨o, ho, hx⟩ := hhand
  have hpipe := h.pipe
  rw [hstage] at hpipe
  exact ⟨h.queue, ⟨o, ho, hx.packet rtRefPoint rtRefPoint2⟩, h.carried, hpipe⟩

/-- A sample goes from the writer's hand into the pipe with its header. -/
theorem Sends.head {x : Queued} {p : Packet} (h : Sends w k unread)
    (hstage : k.stage = .built x p) (hc : k.client = some c) (hlt : c < k.logs.length) :
    ∃ o, w.hand = some o ∧
      Sends { w with pipe := w.pipe ++ [(o, x.id, p)], hand := none }
        { k.write (.head (x.id, p)) with
          stage := if p.hasPayload then .sent x p k.client else .idle }
        (unread ++ (arrived (some c) k.logs (k.write (.head (x.id, p))).logs).map
          fun m => (m, m.message)) := by
  have hhand := h.hand
  rw [hstage] at hhand
  obtain ⟨o, ho, hp⟩ := hhand
  obtain ⟨ts, hts, heq⟩ := h.pipe
  rw [hstage] at heq
  refine ⟨o, ho, h.queue, ?_, fun m hm => ?_, ts ++ [.head (x.id, p)], ?_, ?_⟩
  · cases hpay : p.hasPayload <;> exact rfl
  · rcases List.mem_append.mp hm with hm | hm
    · exact h.carried m hm
    · rw [List.mem_singleton.mp hm]
      exact hp
  · rw [arrived_write hc hlt, hts, List.map_append]
  · have hts' : ts = w.awaited ++ Framing.stream sentHasPayload (w.pipe.map Prod.snd) := by
      rw [← heq]
      exact (List.append_nil ts).symm
    have hawait : ({ w with pipe := w.pipe ++ [(o, x.id, p)], hand := none } : Places).awaited =
        w.awaited := rfl
    have hunit : [Framing.Part.head (x.id, p)] ++
        (if p.hasPayload then Stage.sent x p k.client else Stage.idle).due =
          Framing.unit sentHasPayload (x.id, p) := by
      rw [Framing.unit_eq_cons, sentHasPayload]
      cases p.hasPayload <;> rfl
    rw [hawait, List.map_append, Framing.stream_append, List.append_assoc, hunit, hts']
    simp

/-- The payload follows its header. -/
theorem Sends.body {x : Queued} {p : Packet} {sentTo : Option Nat} (h : Sends w k unread)
    (hstage : k.stage = .sent x p sentTo) (hc : k.client = some c) (hlt : c < k.logs.length) :
    Sends w { k.write (.body (x.id, p)) with stage := .idle }
      (unread ++ (arrived (some c) k.logs (k.write (.body (x.id, p))).logs).map
        fun m => (m, m.message)) := by
  have hhand := h.hand
  rw [hstage] at hhand
  obtain ⟨ts, hts, heq⟩ := h.pipe
  rw [hstage] at heq
  refine ⟨h.queue, hhand, h.carried, ts ++ [.body (x.id, p)], ?_, ?_⟩
  · rw [arrived_write hc hlt, hts, List.map_append]
  · rw [← heq]
    exact List.append_nil _

end

/-- What may happen to a stream that is not interrupted: Receive, the writer, the
    listener, flushes, and FillBuffer, with every allocation and every call
    succeeding. -/
def Streaming (cap : Nat) (_ : Link) : LinkAction → Prop
  | .sink (.receive env sample) =>
    env.capture.malloc = true ∧ env.capture.getPointer = true ∧ sample.Valid cap
  | .sink .writer => True
  | .sink .listener => True
  | .sink .beginFlush => True
  | .sink .endFlush => True
  | .fillHeader r _ => r = .allOk
  | .fillPayload => True
  | _ => False

theorem writerStep_connection {s t : SinkSystem} {pc : WriterPc} (h : s.writerStep pc = some t) :
    t.pin.bConnected = s.pin.bConnected ∧ t.pipe = s.pipe := by
  obtain ⟨_, _, _, _, _, rfl⟩ := SinkSystem.writerStep_writes h
  exact ⟨rfl, rfl⟩

/-- The listener leaves a client alone that it has seen. -/
theorem listenerStep_connection {s t : SinkSystem} {pc : ListenerPc} {c : Nat}
    (hconn : s.pin.bConnected = true) (hpipe : s.pipe = some (.connected c))
    (h : s.listenerStep pc = some t) :
    t.pin.bConnected = true ∧ t.pipe = some (.connected c) := by
  cases pc with
  | start | sleeping =>
    obtain rfl := Option.some.inj h
    exact ⟨hconn, hpipe⟩
  | test =>
    simp only [SinkSystem.listenerStep] at h
    split at h <;> obtain rfl := Option.some.inj h <;> exact ⟨hconn, hpipe⟩
  | connect | waiting =>
    simp only [SinkSystem.listenerStep, hpipe] at h
    obtain rfl := Option.some.inj h
    exact ⟨rfl, rfl⟩
  | check =>
    simp only [SinkSystem.listenerStep, hconn, Bool.not_true, Bool.and_false, Bool.false_and,
      Bool.false_eq_true, if_false] at h
    obtain rfl := Option.some.inj h
    exact ⟨hconn, hpipe⟩

/-- What leaves a client alone that the sink serves; NotifyAllocator makes a pipe only where
    there is none. -/
def LeavesClient (s : SinkSystem) : SinkAction → Prop
  | .endOfStream | .stopServer _ | .clientClose => False
  | .notifyAllocator _ _ _ => s.pin.hPipe ≠ .null
  | _ => True

theorem Streaming.leavesClient {cap : Nat} {l : Link} {a : SinkAction}
    (ha : Streaming cap l (.sink a)) : LeavesClient l.sink a := by
  cases a <;> first
    | exact trivial
    | exact ha.elim

theorem Serving.step {c : Nat} {s t : SinkSystem} {a : SinkAction} (h : Serving c s)
    (ha : LeavesClient s a) (hstep : s.step a = some t) : Serving c t := by
  have hconn : t.pin.bConnected = true ∧ t.pipe = some (.connected c) := by
    cases a with
    | receive env sample =>
      simp only [SinkSystem.step, Option.ite_none_right_eq_some] at hstep
      obtain ⟨u, rfl, rfl | rfl⟩ := SinkSystem.receiveStep_cases hstep.2
      · exact ⟨(SinkInputPin.receive_bConnected _ _ _ _).trans h.connected, h.pipe⟩
      · exact ⟨(SinkInputPin.receive_bConnected _ _ _ _).trans h.connected, h.pipe⟩
    | reset | beginFlush | endFlush =>
      simp only [SinkSystem.step, Option.ite_none_right_eq_some] at hstep
      obtain rfl := Option.some.inj hstep.2
      exact ⟨h.connected, h.pipe⟩
    | notifyAllocator a created thread =>
      simp only [SinkSystem.step, Option.ite_none_right_eq_some] at hstep
      obtain rfl := Option.some.inj hstep.2
      rw [SinkSystem.notifyAllocatorStep, if_neg ha]
      exact ⟨h.connected, h.pipe⟩
    | breakConnect =>
      simp only [SinkSystem.step, Option.ite_none_right_eq_some] at hstep
      obtain ⟨-, hstep⟩ := hstep
      split at hstep <;> obtain rfl := Option.some.inj hstep <;> exact ⟨h.connected, h.pipe⟩
    | breakWait timeout =>
      simp only [SinkSystem.step, Option.ite_none_right_eq_some] at hstep
      obtain rfl := Option.some.inj hstep.2
      obtain ⟨cut, hcut⟩ := SinkSystem.terminateWriter_writes s
      rw [hcut]
      exact ⟨h.connected, h.pipe⟩
    | writer =>
      obtain ⟨pc, _, hstep⟩ := Option.bind_eq_some_iff.mp hstep
      obtain ⟨hb, hp⟩ := writerStep_connection hstep
      exact ⟨hb.trans h.connected, hp.trans h.pipe⟩
    | listener =>
      obtain ⟨pc, _, hstep⟩ := Option.bind_eq_some_iff.mp hstep
      exact listenerStep_connection h.connected h.pipe hstep
    | clientOpen =>
      -- the instance has its client
      simp only [SinkSystem.step, Option.ite_none_right_eq_some, h.pipe] at hstep
      cases hstep.1
    | endOfStream | stopServer | clientClose => exact ha.elim
  obtain ⟨l', _, happ⟩ := SinkSystem.step_refines h.life hstep
  exact ⟨h.life.step (SinkSystem.step_life hstep), hconn.1, hconn.2,
    Nat.lt_of_lt_of_le h.placed (Core.apply_length happ)⟩

/-- A step of the sink during a stream. -/
theorem sinkStep_streaming {c cap : Nat} {s t : Link} {a : SinkAction} (hs : Streams c cap s)
    (ha : Streaming cap s (.sink a)) (h : s.step (.sink a) = some t) :
    ∃ u, s.sink.step a = some u ∧ Serving c u ∧ t = { s with
      sink := u
      unread := s.unread ++ (arrived (some c) s.sink.logs u.logs).map fun m => (m, m.message)
      received := s.receivedAfter a } := by
  obtain ⟨_, u, hu, rfl⟩ := sinkStep_cases h
  have hserving := hs.serving.step ha.leavesClient hu
  refine ⟨u, hu, hserving, ?_⟩
  rw [unreadAfter, hserving.pipe, if_neg (by simp), hs.client]

theorem Streams.sink {c cap : Nat} {s : Link} {u : SinkSystem} (h : Streams c cap s)
    (hu : Serving c u) (unread : List (Sent × Msg)) (received : List MediaSample) :
    Streams c cap { s with sink := u, unread := unread, received := received } :=
  ⟨hu, h.client, h.connected, h.bufferSize⟩

/-- A sample that moves on its way to the pipe. -/
theorem Flow.moved {c cap : Nat} {w w' : Places} {s : Link} {u : SinkSystem}
    {k : Core} {unread : List (Sent × Msg)} (h : Flow c cap w s) (hu : Serving c u)
    (hcore : k = u.core) (hsends : Sends w' k unread) (hall : w'.all = w.all)
    (hdone : w'.done = w.done) (hfill : w'.filling = w.filling) :
    Flow c cap w' { s with sink := u, unread := unread } := by
  subst hcore
  refine ⟨h.streams.sink hu _ _, h.received.trans hall.symm, h.valid, hsends, ?_, ?_, ?_, ?_⟩
  · rw [hdone]
    exact h.fills.filled
  · rw [hfill]
    exact h.fills.filling
  · rw [hdone, hfill]
    exact h.fills.fresh
  · exact h.fills.latched

/-- A new sample goes to the end of the queue. -/
theorem Flow.pushed {c cap : Nat} {w : Places} {s : Link} {u : SinkSystem} {o : MediaSample}
    {k : Core} {unread : List (Sent × Msg)} (h : Flow c cap w s) (hu : Serving c u)
    (hcore : k = u.core) (hsends : Sends { w with queue := w.queue ++ [o] } k unread)
    (ho : o.Valid cap) : Flow c cap { w with queue := w.queue ++ [o] }
      { s with sink := u, unread := unread, received := s.received ++ [o] } := by
  subst hcore
  refine ⟨h.streams.sink hu _ _, ?_, fun o' ho' => ?_, hsends,
    h.fills.filled, h.fills.filling, h.fills.fresh, fun hd => ?_⟩
  · show s.received ++ [o] = _
    rw [h.received]
    simp [Places.all]
  · rcases List.mem_append.mp ho' with ho' | ho'
    · exact h.valid o' ho'
    · rw [List.mem_singleton.mp ho']
      exact ho
  · obtain ⟨first, rest, hrec, hstart⟩ := h.fills.latched hd
    exact ⟨first, rest ++ [o], by simp [hrec], hstart⟩

/-- A step of the sink keeps the flow. -/
theorem Flow.sink {c cap : Nat} {w : Places} {s t : Link} {a : SinkAction} (h : Flow c cap w s)
    (ha : Streaming cap s (.sink a)) (hstep : s.step (.sink a) = some t) :
    ∃ w', Flow c cap w' t := by
  obtain ⟨u, hu, hserving, rfl⟩ := sinkStep_streaming h.streams ha hstep
  obtain ⟨l, hl, happ⟩ := SinkSystem.step_refines h.streams.serving.life hu
  have hclient : s.sink.core.client = some c := by
    simp only [SinkSystem.core, SinkSystem.client, h.streams.serving.pipe]
  have hlt : c < s.sink.core.logs.length := h.streams.serving.placed
  have hconn := h.streams.serving.connected
  have hold : (∀ x, l ≠ .push x) → s.receivedAfter a = s.received := by
    intro hne
    cases a with
    | receive env sample =>
      obtain ⟨x, rfl⟩ := SinkSystem.isLabel_receive hl
      exact absurd rfl (hne x)
    | _ => rfl
  -- without a write nothing arrives
  have hnone : u.logs = s.sink.logs → s.unread ++
      (arrived (some c) s.sink.logs u.logs).map (fun m => (m, m.message)) = s.unread := by
    intro hlogs
    rw [hlogs, arrived_self, List.map_nil, List.append_nil]
  have hsends := h.sends
  cases l with
  | quiet =>
    have hcore : s.sink.core = u.core := Option.some.inj happ
    rw [hold (fun x e => by cases e), hnone (congrArg Core.logs hcore).symm]
    exact ⟨w, h.moved hserving hcore hsends rfl rfl rfl⟩
  | attach => rcases hl with rfl | ⟨_, rfl⟩ <;> exact ha.elim
  | detach =>
    -- the listener disconnects only a client it has not seen
    rcases hl with ⟨_, hno⟩ | ⟨_, rfl⟩ | ⟨_, _, _, rfl, _⟩ | rfl
    · rw [hconn] at hno
      cases hno
    all_goals exact ha.elim
  | push x =>
    obtain ⟨env, sample, rfl, rfl⟩ := hl
    have hcore := Option.some.inj happ
    rw [hnone (congrArg Core.logs hcore).symm]
    -- from Receive's argument to the end of the queue
    obtain ⟨hmalloc, hptr, hvalid⟩ := ha
    have hmoved := hsends.push (captures_new hmalloc hptr hvalid)
    exact ⟨_, h.pushed hserving hcore hmoved hvalid⟩
  | pop =>
    rw [hold (fun x e => by cases e)]
    obtain ⟨x, xs, hstage, hq, hcore⟩ := Core.apply_pop happ
    rw [hnone (congrArg Core.logs hcore)]
    obtain ⟨o, os, hwq, hwh, hmoved⟩ := hsends.pop hstage hq
    refine ⟨_, h.moved hserving hcore.symm hmoved ?_ rfl rfl⟩
    simp [Places.all, hwq, hwh]
  | build r r2 =>
    rw [hold (fun x e => by cases e)]
    obtain ⟨x, hstage, hcore⟩ := Core.apply_build happ
    rw [hnone (congrArg Core.logs hcore)]
    exact ⟨w, h.moved hserving hcore.symm (hsends.build hstage r r2) rfl rfl rfl⟩
  | skip =>
    -- a sample is dropped only while `m_bConnected` is off
    have hno : s.sink.pin.bConnected = false := hl.2.2
    rw [hconn] at hno
    cases hno
  | drop =>
    obtain ⟨_, rfl⟩ := hl
    exact ha.elim
  | head =>
    rw [hold (fun x e => by cases e)]
    obtain ⟨x, p, hstage, hcore⟩ := Core.apply_head happ
    obtain ⟨o, hwh, hmoved⟩ := hsends.head hstage hclient hlt
    have hlogs : u.logs = (s.sink.core.write (.head (x.id, p))).logs := congrArg Core.logs hcore
    rw [hlogs]
    refine ⟨_, h.moved hserving hcore.symm hmoved ?_ rfl rfl⟩
    simp [Places.all, hwh]
  | body =>
    rw [hold (fun x e => by cases e)]
    obtain ⟨x, p, sentTo, hstage, hcore⟩ := Core.apply_body happ
    have hmoved := hsends.body hstage hclient hlt
    have hlogs : u.logs = (s.sink.core.write (.body (x.id, p))).logs := congrArg Core.logs hcore
    rw [hlogs]
    exact ⟨w, h.moved hserving hcore.symm hmoved rfl rfl rfl⟩

/-! FillBuffer's steps. -/

theorem Streams.not_blocked {c cap : Nat} {s : Link} (h : Streams c cap s) (hs : ¬ s.blocked) :
    s.unread ≠ [] := by
  intro hu
  apply hs
  refine ⟨hu, by rw [h.client]; rfl, ?_⟩
  rw [h.client]
  simp only [SinkSystem.client, h.serving.pipe]

/-- Between two samples the next message is the header of the oldest in the pipe. -/
theorem Sends.next_header {w : Places} {k : Core} {unread : List (Sent × Msg)}
    (h : Sends w k unread) (hw : w.filling = none) (hne : unread ≠ []) :
    ∃ o m rest unread', w.pipe = (o, m) :: rest ∧ Carries o m.2 ∧
      unread = (.head m, Packet.message (.head m.2)) :: unread' ∧
      (m.2.hasPayload = false →
        Sends { w with done := w.done ++ [o], pipe := rest } k unread') ∧
      (m.2.hasPayload = true →
        Sends { w with filling := some (o, m), pipe := rest } k unread') := by
  obtain ⟨ts, rfl, heq⟩ := h.pipe
  have hawait : w.awaited = [] := by
    rw [Places.awaited, hw]
    rfl
  rw [hawait, List.nil_append] at heq
  cases ts with
  | nil => exact absurd rfl hne
  | cons t ts =>
    cases hpipe : w.pipe with
    | nil =>
      rw [hpipe] at heq
      cases heq
    | cons om rest =>
      obtain ⟨o, m⟩ := om
      have hcarried := h.carried
      rw [hpipe] at hcarried heq
      have hrest : ∀ m' ∈ rest, Carries m'.1 m'.2.2 := fun m' hm' =>
        hcarried m' (List.mem_cons_of_mem _ hm')
      rw [List.map_cons, Framing.stream_cons, Framing.unit_eq_cons, List.cons_append,
        List.cons_append, List.cons.injEq] at heq
      obtain ⟨rfl, heq⟩ := heq
      refine ⟨o, m, rest, _, rfl, hcarried _ List.mem_cons_self, rfl, fun hpay => ?_,
        fun hpay => ?_⟩
      · have hno : sentHasPayload m = false := hpay
        rw [hno] at heq
        refine ⟨h.queue, h.hand, hrest, ts, rfl, ?_⟩
        rw [heq]
        simp [Places.awaited, hw]
      · have hyes : sentHasPayload m = true := hpay
        rw [hyes] at heq
        exact ⟨h.queue, h.hand, hrest, ts, rfl, heq⟩

/-- Within a sample it is the payload of that sample. -/
theorem Sends.next_payload {w : Places} {k : Core} {unread : List (Sent × Msg)} {o : MediaSample}
    {m : Nat × Packet} (h : Sends w k unread) (hw : w.filling = some (o, m)) (hne : unread ≠ []) :
    ∃ unread', unread = (.body m, m.2.payload) :: unread' ∧
      Sends { w with done := w.done ++ [o], filling := none } k unread' := by
  obtain ⟨ts, rfl, heq⟩ := h.pipe
  have hawait : w.awaited = [.body m] := by
    rw [Places.awaited, hw]
    rfl
  rw [hawait] at heq
  cases ts with
  | nil => exact absurd rfl hne
  | cons t ts =>
    rw [List.cons_append, List.singleton_append, List.cons.injEq] at heq
    obtain ⟨rfl, heq⟩ := heq
    exact ⟨_, rfl, h.queue, h.hand, h.carried, ts, rfl, heq⟩

/-- The pin after a header: it holds the start time of the first sample received. -/
theorem Flow.latch {c cap : Nat} {w : Places} {s : Link} {o : MediaSample} {m : Nat × Packet}
    {rest : List (MediaSample × Nat × Packet)} {pin : SourceOutputPin} (h : Flow c cap w s)
    (hpipe : w.pipe = (o, m) :: rest) (hm : Carries o m.2)
    (hpin : pin = { s.pin with
      rtStart := if s.pin.fFirstSampleDelivered then s.pin.rtStart else m.2.info.timeStart
      fFirstSampleDelivered := true }) :
    List.Forall₂ (Faithful pin.rtStart) w.done s.filled ∧
      ∃ first more, s.received = first :: more ∧ pin.rtStart = first.start := by
  subst hpin
  cases hd : s.pin.fFirstSampleDelivered with
  | true => exact ⟨h.fills.filled, h.fills.latched hd⟩
  | false =>
    -- this header is the first one, so its sample is the first received
    obtain ⟨hdone, hfilling⟩ := h.fills.fresh hd
    have hfilled := h.fills.filled
    rw [hdone] at hfilled ⊢
    refine ⟨?_, o, rest.map Prod.fst ++ w.hand.toList ++ w.queue, ?_, ?_⟩
    · rw [List.forall₂_nil_left_iff.mp hfilled]
      exact .nil
    · rw [h.received, Places.all, hdone, hfilling, hpipe]
      rfl
    · simp only [MediaSample.start, MediaSample.getTime, hm.time]
      rfl

theorem Fills.idle {w : Places} {s : Link} (h : Fills w s) (hidle : s.filling = none) :
    w.filling = none := by
  rcases h.filling with ⟨hw, _⟩ | ⟨_, _, f, _, hf, _⟩
  · exact hw
  · rw [hidle] at hf
    cases hf

/-- A sample in the pipe fits the source's samples. -/
theorem Flow.fits {c cap : Nat} {w : Places} {s : Link} {o : MediaSample} {m : Nat × Packet}
    (h : Flow c cap w s) (hm : (o, m) ∈ w.pipe) : o.actualDataLength ≤ cap := by
  have hmem : o ∈ s.received := by
    have hpipe : o ∈ w.pipe.map Prod.fst := List.mem_map_of_mem hm
    rw [h.received]
    simp only [Places.all, List.mem_append]
    exact Or.inl (Or.inl (Or.inr hpipe))
  exact (h.valid o hmem).fits

theorem Flow.fillHeader {c cap : Nat} {w : Places} {s t : Link} {r : SourceOutputPin.SetterResults}
    {dst : MediaSample} (h : Flow c cap w s) (hr : r = .allOk)
    (hstep : s.step (.fillHeader r dst) = some t) : ∃ w', Flow c cap w' t := by
  subst hr
  simp only [Link.step, Option.ite_none_right_eq_some] at hstep
  obtain ⟨⟨hidle, _, _, hsize⟩, hstep⟩ := hstep
  rw [Link.fillHeader, Option.ite_none_left_eq_some] at hstep
  obtain ⟨hblocked, hstep⟩ := hstep
  have hwfill := h.fills.idle hidle
  obtain ⟨o, m, rest, unread', hpipe, hm, hunread, hsends₀, hsends₁⟩ :=
    h.sends.next_header hwfill (h.streams.not_blocked hblocked)
  have hread : SourceOutputPin.readTagged sizeofMediaSampleInfo s.unread =
      (.ok (Packet.message (.head m.2)), unread') := by
    rw [hunread, SourceOutputPin.readTagged_fits (Nat.le_of_eq m.2.head_length)]
  have hdec : MediaSampleInfo.codec.dec (Packet.message (.head m.2)) = m.2.info :=
    MediaSampleInfo.codec.dec_enc_self m.2.info
  have hfits : o.actualDataLength ≤ dst.getSize := by
    have hcap : cap = dst.getSize := Option.some.inj (h.streams.bufferSize.symm.trans hsize)
    rw [← hcap]
    exact h.fits (hpipe ▸ List.mem_cons_self)
  simp only [hread, ReadResult.ok, Bool.true_eq_false, if_false, hdec] at hstep
  have hlatch := SourceOutputPin.afterHeader_latch s.pin dst .allOk m.2.info
  obtain ⟨hfilled, hfirst⟩ := h.latch hpipe hm hlatch
  have hconn : (SourceOutputPin.afterHeader s.pin dst .allOk m.2.info).pin.bConnected = true := by
    rw [hlatch]
    exact h.streams.connected
  have hdelivered : (SourceOutputPin.afterHeader s.pin dst .allOk
      m.2.info).pin.fFirstSampleDelivered = true := by
    rw [hlatch]
  have hstreams : ∀ filling filled, Streams c cap { s with
      pin := (SourceOutputPin.afterHeader s.pin dst .allOk m.2.info).pin
      unread := unread', filling := filling, filled := filled } := fun _ _ =>
    ⟨h.streams.serving, h.streams.client, hconn, h.streams.bufferSize⟩
  have hfresh : ∀ P : Prop, (SourceOutputPin.afterHeader s.pin dst .allOk
      m.2.info).pin.fFirstSampleDelivered = false → P := by
    intro P hno
    rw [hdelivered] at hno
    cases hno
  rcases afterHeader_carries s.pin hm hfits with ⟨hpay, hnext, hfaith⟩ | ⟨hpay, hnext, hhalf⟩
  · rw [hnext] at hstep
    obtain rfl := Option.some.inj hstep
    refine ⟨{ w with done := w.done ++ [o], pipe := rest }, hstreams _ _, ?_, h.valid,
      hsends₀ hpay, List.rel_append hfilled (.cons hfaith .nil), Or.inl ⟨hwfill, rfl⟩,
      hfresh _, fun _ => hfirst⟩
    show s.received = _
    rw [h.received]
    simp [Places.all, hwfill, hpipe]
  · rw [hnext] at hstep
    obtain rfl := Option.some.inj hstep
    refine ⟨{ w with filling := some (o, m), pipe := rest }, hstreams _ _, ?_, h.valid,
      hsends₁ hpay, hfilled, Or.inr ⟨o, m, _, rfl, rfl, hm, hhalf⟩, hfresh _, fun _ => hfirst⟩
    show s.received = _
    rw [h.received]
    simp [Places.all, hwfill, hpipe]

theorem Flow.fillPayload {c cap : Nat} {w : Places} {s t : Link} (h : Flow c cap w s)
    (hstep : s.step .fillPayload = some t) : ∃ w', Flow c cap w' t := by
  obtain ⟨f, hf, hstep⟩ := Option.bind_eq_some_iff.mp hstep
  rcases h.fills.filling with ⟨_, hnone⟩ | ⟨o, m, f', hw, hf', hm, hhalf⟩
  · rw [hf] at hnone
    cases hnone
  obtain rfl := Option.some.inj (hf.symm.trans hf')
  rw [Link.fillPayload, if_pos hhalf.getPointer, Option.ite_none_left_eq_some] at hstep
  obtain ⟨hblocked, hstep⟩ := hstep
  obtain ⟨unread', hunread, hsends⟩ := h.sends.next_payload hw (h.streams.not_blocked hblocked)
  have hlen : m.2.payload.length ≤ f.n := by
    rw [hhalf.n, hm.data, o.data_length]
  have hread : SourceOutputPin.readTagged f.n s.unread = (.ok m.2.payload, unread') := by
    rw [hunread, SourceOutputPin.readTagged_fits hlen]
  simp only [hread, ReadResult.ok, hhalf.hr] at hstep
  obtain rfl := Option.some.inj hstep
  have hdelivered : s.pin.fFirstSampleDelivered = true := by
    cases hd : s.pin.fFirstSampleDelivered with
    | true => rfl
    | false =>
      rw [(h.fills.fresh hd).2] at hw
      cases hw
  refine ⟨{ w with done := w.done ++ [o], filling := none },
    ⟨h.streams.serving, h.streams.client, h.streams.connected, h.streams.bufferSize⟩, ?_, h.valid,
    hsends, List.rel_append h.fills.filled (.cons (hhalf.store hm) .nil), Or.inl ⟨rfl, rfl⟩,
    ?_, h.fills.latched⟩
  · show s.received = _
    rw [h.received]
    simp [Places.all, hw]
  · intro hno
    have hno' : s.pin.fFirstSampleDelivered = false := hno
    rw [hdelivered] at hno'
    cases hno'

/-- **Every step of a stream keeps the flow.** -/
theorem flow_step {c cap : Nat} (s : Link) (a : LinkAction) (t : Link)
    (h : ∃ w, Flow c cap w s) (ha : Streaming cap s a) (hstep : s.step a = some t) :
    ∃ w, Flow c cap w t := by
  obtain ⟨w, h⟩ := h
  cases a with
  | sink a => exact h.sink ha hstep
  | fillHeader r dst => exact h.fillHeader ha hstep
  | fillPayload => exact h.fillPayload hstep
  | _ => exact ha.elim

/-! One stream. -/

/-- The start time of the first sample received. -/
def firstStart : List MediaSample → Int64
  | o :: _ => o.start
  | [] => 0

/-- The samples filled are the samples received, up to some point: none is lost,
    repeated, merged or out of order, and each is faithful. -/
def Delivers (s : Link) : Prop := ∃ done, done <+: s.received ∧
  List.Forall₂ (Faithful (firstStart s.received)) done s.filled

theorem Flow.delivers {c cap : Nat} {w : Places} {s : Link} (h : Flow c cap w s) : s.Delivers := by
  refine ⟨w.done, ?_, ?_⟩
  · rw [h.received]
    simp only [Places.all, List.append_assoc]
    exact List.prefix_append _ _
  · cases hd : s.pin.fFirstSampleDelivered with
    | true =>
      obtain ⟨first, rest, hrec, hstart⟩ := h.fills.latched hd
      have hfirst : firstStart s.received = s.pin.rtStart := by
        rw [hrec, hstart]
        rfl
      rw [hfirst]
      exact h.fills.filled
    | false =>
      have hfilled := h.fills.filled
      rw [(h.fills.fresh hd).1] at hfilled ⊢
      rw [List.forall₂_nil_left_iff.mp hfilled]
      exact .nil

/-- The source has just attached: nothing is on its way, and both histories are
    counted from here. -/
structure Ready (c cap : Nat) (s : Link) : Prop where
  streams : Streams c cap s
  fresh : s.pin.fFirstSampleDelivered = false
  queue : s.sink.core.queue = []
  stage : s.sink.core.stage = .idle
  unread : s.unread = []
  filling : s.filling = none
  received : s.received = []
  filled : s.filled = []

theorem Ready.flow {c cap : Nat} {s : Link} (h : Ready c cap s) : ∃ w, Flow c cap w s := by
  refine ⟨⟨[], none, [], none, []⟩, h.streams, ?_, ?_, ⟨?_, ?_, ?_, [], ?_, ?_⟩, ⟨?_, ?_, ?_, ?_⟩⟩
  · rw [h.received]
    rfl
  · rw [h.received]
    intro o ho
    cases ho
  · rw [h.queue]
    exact .nil
  · rw [h.stage]
    rfl
  · intro m hm
    cases hm
  · rw [h.unread]
    rfl
  · rw [h.stage]
    rfl
  · rw [h.filled]
    exact .nil
  · exact Or.inl ⟨rfl, h.filling⟩
  · exact fun _ => ⟨rfl, rfl⟩
  · intro hd
    rw [h.fresh] at hd
    cases hd

/-- **Fidelity of an uninterrupted stream**: however Receive, the writer, the listener
    and FillBuffer interleave, at every moment the samples filled are the first of
    the samples received, unchanged but for times that count from the first and a media
    end that is a LONG behind the media start. -/
theorem filled_prefix_of_received {c cap : Nat} {s : Link} (hs : Ready c cap s)
    (as : List LinkAction) (has : Meets step (Streaming cap) s as) :
    Always step Delivers s as :=
  always_of_meets (fun _ h => h.choose_spec.delivers) flow_step as s hs.flow has

theorem streaming_send {cap : Nat} {o : MediaSample} (ho : o.Valid cap) :
    ∀ a ∈ send o, ∀ s, Streaming cap s a := by
  intro a ha s
  simp only [send, List.mem_cons, List.not_mem_nil, or_false] at ha
  rcases ha with rfl | rfl | rfl | rfl | rfl | rfl | rfl | rfl | rfl | rfl | rfl
  · exact ⟨rfl, rfl, ho⟩
  case inr.inr.inr.inr.inr.inr.inr.inr.inl => exact rfl
  all_goals trivial

theorem ready_connectSource :
    ∃ s, run step (new .garbage 0) connectSource = some s ∧ Ready 0 1 s := by
  refine ⟨_, rfl, ⟨⟨⟨fun h => ?_, fun h => ?_⟩, rfl, rfl, ?_⟩, rfl, rfl, rfl⟩, rfl, rfl, rfl, rfl,
    rfl, rfl, rfl⟩
  · cases h
  · cases h
  · exact Nat.zero_lt_one

theorem valid_byteSample : byteSample.Valid 1 := ⟨⟨_, _, rfl⟩, ⟨_, _, rfl⟩, Nat.le_refl 1⟩

set_option maxRecDepth 4000 in
/-- One byte, from connection to delivery. -/
theorem filled_prefix_of_received_byte :
    ∃ s u, run step (new .garbage 0) connectSource = some s ∧
      run step s (send byteSample) = some u ∧ u.filled.length = 1 ∧
      Always step Delivers s (send byteSample) := by
  have hrun : ∃ s u, run step (new .garbage 0) connectSource = some s ∧
      run step s (send byteSample) = some u ∧ u.filled.length = 1 := ⟨_, _, rfl, rfl, rfl⟩
  obtain ⟨s, u, hs, hu, hlen⟩ := hrun
  obtain ⟨s', hs', hready⟩ := ready_connectSource
  obtain rfl := Option.some.inj (hs.symm.trans hs')
  exact ⟨s, u, hs, hu, hlen, filled_prefix_of_received hready _
    (meets_of_forall (streaming_send valid_byteSample) s)⟩

/-- The media times of the samples filled are those of the samples received. -/
def DeliversMediaTimes (s : Link) : Prop := ∃ done, done <+: s.received ∧
  List.Forall₂ (fun o d : MediaSample => d.mediaTime = o.mediaTime) done s.filled

/-- A byte with media times that are 2^31 apart. -/
def farSample : MediaSample := { byteSample with mediaTime := some (0, 2147483648) }

set_option maxRecDepth 4000 in
/-- Its media end comes out negative, with every call succeeding. -/
theorem far_media_end_cut :
    ∃ s, run step (new .garbage 0) connectSource = some s ∧ Ready 0 1 s ∧
      Meets step (Streaming 1) s (send farSample) ∧
      ¬ Always step DeliversMediaTimes s (send farSample) := by
  have hrun : ∃ s u, run step (new .garbage 0) connectSource = some s ∧
      run step s (send farSample) = some u ∧ u.received = [farSample] ∧
      u.filled.map MediaSample.mediaTime = [some (0, -2147483648)] := ⟨_, _, rfl, rfl, rfl, rfl⟩
  obtain ⟨s, u, hs, hu, hreceived, hfilled⟩ := hrun
  obtain ⟨s', hs', hready⟩ := ready_connectSource
  obtain rfl := Option.some.inj (hs.symm.trans hs')
  have hvalid : farSample.Valid 1 := ⟨⟨_, _, rfl⟩, ⟨_, _, rfl⟩, Nat.le_refl 1⟩
  refine ⟨s, hs, hready, meets_of_forall (streaming_send hvalid) s, fun halways => ?_⟩
  obtain ⟨done, hprefix, hall⟩ := always_iff_prefix.mp halways _ (List.prefix_refl _) u hu
  obtain ⟨d, ds, hd⟩ := List.exists_cons_of_ne_nil (l := u.filled) fun hnil => by
    rw [hnil] at hfilled
    cases hfilled
  rw [hd] at hall hfilled
  obtain ⟨o, os, ho, -, rfl⟩ := List.forall₂_cons_right_iff.mp hall
  rw [hreceived] at hprefix
  obtain rfl : o = farSample := (List.cons_prefix_cons.mp hprefix).1
  have hmedia : d.mediaTime = some (0, -2147483648) := (List.cons.inj hfilled).1
  rw [hmedia] at ho
  exact absurd ho (by decide)

/-! Two streams. -/

theorem sub_sub_sub_eq_iff {x y a b : Int64} : x - a - (y - b) = x - y ↔ a = b := by
  grind

/-- The times two filled samples have apart are those of their originals. -/
def DifferencesKept (s₁ s₂ : Link) : Prop :=
  ∀ (i j : Nat) (x x' y y' : MediaSample), s₁.received[i]? = some x → s₁.filled[i]? = some x' →
    s₂.received[j]? = some y → s₂.filled[j]? = some y' → x'.start - y'.start = x.start - y.start

/-- A filled sample starts as long after the first as its original did. -/
theorem Delivers.start {s : Link} (h : s.Delivers) {i : Nat} {x x' : MediaSample}
    (hx : s.received[i]? = some x) (hx' : s.filled[i]? = some x') :
    x'.start = x.start - firstStart s.received := by
  obtain ⟨done, ⟨rest, hdone⟩, hall⟩ := h
  have hlen : i < done.length := by
    rw [hall.length_eq]
    exact (List.getElem?_eq_some_iff.mp hx').1
  have hlen' : i < s.filled.length := (List.getElem?_eq_some_iff.mp hx').1
  have hxd : done[i]? = some x := by
    rw [← hx, ← hdone, List.getElem?_append_left hlen]
  obtain ⟨start, stop, htime, htime'⟩ := (hall.get hlen hlen').time
  rw [List.get_eq_getElem, (List.getElem?_eq_some_iff.mp hxd).2] at htime
  rw [List.get_eq_getElem, (List.getElem?_eq_some_iff.mp hx').2] at htime'
  simp only [MediaSample.start, MediaSample.getTime, htime, htime']

theorem Delivers.head {s : Link} (h : s.Delivers) {x' : MediaSample} {rest : List MediaSample}
    (hfilled : s.filled = x' :: rest) :
    ∃ x, s.received[0]? = some x ∧ x.start = firstStart s.received := by
  obtain ⟨done, ⟨later, hdone⟩, hall⟩ := h
  rw [hfilled] at hall
  obtain ⟨x, more, _, _, rfl⟩ := List.forall₂_cons_right_iff.mp hall
  rw [← hdone]
  exact ⟨x, rfl, rfl⟩

/-- **Two streams side by side**: in every state that two uninterrupted streams reach,
    in any order of their steps, samples are as far apart as their originals exactly
    when nothing was filled on one side or the two first samples have one start time. -/
theorem start_differences_kept_iff {c₁ cap₁ c₂ cap₂ : Nat} {s u : Link × Link}
    (h₁ : Ready c₁ cap₁ s.1) (h₂ : Ready c₂ cap₂ s.2) (as : List (LinkAction ⊕ LinkAction))
    (has : Meets (prod step step) (Both (Streaming cap₁) (Streaming cap₂)) s as)
    (hrun : run (prod step step) s as = some u) :
    DifferencesKept u.1 u.2 ↔
      u.1.filled = [] ∨ u.2.filled = [] ∨ firstStart u.1.received = firstStart u.2.received := by
  obtain ⟨⟨w₁, hw₁⟩, ⟨w₂, hw₂⟩⟩ : (∃ w, Flow c₁ cap₁ w u.1) ∧ ∃ w, Flow c₂ cap₂ w u.2 :=
    run_invariant_of_meets (I := fun v => (∃ w, Flow c₁ cap₁ w v.1) ∧ ∃ w, Flow c₂ cap₂ w v.2)
      (prod_invariant flow_step flow_step) as s u ⟨h₁.flow, h₂.flow⟩ has hrun
  have hd₁ := hw₁.delivers
  have hd₂ := hw₂.delivers
  refine ⟨fun h => ?_, fun h i j x x' y y' hx hx' hy hy' => ?_⟩
  · cases hf₁ : u.1.filled with
    | nil => exact Or.inl rfl
    | cons x' rest₁ =>
      cases hf₂ : u.2.filled with
      | nil => exact Or.inr (Or.inl rfl)
      | cons y' rest₂ =>
        obtain ⟨x, hx, hxs⟩ := hd₁.head hf₁
        obtain ⟨y, hy, hys⟩ := hd₂.head hf₂
        have hx' : u.1.filled[0]? = some x' := by rw [hf₁]; rfl
        have hy' : u.2.filled[0]? = some y' := by rw [hf₂]; rfl
        have hdiff := h 0 0 x x' y y' hx hx' hy hy'
        rw [hd₁.start hx hx', hd₂.start hy hy'] at hdiff
        exact Or.inr (Or.inr (sub_sub_sub_eq_iff.mp hdiff))
  · rcases h with h | h | h
    · rw [h] at hx'
      cases hx'
    · rw [h] at hy'
      cases hy'
    · rw [hd₁.start hx hx', hd₂.start hy hy']
      exact sub_sub_sub_eq_iff.mpr h

/-- One sample on each side. -/
def sendBoth (x y : MediaSample) : List (LinkAction ⊕ LinkAction) :=
  (send x).map .inl ++ (send y).map .inr

theorem streaming_sendBoth {cap : Nat} {x y : MediaSample} (hx : x.Valid cap) (hy : y.Valid cap)
    (s : Link × Link) :
    Meets (prod step step) (Both (Streaming cap) (Streaming cap)) s (sendBoth x y) := by
  apply meets_of_forall
  intro a ha v
  rcases List.mem_append.mp ha with ha | ha
  · obtain ⟨b, hb, rfl⟩ := List.mem_map.mp ha
    exact streaming_send hx b hb v.1
  · obtain ⟨b, hb, rfl⟩ := List.mem_map.mp ha
    exact streaming_send hy b hb v.2

set_option maxRecDepth 4000 in
/-- Two streams that begin with samples of one start time. -/
theorem start_differences_kept_iff_same_start :
    ∃ s u, run step (new .garbage 0) connectSource = some s ∧
      run (prod step step) (s, s) (sendBoth byteSample byteSample) = some u ∧
      DifferencesKept u.1 u.2 := by
  have hrun : ∃ s u, run step (new .garbage 0) connectSource = some s ∧
      run (prod step step) (s, s) (sendBoth byteSample byteSample) = some u ∧
      firstStart u.1.received = firstStart u.2.received := ⟨_, _, rfl, rfl, rfl⟩
  obtain ⟨s, u, hs, hu, hfirst⟩ := hrun
  obtain ⟨s', hs', hready⟩ := ready_connectSource
  obtain rfl := Option.some.inj (hs.symm.trans hs')
  exact ⟨s, u, hs, hu, (start_differences_kept_iff hready hready _
    (streaming_sendBoth valid_byteSample valid_byteSample _) hu).mpr (Or.inr (Or.inr hfirst))⟩

/-- A sample that starts five units later. -/
def lateSample : MediaSample := { byteSample with time := .startStop 5 6 }

set_option maxRecDepth 4000 in
/-- The second stream begins five units after the first; both begin at 0 at the
    source. -/
theorem late_stream_moves :
    ∃ s u, run step (new .garbage 0) connectSource = some s ∧ Ready 0 1 s ∧
      Meets (prod step step) (Both (Streaming 1) (Streaming 1)) (s, s)
        (sendBoth byteSample lateSample) ∧
      run (prod step step) (s, s) (sendBoth byteSample lateSample) = some u ∧
      ¬ DifferencesKept u.1 u.2 := by
  have hrun : ∃ s u x' y', run step (new .garbage 0) connectSource = some s ∧
      run (prod step step) (s, s) (sendBoth byteSample lateSample) = some u ∧
      u.1.received[0]? = some byteSample ∧ u.2.received[0]? = some lateSample ∧
      u.1.filled[0]? = some x' ∧ u.2.filled[0]? = some y' ∧ x'.start = 0 ∧ y'.start = 0 :=
    ⟨_, _, _, _, rfl, rfl, rfl, rfl, rfl, rfl, rfl, rfl⟩
  obtain ⟨s, u, x', y', hs, hu, hx, hy, hx', hy', hxs, hys⟩ := hrun
  obtain ⟨s', hs', hready⟩ := ready_connectSource
  obtain rfl := Option.some.inj (hs.symm.trans hs')
  have hlate : lateSample.Valid 1 := ⟨⟨_, _, rfl⟩, ⟨_, _, rfl⟩, Nat.le_refl 1⟩
  refine ⟨s, u, hs, hready, streaming_sendBoth valid_byteSample hlate _, hu, fun h => ?_⟩
  have hdiff := h 0 0 byteSample x' lateSample y' hx hx' hy hy'
  rw [hxs, hys] at hdiff
  exact absurd hdiff (by decide)

end Link

end VirtualCaptureStream
