import VirtualCaptureStream.Link

/- What of a captured sample crosses the pipe. CMediaSampleX's constructor ignores
   whether GetTime, GetMediaTime and GetPointer succeed, and the writer copies every
   member into the header, so a member the constructor did not set crosses as the
   heap had it. `only_sample_crosses_iff` says for which samples two captures that
   differ in the heap alone send the same messages, whatever the threads of the
   sink do from the capture on. -/
namespace VirtualCaptureStream

open SinkSystem (SinkAction)

/-- The memory a capture is given: the members of the new object, and the bytes of
    the malloc'd block. -/
structure Heap where
  mediaTimeStart : Int64
  mediaTimeEnd : Int64
  timeStart : Int64
  timeEnd : Int64
  block : Nat → UInt8

/-- The same calls with the same results, on another heap. -/
def CaptureEnv.onHeap (env : CaptureEnv) (h : Heap) : CaptureEnv :=
  { env with
    mediaTimeStart := h.mediaTimeStart
    mediaTimeEnd := h.mediaTimeEnd
    timeStart := h.timeStart
    timeEnd := h.timeEnd
    block := h.block }

def SinkInputPin.ReceiveEnv.onHeap (env : SinkInputPin.ReceiveEnv) (h : Heap) :
    SinkInputPin.ReceiveEnv :=
  { env with capture := env.capture.onHeap h }

/-- GetTime and GetMediaTime have times to report, and the bytes of a payload are
    copied from the sample. -/
structure MediaSample.Determined (env : CaptureEnv) (s : MediaSample) : Prop where
  time : s.time ≠ .notSet
  mediaTime : s.mediaTime ≠ none
  payload : 0 < s.actualDataLength → env.malloc = true → env.getPointer = true

/-! Captures on two heaps. -/

theorem MediaSample.getTime_congr {s : MediaSample} (h : s.time ≠ .notSet) (x y : Int64 × Int64) :
    s.getTime x = s.getTime y := by
  unfold MediaSample.getTime
  split
  · rename_i hnot
    exact absurd hnot h
  · rfl
  · rfl

theorem MediaSample.getMediaTime_congr {s : MediaSample} (h : s.mediaTime ≠ none)
    (x y : Int64 × Int64) : s.getMediaTime x = s.getMediaTime y := by
  obtain ⟨times, hsome⟩ := Option.ne_none_iff_exists'.mp h
  rw [MediaSample.getMediaTime, MediaSample.getMediaTime, hsome, Option.getD_some,
    Option.getD_some]

/-- A determined sample is captured alike on every heap. -/
theorem MediaSampleX.new_congr {env : CaptureEnv} {s : MediaSample} (h : s.Determined env)
    (h₁ h₂ : Heap) :
    MediaSampleX.new (env.onHeap h₁) s = MediaSampleX.new (env.onHeap h₂) s := by
  have htime := MediaSample.getTime_congr h.time (h₁.timeStart, h₁.timeEnd)
    (h₂.timeStart, h₂.timeEnd)
  have hmedia := MediaSample.getMediaTime_congr h.mediaTime (h₁.mediaTimeStart, h₁.mediaTimeEnd)
    (h₂.mediaTimeStart, h₂.mediaTimeEnd)
  -- the block matters only where GetPointer was asked for it and failed
  have hbytes : (if (decide (0 < s.actualDataLength) && env.malloc) = true then
        (env.onHeap h₁).copy s else []) =
      if (decide (0 < s.actualDataLength) && env.malloc) = true then
        (env.onHeap h₂).copy s else [] := by
    split
    · rename_i hkeep
      obtain ⟨hpos, hmalloc⟩ := Bool.and_eq_true_iff.mp hkeep
      have hptr := h.payload (of_decide_eq_true hpos) hmalloc
      simp only [CaptureEnv.copy, CaptureEnv.onHeap, hptr, if_true]
    · rfl
  unfold MediaSampleX.new
  dsimp only
  rw [MediaSampleX.mk.injEq]
  exact ⟨rfl, congrArg Prod.fst hmedia, congrArg Prod.snd hmedia, congrArg Prod.fst htime,
    congrArg Prod.snd htime, rfl, rfl, rfl, rfl, hbytes⟩

/-- The messages of one packet tell its header and its payload. -/
theorem Packet.messages_inj {p q : Packet}
    (h : (Framing.unit Packet.hasPayload p).map Packet.message =
      (Framing.unit Packet.hasPayload q).map Packet.message) :
    p.info = q.info ∧ (p.hasPayload = true → p.payload = q.payload) := by
  simp only [Framing.unit_eq_cons, List.map_cons, List.cons.injEq] at h
  obtain ⟨hhead, hbody⟩ := h
  have hinfo : p.info = q.info := by
    rw [← MediaSampleInfo.codec.dec_enc_self p.info, ← MediaSampleInfo.codec.dec_enc_self q.info]
    exact congrArg MediaSampleInfo.codec.dec hhead
  refine ⟨hinfo, fun hp => ?_⟩
  have hq : q.hasPayload = true := by
    rw [Packet.hasPayload, ← hinfo]
    exact hp
  rw [if_pos hp, if_pos hq] at hbody
  exact (List.cons.inj hbody).1

/-- Packets that are the same for every heap are those of determined samples. -/
theorem MediaSample.determined_of_messages {env : CaptureEnv} {s : MediaSample} (rt rt2 : Int64)
    (h : ∀ h₁ h₂ : Heap,
      (Framing.unit Packet.hasPayload ((MediaSampleX.new (env.onHeap h₁) s).packet rt rt2)).map
          Packet.message =
        (Framing.unit Packet.hasPayload ((MediaSampleX.new (env.onHeap h₂) s).packet rt rt2)).map
          Packet.message) : s.Determined env := by
  have hzero_one : (0 : Int64) ≠ 1 := by decide
  refine ⟨fun hnot => ?_, fun hnone => ?_, fun hpos hmalloc => ?_⟩
  · have hinfo := (Packet.messages_inj (h ⟨0, 0, 0, 0, fun _ => 0⟩ ⟨0, 0, 1, 0, fun _ => 0⟩)).1
    have hstart := congrArg MediaSampleInfo.timeStart hinfo
    simp only [MediaSampleX.packet, MediaSampleX.info, MediaSampleX.new, MediaSample.getTime,
      CaptureEnv.onHeap, hnot] at hstart
    exact hzero_one hstart
  · have hinfo := (Packet.messages_inj (h ⟨0, 0, 0, 0, fun _ => 0⟩ ⟨1, 0, 0, 0, fun _ => 0⟩)).1
    have hstart := congrArg MediaSampleInfo.mediaTimeStart hinfo
    simp only [MediaSampleX.packet, MediaSampleX.info, MediaSampleX.new, MediaSample.getMediaTime,
      CaptureEnv.onHeap, hnone, Option.getD_none] at hstart
    exact hzero_one hstart
  · by_contra hptr
    rw [Bool.not_eq_true] at hptr
    have hkeep : (decide (0 < s.actualDataLength) && env.malloc) = true := by
      rw [hmalloc, decide_eq_true hpos]
      rfl
    -- the block is sent as it was found
    have hpayload := (Packet.messages_inj (h ⟨0, 0, 0, 0, fun _ => 0⟩ ⟨0, 0, 0, 0, fun _ => 1⟩)).2
    have hlen : (0 : Int32) < Int32.ofNat s.actualDataLength := by
      have hlt := s.actual_lt
      rw [Int32.lt_iff_toInt_lt, Int32.toInt_ofNat_of_lt hlt]
      have hzero : (0 : Int32).toInt = 0 := rfl
      omega
    simp only [MediaSampleX.packet, MediaSampleX.info, MediaSampleX.new, Packet.hasPayload,
      CaptureEnv.onHeap, CaptureEnv.copy, hptr, hkeep, if_true, decide_eq_true hlen,
      Bool.false_eq_true, if_false, forall_true_left] at hpayload
    have hfirst := congrArg List.head? hpayload
    obtain ⟨n, hn⟩ := Nat.exists_eq_succ_of_ne_zero (Nat.ne_of_gt hpos)
    simp only [hn, List.range_succ_eq_map, List.map_cons, List.head?_cons, Option.some.injEq]
      at hfirst
    exact absurd hfirst (by decide)

/-! The messages of a run. -/

/-- With the writer on, Receive queues the sample, and may set the error flag. -/
theorem SinkInputPin.receive_of_buffering (env : SinkInputPin.ReceiveEnv) (id : Nat)
    (s : MediaSample) {p : SinkInputPin} (h : p.bWriteBuffering = true) :
    ∃ error, (p.receive env id s).pin = { p with
      writeBuffer := p.writeBuffer ++ [⟨id, MediaSampleX.new env.capture s⟩]
      bRunTimeError := error } := by
  simp only [SinkInputPin.receive, h, Bool.not_true, Bool.false_eq_true, if_false]
  split
  · exact ⟨true, rfl⟩
  · exact ⟨p.bRunTimeError, rfl⟩

/-- On a determined sample Receive does the same on every heap. -/
theorem SinkInputPin.receive_congr {env : SinkInputPin.ReceiveEnv} {id : Nat} {s : MediaSample}
    {p : SinkInputPin} (h : s.Determined env.capture) (h₁ h₂ : Heap) :
    p.receive (env.onHeap h₁) id s = p.receive (env.onHeap h₂) id s := by
  have hnew : MediaSampleX.new (env.onHeap h₁).capture s =
      MediaSampleX.new (env.onHeap h₂).capture s := MediaSampleX.new_congr h h₁ h₂
  unfold SinkInputPin.receive
  rw [hnew]
  rfl

namespace SinkSystem

/-- What every client has been sent. -/
def messages (s : SinkSystem) : List (List Msg) := s.logs.map fun log => log.map Sent.message

/-- Whatever the state of a sink pin, whatever the heap of the capture held, and
    whatever the threads do from the capture on, the clients are sent the same. -/
def OnlySampleCrosses (hThread2 : ThreadHandle) (rtRefPoint2 : Int64)
    (env : SinkInputPin.ReceiveEnv) (sample : MediaSample) : Prop :=
  ∀ s, Transition.Reach step (new hThread2 rtRefPoint2) s →
    ∀ (h₁ h₂ : Heap) (as : List SinkAction) (u₁ u₂ : SinkSystem),
      Transition.run step s (.receive (env.onHeap h₁) sample :: as) = some u₁ →
      Transition.run step s (.receive (env.onHeap h₂) sample :: as) = some u₂ →
      u₁.messages = u₂.messages

/-- Without a pipe EndOfStream has nothing to stop. -/
theorem receiveStep_no_pipe {s : SinkSystem} {env : SinkInputPin.ReceiveEnv} {sample : MediaSample}
    (h : s.pin.hPipe = .null) : s.receiveStep env sample = some { s with
      pin := (s.pin.receive env s.received sample).pin
      received := s.received + 1
      writer := if (s.pin.receive env s.received sample).startWriter then some .outer
        else s.writer } := by
  have hnull : (s.pin.receive env s.received sample).pin.hPipe = .null := by
    rw [SinkInputPin.receive_hPipe, h]
  unfold receiveStep
  dsimp only
  rw [if_pos hnull, ite_self]

/-- The writer has started, has dropped the sample it was started for, and looks for
    the next one. -/
def writing (hThread2 : ThreadHandle) (rtRefPoint2 : Int64) : SinkSystem :=
  { new hThread2 rtRefPoint2 with
    pin := { SinkInputPin.new .thread 0 with bWriteBuffering := true, rtRefPoint := 0 }
    received := 1
    writer := some .inner }

theorem reach_writing (hThread2 : ThreadHandle) (rtRefPoint2 : Int64) :
    Transition.Reach step (new hThread2 rtRefPoint2) (writing hThread2 rtRefPoint2) :=
  ⟨.receive streaming emptySample :: List.replicate 6 .writer, rfl⟩

/-- A captured sample in the queue of that pin, which has no pipe yet. -/
def holding (hThread2 : ThreadHandle) (rtRefPoint2 : Int64) (x : MediaSampleX) (error : Bool) :
    SinkSystem :=
  { writing hThread2 rtRefPoint2 with
    pin := { (writing hThread2 rtRefPoint2).pin with
      writeBuffer := [⟨1, x⟩], bRunTimeError := error }
    received := 2 }

theorem step_writing_receive (hThread2 : ThreadHandle) (rtRefPoint2 : Int64)
    (env : SinkInputPin.ReceiveEnv) (sample : MediaSample) :
    ∃ error, (writing hThread2 rtRefPoint2).step (.receive env sample) =
      some (holding hThread2 rtRefPoint2 (MediaSampleX.new env.capture sample) error) := by
  have hon : (writing hThread2 rtRefPoint2).pin.bWriteBuffering = true := rfl
  obtain ⟨error, hpin⟩ := SinkInputPin.receive_of_buffering env 1 sample hon
  refine ⟨error, ?_⟩
  have hstart : ((writing hThread2 rtRefPoint2).pin.receive env 1 sample).startWriter = false := rfl
  have hlock : (writing hThread2 rtRefPoint2).lock = none := rfl
  rw [step, if_pos hlock, receiveStep_no_pipe rfl]
  have hpin' : ((writing hThread2 rtRefPoint2).pin.receive env
      (writing hThread2 rtRefPoint2).received sample).pin = _ := hpin
  rw [hpin']
  rfl

/-- A writer that is about to send a header sends it and the payload, if any. -/
theorem run_header {s : SinkSystem} {x : Queued} {p : Packet}
    (hwriter : s.writer = some (.header x p)) (hclient : s.client = some 0)
    (hlogs : s.logs = [[]]) (hon : s.pin.bWriteBuffering = true) :
    ∃ u, Transition.run step s [.writer, .writer] = some u ∧
      u.messages = [(Framing.unit Packet.hasPayload p).map Packet.message] := by
  cases hp : p.hasPayload with
  | false =>
    refine ⟨{ s with logs := [[.head (x.id, p)]], writer := some .next }, ?_, ?_⟩
    · simp [Transition.run, step, writerStep, write, deliver, hwriter, hclient, hlogs, hp, hon]
    · simp [messages, Sent.message, Framing.unit, hp]
  | true =>
    refine ⟨{ s with logs := [[.head (x.id, p), .body (x.id, p)]], writer := some .inner }, ?_, ?_⟩
    · have hattached : ∀ t : SinkSystem, t.pipe = s.pipe → t.client = some 0 := by
        intro t ht
        rw [client, ht]
        exact hclient
      simp [Transition.run, step, writerStep, write, deliver, hwriter, hclient, hlogs, hp,
        hattached]
    · simp [messages, Sent.message, Framing.unit, hp]

/-- The pipe is made, a client comes, and the writer sends what it holds. -/
def sendHeld : List SinkAction := connectClient ++ List.replicate 6 .writer

theorem run_sendHeld (hThread2 : ThreadHandle) (rtRefPoint2 : Int64) (x : MediaSampleX)
    (error : Bool) :
    ∃ u, Transition.run step (holding hThread2 rtRefPoint2 x error) sendHeld = some u ∧
      u.messages = [(Framing.unit Packet.hasPayload (x.packet 0 0)).map Packet.message] := by
  obtain ⟨v, hv, hwriter, hclient, hlogs, hon⟩ : ∃ v,
      Transition.run step (holding hThread2 rtRefPoint2 x error)
        (connectClient ++ List.replicate 4 .writer) = some v ∧
      v.writer = some (.header ⟨1, x⟩ (x.packet 0 0)) ∧ v.client = some 0 ∧ v.logs = [[]] ∧
      v.pin.bWriteBuffering = true := ⟨_, rfl, rfl, rfl, rfl, rfl⟩
  obtain ⟨u, hu, hmsgs⟩ := run_header hwriter hclient hlogs hon
  have hsplit : sendHeld =
      (connectClient ++ List.replicate 4 .writer) ++ [.writer, .writer] := rfl
  rw [hsplit]
  exact ⟨u, Transition.run_append.mpr ⟨v, hv, hu⟩, hmsgs⟩

theorem OnlySampleCrosses.determined {hThread2 : ThreadHandle} {rtRefPoint2 : Int64}
    {env : SinkInputPin.ReceiveEnv} {sample : MediaSample}
    (h : OnlySampleCrosses hThread2 rtRefPoint2 env sample) : sample.Determined env.capture := by
  refine MediaSample.determined_of_messages 0 0 fun h₁ h₂ => ?_
  obtain ⟨error₁, hstep₁⟩ := step_writing_receive hThread2 rtRefPoint2 (env.onHeap h₁) sample
  obtain ⟨error₂, hstep₂⟩ := step_writing_receive hThread2 rtRefPoint2 (env.onHeap h₂) sample
  obtain ⟨u₁, hsend₁, hmsgs₁⟩ := run_sendHeld hThread2 rtRefPoint2
    (MediaSampleX.new (env.capture.onHeap h₁) sample) error₁
  obtain ⟨u₂, hsend₂, hmsgs₂⟩ := run_sendHeld hThread2 rtRefPoint2
    (MediaSampleX.new (env.capture.onHeap h₂) sample) error₂
  have hsame := h _ (reach_writing hThread2 rtRefPoint2) h₁ h₂ sendHeld u₁ u₂
    (Transition.run_cons.mpr ⟨_, hstep₁, hsend₁⟩) (Transition.run_cons.mpr ⟨_, hstep₂, hsend₂⟩)
  rw [hmsgs₁, hmsgs₂] at hsame
  exact (List.cons.inj hsame).1

/-- **Messages depend only on the sample** exactly if it has a start time and media
    times, and its data, if it has any, is copied. -/
theorem only_sample_crosses_iff (hThread2 : ThreadHandle) (rtRefPoint2 : Int64)
    (env : SinkInputPin.ReceiveEnv) (sample : MediaSample) :
    OnlySampleCrosses hThread2 rtRefPoint2 env sample ↔ sample.Determined env.capture := by
  refine ⟨OnlySampleCrosses.determined, fun h s _ h₁ h₂ as u₁ u₂ hrun₁ hrun₂ => ?_⟩
  -- the two captures are one, and so are the runs
  have hsame : s.step (.receive (env.onHeap h₁) sample) =
      s.step (.receive (env.onHeap h₂) sample) := by
    rw [step, step, receiveStep, receiveStep, SinkInputPin.receive_congr h h₁ h₂]
  rw [Transition.run, hsame] at hrun₁
  rw [Transition.run, hrun₁, Option.some.injEq] at hrun₂
  rw [hrun₂]

/-- A captured frame, as most devices deliver it: without media times. -/
def frame : MediaSample := { byteSample with mediaTime := none }

/-- The media times in a frame's header are what the heap held. -/
theorem frame_header_leaks_heap : ¬ OnlySampleCrosses .null 0 streaming frame :=
  fun h => h.determined.mediaTime rfl

end SinkSystem

end VirtualCaptureStream
