import VirtualCaptureStream.Lib.Transition
import VirtualCaptureStream.SourceOutputPin

/- The outcomes of FillBuffer. The base class delivers a buffer downstream exactly
   when FillBuffer returns S_OK, and `hr` is S_OK on several exits that filled
   nothing: `fillBuffer_real_iff` says for which outcomes of the calls an S_OK
   stands for a real sample. Between the two reads there are returns that leave a
   payload in the pipe: `reader_at_header_iff` says over runs of FillBuffer calls
   on a well-framed pipe when every call starts at a header. -/
namespace VirtualCaptureStream.SourceOutputPin

/-! What follows the header. -/

/-- The exits between the two reads, in order. -/
theorem afterHeader_next (p : SourceOutputPin) (s : MediaSample) (r : SetterResults)
    (info : MediaSampleInfo) :
    (afterHeader p s r info).next =
      if failed r.setSyncPoint then .ret S_OK
      else if failed r.setPreroll then .ret r.setPreroll
      else if failed r.setMediaType then .ret r.setMediaType
      else if failed r.setDiscontinuity then .ret r.setDiscontinuity
      else if 0 < info.actualDataLength then
        .readPayload info.actualDataLength.toNatClampNeg r.setDiscontinuity
      else .ret r.setDiscontinuity := by
  unfold afterHeader
  dsimp only
  repeat' split
  all_goals rfl

/-- The setters do not touch the buffer. -/
theorem afterHeader_buffer (p : SourceOutputPin) (s : MediaSample) (r : SetterResults)
    (info : MediaSampleInfo) : (afterHeader p s r info).sample.buffer = s.buffer := by
  unfold afterHeader
  dsimp only
  repeat' split
  all_goals simp

/-- With setters that succeed the sample gets everything but its data. -/
theorem afterHeader_allOk (p : SourceOutputPin) (s : MediaSample) (info : MediaSampleInfo) :
    (afterHeader p s .allOk info).sample.time =
        .startStop (info.timeStart - (afterHeader p s .allOk info).pin.rtStart)
          (info.timeEnd - (afterHeader p s .allOk info).pin.rtStart) ∧
      (afterHeader p s .allOk info).sample.mediaTime =
        some (info.mediaTimeStart,
          MediaSample.longEnd info.mediaTimeStart info.mediaTimeEnd) ∧
      (afterHeader p s .allOk info).sample.isSyncPoint = decide (info.isSyncPoint ≠ 0) ∧
      (0 ≤ info.actualDataLength → info.actualDataLength.toNatClampNeg ≤ s.getSize →
        (afterHeader p s .allOk info).sample.actualDataLength =
          info.actualDataLength.toNatClampNeg) := by
  rw [afterHeader_latch]
  cases hf : p.fFirstSampleDelivered <;>
    simp only [afterHeader, hf, SetterResults.allOk, not_failed_S_OK, Bool.false_eq_true, if_false,
      if_true, MediaSample.setTime, MediaSample.setMediaTime, MediaSample.setSyncPoint,
      MediaSample.setPreroll, MediaSample.setMediaType, MediaSample.setDiscontinuity] <;>
    split <;>
    · refine ⟨rfl, rfl, rfl, fun h0 hle => ?_⟩
      simp only [MediaSample.setActualDataLength]
      rw [dif_pos ⟨not_failed_S_OK, h0, hle⟩]

section
variable {ω : Type} {rd : Nat → ω → ReadResult × ω} {r : SetterResults} {p : SourceOutputPin}
  {calls : List OsCall} {s : MediaSample} {w : ω}

/-- The header a successful first read leaves in `mediaSampleInfo`; a short read
    leaves zeros behind what it stored. -/
def headerOf (rd : Nat → ω → ReadResult × ω) (w : ω) : MediaSampleInfo :=
  MediaSampleInfo.codec.dec (rd sizeofMediaSampleInfo w).1.bytes

theorem fillConnected_no_header (hs : (rd sizeofMediaSampleInfo w).1.fSuccess = false) :
    fillConnected rd r p calls s w =
      ⟨S_OK, p, s, .readFile p.hPipe sizeofMediaSampleInfo :: calls,
        (rd sizeofMediaSampleInfo w).2, some (rd sizeofMediaSampleInfo w).1, none⟩ := by
  simp [fillConnected, hs]

theorem fillConnected_ret {hr : HRESULT} (hs : (rd sizeofMediaSampleInfo w).1.fSuccess = true)
    (hn : (afterHeader p s r (headerOf rd w)).next = .ret hr) :
    fillConnected rd r p calls s w =
      ⟨hr, (afterHeader p s r (headerOf rd w)).pin, (afterHeader p s r (headerOf rd w)).sample,
        .readFile p.hPipe sizeofMediaSampleInfo :: calls, (rd sizeofMediaSampleInfo w).2,
        some (rd sizeofMediaSampleInfo w).1, none⟩ := by
  unfold headerOf at hn
  simp [fillConnected, headerOf, hs, hn]

/-- The payload read: a NULL buffer makes it fail before it reaches the pipe. -/
def payloadRead (rd : Nat → ω → ReadResult × ω) (r : SetterResults) (n : Nat) (w : ω) :
    ReadResult × ω :=
  if r.getPointer then rd n w else (.broken, w)

theorem fillConnected_readPayload {n : Nat} {hr : HRESULT}
    (hs : (rd sizeofMediaSampleInfo w).1.fSuccess = true)
    (hn : (afterHeader p s r (headerOf rd w)).next = .readPayload n hr) :
    fillConnected rd r p calls s w =
      ⟨hr, (afterHeader p s r (headerOf rd w)).pin,
        (afterHeader p s r (headerOf rd w)).sample.store
          (payloadRead rd r n (rd sizeofMediaSampleInfo w).2).1.bytes,
        .readFile p.hPipe n :: .readFile p.hPipe sizeofMediaSampleInfo :: calls,
        (payloadRead rd r n (rd sizeofMediaSampleInfo w).2).2,
        some (rd sizeofMediaSampleInfo w).1,
        some (n, (payloadRead rd r n (rd sizeofMediaSampleInfo w).2).1)⟩ := by
  unfold headerOf at hn
  simp [fillConnected, headerOf, payloadRead, hs, hn]

/-- What the call will return: the payload read does not change it. -/
def FillNext.hr : FillNext → HRESULT
  | .ret hr => hr
  | .readPayload _ hr => hr

theorem fillConnected_hr (hs : (rd sizeofMediaSampleInfo w).1.fSuccess = true) :
    (fillConnected rd r p calls s w).hr = (afterHeader p s r (headerOf rd w)).next.hr := by
  cases hn : (afterHeader p s r (headerOf rd w)).next with
  | ret hr =>
    rw [fillConnected_ret hs hn]
    rfl
  | readPayload n hr =>
    rw [fillConnected_readPayload hs hn]
    rfl

/-! Which calls deliver a real sample. -/

/-- One complete header was read and, when it announces data, a payload of exactly
    that many bytes, which the sample's buffer now holds. -/
def FillResult.Real (f : FillResult ω) : Prop :=
  ∃ h, f.header = some h ∧ h.fSuccess = true ∧ h.bytes.length = sizeofMediaSampleInfo ∧
    (0 < (MediaSampleInfo.codec.dec h.bytes).actualDataLength → ∃ n pl,
      n = (MediaSampleInfo.codec.dec h.bytes).actualDataLength.toNatClampNeg ∧
      f.payload = some (n, pl) ∧ pl.fSuccess = true ∧ pl.bytes.length = n ∧
      f.sample.buffer.take n = pl.bytes)

/-- A setter's failure, or a success code other than S_OK, becomes the result. -/
def SetterResults.Reported (r : SetterResults) : Prop :=
  failed r.setSyncPoint = false ∧
    (failed r.setPreroll = true ∨ failed r.setMediaType = true ∨ r.setDiscontinuity ≠ S_OK)

/-- The payload read of `n` bytes is made and stores all of them in the sample. -/
def PayloadArrives (rd : Nat → ω → ReadResult × ω) (r : SetterResults) (s : MediaSample) (n : Nat)
    (w : ω) : Prop :=
  failed r.setSyncPoint = false ∧ (payloadRead rd r n w).1.fSuccess = true ∧
    (payloadRead rd r n w).1.bytes.length = n ∧ n ≤ s.getSize

/-- The pipe and the sample answer so that S_OK is not returned without a sample. -/
def Honest (rd : Nat → ω → ReadResult × ω) (r : SetterResults) (s : MediaSample) (w : ω) : Prop :=
  (rd sizeofMediaSampleInfo w).1.fSuccess = true ∧
    (r.Reported ∨
      (rd sizeofMediaSampleInfo w).1.bytes.length = sizeofMediaSampleInfo ∧
        (0 < (headerOf rd w).actualDataLength →
          PayloadArrives rd r s (headerOf rd w).actualDataLength.toNatClampNeg
            (rd sizeofMediaSampleInfo w).2))

theorem failed_ne_S_OK {hr : HRESULT} (h : failed hr = true) : hr ≠ S_OK := by
  intro e
  rw [e, not_failed_S_OK] at h
  cases h

/-- When no failure is reported, what is left is the SetSyncPoint exit, the payload
    read, or the end without one, all with S_OK. -/
theorem afterHeader_next_of_not_reported (hr : ¬ r.Reported) (info : MediaSampleInfo) :
    (afterHeader p s r info).next =
      if failed r.setSyncPoint = false ∧ 0 < info.actualDataLength then
        .readPayload info.actualDataLength.toNatClampNeg S_OK
      else .ret S_OK := by
  rw [afterHeader_next]
  by_cases hsync : failed r.setSyncPoint = true
  · simp [hsync]
  · rw [Bool.not_eq_true] at hsync
    have hpre : failed r.setPreroll = false := by
      by_contra h
      exact hr ⟨hsync, Or.inl (by simpa using h)⟩
    have hmt : failed r.setMediaType = false := by
      by_contra h
      exact hr ⟨hsync, Or.inr (Or.inl (by simpa using h))⟩
    have hdisc : r.setDiscontinuity = S_OK := by
      by_contra h
      exact hr ⟨hsync, Or.inr (Or.inr h)⟩
    simp [hsync, hpre, hmt, hdisc]

/-- A reported failure or success code is what FillBuffer returns. -/
theorem fillConnected_reported (hs : (rd sizeofMediaSampleInfo w).1.fSuccess = true)
    (hr : r.Reported) : (fillConnected rd r p calls s w).hr ≠ S_OK := by
  obtain ⟨hsync, hrep⟩ := hr
  rw [fillConnected_hr hs, afterHeader_next, hsync, if_neg Bool.false_ne_true]
  by_cases hpre : failed r.setPreroll = true
  · rw [if_pos hpre]
    exact failed_ne_S_OK hpre
  rw [if_neg hpre]
  by_cases hmt : failed r.setMediaType = true
  · rw [if_pos hmt]
    exact failed_ne_S_OK hmt
  rw [if_neg hmt]
  -- SetDiscontinuity's result is returned on every exit that is left
  have hdisc : r.setDiscontinuity ≠ S_OK := by
    rcases hrep with h | h | h
    · exact absurd h hpre
    · exact absurd h hmt
    · exact h
  repeat' split
  all_goals exact hdisc

theorem afterHeader_size (info : MediaSampleInfo) :
    (afterHeader p s r info).sample.getSize = s.getSize := by
  unfold MediaSample.getSize
  rw [afterHeader_buffer]

/-- On a connected pin S_OK stands for a real sample exactly when the outcomes are
    `Honest`. -/
theorem fillConnected_real_iff :
    ((fillConnected rd r p calls s w).hr = S_OK → (fillConnected rd r p calls s w).Real) ↔
      Honest rd r s w := by
  cases hs : (rd sizeofMediaSampleInfo w).1.fSuccess
  · -- the failed header read returns S_OK
    refine iff_of_false ?_ ?_
    · rw [fillConnected_no_header hs]
      intro h
      obtain ⟨hd, hh, hok, _⟩ := h rfl
      obtain rfl := Option.some.inj hh
      rw [hs] at hok
      cases hok
    · intro h
      rw [Honest, hs] at h
      cases h.1
  by_cases hrep : r.Reported
  · exact iff_of_true (fun h => absurd h (fillConnected_reported hs hrep)) ⟨hs, Or.inl hrep⟩
  have hnext := afterHeader_next_of_not_reported (p := p) (s := s) hrep (headerOf rd w)
  have hhonest : Honest rd r s w ↔
      (rd sizeofMediaSampleInfo w).1.bytes.length = sizeofMediaSampleInfo ∧
        (0 < (headerOf rd w).actualDataLength →
          PayloadArrives rd r s (headerOf rd w).actualDataLength.toNatClampNeg
            (rd sizeofMediaSampleInfo w).2) := by
    simp only [Honest, hs, true_and, hrep, false_or]
  rw [hhonest]
  by_cases hpay : failed r.setSyncPoint = false ∧ 0 < (headerOf rd w).actualDataLength
  · -- the payload read decides
    obtain ⟨hsync, hlen⟩ := hpay
    rw [if_pos ⟨hsync, hlen⟩] at hnext
    rw [fillConnected_readPayload hs hnext]
    refine ⟨fun h => ?_, fun h _ => ?_⟩
    · obtain ⟨hd, hh, hok, hfull, hbody⟩ := h rfl
      obtain rfl := Option.some.inj hh
      obtain ⟨n, pl, rfl, hpl, hplok, hpllen, hstored⟩ := hbody hlen
      obtain ⟨_, rfl⟩ := Prod.mk.inj (Option.some.inj hpl)
      refine ⟨hfull, fun _ => ⟨hsync, hplok, hpllen, ?_⟩⟩
      have hfits := (MediaSample.store_take_iff
        (afterHeader p s r (headerOf rd w)).sample _).mp (by rw [hpllen]; exact hstored)
      rw [afterHeader_size, hpllen] at hfits
      exact hfits
    · obtain ⟨hfull, harr⟩ := h
      obtain ⟨_, hok, hplen, hfits⟩ := harr hlen
      refine ⟨_, rfl, hs, hfull, fun _ => ⟨_, _, rfl, rfl, hok, hplen, ?_⟩⟩
      have hstored := MediaSample.store_take (afterHeader p s r (headerOf rd w)).sample
        (payloadRead rd r (headerOf rd w).actualDataLength.toNatClampNeg
          (rd sizeofMediaSampleInfo w).2).1.bytes (by rw [afterHeader_size, hplen]; exact hfits)
      rw [hplen] at hstored
      exact hstored
  · -- S_OK without a payload read: right when the header announced no data
    rw [if_neg hpay] at hnext
    rw [fillConnected_ret hs hnext]
    refine ⟨fun h => ?_, fun h _ => ?_⟩
    · obtain ⟨hd, hh, hok, hfull, hbody⟩ := h rfl
      obtain rfl := Option.some.inj hh
      refine ⟨hfull, fun hlen => ?_⟩
      obtain ⟨n, pl, _, hpl, _⟩ := hbody hlen
      cases hpl
    · obtain ⟨hfull, harr⟩ := h
      exact ⟨_, rfl, hs, hfull, fun hlen => absurd ⟨(harr hlen).1, hlen⟩ hpay⟩

/-- The pin is connected, or the connection FillBuffer tries succeeds. -/
def Connects (env : FillEnv) (p : SourceOutputPin) : Prop :=
  p.bConnected = true ∨ (opens env.connect.attempts && env.connect.modeSet) = true

/-- FillBuffer on a running pin: a connected pin is left as it is, another one gets
    its connection or not. -/
theorem fillBuffer_running {env : FillEnv} {f : FillResult ω} (hrun : p.bRunning = true)
    (hf : fillBuffer rd env p calls s w = some f) :
    ∃ p' cs, (p'.bConnected = true ↔ Connects env p) ∧ (p.bConnected = true → p' = p) ∧
      (p.bConnected = false → p'.bConnected = true → ∃ n, p'.hPipe = .handle n) ∧
      f = if p'.bConnected then fillConnected rd env.setters p' cs s w
        else ⟨S_OK, p', s, cs, w, none, none⟩ := by
  simp only [fillBuffer, hrun, Bool.true_eq_false, if_false, Option.map_eq_some_iff] at hf
  obtain ⟨⟨p', cs⟩, hconn, rfl⟩ := hf
  by_cases hc : p.bConnected = true
  · rw [if_pos hc] at hconn
    obtain ⟨rfl, rfl⟩ := Prod.mk.inj (Option.some.inj hconn)
    refine ⟨p, calls, ?_, fun _ => rfl, fun h => ?_, rfl⟩
    · exact iff_of_true hc (Or.inl hc)
    · rw [hc] at h
      cases h
  · rw [if_neg hc, Option.map_eq_some_iff] at hconn
    obtain ⟨⟨hr, q, cs'⟩, hconn, heq⟩ := hconn
    obtain ⟨rfl, rfl⟩ := Prod.mk.inj heq
    obtain ⟨hflag, hhandle⟩ := connectToSinkPin_flag hconn
    refine ⟨q, cs', ?_, fun h => absurd h hc, fun _ => hhandle, rfl⟩
    rw [hflag]
    simp [Connects, hc]

/-- **Only real samples**: S_OK stands for a real sample exactly when the pin is not
    running, or it gets its connection and the outcomes of the reads and setters
    are `Honest`. -/
theorem fillBuffer_real_iff (env : FillEnv) (f : FillResult ω)
    (hf : fillBuffer rd env p calls s w = some f) :
    (f.hr = S_OK → f.Real) ↔
      p.bRunning = false ∨ (Connects env p ∧ Honest rd env.setters s w) := by
  cases hrun : p.bRunning
  · simp only [fillBuffer, hrun, if_true, Option.some.injEq] at hf
    subst hf
    refine iff_of_true (fun h => ?_) (Or.inl rfl)
    exact absurd h (show S_FALSE ≠ S_OK by decide)
  obtain ⟨p', cs, hflag, _, _, rfl⟩ := fillBuffer_running hrun hf
  simp only [Bool.true_eq_false, false_or]
  by_cases hc : p'.bConnected = true
  · rw [if_pos hc, fillConnected_real_iff]
    exact ⟨fun h => ⟨hflag.mp hc, h⟩, fun h => h.2⟩
  · rw [if_neg hc]
    refine iff_of_false ?_ (fun h => hc (hflag.mpr h.1))
    intro h
    obtain ⟨hd, hh, _⟩ := h rfl
    cases hh

end

/-! A header read from a broken pipe. -/

/-- A running pin that holds an open pipe. -/
def playing : SourceOutputPin :=
  { new [] bareVideo ⟨1, 1, 1, 0⟩ 0 true with hPipe := .handle 0, bConnected := true }

/-- When the sink has gone, FillBuffer returns S_OK and has filled nothing. -/
theorem broken_pipe_returns_S_OK :
    ∃ f, fillBuffer readMessage ⟨⟨[], true⟩, .allOk⟩ playing [] emptySample [] = some f ∧
      ¬ (f.hr = S_OK → f.Real) := by
  refine ⟨_, rfl, fun h => ?_⟩
  obtain ⟨hd, hh, hok, _⟩ := h rfl
  obtain rfl := Option.some.inj hh
  cases hok

/-- One byte of data. -/
def bytePacket : Packet where
  info := ⟨1, 0, 0, 0, 0, 0, 0, 1, 0, 0, 0⟩
  payload := [7]
  payload_length := by decide

/-- Header and payload are read whole: the sample is real. -/
theorem fillBuffer_real_iff_byte_packet :
    ∃ f, fillBuffer readMessage ⟨⟨[], true⟩, .allOk⟩ playing [] byteSample
        [Packet.message (.head bytePacket), Packet.message (.body bytePacket)] = some f ∧
      f.hr = S_OK ∧ f.Real := by
  have hconn : Connects ⟨⟨[], true⟩, .allOk⟩ playing := Or.inl rfl
  have hread := @readMessage_fits _ _ [Packet.message (.body bytePacket)]
    (Nat.le_of_eq bytePacket.head_length)
  have hinfo : headerOf readMessage
      [Packet.message (.head bytePacket), Packet.message (.body bytePacket)] = bytePacket.info := by
    rw [headerOf, hread]
    exact MediaSampleInfo.codec.dec_enc_self bytePacket.info
  have hhonest : Honest readMessage .allOk byteSample
      [Packet.message (.head bytePacket), Packet.message (.body bytePacket)] := by
    refine ⟨by rw [hread]; rfl, Or.inr ⟨by rw [hread]; exact bytePacket.head_length, fun _ => ?_⟩⟩
    rw [hinfo, hread]
    exact ⟨rfl, rfl, rfl, Nat.le_refl 1⟩
  obtain ⟨f, hf⟩ : ∃ f, fillBuffer readMessage ⟨⟨[], true⟩, .allOk⟩ playing [] byteSample
      [Packet.message (.head bytePacket), Packet.message (.body bytePacket)] = some f := ⟨_, rfl⟩
  have hok : f.hr = S_OK := by
    obtain ⟨p', cs, -, hsame, -, rfl⟩ := fillBuffer_running rfl hf
    obtain rfl := hsame rfl
    rw [if_pos (show playing.bConnected = true from rfl), fillConnected_hr hhonest.1,
      afterHeader_next_of_not_reported (by unfold SetterResults.Reported; decide)]
    split <;> rfl
  exact ⟨f, hf, hok, (fillBuffer_real_iff _ f hf).mpr (Or.inr ⟨hconn, hhonest⟩) hok⟩

/-! The pipe as a queue of packets. -/

/-- Messages with the parts they are; what is left of a message keeps its part. -/
def readTagged {τ : Type} (n : Nat) : List (τ × Msg) → ReadResult × List (τ × Msg)
  | [] => (.broken, [])
  | (t, m) :: rest =>
    if m.length ≤ n then (.ok m, rest) else (⟨false, m.take n, true⟩, (t, m.drop n) :: rest)

theorem readTagged_fits {τ : Type} {n : Nat} {t : τ} {m : Msg} {rest : List (τ × Msg)}
    (h : m.length ≤ n) : readTagged n ((t, m) :: rest) = (.ok m, rest) := by
  simp [readTagged, h]

/-- The parts do not change what ReadFile sees. -/
theorem readTagged_erase {τ : Type} (n : Nat) (w : List (τ × Msg)) :
    ((readTagged n w).1, (readTagged n w).2.map Prod.snd) = readMessage n (w.map Prod.snd) := by
  cases w with
  | nil => rfl
  | cons tm rest =>
    obtain ⟨t, m⟩ := tm
    by_cases h : m.length ≤ n <;> simp [readTagged, readMessage, h]

/-- The messages of whole packets. -/
def queue (qs : List Packet) : List (Framing.Part Packet × Msg) :=
  (Framing.stream Packet.hasPayload qs).map fun t => (t, Packet.message t)

@[simp] theorem queue_nil : queue [] = [] := rfl

theorem queue_cons (q : Packet) (qs : List Packet) :
    queue (q :: qs) = (.head q, Packet.message (.head q)) ::
      ((if q.hasPayload then [(.body q, q.payload)] else []) ++ queue qs) := by
  rw [queue, Framing.stream_cons, Framing.unit_eq_cons]
  cases q.hasPayload <;> rfl

/-- The next message is a header, and every header has its payload behind it. -/
def AtBoundary (w : List (Framing.Part Packet × Msg)) : Prop := ∃ qs, w = queue qs

theorem not_atBoundary_body {q : Packet} {m : Msg} {w : List (Framing.Part Packet × Msg)} :
    ¬ AtBoundary ((.body q, m) :: w) := by
  intro h
  obtain ⟨qs, h⟩ := h
  cases qs with
  | nil => cases h
  | cons q' qs =>
    rw [queue_cons, List.cons.injEq] at h
    cases h.1

/-- No setter makes FillBuffer return before the payload, and it has a buffer to
    read it into. -/
def SetterResults.Consumes (r : SetterResults) : Prop :=
  failed r.setSyncPoint = false ∧ failed r.setPreroll = false ∧ failed r.setMediaType = false ∧
    failed r.setDiscontinuity = false ∧ r.getPointer = true

/-- Setters that let the payload through: it is read when there is one. -/
theorem afterHeader_consumes (p : SourceOutputPin) (s : MediaSample) {r : SetterResults}
    {info : MediaSampleInfo} (hr : r.Consumes) (hpos : 0 < info.actualDataLength) :
    (afterHeader p s r info).next =
      .readPayload info.actualDataLength.toNatClampNeg r.setDiscontinuity := by
  obtain ⟨hsync, hpre, hmt, hdisc, _⟩ := hr
  rw [afterHeader_next]
  simp only [hsync, hpre, hmt, hdisc, Bool.false_eq_true, if_false, if_pos hpos]

/-- Without one FillBuffer returns. -/
theorem afterHeader_no_payload (p : SourceOutputPin) (s : MediaSample) (r : SetterResults)
    {info : MediaSampleInfo} (hpos : ¬ 0 < info.actualDataLength) :
    ∃ hr, (afterHeader p s r info).next = .ret hr := by
  rw [afterHeader_next, if_neg hpos]
  repeat' split
  all_goals exact ⟨_, rfl⟩

theorem readTagged_header (q : Packet) (qs : List Packet) :
    readTagged sizeofMediaSampleInfo (queue (q :: qs)) =
      (.ok (Packet.message (.head q)),
        (if q.hasPayload then [(.body q, q.payload)] else []) ++ queue qs) := by
  rw [queue_cons, readTagged_fits (Nat.le_of_eq q.head_length)]

theorem readTagged_header_ok (q : Packet) (qs : List Packet) :
    (readTagged sizeofMediaSampleInfo (queue (q :: qs))).1.fSuccess = true := by
  rw [readTagged_header]
  rfl

theorem headerOf_queue (q : Packet) (qs : List Packet) :
    headerOf readTagged (queue (q :: qs)) = q.info := by
  rw [headerOf, readTagged_header]
  exact MediaSampleInfo.codec.dec_enc_self q.info

section
variable {r : SetterResults} {p : SourceOutputPin} {calls : List OsCall} {s : MediaSample}

/-- The payload read is reached only past all the setters. -/
theorem setters_of_readPayload {info : MediaSampleInfo} {n : Nat} {hr : HRESULT}
    (h : (afterHeader p s r info).next = .readPayload n hr) :
    failed r.setSyncPoint = false ∧ failed r.setPreroll = false ∧ failed r.setMediaType = false ∧
      failed r.setDiscontinuity = false := by
  rw [afterHeader_next] at h
  cases hsync : failed r.setSyncPoint
  · cases hpre : failed r.setPreroll
    · cases hmt : failed r.setMediaType
      · cases hdisc : failed r.setDiscontinuity
        · exact ⟨rfl, rfl, rfl, rfl⟩
        · simp [hsync, hpre, hmt, hdisc] at h
      · simp [hsync, hpre, hmt] at h
    · simp [hsync, hpre] at h
  · simp [hsync] at h

/-- Past the header of a packet without payload nothing more is read. -/
theorem fillConnected_no_payload {q : Packet} {qs : List Packet} (hq : q.hasPayload = false) :
    (fillConnected readTagged r p calls s (queue (q :: qs))).world = queue qs := by
  have hread := readTagged_header q qs
  have hs := readTagged_header_ok q qs
  have hlen : ¬ 0 < q.info.actualDataLength := by simpa [Packet.hasPayload] using hq
  obtain ⟨hr, hret⟩ := afterHeader_no_payload p s r hlen
  rw [← headerOf_queue q qs] at hret
  rw [fillConnected_ret hs hret, hread]
  simp [hq]

/-- A packet with payload is consumed whole when the setters let the payload be read. -/
theorem fillConnected_consumes {q : Packet} {qs : List Packet} (hq : q.hasPayload = true)
    (hr : r.Consumes) :
    (fillConnected readTagged r p calls s (queue (q :: qs))).world = queue qs := by
  have hread := readTagged_header q qs
  have hs := readTagged_header_ok q qs
  have hlen : 0 < q.info.actualDataLength := by simpa [Packet.hasPayload] using hq
  have hnext : (afterHeader p s r (headerOf readTagged (queue (q :: qs)))).next =
      .readPayload q.info.actualDataLength.toNatClampNeg r.setDiscontinuity := by
    rw [headerOf_queue]
    exact afterHeader_consumes p s hr hlen
  have hptr : r.getPointer = true := hr.2.2.2.2
  rw [fillConnected_readPayload hs hnext, hread]
  simp [payloadRead, hptr, hq, readTagged, q.payload_length]

/-- Otherwise the payload stays behind and is what the next read finds. -/
theorem fillConnected_leaves {q : Packet} {qs : List Packet} (hq : q.hasPayload = true)
    (hr : ¬ r.Consumes) :
    (fillConnected readTagged r p calls s (queue (q :: qs))).world =
      (.body q, q.payload) :: queue qs := by
  have hread := readTagged_header q qs
  have hs := readTagged_header_ok q qs
  have hrest : (readTagged sizeofMediaSampleInfo (queue (q :: qs))).2 =
      (.body q, q.payload) :: queue qs := by
    rw [hread]
    simp [hq]
  cases hnext : (afterHeader p s r (headerOf readTagged (queue (q :: qs)))).next with
  | ret hr => rw [fillConnected_ret hs hnext, hrest]
  | readPayload n hr' =>
    -- the read is reached, so it is the buffer pointer that is missing
    obtain ⟨hsync, hpre, hmt, hdisc⟩ := setters_of_readPayload hnext
    have hptr : r.getPointer = false := by
      by_contra hptr
      exact hr ⟨hsync, hpre, hmt, hdisc, by simpa using hptr⟩
    rw [fillConnected_readPayload hs hnext, hrest]
    simp [payloadRead, hptr]

end

/-! Runs of a reader. -/

/-- The pin, its pipe calls, and what is left in the pipe it is connected to. -/
structure ReaderState where
  pin : SourceOutputPin
  calls : List OsCall
  pipe : List (Framing.Part Packet × Msg)

/-- What happens to a reading pin. A FillBuffer call that connects finds the whole
    packets `sent` in the pipe it opens. -/
inductive ReaderAction where
  | onThreadStartPlay
  | onThreadDestroy
  | reset
  | stop
  | fillBuffer (env : FillEnv) (sample : MediaSample) (sent : List Packet)

/-- The pipe a FillBuffer call reads from; without a handle there is none. -/
def ReaderState.source (s : ReaderState) (sent : List Packet) :
    List (Framing.Part Packet × Msg) :=
  if s.pin.bConnected then
    match s.pin.hPipe with
    | .handle _ => s.pipe
    | _ => []
  else queue sent

/-- A pin that has closed its pipe, or could not open one, has nothing to read. -/
def readerStep (s : ReaderState) : ReaderAction → Option ReaderState
  | .onThreadStartPlay => some { s with pin := s.pin.onThreadStartPlay }
  | .onThreadDestroy => some { s with pin := s.pin.onThreadDestroy }
  | .reset => some { s with pin := s.pin.reset }
  | .stop => some { s with pin := s.pin.stop }
  | .fillBuffer env sample sent =>
    (SourceOutputPin.fillBuffer readTagged env s.pin s.calls sample (s.source sent)).map fun f =>
      ⟨f.pin, f.calls, match f.pin.hPipe with
        | .handle _ => f.world
        | _ => []⟩

/-- The state a read is made in: the next message is a header. -/
def ReaderState.AtHeader (s : ReaderState) : Prop := AtBoundary s.pipe

/-- A FillBuffer call that finds a header with a payload is let through to the
    payload read by all the calls on the sample. -/
def LetsThrough (s : ReaderState) : ReaderAction → Prop
  | .fillBuffer env _ sent => s.pin.bRunning = true → Connects env s.pin →
      ∀ q m rest, s.source sent = (.head q, m) :: rest → q.hasPayload = true →
        env.setters.Consumes
  | _ => True

theorem atBoundary_source {s : ReaderState} (h : s.AtHeader) (sent : List Packet) :
    AtBoundary (s.source sent) := by
  unfold ReaderState.source
  split
  · split
    · exact h
    · exact ⟨[], rfl⟩
  · exact ⟨sent, rfl⟩

theorem fillConnected_hPipe {ω : Type} {rd : Nat → ω → ReadResult × ω} {r : SetterResults}
    {p : SourceOutputPin} {calls : List OsCall} {s : MediaSample} {w : ω} :
    (fillConnected rd r p calls s w).pin.hPipe = p.hPipe := by
  unfold fillConnected
  dsimp only
  split
  · rfl
  · split <;> exact (afterHeader_pin p s r _).1

/-- On a connected pin the next message stays a header exactly when a header with a
    payload is let through. -/
theorem fillConnected_atBoundary {r : SetterResults} {p : SourceOutputPin} {calls : List OsCall}
    {s : MediaSample} {w : List (Framing.Part Packet × Msg)} (hw : AtBoundary w) :
    AtBoundary (fillConnected readTagged r p calls s w).world ↔
      ∀ q m rest, w = (.head q, m) :: rest → q.hasPayload = true → r.Consumes := by
  obtain ⟨qs, rfl⟩ := hw
  cases qs with
  | nil =>
    refine iff_of_true ⟨[], ?_⟩ (fun q m rest h => by cases h)
    rw [queue_nil, fillConnected_no_header rfl]
    rfl
  | cons q qs =>
    have hhead : ∀ q' m rest, queue (q :: qs) = (.head q', m) :: rest → q' = q := by
      intro q' m rest h
      rw [queue_cons, List.cons.injEq, Prod.mk.injEq, Framing.Part.head.injEq] at h
      exact h.1.1.symm
    cases hq : q.hasPayload
    · refine iff_of_true ⟨qs, fillConnected_no_payload hq⟩ ?_
      intro q' m rest h hq'
      rw [hhead q' m rest h, hq] at hq'
      cases hq'
    · by_cases hr : r.Consumes
      · exact iff_of_true ⟨qs, fillConnected_consumes hq hr⟩ (fun _ _ _ _ _ => hr)
      · refine iff_of_false ?_ (fun h => hr (h q _ _ (queue_cons q qs) hq))
        rw [fillConnected_leaves hq hr]
        exact not_atBoundary_body

/-- A flag without a handle is an old one: there is no pipe behind it. -/
theorem source_no_handle {s : ReaderState} {p : SourceOutputPin} (sent : List Packet)
    (hsame : s.pin.bConnected = true → p = s.pin)
    (hnew : s.pin.bConnected = false → ∃ n, p.hPipe = .handle n)
    (hno : ∀ n, p.hPipe ≠ .handle n) : s.source sent = [] := by
  cases hold : s.pin.bConnected
  · obtain ⟨n, hn⟩ := hnew hold
    exact absurd hn (hno n)
  · have hpin := hsame hold
    subst hpin
    unfold ReaderState.source
    rw [if_pos hold]
    split
    · rename_i n hn
      exact absurd hn (hno n)
    · rfl

theorem atHeader_step (s : ReaderState) (a : ReaderAction) (t : ReaderState) (h : s.AtHeader)
    (hstep : readerStep s a = some t) : t.AtHeader ↔ LetsThrough s a := by
  cases a with
  | onThreadStartPlay | onThreadDestroy | reset | stop =>
    cases hstep
    exact iff_of_true h trivial
  | fillBuffer env sample sent =>
    simp only [readerStep, Option.map_eq_some_iff] at hstep
    obtain ⟨f, hf, rfl⟩ := hstep
    have hsource := atBoundary_source h sent
    cases hrun : s.pin.bRunning
    · -- the pipe is closed
      refine iff_of_true ?_ (fun hrun' => by rw [hrun] at hrun'; cases hrun')
      simp only [fillBuffer, hrun, if_true, Option.some.injEq] at hf
      subst hf
      show AtBoundary _
      simp only [disconnectPipe_hPipe]
      exact ⟨[], rfl⟩
    obtain ⟨p', cs, hflag, hsame, hhandle, rfl⟩ := fillBuffer_running hrun hf
    by_cases hc : p'.bConnected = true
    · simp only [hc, if_true]
      have hthrough : LetsThrough s (.fillBuffer env sample sent) ↔
          ∀ q m rest, s.source sent = (.head q, m) :: rest → q.hasPayload = true →
            env.setters.Consumes :=
        ⟨fun h => h hrun (hflag.mp hc), fun h _ _ => h⟩
      rw [hthrough]
      show AtBoundary _ ↔ _
      simp only [fillConnected_hPipe]
      cases hp : p'.hPipe with
      | handle n => exact fillConnected_atBoundary hsource
      | null | invalid =>
        have hnone : s.source sent = [] := by
          refine source_no_handle sent hsame (fun hold => hhandle hold hc) fun n hn => ?_
          rw [hp] at hn
          cases hn
        rw [hnone]
        exact iff_of_true ⟨[], rfl⟩ (fun q m rest h => by cases h)
    · -- nothing is read
      refine iff_of_true ?_ (fun _ hconn => absurd (hflag.mpr hconn) hc)
      simp only [hc]
      show AtBoundary _
      dsimp only
      split
      · exact hsource
      · exact ⟨[], rfl⟩

/-- A pin as the filter creates it. -/
def newReader (pName : WStr) (mt : MediaType) (allocProperties : AllocatorProperties)
    (rtStart : Int64) (bRunning : Bool) : ReaderState :=
  ⟨new pName mt allocProperties rtStart bRunning, [], []⟩

/-- **The reader's framing over runs**: on pipes that hold whole packets every
    FillBuffer call of a run starts at a header, and leaves no payload behind,
    exactly when every packet with a payload is let through. -/
theorem reader_at_header_iff (pName : WStr) (mt : MediaType)
    (allocProperties : AllocatorProperties) (rtStart : Int64) (bRunning : Bool)
    (as : List ReaderAction) (u : ReaderState)
    (hrun : Transition.run readerStep (newReader pName mt allocProperties rtStart bRunning) as
      = some u) :
    Transition.Always readerStep ReaderState.AtHeader
        (newReader pName mt allocProperties rtStart bRunning) as ↔
      Transition.Meets readerStep LetsThrough
        (newReader pName mt allocProperties rtStart bRunning) as :=
  Transition.always_iff_meets atHeader_step as _ u ⟨[], rfl⟩ hrun

/-- Start, then a FillBuffer call that connects to a pipe with `bytePacket` in it. -/
def fillByte (r : SetterResults) : List ReaderAction :=
  [.onThreadStartPlay, .fillBuffer ⟨⟨[.opened 0], true⟩, r⟩ emptySample [bytePacket]]

/-- SetMediaType refuses the type. -/
def refuseMediaType : SetterResults := { SetterResults.allOk with setMediaType := E_FAIL }

/-- SetMediaType fails: the payload stays in the pipe, where the next FillBuffer
    call takes it for a header. -/
theorem refused_mediaType_leaves_payload :
    ¬ Transition.Always readerStep ReaderState.AtHeader
        (newReader [] bareVideo ⟨1, 1, 1, 0⟩ 0 false) (fillByte refuseMediaType) := by
  intro h
  obtain ⟨hat, h⟩ := h.2 _ rfl
  obtain ⟨t, ht⟩ : ∃ t, readerStep
      ⟨(new [] bareVideo ⟨1, 1, 1, 0⟩ 0 false).onThreadStartPlay, [], []⟩
      (.fillBuffer ⟨⟨[.opened 0], true⟩, refuseMediaType⟩ emptySample [bytePacket]) = some t :=
    ⟨_, rfl⟩
  have hthrough := (atHeader_step _ _ t hat ht).mp (h t ht)
  have hr := hthrough rfl (Or.inr rfl) bytePacket _ _ (queue_cons bytePacket []) rfl
  exact absurd hr.2.2.1 (by decide)

/-- With setters that succeed the payload is consumed. -/
theorem reader_at_header_iff_all_ok :
    Transition.Always readerStep ReaderState.AtHeader
      (newReader [] bareVideo ⟨1, 1, 1, 0⟩ 0 false) (fillByte .allOk) := by
  refine (reader_at_header_iff [] bareVideo ⟨1, 1, 1, 0⟩ 0 false _ _ rfl).mpr ?_
  refine ⟨trivial, fun t _ => ⟨?_, fun _ _ => trivial⟩⟩
  intro _ _ q m rest _ _
  exact ⟨rfl, rfl, rfl, rfl, rfl⟩

end VirtualCaptureStream.SourceOutputPin
