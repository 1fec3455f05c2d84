import VirtualCaptureStream.SinkCapture

/- What FillBuffer makes of a sample's time stamps and of its discontinuity. The
   header has no way to say "no time", so every sample that is filled gets both
   times and media times, and the first header's start time becomes the base of all
   later ones whether it was set or not: `times_survive_iff`. The discontinuity mark
   is derived from a flag the same call has set by then, and the header's own flag
   is not looked at: `discontinuities_marked_iff`. -/
namespace VirtualCaptureStream

def SampleTime.hasStart : SampleTime → Bool
  | .notSet => false
  | .startOnly _ | .startStop _ _ => true

def SampleTime.hasStop : SampleTime → Bool
  | .notSet | .startOnly _ => false
  | .startStop _ _ => true

/-- The start time, if there is one. -/
def SampleTime.start? : SampleTime → Option Int64
  | .notSet => none
  | .startOnly start | .startStop start _ => some start

/-! What FillBuffer's setters do to the times and to the discontinuity. -/

namespace MediaSample

@[simp] theorem setTime_time (s : MediaSample) (hr : HRESULT) (start stop : Int64) :
    (s.setTime hr start stop).time = if failed hr then s.time else .startStop start stop := by
  unfold setTime
  split <;> rfl

@[simp] theorem setTime_others (s : MediaSample) (hr : HRESULT) (start stop : Int64) :
    (s.setTime hr start stop).mediaTime = s.mediaTime ∧
      (s.setTime hr start stop).isDiscontinuity = s.isDiscontinuity := by
  unfold setTime
  split <;> exact ⟨rfl, rfl⟩

@[simp] theorem setMediaTime_mediaTime (s : MediaSample) (hr : HRESULT) (start stop : Int64) :
    (s.setMediaTime hr start stop).mediaTime =
      if failed hr then s.mediaTime else some (start, longEnd start stop) := by
  unfold setMediaTime
  split <;> rfl

@[simp] theorem setMediaTime_others (s : MediaSample) (hr : HRESULT) (start stop : Int64) :
    (s.setMediaTime hr start stop).time = s.time ∧
      (s.setMediaTime hr start stop).isDiscontinuity = s.isDiscontinuity := by
  unfold setMediaTime
  split <;> exact ⟨rfl, rfl⟩

@[simp] theorem setActualDataLength_others (s : MediaSample) (hr : HRESULT) (n : Int32) :
    (s.setActualDataLength hr n).time = s.time ∧
      (s.setActualDataLength hr n).mediaTime = s.mediaTime ∧
      (s.setActualDataLength hr n).isDiscontinuity = s.isDiscontinuity := by
  unfold setActualDataLength
  split <;> exact ⟨rfl, rfl, rfl⟩

@[simp] theorem setSyncPoint_others (s : MediaSample) (hr : HRESULT) (b : Bool) :
    (s.setSyncPoint hr b).time = s.time ∧ (s.setSyncPoint hr b).mediaTime = s.mediaTime ∧
      (s.setSyncPoint hr b).isDiscontinuity = s.isDiscontinuity := by
  unfold setSyncPoint
  split <;> exact ⟨rfl, rfl, rfl⟩

@[simp] theorem setPreroll_others (s : MediaSample) (hr : HRESULT) (b : Bool) :
    (s.setPreroll hr b).time = s.time ∧ (s.setPreroll hr b).mediaTime = s.mediaTime ∧
      (s.setPreroll hr b).isDiscontinuity = s.isDiscontinuity := by
  unfold setPreroll
  split <;> exact ⟨rfl, rfl, rfl⟩

@[simp] theorem setMediaType_others (s : MediaSample) (hr : HRESULT) (mt : MediaType) :
    (s.setMediaType hr mt).time = s.time ∧ (s.setMediaType hr mt).mediaTime = s.mediaTime ∧
      (s.setMediaType hr mt).isDiscontinuity = s.isDiscontinuity := by
  unfold setMediaType
  split <;> exact ⟨rfl, rfl, rfl⟩

@[simp] theorem setDiscontinuity_isDiscontinuity (s : MediaSample) (hr : HRESULT) (b : Bool) :
    (s.setDiscontinuity hr b).isDiscontinuity = if failed hr then s.isDiscontinuity else b := by
  unfold setDiscontinuity
  split <;> rfl

@[simp] theorem setDiscontinuity_others (s : MediaSample) (hr : HRESULT) (b : Bool) :
    (s.setDiscontinuity hr b).time = s.time ∧ (s.setDiscontinuity hr b).mediaTime = s.mediaTime := by
  unfold setDiscontinuity
  split <;> exact ⟨rfl, rfl⟩

end MediaSample

namespace SourceOutputPin

/-- The sample when FillBuffer has set its times. -/
def stamped (p : SourceOutputPin) (s : MediaSample) (r : SetterResults) (info : MediaSampleInfo) :
    MediaSample :=
  let rtStart := (afterHeader p s r info).pin.rtStart
  (((s.setActualDataLength r.setActualDataLength info.actualDataLength).setTime r.setTime
      (info.timeStart - rtStart) (info.timeEnd - rtStart)).setMediaTime r.setMediaTime
        info.mediaTimeStart info.mediaTimeEnd).setTime r.setTimeAgain
          (info.timeStart - rtStart) (info.timeEnd - rtStart)

/-- The setters that follow leave the times alone. -/
theorem afterHeader_stamped (p : SourceOutputPin) (s : MediaSample) (r : SetterResults)
    (info : MediaSampleInfo) :
    (afterHeader p s r info).sample.time = (stamped p s r info).time ∧
      (afterHeader p s r info).sample.mediaTime = (stamped p s r info).mediaTime := by
  unfold stamped
  rw [afterHeader_latch]
  unfold afterHeader
  dsimp only
  cases p.fFirstSampleDelivered <;> simp only [if_true, if_false, Bool.false_eq_true] <;>
    (repeat' split) <;> simp only [MediaSample.setSyncPoint_others, MediaSample.setPreroll_others,
      MediaSample.setMediaType_others, MediaSample.setDiscontinuity_others, and_self]

/-- SetTime is called twice, and either call will do. -/
theorem afterHeader_time (p : SourceOutputPin) (s : MediaSample) (r : SetterResults)
    (info : MediaSampleInfo) :
    (afterHeader p s r info).sample.time =
      if failed r.setTime ∧ failed r.setTimeAgain then s.time
      else .startStop (info.timeStart - (afterHeader p s r info).pin.rtStart)
        (info.timeEnd - (afterHeader p s r info).pin.rtStart) := by
  rw [(afterHeader_stamped p s r info).1, stamped]
  by_cases htime : failed r.setTime = true <;> by_cases hagain : failed r.setTimeAgain = true <;>
    simp [htime, hagain]

theorem afterHeader_mediaTime (p : SourceOutputPin) (s : MediaSample) (r : SetterResults)
    (info : MediaSampleInfo) :
    (afterHeader p s r info).sample.mediaTime =
      if failed r.setMediaTime then s.mediaTime
      else some (info.mediaTimeStart,
        MediaSample.longEnd info.mediaTimeStart info.mediaTimeEnd) := by
  rw [(afterHeader_stamped p s r info).2, stamped]
  simp

/-- An exit that was not taken: the call it checks has succeeded. -/
theorem FillNext.past {hr : HRESULT} {next : FillNext}
    (h : (if failed hr then FillNext.ret hr else next).hr = S_OK) :
    failed hr = false ∧ next.hr = S_OK := by
  split at h
  · rename_i hfail
    exact absurd h (failed_ne_S_OK hfail)
  · rename_i hno
    exact ⟨Bool.eq_false_iff.mpr hno, h⟩

/-- A call that returns S_OK clears the mark, or leaves it when SetSyncPoint fails. -/
theorem afterHeader_isDiscontinuity (p : SourceOutputPin) (s : MediaSample) (r : SetterResults)
    (info : MediaSampleInfo) (hok : (afterHeader p s r info).next.hr = S_OK) :
    (afterHeader p s r info).sample.isDiscontinuity =
      (failed r.setSyncPoint && s.isDiscontinuity) := by
  rw [afterHeader_next] at hok
  cases hsync : failed r.setSyncPoint with
  | true =>
    unfold afterHeader
    cases p.fFirstSampleDelivered <;> simp [hsync]
  | false =>
    rw [hsync, if_neg Bool.false_ne_true] at hok
    obtain ⟨hpre, hok⟩ := FillNext.past hok
    obtain ⟨hmt, hok⟩ := FillNext.past hok
    obtain ⟨hdisc, _⟩ := FillNext.past hok
    unfold afterHeader
    dsimp only
    cases p.fFirstSampleDelivered <;> simp only [hsync, hpre, hmt, hdisc, Bool.false_eq_true,
      if_false, if_true] <;> split <;> simp [hdisc]

/-! Time stamps. -/

/-- The way of one sample: what its capture meets, the reference points the writer
    puts in its header, the sample FillBuffer is given to fill, and what that one's
    calls answer. -/
structure Trip where
  capture : CaptureEnv
  original : MediaSample
  rtRefPoint : Int64
  rtRefPoint2 : Int64
  setters : SetterResults
  target : MediaSample

/-- The packet of the sample, captured on the heap `h`. -/
def Trip.packet (t : Trip) (h : Heap) : Packet :=
  (MediaSampleX.new (t.capture.onHeap h) t.original).packet t.rtRefPoint t.rtRefPoint2

/-- FillBuffer on a pin whose pipe holds that packet. -/
def Trip.fill (p : SourceOutputPin) (t : Trip) (h : Heap) :
    FillResult (List (Framing.Part Packet × Msg)) :=
  fillConnected readTagged t.setters p [] t.target (queue [t.packet h])

/-- The pin after the FillBuffer calls for some samples. -/
def afterTrips (p : SourceOutputPin) : List (Trip × Heap) → SourceOutputPin
  | [] => p
  | (t, h) :: trips => afterTrips (t.fill p h).pin trips

/-- Which times are set is the same. -/
def SameTimesSet (s s' : MediaSample) : Prop :=
  s'.time.hasStart = s.time.hasStart ∧ s'.time.hasStop = s.time.hasStop ∧
    s'.mediaTime.isSome = s.mediaTime.isSome

/-- The start time of the first sample that has one. -/
def firstStart (trips : List Trip) : Option Int64 := trips.findSome? fun t => t.original.time.start?

/-- In a session of a pin, from OnThreadStartPlay on: every filled sample has the
    times its original had, and what is subtracted from the times of a timed sample
    is the start time of the session's first timed sample. -/
def TimesSurvive (p : SourceOutputPin) (trips : List Trip) : Prop :=
  ∀ heaps : List Heap, heaps.length = trips.length → ∀ pre t h post,
    trips.zip heaps = pre ++ (t, h) :: post →
    SameTimesSet t.original (t.fill (afterTrips p.onThreadStartPlay pre) h).sample ∧
      (t.original.time.hasStart = true →
        firstStart trips = some (t.fill (afterTrips p.onThreadStartPlay pre) h).pin.rtStart)

/-- The original has a start, a stop and media times; times that cannot be set on
    the target are already set, or not set, as they are on the original. -/
def Trip.TimesSet (t : Trip) : Prop :=
  (if failed t.setters.setTime ∧ failed t.setters.setTimeAgain then
    t.target.time.hasStart = t.original.time.hasStart ∧
      t.target.time.hasStop = t.original.time.hasStop
  else t.original.time.hasStop = true) ∧
  (if failed t.setters.setMediaTime then
    t.target.mediaTime.isSome = t.original.mediaTime.isSome
  else t.original.mediaTime.isSome = true)

/-- The session does not begin with an untimed sample, unless all are untimed. -/
def HeadTimed (trips : List Trip) : Prop :=
  ∀ t ∈ trips.head?, t.original.time.hasStart = false →
    ∀ t' ∈ trips, t'.original.time.hasStart = false

/-- A call that reads a header leaves the pin and the marks of the sample as they are
    after the setters. -/
theorem fillConnected_after {ω : Type} {rd : Nat → ω → ReadResult × ω} (r : SetterResults)
    (p : SourceOutputPin) (calls : List OsCall) (s : MediaSample) {w : ω}
    (hs : (rd sizeofMediaSampleInfo w).1.fSuccess = true) :
    (fillConnected rd r p calls s w).pin = (afterHeader p s r (headerOf rd w)).pin ∧
      (fillConnected rd r p calls s w).sample.time =
        (afterHeader p s r (headerOf rd w)).sample.time ∧
      (fillConnected rd r p calls s w).sample.mediaTime =
        (afterHeader p s r (headerOf rd w)).sample.mediaTime ∧
      (fillConnected rd r p calls s w).sample.isDiscontinuity =
        (afterHeader p s r (headerOf rd w)).sample.isDiscontinuity := by
  cases hn : (afterHeader p s r (headerOf rd w)).next with
  | ret hr =>
    rw [fillConnected_ret hs hn]
    exact ⟨rfl, rfl, rfl, rfl⟩
  | readPayload n hr =>
    rw [fillConnected_readPayload hs hn]
    exact ⟨rfl, rfl, rfl, rfl⟩

section
variable {p : SourceOutputPin} {t : Trip} {h : Heap}

theorem Trip.fill_after :
    (t.fill p h).pin = (afterHeader p t.target t.setters (t.packet h).info).pin ∧
      (t.fill p h).sample.time =
        (afterHeader p t.target t.setters (t.packet h).info).sample.time ∧
      (t.fill p h).sample.mediaTime =
        (afterHeader p t.target t.setters (t.packet h).info).sample.mediaTime := by
  have hafter := fillConnected_after t.setters p [] t.target (readTagged_header_ok (t.packet h) [])
  rw [headerOf_queue] at hafter
  exact ⟨hafter.1, hafter.2.1, hafter.2.2.1⟩

theorem SampleTime.hasStart_of_hasStop {time : SampleTime} (hstop : time.hasStop = true) :
    time.hasStart = true := by
  cases time with
  | notSet | startOnly => cases hstop
  | startStop => rfl

/-- A trip keeps which times are set exactly when all of them are. -/
theorem Trip.sameTimesSet_iff : SameTimesSet t.original (t.fill p h).sample ↔ t.TimesSet := by
  obtain ⟨_, htime, hmedia⟩ := Trip.fill_after (p := p) (t := t) (h := h)
  rw [SameTimesSet, Trip.TimesSet, htime, hmedia, afterHeader_time, afterHeader_mediaTime,
    ← and_assoc]
  refine and_congr ?_ ?_
  · split
    · exact Iff.rfl
    · refine ⟨fun hboth => hboth.2.symm, fun hstop => ?_⟩
      exact ⟨(SampleTime.hasStart_of_hasStop hstop).symm, hstop.symm⟩
  · split
    · exact Iff.rfl
    · exact eq_comm

/-- Once a first sample has been delivered the base stays. -/
theorem afterTrips_delivered : ∀ (trips : List (Trip × Heap)) {p : SourceOutputPin},
    p.fFirstSampleDelivered = true → afterTrips p trips = p
  | [], _, _ => rfl
  | (t, h) :: trips, p, hp => by
    have hpin : (t.fill p h).pin = p := by
      rw [Trip.fill_after.1, afterHeader_latch, hp, if_pos rfl]
      cases p
      cases hp
      rfl
    rw [afterTrips, hpin]
    exact afterTrips_delivered trips hp

/-- The base of a session is what the header of its first sample says. -/
theorem session_base {trips pre post : List (Trip × Heap)} {first : Trip × Heap}
    (hp : p.fFirstSampleDelivered = false) (hsplit : trips = pre ++ (t, h) :: post)
    (hfirst : trips.head? = some first) :
    (t.fill (afterTrips p pre) h).pin.rtStart = (first.1.packet first.2).info.timeStart := by
  cases pre with
  | nil =>
    rw [hsplit, List.nil_append, List.head?_cons, Option.some.injEq] at hfirst
    subst hfirst
    rw [afterTrips, Trip.fill_after.1, afterHeader_latch, hp, if_neg Bool.false_ne_true]
  | cons first' pre =>
    rw [hsplit, List.cons_append, List.head?_cons, Option.some.injEq] at hfirst
    subst hfirst
    have hlatch : (first'.1.fill p first'.2).pin.fFirstSampleDelivered = true ∧
        (first'.1.fill p first'.2).pin.rtStart =
          (first'.1.packet first'.2).info.timeStart := by
      rw [Trip.fill_after.1, afterHeader_latch, hp, if_neg Bool.false_ne_true]
      exact ⟨rfl, rfl⟩
    rw [afterTrips, afterTrips_delivered pre hlatch.1, Trip.fill_after.1, afterHeader_latch,
      hlatch.1, if_pos rfl, hlatch.2]

end

/-- The header's start time: the sample's, or what the heap held. -/
theorem Trip.packet_timeStart (t : Trip) (h : Heap) :
    (t.packet h).info.timeStart = t.original.time.start?.getD h.timeStart := by
  show (t.original.getTime (h.timeStart, h.timeEnd)).1 = _
  unfold MediaSample.getTime
  cases t.original.time <;> rfl

/-- All captures on one heap. -/
theorem zip_replicate {α β : Type} (b : β) :
    ∀ l : List α, l.zip (List.replicate l.length b) = l.map fun a => (a, b)
  | [] => rfl
  | a :: l => congrArg ((a, b) :: ·) (zip_replicate b l)

theorem TimesSurvive.on_heap {p : SourceOutputPin} {trips : List Trip} (hsurv : TimesSurvive p trips)
    {t : Trip} (ht : t ∈ trips) (h : Heap) :
    SameTimesSet t.original (t.fill p h).sample ∧
      (t.original.time.hasStart = true → ∀ first, trips.head? = some first →
        firstStart trips = some (first.packet h).info.timeStart) := by
  obtain ⟨pre, post, rfl⟩ := List.append_of_mem ht
  have hsplit : (pre ++ t :: post).zip (List.replicate (pre ++ t :: post).length h) =
      (pre.map fun t => (t, h)) ++ (t, h) :: post.map fun t => (t, h) := by
    rw [zip_replicate, List.map_append, List.map_cons]
  obtain ⟨hsame, hbase⟩ := hsurv _ List.length_replicate _ t h _ hsplit
  refine ⟨Trip.sameTimesSet_iff.mpr (Trip.sameTimesSet_iff.mp hsame), fun hstart first hfirst => ?_⟩
  have hhead : ((pre ++ t :: post).zip (List.replicate (pre ++ t :: post).length h)).head? =
      some (first, h) := by
    rw [zip_replicate, List.head?_map, hfirst, Option.map_some]
  rw [hbase hstart, session_base rfl hsplit hhead]

/-- Validity that survives is that of samples with all their times. -/
theorem TimesSurvive.headTimed {p : SourceOutputPin} {trips : List Trip}
    (hsurv : TimesSurvive p trips) : HeadTimed trips := by
  intro first hfirst huntimed t ht
  by_contra hstart
  rw [Bool.not_eq_false] at hstart
  have hstart? : first.original.time.start? = none := by
    cases htime : first.original.time with
    | notSet => rfl
    | startOnly | startStop =>
      rw [htime] at huntimed
      cases huntimed
  -- the base is whatever the heap of the first capture held
  have hbase : ∀ h : Heap, firstStart trips = some h.timeStart := by
    intro h
    rw [(hsurv.on_heap ht h).2 hstart first hfirst, Trip.packet_timeStart, hstart?,
      Option.getD_none]
  have hzero := hbase ⟨0, 0, 0, 0, fun _ => 0⟩
  have hone := hbase ⟨0, 0, 1, 0, fun _ => 0⟩
  rw [hzero] at hone
  exact absurd hone (by decide)

/-- **Timestamp validity survives** exactly if every sample of the session has a
    start, a stop and media times (or its target has the same already, where they
    cannot be set), and the first one has a start time if any has. -/
theorem times_survive_iff (p : SourceOutputPin) (trips : List Trip) :
    TimesSurvive p trips ↔ (∀ t ∈ trips, t.TimesSet) ∧ HeadTimed trips := by
  refine ⟨fun hsurv => ⟨fun t ht => ?_, hsurv.headTimed⟩,
    fun hcond heaps hlen pre t h post hsplit => ?_⟩
  · exact Trip.sameTimesSet_iff.mp (hsurv.on_heap ht ⟨0, 0, 0, 0, fun _ => 0⟩).1
  · obtain ⟨hset, hhead⟩ := hcond
    have hmem : (t, h) ∈ trips.zip heaps := by
      rw [hsplit]
      exact List.mem_append_right pre List.mem_cons_self
    have ht : t ∈ trips := (List.of_mem_zip hmem).1
    refine ⟨Trip.sameTimesSet_iff.mpr (hset t ht), fun hstart => ?_⟩
    cases trips with
    | nil => cases ht
    | cons first rest =>
      cases heaps with
      | nil => cases hlen
      | cons h₀ heaps =>
        rw [session_base rfl hsplit rfl, Trip.packet_timeStart]
        -- the first sample is timed, as this one is
        cases htime : first.original.time with
        | notSet =>
          have huntimed : first.original.time.hasStart = false := by
            rw [htime]
            rfl
          have hno := hhead first rfl huntimed t ht
          rw [hstart] at hno
          cases hno
        | startOnly start | startStop start _ =>
          rw [firstStart, List.findSome?_cons, htime]
          rfl

/-- A frame's way with every call succeeding. -/
def frameTrip (original : MediaSample) : Trip where
  capture := clearedHeap
  original := original
  rtRefPoint := 0
  rtRefPoint2 := 0
  setters := .allOk
  target := emptySample

/-- A sample without times gets both, and media times. -/
theorem untimed_sample_gets_times : ¬ TimesSurvive playing [frameTrip emptySample] := by
  intro h
  have hsame := (h.on_heap List.mem_cons_self ⟨0, 0, 0, 0, fun _ => 0⟩).1
  have hstop := (Trip.sameTimesSet_iff.mp hsame).1
  rw [if_neg (by decide)] at hstop
  cases hstop

/-! Discontinuities. -/

/-- A sample that was filled: whether it was the first since the last Reset or
    OnThreadStartPlay, what its header says, and how it was marked. -/
structure Filled where
  first : Bool
  discontinuous : Bool
  marked : Bool

/-- The sample is marked as it should be. -/
def Filled.Right (f : Filled) : Prop := f.marked = (f.first || f.discontinuous)

/-- A pin with its pipe calls and the world its reads go to. `fresh`: no sample was
    filled since the last Reset or OnThreadStartPlay; `filled`: the samples so far. -/
structure MarkState (ω : Type) where
  pin : SourceOutputPin
  calls : List OsCall
  world : ω
  fresh : Bool
  filled : List Filled

inductive MarkAction where
  | reset
  | onThreadStartPlay
  | fillBuffer (env : FillEnv) (sample : MediaSample)

section
variable {ω : Type} (rd : Nat → ω → ReadResult × ω)

/-- What the header says of the sink's sample. -/
def headerDiscontinuous (header : ReadResult) : Bool :=
  decide ((MediaSampleInfo.codec.dec header.bytes).isDiscontinuity ≠ 0)

/-- The FillBuffer calls are those that read a header and return S_OK. -/
def markStep (s : MarkState ω) : MarkAction → Option (MarkState ω)
  | .reset => some { s with pin := s.pin.reset, fresh := true }
  | .onThreadStartPlay => some { s with pin := s.pin.onThreadStartPlay, fresh := true }
  | .fillBuffer env sample =>
    (fillBuffer rd env s.pin s.calls sample s.world).bind fun f => f.header.bind fun header =>
      if f.hr = S_OK ∧ header.fSuccess = true then
        some ⟨f.pin, f.calls, f.world, false,
          s.filled ++ [⟨s.fresh, headerDiscontinuous header, f.sample.isDiscontinuity⟩]⟩
      else none

/-- Every sample so far is marked as it should be. -/
def MarkState.Right (s : MarkState ω) : Prop := ∀ f ∈ s.filled, f.Right

/-- The sample is neither the first nor discontinuous; where SetSyncPoint fails, it
    came with the right mark. -/
def Unmarked (s : MarkState ω) : MarkAction → Prop
  | .fillBuffer env sample =>
    (failed env.setters.setSyncPoint && sample.isDiscontinuity) =
      (s.fresh || headerDiscontinuous (rd sizeofMediaSampleInfo s.world).1)
  | _ => True

variable {rd}

theorem fillConnected_header {r : SetterResults} {p : SourceOutputPin} {calls : List OsCall}
    {s : MediaSample} {w : ω} :
    (fillConnected rd r p calls s w).header = some (rd sizeofMediaSampleInfo w).1 := by
  unfold fillConnected
  dsimp only
  split
  · rfl
  · split <;> rfl

/-- A FillBuffer call that succeeds adds one sample, and its mark is FALSE unless the
    call left the mark alone. -/
theorem markStep_fillBuffer {s t : MarkState ω} {env : FillEnv} {sample : MediaSample}
    (hstep : markStep rd s (.fillBuffer env sample) = some t) :
    t.filled = s.filled ++ [⟨s.fresh,
      headerDiscontinuous (rd sizeofMediaSampleInfo s.world).1,
      failed env.setters.setSyncPoint && sample.isDiscontinuity⟩] := by
  simp only [markStep, Option.bind_eq_some_iff, Option.ite_none_right_eq_some] at hstep
  obtain ⟨f, hf, header, hheader, ⟨hok, hsucc⟩, ht⟩ := hstep
  have hrun : s.pin.bRunning = true := by
    by_contra hstopped
    rw [Bool.not_eq_true] at hstopped
    simp only [fillBuffer, hstopped, if_true, Option.some.injEq] at hf
    subst hf
    cases hheader
  obtain ⟨p', cs, _, _, _, rfl⟩ := fillBuffer_running hrun hf
  by_cases hc : p'.bConnected = true
  · simp only [hc, if_true] at hok hheader ht
    rw [fillConnected_header, Option.some.injEq] at hheader
    subst hheader
    have hhr := hok
    rw [fillConnected_hr hsucc] at hhr
    have hmark := afterHeader_isDiscontinuity p' sample env.setters _ hhr
    rw [← (fillConnected_after env.setters p' cs sample hsucc).2.2.2] at hmark
    rw [← Option.some.inj ht, hmark]
  · simp only [hc] at hheader
    cases hheader

theorem markStep_of_fill {s : MarkState ω} {env : FillEnv} {sample : MediaSample}
    {f : FillResult ω} {header : ReadResult}
    (hf : fillBuffer rd env s.pin s.calls sample s.world = some f)
    (hheader : f.header = some header) (hok : f.hr = S_OK) (hs : header.fSuccess = true) :
    ∃ t, markStep rd s (.fillBuffer env sample) = some t := by
  rw [markStep, hf, Option.bind_some, hheader, Option.bind_some, if_pos ⟨hok, hs⟩]
  exact ⟨_, rfl⟩

theorem markStep_right (s : MarkState ω) (a : MarkAction) (t : MarkState ω) (hs : s.Right)
    (hstep : markStep rd s a = some t) : t.Right ↔ Unmarked rd s a := by
  cases a with
  | reset | onThreadStartPlay =>
    cases hstep
    exact iff_of_true hs trivial
  | fillBuffer env sample =>
    rw [MarkState.Right, markStep_fillBuffer hstep, List.forall_mem_append,
      List.forall_mem_singleton]
    simp only [Filled.Right, Unmarked]
    exact and_iff_right hs

/-- A pin as the filter creates it, and what its reads will find. -/
def newMarks (pName : WStr) (mt : MediaType) (allocProperties : AllocatorProperties)
    (rtStart : Int64) (bRunning : Bool) (world : ω) : MarkState ω :=
  ⟨new pName mt allocProperties rtStart bRunning, [], world, true, []⟩

/-- **Discontinuities are marked** over a run exactly when no sample is filled that
    should be: none is the first one or discontinuous, save those whose mark could
    not be changed and was right. -/
theorem discontinuities_marked_iff (rd : Nat → ω → ReadResult × ω) (pName : WStr) (mt : MediaType)
    (allocProperties : AllocatorProperties) (rtStart : Int64) (bRunning : Bool) (world : ω)
    (as : List MarkAction) (u : MarkState ω)
    (hrun : Transition.run (markStep rd)
      (newMarks pName mt allocProperties rtStart bRunning world) as = some u) :
    Transition.Always (markStep rd) MarkState.Right
        (newMarks pName mt allocProperties rtStart bRunning world) as ↔
      Transition.Meets (markStep rd) (Unmarked rd)
        (newMarks pName mt allocProperties rtStart bRunning world) as :=
  Transition.always_iff_meets markStep_right as _ u (fun f hf => by cases hf) hrun

end

/-- Start, then the first FillBuffer call. -/
def firstFill (r : SetterResults) (sample : MediaSample) : List MarkAction :=
  [.onThreadStartPlay, .fillBuffer ⟨⟨[.opened 0], true⟩, r⟩ sample]

/-- A new pin whose pipe will hold one sample. -/
def freshMarks : MarkState (List (Framing.Part Packet × Msg)) :=
  newMarks [] bareVideo ⟨1, 1, 1, 0⟩ 0 false (queue [bytePacket])

theorem run_firstFill (r : SetterResults) (sample : MediaSample)
    (hok : ∀ p, (afterHeader p sample r bytePacket.info).next.hr = S_OK) :
    ∃ t, markStep readTagged { freshMarks with pin := freshMarks.pin.onThreadStartPlay }
        (.fillBuffer ⟨⟨[.opened 0], true⟩, r⟩ sample) = some t := by
  have hs := readTagged_header_ok bytePacket []
  -- the pin connects and reads on, whatever is in the pipe
  have hopen : ∀ w : List (Framing.Part Packet × Msg), ∃ p cs,
      fillBuffer readTagged ⟨⟨[.opened 0], true⟩, r⟩ freshMarks.pin.onThreadStartPlay [] sample w =
        some (fillConnected readTagged r p cs sample w) := fun w => ⟨_, _, rfl⟩
  obtain ⟨p, cs, hf⟩ := hopen (queue [bytePacket])
  have hhr : (fillConnected readTagged r p cs sample (queue [bytePacket])).hr = S_OK := by
    rw [fillConnected_hr hs, headerOf_queue]
    exact hok p
  exact markStep_of_fill hf fillConnected_header hhr hs

/-- The first sample is not marked. -/
theorem first_sample_not_marked :
    ¬ Transition.Always (markStep readTagged) MarkState.Right freshMarks
        (firstFill .allOk emptySample) := by
  intro h
  obtain ⟨hright, h⟩ := h.2 _ rfl
  obtain ⟨t, ht⟩ := run_firstFill .allOk emptySample fun p => by
    rw [afterHeader_next]
    rfl
  have hmark := (markStep_right _ _ t hright ht).mp (h t ht)
  cases hmark

/-- SetSyncPoint fails. -/
def refuseSyncPoint : SetterResults := { SetterResults.allOk with setSyncPoint := E_FAIL }

/-- A sample that came marked, and whose mark stays. -/
theorem discontinuities_marked_iff_kept :
    Transition.Always (markStep readTagged) MarkState.Right freshMarks
      (firstFill refuseSyncPoint { emptySample with isDiscontinuity := true }) := by
  obtain ⟨t, ht⟩ := run_firstFill refuseSyncPoint
    { emptySample with isDiscontinuity := true } fun p => by
      rw [afterHeader_next]
      rfl
  have hrun : Transition.run (markStep readTagged) freshMarks
      (firstFill refuseSyncPoint { emptySample with isDiscontinuity := true }) = some t :=
    Transition.run_cons.mpr ⟨_, rfl, Transition.run_cons.mpr ⟨t, ht, rfl⟩⟩
  refine (discontinuities_marked_iff readTagged [] bareVideo ⟨1, 1, 1, 0⟩ 0 false _ _ t hrun).mpr ?_
  refine ⟨trivial, fun v hv => ?_⟩
  obtain rfl := Option.some.inj hv
  exact ⟨rfl, fun _ _ => trivial⟩

end SourceOutputPin

end VirtualCaptureStream
