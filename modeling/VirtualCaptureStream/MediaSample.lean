import VirtualCaptureStream.MediaType
import VirtualCaptureStream.Lib.Framing

/- Media samples at the three places they live: an IMediaSample (a DirectShow
   buffer), the CMediaSampleX the sink captures it in, and the MediaSampleInfo
   header with the payload message that carry it through the pipe. -/
namespace VirtualCaptureStream

/-- The time stamps of a sample: none, a start time only, or both. -/
inductive SampleTime where
  | notSet
  | startOnly (start : Int64)
  | startStop (start stop : Int64)
  deriving DecidableEq, Repr

/-- An IMediaSample: its buffer (GetSize is the buffer's length), and what its
    accessors report. CMediaSample refuses an actual data length beyond its
    buffer, and lengths are positive LONGs. A media time is any pair: the samples
    that the sink receives need not be CMediaSamples. -/
structure MediaSample where
  buffer : List UInt8
  actualDataLength : Nat
  time : SampleTime
  mediaTime : Option (Int64 × Int64)
  isSyncPoint : Bool
  isPreroll : Bool
  isDiscontinuity : Bool
  mediaType : Option MediaType
  size_lt : buffer.length < 2 ^ 31
  actual_le : actualDataLength ≤ buffer.length

/-- GetSize. -/
def MediaSample.getSize (s : MediaSample) : Nat := s.buffer.length

/-- The bytes a sample holds. -/
def MediaSample.data (s : MediaSample) : List UInt8 := s.buffer.take s.actualDataLength

theorem MediaSample.data_length (s : MediaSample) : s.data.length = s.actualDataLength := by
  rw [data, List.length_take, Nat.min_eq_left s.actual_le]

theorem MediaSample.actual_lt (s : MediaSample) : s.actualDataLength < 2 ^ 31 :=
  Nat.lt_of_le_of_lt s.actual_le s.size_lt

/-- The actual data length as the LONG that GetActualDataLength returns. -/
theorem MediaSample.toNatClampNeg_actual (s : MediaSample) :
    (Int32.ofNat s.actualDataLength).toNatClampNeg = s.actualDataLength :=
  Int32.toNatClampNeg_ofNat_of_lt s.actual_lt

/-! What FillBuffer's setters do to a sample, given the HRESULT they return. -/

namespace MediaSample

/-- SetActualDataLength: no implementation accepts a length beyond the buffer. -/
def setActualDataLength (s : MediaSample) (hr : HRESULT) (n : Int32) : MediaSample :=
  if h : failed hr = false ∧ 0 ≤ n ∧ n.toNatClampNeg ≤ s.buffer.length then
    { s with actualDataLength := n.toNatClampNeg, actual_le := h.2.2 }
  else s

def setTime (s : MediaSample) (hr : HRESULT) (start stop : Int64) : MediaSample :=
  if failed hr then s else { s with time := .startStop start stop }

/-- The media end that CMediaSample reports after SetMediaTime: `m_MediaEnd` is a LONG,
    the difference to the start. -/
def longEnd (start stop : Int64) : Int64 := start + (stop - start).toInt32.toInt64

def setMediaTime (s : MediaSample) (hr : HRESULT) (start stop : Int64) : MediaSample :=
  if failed hr then s else { s with mediaTime := some (start, longEnd start stop) }

def setSyncPoint (s : MediaSample) (hr : HRESULT) (b : Bool) : MediaSample :=
  if failed hr then s else { s with isSyncPoint := b }

def setPreroll (s : MediaSample) (hr : HRESULT) (b : Bool) : MediaSample :=
  if failed hr then s else { s with isPreroll := b }

def setMediaType (s : MediaSample) (hr : HRESULT) (mt : MediaType) : MediaSample :=
  if failed hr then s else { s with mediaType := some mt }

def setDiscontinuity (s : MediaSample) (hr : HRESULT) (b : Bool) : MediaSample :=
  if failed hr then s else { s with isDiscontinuity := b }

/-- The end is kept exactly when the difference is a LONG. -/
theorem longEnd_eq_iff {start stop : Int64} : longEnd start stop = stop ↔
    -2147483648 ≤ (stop - start).toInt ∧ (stop - start).toInt ≤ 2147483647 := by
  have hsub : longEnd start stop = stop ↔ (stop - start).toInt32.toInt64 = stop - start := by
    unfold longEnd
    grind
  rw [hsub, ← Int64.toInt_inj, Int32.toInt_toInt64, Int64.toInt_toInt32]
  have hle := Int.bmod_lt (x := (stop - start).toInt) (m := 2 ^ 32) (by decide)
  have hge := Int.le_bmod (x := (stop - start).toInt) (m := 2 ^ 32) (by decide)
  refine ⟨fun h => by omega, fun h => ?_⟩
  exact Int.bmod_eq_of_le (by omega) (by omega)

/-! None of them touches the buffer. -/

@[simp] theorem setActualDataLength_buffer (s : MediaSample) (hr : HRESULT) (n : Int32) :
    (s.setActualDataLength hr n).buffer = s.buffer := by
  unfold setActualDataLength
  split <;> rfl

@[simp] theorem setTime_buffer (s : MediaSample) (hr : HRESULT) (start stop : Int64) :
    (s.setTime hr start stop).buffer = s.buffer := by
  unfold setTime
  split <;> rfl

@[simp] theorem setMediaTime_buffer (s : MediaSample) (hr : HRESULT) (start stop : Int64) :
    (s.setMediaTime hr start stop).buffer = s.buffer := by
  unfold setMediaTime
  split <;> rfl

@[simp] theorem setSyncPoint_buffer (s : MediaSample) (hr : HRESULT) (b : Bool) :
    (s.setSyncPoint hr b).buffer = s.buffer := by
  unfold setSyncPoint
  split <;> rfl

@[simp] theorem setPreroll_buffer (s : MediaSample) (hr : HRESULT) (b : Bool) :
    (s.setPreroll hr b).buffer = s.buffer := by
  unfold setPreroll
  split <;> rfl

@[simp] theorem setMediaType_buffer (s : MediaSample) (hr : HRESULT) (mt : MediaType) :
    (s.setMediaType hr mt).buffer = s.buffer := by
  unfold setMediaType
  split <;> rfl

@[simp] theorem setDiscontinuity_buffer (s : MediaSample) (hr : HRESULT) (b : Bool) :
    (s.setDiscontinuity hr b).buffer = s.buffer := by
  unfold setDiscontinuity
  split <;> rfl

/-- The buffer after `bytes` are stored from its start; what does not fit lands
    outside the sample. -/
def overwrite (buffer bytes : List UInt8) : List UInt8 :=
  bytes.take buffer.length ++ buffer.drop bytes.length

theorem overwrite_length (buffer bytes : List UInt8) :
    (overwrite buffer bytes).length = buffer.length := by
  simp only [overwrite, List.length_append, List.length_take, List.length_drop]
  omega

/-- ReadFile into the sample's buffer. -/
def store (s : MediaSample) (bytes : List UInt8) : MediaSample :=
  { s with
    buffer := overwrite s.buffer bytes
    size_lt := by rw [overwrite_length]; exact s.size_lt
    actual_le := by rw [overwrite_length]; exact s.actual_le }

@[simp] theorem store_size (s : MediaSample) (bytes : List UInt8) :
    (s.store bytes).getSize = s.getSize := overwrite_length s.buffer bytes

/-- What was stored and fits is what the buffer holds. -/
theorem store_take (s : MediaSample) (bytes : List UInt8) (h : bytes.length ≤ s.getSize) :
    (s.store bytes).buffer.take bytes.length = bytes := by
  have hall : bytes.take s.buffer.length = bytes := List.take_of_length_le h
  show (overwrite s.buffer bytes).take bytes.length = bytes
  rw [overwrite, hall, List.take_left]

/-- The buffer holds all that was stored exactly when it fits. -/
theorem store_take_iff (s : MediaSample) (bytes : List UInt8) :
    (s.store bytes).buffer.take bytes.length = bytes ↔ bytes.length ≤ s.getSize := by
  refine ⟨fun h => ?_, store_take s bytes⟩
  have hlen := congrArg List.length h
  have hsize : (s.store bytes).buffer.length = s.getSize := store_size s bytes
  rw [List.length_take, hsize] at hlen
  omega

end MediaSample

/-- A sample with an empty buffer. -/
def emptySample : MediaSample where
  buffer := []
  actualDataLength := 0
  time := .notSet
  mediaTime := none
  isSyncPoint := false
  isPreroll := false
  isDiscontinuity := false
  mediaType := none
  size_lt := by decide
  actual_le := Nat.le_refl 0

/-! The header. -/

/-- MediaSampleInfo, without its `sampleProperties`: the sender leaves that field
    zero and the receiver never looks at it. -/
structure MediaSampleInfo where
  actualDataLength : Int32
  mediaTimeStart : Int64
  mediaTimeEnd : Int64
  timeStart : Int64
  timeEnd : Int64
  timeOffset : Int64
  mediaTimeOffset : Int64
  size : Int32
  isDiscontinuity : Int32
  isPreroll : Int32
  isSyncPoint : Int32
  deriving DecidableEq, Repr

/-- The memory layout of MediaSampleInfo: four bytes of alignment after the first
    LONG, and the 48 zero bytes of `sampleProperties` at the end. -/
def MediaSampleInfo.codec : Codec MediaSampleInfo :=
  (Codec.int32.pair <| (Codec.pad 4).pair <| Codec.int64.pair <| Codec.int64.pair <|
    Codec.int64.pair <| Codec.int64.pair <| Codec.int64.pair <| Codec.int64.pair <|
    Codec.int32.pair <| Codec.int32.pair <| Codec.int32.pair <| Codec.int32.pair <|
    Codec.pad 48).map
    (fun i => (i.actualDataLength, (), i.mediaTimeStart, i.mediaTimeEnd, i.timeStart, i.timeEnd,
      i.timeOffset, i.mediaTimeOffset, i.size, i.isDiscontinuity, i.isPreroll, i.isSyncPoint, ()))
    (fun ⟨actual, _, mStart, mEnd, tStart, tEnd, tOff, mOff, size, disc, pre, sync, _⟩ =>
      ⟨actual, mStart, mEnd, tStart, tEnd, tOff, mOff, size, disc, pre, sync⟩)
    (fun _ => rfl)

/-- `sizeof(MediaSampleInfo)`. -/
def sizeofMediaSampleInfo : Nat := MediaSampleInfo.codec.size

example : sizeofMediaSampleInfo = 120 := rfl

/-- The two messages of one sample: a header, and a payload of as many bytes as
    the header's actualDataLength says (none when that is not positive). -/
structure Packet where
  info : MediaSampleInfo
  payload : List UInt8
  payload_length : payload.length = info.actualDataLength.toNatClampNeg

/-- The payload message is written only when `actualDataLength > 0`. -/
def Packet.hasPayload (p : Packet) : Bool := decide (0 < p.info.actualDataLength)

/-- The bytes of a packet's header or payload message. -/
def Packet.message : Framing.Part Packet → Msg
  | .head p => MediaSampleInfo.codec.enc p.info
  | .body p => p.payload

theorem Packet.head_length (p : Packet) :
    (Packet.message (.head p)).length = sizeofMediaSampleInfo :=
  MediaSampleInfo.codec.enc_length p.info

/-! The capture. -/

/-- What `new CMediaSampleX` finds on the heap and what its calls return: members
    the constructor may leave as they were, the bytes of the malloc'd block,
    whether malloc succeeds, and whether GetPointer returns S_OK. -/
structure CaptureEnv where
  mediaTimeStart : Int64
  mediaTimeEnd : Int64
  timeStart : Int64
  timeEnd : Int64
  block : Nat → UInt8
  malloc : Bool
  getPointer : Bool

/-- CMediaSampleX, with the block `m_pBuffer` points to (empty when it is NULL). -/
structure MediaSampleX where
  actualDataLength : Int32
  mediaTimeStart : Int64
  mediaTimeEnd : Int64
  timeStart : Int64
  timeEnd : Int64
  size : Int32
  isDiscontinuity : Bool
  isPreroll : Bool
  isSyncPoint : Bool
  buffer : List UInt8
  buffer_length : buffer.length = actualDataLength.toNatClampNeg

/-- GetTime: a sample without a stop time reports its start time plus one, a
    sample without times leaves the two variables as they were. -/
def MediaSample.getTime (s : MediaSample) (old : Int64 × Int64) : Int64 × Int64 :=
  match s.time with
  | .notSet => old
  | .startOnly start => (start, start + 1)
  | .startStop start stop => (start, stop)

/-- GetMediaTime. -/
def MediaSample.getMediaTime (s : MediaSample) (old : Int64 × Int64) : Int64 × Int64 :=
  s.mediaTime.getD old

/-- The bytes the malloc'd block ends up with: the sample's, or, when GetPointer
    fails, whatever the block held. -/
def CaptureEnv.copy (env : CaptureEnv) (s : MediaSample) : List UInt8 :=
  if env.getPointer then s.data else (List.range s.actualDataLength).map env.block

theorem CaptureEnv.copy_length (env : CaptureEnv) (s : MediaSample) :
    (env.copy s).length = s.actualDataLength := by
  unfold CaptureEnv.copy
  split
  · exact s.data_length
  · simp

/-- `CMediaSampleX::CMediaSampleX`. The sample is dropped (length 0, no buffer)
    when malloc fails. -/
def MediaSampleX.new (env : CaptureEnv) (s : MediaSample) : MediaSampleX :=
  let mediaTime := s.getMediaTime (env.mediaTimeStart, env.mediaTimeEnd)
  let time := s.getTime (env.timeStart, env.timeEnd)
  let keep : Bool := decide (0 < s.actualDataLength) && env.malloc
  { actualDataLength := if keep then Int32.ofNat s.actualDataLength else 0
    mediaTimeStart := mediaTime.1
    mediaTimeEnd := mediaTime.2
    timeStart := time.1
    timeEnd := time.2
    size := Int32.ofNat s.getSize
    isDiscontinuity := s.isDiscontinuity
    isPreroll := s.isPreroll
    isSyncPoint := s.isSyncPoint
    buffer := if keep then env.copy s else []
    buffer_length := by
      cases keep
      · rfl
      · simp only [if_true]
        rw [env.copy_length, s.toNatClampNeg_actual] }

/-- A BOOL from a C++ bool. -/
def BOOL (b : Bool) : Int32 := if b then 1 else 0

theorem BOOL_ne_zero (b : Bool) : decide (BOOL b ≠ 0) = b := by
  cases b <;> decide

/-- The header the writer builds for a captured sample and the pin's reference
    points. -/
def MediaSampleX.info (x : MediaSampleX) (rtRefPoint rtRefPoint2 : Int64) : MediaSampleInfo :=
  { actualDataLength := x.actualDataLength
    mediaTimeStart := x.mediaTimeStart
    mediaTimeEnd := x.mediaTimeEnd
    timeStart := x.timeStart
    timeEnd := x.timeEnd
    timeOffset := rtRefPoint
    mediaTimeOffset := rtRefPoint2
    size := x.size
    isDiscontinuity := BOOL x.isDiscontinuity
    isPreroll := BOOL x.isPreroll
    isSyncPoint := BOOL x.isSyncPoint }

/-- The two messages of a captured sample. -/
def MediaSampleX.packet (x : MediaSampleX) (rtRefPoint rtRefPoint2 : Int64) : Packet where
  info := x.info rtRefPoint rtRefPoint2
  payload := x.buffer
  payload_length := x.buffer_length

/-- A sample with one byte of data. -/
def byteSample : MediaSample where
  buffer := [7]
  actualDataLength := 1
  time := .startStop 0 1
  mediaTime := some (0, 1)
  isSyncPoint := true
  isPreroll := false
  isDiscontinuity := false
  mediaType := none
  size_lt := by decide
  actual_le := Nat.le_refl 1

/-- A cleared heap on which every call of the capture succeeds. -/
def clearedHeap : CaptureEnv := ⟨0, 0, 0, 0, fun _ => 0, true, true⟩

end VirtualCaptureStream
