import VirtualCaptureStream.SourceOutputPin

/- IAMStreamConfig of an output pin. GetNumberOfCapabilities looks at the major type of
   the pin's media type; GetStreamCaps does not, and takes whatever format block there is
   for a WAVEFORMATEX. `caps_agree_iff` says when the two tell the same story.

   Correspondence (C++ ↔ Lean):
     `GetNumberOfCapabilities`, `GetStreamCaps` ↔ the functions of those names
     WAVEFORMATEX, AUDIO_STREAM_CONFIG_CAPS     ↔ `WaveFormatEx`, `AudioStreamConfigCaps`

   `none` stands for an access violation. The AddRef of CreateMediaType is left out: no
   record with a `pUnk` becomes a pin. -/
namespace VirtualCaptureStream

structure WaveFormatEx where
  wFormatTag : UInt16
  nChannels : UInt16
  nSamplesPerSec : UInt32
  nAvgBytesPerSec : UInt32
  nBlockAlign : UInt16
  wBitsPerSample : UInt16
  cbSize : UInt16

/-- The memory layout of WAVEFORMATEX, which is packed. -/
def WaveFormatEx.codec : Codec WaveFormatEx :=
  (Codec.uint16.pair <| Codec.uint16.pair <| Codec.uint32.pair <| Codec.uint32.pair <|
    Codec.uint16.pair <| Codec.uint16.pair Codec.uint16).map
    (fun f => (f.wFormatTag, f.nChannels, f.nSamplesPerSec, f.nAvgBytesPerSec, f.nBlockAlign,
      f.wBitsPerSample, f.cbSize))
    (fun ⟨tag, channels, rate, bytes, align, bits, size⟩ =>
      ⟨tag, channels, rate, bytes, align, bits, size⟩)
    (fun _ => rfl)

theorem WaveFormatEx.codec_size : WaveFormatEx.codec.size = 18 := rfl

theorem WaveFormatEx.codec_exact : WaveFormatEx.codec.Exact := by
  have h2 : Codec.uint16.Exact := (Codec.bits_exact 2).map fun _ => rfl
  have h4 : Codec.uint32.Exact := (Codec.bits_exact 4).map fun _ => rfl
  exact (h2.pair <| h2.pair <| h4.pair <| h4.pair <| h2.pair <| h2.pair h2).map fun _ => rfl

structure AudioStreamConfigCaps where
  guid : GUID
  minimumChannels : UInt32
  maximumChannels : UInt32
  channelsGranularity : UInt32
  minimumBitsPerSample : UInt32
  maximumBitsPerSample : UInt32
  bitsPerSampleGranularity : UInt32
  minimumSampleFrequency : UInt32
  maximumSampleFrequency : UInt32
  sampleFrequencyGranularity : UInt32

/-- `sizeof(AUDIO_STREAM_CONFIG_CAPS)`. -/
def sizeofAudioStreamConfigCaps : Int32 := 52

namespace SourceOutputPin

/-- What GetNumberOfCapabilities returns and stores; `piSize` is not always written. -/
structure NumberOfCapabilities where
  hr : HRESULT
  piCount : Int32
  piSize : Option Int32

def getNumberOfCapabilities (p : SourceOutputPin) : NumberOfCapabilities :=
  if p.mt.amt.majortype = MEDIATYPE_Audio then ⟨S_OK, 1, some sizeofAudioStreamConfigCaps⟩
  else ⟨S_OK, 0, none⟩

/-- What GetStreamCaps finds: whether there is memory for the copy of the media type, and
    the bytes that can be read behind the format block. -/
structure CapsEnv where
  alloc : Bool
  behind : List UInt8

/-- What GetStreamCaps returns, and what it stores behind its two pointers. -/
structure StreamCaps where
  hr : HRESULT
  mediaType : Option MediaType
  caps : Option AudioStreamConfigCaps

/-- The bytes of a WAVEFORMATEX up to the last field that GetStreamCaps reads. -/
def capsBytes : Nat := 16

/-- GetStreamCaps; `ppMediaType` and `pSCC`: the pointers are not NULL. -/
def getStreamCaps (env : CapsEnv) (p : SourceOutputPin) (iIndex : Int32)
    (ppMediaType pSCC : Bool) : Option StreamCaps :=
  if iIndex < 0 then some ⟨E_INVALIDARG, none, none⟩ else
  if 0 < iIndex then some ⟨S_FALSE, none, none⟩ else
  if pSCC = false then some ⟨E_POINTER, none, none⟩ else
  if ppMediaType = false then none else
  if env.alloc = false then some ⟨E_OUTOFMEMORY, none, none⟩ else
  let memory := p.mt.format ++ env.behind
  if memory.length < capsBytes then none else
  let pMainAudioFormat := WaveFormatEx.codec.dec memory
  some
    { hr := S_OK
      mediaType := some p.mt
      caps := some
        { guid := MEDIATYPE_Audio
          minimumChannels := pMainAudioFormat.nChannels.toUInt32
          maximumChannels := pMainAudioFormat.nChannels.toUInt32
          channelsGranularity := pMainAudioFormat.nChannels.toUInt32
          minimumBitsPerSample := pMainAudioFormat.wBitsPerSample.toUInt32
          maximumBitsPerSample := pMainAudioFormat.wBitsPerSample.toUInt32
          bitsPerSampleGranularity := pMainAudioFormat.wBitsPerSample.toUInt32
          minimumSampleFrequency := pMainAudioFormat.nSamplesPerSec
          maximumSampleFrequency := pMainAudioFormat.nSamplesPerSec
          sampleFrequencyGranularity := pMainAudioFormat.nSamplesPerSec } }

/-! What a caller may rely on. -/

/-- The ranges are the fields of the format. -/
structure Reports (c : AudioStreamConfigCaps) (f : WaveFormatEx) : Prop where
  channels : c.minimumChannels = f.nChannels.toUInt32 ∧ c.maximumChannels = f.nChannels.toUInt32
  bits : c.minimumBitsPerSample = f.wBitsPerSample.toUInt32 ∧
    c.maximumBitsPerSample = f.wBitsPerSample.toUInt32
  frequency : c.minimumSampleFrequency = f.nSamplesPerSec ∧
    c.maximumSampleFrequency = f.nSamplesPerSec

/-- GetStreamCaps returns: with S_OK for the indices below the count and for no others,
    and then the ranges are those of a whole WAVEFORMATEX in the format block. -/
structure CapsAgree (env : CapsEnv) (p : SourceOutputPin) (iIndex : Int32) (r : StreamCaps) :
    Prop where
  returned : p.getStreamCaps env iIndex true true = some r
  counted : r.hr = S_OK ↔ 0 ≤ iIndex ∧ iIndex < p.getNumberOfCapabilities.piCount
  whole : r.hr = S_OK → WaveFormatEx.codec.size ≤ p.mt.format.length
  reported : r.hr = S_OK → ∃ c, r.caps = some c ∧ Reports c (WaveFormatEx.codec.dec p.mt.format)

/-- A whole WAVEFORMATEX is read from the block alone. -/
theorem dec_append {format : List UInt8} (behind : List UInt8)
    (h : WaveFormatEx.codec.size ≤ format.length) :
    WaveFormatEx.codec.dec (format ++ behind) = WaveFormatEx.codec.dec format := by
  have hlong : WaveFormatEx.codec.size ≤ (format ++ behind).length := by
    rw [List.length_append]
    omega
  rw [← WaveFormatEx.codec_exact.dec_take hlong, List.take_append_of_le_length h,
    WaveFormatEx.codec_exact.dec_take h]

theorem int32_eq_zero_iff (i : Int32) : (0 ≤ i ∧ i < 1) ↔ i = 0 := by
  have hone : (1 : Int32).toInt = 1 := by decide
  rw [Int32.le_iff_toInt_le, Int32.lt_iff_toInt_lt, ← Int32.toInt_inj, hone, Int32.toInt_zero]
  omega

/-- Only an audio pin has a capability, and only one. -/
theorem counted_iff (p : SourceOutputPin) (iIndex : Int32) :
    (0 ≤ iIndex ∧ iIndex < p.getNumberOfCapabilities.piCount) ↔
      iIndex = 0 ∧ p.mt.amt.majortype = MEDIATYPE_Audio := by
  unfold getNumberOfCapabilities
  split
  · rename_i haudio
    rw [int32_eq_zero_iff]
    exact (and_iff_left haudio).symm
  · rename_i hother
    refine iff_of_false (fun h => ?_) (fun h => hother h.2)
    exact Int32.not_lt.mpr h.1 h.2

/-- An index that is not 0 is refused. -/
theorem getStreamCaps_refused (env : CapsEnv) (p : SourceOutputPin) {iIndex : Int32}
    (h : iIndex ≠ 0) :
    ∃ r, p.getStreamCaps env iIndex true true = some r ∧ r.hr ≠ S_OK := by
  unfold getStreamCaps
  by_cases hneg : iIndex < 0
  · rw [if_pos hneg]
    exact ⟨_, rfl, by decide⟩
  · have hpos : 0 < iIndex := Int32.lt_of_le_of_ne (Int32.not_lt.mp hneg) h.symm
    rw [if_neg hneg, if_pos hpos]
    exact ⟨_, rfl, by decide⟩

/-- At index 0 only the memory counts: for the copy, and behind the format block. -/
theorem getStreamCaps_zero {env : CapsEnv} {p : SourceOutputPin} {r : StreamCaps}
    (h : p.getStreamCaps env 0 true true = some r) : r.hr = S_OK ↔ env.alloc = true := by
  simp only [getStreamCaps, Int32.lt_irrefl, if_false, Bool.true_eq_false] at h
  cases halloc : env.alloc with
  | false =>
    rw [halloc, if_pos rfl] at h
    obtain rfl := Option.some.inj h
    exact iff_of_false (by decide) (by decide)
  | true =>
    rw [halloc, if_neg (by decide), Option.ite_none_left_eq_some] at h
    obtain rfl := Option.some.inj h.2
    exact iff_of_true rfl rfl

/-- With memory for the copy and a whole WAVEFORMATEX, its fields are reported. -/
theorem getStreamCaps_reports {env : CapsEnv} {p : SourceOutputPin} (halloc : env.alloc = true)
    (hlen : WaveFormatEx.codec.size ≤ p.mt.format.length) :
    ∃ r c, p.getStreamCaps env 0 true true = some r ∧ r.caps = some c ∧
      Reports c (WaveFormatEx.codec.dec p.mt.format) := by
  have hread : ¬ (p.mt.format ++ env.behind).length < capsBytes := by
    rw [WaveFormatEx.codec_size] at hlen
    rw [List.length_append, capsBytes]
    omega
  simp only [getStreamCaps, Int32.lt_irrefl, if_false, Bool.true_eq_false, halloc, if_neg hread,
    dec_append env.behind hlen]
  exact ⟨_, _, rfl, rfl, ⟨rfl, rfl⟩, ⟨rfl, rfl⟩, ⟨rfl, rfl⟩⟩

/-- **The count and the query agree** about an index exactly if it is not 0, or the pin
    is an audio pin whose block holds a WAVEFORMATEX and there is memory for the copy
    (for another pin: if there is none). -/
theorem caps_agree_iff (env : CapsEnv) (p : SourceOutputPin) (iIndex : Int32) :
    (∃ r, CapsAgree env p iIndex r) ↔ iIndex ≠ 0 ∨
      if p.mt.amt.majortype = MEDIATYPE_Audio then
        env.alloc = true ∧ WaveFormatEx.codec.size ≤ p.mt.format.length
      else env.alloc = false := by
  by_cases hzero : iIndex = 0
  · subst hzero
    refine ⟨fun ⟨r, h⟩ => Or.inr ?_, fun h => ?_⟩
    · have hok := getStreamCaps_zero h.returned
      have hcount := (hok.symm.trans h.counted).trans (counted_iff p 0)
      split
      · rename_i haudio
        have halloc := hcount.mpr ⟨rfl, haudio⟩
        exact ⟨halloc, h.whole (hok.mpr halloc)⟩
      · rename_i hother
        exact Bool.eq_false_iff.mpr fun halloc => hother (hcount.mp halloc).2
    · have hcond := h.resolve_left (not_not_intro rfl)
      split at hcond
      · rename_i haudio
        obtain ⟨halloc, hlen⟩ := hcond
        obtain ⟨r, c, hr, hc, hreports⟩ := getStreamCaps_reports halloc hlen
        have hok := (getStreamCaps_zero hr).mpr halloc
        exact ⟨r, hr, iff_of_true hok ((counted_iff p 0).mpr ⟨rfl, haudio⟩), fun _ => hlen,
          fun _ => ⟨c, hc, hreports⟩⟩
      · rename_i hother
        have hr : p.getStreamCaps env 0 true true = some ⟨E_OUTOFMEMORY, none, none⟩ := by
          simp [getStreamCaps, hcond]
        have hno : E_OUTOFMEMORY ≠ S_OK := by decide
        refine ⟨_, hr, iff_of_false hno ?_, fun h => absurd h hno, fun h => absurd h hno⟩
        exact fun h => hother ((counted_iff p 0).mp h).2
  · obtain ⟨r, hr, hno⟩ := getStreamCaps_refused env p hzero
    refine iff_of_true ⟨r, hr, iff_of_false hno ?_, fun h => absurd h hno,
      fun h => absurd h hno⟩ (Or.inl hzero)
    exact fun h => hzero ((counted_iff p iIndex).mp h).1

/-- A video pin whose media type has no format block. -/
def videoPin : SourceOutputPin := new (wide "Cam") bareVideo ⟨1, 1, 1, 0⟩ 0 false

/-- It has no capability, and reports one: what lies behind the empty block. -/
theorem video_pin_reports_caps :
    videoPin.getNumberOfCapabilities.piCount = 0 ∧
      (∃ r c, videoPin.getStreamCaps ⟨true, List.replicate 16 255⟩ 0 true true = some r ∧
        r.hr = S_OK ∧ r.caps = some c ∧ c.maximumChannels = 65535) ∧
      ¬ ∃ r, CapsAgree ⟨true, List.replicate 16 255⟩ videoPin 0 r := by
  refine ⟨by decide, ⟨_, _, rfl, rfl, rfl, by decide⟩, ?_⟩
  rintro ⟨r, h⟩
  obtain rfl := Option.some.inj h.returned
  have hcount := (h.counted.mp rfl).2
  exact absurd hcount (by decide)

end SourceOutputPin

end VirtualCaptureStream
