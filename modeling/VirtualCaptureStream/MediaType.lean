import VirtualCaptureStream.Lib.Codec
import VirtualCaptureStream.Win32

/- AM_MEDIA_TYPE and ALLOCATOR_PROPERTIES as the 32-bit build lays them out (the
   project builds Win32 only): 72 and 16 bytes, little-endian, pointers four bytes
   wide. -/
namespace VirtualCaptureStream

/-- The sixteen bytes of a GUID, as one number in memory order. -/
abbrev GUID := BitVec 128

def MEDIATYPE_Video : GUID := 0x719B3800AA0000800010000073646976#128
def MEDIATYPE_Audio : GUID := 0x719B3800AA0000800010000073647561#128
def MEDIATYPE_AUXLine21Data : GUID := 0xA7673700AA009BB711D03A82670AEA80#128

/-- AM_MEDIA_TYPE, its two pointers as the words they are. -/
structure AmMediaType where
  majortype : GUID
  subtype : GUID
  bFixedSizeSamples : Int32
  bTemporalCompression : Int32
  lSampleSize : UInt32
  formattype : GUID
  pUnk : UInt32
  cbFormat : UInt32
  pbFormat : UInt32
  deriving DecidableEq

/-- The memory layout of AM_MEDIA_TYPE. -/
def AmMediaType.codec : Codec AmMediaType :=
  ((Codec.bits 16).pair <| (Codec.bits 16).pair <| Codec.int32.pair <| Codec.int32.pair <|
    Codec.uint32.pair <| (Codec.bits 16).pair <| Codec.uint32.pair <|
    Codec.uint32.pair Codec.uint32).map
    (fun a => (a.majortype, a.subtype, a.bFixedSizeSamples, a.bTemporalCompression,
      a.lSampleSize, a.formattype, a.pUnk, a.cbFormat, a.pbFormat))
    (fun ⟨majortype, subtype, fixed, temporal, size, formattype, pUnk, cbFormat, pbFormat⟩ =>
      ⟨majortype, subtype, fixed, temporal, size, formattype, pUnk, cbFormat, pbFormat⟩)
    (fun _ => rfl)

theorem AmMediaType.codec_size : AmMediaType.codec.size = 72 := rfl

/-- ALLOCATOR_PROPERTIES. -/
structure AllocatorProperties where
  cBuffers : Int32
  cbBuffer : Int32
  cbAlign : Int32
  cbPrefix : Int32
  deriving DecidableEq

/-- The memory layout of ALLOCATOR_PROPERTIES. -/
def AllocatorProperties.codec : Codec AllocatorProperties :=
  (Codec.int32.pair <| Codec.int32.pair <| Codec.int32.pair Codec.int32).map
    (fun a => (a.cBuffers, a.cbBuffer, a.cbAlign, a.cbPrefix))
    (fun ⟨cBuffers, cbBuffer, cbAlign, cbPrefix⟩ => ⟨cBuffers, cbBuffer, cbAlign, cbPrefix⟩)
    (fun _ => rfl)

theorem AllocatorProperties.codec_size : AllocatorProperties.codec.size = 16 := rfl

/-- A media type with the format block its `pbFormat` points to. -/
structure MediaType where
  amt : AmMediaType
  format : List UInt8
  format_length : format.length = amt.cbFormat.toNat
  deriving DecidableEq

/-- A media type without a format block. -/
def bareVideo : MediaType where
  amt := { majortype := MEDIATYPE_Video, subtype := 0, bFixedSizeSamples := 0,
           bTemporalCompression := 0, lSampleSize := 0, formattype := 0, pUnk := 0,
           cbFormat := 0, pbFormat := 0 }
  format := []
  format_length := List.length_nil

end VirtualCaptureStream
