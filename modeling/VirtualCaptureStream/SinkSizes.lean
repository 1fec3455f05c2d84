import Mathlib.Algebra.Group.Int.Defs
import VirtualCaptureStream.PinDescriptor
import VirtualCaptureStream.SinkInputPin

/- Two sizes the sink computes in 32 bits. NotifyAllocator multiplies the size of a
   buffer, their number and ten in `long`; PipeOutMediaTypes adds the length of a format
   block to that of a record's fixed part in `UINT`. Neither looks at the result:
   `sizes_exact_iff` says when it is the number that was meant.

   Correspondence (C++ ↔ Lean):
     the size arguments of CreateNamedPipe ↔ `pipeLong`, and `SinkInputPin.pipeSize`
     `cbPinInfoBytes`, the record          ↔ `cbPinInfoBytes`, `recordBytes`
     `CMemAllocator::Alloc`                ↔ `allocSize` -/
namespace VirtualCaptureStream

/-- The product NotifyAllocator computes, as the `long` it is before the call takes it
    for a DWORD. -/
def pipeLong (a : AllocatorProperties) : Int32 := a.cbBuffer * (a.cBuffers * 10)

/-- The product that was meant. -/
def pipeBytes (a : AllocatorProperties) : Int := a.cbBuffer.toInt * a.cBuffers.toInt * 10

/-- What the memory allocator of the base classes asks VirtualAlloc for when it is
    committed; `none`: it refuses. -/
def allocSize (a : AllocatorProperties) : Option Int :=
  if a.cbBuffer < 0 ∨ a.cbPrefix < 0 ∨ a.cBuffers < 0 then none else
  let lAlignedSize := a.cbBuffer + a.cbPrefix
  if lAlignedSize < a.cbBuffer then none else
  let lNewSize :=
    if 1 < a.cbAlign ∧ lAlignedSize % a.cbAlign ≠ 0 then
      lAlignedSize + a.cbAlign - lAlignedSize % a.cbAlign
    else lAlignedSize
  if lNewSize < lAlignedSize then none else
  let lToAllocate := a.cBuffers.toInt * lNewSize.toInt
  if 2 ^ 31 - 1 < lToAllocate then none else some lToAllocate

/-- Both sizes are what was meant: the pipe's as a `long` and as the DWORD that
    NotifyAllocator passes on, and the record's, which has room for all that is
    written. -/
structure SizesExact (a : AllocatorProperties) (mt : MediaType) : Prop where
  product : (pipeLong a).toInt = pipeBytes a
  pipe : ∀ (s : SinkSystem) (created thread : Bool), s.pin.hPipe = .null →
    ((s.notifyAllocatorStep a created thread).pin.pipeBufferSize.toNat : Int) = pipeBytes a
  size : (cbPinInfoBytes mt.amt).toNat =
    100 + AmMediaType.codec.size + AllocatorProperties.codec.size + mt.amt.cbFormat.toNat
  record : ∀ (cp : CodePage) (pin : SinkPin) (szPinName : List UInt8), pin.mt = mt →
    nameField cp pin.pName = some szPinName →
    (recordBytes szPinName pin).length ≤ (cbPinInfoBytes mt.amt).toNat

/-! The product. -/

/-- The two multiplications wrap as one. -/
theorem pipeLong_toInt (a : AllocatorProperties) :
    (pipeLong a).toInt = (pipeBytes a).bmod (2 ^ 32) := by
  have hten : (10 : Int32).toInt = 10 := by decide
  calc (pipeLong a).toInt
      = (a.cbBuffer.toInt * (a.cBuffers.toInt * 10).bmod (2 ^ 32)).bmod (2 ^ 32) := by
        rw [pipeLong, Int32.toInt_mul, Int32.toInt_mul, hten]
    _ = (a.cbBuffer.toInt * (a.cBuffers.toInt * 10)).bmod (2 ^ 32) := Int.mul_bmod_bmod ..
    _ = (pipeBytes a).bmod (2 ^ 32) := by rw [pipeBytes, Int.mul_assoc]

theorem pipeBytes_pos {a : AllocatorProperties} (hb : 0 < a.cbBuffer) (hc : 0 < a.cBuffers) :
    0 < pipeBytes a := by
  have hb' : 0 < a.cbBuffer.toInt := Int32.lt_iff_toInt_lt.mp hb
  have hc' : 0 < a.cBuffers.toInt := Int32.lt_iff_toInt_lt.mp hc
  have hprod := Int.mul_pos hb' hc'
  unfold pipeBytes
  omega

/-- A positive product is right exactly when it is a `long`. -/
theorem pipeLong_exact_iff {a : AllocatorProperties} (hpos : 0 < pipeBytes a) :
    (pipeLong a).toInt = pipeBytes a ↔ pipeBytes a < 2 ^ 31 := by
  refine ⟨fun h => ?_, fun h => ?_⟩
  · rw [← h]
    exact Int32.toInt_lt _
  · rw [pipeLong_toInt]
    exact Int.bmod_eq_of_le (by omega) (by omega)

/-- As a DWORD it is the same number then. -/
theorem pipeSize_toNat {a : AllocatorProperties} (hpos : 0 < pipeBytes a)
    (h : (pipeLong a).toInt = pipeBytes a) :
    ((SinkInputPin.pipeSize a).toNat : Int) = pipeBytes a := by
  have hnonneg : 0 ≤ pipeLong a := by
    rw [Int32.le_iff_toInt_le, h]
    exact Int.le_of_lt hpos
  have hsize : (SinkInputPin.pipeSize a).toNat = (pipeLong a).toNatClampNeg :=
    Int32.toNat_toUInt32_of_le hnonneg
  have hclamp : (pipeLong a).toNatClampNeg = (pipeLong a).toInt.toNat := rfl
  rw [hsize, hclamp, h]
  omega

/-- What an allocator commits is at least its buffers. -/
theorem allocSize_le {a : AllocatorProperties} {n : Int} (h : allocSize a = some n) :
    a.cbBuffer.toInt * a.cBuffers.toInt ≤ n := by
  simp only [allocSize, Option.ite_none_left_eq_some, not_or, Int32.not_lt] at h
  obtain ⟨⟨-, -, hcount⟩, haligned, hnew, -, hn⟩ := h
  have hsize := Int32.le_iff_toInt_le.mp (Int32.le_trans haligned hnew)
  have hcount' : 0 ≤ a.cBuffers.toInt := Int32.le_iff_toInt_le.mp hcount
  calc a.cbBuffer.toInt * a.cBuffers.toInt
      = a.cBuffers.toInt * a.cbBuffer.toInt := Int.mul_comm _ _
    _ ≤ a.cBuffers.toInt * _ := Int.mul_le_mul_of_nonneg_left hsize hcount'
    _ = n := Option.some.inj hn

/-- An allocator that commits less than a tenth of 2^31 bytes gets the pipe that was
    meant. -/
theorem pipeLong_of_committed {a : AllocatorProperties} {n : Int} (hb : 0 < a.cbBuffer)
    (hc : 0 < a.cBuffers) (h : allocSize a = some n) (hn : n * 10 < 2 ^ 31) :
    (pipeLong a).toInt = pipeBytes a := by
  refine (pipeLong_exact_iff (pipeBytes_pos hb hc)).mpr ?_
  have hle := allocSize_le h
  unfold pipeBytes
  omega

/-! The sum. -/

theorem cbPinInfoBytes_exact_iff (amt : AmMediaType) :
    (cbPinInfoBytes amt).toNat = 100 + AmMediaType.codec.size +
      AllocatorProperties.codec.size + amt.cbFormat.toNat ↔
    188 + amt.cbFormat.toNat < 2 ^ 32 := by
  rw [cbPinInfoBytes_eq, AmMediaType.codec_size, AllocatorProperties.codec_size]
  omega

/-- **The sizes do not wrap** exactly if ten times the buffers of the allocator have
    less than 2^31 bytes, and the record less than 2^32. -/
theorem sizes_exact_iff (a : AllocatorProperties) (mt : MediaType) (hb : 0 < a.cbBuffer)
    (hc : 0 < a.cBuffers) :
    SizesExact a mt ↔ a.cbBuffer.toInt * a.cBuffers.toInt * 10 < 2 ^ 31 ∧
      188 + mt.amt.cbFormat.toNat < 2 ^ 32 := by
  have hpos := pipeBytes_pos hb hc
  refine ⟨fun h => ⟨?_, ?_⟩, fun h => ?_⟩
  · exact (pipeLong_exact_iff hpos).mp h.product
  · exact (cbPinInfoBytes_exact_iff mt.amt).mp h.size
  · obtain ⟨hlong, hsum⟩ := h
    have hproduct := (pipeLong_exact_iff hpos).mpr hlong
    have hsize := (cbPinInfoBytes_exact_iff mt.amt).mpr hsum
    refine ⟨hproduct, fun s created thread hnull => ?_, hsize, ?_⟩
    · rw [SinkSystem.notifyAllocatorStep, if_pos hnull]
      exact pipeSize_toNat hpos hproduct
    · rintro cp pin szPinName rfl hname
      rw [recordBytes_length (nameField_length hname), hsize, AmMediaType.codec_size,
        AllocatorProperties.codec_size]

/-- Sixteen buffers of a 4K picture with four bytes a pixel. -/
def fourK : AllocatorProperties := ⟨16, 33177600, 1, 0⟩

/-- The pipe for them, which the allocator commits, is asked for with a fifth of the
    size. -/
theorem four_k_buffers_wrap :
    allocSize fourK = some 530841600 ∧ pipeBytes fourK = 5308416000 ∧
      (SinkInputPin.pipeSize fourK).toNat = 1013448704 ∧ ¬ SizesExact fourK bareVideo := by
  refine ⟨by decide, by decide, by decide, fun h => ?_⟩
  have hproduct := h.product
  exact absurd hproduct (by decide)

/-- Sixteen buffers of an HD picture. -/
theorem sizes_exact_iff_hd : SizesExact ⟨16, 8294400, 1, 0⟩ bareVideo :=
  (sizes_exact_iff ⟨16, 8294400, 1, 0⟩ bareVideo (by decide) (by decide)).mpr (by decide)

end VirtualCaptureStream
