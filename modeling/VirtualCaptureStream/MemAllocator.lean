import VirtualCaptureStream.MediaSample
import VirtualCaptureStream.Lib.Transition
import Mathlib.Data.List.Nodup
import Mathlib.Data.List.Count

/- CMemAllocator, the allocator of the samples that FillBuffer fills, and the
   CMediaSample objects it hands out. Any number of threads are in GetBuffer, hold
   references to samples, commit and decommit; a step is one critical section, or a wait
   that ends.

   What is proved:
     1. `buffers_exclusive` — a sample is on the free list or referenced, never both,
        GetBuffer hands out none that is referenced, and no step frees the block or makes
        another one while a sample is out.
     2. `no_lost_wakeup` — the two rules of the comment in CBaseAllocator, with what
        AM_GBF_NOWAIT does to the second one, and that a thread which waits can go on
        whenever there is a free sample, or nothing to wait for: without a commitment it
        leaves with VFW_E_NOT_COMMITTED.
     3. `alive_while_outstanding` — the allocator holds a reference to itself from the
        Commit until the last sample is back.
     4. `buffers_disjoint` — the buffers lie apart from each other in the block.

   Correspondence (C++ ↔ Lean):
     `CMemAllocator::Alloc`, `CBaseAllocator::Alloc` ↔ `alloc`, `sizeSet`
     `Commit`, `Decommit`, `SetProperties`           ↔ the functions of those names
     GetBuffer, one turn of its `for (;;)`           ↔ `getTurn`, `tryGet`
     WaitForSingleObject(m_hSem, INFINITE)           ↔ the action `wake`
     `CMediaSample::Release`, with `ReleaseBuffer`   ↔ `release`, `releaseBuffer`
   The last Release of a sample is one step: between `m_cRef = 0` and the lock of
   ReleaseBuffer nobody else has a pointer to the sample. -/
namespace VirtualCaptureStream

def VFW_E_BADALIGN : HRESULT := Int32.ofBitVec 0x8004020E#32
def VFW_E_ALREADY_COMMITTED : HRESULT := Int32.ofBitVec 0x8004020F#32
def VFW_E_BUFFERS_OUTSTANDING : HRESULT := Int32.ofBitVec 0x80040210#32
def VFW_E_NOT_COMMITTED : HRESULT := Int32.ofBitVec 0x80040211#32
def VFW_E_SIZENOTSET : HRESULT := Int32.ofBitVec 0x80040212#32
def VFW_E_TIMEOUT : HRESULT := Int32.ofBitVec 0x8004022E#32

/-- A CMediaSample: its reference count, where its buffer is in the allocator's block, and
    what IMediaSample shows of it. -/
structure AllocSample where
  cRef : Nat
  offset : Nat
  sample : MediaSample

/-- What is left of a sample when its last reference is gone: the flags are cleared, the
    bytes and the actual data length stay. -/
def MediaSample.recycled (s : MediaSample) : MediaSample :=
  { s with
    time := .notSet, mediaTime := none, isSyncPoint := false, isPreroll := false
    isDiscontinuity := false, mediaType := none }

/-- The allocator; `m_lAllocated` is the length of `samples`, and `m_lFree` has their
    numbers. `waiting`: the threads that are in GetBuffer about to wait, or waiting;
    `retrying`: those whose wait is over. `refused`: how many calls with AM_GBF_NOWAIT
    found no sample. -/
structure MemAllocator where
  lFree : List Nat
  samples : List AllocSample
  lCount : Int32
  lSize : Int32
  lAlignment : Int32
  lPrefix : Int32
  bChanged : Bool
  bCommitted : Bool
  bDecommitInProgress : Bool
  lWaiting : Nat
  hSem : Nat
  buffer : Option Nat
  selfRefs : Nat
  waiting : List Nat
  retrying : List Nat
  refused : Nat

/-- What Alloc finds: whether VirtualAlloc has the memory, and how many CMediaSample
    objects can be made. -/
structure AllocEnv where
  virtualAlloc : Bool
  news : Nat

namespace MemAllocator

/-- The constructor. -/
def new : MemAllocator where
  lFree := []
  samples := []
  lCount := 0
  lSize := 0
  lAlignment := 0
  lPrefix := 0
  bChanged := false
  bCommitted := false
  bDecommitInProgress := false
  lWaiting := 0
  hSem := 0
  buffer := none
  selfRefs := 0
  waiting := []
  retrying := []
  refused := 0

/-! Properties and memory. -/

/-- SetProperties: the size is rounded up so that prefix and buffer fill the alignment.
    `granularity`: the dwAllocationGranularity that GetSystemInfo answers. -/
def setProperties (granularity : UInt32) (a : MemAllocator) (request : AllocatorProperties) :
    HRESULT × MemAllocator :=
  if request.cbAlign = 0 ∨ granularity &&& (request.cbAlign - 1).toUInt32 ≠ 0 then
    (VFW_E_BADALIGN, a)
  else if a.bCommitted then (VFW_E_ALREADY_COMMITTED, a)
  else if a.lFree.length < a.samples.length then (VFW_E_BUFFERS_OUTSTANDING, a)
  else
    let lSize := request.cbBuffer + request.cbPrefix
    let lRemainder := lSize % request.cbAlign
    let lSize := if lRemainder ≠ 0 then lSize - lRemainder + request.cbAlign else lSize
    (S_OK, { a with
      lSize := lSize - request.cbPrefix
      lCount := request.cBuffers
      lAlignment := request.cbAlign
      lPrefix := request.cbPrefix
      bChanged := true })

/-- GetProperties. -/
def getProperties (a : MemAllocator) : AllocatorProperties :=
  ⟨a.lCount, a.lSize, a.lAlignment, a.lPrefix⟩

/-- `CBaseAllocator::Alloc`: whether there is anything to allocate. -/
def sizeSet (a : MemAllocator) : HRESULT :=
  if a.lCount ≤ 0 ∨ a.lSize ≤ 0 ∨ a.lAlignment ≤ 0 then VFW_E_SIZENOTSET
  else if a.bChanged = false then S_FALSE
  else S_OK

/-- ReallyFree. -/
def reallyFree (a : MemAllocator) : MemAllocator :=
  { a with lFree := [], samples := [], buffer := none }

/-- The aligned size of a buffer with its prefix; none where a sum overflows. -/
def alignedSize (a : MemAllocator) : Option Int32 :=
  let lAlignedSize := a.lSize + a.lPrefix
  if lAlignedSize < a.lSize then none
  else if 1 < a.lAlignment then
    let lRemainder := lAlignedSize % a.lAlignment
    if lRemainder ≠ 0 then
      let lNewSize := lAlignedSize + a.lAlignment - lRemainder
      if lNewSize < lAlignedSize then none else some lNewSize
    else some lAlignedSize
  else some lAlignedSize

def MAXLONG : Int := 0x7FFFFFFF

/-- A new sample over zeroed memory: the actual data length is the buffer's. -/
def newSample (offset : Nat) (lSize : Int32) : AllocSample where
  cRef := 0
  offset := offset
  sample :=
    { emptySample with
      buffer := List.replicate lSize.toNatClampNeg 0
      actualDataLength := lSize.toNatClampNeg
      size_lt := by rw [List.length_replicate]; exact Int32.toNatClampNeg_lt lSize
      actual_le := by rw [List.length_replicate] }

/-- The first `n` samples of the block. -/
def newSamples (n aligned lPrefix : Nat) (lSize : Int32) : List AllocSample :=
  (List.range n).map fun k => newSample (k * aligned + lPrefix) lSize

/-- Alloc when the old block is gone. Each sample is added to the front of the free list,
    up to the first CMediaSample that cannot be made. -/
def makeBlock (env : AllocEnv) (a : MemAllocator) : HRESULT × MemAllocator :=
  if a.lSize < 0 ∨ a.lPrefix < 0 ∨ a.lCount < 0 then (E_OUTOFMEMORY, a)
  else
    match a.alignedSize with
    | none => (E_OUTOFMEMORY, a)
    | some lAlignedSize =>
      let lToAllocate := a.lCount.toInt * lAlignedSize.toInt
      if MAXLONG < lToAllocate then (E_OUTOFMEMORY, a)
      else if env.virtualAlloc = false then (E_OUTOFMEMORY, a)
      else
        let n := min env.news a.lCount.toNatClampNeg
        let a := { a with
          buffer := some lToAllocate.toNat
          samples := newSamples n lAlignedSize.toNatClampNeg a.lPrefix.toNatClampNeg a.lSize
          lFree := (List.range n).reverse }
        -- the samples made so far stay on the free list, and the block with them
        if n < a.lCount.toNatClampNeg then (E_OUTOFMEMORY, a)
        else (S_OK, { a with bChanged := false })

/-- Alloc. -/
def alloc (env : AllocEnv) (a : MemAllocator) : HRESULT × MemAllocator :=
  if failed a.sizeSet then (a.sizeSet, a)
  else if a.sizeSet = S_FALSE then (S_OK, a)
  else makeBlock env (if a.buffer.isSome then a.reallyFree else a)

/-! Commit and Decommit. -/

/-- Commit. A decommit that is in progress is cancelled. -/
def commit (env : AllocEnv) (a : MemAllocator) : HRESULT × MemAllocator :=
  if a.bCommitted then (S_OK, a)
  else if a.bDecommitInProgress then
    (S_OK, { a with bCommitted := true, bDecommitInProgress := false })
  else
    let r := alloc env { a with bCommitted := true }
    if failed r.1 then (r.1, { r.2 with bCommitted := false })
    else (S_OK, { r.2 with selfRefs := r.2.selfRefs + 1 })

/-- NotifySample. -/
def notifySample (a : MemAllocator) : MemAllocator :=
  if a.lWaiting ≠ 0 then { a with hSem := a.hSem + a.lWaiting, lWaiting := 0 } else a

/-- Decommit. Free does nothing: the memory is kept. -/
def decommit (a : MemAllocator) : MemAllocator :=
  if a.bCommitted = false ∧ a.bDecommitInProgress = false then a
  else if a.lFree.length < a.samples.length then
    notifySample { a with bCommitted := false, bDecommitInProgress := true }
  else
    notifySample { a with
      bCommitted := false, bDecommitInProgress := false, selfRefs := a.selfRefs - 1 }

/-! Samples that are handed out and come back. -/

/-- What one turn of GetBuffer's loop finds. -/
inductive GetResult where
  | failed (hr : HRESULT)
  | sample (b : Nat)
  | wait
  deriving DecidableEq

def setRef (a : MemAllocator) (b cRef : Nat) : MemAllocator :=
  { a with samples := a.samples.modify b fun s => { s with cRef := cRef } }

/-- The critical section of GetBuffer, and the return without a wait. -/
def tryGet (noWait : Bool) (a : MemAllocator) : GetResult × MemAllocator :=
  if a.bCommitted = false then (.failed VFW_E_NOT_COMMITTED, a)
  else
    match a.lFree with
    | b :: rest => (.sample b, { a with lFree := rest }.setRef b 1)
    | [] =>
      let a := { a with lWaiting := a.lWaiting + 1 }
      if noWait then (.failed VFW_E_TIMEOUT, { a with refused := a.refused + 1 })
      else (.wait, a)

/-- One turn of the loop by the thread `t`. -/
def getTurn (t : Nat) (noWait : Bool) (a : MemAllocator) : MemAllocator :=
  match tryGet noWait a with
  | (.wait, a) => { a with waiting := t :: a.waiting }
  | (_, a) => a

/-- ReleaseBuffer, which ends a decommit that waited for this sample. -/
def releaseBuffer (a : MemAllocator) (b : Nat) : MemAllocator :=
  let a := notifySample { a with lFree := b :: a.lFree }
  if a.bDecommitInProgress = true ∧ a.lFree.length = a.samples.length then
    { a with bDecommitInProgress := false, selfRefs := a.selfRefs - 1 }
  else a

/-- The references to a sample. -/
def refs (a : MemAllocator) (b : Nat) : Nat := (a.samples[b]?.map (·.cRef)).getD 0

/-- Release of a sample that somebody references. -/
def release (a : MemAllocator) (b : Nat) : MemAllocator :=
  if a.refs b = 1 then
    { a with samples := a.samples.modify b fun s => ⟨0, s.offset, s.sample.recycled⟩ }.releaseBuffer b
  else a.setRef b (a.refs b - 1)

/-! The system. -/

inductive AllocAction where
  | setProperties (request : AllocatorProperties)
  | commit (env : AllocEnv)
  | decommit
  | getBuffer (t : Nat) (noWait : Bool)
  | wake (t : Nat)
  | again (t : Nat)
  | addRef (b : Nat)
  | release (b : Nat)

/-- The thread is in GetBuffer. -/
def inGetBuffer (a : MemAllocator) (t : Nat) : Prop := t ∈ a.waiting ∨ t ∈ a.retrying

instance (a : MemAllocator) (t : Nat) : Decidable (a.inGetBuffer t) :=
  inferInstanceAs (Decidable (_ ∨ _))

/-- The wait of the thread `t` ends. -/
def wake (a : MemAllocator) (t : Nat) : Option MemAllocator :=
  if t ∈ a.waiting ∧ 0 < a.hSem then
    some { a with
      hSem := a.hSem - 1, waiting := a.waiting.erase t, retrying := t :: a.retrying }
  else none

def step (granularity : UInt32) (a : MemAllocator) : AllocAction → Option MemAllocator
  | .setProperties request => some (a.setProperties granularity request).2
  | .commit env => some (a.commit env).2
  | .decommit => some a.decommit
  | .getBuffer t noWait => if a.inGetBuffer t then none else some (a.getTurn t noWait)
  | .wake t => a.wake t
  | .again t =>
    if t ∈ a.retrying then some ({ a with retrying := a.retrying.erase t }.getTurn t false)
    else none
  | .addRef b => if 0 < a.refs b then some (a.setRef b (a.refs b + 1)) else none
  | .release b => if 0 < a.refs b then some (a.release b) else none

/-- The critical sections, and what each begins with. -/
inductive Stepped (granularity : UInt32) (a : MemAllocator) : AllocAction → MemAllocator → Prop
  | setProperties (request) :
      Stepped granularity a (.setProperties request) (a.setProperties granularity request).2
  | commit (env) : Stepped granularity a (.commit env) (a.commit env).2
  | decommit : Stepped granularity a .decommit a.decommit
  | getBuffer {t noWait} (hout : ¬ a.inGetBuffer t) :
      Stepped granularity a (.getBuffer t noWait) (a.getTurn t noWait)
  | wake {t} (hmem : t ∈ a.waiting) (hpos : 0 < a.hSem) : Stepped granularity a (.wake t) { a with
      hSem := a.hSem - 1, waiting := a.waiting.erase t, retrying := t :: a.retrying }
  | again {t} (hmem : t ∈ a.retrying) :
      Stepped granularity a (.again t) ({ a with retrying := a.retrying.erase t }.getTurn t false)
  | addRef {b} (hpos : 0 < a.refs b) : Stepped granularity a (.addRef b) (a.setRef b (a.refs b + 1))
  | release {b} (hpos : 0 < a.refs b) : Stepped granularity a (.release b) (a.release b)

theorem step_cases {granularity : UInt32} {a c : MemAllocator} {act : AllocAction}
    (h : a.step granularity act = some c) : Stepped granularity a act c := by
  cases act with
  | setProperties request =>
    obtain rfl := Option.some.inj h
    exact .setProperties request
  | commit env =>
    obtain rfl := Option.some.inj h
    exact .commit env
  | decommit =>
    obtain rfl := Option.some.inj h
    exact .decommit
  | getBuffer t noWait =>
    rw [step, Option.ite_none_left_eq_some] at h
    obtain rfl := Option.some.inj h.2
    exact .getBuffer h.1
  | wake t =>
    rw [step, MemAllocator.wake, Option.ite_none_right_eq_some] at h
    obtain rfl := Option.some.inj h.2
    exact .wake h.1.1 h.1.2
  | again t =>
    rw [step, Option.ite_none_right_eq_some] at h
    obtain rfl := Option.some.inj h.2
    exact .again h.1
  | addRef b =>
    rw [step, Option.ite_none_right_eq_some] at h
    obtain rfl := Option.some.inj h.2
    exact .addRef h.1
  | release b =>
    rw [step, Option.ite_none_right_eq_some] at h
    obtain rfl := Option.some.inj h.2
    exact .release h.1

/-! References and the free list. -/

section
variable {a : MemAllocator}

@[simp] theorem setRef_length (b n : Nat) : (a.setRef b n).samples.length = a.samples.length :=
  List.length_modify _ _ _

theorem refs_modify (samples : List AllocSample) (b c n : Nat) {f : AllocSample → AllocSample}
    (hf : ∀ s, (f s).cRef = n) :
    (((samples.modify b f)[c]?.map (·.cRef)).getD 0) =
      if b = c ∧ b < samples.length then n else (samples[c]?.map (·.cRef)).getD 0 := by
  rw [List.getElem?_modify]
  by_cases hbc : b = c
  · subst hbc
    by_cases hlt : b < samples.length
    · rw [if_pos ⟨rfl, hlt⟩, List.getElem?_eq_getElem hlt]
      simp [hf]
    · rw [if_neg fun h => hlt h.2, List.getElem?_eq_none (Nat.le_of_not_lt hlt)]
      rfl
  · rw [if_neg fun h => hbc h.1]
    simp [hbc]

theorem refs_setRef (b c n : Nat) :
    (a.setRef b n).refs c = if b = c ∧ b < a.samples.length then n else a.refs c :=
  refs_modify a.samples b c n fun _ => rfl

theorem lt_of_refs_pos {b : Nat} (h : 0 < a.refs b) : b < a.samples.length := by
  by_contra hge
  rw [refs, List.getElem?_eq_none (Nat.le_of_not_lt hge)] at h
  exact Nat.lt_irrefl 0 h

end

/-- The free list has the samples that nobody references; while there are others, the
    allocator is committed or about to be decommitted, and it holds a reference to itself
    from Commit until then. -/
structure Books (a : MemAllocator) : Prop where
  nodup : a.lFree.Nodup
  free_iff : ∀ b, b ∈ a.lFree ↔ b < a.samples.length ∧ a.refs b = 0
  decommitting : a.bDecommitInProgress = true →
    a.bCommitted = false ∧ a.lFree.length < a.samples.length
  outstanding : a.lFree.length < a.samples.length →
    a.bCommitted = true ∨ a.bDecommitInProgress = true
  changed : a.bChanged = true → a.bCommitted = false ∧ a.bDecommitInProgress = false
  selfRefs : a.selfRefs = if a.bCommitted = true ∨ a.bDecommitInProgress = true then 1 else 0
  no_block : a.buffer = none → a.samples = []

/-- A list of numbers below `n` without repetition lacks one of them when it is shorter. -/
theorem length_lt_iff_lacks {l : List Nat} {n : Nat} (hnodup : l.Nodup) (hlt : ∀ b ∈ l, b < n) :
    l.length < n ↔ ∃ b < n, b ∉ l := by
  have hsub : l ⊆ List.range n := fun b hb => List.mem_range.mpr (hlt b hb)
  refine ⟨fun h => ?_, fun ⟨b, hb, hno⟩ => ?_⟩
  · by_contra hall
    have hback : List.range n ⊆ l := fun b hb => by
      by_contra hno
      exact hall ⟨b, List.mem_range.mp hb, hno⟩
    have hle := List.Nodup.length_le_of_subset List.nodup_range hback
    rw [List.length_range] at hle
    omega
  · have hcons : (b :: l).Nodup := List.nodup_cons.mpr ⟨hno, hnodup⟩
    have hle := List.Nodup.length_le_of_subset hcons
      (List.cons_subset.mpr ⟨List.mem_range.mpr hb, hsub⟩)
    rw [List.length_range, List.length_cons] at hle
    omega

section
variable {a : MemAllocator}

theorem Books.unchanged (h : a.Books) (hcommitted : a.bCommitted = true) : a.bChanged = false := by
  cases hch : a.bChanged with
  | false => rfl
  | true =>
    have hno := (h.changed hch).1
    rw [hcommitted] at hno
    cases hno

/-- A decommit is over once all samples are back. -/
theorem Books.not_decommitting (h : a.Books) (hall : ¬ a.lFree.length < a.samples.length) :
    a.bDecommitInProgress = false := by
  cases hd : a.bDecommitInProgress with
  | false => rfl
  | true => exact absurd (h.decommitting hd).2 hall

theorem Books.free_lt (h : a.Books) {b : Nat} (hb : b ∈ a.lFree) : b < a.samples.length :=
  ((h.free_iff b).mp hb).1

/-- Samples are outstanding exactly when somebody references one. -/
theorem Books.outstanding_iff (h : a.Books) :
    a.lFree.length < a.samples.length ↔ ∃ b, 0 < a.refs b := by
  rw [length_lt_iff_lacks h.nodup fun b hb => h.free_lt hb]
  refine ⟨fun ⟨b, hb, hno⟩ => ⟨b, ?_⟩, fun ⟨b, hb⟩ => ⟨b, lt_of_refs_pos hb, fun hfree => ?_⟩⟩
  · by_contra hzero
    exact hno ((h.free_iff b).mpr ⟨hb, by omega⟩)
  · have := ((h.free_iff b).mp hfree).2
    omega

/-- What a critical section does beside the samples' memory and the waits. -/
theorem Books.congr {c : MemAllocator} (h : a.Books) (hfree : c.lFree = a.lFree)
    (hsamples : c.samples = a.samples) (hcommitted : c.bCommitted = a.bCommitted)
    (hprogress : c.bDecommitInProgress = a.bDecommitInProgress) (hchanged : c.bChanged = a.bChanged)
    (hself : c.selfRefs = a.selfRefs) (hbuffer : c.buffer = a.buffer) : c.Books := by
  have hrefs : ∀ b, c.refs b = a.refs b := fun b => by rw [refs, refs, hsamples]
  constructor
  · rw [hfree]
    exact h.nodup
  · intro b
    rw [hfree, hsamples, hrefs]
    exact h.free_iff b
  · rw [hprogress, hcommitted, hfree, hsamples]
    exact h.decommitting
  · rw [hprogress, hcommitted, hfree, hsamples]
    exact h.outstanding
  · rw [hchanged, hcommitted, hprogress]
    exact h.changed
  · rw [hself, hcommitted, hprogress]
    exact h.selfRefs
  · rw [hbuffer, hsamples]
    exact h.no_block

theorem Books.notifySample (h : a.Books) : a.notifySample.Books := by
  unfold MemAllocator.notifySample
  split
  · exact h.congr rfl rfl rfl rfl rfl rfl rfl
  · exact h

theorem Books.setProperties (h : a.Books) (granularity : UInt32) (request : AllocatorProperties) :
    (a.setProperties granularity request).2.Books := by
  unfold MemAllocator.setProperties
  split
  · exact h
  split
  · exact h
  split
  · exact h
  · rename_i hcommitted hout
    rw [Bool.not_eq_true] at hcommitted
    have hprogress : a.bDecommitInProgress = false := by
      by_contra hp
      exact hout (h.decommitting (by simpa using hp)).2
    exact ⟨h.nodup, h.free_iff, h.decommitting, h.outstanding, fun _ => ⟨hcommitted, hprogress⟩,
      h.selfRefs, h.no_block⟩

/-- New samples are all free. -/
theorem refs_newSamples (n aligned lPrefix : Nat) (lSize : Int32) (b : Nat) :
    (((newSamples n aligned lPrefix lSize)[b]?.map (·.cRef)).getD 0) = 0 := by
  unfold newSamples
  rw [List.getElem?_map]
  cases (List.range n)[b]? <;> rfl

@[simp] theorem newSamples_length (n aligned lPrefix : Nat) (lSize : Int32) :
    (newSamples n aligned lPrefix lSize).length = n := by
  rw [newSamples, List.length_map, List.length_range]

/-- The allocation of `n` samples, each in `aligned` bytes of the block, is possible. -/
structure Makes (a : MemAllocator) (n : Nat) (aligned : Int32) : Prop where
  changed : a.bChanged = true
  size_pos : 0 < a.lSize
  prefix_nonneg : 0 ≤ a.lPrefix
  alignedSize : a.alignedSize = some aligned
  count : n ≤ a.lCount.toNatClampNeg
  fits : a.lCount.toInt * aligned.toInt ≤ MAXLONG

/-- The allocator with a new block and `n` samples; fewer than were asked for leave it as
    it was asked. -/
def withBlock (a : MemAllocator) (n : Nat) (aligned : Int32) : MemAllocator :=
  { a with
    buffer := some (a.lCount.toInt * aligned.toInt).toNat
    samples := newSamples n aligned.toNatClampNeg a.lPrefix.toNatClampNeg a.lSize
    lFree := (List.range n).reverse
    bChanged := decide (n < a.lCount.toNatClampNeg) }

theorem makeBlock_cases (env : AllocEnv) (hchanged : a.bChanged = true) (hsize : 0 < a.lSize) :
    failed (makeBlock env a).1 = true ∧ (makeBlock env a).2 = a ∨
    ∃ n aligned, a.Makes n aligned ∧
      failed (makeBlock env a).1 = decide (n < a.lCount.toNatClampNeg) ∧
      (makeBlock env a).2 = a.withBlock n aligned := by
  have hmemory : failed E_OUTOFMEMORY = true := by decide
  unfold makeBlock
  split
  · exact Or.inl ⟨hmemory, rfl⟩
  rename_i hpos
  split
  · exact Or.inl ⟨hmemory, rfl⟩
  rename_i aligned haligned
  dsimp only
  split
  · exact Or.inl ⟨hmemory, rfl⟩
  rename_i hmax
  split
  · exact Or.inl ⟨hmemory, rfl⟩
  right
  have hpre : 0 ≤ a.lPrefix := by
    by_contra hlt
    exact hpos (Or.inr (Or.inl (Int32.not_le.mp hlt)))
  refine ⟨min env.news a.lCount.toNatClampNeg, aligned,
    ⟨hchanged, hsize, hpre, haligned, Nat.min_le_right _ _, Int.not_lt.mp hmax⟩, ?_, ?_⟩
  · split <;> rename_i hlt <;> simp [hlt, hmemory]
  · split <;> rename_i hlt <;> simp [withBlock, hlt, hchanged]

/-- What Alloc does: nothing, when it is not needed or not possible; give the block back;
    or make a new one, as far as samples can be made. -/
theorem alloc_cases (env : AllocEnv) (hblock : a.buffer = none → a.samples = [] ∧ a.lFree = []) :
    (alloc env a).2 = a ∧ (failed (alloc env a).1 = false → a.bChanged = false) ∨
    failed (alloc env a).1 = true ∧ (alloc env a).2 = a.reallyFree ∨
    ∃ n aligned, a.Makes n aligned ∧
      failed (alloc env a).1 = decide (n < a.lCount.toNatClampNeg) ∧
      (alloc env a).2 = a.withBlock n aligned := by
  have hnotset : failed VFW_E_SIZENOTSET = true := by decide
  unfold alloc
  by_cases hsize : a.lCount ≤ 0 ∨ a.lSize ≤ 0 ∨ a.lAlignment ≤ 0
  · left
    simp [sizeSet, hsize, hnotset]
  by_cases hchanged : a.bChanged = false
  · left
    have hfalse : failed S_FALSE = false := by decide
    simp [sizeSet, hsize, hchanged, hfalse]
  rw [Bool.not_eq_false] at hchanged
  right
  have hset : a.sizeSet = S_OK := by simp [sizeSet, hsize, hchanged]
  have hne : S_OK ≠ S_FALSE := by decide
  have hpos : 0 < a.lSize := by
    by_contra hle
    exact hsize (Or.inr (Or.inl (Int32.not_lt.mp hle)))
  -- a block that is not there has no samples either
  have hfreed : (if a.buffer.isSome = true then a.reallyFree else a) = a.reallyFree := by
    cases hb : a.buffer with
    | some n => rfl
    | none =>
      obtain ⟨hs, hf⟩ := hblock hb
      cases a
      simp_all [reallyFree]
  rw [hset, not_failed_S_OK, if_neg Bool.false_ne_true, if_neg hne, hfreed]
  rcases makeBlock_cases (a := a.reallyFree) env hchanged hpos with h | ⟨n, aligned, hmakes, h⟩
  · exact Or.inl h
  · exact Or.inr ⟨n, aligned, ⟨hmakes.changed, hmakes.size_pos, hmakes.prefix_nonneg,
      hmakes.alignedSize, hmakes.count, hmakes.fits⟩, h⟩

/-- An allocator that is not committed and waits for no sample has them all. -/
theorem Books.all_free (h : a.Books) (hcommitted : a.bCommitted = false)
    (hprogress : a.bDecommitInProgress = false) : ∀ b, a.refs b = 0 := by
  intro b
  by_contra hpos
  rcases h.outstanding (h.outstanding_iff.mpr ⟨b, Nat.pos_of_ne_zero hpos⟩) with hc | hp
  · rw [hcommitted] at hc
    cases hc
  · rw [hprogress] at hp
    cases hp

theorem Books.no_free (h : a.Books) (hsamples : a.samples = []) : a.lFree = [] := by
  rw [List.eq_nil_iff_forall_not_mem]
  intro b hb
  have hlt := h.free_lt hb
  rw [hsamples] at hlt
  exact Nat.not_lt_zero b hlt

theorem mem_reverse_range {n b : Nat} : b ∈ (List.range n).reverse ↔ b < n := by
  rw [List.mem_reverse, List.mem_range]

/-- What Commit does: nothing; cancel a decommit; or what Alloc does. -/
theorem commit_cases (env : AllocEnv) (h : a.Books) :
    (a.commit env).2 = a ∨
    a.bCommitted = false ∧ a.bDecommitInProgress = true ∧ (a.commit env).1 = S_OK ∧
      (a.commit env).2 = { a with bCommitted := true, bDecommitInProgress := false } ∨
    a.bCommitted = false ∧ a.bDecommitInProgress = false ∧
      ((a.bChanged = false ∧ (a.commit env).1 = S_OK ∧
          (a.commit env).2 = { a with bCommitted := true, selfRefs := a.selfRefs + 1 }) ∨
        (failed (a.commit env).1 = true ∧ (a.commit env).2 = a.reallyFree) ∨
        ∃ n aligned, a.Makes n aligned ∧
          if n < a.lCount.toNatClampNeg then
            failed (a.commit env).1 = true ∧ (a.commit env).2 = a.withBlock n aligned
          else (a.commit env).1 = S_OK ∧ (a.commit env).2 =
            { a.withBlock n aligned with bCommitted := true, selfRefs := a.selfRefs + 1 }) := by
  unfold commit
  by_cases hcommitted : a.bCommitted = true
  · rw [if_pos hcommitted]
    exact Or.inl rfl
  rw [if_neg hcommitted]
  rw [Bool.not_eq_true] at hcommitted
  by_cases hprogress : a.bDecommitInProgress = true
  · rw [if_pos hprogress]
    exact Or.inr (Or.inl ⟨hcommitted, hprogress, rfl, rfl⟩)
  rw [if_neg hprogress]
  rw [Bool.not_eq_true] at hprogress
  dsimp only
  have hsame : { a with bCommitted := false } = a := by rw [← hcommitted]
  have hblock : a.buffer = none → a.samples = [] ∧ a.lFree = [] := fun hb =>
    ⟨h.no_block hb, h.no_free (h.no_block hb)⟩
  rcases alloc_cases (a := { a with bCommitted := true }) env hblock with
    ⟨heq, hok⟩ | ⟨hfail, heq⟩ | ⟨n, aligned, hmakes, hfail, heq⟩
  · rw [heq]
    by_cases hf : failed (alloc env { a with bCommitted := true }).1 = true
    · rw [if_pos hf]
      exact Or.inl hsame
    · rw [if_neg hf]
      rw [Bool.not_eq_true] at hf
      exact Or.inr (Or.inr ⟨hcommitted, hprogress, Or.inl ⟨hok hf, rfl, rfl⟩⟩)
  · rw [heq, if_pos hfail]
    refine Or.inr (Or.inr ⟨hcommitted, hprogress, Or.inr (Or.inl ⟨hfail, ?_⟩)⟩)
    rw [reallyFree, reallyFree, ← hcommitted]
  · refine Or.inr (Or.inr ⟨hcommitted, hprogress, Or.inr (Or.inr ⟨n, aligned,
      ⟨hmakes.changed, hmakes.size_pos, hmakes.prefix_nonneg, hmakes.alignedSize, hmakes.count,
        hmakes.fits⟩, ?_⟩)⟩)
    rw [heq, hfail]
    by_cases hlt : n < a.lCount.toNatClampNeg
    · rw [if_pos (decide_eq_true hlt), if_pos hlt]
      refine ⟨hfail.trans (decide_eq_true hlt), ?_⟩
      rw [withBlock, withBlock, ← hcommitted]
    · have hno : ¬ decide (n < a.lCount.toNatClampNeg) = true := by simpa using hlt
      rw [if_neg hno, if_neg hlt]
      exact ⟨rfl, rfl⟩

/-- A new block begins with all its samples free. -/
theorem withBlock_free_iff (n : Nat) (aligned : Int32) (b : Nat) :
    b ∈ (a.withBlock n aligned).lFree ↔
      b < (a.withBlock n aligned).samples.length ∧ (a.withBlock n aligned).refs b = 0 := by
  show b ∈ (List.range n).reverse ↔ b < (newSamples _ _ _ _).length ∧ _
  rw [newSamples_length, mem_reverse_range]
  exact ⟨fun hb => ⟨hb, refs_newSamples _ _ _ _ b⟩, fun hb => hb.1⟩

theorem withBlock_all_free (n : Nat) (aligned : Int32) :
    ¬ (a.withBlock n aligned).lFree.length < (a.withBlock n aligned).samples.length := by
  show ¬ (List.range n).reverse.length < (newSamples _ _ _ _).length
  rw [newSamples_length, List.length_reverse, List.length_range]
  exact Nat.lt_irrefl n

theorem Books.commit (h : a.Books) (env : AllocEnv) : (a.commit env).2.Books := by
  rcases commit_cases env h with heq | ⟨hc, hp, -, heq⟩ | ⟨hc, hp, ⟨hch, -, heq⟩ |
      ⟨-, heq⟩ | ⟨n, aligned, hmakes, heq⟩⟩
  · rw [heq]
    exact h
  · rw [heq]
    refine ⟨h.nodup, h.free_iff, fun he => (by cases he), fun _ => Or.inl rfl, fun he => ?_, ?_,
      h.no_block⟩
    · rw [(h.changed he).2] at hp
      cases hp
    · simpa [hp] using h.selfRefs
  · rw [heq]
    refine ⟨h.nodup, h.free_iff, fun he => ?_, fun _ => Or.inl rfl, fun he => ?_, ?_, h.no_block⟩
    · rw [hp] at he
      cases he
    · rw [hch] at he
      cases he
    · simpa [hc, hp] using h.selfRefs
  · rw [heq]
    refine ⟨List.nodup_nil, fun b => ?_, fun he => absurd (hp.symm.trans he) Bool.false_ne_true,
      fun hlt => absurd hlt (Nat.lt_irrefl 0), h.changed, h.selfRefs, fun _ => rfl⟩
    simp [reallyFree]
  · have hself := h.selfRefs
    simp only [hc, hp, Bool.false_eq_true, or_self, if_false] at hself
    have hnodup : (a.withBlock n aligned).lFree.Nodup := List.nodup_reverse.mpr List.nodup_range
    split at heq <;> obtain ⟨-, heq⟩ := heq <;> rw [heq]
    · exact ⟨hnodup, withBlock_free_iff n aligned,
        fun he => absurd (hp.symm.trans he) Bool.false_ne_true,
        fun hlt => absurd hlt (withBlock_all_free n aligned), fun _ => ⟨hc, hp⟩, h.selfRefs,
        fun he => (by cases he)⟩
    · rename_i hall
      refine ⟨hnodup, withBlock_free_iff n aligned,
        fun he => absurd (hp.symm.trans he) Bool.false_ne_true,
        fun hlt => absurd hlt (withBlock_all_free n aligned),
        fun he => absurd (of_decide_eq_true he) hall, ?_, fun he => (by cases he)⟩
      simp [hself]

theorem Books.decommit (h : a.Books) : a.decommit.Books := by
  unfold MemAllocator.decommit
  split
  · exact h
  rename_i hactive
  have hself : a.selfRefs = 1 := by
    rw [h.selfRefs, if_pos]
    by_contra hno
    simp only [not_or, Bool.not_eq_true] at hno
    exact hactive hno
  have hchanged : a.bChanged = false := by
    by_contra hch
    exact hactive (h.changed (by simpa using hch))
  split
  · rename_i hout
    refine Books.notifySample ⟨h.nodup, h.free_iff, fun _ => ⟨rfl, hout⟩, fun _ => Or.inr rfl,
      fun he => ?_, ?_, h.no_block⟩
    · rw [hchanged] at he
      cases he
    · simp [hself]
  · rename_i hall
    refine Books.notifySample ⟨h.nodup, h.free_iff, fun he => (by cases he),
      fun hlt => absurd hlt hall, fun _ => ⟨rfl, rfl⟩, ?_, h.no_block⟩
    simp [hself]

/-- The first free sample is handed out. -/
theorem Books.handOut {b : Nat} {rest : List Nat} (h : a.Books) (hfree : a.lFree = b :: rest)
    (hcommitted : a.bCommitted = true) : ({ a with lFree := rest }.setRef b 1).Books := by
  have hnodup := h.nodup
  rw [hfree, List.nodup_cons] at hnodup
  have hlt := h.free_lt (hfree ▸ List.mem_cons_self)
  refine ⟨hnodup.2, fun c => ?_,
    fun he => absurd ((h.decommitting he).1.symm.trans hcommitted) Bool.false_ne_true,
    fun _ => Or.inl hcommitted, h.changed, h.selfRefs, fun he => ?_⟩
  · rw [refs_setRef, setRef_length]
    have hc := h.free_iff c
    rw [hfree, List.mem_cons] at hc
    by_cases hbc : b = c
    · subst hbc
      rw [if_pos ⟨rfl, hlt⟩]
      exact iff_of_false hnodup.1 (by omega)
    · rw [if_neg fun hif => hbc hif.1]
      refine Iff.trans ⟨Or.inr, fun hor => ?_⟩ hc
      exact hor.resolve_left fun e => hbc e.symm
  · rw [h.no_block he] at hlt
    exact absurd hlt (Nat.not_lt_zero b)

/-- What a turn of GetBuffer's loop does. -/
theorem getTurn_cases (t : Nat) (noWait : Bool) (a : MemAllocator) :
    a.bCommitted = false ∧ tryGet noWait a = (.failed VFW_E_NOT_COMMITTED, a) ∧
      getTurn t noWait a = a ∨
    (∃ b rest, a.bCommitted = true ∧ a.lFree = b :: rest ∧
      tryGet noWait a = (.sample b, { a with lFree := rest }.setRef b 1) ∧
      getTurn t noWait a = { a with lFree := rest }.setRef b 1) ∨
    a.bCommitted = true ∧ a.lFree = [] ∧ noWait = true ∧
      (tryGet noWait a).1 = .failed VFW_E_TIMEOUT ∧
      getTurn t noWait a = { a with lWaiting := a.lWaiting + 1, refused := a.refused + 1 } ∨
    a.bCommitted = true ∧ a.lFree = [] ∧ noWait = false ∧ (tryGet noWait a).1 = .wait ∧
      getTurn t noWait a = { a with lWaiting := a.lWaiting + 1, waiting := t :: a.waiting } := by
  unfold getTurn tryGet
  by_cases hcommitted : a.bCommitted = false
  · rw [if_pos hcommitted]
    exact Or.inl ⟨hcommitted, rfl, rfl⟩
  rw [if_neg hcommitted]
  rw [Bool.not_eq_false] at hcommitted
  right
  split
  · rename_i b rest hfree
    exact Or.inl ⟨b, rest, hcommitted, hfree, rfl, rfl⟩
  · rename_i hfree
    cases noWait with
    | true => exact Or.inr (Or.inl ⟨hcommitted, hfree, rfl, rfl, rfl⟩)
    | false => exact Or.inr (Or.inr ⟨hcommitted, hfree, rfl, rfl, rfl⟩)

theorem Books.getTurn (h : a.Books) (t : Nat) (noWait : Bool) : (getTurn t noWait a).Books := by
  rcases getTurn_cases t noWait a with ⟨-, -, heq⟩ | ⟨b, rest, hc, hfree, -, heq⟩ |
      ⟨-, -, -, -, heq⟩ | ⟨-, -, -, -, heq⟩ <;> rw [heq]
  · exact h
  · exact h.handOut hfree hc
  · exact h.congr rfl rfl rfl rfl rfl rfl rfl
  · exact h.congr rfl rfl rfl rfl rfl rfl rfl

/-- A count above zero stays above zero. -/
theorem Books.setRef (h : a.Books) {b n : Nat} (hpos : 0 < a.refs b) (hn : 0 < n) :
    (a.setRef b n).Books := by
  refine ⟨h.nodup, fun c => ?_, ?_, ?_, h.changed, h.selfRefs, fun he => ?_⟩
  · rw [refs_setRef, setRef_length]
    refine (h.free_iff c).trans ?_
    by_cases hbc : b = c
    · subst hbc
      rw [if_pos ⟨rfl, lt_of_refs_pos hpos⟩]
      constructor <;> intro hz <;> omega
    · rw [if_neg fun hif => hbc hif.1]
  · rw [setRef_length]
    exact h.decommitting
  · rw [setRef_length]
    exact h.outstanding
  · have hlt := lt_of_refs_pos hpos
    rw [h.no_block he] at hlt
    exact absurd hlt (Nat.not_lt_zero b)

@[simp] theorem notifySample_fields :
    a.notifySample.lFree = a.lFree ∧ a.notifySample.samples = a.samples ∧
      a.notifySample.bCommitted = a.bCommitted ∧
      a.notifySample.bDecommitInProgress = a.bDecommitInProgress ∧
      a.notifySample.bChanged = a.bChanged ∧ a.notifySample.selfRefs = a.selfRefs ∧
      a.notifySample.buffer = a.buffer := by
  unfold MemAllocator.notifySample
  split <;> exact ⟨rfl, rfl, rfl, rfl, rfl, rfl, rfl⟩

/-- The last Release of a sample, up to ReleaseBuffer. -/
def giveBack (a : MemAllocator) (b : Nat) : MemAllocator :=
  { a with
    samples := a.samples.modify b fun s => ⟨0, s.offset, s.sample.recycled⟩
    lFree := b :: a.lFree }

theorem release_last {b : Nat} (h : a.refs b = 1) :
    a.release b =
      if (a.giveBack b).bDecommitInProgress = true ∧
          (a.giveBack b).lFree.length = (a.giveBack b).samples.length then
        { (a.giveBack b).notifySample with
          bDecommitInProgress := false, selfRefs := a.selfRefs - 1 }
      else (a.giveBack b).notifySample := by
  obtain ⟨hfree, hsamples, -, hprogress, -, hself, -⟩ := notifySample_fields (a := a.giveBack b)
  rw [release, if_pos h]
  show (if (a.giveBack b).notifySample.bDecommitInProgress = true ∧
      (a.giveBack b).notifySample.lFree.length = (a.giveBack b).notifySample.samples.length then
    { (a.giveBack b).notifySample with
      bDecommitInProgress := false, selfRefs := (a.giveBack b).notifySample.selfRefs - 1 }
    else (a.giveBack b).notifySample) = _
  rw [hfree, hsamples, hprogress, hself]
  rfl

theorem refs_giveBack (b c : Nat) :
    (a.giveBack b).refs c = if b = c ∧ b < a.samples.length then 0 else a.refs c :=
  refs_modify a.samples b c 0 fun _ => rfl

@[simp] theorem giveBack_length (b : Nat) :
    (a.giveBack b).samples.length = a.samples.length := List.length_modify _ _ _

theorem Books.release (h : a.Books) {b : Nat} (hpos : 0 < a.refs b) : (a.release b).Books := by
  by_cases hone : a.refs b = 1
  · have hlt := lt_of_refs_pos hpos
    have hnotfree : b ∉ a.lFree := fun hb => by
      have := ((h.free_iff b).mp hb).2
      omega
    have hout : a.lFree.length < a.samples.length := h.outstanding_iff.mpr ⟨b, hpos⟩
    have hnodup : (a.giveBack b).lFree.Nodup := List.nodup_cons.mpr ⟨hnotfree, h.nodup⟩
    have hfree : ∀ c, c ∈ (a.giveBack b).lFree ↔
        c < (a.giveBack b).samples.length ∧ (a.giveBack b).refs c = 0 := by
      intro c
      rw [giveBack_length, refs_giveBack]
      show c ∈ b :: a.lFree ↔ _
      rw [List.mem_cons, h.free_iff c]
      by_cases hbc : b = c
      · subst hbc
        rw [if_pos ⟨rfl, hlt⟩]
        exact iff_of_true (Or.inl rfl) ⟨hlt, rfl⟩
      · rw [if_neg fun hif => hbc hif.1]
        exact ⟨fun hor => hor.resolve_left fun e => hbc e.symm, Or.inr⟩
    have hblock : (a.giveBack b).buffer = none → (a.giveBack b).samples = [] := fun he => by
      rw [h.no_block he] at hlt
      exact absurd hlt (Nat.not_lt_zero b)
    rw [release_last hone]
    split
    · rename_i hlast
      -- the decommit that waited for this sample is over
      obtain ⟨hf, hs, hc, -, hch, -, hbuf⟩ := notifySample_fields (a := a.giveBack b)
      have hcommitted := (h.decommitting hlast.1).1
      have hself : a.selfRefs = 1 := h.selfRefs.trans (if_pos (Or.inr hlast.1))
      refine Books.congr (a := { a.giveBack b with
        bDecommitInProgress := false, selfRefs := a.selfRefs - 1 })
        ⟨hnodup, hfree, fun he => (by cases he), fun hno => absurd hlast.2 (Nat.ne_of_lt hno),
          fun he => ⟨(h.changed he).1, rfl⟩, ?_, hblock⟩ hf hs hc rfl hch rfl hbuf
      show a.selfRefs - 1 = if a.bCommitted = true ∨ false = true then 1 else 0
      rw [hself, hcommitted]
      rfl
    · rename_i hmore
      refine Books.notifySample ⟨hnodup, hfree, fun he => ⟨(h.decommitting he).1, ?_⟩,
        fun _ => h.outstanding hout, h.changed, h.selfRefs, hblock⟩
      rw [giveBack_length]
      have hne : (a.giveBack b).lFree.length ≠ (a.giveBack b).samples.length := fun e =>
        hmore ⟨he, e⟩
      rw [giveBack_length] at hne
      show a.lFree.length + 1 < a.samples.length
      have hne' : a.lFree.length + 1 ≠ a.samples.length := hne
      omega
  · rw [MemAllocator.release, if_neg hone]
    exact h.setRef hpos (by omega)

/-- Every critical section keeps the books. -/
theorem Books.step (granularity : UInt32) (a : MemAllocator) (act : AllocAction) (c : MemAllocator)
    (h : a.Books) (hstep : a.step granularity act = some c) : c.Books := by
  cases step_cases hstep with
  | setProperties request => exact h.setProperties granularity request
  | commit env => exact h.commit env
  | decommit => exact h.decommit
  | getBuffer => exact h.getTurn _ _
  | wake => exact h.congr rfl rfl rfl rfl rfl rfl rfl
  | again =>
    refine Books.getTurn ?_ _ false
    exact h.congr rfl rfl rfl rfl rfl rfl rfl
  | addRef hpos => exact h.setRef hpos (Nat.succ_pos _)
  | release hpos => exact h.release hpos

theorem books_new : new.Books := by
  refine ⟨List.nodup_nil, fun b => ?_, fun he => (by cases he), fun hlt => absurd hlt (by decide),
    fun he => (by cases he), rfl, fun _ => rfl⟩
  simp [new]

/-! Waiting for a sample. -/

/-- The two rules that the comment in CBaseAllocator has for the waits; a call with
    AM_GBF_NOWAIT announces a wait that never comes. -/
structure Waits (a : MemAllocator) : Prop where
  free_quiet : a.lFree ≠ [] → a.lWaiting = 0
  uncommitted_quiet : a.bCommitted = false → a.lWaiting = 0
  counted : a.lWaiting + a.hSem = a.waiting.length + a.refused

/-- Where nobody has announced a wait since the last signal, any free sample will do. -/
theorem Waits.of_quiet {c : MemAllocator} (hquiet : c.lWaiting = 0)
    (hcounted : c.hSem = c.waiting.length + c.refused) : c.Waits :=
  ⟨fun _ => hquiet, fun _ => hquiet, by omega⟩

/-- The signal: those who announced a wait get their permits. -/
theorem Waits.notifySample (hcounted : a.lWaiting + a.hSem = a.waiting.length + a.refused) :
    a.notifySample.Waits := by
  unfold MemAllocator.notifySample
  split
  · refine Waits.of_quiet rfl ?_
    show a.hSem + a.lWaiting = a.waiting.length + a.refused
    omega
  · refine Waits.of_quiet ?_ ?_ <;> omega

theorem Waits.setProperties (h : a.Waits) (granularity : UInt32) (request : AllocatorProperties) :
    (a.setProperties granularity request).2.Waits := by
  unfold MemAllocator.setProperties
  repeat' split
  all_goals exact ⟨h.free_quiet, h.uncommitted_quiet, h.counted⟩

theorem Waits.commit (h : a.Waits) (hbooks : a.Books) (env : AllocEnv) :
    (a.commit env).2.Waits := by
  have hquiet : ∀ c : MemAllocator, a.bCommitted = false → c.lWaiting = a.lWaiting →
      c.hSem = a.hSem → c.waiting = a.waiting → c.refused = a.refused → c.Waits := by
    intro c hc hw hs hwait href
    have hzero := h.uncommitted_quiet hc
    have hcounted := h.counted
    refine Waits.of_quiet (hw.trans hzero) ?_
    rw [hs, hwait, href]
    omega
  rcases commit_cases env hbooks with heq | ⟨hc, -, -, heq⟩ | ⟨hc, -, ⟨-, -, heq⟩ | ⟨-, heq⟩ |
      ⟨n, aligned, -, heq⟩⟩
  · rw [heq]
    exact h
  · rw [heq]
    exact hquiet _ hc rfl rfl rfl rfl
  · rw [heq]
    exact hquiet _ hc rfl rfl rfl rfl
  · rw [heq]
    exact hquiet _ hc rfl rfl rfl rfl
  · split at heq <;> rw [heq.2] <;> exact hquiet _ hc rfl rfl rfl rfl

theorem Waits.decommit (h : a.Waits) : a.decommit.Waits := by
  unfold MemAllocator.decommit
  split
  · exact h
  split
  · exact Waits.notifySample h.counted
  · exact Waits.notifySample h.counted

theorem Waits.getTurn (h : a.Waits) (t : Nat) (noWait : Bool) : (getTurn t noWait a).Waits := by
  have hcounted := h.counted
  rcases getTurn_cases t noWait a with ⟨-, -, heq⟩ | ⟨b, rest, -, hfree, -, heq⟩ |
      ⟨hc, hfree, -, -, heq⟩ | ⟨hc, hfree, -, -, heq⟩ <;> rw [heq]
  · exact h
  · -- a sample was free, so nobody has announced a wait
    have hzero : a.lWaiting = 0 := h.free_quiet (by rw [hfree]; exact List.cons_ne_nil b rest)
    refine Waits.of_quiet hzero ?_
    show a.hSem = a.waiting.length + a.refused
    omega
  · refine ⟨fun hne => absurd hfree hne,
      fun hno => absurd (hno.symm.trans hc) Bool.false_ne_true, ?_⟩
    show a.lWaiting + 1 + a.hSem = a.waiting.length + (a.refused + 1)
    omega
  · refine ⟨fun hne => absurd hfree hne,
      fun hno => absurd (hno.symm.trans hc) Bool.false_ne_true, ?_⟩
    show a.lWaiting + 1 + a.hSem = (t :: a.waiting).length + a.refused
    rw [List.length_cons]
    omega

theorem Waits.release (h : a.Waits) (b : Nat) : (a.release b).Waits := by
  by_cases hone : a.refs b = 1
  · have hgive : (a.giveBack b).notifySample.Waits := Waits.notifySample h.counted
    rw [release_last hone]
    split
    · exact ⟨hgive.free_quiet, hgive.uncommitted_quiet, hgive.counted⟩
    · exact hgive
  · rw [MemAllocator.release, if_neg hone]
    exact ⟨h.free_quiet, h.uncommitted_quiet, h.counted⟩

theorem Waits.step (granularity : UInt32) (a : MemAllocator) (act : AllocAction)
    (c : MemAllocator) (h : a.Books ∧ a.Waits) (hstep : a.step granularity act = some c) :
    c.Books ∧ c.Waits := by
  refine ⟨Books.step granularity a act c h.1 hstep, ?_⟩
  obtain ⟨hbooks, h⟩ := h
  cases step_cases hstep with
  | setProperties request => exact h.setProperties granularity request
  | commit env => exact h.commit hbooks env
  | decommit => exact h.decommit
  | getBuffer => exact h.getTurn _ _
  | @wake t hmem hpos =>
    refine ⟨h.free_quiet, h.uncommitted_quiet, ?_⟩
    have hcounted := h.counted
    have hlen := List.length_erase_of_mem hmem
    have hone := List.length_pos_of_mem hmem
    show a.lWaiting + (a.hSem - 1) = (a.waiting.erase t).length + a.refused
    omega
  | again =>
    refine Waits.getTurn ?_ _ false
    exact ⟨h.free_quiet, h.uncommitted_quiet, h.counted⟩
  | addRef => exact ⟨h.free_quiet, h.uncommitted_quiet, h.counted⟩
  | release => exact h.release _

theorem waits_new : new.Waits := Waits.of_quiet rfl rfl

/-! What an operation leaves to those who reference a sample, or are in GetBuffer. -/

/-- What IMediaSample shows of a sample. -/
def content (a : MemAllocator) (b : Nat) : MediaSample :=
  (a.samples[b]?.map (·.sample)).getD emptySample

/-- Nobody who references a sample, or waits in GetBuffer, notices. -/
structure Keeps (a c : MemAllocator) : Prop where
  refs : ∀ b, c.refs b = a.refs b
  content : ∀ b, 0 < a.refs b → c.content b = a.content b
  waiting : c.waiting = a.waiting
  retrying : c.retrying = a.retrying

theorem Keeps.of_samples {c : MemAllocator} (hsamples : c.samples = a.samples)
    (hwaiting : c.waiting = a.waiting) (hretrying : c.retrying = a.retrying) : Keeps a c :=
  ⟨fun b => by unfold MemAllocator.refs; rw [hsamples],
    fun b _ => by unfold MemAllocator.content; rw [hsamples],
    hwaiting, hretrying⟩

/-- Samples that are made new were referenced by nobody before. -/
theorem Keeps.of_all_free {c : MemAllocator} (ha : ∀ b, a.refs b = 0) (hc : ∀ b, c.refs b = 0)
    (hwaiting : c.waiting = a.waiting) (hretrying : c.retrying = a.retrying) : Keeps a c :=
  ⟨fun b => by rw [ha, hc], fun b hb => absurd (ha b) (Nat.pos_iff_ne_zero.mp hb), hwaiting,
    hretrying⟩

theorem keeps_notifySample : Keeps a a.notifySample := by
  unfold notifySample
  split
  · exact .of_samples rfl rfl rfl
  · exact .of_samples rfl rfl rfl

theorem keeps_setProperties (granularity : UInt32) (request : AllocatorProperties) :
    Keeps a (a.setProperties granularity request).2 ∧
      (a.setProperties granularity request).2.bCommitted = a.bCommitted := by
  unfold setProperties
  split
  · exact ⟨.of_samples rfl rfl rfl, rfl⟩
  split
  · exact ⟨.of_samples rfl rfl rfl, rfl⟩
  split
  · exact ⟨.of_samples rfl rfl rfl, rfl⟩
  · exact ⟨.of_samples rfl rfl rfl, rfl⟩

theorem keeps_commit (h : a.Books) (env : AllocEnv) : Keeps a (a.commit env).2 := by
  have hblock : ∀ n aligned b, (a.withBlock n aligned).refs b = 0 := fun n aligned b =>
    refs_newSamples _ _ _ _ b
  rcases commit_cases env h with heq | ⟨-, -, -, heq⟩ | ⟨hc, hp, ⟨-, -, heq⟩ | ⟨-, heq⟩ |
      ⟨n, aligned, -, heq⟩⟩
  · rw [heq]
    exact .of_samples rfl rfl rfl
  · rw [heq]
    exact .of_samples rfl rfl rfl
  · rw [heq]
    exact .of_samples rfl rfl rfl
  · rw [heq]
    exact .of_all_free (h.all_free hc hp) (fun _ => rfl) rfl rfl
  · split at heq <;> rw [heq.2]
    · exact .of_all_free (h.all_free hc hp) (hblock n aligned) rfl rfl
    · exact .of_all_free (h.all_free hc hp) (hblock n aligned) rfl rfl

theorem keeps_decommit : Keeps a a.decommit ∧ a.decommit.bCommitted = false := by
  have notify : ∀ {c : MemAllocator}, Keeps a c → c.bCommitted = false →
      Keeps a c.notifySample ∧ c.notifySample.bCommitted = false := by
    intro c hc hcommitted
    refine ⟨?_, ?_⟩
    · have hn := keeps_notifySample (a := c)
      exact ⟨fun b => (hn.refs b).trans (hc.refs b),
        fun b hb => (hn.content b ((hc.refs b).symm ▸ hb)).trans (hc.content b hb),
        hn.waiting.trans hc.waiting, hn.retrying.trans hc.retrying⟩
    · rw [notifySample_fields.2.2.1]
      exact hcommitted
  unfold decommit
  split
  · rename_i hno
    exact ⟨.of_samples rfl rfl rfl, hno.1⟩
  split
  · exact notify (.of_samples rfl rfl rfl) rfl
  · exact notify (.of_samples rfl rfl rfl) rfl

theorem content_setRef (b d n : Nat) : (a.setRef b n).content d = a.content d := by
  unfold content setRef
  rw [List.getElem?_modify]
  by_cases hbd : b = d
  · subst hbd
    cases a.samples[b]? <;> simp
  · simp [hbd]

theorem content_giveBack {b d : Nat} (hbd : b ≠ d) : (a.giveBack b).content d = a.content d := by
  unfold content giveBack
  simp [hbd]

/-- What Release does to the counts; a sample that is still referenced is as it was. -/
structure Releases (a : MemAllocator) (b : Nat) (c : MemAllocator) : Prop where
  refs : ∀ d, c.refs d = if b = d then a.refs b - 1 else a.refs d
  content : ∀ d, 0 < c.refs d → c.content d = a.content d
  waiting : c.waiting = a.waiting
  retrying : c.retrying = a.retrying
  bCommitted : c.bCommitted = a.bCommitted

theorem releases_release {b : Nat} (hb : 0 < a.refs b) : Releases a b (a.release b) := by
  have hlt := lt_of_refs_pos hb
  by_cases hone : a.refs b = 1
  · have hrefs : ∀ d, (a.giveBack b).refs d = if b = d then a.refs b - 1 else a.refs d := by
      intro d
      rw [refs_giveBack, hone]
      by_cases hbd : b = d
      · rw [if_pos ⟨hbd, hlt⟩, if_pos hbd]
      · rw [if_neg fun h => hbd h.1, if_neg hbd]
    have hcontent : ∀ d, 0 < (a.giveBack b).refs d → (a.giveBack b).content d = a.content d := by
      intro d hd
      refine content_giveBack fun hbd => ?_
      rw [hrefs, if_pos hbd, hone] at hd
      exact Nat.lt_irrefl 0 hd
    have hkeeps := keeps_notifySample (a := a.giveBack b)
    have hnotified : Releases a b (a.giveBack b).notifySample :=
      ⟨fun d => (hkeeps.refs d).trans (hrefs d), fun d hd => by
        rw [hkeeps.refs] at hd
        exact (hkeeps.content d hd).trans (hcontent d hd), hkeeps.waiting, hkeeps.retrying,
        notifySample_fields.2.2.1⟩
    rw [release_last hone]
    split
    · exact ⟨hnotified.refs, hnotified.content, hnotified.waiting, hnotified.retrying,
        hnotified.bCommitted⟩
    · exact hnotified
  · rw [release, if_neg hone]
    refine ⟨fun d => ?_, fun d _ => content_setRef b d _, rfl, rfl, rfl⟩
    rw [refs_setRef]
    by_cases hbd : b = d
    · rw [if_pos ⟨hbd, hlt⟩, if_pos hbd]
    · rw [if_neg fun h => hbd h.1, if_neg hbd]

/-! The calls of GetBuffer. -/

/-- A thread is in GetBuffer once. -/
def OneCall (a : MemAllocator) : Prop := (a.waiting ++ a.retrying).Nodup

theorem OneCall.getTurn {t : Nat} (h : a.OneCall) (hout : ¬ a.inGetBuffer t) (noWait : Bool) :
    (getTurn t noWait a).OneCall := by
  rcases getTurn_cases t noWait a with ⟨-, -, heq⟩ | ⟨b, rest, -, -, -, heq⟩ |
      ⟨-, -, -, -, heq⟩ | ⟨-, -, -, -, heq⟩ <;> rw [heq]
  · exact h
  · exact h
  · exact h
  · refine List.nodup_cons.mpr ⟨fun hmem => hout ?_, h⟩
    exact List.mem_append.mp hmem

theorem OneCall.same {c : MemAllocator} (h : a.OneCall) (hwaiting : c.waiting = a.waiting)
    (hretrying : c.retrying = a.retrying) : c.OneCall := by
  unfold OneCall
  rw [hwaiting, hretrying]
  exact h

/-- A thread that looks again is not waiting, nor is it there another time. -/
theorem OneCall.looking {t : Nat} (h : a.OneCall) (hmem : t ∈ a.retrying) :
    ¬ { a with retrying := a.retrying.erase t }.inGetBuffer t := by
  obtain ⟨-, hretrying, hdisjoint⟩ := List.nodup_append'.mp h
  rintro (hw | hr)
  · exact hdisjoint hw hmem
  · exact hretrying.not_mem_erase hr

theorem OneCall.step {granularity : UInt32} {act : AllocAction} {c : MemAllocator} (h : a.OneCall)
    (hbooks : a.Books) (hstep : a.step granularity act = some c) : c.OneCall := by
  cases step_cases hstep with
  | setProperties request =>
    have hkeeps := (keeps_setProperties (a := a) granularity request).1
    exact h.same hkeeps.waiting hkeeps.retrying
  | commit env =>
    have hkeeps := keeps_commit hbooks env
    exact h.same hkeeps.waiting hkeeps.retrying
  | decommit =>
    have hkeeps := (keeps_decommit (a := a)).1
    exact h.same hkeeps.waiting hkeeps.retrying
  | getBuffer hout => exact h.getTurn hout _
  | @wake t hmem hpos =>
    have hperm : (a.waiting.erase t ++ t :: a.retrying).Perm (a.waiting ++ a.retrying) :=
      List.perm_middle.trans ((List.perm_cons_erase hmem).symm.append_right a.retrying)
    exact hperm.nodup_iff.mpr h
  | @again t hmem =>
    refine OneCall.getTurn ?_ (h.looking hmem) false
    exact h.sublist ((List.erase_sublist).append_left a.waiting)
  | addRef => exact h
  | release hpos =>
    have hreleases := releases_release hpos
    exact h.same hreleases.waiting hreleases.retrying

/-! The block. -/

/-- Sample `b` has its `size` bytes behind a prefix in the `b`-th part of the block. -/
def LaidOut (samples : List AllocSample) (aligned lPrefix size : Nat) : Prop :=
  ∀ (b : Nat) (s : AllocSample), samples[b]? = some s →
    s.offset = b * aligned + lPrefix ∧ s.sample.getSize = size

/-- The parts of the block are large enough, and the block has room for them all. -/
structure Layout (a : MemAllocator) : Prop where
  laid : ∃ total aligned lPrefix size, LaidOut a.samples aligned lPrefix size ∧
    lPrefix + size ≤ aligned ∧ a.samples.length * aligned ≤ total ∧ (total : Int) ≤ MAXLONG ∧
    (a.samples ≠ [] → a.buffer = some total) ∧
    (a.bChanged = false → a.samples ≠ [] → size = a.lSize.toNatClampNeg)

theorem LaidOut.modify {samples : List AllocSample} {aligned lPrefix size b : Nat}
    {f : AllocSample → AllocSample} (h : LaidOut samples aligned lPrefix size)
    (hf : ∀ s, samples[b]? = some s →
      (f s).offset = s.offset ∧ (f s).sample.getSize = s.sample.getSize) :
    LaidOut (samples.modify b f) aligned lPrefix size := by
  intro c s hs
  rw [List.getElem?_modify] at hs
  obtain ⟨s', hs', rfl⟩ := Option.map_eq_some_iff.mp hs
  obtain ⟨hoff, hsize⟩ := h c s' hs'
  split
  · rename_i hbc
    obtain ⟨hoff', hsize'⟩ := hf s' (hbc ▸ hs')
    exact ⟨hoff'.trans hoff, hsize'.trans hsize⟩
  · exact ⟨hoff, hsize⟩

/-- A step that only changes what is in the samples. -/
theorem Layout.modify {c : MemAllocator} {b : Nat} {f : AllocSample → AllocSample} (h : a.Layout)
    (hf : ∀ s, a.samples[b]? = some s →
      (f s).offset = s.offset ∧ (f s).sample.getSize = s.sample.getSize)
    (hsamples : c.samples = a.samples.modify b f) (hbuffer : c.buffer = a.buffer)
    (hchanged : c.bChanged = a.bChanged) (hsize : c.lSize = a.lSize) : c.Layout := by
  obtain ⟨total, aligned, lPrefix, size, hlaid, hfits, htotal, hmax, hbuf, hsz⟩ := h.laid
  have hne : c.samples ≠ [] → a.samples ≠ [] := by
    intro hc he
    rw [hsamples, he] at hc
    exact hc (by simp)
  refine ⟨total, aligned, lPrefix, size, ?_, hfits, ?_, hmax, ?_, ?_⟩
  · rw [hsamples]
    exact hlaid.modify hf
  · rw [hsamples, List.length_modify]
    exact htotal
  · rw [hbuffer]
    exact fun hc => hbuf (hne hc)
  · rw [hchanged, hsize]
    exact fun hch hc => hsz hch (hne hc)

theorem Layout.congr {c : MemAllocator} (h : a.Layout) (hsamples : c.samples = a.samples)
    (hbuffer : c.buffer = a.buffer) (hsize : c.bChanged = false → c.lSize = a.lSize ∧ a.bChanged = false) :
    c.Layout := by
  obtain ⟨total, aligned, lPrefix, size, hlaid, hfits, htotal, hmax, hbuf, hsz⟩ := h.laid
  refine ⟨total, aligned, lPrefix, size, by rw [hsamples]; exact hlaid, hfits,
    by rw [hsamples]; exact htotal, hmax, by rw [hsamples, hbuffer]; exact hbuf, fun hch hne => ?_⟩
  obtain ⟨hs, hch'⟩ := hsize hch
  rw [hs]
  exact hsz hch' (hsamples ▸ hne)

theorem Layout.of_no_samples {c : MemAllocator} (h : c.samples = []) : c.Layout := by
  refine ⟨0, 0, 0, 0, fun b s hs => ?_, Nat.le_refl 0, ?_, ?_, fun hne => absurd h hne,
    fun _ hne => absurd h hne⟩
  · rw [h] at hs
    cases hs
  · rw [Nat.mul_zero]
  · exact (by decide : (0 : Int) ≤ MAXLONG)

/-- The aligned size has room for prefix and buffer. -/
theorem alignedSize_ge {aligned : Int32} (hsize : 0 < a.lSize) (hpre : 0 ≤ a.lPrefix)
    (h : a.alignedSize = some aligned) : a.lPrefix.toInt + a.lSize.toInt ≤ aligned.toInt := by
  rw [Int32.lt_iff_toInt_lt] at hsize
  rw [Int32.le_iff_toInt_le] at hpre
  have hzero : (0 : Int32).toInt = 0 := rfl
  have hpre := a.lPrefix.toInt_lt
  have hsz := a.lSize.toInt_lt
  -- the sum was compared with the size, so it did not wrap
  have hsum : ¬ a.lSize + a.lPrefix < a.lSize →
      (a.lSize + a.lPrefix).toInt = a.lSize.toInt + a.lPrefix.toInt := by
    intro hge
    rw [Int32.lt_iff_toInt_lt, Int32.toInt_add] at hge
    rw [Int32.toInt_add]
    simp only [Int.bmod] at hge ⊢
    split at hge <;> split <;> omega
  unfold alignedSize at h
  dsimp only at h
  split at h
  · cases h
  rename_i hge
  have hle : a.lSize + a.lPrefix ≤ aligned := by
    split at h
    · split at h
      · split at h
        · cases h
        · rename_i hnew
          rw [← Option.some.inj h]
          exact Int32.not_lt.mp hnew
      · rw [← Option.some.inj h]
        exact Int32.le_refl _
    · rw [← Option.some.inj h]
      exact Int32.le_refl _
  rw [Int32.le_iff_toInt_le, hsum hge] at hle
  omega

theorem Layout.withBlock {n : Nat} {aligned : Int32} (h : a.Makes n aligned) :
    (a.withBlock n aligned).Layout := by
  have hge := alignedSize_ge h.size_pos h.prefix_nonneg h.alignedSize
  have hsize := Int32.lt_iff_toInt_lt.mp h.size_pos
  have hpre := Int32.le_iff_toInt_le.mp h.prefix_nonneg
  have hzero : (0 : Int32).toInt = 0 := rfl
  have hcount : (n : Int) ≤ a.lCount.toInt ∨ n = 0 := by
    have := h.count
    unfold Int32.toNatClampNeg at this
    omega
  have haligned : (aligned.toNatClampNeg : Int) = aligned.toInt := by
    unfold Int32.toNatClampNeg
    omega
  refine ⟨(a.lCount.toInt * aligned.toInt).toNat, aligned.toNatClampNeg,
    a.lPrefix.toNatClampNeg, a.lSize.toNatClampNeg, ?_, ?_, ?_, ?_, fun _ => rfl, fun _ _ => rfl⟩
  · intro b s hs
    have hs' : (newSamples n aligned.toNatClampNeg a.lPrefix.toNatClampNeg a.lSize)[b]? = some s := hs
    unfold newSamples at hs'
    rw [List.getElem?_map] at hs'
    obtain ⟨k, hk, rfl⟩ := Option.map_eq_some_iff.mp hs'
    obtain ⟨hlt, rfl⟩ := List.getElem?_eq_some_iff.mp hk
    rw [List.getElem_range]
    refine ⟨rfl, ?_⟩
    show (List.replicate a.lSize.toNatClampNeg (0 : UInt8)).length = a.lSize.toNatClampNeg
    rw [List.length_replicate]
  · unfold Int32.toNatClampNeg
    omega
  · show (newSamples n _ _ _).length * _ ≤ _
    rw [newSamples_length]
    rcases hcount with hcount | rfl
    · have hmul : (n : Int) * aligned.toInt ≤ a.lCount.toInt * aligned.toInt :=
        Int.mul_le_mul_of_nonneg_right hcount (by omega)
      rw [← haligned] at hmul ⊢
      omega
    · rw [Nat.zero_mul]
      exact Nat.zero_le _
  · have hfits := h.fits
    have hpos : (0 : Int) ≤ MAXLONG := by decide
    omega

theorem Layout.commit (h : a.Layout) (hbooks : a.Books) (env : AllocEnv) :
    (a.commit env).2.Layout := by
  rcases commit_cases env hbooks with heq | ⟨-, -, -, heq⟩ | ⟨-, -, ⟨-, -, heq⟩ | ⟨-, heq⟩ |
      ⟨n, aligned, hmakes, heq⟩⟩
  · rw [heq]
    exact h
  · rw [heq]
    exact h.congr rfl rfl fun he => ⟨rfl, he⟩
  · rw [heq]
    exact h.congr rfl rfl fun he => ⟨rfl, he⟩
  · rw [heq]
    exact Layout.of_no_samples rfl
  · split at heq <;> rw [heq.2]
    · exact Layout.withBlock hmakes
    · exact (Layout.withBlock hmakes).congr rfl rfl fun he => ⟨rfl, he⟩

theorem Layout.notifySample (h : a.Layout) : a.notifySample.Layout := by
  unfold MemAllocator.notifySample
  split
  · exact h.congr rfl rfl fun he => ⟨rfl, he⟩
  · exact h

theorem Layout.decommit (h : a.Layout) : a.decommit.Layout := by
  unfold MemAllocator.decommit
  split
  · exact h
  split
  · exact Layout.notifySample (h.congr rfl rfl fun he => ⟨rfl, he⟩)
  · exact Layout.notifySample (h.congr rfl rfl fun he => ⟨rfl, he⟩)

theorem Layout.setRef (h : a.Layout) (b n : Nat) : (a.setRef b n).Layout :=
  Layout.modify (b := b) (f := fun s => { s with cRef := n }) h (fun _ _ => ⟨rfl, rfl⟩)
    rfl rfl rfl rfl

theorem Layout.getTurn (h : a.Layout) (t : Nat) (noWait : Bool) :
    (getTurn t noWait a).Layout := by
  rcases getTurn_cases t noWait a with ⟨-, -, heq⟩ | ⟨b, rest, -, -, -, heq⟩ |
      ⟨-, -, -, -, heq⟩ | ⟨-, -, -, -, heq⟩ <;> rw [heq]
  · exact h
  · refine Layout.setRef ?_ b 1
    exact h.congr rfl rfl fun he => ⟨rfl, he⟩
  · exact h.congr rfl rfl fun he => ⟨rfl, he⟩
  · exact h.congr rfl rfl fun he => ⟨rfl, he⟩

theorem Layout.release (h : a.Layout) (b : Nat) : (a.release b).Layout := by
  by_cases hone : a.refs b = 1
  · have hgive : (a.giveBack b).Layout :=
      Layout.modify (b := b) (f := fun s => ⟨0, s.offset, s.sample.recycled⟩) h
        (fun _ _ => ⟨rfl, rfl⟩) rfl rfl rfl rfl
    rw [release_last hone]
    split
    · exact hgive.notifySample.congr rfl rfl fun he => ⟨rfl, he⟩
    · exact hgive.notifySample
  · rw [MemAllocator.release, if_neg hone]
    exact h.setRef b _

/-- What holds of the allocator after every critical section. -/
structure Sound (a : MemAllocator) : Prop where
  books : a.Books
  waits : a.Waits
  layout : a.Layout
  oneCall : a.OneCall

theorem sound_new : new.Sound :=
  ⟨books_new, waits_new, Layout.of_no_samples rfl, List.nodup_nil⟩

theorem Sound.step (granularity : UInt32) (a : MemAllocator) (act : AllocAction) (c : MemAllocator)
    (h : a.Sound) (hstep : a.step granularity act = some c) : c.Sound := by
  obtain ⟨hbooks, hwaits⟩ := Waits.step granularity a act c ⟨h.books, h.waits⟩ hstep
  refine ⟨hbooks, hwaits, ?_, h.oneCall.step h.books hstep⟩
  have hlayout := h.layout
  cases step_cases hstep with
  | setProperties request =>
    unfold MemAllocator.setProperties
    split
    · exact hlayout
    split
    · exact hlayout
    split
    · exact hlayout
    · exact hlayout.congr rfl rfl fun he => (by cases he)
  | commit env => exact hlayout.commit h.books env
  | decommit => exact hlayout.decommit
  | getBuffer => exact hlayout.getTurn _ _
  | wake => exact hlayout.congr rfl rfl fun he => ⟨rfl, he⟩
  | again =>
    refine Layout.getTurn ?_ _ false
    exact hlayout.congr rfl rfl fun he => ⟨rfl, he⟩
  | addRef => exact hlayout.setRef _ _
  | release => exact hlayout.release _

/-- What follows from soundness holds at every point of every run. -/
theorem always_of_sound {P : MemAllocator → Prop} (hP : ∀ a, a.Sound → P a) (granularity : UInt32)
    (as : List AllocAction) : Transition.Always (step granularity) P new as :=
  Transition.always_of_invariant hP (Sound.step granularity) as new sound_new

/-! The block while somebody references a sample. -/

/-- The block is the same, with each sample's bytes where they were. -/
def SameBlock (a c : MemAllocator) : Prop :=
  c.buffer = a.buffer ∧
    c.samples.map (fun s => (s.offset, s.sample.buffer)) =
      a.samples.map (fun s => (s.offset, s.sample.buffer))

theorem map_modify_of_same {β : Type} {f : AllocSample → AllocSample} {g : AllocSample → β}
    (hf : ∀ s, g (f s) = g s) (l : List AllocSample) (b : Nat) :
    (l.modify b f).map g = l.map g := by
  apply List.ext_getElem?
  intro c
  rw [List.getElem?_map, List.getElem?_map, List.getElem?_modify]
  cases l[c]? with
  | none => rfl
  | some s =>
    by_cases hbc : b = c
    · simp [hbc, hf]
    · simp [hbc]

/-- What is not in the samples' memory does not move it. -/
theorem SameBlock.of_eq {c : MemAllocator} (hbuffer : c.buffer = a.buffer)
    (hsamples : c.samples = a.samples) : SameBlock a c := by
  refine ⟨hbuffer, ?_⟩
  rw [hsamples]

theorem SameBlock.setRef (b n : Nat) : SameBlock a (a.setRef b n) :=
  ⟨rfl, map_modify_of_same (f := fun s => { s with cRef := n }) (fun _ => rfl) a.samples b⟩

theorem SameBlock.giveBack (b : Nat) : SameBlock a (a.giveBack b) :=
  ⟨rfl, map_modify_of_same (f := fun s => ⟨0, s.offset, s.sample.recycled⟩) (fun _ => rfl)
    a.samples b⟩

theorem SameBlock.getTurn (t : Nat) (noWait : Bool) : SameBlock a (getTurn t noWait a) := by
  rcases getTurn_cases t noWait a with ⟨-, -, heq⟩ | ⟨b, rest, -, -, -, heq⟩ |
      ⟨-, -, -, -, heq⟩ | ⟨-, -, -, -, heq⟩ <;> rw [heq]
  · exact .of_eq rfl rfl
  · exact SameBlock.setRef (a := { a with lFree := rest }) b 1
  · exact .of_eq rfl rfl
  · exact .of_eq rfl rfl

theorem SameBlock.release (b : Nat) : SameBlock a (a.release b) := by
  by_cases hone : a.refs b = 1
  · obtain ⟨-, hsamples, -, -, -, -, hbuffer⟩ := notifySample_fields (a := a.giveBack b)
    obtain ⟨hsame, hplaces⟩ := SameBlock.giveBack (a := a) b
    rw [← hbuffer] at hsame
    rw [← hsamples] at hplaces
    rw [release_last hone]
    split
    · exact ⟨hsame, hplaces⟩
    · exact ⟨hsame, hplaces⟩
  · rw [MemAllocator.release, if_neg hone]
    exact SameBlock.setRef b _

/-- Alloc gets to the block only when no sample is out. -/
theorem SameBlock.commit (h : a.Books) (hout : ∃ b, 0 < a.refs b) (env : AllocEnv) :
    SameBlock a (a.commit env).2 := by
  obtain ⟨b, hb⟩ := hout
  rcases commit_cases env h with heq | ⟨-, -, -, heq⟩ | ⟨hc, hp, -⟩
  · rw [heq]
    exact .of_eq rfl rfl
  · rw [heq]
    exact .of_eq rfl rfl
  · exact absurd (h.all_free hc hp b) (Nat.pos_iff_ne_zero.mp hb)

theorem Books.sameBlock {granularity : UInt32} {act : AllocAction} {c : MemAllocator} (h : a.Books)
    (hout : ∃ b, 0 < a.refs b) (hstep : a.step granularity act = some c) : SameBlock a c := by
  cases step_cases hstep with
  | setProperties request =>
    unfold MemAllocator.setProperties
    repeat' split
    all_goals exact .of_eq rfl rfl
  | commit env => exact .commit h hout env
  | decommit =>
    unfold MemAllocator.decommit
    split
    · exact .of_eq rfl rfl
    split
    · exact .of_eq notifySample_fields.2.2.2.2.2.2 notifySample_fields.2.1
    · exact .of_eq notifySample_fields.2.2.2.2.2.2 notifySample_fields.2.1
  | getBuffer => exact .getTurn _ _
  | wake => exact .of_eq rfl rfl
  | @again t =>
    exact SameBlock.getTurn (a := { a with retrying := a.retrying.erase t }) t false
  | addRef => exact .setRef _ _
  | release => exact .release _

/-- The references on a sample that had `n`: only AddRef and Release of it change them. -/
def refsAfter (b n : Nat) : AllocAction → Nat
  | .addRef d => if d = b then n + 1 else n
  | .release d => if d = b then n - 1 else n
  | _ => n

theorem Books.refs_getTurn (h : a.Books) {b : Nat} (hb : 0 < a.refs b) (t : Nat) (noWait : Bool) :
    (a.getTurn t noWait).refs b = a.refs b := by
  rcases getTurn_cases t noWait a with ⟨-, -, heq⟩ | ⟨d, rest, -, hfree, -, heq⟩ |
      ⟨-, -, -, -, heq⟩ | ⟨-, -, -, -, heq⟩ <;> rw [heq]
  · have hmem : d ∈ a.lFree := hfree ▸ List.mem_cons_self
    have hzero := ((h.free_iff d).mp hmem).2
    rw [refs_setRef]
    refine if_neg fun hif => ?_
    rw [hif.1] at hzero
    exact absurd hzero (Nat.pos_iff_ne_zero.mp hb)
  · rfl
  · rfl

/-- What is referenced before a step is so after it, less what the step gives back. -/
theorem Books.refs_step {granularity : UInt32} {act : AllocAction} {c : MemAllocator} (h : a.Books)
    {b : Nat} (hb : 0 < a.refs b) (hstep : a.step granularity act = some c) :
    c.refs b = refsAfter b (a.refs b) act := by
  cases step_cases hstep with
  | setProperties request => exact (keeps_setProperties granularity request).1.refs b
  | commit env => exact (keeps_commit h env).refs b
  | decommit => exact keeps_decommit.1.refs b
  | getBuffer => exact h.refs_getTurn hb _ _
  | wake => rfl
  | @again t =>
    have hbooks : Books { a with retrying := a.retrying.erase t } :=
      h.congr rfl rfl rfl rfl rfl rfl rfl
    exact hbooks.refs_getTurn hb t false
  | @addRef d hpos =>
    rw [refs_setRef, refsAfter]
    by_cases hd : d = b
    · rw [if_pos ⟨hd, lt_of_refs_pos hpos⟩, if_pos hd, hd]
    · rw [if_neg fun hif => hd hif.1, if_neg hd]
  | @release d hpos =>
    rw [(releases_release hpos).refs, refsAfter]
    split
    · rename_i hd
      rw [hd]
    · rfl

/-! The results. -/

/-- Every sample is in one place, GetBuffer takes it from there, and while it is out every step
    keeps the block, and its references but for an AddRef or a Release of it. -/
structure Exclusive (granularity : UInt32) (a : MemAllocator) : Prop where
  once : a.lFree.Nodup
  made : ∀ b ∈ a.lFree, b < a.samples.length
  one_place : ∀ b < a.samples.length, b ∈ a.lFree ↔ a.refs b = 0
  handed_out : ∀ noWait b c, tryGet noWait a = (.sample b, c) →
    a.refs b = 0 ∧ c.refs b = 1 ∧ b ∉ c.lFree ∧ ∀ d, d ≠ b → c.refs d = a.refs d
  kept : ∀ b, 0 < a.refs b → ∀ act c, a.step granularity act = some c →
    SameBlock a c ∧ c.refs b = refsAfter b (a.refs b) act

/-- **A sample is free or referenced, never both**, and its memory stays while it is
    referenced, whatever the threads do and in whatever order. -/
theorem buffers_exclusive (granularity : UInt32) (as : List AllocAction) :
    Transition.Always (step granularity) (Exclusive granularity) new as := by
  refine always_of_sound (fun a ha => ?_) granularity as
  have h := ha.books
  refine ⟨h.nodup, fun b hb => h.free_lt hb, fun b hb => ?_, fun noWait b c hget => ?_,
    fun b hb act c hstep => ⟨h.sameBlock ⟨b, hb⟩ hstep, h.refs_step hb hstep⟩⟩
  · rw [h.free_iff b]
    exact and_iff_right hb
  · rcases getTurn_cases 0 noWait a with ⟨-, heq, -⟩ | ⟨b', rest, hc, hfree, heq, -⟩ |
        ⟨-, -, -, heq, -⟩ | ⟨-, -, -, heq, -⟩ <;> rw [hget] at heq
    · cases heq
    · obtain ⟨hb, rfl⟩ := Prod.mk.inj heq
      obtain rfl := GetResult.sample.inj hb
      have hmem : b ∈ a.lFree := hfree ▸ List.mem_cons_self
      have hnodup := h.nodup
      rw [hfree, List.nodup_cons] at hnodup
      refine ⟨((h.free_iff b).mp hmem).2, ?_, hnodup.1, fun d hd => ?_⟩
      · rw [refs_setRef]
        exact if_pos ⟨rfl, h.free_lt hmem⟩
      · rw [refs_setRef]
        exact if_neg fun hif => hd hif.1.symm
    · cases heq
    · cases heq

/-- Without a commitment Decommit has signalled everybody who waits. -/
theorem Sound.wakes {t : Nat} (h : a.Sound) (hc : a.bCommitted = false) (ht : t ∈ a.waiting) :
    a.wake t = some { a with
      hSem := a.hSem - 1, waiting := a.waiting.erase t, retrying := t :: a.retrying } := by
  have hcounted := h.waits.counted
  have hquiet := h.waits.uncommitted_quiet hc
  have hpos := List.length_pos_of_mem ht
  exact if_pos ⟨ht, by omega⟩

/-- The thread `t` looks again and leaves: its GetBuffer returns VFW_E_NOT_COMMITTED. -/
def Refused (granularity : UInt32) (a : MemAllocator) (t : Nat) : Prop :=
  ∃ c, tryGet false { a with retrying := a.retrying.erase t } = (.failed VFW_E_NOT_COMMITTED, c) ∧
    a.step granularity (.again t) = some c ∧ ¬ c.inGetBuffer t

/-- What a thread in GetBuffer does next: it ends its wait, or looks again. -/
def proceed (granularity : UInt32) (a : MemAllocator) (t : Nat) : Option MemAllocator :=
  if t ∈ a.waiting then a.step granularity (.wake t) else a.step granularity (.again t)

/-- `counted` is the comment's second rule where no call with AM_GBF_NOWAIT was refused.
    `woken`, `refused`: without a commitment the wait of each thread can end, and then it
    leaves with the error. -/
structure Wakeful (granularity : UInt32) (a : MemAllocator) : Prop where
  free_quiet : a.lFree ≠ [] → a.lWaiting = 0
  counted : a.lWaiting + a.hSem = a.waiting.length + a.refused
  permits : a.lFree ≠ [] ∨ a.bCommitted = false → a.waiting.length ≤ a.hSem
  served : ∀ b rest, a.lFree = b :: rest → a.bCommitted = true → ∀ t ∈ a.waiting,
    ∃ c, Transition.run (step granularity) a [.wake t, .again t] = some c ∧ c.refs b = 1
  woken : a.bCommitted = false → ∀ t ∈ a.waiting,
    ∃ c, a.step granularity (.wake t) = some c ∧ t ∈ c.retrying ∧ c.Refused granularity t
  refused : a.bCommitted = false → ∀ t ∈ a.retrying, a.Refused granularity t
  dismissed : a.bCommitted = false →
    ∃ c, Transition.Reach (proceed granularity) a c ∧ c.waiting = [] ∧ c.retrying = []

section
variable (granularity : UInt32)

/-- A free sample goes to any thread that waits for one. -/
theorem Sound.serves (h : a.Sound) {b t : Nat} {rest : List Nat} (hfree : a.lFree = b :: rest)
    (hc : a.bCommitted = true) (ht : t ∈ a.waiting) :
    ∃ c, Transition.run (MemAllocator.step granularity) a [.wake t, .again t] = some c ∧
      c.refs b = 1 := by
  have hcounted := h.waits.counted
  have hzero := h.waits.free_quiet (by rw [hfree]; exact List.cons_ne_nil b rest)
  have hone := List.length_pos_of_mem ht
  have hwake : a.step granularity (.wake t) = some { a with
      hSem := a.hSem - 1, waiting := a.waiting.erase t, retrying := t :: a.retrying } :=
    if_pos ⟨ht, by omega⟩
  refine ⟨_, Transition.run_cons.mpr ⟨_, hwake, Transition.run_cons.mpr
    ⟨_, if_pos (List.mem_cons_self : t ∈ t :: a.retrying), rfl⟩⟩, ?_⟩
  simp only [getTurn, tryGet, hc, hfree, Bool.true_eq_false, if_false]
  rw [refs_setRef]
  exact if_pos ⟨rfl, h.books.free_lt (hfree ▸ List.mem_cons_self)⟩

/-- Whoever looks again finds that there is no commitment. -/
theorem again_uncommitted {t : Nat} (hc : a.bCommitted = false) (ht : t ∈ a.retrying) :
    a.step granularity (.again t) = some { a with retrying := a.retrying.erase t } := by
  refine (if_pos ht).trans (congrArg some ?_)
  rcases getTurn_cases t false { a with retrying := a.retrying.erase t } with
    ⟨-, -, heq⟩ | ⟨_, _, hcc, -⟩ | ⟨hcc, -⟩ | ⟨hcc, -⟩
  · exact heq
  all_goals exact absurd (hc.symm.trans hcc) Bool.false_ne_true

theorem Sound.refuses {t : Nat} (h : a.Sound) (hc : a.bCommitted = false) (ht : t ∈ a.retrying) :
    a.Refused granularity t := by
  refine ⟨{ a with retrying := a.retrying.erase t }, ?_, again_uncommitted granularity hc ht,
    h.oneCall.looking ht⟩
  exact if_pos hc

theorem Sound.wakes_refused {t : Nat} (h : a.Sound) (hc : a.bCommitted = false)
    (ht : t ∈ a.waiting) :
    ∃ c, a.step granularity (.wake t) = some c ∧ t ∈ c.retrying ∧ c.Refused granularity t := by
  have hstep : a.step granularity (.wake t) = _ := h.wakes hc ht
  have hmem : t ∈ t :: a.retrying := List.mem_cons_self
  exact ⟨_, hstep, hmem, (Sound.step granularity a _ _ h hstep).refuses granularity hc hmem⟩

/-- The steps that are left to those in GetBuffer. -/
def waitRank (a : MemAllocator) : Nat := 2 * a.waiting.length + a.retrying.length

theorem Sound.dismiss_one (h : a.Sound) (hc : a.bCommitted = false) (hrank : a.waitRank ≠ 0) :
    ∃ t c, a.proceed granularity t = some c ∧ (c.Sound ∧ c.bCommitted = false) ∧
      c.waitRank < a.waitRank := by
  unfold waitRank at hrank ⊢
  by_cases hw : a.waiting = []
  · obtain ⟨t, ht⟩ := List.exists_mem_of_ne_nil a.retrying fun hr => by simp [hw, hr] at hrank
    have hstep := again_uncommitted granularity hc ht
    refine ⟨t, _, (if_neg (by simp [hw])).trans hstep,
      ⟨Sound.step granularity a _ _ h hstep, hc⟩, ?_⟩
    have hlen := List.length_erase_of_mem ht
    have hpos := List.length_pos_of_mem ht
    show 2 * a.waiting.length + (a.retrying.erase t).length < _
    omega
  · obtain ⟨t, ht⟩ := List.exists_mem_of_ne_nil a.waiting hw
    have hstep : a.step granularity (.wake t) = _ := h.wakes hc ht
    refine ⟨t, _, (if_pos ht).trans hstep, ⟨Sound.step granularity a _ _ h hstep, hc⟩, ?_⟩
    have hlen := List.length_erase_of_mem ht
    have hpos := List.length_pos_of_mem ht
    show 2 * (a.waiting.erase t).length + (t :: a.retrying).length < _
    rw [List.length_cons]
    omega

/-- Without a commitment the threads in GetBuffer can all leave it, the waiting ones first. -/
theorem Sound.dismisses (h : a.Sound) (hc : a.bCommitted = false) :
    ∃ c, Transition.Reach (proceed granularity) a c ∧ c.waiting = [] ∧ c.retrying = [] := by
  obtain ⟨c, hreach, -, hzero⟩ := Transition.Reach.of_rank
    (fun c => c.Sound ∧ c.bCommitted = false) waitRank
    (fun c hc hrank => hc.1.dismiss_one granularity hc.2 hrank) a ⟨h, hc⟩
  unfold waitRank at hzero
  refine ⟨c, hreach, List.eq_nil_of_length_eq_zero ?_, List.eq_nil_of_length_eq_zero ?_⟩ <;> omega

end

/-- **No wakeup is lost**: while a sample is free, or there is no sample to come, the
    semaphore has a permit for every thread that waits; without a commitment each of them
    leaves with the error. -/
theorem no_lost_wakeup (granularity : UInt32) (as : List AllocAction) :
    Transition.Always (step granularity) (Wakeful granularity) new as := by
  refine always_of_sound (fun a h => ?_) granularity as
  have hcounted := h.waits.counted
  refine ⟨h.waits.free_quiet, hcounted, fun hor => ?_, fun b rest hfree hc t ht =>
    h.serves granularity hfree hc ht, fun hc t ht => h.wakes_refused granularity hc ht,
    fun hc t ht => h.refuses granularity hc ht, h.dismisses granularity⟩
  have hzero : a.lWaiting = 0 := hor.elim h.waits.free_quiet h.waits.uncommitted_quiet
  omega

/-- The allocator's reference to itself. -/
structure KeptAlive (a : MemAllocator) : Prop where
  at_most_one : a.selfRefs ≤ 1
  held_iff : a.selfRefs = 1 ↔ a.bCommitted = true ∨ ∃ b, 0 < a.refs b
  in_progress_iff : a.bDecommitInProgress = true ↔ a.bCommitted = false ∧ ∃ b, 0 < a.refs b

/-- **The allocator outlives its samples**: it holds one reference to itself exactly while
    it is committed or somebody references a sample. -/
theorem alive_while_outstanding (granularity : UInt32) (as : List AllocAction) :
    Transition.Always (step granularity) KeptAlive new as := by
  refine always_of_sound (fun a ha => ?_) granularity as
  have h := ha.books
  have hself := h.selfRefs
  have hprogress : a.bDecommitInProgress = true ↔ a.bCommitted = false ∧ ∃ b, 0 < a.refs b := by
    rw [← h.outstanding_iff]
    refine ⟨h.decommitting, fun ⟨hc, hout⟩ => (h.outstanding hout).resolve_left ?_⟩
    rw [hc]
    exact Bool.false_ne_true
  refine ⟨?_, ?_, hprogress⟩
  · split at hself <;> omega
  · rw [hself]
    cases hc : a.bCommitted with
    | true => simp
    | false =>
      rw [hc] at hprogress
      simp only [true_and] at hprogress
      simp only [Bool.false_eq_true, false_or, ← hprogress]
      cases a.bDecommitInProgress <;> decide

/-- Where sample `b` has its bytes. -/
def Occupies (a : MemAllocator) (b from_ upto : Nat) : Prop :=
  ∃ s, a.samples[b]? = some s ∧ from_ = s.offset ∧ upto = s.offset + s.sample.getSize

/-- The buffers lie in the block, apart from each other, and are as large as was asked. -/
structure Apart (a : MemAllocator) : Prop where
  inside : ∀ b i j, a.Occupies b i j →
    ∃ total, a.buffer = some total ∧ j ≤ total ∧ (total : Int) ≤ MAXLONG
  disjoint : ∀ b c i j k l, a.Occupies b i j → a.Occupies c k l → b ≠ c → j ≤ k ∨ l ≤ i
  sized : a.bCommitted = true → ∀ b i j, a.Occupies b i j → j - i = a.lSize.toNatClampNeg

theorem buffers_disjoint (granularity : UInt32) (as : List AllocAction) :
    Transition.Always (step granularity) Apart new as := by
  refine always_of_sound (fun a h => ?_) granularity as
  obtain ⟨total, aligned, lPrefix, size, hlaid, hfits, htotal, hmax, hbuf, hsz⟩ := h.layout.laid
  have place : ∀ {b i j}, a.Occupies b i j →
      b < a.samples.length ∧ i = b * aligned + lPrefix ∧ j = b * aligned + lPrefix + size := by
    rintro b i j ⟨s, hs, rfl, rfl⟩
    obtain ⟨hlt, -⟩ := List.getElem?_eq_some_iff.mp hs
    obtain ⟨hoff, hsize⟩ := hlaid b s hs
    exact ⟨hlt, hoff, by rw [hoff, hsize]⟩
  have next : ∀ {b c : Nat}, b < c → b * aligned + aligned ≤ c * aligned := by
    intro b c hlt
    calc b * aligned + aligned = (b + 1) * aligned := (Nat.succ_mul b aligned).symm
      _ ≤ c * aligned := Nat.mul_le_mul_right aligned hlt
  refine ⟨fun b i j hb => ?_, fun b c i j k l hb hc hne => ?_, fun hcommitted b i j hb => ?_⟩
  · obtain ⟨hlt, -, rfl⟩ := place hb
    have hend := next hlt
    refine ⟨total, hbuf ?_, by omega, hmax⟩
    intro hnil
    rw [hnil] at hlt
    exact Nat.not_lt_zero b hlt
  · obtain ⟨-, rfl, rfl⟩ := place hb
    obtain ⟨-, rfl, rfl⟩ := place hc
    rcases Nat.lt_or_gt_of_ne hne with hlt | hlt
    · have := next hlt
      omega
    · have := next hlt
      omega
  · obtain ⟨hlt, rfl, rfl⟩ := place hb
    have hunchanged : a.bChanged = false := h.books.unchanged hcommitted
    have hne : a.samples ≠ [] := by
      intro hnil
      rw [hnil] at hlt
      exact Nat.not_lt_zero b hlt
    rw [← hsz hunchanged hne]
    omega

end

end MemAllocator

end VirtualCaptureStream
