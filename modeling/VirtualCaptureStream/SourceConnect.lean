import VirtualCaptureStream.SourceOutputPin
import VirtualCaptureStream.SinkConnect
import VirtualCaptureStream.Lib.Transition

/- The connection of a source pin: the media type it agrees on, the allocator it decides on,
   and the references it takes on the way. A pin offers one type, the one it was discovered
   with; every connection that is made overwrites it with a copy of what the two pins have
   agreed on, and a copy for which there is no memory has lost its format block.

   What is proved:
     1. `connection_balanced` — the pin holds two references to the other pin and one to an
        allocator with buffers of the size it asks for, when it is connected, and none when
        it is not, wherever the attempts have failed.
     2. `type_kept_or_bared` — the type stays what it was discovered as, but for a format
        block that is lost for good when there is no memory; a connection that is made
        satisfies the type that was asked for.
     3. `published_type_connects` — whatever was tried before, an input pin that accepts the
        type can be connected.

   Correspondence (C++ ↔ Lean):
     `CopyMediaType`, `CMediaType::operator ==`        ↔ `copy`, `Equal`
     `IsPartiallySpecified`, `MatchesPartial`          ↔ the definitions of those names
     `CSourceStream::CheckMediaType`, `SetMediaType`   ↔ `checkMediaType`, `setMediaType`
     `CBaseOutputPin::CheckConnect`, `BreakConnect`    ↔ `checkConnect`, `breakConnect`
     `DecideAllocator`, one of its two tries           ↔ `decideAllocator`, `tryAllocator`
     `CBasePin::AttemptConnection`                     ↔ `attempt`
     `TryMediaTypes`, `AgreeMediaType`, `Connect`      ↔ the definitions of those names
   DecideBufferSize overwrites every field of the request, so GetAllocatorRequirements is
   left out. The failed BreakConnect of an attempt is not looked at. -/
namespace VirtualCaptureStream

def GUID_NULL : GUID := 0

namespace MediaType

/-- The type without its format block, which is what a failed copy leaves. -/
def bare (mt : MediaType) : MediaType where
  amt := { mt.amt with cbFormat := 0, pbFormat := 0 }
  format := []
  format_length := rfl

/-- CopyMediaType, where CoTaskMemAlloc returns `addr`. -/
def copy (addr : Option UInt32) (mt : MediaType) : HRESULT × MediaType :=
  if mt.amt.cbFormat = 0 then (S_OK, mt)
  else
    match addr with
    | some a => (S_OK, { mt with amt := { mt.amt with pbFormat := a } })
    | none => (E_OUTOFMEMORY, mt.bare)

/-- `operator ==`. -/
def Equal (a b : MediaType) : Prop :=
  a.amt.majortype = b.amt.majortype ∧ a.amt.subtype = b.amt.subtype ∧
    a.amt.formattype = b.amt.formattype ∧ a.amt.cbFormat = b.amt.cbFormat ∧
      (a.amt.cbFormat = 0 ∨ a.format = b.format)

instance (a b : MediaType) : Decidable (a.Equal b) := inferInstanceAs (Decidable (_ ∧ _))

def IsPartiallySpecified (mt : MediaType) : Prop :=
  mt.amt.majortype = GUID_NULL ∨ mt.amt.formattype = GUID_NULL

instance (mt : MediaType) : Decidable mt.IsPartiallySpecified := inferInstanceAs (Decidable (_ ∨ _))

def MatchesPartial (mt part : MediaType) : Prop :=
  (part.amt.majortype ≠ GUID_NULL → mt.amt.majortype = part.amt.majortype) ∧
    (part.amt.subtype ≠ GUID_NULL → mt.amt.subtype = part.amt.subtype) ∧
      (part.amt.formattype ≠ GUID_NULL → mt.amt.formattype = part.amt.formattype ∧
        mt.amt.cbFormat = part.amt.cbFormat ∧ (mt.amt.cbFormat ≠ 0 → mt.format = part.format))

instance (mt part : MediaType) : Decidable (mt.MatchesPartial part) :=
  inferInstanceAs (Decidable (_ ∧ _))

/-! What the comparisons look at. -/

section
variable {a b c : MediaType}

def key (mt : MediaType) : GUID × GUID × GUID × List UInt8 :=
  (mt.amt.majortype, mt.amt.subtype, mt.amt.formattype, mt.format)

theorem cbFormat_of_format (h : a.format = b.format) : a.amt.cbFormat = b.amt.cbFormat := by
  have ha := a.format_length
  rw [h, b.format_length] at ha
  exact (UInt32.toNat_inj.mp ha).symm

theorem format_nil (h : a.amt.cbFormat = 0) : a.format = [] := by
  have ha := a.format_length
  rw [h] at ha
  exact List.eq_nil_of_length_eq_zero ha

theorem equal_iff : a.Equal b ↔ a.key = b.key := by
  simp only [Equal, key, Prod.mk.injEq]
  refine and_congr_right fun _ => and_congr_right fun _ => and_congr_right fun _ => ?_
  refine ⟨fun ⟨hlen, hformat⟩ => ?_, fun hformat => ⟨cbFormat_of_format hformat, Or.inr hformat⟩⟩
  rcases hformat with hzero | hformat
  · rw [format_nil hzero, format_nil (hlen ▸ hzero)]
  · exact hformat

theorem key_copy {addr : Option UInt32} (h : failed (a.copy addr).1 = false) :
    (a.copy addr).2.key = a.key := by
  unfold copy at h ⊢
  split
  · rfl
  · rename_i hne
    rw [if_neg hne] at h
    cases addr with
    | none => cases h
    | some addr => rfl

theorem copy_cases (addr : Option UInt32) :
    (a.copy addr).2.key = a.key ∨ (a.copy addr).2.key = a.bare.key := by
  unfold copy
  split
  · exact Or.inl rfl
  · cases addr with
    | none => exact Or.inr rfl
    | some addr => exact Or.inl rfl

theorem copy_some (addr : UInt32) : (a.copy (some addr)).1 = S_OK := by
  unfold copy
  split <;> rfl

theorem matchesPartial_congr (h : a.key = b.key) (part : MediaType) :
    a.MatchesPartial part ↔ b.MatchesPartial part := by
  simp only [key, Prod.mk.injEq] at h
  obtain ⟨hmajor, hsub, hformattype, hformat⟩ := h
  simp only [MatchesPartial, hmajor, hsub, hformattype, hformat, cbFormat_of_format hformat]

theorem matchesPartial_self (a : MediaType) : a.MatchesPartial a :=
  ⟨fun _ => rfl, fun _ => rfl, fun _ => ⟨rfl, rfl, fun _ => rfl⟩⟩

/-- `b` is what became of `a`: the same type, or one without its format block. -/
def Sheds (a b : MediaType) : Prop := b.key = a.key ∨ b.key = a.bare.key

theorem bare_congr (h : a.key = b.key) : a.bare.key = b.bare.key := by
  simp only [key, Prod.mk.injEq] at h
  simp [key, bare, h]

theorem Sheds.refl (a : MediaType) : Sheds a a := Or.inl rfl

theorem Sheds.trans (hab : Sheds a b) (hbc : Sheds b c) : Sheds a c := by
  rcases hbc with hbc | hbc
  · exact hab.imp hbc.trans hbc.trans
  · refine Or.inr (hbc.trans ?_)
    rcases hab with hab | hab
    · exact bare_congr hab
    · exact (bare_congr (b := a.bare) hab).trans rfl

end

end MediaType

/-- The pin, `m_Connected`, `m_pInputPin` and `m_pAllocator`, and what it has taken of
    references to the other pin and to allocators, less what it gave back. An allocator
    is there with the properties its SetProperties has settled on. -/
structure SourceConnection where
  pin : SourceOutputPin
  connected : Bool
  inputPin : Bool
  allocator : Option AllocatorProperties
  peerRefs : Int
  allocRefs : Int

namespace SourceConnection

/-- An allocator that is offered: what GetAllocator or InitAllocator returns, the
    allocator's SetProperties, and the other pin's NotifyAllocator. -/
structure AllocatorOffer where
  get : HRESULT
  setProperties : AllocatorProperties → HRESULT × AllocatorProperties
  notify : HRESULT

/-- What one attempt meets; `checkCopy`, `setCopy`: the memory for the copies of the type. -/
structure AttemptEnv where
  sameDirection : Bool
  memInputPin : HRESULT
  checkCopy : Option UInt32
  setCopy : Option UInt32
  peer : HRESULT
  theirs : AllocatorOffer
  own : AllocatorOffer
  decommit : HRESULT

/-- The other pin's types, with the attempt each leads to. -/
structure Enumeration where
  enum : HRESULT
  reset : HRESULT
  types : List (MediaType × AttemptEnv)

/-- What Connect meets; the pin's own enumerator gives a copy of the type it has then. -/
structure AgreeEnv where
  specified : AttemptEnv
  theirs : Enumeration
  ownEnum : HRESULT
  ownReset : HRESULT
  ownCopy : Option UInt32
  ownAlloc : Bool
  own : AttemptEnv
  decommit : HRESULT

def new (pin : SourceOutputPin) : SourceConnection := ⟨pin, false, false, none, 0, 0⟩

/-! The media type. -/

/-- GetMediaType gives a copy and does not say if it is whole. -/
def checkMediaType (addr : Option UInt32) (mt : MediaType) (c : SourceConnection) : HRESULT :=
  if (c.pin.mt.copy addr).2.Equal mt then S_OK else E_FAIL

/-- SetMediaType: the old format block is freed first. -/
def setMediaType (addr : Option UInt32) (mt : MediaType) (c : SourceConnection) :
    HRESULT × SourceConnection :=
  ((mt.copy addr).1, { c with pin := { c.pin with mt := (mt.copy addr).2 } })

/-! The allocator. -/

def releaseAllocator (c : SourceConnection) : SourceConnection :=
  { c with allocator := none, allocRefs := c.allocRefs - 1 }

def tryAllocator (offer : AllocatorOffer) (c : SourceConnection) : HRESULT × SourceConnection :=
  if failed offer.get then (offer.get, c)
  else
    let hr := c.pin.decideBufferSize offer.setProperties
    let hr := if failed hr then hr else offer.notify
    let c := { c with
      allocator := some (offer.setProperties c.pin.allocProperties).2, allocRefs := c.allocRefs + 1 }
    if failed hr then (hr, c.releaseAllocator) else (S_OK, c)

/-- The other pin's allocator, then one of the pin's own. -/
def decideAllocator (theirs own : AllocatorOffer) (c : SourceConnection) :
    HRESULT × SourceConnection :=
  let (hr, c) := tryAllocator theirs { c with allocator := none }
  if failed hr then tryAllocator own c else (S_OK, c)

/-! The connection. -/

def checkConnect (sameDirection : Bool) (memInputPin : HRESULT) (c : SourceConnection) :
    HRESULT × SourceConnection :=
  if sameDirection then (VFW_E_INVALID_DIRECTION, c)
  else if failed memInputPin then (memInputPin, { c with inputPin := false })
  else (S_OK, { c with inputPin := true, peerRefs := c.peerRefs + 1 })

def breakConnect (decommit : HRESULT) (c : SourceConnection) : HRESULT × SourceConnection :=
  if c.allocator.isSome ∧ failed decommit = true then (decommit, c)
  else
    let c := if c.allocator.isSome then c.releaseAllocator else c
    (S_OK, if c.inputPin then { c with inputPin := false, peerRefs := c.peerRefs - 1 } else c)

/-- `m_Connected = pReceivePin`, with its AddRef. -/
def occupy (c : SourceConnection) : SourceConnection :=
  { c with connected := true, peerRefs := c.peerRefs + 1 }

/-- `m_Connected = NULL`, with its Release. -/
def vacate (c : SourceConnection) : SourceConnection :=
  if c.connected then { c with connected := false, peerRefs := c.peerRefs - 1 } else c

/-- AttemptConnection with one type. ReceiveConnection is the same without a peer to ask. -/
def attempt (env : AttemptEnv) (mt : MediaType) (c : SourceConnection) :
    HRESULT × SourceConnection :=
  let (hr, c) := c.checkConnect env.sameDirection env.memInputPin
  if failed hr then (hr, (c.breakConnect env.decommit).2)
  else if c.checkMediaType env.checkCopy mt ≠ S_OK then
    (VFW_E_TYPE_NOT_ACCEPTED, (c.breakConnect env.decommit).2.vacate)
  else
    let (hr, c) := c.occupy.setMediaType env.setCopy mt
    let (hr, c) :=
      if failed hr then (hr, c)
      else if failed env.peer then (env.peer, c)
      else c.decideAllocator env.theirs env.own
    if failed hr then (hr, (c.breakConnect env.decommit).2.vacate) else (hr, c)

/-- The types of an enumerator in order, those that match `part`, until one connects. -/
def tryMediaTypes (part : Option MediaType) :
    List (MediaType × AttemptEnv) → HRESULT → SourceConnection → HRESULT × SourceConnection
  | [], hrFailure, c => (if hrFailure = S_OK then VFW_E_NO_ACCEPTABLE_TYPES else hrFailure, c)
  | (mt, env) :: types, hrFailure, c =>
    if ∀ p ∈ part, mt.MatchesPartial p then
      let (hr, c) := c.attempt env mt
      if hr = S_OK then (hr, c)
      else tryMediaTypes part types
        (if failed hr && !failed hrFailure && VirtualStreamSink.specific hr then hr else hrFailure) c
    else tryMediaTypes part types hrFailure c

/-- One turn of AgreeMediaType's loop. -/
def tryEnumeration (part : Option MediaType) (e : Enumeration) (hrFailure : HRESULT)
    (c : SourceConnection) : HRESULT × SourceConnection :=
  if failed e.enum then (hrFailure, c)
  else
    let (hr, c) := if failed e.reset then (e.reset, c) else tryMediaTypes part e.types S_OK c
    (if !failed hr then S_OK else if VirtualStreamSink.specific hr then hr else hrFailure, c)

def ownTypes (env : AgreeEnv) (c : SourceConnection) : Enumeration where
  enum := env.ownEnum
  reset := env.ownReset
  types := if env.ownAlloc then [((c.pin.mt.copy env.ownCopy).2, env.own)] else []

/-- Both enumerators, the other pin's first. -/
def tryBoth (part : Option MediaType) (env : AgreeEnv) (c : SourceConnection) :
    HRESULT × SourceConnection :=
  let (hr, c) := c.tryEnumeration part env.theirs VFW_E_NO_ACCEPTABLE_TYPES
  if !failed hr then (S_OK, c) else c.tryEnumeration part (c.ownTypes env) hr

def agreeMediaType (pmt : Option MediaType) (env : AgreeEnv) (c : SourceConnection) :
    HRESULT × SourceConnection :=
  match pmt with
  | none => c.tryBoth none env
  | some mt =>
    if mt.IsPartiallySpecified then c.tryBoth (some mt) env else c.attempt env.specified mt

def connect (stopped : Bool) (pmt : Option MediaType) (env : AgreeEnv) (c : SourceConnection) :
    HRESULT × SourceConnection :=
  if c.connected then (VFW_E_ALREADY_CONNECTED, c)
  else if !stopped then (VFW_E_NOT_STOPPED, c)
  else
    let (hr, c) := c.agreeMediaType pmt env
    if failed hr then (hr, (c.breakConnect env.decommit).2) else (S_OK, c)

def receiveConnection (stopped : Bool) (mt : MediaType) (env : AttemptEnv) (c : SourceConnection) :
    HRESULT × SourceConnection :=
  if c.connected then (VFW_E_ALREADY_CONNECTED, c)
  else if !stopped then (VFW_E_NOT_STOPPED, c)
  else c.attempt { env with peer := S_OK } mt

def disconnect (stopped : Bool) (decommit : HRESULT) (c : SourceConnection) :
    HRESULT × SourceConnection :=
  if !stopped then (VFW_E_NOT_STOPPED, c)
  else if c.connected then
    if failed (c.breakConnect decommit).1 then c.breakConnect decommit
    else (S_OK, (c.breakConnect decommit).2.vacate)
  else (S_FALSE, c)

inductive ConnectCall where
  | connect (stopped : Bool) (pmt : Option MediaType) (env : AgreeEnv)
  | receiveConnection (stopped : Bool) (mt : MediaType) (env : AttemptEnv)
  | disconnect (stopped : Bool) (decommit : HRESULT)

def call (c : SourceConnection) : ConnectCall → HRESULT × SourceConnection
  | .connect stopped pmt env => c.connect stopped pmt env
  | .receiveConnection stopped mt env => c.receiveConnection stopped mt env
  | .disconnect stopped decommit => c.disconnect stopped decommit

def step (c : SourceConnection) (a : ConnectCall) : Option SourceConnection := some (c.call a).2

/-! What an attempt does to a pin that is not connected. -/

section
variable {c : SourceConnection} {r r₁ r₂ : HRESULT × SourceConnection}

structure Free (c : SourceConnection) : Prop where
  connected : c.connected = false
  inputPin : c.inputPin = false
  allocator : c.allocator = none

def withType (mt : MediaType) (c : SourceConnection) : SourceConnection :=
  { c with pin := { c.pin with mt := mt } }

/-- Connected, with an allocator of these properties. -/
def linked (a : AllocatorProperties) (c : SourceConnection) : SourceConnection :=
  { c with
    connected := true, inputPin := true, allocator := some a
    peerRefs := c.peerRefs + 2, allocRefs := c.allocRefs + 1 }

theorem Free.eq (h : c.Free) : c = ⟨c.pin, false, false, none, c.peerRefs, c.allocRefs⟩ := by
  rw [← h.connected, ← h.allocator]
  cases c
  cases h.inputPin.trans h.connected.symm
  rfl

theorem Free.withType (h : c.Free) (mt : MediaType) : (c.withType mt).Free :=
  ⟨h.connected, h.inputPin, h.allocator⟩

/-- An allocator is found, or nothing has changed. -/
inductive Decides (c : SourceConnection) : HRESULT × SourceConnection → Prop
  | refused {hr} (hr_failed : failed hr = true) : Decides c (hr, c)
  | decided {a : AllocatorProperties} (ha : c.pin.allocProperties.cbBuffer ≤ a.cbBuffer) :
      Decides c (S_OK, { c with allocator := some a, allocRefs := c.allocRefs + 1 })

theorem decideBufferSize_cases (p : SourceOutputPin)
    (setProperties : AllocatorProperties → HRESULT × AllocatorProperties) :
    failed (p.decideBufferSize setProperties) = true ∨ p.decideBufferSize setProperties = S_OK := by
  unfold SourceOutputPin.decideBufferSize
  dsimp only
  split
  · exact Or.inl ‹_›
  · split
    · exact Or.inl rfl
    · exact Or.inr rfl

theorem tryAllocator_decides (offer : AllocatorOffer) (hc : c.allocator = none) :
    Decides c (c.tryAllocator offer) := by
  have hback : ({ c with
      allocator := some (offer.setProperties c.pin.allocProperties).2
      allocRefs := c.allocRefs + 1 } : SourceConnection).releaseAllocator = c := by
    unfold releaseAllocator
    dsimp only
    rw [Int.add_sub_cancel, ← hc]
  unfold tryAllocator
  split
  · exact .refused ‹_›
  · dsimp only
    rw [hback]
    rcases decideBufferSize_cases c.pin offer.setProperties with hsize | hsize
    · rw [if_pos hsize, if_pos hsize]
      exact .refused hsize
    · have hok : ¬ failed S_OK = true := by decide
      rw [hsize, if_neg hok]
      by_cases hnotify : failed offer.notify = true
      · rw [if_pos hnotify]
        exact .refused hnotify
      · rw [if_neg hnotify]
        exact .decided (SourceOutputPin.decideBufferSize_ok hsize)

theorem decideAllocator_decides (theirs own : AllocatorOffer) (hc : c.allocator = none) :
    Decides c (c.decideAllocator theirs own) := by
  have hsame : ({ c with allocator := none } : SourceConnection) = c := by
    rw [← hc]
  have htheirs := tryAllocator_decides theirs hc
  unfold decideAllocator
  rw [hsame]
  generalize c.tryAllocator theirs = r at htheirs ⊢
  cases htheirs with
  | refused hr_failed =>
    dsimp only
    rw [if_pos hr_failed]
    exact tryAllocator_decides own hc
  | decided ha => exact .decided ha

/-- What an attempt, or several of them, come to: a failure that leaves no trace but in the
    type, or a connection with a type as it was wanted. -/
structure Ends (mem : Prop) (want : MediaType → Prop) (c : SourceConnection)
    (r : HRESULT × SourceConnection) : Prop where
  sheds : c.pin.mt.Sheds r.2.pin.mt
  kept : mem → r.2.pin.mt.key = c.pin.mt.key
  result : failed r.1 = true ∧ r.2 = c.withType r.2.pin.mt ∨
    r.1 = S_OK ∧ want r.2.pin.mt ∧ ∃ a, c.pin.allocProperties.cbBuffer ≤ a.cbBuffer ∧
      r.2 = (c.linked a).withType r.2.pin.mt

theorem Ends.failed {mem : Prop} {want : MediaType → Prop} {hr : HRESULT}
    (h : failed hr = true) : Ends mem want c (hr, c) :=
  ⟨.refl _, fun _ => rfl, Or.inl ⟨h, rfl⟩⟩

theorem Ends.mono {mem mem' : Prop} {want want' : MediaType → Prop} (h : Ends mem want c r)
    (hmem : mem' → mem) (hwant : ∀ mt, want mt → want' mt) : Ends mem' want' c r :=
  ⟨h.sheds, fun hm => h.kept (hmem hm),
    h.result.imp_right fun ⟨hr, hw, ha⟩ => ⟨hr, hwant _ hw, ha⟩⟩

/-- A failure, and what is tried after it. -/
theorem Ends.after {mem : Prop} {want : MediaType → Prop} (h₁ : Ends mem want c r₁)
    (hfailed : VirtualCaptureStream.failed r₁.1 = true) (h₂ : Ends mem want r₁.2 r₂) :
    Ends mem want c r₂ := by
  have hsame : r₁.2 = c.withType r₁.2.pin.mt := by
    rcases h₁.result with ⟨-, heq⟩ | ⟨hok, -⟩
    · exact heq
    · rw [hok] at hfailed
      cases hfailed
  refine ⟨h₁.sheds.trans h₂.sheds, fun hm => (h₂.kept hm).trans (h₁.kept hm), ?_⟩
  rcases h₂.result with ⟨hr, heq⟩ | ⟨hr, hwant, a, ha, heq⟩
  · exact Or.inl ⟨hr, by rw [heq, hsame]; rfl⟩
  · refine Or.inr ⟨hr, hwant, a, ?_, by rw [heq, hsame]; rfl⟩
    rw [hsame] at ha
    exact ha

/-- The caller has another code for the failure. -/
theorem Ends.recode {mem : Prop} {want : MediaType → Prop} {hr : HRESULT} (h : Ends mem want c r)
    (hr_failed : VirtualCaptureStream.failed hr = true)
    (hfailed : VirtualCaptureStream.failed r.1 = true) : Ends mem want c (hr, r.2) :=
  h.after hfailed (.failed hr_failed)

theorem Ends.free {mem : Prop} {want : MediaType → Prop} (h : Ends mem want c r) (hc : c.Free)
    (hfailed : VirtualCaptureStream.failed r.1 = true) : r.2.Free := by
  rcases h.result with ⟨-, heq⟩ | ⟨hok, -⟩
  · rw [heq]
    exact hc.withType _
  · rw [hok] at hfailed
    cases hfailed

theorem Ends.ok_or_failed {mem : Prop} {want : MediaType → Prop} (h : Ends mem want c r) :
    r.1 = S_OK ∨ VirtualCaptureStream.failed r.1 = true :=
  h.result.symm.imp (·.1) (·.1)

/-- There is memory for the two copies of the type. -/
def AttemptEnv.Mem (env : AttemptEnv) : Prop :=
  env.checkCopy.isSome = true ∧ env.setCopy.isSome = true

/-- The pin half way through an attempt, with the type `mt`. -/
def halfway (mt : MediaType) (c : SourceConnection) : SourceConnection :=
  { c with
    pin := { c.pin with mt := mt }
    connected := true, inputPin := true, peerRefs := c.peerRefs + 1 + 1 }

theorem undo_halfway (hc : c.Free) (mt : MediaType) (decommit : HRESULT) :
    (((c.halfway mt).breakConnect decommit).2).vacate = c.withType mt := by
  have hnone : (c.halfway mt).allocator = none := hc.allocator
  unfold breakConnect
  rw [hnone, if_neg (by simp)]
  simp only [halfway, vacate, withType, Option.isSome_none, Bool.false_eq_true, if_false, if_true,
    Int.add_sub_cancel, hc.connected, hc.inputPin, hc.allocator]

theorem breakConnect_free (hc : c.Free) (decommit : HRESULT) : c.breakConnect decommit = (S_OK, c) := by
  unfold breakConnect
  simp [hc.allocator, hc.inputPin]

/-- CheckConnect fails without a trace, or takes the other pin's IMemInputPin. -/
theorem checkConnect_cases (hc : c.Free) (sameDirection : Bool) (memInputPin : HRESULT) :
    (∃ hr, failed hr = true ∧ c.checkConnect sameDirection memInputPin = (hr, c)) ∨
      c.checkConnect sameDirection memInputPin =
        (S_OK, { c with inputPin := true, peerRefs := c.peerRefs + 1 }) := by
  unfold checkConnect
  split
  · exact Or.inl ⟨_, by decide, rfl⟩
  split
  · refine Or.inl ⟨_, ‹_›, ?_⟩
    rw [← hc.inputPin]
  · exact Or.inr rfl

/-- The type that is set is the pin's own, or what is left of it. -/
theorem accepted_sheds (addr' : Option UInt32) {addr : Option UInt32} {mt : MediaType}
    (haccept : c.checkMediaType addr mt = S_OK) :
    c.pin.mt.Sheds (mt.copy addr').2 ∧ (addr.isSome = true → mt.key = c.pin.mt.key) := by
  have hequal : (c.pin.mt.copy addr).2.key = mt.key := by
    unfold checkMediaType at haccept
    split at haccept
    · exact MediaType.equal_iff.mp ‹_›
    · cases haccept
  refine ⟨?_, fun hsome => ?_⟩
  · have hmt : c.pin.mt.Sheds mt := (MediaType.copy_cases addr).imp hequal.symm.trans hequal.symm.trans
    exact hmt.trans (MediaType.copy_cases addr')
  · obtain ⟨a, rfl⟩ := Option.isSome_iff_exists.mp hsome
    rw [← hequal, MediaType.key_copy (by rw [MediaType.copy_some]; rfl)]

theorem attempt_ends (env : AttemptEnv) (mt : MediaType) (hc : c.Free) :
    Ends env.Mem (fun m => m.key = mt.key) c (c.attempt env mt) := by
  unfold attempt
  rcases checkConnect_cases hc env.sameDirection env.memInputPin with ⟨hr, hr_failed, heq⟩ | heq
  · rw [heq]
    dsimp only
    rw [if_pos hr_failed, breakConnect_free hc]
    exact .failed hr_failed
  rw [heq]
  dsimp only
  rw [if_neg (by decide)]
  split
  · have hundone : ((({ c with inputPin := true, peerRefs := c.peerRefs + 1 } :
        SourceConnection).breakConnect env.decommit).2).vacate = c := by
      unfold breakConnect
      simp only [vacate, hc.allocator, hc.connected, Option.isSome_none, Bool.false_eq_true,
        false_and, if_false, if_true, Int.add_sub_cancel]
      exact hc.eq.symm
    rw [hundone]
    exact .failed (by decide)
  rename_i haccept
  obtain ⟨hsheds, hkey⟩ := accepted_sheds env.setCopy (not_not.mp haccept)
  have hkept : env.Mem → (mt.copy env.setCopy).2.key = c.pin.mt.key := by
    intro hmem
    obtain ⟨a, ha⟩ := Option.isSome_iff_exists.mp hmem.2
    rw [ha, MediaType.key_copy (by rw [MediaType.copy_some]; rfl), hkey hmem.1]
  -- every failure from here on leaves the new type
  have hfails : ∀ hr, failed hr = true → Ends env.Mem (fun m => m.key = mt.key) c
      (hr, (((c.halfway (mt.copy env.setCopy).2).breakConnect env.decommit).2).vacate) := by
    intro hr hr_failed
    rw [undo_halfway hc]
    exact ⟨hsheds, hkept, Or.inl ⟨hr_failed, rfl⟩⟩
  have hset : ({ c with inputPin := true, peerRefs := c.peerRefs + 1 } :
      SourceConnection).occupy.setMediaType env.setCopy mt =
        ((mt.copy env.setCopy).1, c.halfway (mt.copy env.setCopy).2) := rfl
  rw [hset]
  dsimp only
  by_cases hcopy : failed (mt.copy env.setCopy).1 = true
  · rw [if_pos hcopy]
    dsimp only
    rw [if_pos hcopy]
    exact hfails _ hcopy
  rw [if_neg hcopy]
  by_cases hpeer : failed env.peer = true
  · rw [if_pos hpeer]
    dsimp only
    rw [if_pos hpeer]
    exact hfails _ hpeer
  rw [if_neg hpeer]
  have hdecides := decideAllocator_decides (c := c.halfway (mt.copy env.setCopy).2) env.theirs
    env.own hc.allocator
  generalize (c.halfway (mt.copy env.setCopy).2).decideAllocator env.theirs env.own = r at hdecides ⊢
  cases hdecides with
  | refused hr_failed =>
    dsimp only
    rw [if_pos hr_failed]
    exact hfails _ hr_failed
  | @decided a ha =>
    refine ⟨hsheds, hkept, Or.inr ⟨rfl, MediaType.key_copy (by simpa using hcopy), a, ha, ?_⟩⟩
    show _ = SourceConnection.mk _ _ _ _ _ _
    simp [halfway, linked, Int.add_assoc]

/-! Several attempts. -/

/-- The type satisfies the one that was asked for. -/
def Matches (part : Option MediaType) (mt : MediaType) : Prop := ∀ p ∈ part, mt.MatchesPartial p

theorem Ends.wants {mem : Prop} {part : Option MediaType} {mt : MediaType}
    (h : Ends mem (fun m => m.key = mt.key) c r) (hmt : Matches part mt) :
    Ends mem (Matches part) c r :=
  h.mono (fun hm => hm) fun _ hkey p hp => (MediaType.matchesPartial_congr hkey p).mpr (hmt p hp)

/-- The induction is on the types that are left; the attempts so far have left no trace. -/
theorem tryMediaTypes_ends (part : Option MediaType) (types : List (MediaType × AttemptEnv))
    (hrFailure : HRESULT) (hFailure : hrFailure = S_OK ∨ failed hrFailure = true) (hc : c.Free) :
    Ends (∀ x ∈ types, x.2.Mem) (Matches part) c (tryMediaTypes part types hrFailure c) := by
  induction types generalizing hrFailure c with
  | nil =>
    unfold tryMediaTypes
    refine .failed ?_
    split
    · decide
    · exact hFailure.resolve_left ‹_›
  | cons x types ih =>
    obtain ⟨mt, env⟩ := x
    unfold tryMediaTypes
    by_cases hmt : Matches part mt
    · rw [if_pos (show ∀ p ∈ part, mt.MatchesPartial p from hmt)]
      have hattempt : Ends (∀ x ∈ (mt, env) :: types, x.2.Mem) (Matches part) c (c.attempt env mt) :=
        ((attempt_ends env mt hc).wants hmt).mono (fun hm => hm (mt, env) List.mem_cons_self)
          fun _ hm => hm
      generalize c.attempt env mt = r at hattempt ⊢
      dsimp only
      rcases hattempt.ok_or_failed with hok | hfailed
      · rw [if_pos hok]
        exact hattempt
      · have hne : r.1 ≠ S_OK := fun hok => by
          rw [hok] at hfailed
          cases hfailed
        rw [if_neg hne]
        refine hattempt.after hfailed ((ih _ ?_ (hattempt.free hc hfailed)).mono
          (fun hm y hy => hm y (List.mem_cons_of_mem _ hy)) fun _ hm => hm)
        split
        · exact Or.inr hfailed
        · exact hFailure
    · rw [if_neg (show ¬ ∀ p ∈ part, mt.MatchesPartial p from hmt)]
      exact (ih hrFailure hFailure hc).mono (fun hm y hy => hm y (List.mem_cons_of_mem _ hy))
        fun _ hm => hm

theorem tryEnumeration_ends (part : Option MediaType) (e : Enumeration) (hrFailure : HRESULT)
    (hFailure : failed hrFailure = true) (hc : c.Free) :
    Ends (∀ x ∈ e.types, x.2.Mem) (Matches part) c (c.tryEnumeration part e hrFailure) := by
  unfold tryEnumeration
  split
  · exact .failed hFailure
  have htypes : Ends (∀ x ∈ e.types, x.2.Mem) (Matches part) c
      (if failed e.reset then (e.reset, c) else tryMediaTypes part e.types S_OK c) := by
    split
    · exact .failed ‹_›
    · exact tryMediaTypes_ends part e.types S_OK (Or.inl rfl) hc
  generalize (if failed e.reset then (e.reset, c) else tryMediaTypes part e.types S_OK c) = r
    at htypes ⊢
  dsimp only
  rcases htypes.ok_or_failed with hok | hfailed
  · have hnot : ¬ failed r.1 = true := by
      rw [hok]
      decide
    rw [if_pos (by simpa using hnot), ← hok]
    exact htypes
  · rw [if_neg (by simp [hfailed])]
    refine htypes.recode ?_ hfailed
    split
    · exact hfailed
    · exact hFailure

/-- There is memory for the copies of both enumerators' types. -/
def AgreeEnv.Mem (env : AgreeEnv) : Prop :=
  env.specified.Mem ∧ (∀ x ∈ env.theirs.types, x.2.Mem) ∧ env.own.Mem

theorem ownTypes_mem {env : AgreeEnv} (h : env.own.Mem) : ∀ x ∈ (c.ownTypes env).types, x.2.Mem := by
  unfold ownTypes
  dsimp only
  split
  · exact List.forall_mem_singleton.mpr h
  · exact fun _ hx => by cases hx

theorem tryBoth_ends (part : Option MediaType) (env : AgreeEnv) (hc : c.Free) :
    Ends env.Mem (Matches part) c (c.tryBoth part env) := by
  have htheirs : Ends env.Mem (Matches part) c
      (c.tryEnumeration part env.theirs VFW_E_NO_ACCEPTABLE_TYPES) :=
    (tryEnumeration_ends part env.theirs _ (by decide) hc).mono (fun hm => hm.2.1) fun _ hm => hm
  unfold tryBoth
  generalize c.tryEnumeration part env.theirs VFW_E_NO_ACCEPTABLE_TYPES = r at htheirs ⊢
  dsimp only
  rcases htheirs.ok_or_failed with hok | hfailed
  · rw [hok, if_pos (by decide), ← hok]
    exact htheirs
  · rw [if_neg (by simp [hfailed])]
    exact htheirs.after hfailed ((tryEnumeration_ends part _ r.1 hfailed
      (htheirs.free hc hfailed)).mono (fun hm => ownTypes_mem hm.2.2) fun _ hm => hm)

theorem agreeMediaType_ends (pmt : Option MediaType) (env : AgreeEnv) (hc : c.Free) :
    Ends env.Mem (Matches pmt) c (c.agreeMediaType pmt env) := by
  unfold agreeMediaType
  cases pmt with
  | none => exact tryBoth_ends none env hc
  | some mt =>
    dsimp only
    split
    · exact tryBoth_ends (some mt) env hc
    · refine ((attempt_ends env.specified mt hc).wants fun p hp => ?_).mono (fun hm => hm.1)
        fun _ hm => hm
      obtain rfl := Option.some.inj hp
      exact mt.matchesPartial_self

/-! The calls. -/

/-- What the pin holds between two calls; `pin` is as it was discovered. -/
structure Balanced (pin : SourceOutputPin) (c : SourceConnection) : Prop where
  peerRefs : c.peerRefs = if c.connected then 2 else 0
  allocRefs : c.allocRefs = if c.connected then 1 else 0
  inputPin : c.inputPin = c.connected
  allocator : c.allocator.isSome = c.connected
  properties : c.pin.allocProperties = pin.allocProperties
  large : ∀ a, c.allocator = some a → pin.allocProperties.cbBuffer ≤ a.cbBuffer

variable {pin : SourceOutputPin}

theorem Balanced.free (h : Balanced pin c) (hconn : c.connected = false) : c.Free :=
  ⟨hconn, h.inputPin.trans hconn, by
    rw [← Option.not_isSome_iff_eq_none, h.allocator, hconn]
    decide⟩

theorem Balanced.withType (h : Balanced pin c) (mt : MediaType) : Balanced pin (c.withType mt) :=
  ⟨h.peerRefs, h.allocRefs, h.inputPin, h.allocator, h.properties, h.large⟩

theorem Balanced.linked (h : Balanced pin c) (hconn : c.connected = false) {a : AllocatorProperties}
    (ha : c.pin.allocProperties.cbBuffer ≤ a.cbBuffer) : Balanced pin (c.linked a) where
  peerRefs := by
    show c.peerRefs + 2 = 2
    rw [h.peerRefs, hconn]
    rfl
  allocRefs := by
    show c.allocRefs + 1 = 1
    rw [h.allocRefs, hconn]
    rfl
  inputPin := rfl
  allocator := rfl
  properties := h.properties
  large := fun b hb => by
    obtain rfl := Option.some.inj hb
    exact h.properties ▸ ha

theorem Ends.balanced {mem : Prop} {want : MediaType → Prop} (hends : Ends mem want c r)
    (h : Balanced pin c) (hconn : c.connected = false) : Balanced pin r.2 := by
  rcases hends.result with ⟨-, heq⟩ | ⟨-, -, a, ha, heq⟩
  · rw [heq]
    exact h.withType _
  · rw [heq]
    exact (h.linked hconn ha).withType _

/-- What a call wants of the type, if it makes a connection. -/
def ConnectCall.Wants : ConnectCall → MediaType → Prop
  | .connect _ pmt _, mt => Matches pmt mt
  | .receiveConnection _ proposed _, mt => mt.key = proposed.key
  | .disconnect _ _, _ => False

/-- There is memory for the copies that the call makes. -/
def ConnectCall.Mem : ConnectCall → Prop
  | .connect _ _ env => env.Mem
  | .receiveConnection _ _ env => env.Mem
  | .disconnect _ _ => True

/-- The call is one of those that make a connection. -/
def ConnectCall.Makes : ConnectCall → Prop
  | .disconnect _ _ => False
  | _ => True

/-- The pin without its two interfaces, as BreakConnect leaves it. -/
def unlinked (c : SourceConnection) : SourceConnection :=
  let c := if c.allocator.isSome then c.releaseAllocator else c
  if c.inputPin then { c with inputPin := false, peerRefs := c.peerRefs - 1 } else c

/-- A call is refused, or comes to the end of its attempts, or undoes the connection. -/
inductive Called (c : SourceConnection) (a : ConnectCall) : HRESULT × SourceConnection → Prop
  | unchanged {hr} (hne : a.Makes → failed hr = true) : Called c a (hr, c)
  | ends {d : HRESULT × SourceConnection} (hconn : c.connected = false)
      (h : Ends a.Mem a.Wants c d) : Called c a d
  | broken (hmakes : ¬ a.Makes) (hconn : c.connected = true) :
      Called c a (S_OK, c.unlinked.vacate)

theorem connect_called (h : Balanced pin c) (stopped : Bool) (pmt : Option MediaType)
    (env : AgreeEnv) : Called c (.connect stopped pmt env) (c.connect stopped pmt env) := by
  unfold connect
  split
  · exact .unchanged fun _ => by decide
  split
  · exact .unchanged fun _ => by decide
  rename_i hconn _
  have hfree := h.free (by simpa using hconn)
  refine .ends hfree.connected ?_
  have hagree := agreeMediaType_ends pmt env hfree
  generalize c.agreeMediaType pmt env = r at hagree ⊢
  dsimp only
  rcases hagree.ok_or_failed with hok | hfailed
  · rw [hok, if_neg (by decide), ← hok]
    exact hagree
  · rw [if_pos hfailed, breakConnect_free (hagree.free hfree hfailed)]
    exact hagree

theorem receiveConnection_called (h : Balanced pin c) (stopped : Bool) (mt : MediaType)
    (env : AttemptEnv) :
    Called c (.receiveConnection stopped mt env) (c.receiveConnection stopped mt env) := by
  unfold receiveConnection
  split
  · exact .unchanged fun _ => by decide
  split
  · exact .unchanged fun _ => by decide
  rename_i hconn _
  have hfree := h.free (by simpa using hconn)
  exact .ends hfree.connected (attempt_ends { env with peer := S_OK } mt hfree)

theorem disconnect_called (stopped : Bool) (decommit : HRESULT) :
    Called c (.disconnect stopped decommit) (c.disconnect stopped decommit) := by
  have hno : ¬ (ConnectCall.disconnect stopped decommit).Makes := fun hmakes => hmakes
  unfold disconnect
  split
  · exact .unchanged fun hmakes => absurd hmakes hno
  split
  · rename_i hconn
    by_cases hbreak : c.allocator.isSome ∧ failed decommit = true
    · have hsame : c.breakConnect decommit = (decommit, c) := if_pos hbreak
      rw [hsame, if_pos hbreak.2]
      exact .unchanged fun hmakes => absurd hmakes hno
    · have hbroken : c.breakConnect decommit = (S_OK, c.unlinked) := if_neg hbreak
      have hok : ¬ failed S_OK = true := by decide
      rw [hbroken, if_neg hok]
      exact .broken hno hconn
  · exact .unchanged fun hmakes => absurd hmakes hno

theorem call_called (h : Balanced pin c) (a : ConnectCall) : Called c a (c.call a) := by
  cases a with
  | connect stopped pmt env => exact connect_called h stopped pmt env
  | receiveConnection stopped mt env => exact receiveConnection_called h stopped mt env
  | disconnect stopped decommit => exact disconnect_called stopped decommit

theorem Balanced.broken (h : Balanced pin c) (hconn : c.connected = true) :
    c.unlinked.vacate = ⟨c.pin, false, false, none, 0, 0⟩ := by
  have hpeer : c.peerRefs = 2 := by rw [h.peerRefs, hconn, if_pos rfl]
  have halloc : c.allocRefs = 1 := by rw [h.allocRefs, hconn, if_pos rfl]
  have hsome : c.allocator.isSome = true := h.allocator.trans hconn
  have hinput : c.inputPin = true := h.inputPin.trans hconn
  simp [unlinked, hsome, releaseAllocator, hinput, vacate, hconn, hpeer, halloc]

theorem Balanced.called {a : ConnectCall} (h : Balanced pin c) (hcalled : Called c a r) :
    Balanced pin r.2 := by
  cases hcalled with
  | unchanged => exact h
  | ends hconn hends => exact hends.balanced h hconn
  | broken _ hconn =>
    dsimp only
    rw [h.broken hconn]
    exact ⟨rfl, rfl, rfl, rfl, h.properties, fun _ ha => by cases ha⟩

theorem Balanced.step (c : SourceConnection) (a : ConnectCall) (d : SourceConnection)
    (h : Balanced pin c) (hstep : SourceConnection.step c a = some d) : Balanced pin d := by
  obtain rfl := Option.some.inj hstep
  exact h.called (call_called h a)

theorem balanced_new (pin : SourceOutputPin) : Balanced pin (new pin) :=
  ⟨rfl, rfl, rfl, rfl, rfl, fun _ ha => by cases ha⟩

/-- **References come and go with the connection**, whatever attempt fails and where: two to
    the other pin, and one to an allocator with buffers as large as the pin asks for. -/
theorem connection_balanced (pin : SourceOutputPin) (as : List ConnectCall) :
    Transition.Always SourceConnection.step (Balanced pin) (new pin) as :=
  Transition.always_of_invariant (fun _ h => h) Balanced.step as (new pin) (balanced_new pin)

/-! The type. -/

/-- What a call does to the type. -/
theorem Balanced.called_type {a : ConnectCall} (h : Balanced pin c) (hcalled : Called c a r) :
    c.pin.mt.Sheds r.2.pin.mt ∧ (a.Mem → r.2.pin.mt.key = c.pin.mt.key) ∧
      (a.Makes → failed r.1 = false → r.2.connected = true ∧ a.Wants r.2.pin.mt) := by
  cases hcalled with
  | unchanged hne =>
    refine ⟨.refl _, fun _ => rfl, fun hmakes hok => ?_⟩
    rw [hne hmakes] at hok
    cases hok
  | ends _ hends =>
    refine ⟨hends.sheds, hends.kept, fun _ hok => ?_⟩
    rcases hends.result with ⟨hfailed, -⟩ | ⟨-, hwants, a, -, heq⟩
    · rw [hok] at hfailed
      cases hfailed
    · exact ⟨by rw [heq]; rfl, hwants⟩
  | broken hmakes hconn =>
    rw [h.broken hconn]
    exact ⟨.refl _, fun _ => rfl, fun hm => absurd hm hmakes⟩

/-- The type of the pin, seen from the one it was discovered with. `bared`: the format block
    does not come back. -/
structure Typed (pin : SourceOutputPin) (c : SourceConnection) : Prop where
  kept_or_bared : pin.mt.Equal c.pin.mt ∨ pin.mt.bare.Equal c.pin.mt
  bared : ¬ pin.mt.Equal c.pin.mt → ∀ bs, Transition.Always SourceConnection.step
    (fun d => pin.mt.bare.Equal d.pin.mt) c bs
  agreed : ∀ a : ConnectCall, a.Makes → failed (c.call a).1 = false →
    (c.call a).2.connected = true ∧ a.Wants (c.call a).2.pin.mt

theorem Balanced.type_step (c : SourceConnection) (a : ConnectCall) (d : SourceConnection)
    (h : Balanced pin c) (hstep : SourceConnection.step c a = some d) :
    c.pin.mt.Sheds d.pin.mt ∧ (a.Mem → d.pin.mt.key = c.pin.mt.key) := by
  obtain rfl := Option.some.inj hstep
  have htype := h.called_type (call_called h a)
  exact ⟨htype.1, htype.2.1⟩

theorem Balanced.typed (h : Balanced pin c) (hsheds : pin.mt.Sheds c.pin.mt) : Typed pin c := by
  refine ⟨?_, fun hlost bs => ?_, fun a hmakes hok => (h.called_type (call_called h a)).2.2 hmakes hok⟩
  · rw [MediaType.equal_iff, MediaType.equal_iff]
    exact hsheds.imp Eq.symm Eq.symm
  · rw [MediaType.equal_iff] at hlost
    have hbare : c.pin.mt.key = pin.mt.bare.key := hsheds.resolve_left fun he => hlost he.symm
    refine Transition.always_of_invariant
      (I := fun d => Balanced pin d ∧ d.pin.mt.key = pin.mt.bare.key)
      (fun d hd => MediaType.equal_iff.mpr hd.2.symm) (fun d a e hd hstep => ?_) bs c ⟨h, hbare⟩
    refine ⟨Balanced.step d a e hd.1 hstep, ?_⟩
    rcases (Balanced.type_step d a e hd.1 hstep).1 with hkey | hkey
    · exact hkey.trans hd.2
    · exact hkey.trans (MediaType.bare_congr (b := pin.mt.bare) hd.2)

/-- **The type the pin was discovered with stays**, but that its format block is lost, for
    good, in a call that has no memory for a copy; and a connection that is made has a type
    as it was asked for. -/
theorem type_kept_or_bared (pin : SourceOutputPin) (as : List ConnectCall) :
    Transition.Always SourceConnection.step (Typed pin) (new pin) as ∧
      (Transition.Meets SourceConnection.step (fun _ a => a.Mem) (new pin) as →
        Transition.Always SourceConnection.step (fun c => pin.mt.Equal c.pin.mt) (new pin) as) := by
  refine ⟨?_, ?_⟩
  · exact Transition.always_of_invariant
      (I := fun c => Balanced pin c ∧ pin.mt.Sheds c.pin.mt) (fun _ hc => hc.1.typed hc.2)
      (fun c a d hc hstep => ⟨Balanced.step c a d hc.1 hstep,
        hc.2.trans (Balanced.type_step c a d hc.1 hstep).1⟩) as (new pin)
      ⟨balanced_new pin, .refl _⟩
  · exact Transition.always_of_meets
      (I := fun c => Balanced pin c ∧ c.pin.mt.key = pin.mt.key)
      (fun _ hc => MediaType.equal_iff.mpr hc.2.symm)
      (fun c a d hc hmem hstep => ⟨Balanced.step c a d hc.1 hstep,
        ((Balanced.type_step c a d hc.1 hstep).2 hmem).trans hc.2⟩) as (new pin)
      ⟨balanced_new pin, rfl⟩

/-! A pin that can always be connected. -/

/-- The allocator is there and is as large as the pin asks for. -/
def AllocatorOffer.Suits (p : SourceOutputPin) (offer : AllocatorOffer) : Prop :=
  failed offer.get = false ∧ p.decideBufferSize offer.setProperties = S_OK ∧
    failed offer.notify = false

/-- The other pin accepts the type, and one of the two allocators will do. -/
structure AttemptEnv.Agrees (p : SourceOutputPin) (env : AttemptEnv) : Prop where
  direction : env.sameDirection = false
  memInputPin : failed env.memInputPin = false
  mem : env.Mem
  peer : failed env.peer = false
  allocator : env.theirs.Suits p ∨ env.own.Suits p

theorem tryAllocator_suits {offer : AllocatorOffer} (h : offer.Suits c.pin) :
    (c.tryAllocator offer).1 = S_OK := by
  obtain ⟨hget, hsize, hnotify⟩ := h
  have hok : ¬ failed S_OK = true := by decide
  unfold tryAllocator
  rw [hget, if_neg Bool.false_ne_true]
  dsimp only
  rw [hsize, if_neg hok, hnotify, if_neg Bool.false_ne_true]

theorem decideAllocator_suits {theirs own : AllocatorOffer} (hc : c.allocator = none)
    (h : theirs.Suits c.pin ∨ own.Suits c.pin) : (c.decideAllocator theirs own).1 = S_OK := by
  have hsame : ({ c with allocator := none } : SourceConnection) = c := by
    rw [← hc]
  have hdecides := tryAllocator_decides theirs hc
  unfold decideAllocator
  rw [hsame]
  rcases h with h | h
  · have hok : ¬ failed (c.tryAllocator theirs).1 = true := by
      rw [tryAllocator_suits h]
      decide
    dsimp only
    rw [if_neg hok]
  · generalize c.tryAllocator theirs = r at hdecides ⊢
    cases hdecides with
    | refused hr_failed =>
      dsimp only
      rw [if_pos hr_failed]
      exact tryAllocator_suits h
    | decided => rfl

theorem attempt_agrees {env : AttemptEnv} {mt : MediaType} (hc : c.Free) (h : env.Agrees c.pin)
    (hmt : mt.key = c.pin.mt.key) : (c.attempt env mt).1 = S_OK := by
  obtain ⟨a, ha⟩ := Option.isSome_iff_exists.mp h.mem.1
  obtain ⟨b, hb⟩ := Option.isSome_iff_exists.mp h.mem.2
  have hok : ¬ failed S_OK = true := by decide
  have hcheck : c.checkConnect env.sameDirection env.memInputPin =
      (S_OK, { c with inputPin := true, peerRefs := c.peerRefs + 1 }) := by
    unfold checkConnect
    rw [h.direction, h.memInputPin]
    rfl
  have hequal : (c.pin.mt.copy env.checkCopy).2.Equal mt := by
    rw [MediaType.equal_iff, ha, MediaType.key_copy (by rw [MediaType.copy_some]; rfl), hmt]
  have haccept : ({ c with inputPin := true, peerRefs := c.peerRefs + 1 } :
      SourceConnection).checkMediaType env.checkCopy mt = S_OK := if_pos hequal
  have hset : ({ c with inputPin := true, peerRefs := c.peerRefs + 1 } :
      SourceConnection).occupy.setMediaType env.setCopy mt =
        (S_OK, c.halfway (mt.copy env.setCopy).2) := by
    unfold setMediaType
    rw [hb, MediaType.copy_some]
    rfl
  have hdecide := decideAllocator_suits (c := c.halfway (mt.copy env.setCopy).2) hc.allocator
    h.allocator
  unfold attempt
  rw [hcheck]
  dsimp only
  rw [if_neg hok, if_neg (not_not_intro haccept), hset]
  dsimp only
  rw [if_neg hok, h.peer, if_neg Bool.false_ne_true, hdecide, if_neg hok]

theorem AttemptEnv.Agrees.withType {env : AttemptEnv} {mt : MediaType} (h : env.Agrees c.pin) :
    env.Agrees (c.withType mt).pin :=
  ⟨h.direction, h.memInputPin, h.mem, h.peer, h.allocator⟩

/-- The other pin's types may fail, with memory for their copies; the pin's own will do. -/
structure AgreeEnv.Agrees (p : SourceOutputPin) (env : AgreeEnv) : Prop where
  theirs : ∀ x ∈ env.theirs.types, x.2.Mem
  enum : failed env.ownEnum = false
  reset : failed env.ownReset = false
  copy : env.ownCopy.isSome = true
  alloc : env.ownAlloc = true
  own : env.own.Agrees p

theorem tryOwn_agrees {part : Option MediaType} {env : AgreeEnv} {hrFailure : HRESULT} (hc : c.Free)
    (h : env.Agrees c.pin) (hpart : Matches part c.pin.mt) :
    (c.tryEnumeration part (c.ownTypes env) hrFailure).1 = S_OK := by
  obtain ⟨a, ha⟩ := Option.isSome_iff_exists.mp h.copy
  have hkey : (c.pin.mt.copy env.ownCopy).2.key = c.pin.mt.key := by
    rw [ha, MediaType.key_copy (by rw [MediaType.copy_some]; rfl)]
  have hmatches : Matches part (c.pin.mt.copy env.ownCopy).2 := fun p hp =>
    (MediaType.matchesPartial_congr hkey p).mpr (hpart p hp)
  have hattempt := attempt_agrees hc h.own hkey
  have htry : (tryMediaTypes part (c.ownTypes env).types S_OK c).1 = S_OK := by
    unfold ownTypes tryMediaTypes
    rw [h.alloc]
    dsimp only
    rw [if_pos rfl]
    dsimp only
    rw [if_pos (show ∀ p ∈ part, _ from hmatches), if_pos hattempt]
    exact hattempt
  have hok : ¬ failed S_OK = true := by decide
  unfold tryEnumeration
  rw [show (c.ownTypes env).enum = env.ownEnum from rfl, h.enum, if_neg Bool.false_ne_true,
    show (c.ownTypes env).reset = env.ownReset from rfl, h.reset, if_neg Bool.false_ne_true]
  dsimp only
  rw [htry]
  rfl

theorem tryBoth_agrees {part : Option MediaType} {env : AgreeEnv} (hc : c.Free)
    (h : env.Agrees c.pin) (hpart : Matches part c.pin.mt) : (c.tryBoth part env).1 = S_OK := by
  have htheirs := tryEnumeration_ends part env.theirs VFW_E_NO_ACCEPTABLE_TYPES (by decide) hc
  unfold tryBoth
  generalize c.tryEnumeration part env.theirs VFW_E_NO_ACCEPTABLE_TYPES = r at htheirs ⊢
  dsimp only
  rcases htheirs.ok_or_failed with hok | hfailed
  · rw [hok, if_pos (by decide)]
  · rw [if_neg (by simp [hfailed])]
    have hkept := htheirs.kept h.theirs
    have hsame : r.2 = c.withType r.2.pin.mt := by
      rcases htheirs.result with ⟨-, heq⟩ | ⟨hok, -⟩
      · exact heq
      · rw [hok] at hfailed
        cases hfailed
    have hagrees : env.Agrees r.2.pin := by
      rw [hsame]
      exact ⟨h.theirs, h.enum, h.reset, h.copy, h.alloc, h.own.withType⟩
    exact tryOwn_agrees (htheirs.free hc hfailed) hagrees fun p hp =>
      (MediaType.matchesPartial_congr hkept p).mpr (hpart p hp)

/-- **The type the pin offers can be connected** at every point between two calls, whatever
    has failed before: with an input pin that accepts it and an allocator that will do,
    Connect succeeds, be it asked for any type or for one that matches. -/
theorem published_type_connects (pin : SourceOutputPin) (as : List ConnectCall) :
    Transition.Always SourceConnection.step (fun c => c.connected = false →
      ∀ (pmt : Option MediaType) (env : AgreeEnv), env.Agrees pin →
        (∀ p ∈ pmt, p.IsPartiallySpecified ∧ c.pin.mt.MatchesPartial p) →
          (c.connect true pmt env).1 = S_OK ∧ (c.connect true pmt env).2.connected = true)
      (new pin) as := by
  refine Transition.always_of_invariant (I := Balanced pin)
    (fun c h hconn pmt env henv hpmt => ?_) Balanced.step as (new pin) (balanced_new pin)
  have hfree := h.free hconn
  have suits : ∀ offer : AllocatorOffer, offer.Suits pin → offer.Suits c.pin := by
    intro offer hoffer
    unfold AllocatorOffer.Suits SourceOutputPin.decideBufferSize at hoffer ⊢
    rw [h.properties]
    exact hoffer
  have hown : env.own.Agrees c.pin := ⟨henv.own.direction, henv.own.memInputPin, henv.own.mem,
    henv.own.peer, henv.own.allocator.imp (suits _) (suits _)⟩
  have hagrees : env.Agrees c.pin :=
    ⟨henv.theirs, henv.enum, henv.reset, henv.copy, henv.alloc, hown⟩
  have hboth : (c.agreeMediaType pmt env).1 = S_OK := by
    unfold agreeMediaType
    cases pmt with
    | none => exact tryBoth_agrees hfree hagrees fun p hp => by cases hp
    | some p =>
      dsimp only
      rw [if_pos (hpmt p rfl).1]
      exact tryBoth_agrees hfree hagrees fun q hq => (hpmt q hq).2
  have hok : ¬ failed S_OK = true := by decide
  have hconnect : (c.connect true pmt env).1 = S_OK := by
    unfold connect
    rw [hconn, if_neg Bool.false_ne_true, if_neg (by decide)]
    dsimp only
    rw [hboth, if_neg hok]
  have htype := h.called_type (call_called h (.connect true pmt env))
  refine ⟨hconnect, (htype.2.2 trivial ?_).1⟩
  show failed (c.connect true pmt env).1 = false
  rw [hconnect]
  decide

end

/-- A video type with a format block of one byte. -/
def blockVideo : MediaType where
  amt := { bareVideo.amt with cbFormat := 1, pbFormat := 1 }
  format := [7]
  format_length := rfl

def blockPin : SourceOutputPin := .new [] blockVideo ⟨1, 1, 1, 0⟩ 0 false

/-- The other pin has no allocator, and `peer` is its answer. -/
def ownAllocator (peer : HRESULT) : AttemptEnv where
  sameDirection := false
  memInputPin := S_OK
  checkCopy := some 2
  setCopy := some 3
  peer := peer
  theirs := ⟨E_FAIL, fun p => (S_OK, p), S_OK⟩
  own := ⟨S_OK, fun p => (S_OK, p), S_OK⟩
  decommit := S_OK

/-- The other pin offers a type that is not the pin's. -/
def ownType (peer : HRESULT) : AgreeEnv where
  specified := ownAllocator peer
  theirs := ⟨S_OK, S_OK, [(bareVideo, ownAllocator peer)]⟩
  ownEnum := S_OK
  ownReset := S_OK
  ownCopy := some 1
  ownAlloc := true
  own := ownAllocator peer
  decommit := S_OK

theorem ownType_agrees : (ownType S_OK).Agrees blockPin where
  theirs x hx := by
    obtain rfl := List.mem_singleton.mp hx
    exact ⟨rfl, rfl⟩
  enum := rfl
  reset := rfl
  copy := rfl
  alloc := rfl
  own := ⟨rfl, rfl, ⟨rfl, rfl⟩, rfl, Or.inr ⟨rfl, rfl, rfl⟩⟩

/-- A pin that refuses everything, and then one that takes the type. -/
theorem published_type_connects_refused :
    ∃ c, Transition.run SourceConnection.step (new blockPin)
        [.connect true none (ownType VFW_E_TYPE_NOT_ACCEPTED)] = some c ∧ c.connected = false ∧
      (c.connect true none (ownType S_OK)).1 = S_OK ∧
      (c.connect true none (ownType S_OK)).2.connected = true := by
  obtain ⟨c, hc, hfree⟩ : ∃ c, Transition.run SourceConnection.step (new blockPin)
      [.connect true none (ownType VFW_E_TYPE_NOT_ACCEPTED)] = some c ∧ c.connected = false :=
    ⟨_, rfl, by decide⟩
  have hconnects := Transition.always_iff_prefix.mp (published_type_connects blockPin _) _
    (List.prefix_refl _) c hc
  exact ⟨c, hc, hfree, hconnects hfree none (ownType S_OK) ownType_agrees fun p hp => (by cases hp)⟩

end SourceConnection

end VirtualCaptureStream
