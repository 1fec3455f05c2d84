import VirtualCaptureStream.MediaSample

/- CVirtualStreamSourceOutputPin: the pin of the receiving process. FillBuffer
   runs on the streaming thread: it closes the pipe when the pin is not running,
   connects when the pin is not connected, reads a header, sets up the sample and
   reads the payload into it.

   The calls that reach outside come in as arguments: what CreateFile,
   WaitNamedPipe and SetNamedPipeHandleState do (`ConnectEnv`), what the
   IMediaSample calls return (`SetterResults`), and a reader `rd` that answers
   ReadFile from a state `ω` of its own (a pipe's content, or any script of
   outcomes). Every pipe call is logged, newest first.

   Correspondence (C++ ↔ Lean):
     `ConnectToSinkPin`, its `while (1)`     ↔ `connectToSinkPin`, `openLoop`
     `DisconnectPipe`                        ↔ `disconnectPipe`
     `FillBuffer` up to the first ReadFile   ↔ `fillBuffer`
     its statements between the two reads    ↔ `afterHeader`
     `DecideBufferSize`                      ↔ `decideBufferSize`
     `OnThreadStartPlay`, `OnThreadDestroy`,
     `Reset`, `Stop`                         ↔ the functions of those names -/
namespace VirtualCaptureStream

def PIPEHOST : WStr := wide "."

/-- `\\%s\pipe\%s`: the path the source opens for a name. -/
def sourcePipePath (name : WStr) : WStr := wide "\\\\" ++ PIPEHOST ++ wide "\\pipe\\" ++ name

/-- A call on a pipe handle; CreateFile with the handle it returned. -/
inductive OsCall where
  | createFile (path : WStr) (h : HANDLE)
  | closeHandle (h : HANDLE)
  | readFile (h : HANDLE) (n : Nat)
  deriving DecidableEq, Repr

/-- The members of the pin, with `m_pName` and `m_mt` of its base classes. -/
structure SourceOutputPin where
  pName : WStr
  mt : MediaType
  allocProperties : AllocatorProperties
  hPipe : HANDLE
  bConnected : Bool
  fFirstSampleDelivered : Bool
  rtStart : Int64
  bRunning : Bool

namespace SourceOutputPin

/-- The constructor. It leaves `m_rtStart` and `m_bRunning` as the heap had them. -/
def new (pName : WStr) (mt : MediaType) (allocProperties : AllocatorProperties)
    (rtStart : Int64) (bRunning : Bool) : SourceOutputPin :=
  { pName, mt, allocProperties, hPipe := .null, bConnected := false,
    fFirstSampleDelivered := false, rtStart, bRunning }

/-- The path of the pin's data pipe. -/
def pipePath (p : SourceOutputPin) : WStr := sourcePipePath p.pName

/-! Thread and filter callbacks. -/

def reset (p : SourceOutputPin) : SourceOutputPin :=
  { p with fFirstSampleDelivered := false }

def stop (p : SourceOutputPin) : SourceOutputPin :=
  { p with fFirstSampleDelivered := false, bRunning := false }

def onThreadDestroy (p : SourceOutputPin) : SourceOutputPin :=
  { p with bRunning := false }

def onThreadStartPlay (p : SourceOutputPin) : SourceOutputPin :=
  { p with fFirstSampleDelivered := false, bRunning := true }

/-! The buffers. -/

/-- DecideBufferSize: every property of the request is the pin's own, and an
    allocator with smaller buffers is refused. `setProperties`: what the
    allocator's SetProperties returns and the properties it settles on. -/
def decideBufferSize (p : SourceOutputPin)
    (setProperties : AllocatorProperties → HRESULT × AllocatorProperties) : HRESULT :=
  let request := p.allocProperties
  let hr := (setProperties request).1
  if failed hr then hr
  else if (setProperties request).2.cbBuffer < request.cbBuffer then E_FAIL
  else S_OK

/-- Buffers that are accepted are as large as was asked for. -/
theorem decideBufferSize_ok {p : SourceOutputPin}
    {setProperties : AllocatorProperties → HRESULT × AllocatorProperties}
    (h : p.decideBufferSize setProperties = S_OK) :
    p.allocProperties.cbBuffer ≤ (setProperties p.allocProperties).2.cbBuffer := by
  simp only [decideBufferSize] at h
  split at h
  · rename_i hf
    rw [h, not_failed_S_OK] at hf
    cases hf
  · split at h
    · exact absurd h (by decide)
    · rename_i hle
      exact Int32.not_lt.mp hle

/-! Connecting and disconnecting. -/

/-- Close the pipe. `m_bConnected` is not touched. -/
def disconnectPipe (p : SourceOutputPin) (calls : List OsCall) : SourceOutputPin × List OsCall :=
  if p.hPipe ≠ .null then ({ p with hPipe := .null }, .closeHandle p.hPipe :: calls)
  else (p, calls)

theorem disconnectPipe_hPipe (p : SourceOutputPin) (calls : List OsCall) :
    (disconnectPipe p calls).1.hPipe = .null := by
  unfold disconnectPipe
  split
  · rfl
  · rename_i hp
    simpa using hp

/-- One CreateFile of the open loop: a handle, ERROR_PIPE_BUSY with the outcome
    of WaitNamedPipe, or another error. -/
inductive OpenAttempt where
  | opened (opening : Nat)
  | busy (waited : Bool)
  | error
  deriving DecidableEq, Repr

/-- What the calls of ConnectToSinkPin do: the attempts of its loop, and whether
    SetNamedPipeHandleState succeeds. -/
structure ConnectEnv where
  attempts : List OpenAttempt
  modeSet : Bool

/-- The `while (1)` of ConnectToSinkPin: the handle it leaves in `m_hPipe`, and
    whether it left by the break. `none`: it has not ended yet. -/
def openLoop (path : WStr) : List OpenAttempt → List OsCall → Option (HANDLE × Bool × List OsCall)
  | [], _ => none
  | .opened n :: _, calls => some (.handle n, true, .createFile path (.handle n) :: calls)
  | .busy true :: rest, calls => openLoop path rest (.createFile path .invalid :: calls)
  | .busy false :: _, calls => some (.invalid, false, .createFile path .invalid :: calls)
  | .error :: _, calls => some (.invalid, false, .createFile path .invalid :: calls)

/-- The open loop ends with a valid handle. -/
def opens : List OpenAttempt → Bool
  | .opened _ :: _ => true
  | .busy true :: rest => opens rest
  | _ => false

/-- ConnectToSinkPin. -/
def connectToSinkPin (env : ConnectEnv) (p : SourceOutputPin) (calls : List OsCall) :
    Option (HRESULT × SourceOutputPin × List OsCall) :=
  let closed := disconnectPipe p calls
  let p := { closed.1 with hPipe := .null, bConnected := false }
  (openLoop p.pipePath env.attempts closed.2).map fun (h, opened, calls) =>
    if opened && env.modeSet then (S_OK, { p with hPipe := h, bConnected := true }, calls)
    else (E_FAIL, { p with hPipe := h }, calls)

/-- The loop ends by the break exactly when an attempt opens the pipe. -/
theorem openLoop_opened {path : WStr} : ∀ {attempts : List OpenAttempt} {cs cs' : List OsCall}
    {h : HANDLE} {ok : Bool}, openLoop path attempts cs = some (h, ok, cs') →
    ok = opens attempts ∧ (ok = true → ∃ n, h = .handle n)
  | [], _, _, _, _, hloop => by simp [openLoop] at hloop
  | .busy true :: rest, _, _, _, _, hloop => by
    simp only [openLoop] at hloop
    simp only [opens]
    exact openLoop_opened hloop
  | .opened n :: rest, _, _, _, _, hloop => by
    simp only [openLoop, Option.some.injEq, Prod.mk.injEq] at hloop
    exact ⟨hloop.2.1.symm, fun _ => ⟨n, hloop.1.symm⟩⟩
  | .busy false :: rest, _, _, _, _, hloop => by
    simp only [openLoop, Option.some.injEq, Prod.mk.injEq] at hloop
    obtain ⟨_, rfl, _⟩ := hloop
    exact ⟨rfl, fun h => by cases h⟩
  | .error :: rest, _, _, _, _, hloop => by
    simp only [openLoop, Option.some.injEq, Prod.mk.injEq] at hloop
    obtain ⟨_, rfl, _⟩ := hloop
    exact ⟨rfl, fun h => by cases h⟩

theorem openLoop_of_opens (path : WStr) {attempts : List OpenAttempt} (calls : List OsCall)
    (h : opens attempts = true) :
    ∃ n calls', openLoop path attempts calls = some (.handle n, true, calls') := by
  induction attempts generalizing calls with
  | nil => cases h
  | cons a rest ih =>
    cases a with
    | opened n => exact ⟨n, _, rfl⟩
    | busy waited =>
      cases waited with
      | true => exact ih _ h
      | false => cases h
    | error => cases h

/-- ConnectToSinkPin sets the flag exactly when it opens the pipe and sets its
    mode, and then holds a handle. -/
theorem connectToSinkPin_flag {env : ConnectEnv} {p p' : SourceOutputPin} {cs cs' : List OsCall}
    {hr : HRESULT} (h : connectToSinkPin env p cs = some (hr, p', cs')) :
    p'.bConnected = (opens env.attempts && env.modeSet) ∧
      (p'.bConnected = true → ∃ n, p'.hPipe = .handle n) := by
  simp only [connectToSinkPin, Option.map_eq_some_iff] at h
  obtain ⟨⟨hd, ok, cs''⟩, hloop, hres⟩ := h
  obtain ⟨hok, hhandle⟩ := openLoop_opened hloop
  subst hok
  cases hb : opens env.attempts && env.modeSet
  · simp only [hb, Bool.false_eq_true, if_false, Prod.mk.injEq] at hres
    rw [← hres.2.1]
    exact ⟨rfl, fun h => by cases h⟩
  · simp only [hb, if_true, Prod.mk.injEq] at hres
    rw [← hres.2.1]
    exact ⟨rfl, fun _ => hhandle (Bool.and_eq_true_iff.mp hb).1⟩

/-! FillBuffer. -/

/-- What the IMediaSample calls of FillBuffer return; `getPointer`: whether the
    buffer pointer is obtained. -/
structure SetterResults where
  setActualDataLength : HRESULT
  setTime : HRESULT
  setMediaTime : HRESULT
  setTimeAgain : HRESULT
  setSyncPoint : HRESULT
  setPreroll : HRESULT
  setMediaType : HRESULT
  setDiscontinuity : HRESULT
  getPointer : Bool

/-- Every IMediaSample call succeeds. -/
def SetterResults.allOk : SetterResults := ⟨S_OK, S_OK, S_OK, S_OK, S_OK, S_OK, S_OK, S_OK, true⟩

/-- What follows the setters: a return, or the payload read of `n` bytes after
    which `hr` is returned. -/
inductive FillNext where
  | ret (hr : HRESULT)
  | readPayload (n : Nat) (hr : HRESULT)
  deriving DecidableEq, Repr

structure AfterHeader where
  pin : SourceOutputPin
  sample : MediaSample
  next : FillNext

/-- FillBuffer between its two reads. -/
def afterHeader (p : SourceOutputPin) (s : MediaSample) (r : SetterResults)
    (info : MediaSampleInfo) : AfterHeader :=
  let s := s.setActualDataLength r.setActualDataLength info.actualDataLength
  let p := if p.fFirstSampleDelivered then p else { p with rtStart := info.timeStart }
  let timeStart := info.timeStart - p.rtStart
  let timeEnd := info.timeEnd - p.rtStart
  let s := s.setTime r.setTime timeStart timeEnd
  let s := s.setMediaTime r.setMediaTime info.mediaTimeStart info.mediaTimeEnd
  let s := s.setTime r.setTimeAgain timeStart timeEnd
  let p := { p with fFirstSampleDelivered := true }
  let s := s.setSyncPoint r.setSyncPoint (info.isSyncPoint ≠ 0)
  -- the result of SetSyncPoint is not kept: `hr` is still S_OK here
  if failed r.setSyncPoint then ⟨p, s, .ret S_OK⟩ else
  let s := s.setPreroll r.setPreroll false
  if failed r.setPreroll then ⟨p, s, .ret r.setPreroll⟩ else
  let s := s.setMediaType r.setMediaType p.mt
  if failed r.setMediaType then ⟨p, s, .ret r.setMediaType⟩ else
  -- the flag was set above, so the sample is never marked discontinuous
  let s := s.setDiscontinuity r.setDiscontinuity (!p.fFirstSampleDelivered)
  if failed r.setDiscontinuity then ⟨p, s, .ret r.setDiscontinuity⟩ else
  if 0 < info.actualDataLength then
    ⟨p, s, .readPayload info.actualDataLength.toNatClampNeg r.setDiscontinuity⟩
  else ⟨p, s, .ret r.setDiscontinuity⟩

/-- The pin latches the start time of the first sample. -/
theorem afterHeader_latch (p : SourceOutputPin) (s : MediaSample) (r : SetterResults)
    (info : MediaSampleInfo) : (afterHeader p s r info).pin =
      { p with
        rtStart := if p.fFirstSampleDelivered then p.rtStart else info.timeStart
        fFirstSampleDelivered := true } := by
  unfold afterHeader
  dsimp only
  cases p.fFirstSampleDelivered <;> simp only [if_true, if_false, Bool.false_eq_true] <;>
    (repeat' split) <;> rfl

/-- The connection members are not touched. -/
theorem afterHeader_pin (p : SourceOutputPin) (s : MediaSample) (r : SetterResults)
    (info : MediaSampleInfo) :
    (afterHeader p s r info).pin.hPipe = p.hPipe ∧
      (afterHeader p s r info).pin.bConnected = p.bConnected ∧
      (afterHeader p s r info).pin.bRunning = p.bRunning := by
  rw [afterHeader_latch]
  exact ⟨rfl, rfl, rfl⟩

structure FillEnv where
  connect : ConnectEnv
  setters : SetterResults

/-- What a FillBuffer call returns and leaves behind, with its two reads. -/
structure FillResult (ω : Type) where
  hr : HRESULT
  pin : SourceOutputPin
  sample : MediaSample
  calls : List OsCall
  world : ω
  header : Option ReadResult
  payload : Option (Nat × ReadResult)

variable {ω : Type} (rd : Nat → ω → ReadResult × ω)

/-- FillBuffer on a connected pin. A ReadFile into a NULL buffer fails and takes
    nothing from the pipe. -/
def fillConnected (r : SetterResults) (p : SourceOutputPin) (calls : List OsCall)
    (s : MediaSample) (w : ω) : FillResult ω :=
  let header := rd sizeofMediaSampleInfo w
  let calls := .readFile p.hPipe sizeofMediaSampleInfo :: calls
  if header.1.fSuccess = false then ⟨S_OK, p, s, calls, header.2, some header.1, none⟩ else
  let a := afterHeader p s r (MediaSampleInfo.codec.dec header.1.bytes)
  match a.next with
  | .ret hr => ⟨hr, a.pin, a.sample, calls, header.2, some header.1, none⟩
  | .readPayload n hr =>
    let payload := if r.getPointer then rd n header.2 else (.broken, header.2)
    ⟨hr, a.pin, a.sample.store payload.1.bytes, .readFile p.hPipe n :: calls, payload.2,
      some header.1, some (n, payload.1)⟩

/-- FillBuffer. `none`: ConnectToSinkPin has not ended yet. -/
def fillBuffer (env : FillEnv) (p : SourceOutputPin) (calls : List OsCall) (s : MediaSample)
    (w : ω) : Option (FillResult ω) :=
  if p.bRunning = false then
    let closed := disconnectPipe p calls
    some ⟨S_FALSE, closed.1, s, closed.2, w, none, none⟩
  else
    let connected := if p.bConnected then some (p, calls)
      else (connectToSinkPin env.connect p calls).map Prod.snd
    connected.map fun (p, calls) =>
      if p.bConnected then fillConnected rd env.setters p calls s w
      else ⟨S_OK, p, s, calls, w, none, none⟩

end SourceOutputPin

end VirtualCaptureStream
