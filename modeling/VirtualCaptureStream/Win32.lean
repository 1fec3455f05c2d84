import Mathlib.Data.List.Basic

/- The parts of the Win32 and COM interfaces the filters rest on: result codes,
   handles, wide strings and message-mode reads. A message-mode read takes one
   message at most: a shorter message is a short read, a longer one fails with
   ERROR_MORE_DATA and leaves its remainder for the next read. -/
namespace VirtualCaptureStream

abbrev HRESULT := Int32

def S_OK : HRESULT := 0
def S_FALSE : HRESULT := 1
def E_POINTER : HRESULT := Int32.ofBitVec 0x80004003#32
def E_FAIL : HRESULT := Int32.ofBitVec 0x80004005#32
def E_OUTOFMEMORY : HRESULT := Int32.ofBitVec 0x8007000E#32
def E_INVALIDARG : HRESULT := Int32.ofBitVec 0x80070057#32
def VFW_E_INVALIDMEDIATYPE : HRESULT := Int32.ofBitVec 0x80040200#32
def VFW_E_RUNTIME_ERROR : HRESULT := Int32.ofBitVec 0x8004020B#32
def VFW_E_NOT_STOPPED : HRESULT := Int32.ofBitVec 0x80040224#32
def VFW_E_WRONG_STATE : HRESULT := Int32.ofBitVec 0x80040227#32

/-- The `FAILED` macro. -/
def failed (hr : HRESULT) : Bool := decide (hr < 0)

@[simp] theorem not_failed_S_OK : failed S_OK = false := by decide

/-- A handle: NULL, INVALID_HANDLE_VALUE, or the handle of one opening. Openings
    are numbered, so a handle value the system hands out again is a new handle. -/
inductive HANDLE where
  | null
  | invalid
  | handle (opening : Nat)
  deriving DecidableEq, Repr

/-- FILTER_STATE. -/
inductive FilterState where
  | stopped
  | paused
  | running
  deriving DecidableEq

abbrev WChar := UInt16
abbrev WStr := List WChar

/-- A wide string literal. -/
def wide (s : String) : WStr := s.toList.map (fun c => UInt16.ofNat c.toNat)

def MAX_PATH : Nat := 260

/-- The content of a pipe message. -/
abbrev Msg := List UInt8

/-- What ReadFile reports: its result, the bytes it stored (`cbRead` of them), and
    whether GetLastError is ERROR_MORE_DATA. -/
structure ReadResult where
  fSuccess : Bool
  bytes : List UInt8
  moreData : Bool
  deriving DecidableEq, Repr

def ReadResult.ok (bytes : List UInt8) : ReadResult := ⟨true, bytes, false⟩

/-- A read that stores nothing: a broken pipe, a bad handle, a NULL buffer. -/
def ReadResult.broken : ReadResult := ⟨false, [], false⟩

/-- ReadFile of at most `n` bytes from a message-mode pipe holding `msgs`; once
    they are used up the pipe is broken. -/
def readMessage (n : Nat) : List Msg → ReadResult × List Msg
  | [] => (.broken, [])
  | m :: msgs =>
    if m.length ≤ n then (.ok m, msgs)
    else (⟨false, m.take n, true⟩, m.drop n :: msgs)

theorem readMessage_fits {n : Nat} {m : Msg} {msgs : List Msg} (h : m.length ≤ n) :
    readMessage n (m :: msgs) = (.ok m, msgs) := by
  simp [readMessage, h]

end VirtualCaptureStream
