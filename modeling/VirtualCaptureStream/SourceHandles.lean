import VirtualCaptureStream.Lib.Transition
import VirtualCaptureStream.SourceOutputPin

/- The connection state of the source pin over runs of its operations, read off
   the log of its pipe calls. `m_hPipe` and `m_bConnected` encode one state and are
   updated in different functions: `Consistent` says when they agree with each
   other and with the handles that are really open, and `consistent_step` says for
   each operation exactly when it keeps them so. Two paths do not: DisconnectPipe
   leaves `m_bConnected` set, and a failed open leaves INVALID_HANDLE_VALUE, which
   is not NULL, in `m_hPipe`. -/
namespace VirtualCaptureStream.SourceOutputPin

/-! Reading the log (newest call first). -/

/-- Opening `n` was returned by CreateFile and is not yet closed. -/
def isOpen : List OsCall → Nat → Bool
  | [], _ => false
  | .createFile _ h :: cs, n => h == .handle n || isOpen cs n
  | .closeHandle h :: cs, n => h != .handle n && isOpen cs n
  | .readFile _ _ :: cs, n => isOpen cs n

/-- Opening `n` was returned by CreateFile at some time. -/
def wasOpened : List OsCall → Nat → Bool
  | [], _ => false
  | .createFile _ h :: cs, n => h == .handle n || wasOpened cs n
  | _ :: cs, n => wasOpened cs n

/-- How often CloseHandle was applied to opening `n`. -/
def closes : List OsCall → Nat → Nat
  | [], _ => 0
  | .closeHandle h :: cs, n => (if h = .handle n then 1 else 0) + closes cs n
  | _ :: cs, n => closes cs n

/-- The handle opened last, unless a CloseHandle came after it. -/
def current : List OsCall → HANDLE
  | [] => .null
  | .createFile _ (.handle n) :: _ => .handle n
  | .closeHandle _ :: _ => .null
  | _ :: cs => current cs

/-- Opening `n` is open, and nothing was closed since it was opened. -/
def Live (cs : List OsCall) (n : Nat) : Prop := isOpen cs n = true ∧ current cs = .handle n

/-- CloseHandle only on an open handle; ReadFile only on one opened after the last
    CloseHandle. -/
def Safe : List OsCall → Prop
  | [] => True
  | .createFile _ _ :: cs => Safe cs
  | .closeHandle h :: cs => (∃ n, h = .handle n ∧ isOpen cs n = true) ∧ Safe cs
  | .readFile h _ :: cs => (∃ n, h = .handle n ∧ Live cs n) ∧ Safe cs

/-- An opened handle is closed once, and not before it is done with. -/
def ClosedOnce (cs : List OsCall) : Prop :=
  ∀ n, wasOpened cs n = true → closes cs n = if isOpen cs n then 0 else 1

theorem isOpen_wasOpened {cs : List OsCall} {n : Nat} (h : isOpen cs n = true) :
    wasOpened cs n = true := by
  induction cs with
  | nil => cases h
  | cons c cs ih =>
    cases c with
    | createFile path hd =>
      simp only [isOpen, Bool.or_eq_true] at h
      simp only [wasOpened, Bool.or_eq_true]
      exact h.imp_right ih
    | closeHandle hd =>
      simp only [isOpen, Bool.and_eq_true] at h
      exact ih h.2
    | readFile hd k => exact ih h

/-- A handle that was never opened was never closed. -/
theorem closes_of_not_opened {cs : List OsCall} {n : Nat} (hs : Safe cs)
    (hn : wasOpened cs n = false) : closes cs n = 0 := by
  induction cs with
  | nil => rfl
  | cons c cs ih =>
    cases c with
    | createFile path hd =>
      simp only [wasOpened, Bool.or_eq_false_iff] at hn
      exact ih hs hn.2
    | closeHandle hd =>
      obtain ⟨⟨m, rfl, hm⟩, hs⟩ := hs
      have hopened : wasOpened cs m = true := isOpen_wasOpened hm
      have hnever : wasOpened cs n = false := hn
      have hne : m ≠ n := by
        intro e
        subst e
        rw [hopened] at hnever
        cases hnever
      simp only [closes, HANDLE.handle.injEq, hne, if_false, ih hs hnever]
    | readFile hd k => exact ih hs.2 hn

/-! The pin and its log. -/

structure PinState where
  pin : SourceOutputPin
  calls : List OsCall

/-- The two members agree with the log: `m_hPipe` is NULL or the open handle,
    `m_bConnected` only with an open handle, every close and read in the past was
    on an open handle, and no handle leaks. -/
structure Consistent (s : PinState) : Prop where
  handle : s.pin.hPipe = .null ∨ ∃ n, s.pin.hPipe = .handle n ∧ Live s.calls n
  connected : s.pin.bConnected = true → ∃ n, s.pin.hPipe = .handle n ∧ Live s.calls n
  safe : Safe s.calls
  once : ClosedOnce s.calls
  held : ∀ n, isOpen s.calls n = true → s.pin.hPipe = .handle n

/-- A log with nothing open. -/
structure Idle (cs : List OsCall) : Prop where
  safe : Safe cs
  once : ClosedOnce cs
  none_open : ∀ n, isOpen cs n = false

/-- A log in which `n` alone is open. -/
structure Holding (cs : List OsCall) (n : Nat) : Prop where
  safe : Safe cs
  once : ClosedOnce cs
  live : Live cs n
  only : ∀ m, isOpen cs m = true → m = n

theorem Consistent.of_idle {p : SourceOutputPin} {cs : List OsCall} (h : Idle cs)
    (hp : p.hPipe = .null) (hc : p.bConnected = false) : Consistent ⟨p, cs⟩ := by
  refine ⟨Or.inl hp, ?_, h.safe, h.once, ?_⟩
  · intro hc'
    rw [hc] at hc'
    cases hc'
  · intro n hn
    rw [h.none_open n] at hn
    cases hn

theorem Consistent.of_holding {p : SourceOutputPin} {cs : List OsCall} {n : Nat}
    (h : Holding cs n) (hp : p.hPipe = .handle n) : Consistent ⟨p, cs⟩ :=
  ⟨Or.inr ⟨n, hp, h.live⟩, fun _ => ⟨n, hp, h.live⟩, h.safe, h.once,
    fun m hm => by rw [h.only m hm]; exact hp⟩

theorem Consistent.idle {s : PinState} (h : Consistent s) (hp : s.pin.hPipe = .null) :
    Idle s.calls := by
  refine ⟨h.safe, h.once, fun n => ?_⟩
  cases hn : isOpen s.calls n
  · rfl
  · have := h.held n hn
    rw [hp] at this
    cases this

theorem Consistent.holding {s : PinState} {n : Nat} (h : Consistent s)
    (hp : s.pin.hPipe = .handle n) (hlive : Live s.calls n) : Holding s.calls n := by
  refine ⟨h.safe, h.once, hlive, fun m hm => ?_⟩
  have := h.held m hm
  rw [hp] at this
  exact (HANDLE.handle.inj this).symm

/-! What each call does to the log. -/

/-- Closing the one open handle. -/
theorem Holding.close {cs : List OsCall} {n : Nat} (h : Holding cs n) :
    Idle (.closeHandle (.handle n) :: cs) := by
  have hopen : ∀ m, isOpen (.closeHandle (.handle n) :: cs) m = false := by
    intro m
    simp only [isOpen]
    by_cases hm : m = n
    · subst hm; simp
    · cases hmo : isOpen cs m
      · simp
      · exact absurd (h.only m hmo) hm
  refine ⟨⟨⟨n, rfl, h.live.1⟩, h.safe⟩, ?_, hopen⟩
  intro m hm
  simp only [wasOpened] at hm
  rw [hopen m]
  have hbefore := h.once m hm
  simp only [closes, HANDLE.handle.injEq]
  by_cases hmn : n = m
  · subst hmn
    rw [hbefore, h.live.1]
    simp
  · have hclosed : isOpen cs m = false := by
      cases hmo : isOpen cs m
      · rfl
      · exact absurd (h.only m hmo).symm hmn
    rw [hbefore, hclosed]
    simp [hmn]

/-- A CreateFile that fails. -/
theorem Idle.failed {cs : List OsCall} (h : Idle cs) (path : WStr) :
    Idle (.createFile path .invalid :: cs) := by
  refine ⟨h.safe, ?_, ?_⟩
  · intro n hn
    have hn' : wasOpened cs n = true := by simpa [wasOpened] using hn
    simpa [closes, isOpen] using h.once n hn'
  · intro n
    simpa [isOpen] using h.none_open n

/-- A CreateFile that returns a handle not handed out before. -/
theorem Idle.opened {cs : List OsCall} (h : Idle cs) (path : WStr) {n : Nat}
    (hfresh : wasOpened cs n = false) : Holding (.createFile path (.handle n) :: cs) n := by
  refine ⟨h.safe, ?_, ⟨by simp [isOpen], rfl⟩, ?_⟩
  · intro m hm
    by_cases hmn : n = m
    · subst hmn
      simp [closes, isOpen, closes_of_not_opened h.safe hfresh]
    · have hm' : wasOpened cs m = true := by
        simpa [wasOpened, hmn] using hm
      simpa [closes, isOpen, hmn] using h.once m hm'
  · intro m hm
    simp only [isOpen, h.none_open m, Bool.or_false, beq_iff_eq, HANDLE.handle.injEq] at hm
    exact hm.symm

/-- A ReadFile on the open handle. -/
theorem Holding.read {cs : List OsCall} {n : Nat} (h : Holding cs n) (k : Nat) :
    Holding (.readFile (.handle n) k :: cs) n :=
  ⟨⟨⟨n, rfl, h.live⟩, h.safe⟩, h.once, h.live, h.only⟩

/-! What each function does to pin and log. -/

theorem disconnectPipe_idle {s : PinState} (h : Consistent s) :
    (disconnectPipe s.pin s.calls).1 = { s.pin with hPipe := .null } ∧
      Idle (disconnectPipe s.pin s.calls).2 := by
  rcases h.handle with hp | ⟨n, hp, hlive⟩
  · have hsame : disconnectPipe s.pin s.calls = (s.pin, s.calls) := by simp [disconnectPipe, hp]
    rw [hsame]
    refine ⟨?_, h.idle hp⟩
    show s.pin = { s.pin with hPipe := .null }
    rw [← hp]
  · have hclose : disconnectPipe s.pin s.calls =
        ({ s.pin with hPipe := .null }, .closeHandle (.handle n) :: s.calls) := by
      simp [disconnectPipe, hp]
    rw [hclose]
    exact ⟨rfl, (h.holding hp hlive).close⟩

/-- The openings an environment hands out are new ones. -/
def fresh (cs : List OsCall) (attempts : List OpenAttempt) : Bool :=
  attempts.all fun a => match a with
    | .opened n => !wasOpened cs n
    | _ => true

/-- A CreateFile that fails uses up no handle. -/
theorem wasOpened_failed (path : WStr) (cs : List OsCall) (n : Nat) :
    wasOpened (.createFile path .invalid :: cs) n = wasOpened cs n := by
  simp [wasOpened]

theorem fresh_failed {cs : List OsCall} {path : WStr} {attempts : List OpenAttempt}
    (h : fresh cs attempts = true) : fresh (.createFile path .invalid :: cs) attempts = true := by
  simp only [fresh, wasOpened_failed]
  exact h

theorem openLoop_ledger {path : WStr} : ∀ {attempts : List OpenAttempt} {cs cs' : List OsCall}
    {h : HANDLE} {ok : Bool}, Idle cs → fresh cs attempts = true →
    openLoop path attempts cs = some (h, ok, cs') →
    (opens attempts = true ∧ ok = true ∧ ∃ n, h = .handle n ∧ Holding cs' n) ∨
      (opens attempts = false ∧ ok = false ∧ h = .invalid ∧ Idle cs')
  | [], _, _, _, _, _, _, hloop => by simp [openLoop] at hloop
  | .opened n :: rest, cs, _, _, _, hidle, hfresh, hloop => by
    simp only [openLoop, Option.some.injEq, Prod.mk.injEq] at hloop
    obtain ⟨rfl, rfl, rfl⟩ := hloop
    have hn : wasOpened cs n = false := by
      simp only [fresh, List.all_cons, Bool.and_eq_true, Bool.not_eq_true'] at hfresh
      exact hfresh.1
    exact Or.inl ⟨rfl, rfl, n, rfl, hidle.opened path hn⟩
  | .busy true :: rest, cs, _, _, _, hidle, hfresh, hloop => by
    have hrest : fresh cs rest = true := by
      simpa only [fresh, List.all_cons, Bool.true_and] using hfresh
    simp only [openLoop] at hloop
    simp only [opens]
    exact openLoop_ledger (hidle.failed path) (fresh_failed hrest) hloop
  | .busy false :: rest, cs, _, _, _, hidle, _, hloop => by
    simp only [openLoop, Option.some.injEq, Prod.mk.injEq] at hloop
    obtain ⟨rfl, rfl, rfl⟩ := hloop
    exact Or.inr ⟨rfl, rfl, rfl, hidle.failed path⟩
  | .error :: rest, cs, _, _, _, hidle, _, hloop => by
    simp only [openLoop, Option.some.injEq, Prod.mk.injEq] at hloop
    obtain ⟨rfl, rfl, rfl⟩ := hloop
    exact Or.inr ⟨rfl, rfl, rfl, hidle.failed path⟩

theorem fresh_disconnectPipe {p : SourceOutputPin} {cs : List OsCall} {attempts : List OpenAttempt}
    (h : fresh cs attempts = true) : fresh (disconnectPipe p cs).2 attempts = true := by
  unfold disconnectPipe
  split
  · simpa [fresh, wasOpened] using h
  · exact h

/-- ConnectToSinkPin leaves the members consistent exactly when its loop opens the
    pipe; `m_bConnected` is then the outcome of SetNamedPipeHandleState. -/
theorem connectToSinkPin_cases {s : PinState} {env : ConnectEnv} {hr : HRESULT}
    {p : SourceOutputPin} {cs : List OsCall} (h : Consistent s)
    (hfresh : fresh s.calls env.attempts = true)
    (hconn : connectToSinkPin env s.pin s.calls = some (hr, p, cs)) :
    (opens env.attempts = true ∧ p.bConnected = env.modeSet ∧
        ∃ n, p.hPipe = .handle n ∧ Holding cs n) ∨
      (opens env.attempts = false ∧ p.bConnected = false ∧ p.hPipe = .invalid) := by
  obtain ⟨hpin, hidle⟩ := disconnectPipe_idle h
  simp only [connectToSinkPin, Option.map_eq_some_iff] at hconn
  obtain ⟨⟨hd, ok, cs'⟩, hloop, hres⟩ := hconn
  rcases openLoop_ledger hidle (fresh_disconnectPipe hfresh) hloop with
    ⟨ho, rfl, n, rfl, hold⟩ | ⟨ho, rfl, rfl, _⟩
  · cases hmode : env.modeSet <;> simp [hmode] at hres <;> obtain ⟨_, rfl, rfl⟩ := hres
    · exact Or.inl ⟨ho, rfl, n, rfl, hold⟩
    · exact Or.inl ⟨ho, rfl, n, rfl, hold⟩
  · simp at hres
    obtain ⟨_, rfl, rfl⟩ := hres
    exact Or.inr ⟨ho, rfl, rfl⟩

/-- On a connected pin FillBuffer only adds reads on the open handle. -/
theorem fillConnected_holding {ω : Type} (rd : Nat → ω → ReadResult × ω) (r : SetterResults)
    {p : SourceOutputPin} {cs : List OsCall} (s : MediaSample) (w : ω) {n : Nat}
    (h : Holding cs n) (hp : p.hPipe = .handle n) :
    (fillConnected rd r p cs s w).pin.hPipe = .handle n ∧
      (fillConnected rd r p cs s w).pin.bConnected = p.bConnected ∧
      Holding (fillConnected rd r p cs s w).calls n := by
  have hread : ∀ k, Holding (.readFile p.hPipe k :: cs) n := by
    intro k
    rw [hp]
    exact h.read k
  have hread₂ : ∀ j k, Holding (.readFile p.hPipe j :: .readFile p.hPipe k :: cs) n := by
    intro j k
    have := (hread k).read j
    rwa [← hp] at this
  unfold fillConnected
  dsimp only
  split
  · exact ⟨hp, rfl, hread _⟩
  · obtain ⟨hh, hc, _⟩ := afterHeader_pin p s r
      (MediaSampleInfo.codec.dec (rd sizeofMediaSampleInfo w).1.bytes)
    split
    · exact ⟨hh.trans hp, hc, hread _⟩
    · exact ⟨hh.trans hp, hc, hread₂ _ _⟩

/-! Runs. -/

/-- What happens to the pin; a FillBuffer call with the outcomes of its reads. -/
inductive PinAction where
  | onThreadStartPlay
  | onThreadDestroy
  | reset
  | stop
  | connectToSinkPin (env : ConnectEnv)
  | disconnectPipe
  | fillBuffer (env : FillEnv) (sample : MediaSample) (reads : List ReadResult)

/-- A pipe that answers with the given outcomes, then is broken. -/
def scripted (_ : Nat) : List ReadResult → ReadResult × List ReadResult
  | [] => (.broken, [])
  | r :: rs => (r, rs)

def pinStep (s : PinState) : PinAction → Option PinState
  | .onThreadStartPlay => some { s with pin := s.pin.onThreadStartPlay }
  | .onThreadDestroy => some { s with pin := s.pin.onThreadDestroy }
  | .reset => some { s with pin := s.pin.reset }
  | .stop => some { s with pin := s.pin.stop }
  | .connectToSinkPin env =>
    if fresh s.calls env.attempts then
      (SourceOutputPin.connectToSinkPin env s.pin s.calls).map fun r => ⟨r.2.1, r.2.2⟩
    else none
  | .disconnectPipe =>
    let closed := SourceOutputPin.disconnectPipe s.pin s.calls
    some ⟨closed.1, closed.2⟩
  | .fillBuffer env sample reads =>
    if fresh s.calls env.connect.attempts then
      (SourceOutputPin.fillBuffer scripted env s.pin s.calls sample reads).map fun r =>
        ⟨r.pin, r.calls⟩
    else none

/-- The pin is not closed while its connected flag is set, and a connection that
    is tried opens the pipe. -/
def Keeps (s : PinState) : PinAction → Prop
  | .connectToSinkPin env => opens env.attempts = true
  | .disconnectPipe => s.pin.bConnected = false
  | .fillBuffer env _ _ =>
    if s.pin.bRunning then s.pin.bConnected = true ∨ opens env.connect.attempts = true
    else s.pin.bConnected = false
  | _ => True

theorem Consistent.of_members {s : PinState} {p : SourceOutputPin} (h : Consistent s)
    (hp : p.hPipe = s.pin.hPipe) (hc : p.bConnected = s.pin.bConnected) :
    Consistent ⟨p, s.calls⟩ :=
  ⟨by rw [hp]; exact h.handle, by rw [hp, hc]; exact h.connected, h.safe, h.once,
    by rw [hp]; exact h.held⟩

theorem not_consistent_invalid {p : SourceOutputPin} {cs : List OsCall} (hp : p.hPipe = .invalid) :
    ¬ Consistent ⟨p, cs⟩ := by
  intro h
  rcases h.handle with hnull | ⟨n, hn, _⟩
  · rw [hp] at hnull
    cases hnull
  · rw [hp] at hn
    cases hn

/-- Closing keeps the members consistent exactly when the flag was not set. -/
theorem consistent_disconnectPipe {s : PinState} (h : Consistent s) :
    Consistent ⟨(disconnectPipe s.pin s.calls).1, (disconnectPipe s.pin s.calls).2⟩ ↔
      s.pin.bConnected = false := by
  obtain ⟨hpin, hidle⟩ := disconnectPipe_idle h
  have hnull : (disconnectPipe s.pin s.calls).1.hPipe = .null := by rw [hpin]
  have hflag : (disconnectPipe s.pin s.calls).1.bConnected = s.pin.bConnected := by rw [hpin]
  refine ⟨fun hafter => ?_, fun hc => Consistent.of_idle hidle hnull (hflag.trans hc)⟩
  cases hc : s.pin.bConnected
  · rfl
  · obtain ⟨n, hn, _⟩ := hafter.connected (hflag.trans hc)
    rw [hnull] at hn
    cases hn

/-- FillBuffer on a running pin: consistent exactly when it was connected or its
    connection opens the pipe. -/
theorem consistent_fillBuffer {s : PinState} {env : FillEnv} {sample : MediaSample}
    {reads : List ReadResult} {r : FillResult (List ReadResult)} (h : Consistent s)
    (hrun : s.pin.bRunning = true) (hfresh : fresh s.calls env.connect.attempts = true)
    (hfill : fillBuffer scripted env s.pin s.calls sample reads = some r) :
    Consistent ⟨r.pin, r.calls⟩ ↔
      (s.pin.bConnected = true ∨ opens env.connect.attempts = true) := by
  simp only [fillBuffer, hrun, Bool.true_eq_false, if_false, Option.map_eq_some_iff] at hfill
  obtain ⟨⟨p, cs⟩, hconn, hres⟩ := hfill
  -- a connected pin that holds `n` only reads
  have reads_on : ∀ n, p.hPipe = .handle n → Holding cs n → Consistent ⟨r.pin, r.calls⟩ := by
    intro n hp hold
    subst hres
    dsimp only
    split
    · obtain ⟨hh, _, hcalls⟩ := fillConnected_holding scripted env.setters sample reads
        hold hp
      exact Consistent.of_holding hcalls hh
    · exact Consistent.of_holding hold hp
  by_cases hc : s.pin.bConnected = true
  · simp only [hc, if_true, Option.some.injEq, Prod.mk.injEq] at hconn
    obtain ⟨rfl, rfl⟩ := hconn
    obtain ⟨n, hp, hlive⟩ := h.connected hc
    exact iff_of_true (reads_on n hp (h.holding hp hlive)) (Or.inl hc)
  · rw [if_neg hc, Option.map_eq_some_iff] at hconn
    obtain ⟨⟨hr, p', cs'⟩, hconn, heq⟩ := hconn
    obtain ⟨rfl, rfl⟩ := Prod.mk.inj heq
    rcases connectToSinkPin_cases h hfresh hconn with ⟨ho, _, n, hp, hold⟩ | ⟨ho, hflag, hp⟩
    · exact iff_of_true (reads_on n hp hold) (Or.inr ho)
    · -- INVALID_HANDLE_VALUE is left behind
      refine iff_of_false ?_ ?_
      · subst hres
        simp only [hflag, Bool.false_eq_true, if_false]
        exact not_consistent_invalid hp
      · intro hor
        rcases hor with hc' | ho'
        · exact hc hc'
        · rw [ho] at ho'
          cases ho'

/-- From a consistent state an action leads to a consistent state exactly when it
    meets `Keeps`. -/
theorem consistent_step (s : PinState) (a : PinAction) (t : PinState) (h : Consistent s)
    (hstep : pinStep s a = some t) : Consistent t ↔ Keeps s a := by
  cases a with
  | onThreadStartPlay | onThreadDestroy | reset | stop =>
    cases hstep
    exact iff_of_true (h.of_members rfl rfl) trivial
  | connectToSinkPin env =>
    simp only [pinStep, Option.ite_none_right_eq_some, Option.map_eq_some_iff] at hstep
    obtain ⟨hfresh, ⟨hr, p, cs⟩, hconn, rfl⟩ := hstep
    rcases connectToSinkPin_cases h hfresh hconn with ⟨ho, _, n, hp, hold⟩ | ⟨ho, _, hp⟩
    · exact iff_of_true (Consistent.of_holding hold hp) ho
    · refine iff_of_false (not_consistent_invalid hp) ?_
      show ¬ opens env.attempts = true
      rw [ho]
      exact Bool.false_ne_true
  | disconnectPipe =>
    cases hstep
    exact consistent_disconnectPipe h
  | fillBuffer env sample reads =>
    simp only [pinStep, Option.ite_none_right_eq_some, Option.map_eq_some_iff] at hstep
    obtain ⟨hfresh, r, hfill, rfl⟩ := hstep
    by_cases hrun : s.pin.bRunning = true
    · simp only [Keeps, hrun, if_true]
      exact consistent_fillBuffer h hrun hfresh hfill
    · rw [Bool.not_eq_true] at hrun
      simp only [fillBuffer, hrun, if_true, Option.some.injEq] at hfill
      subst hfill
      simp only [Keeps, hrun, Bool.false_eq_true, if_false]
      exact consistent_disconnectPipe h

/-- A pin as the filter creates it, with no pipe call made. -/
def created (pName : WStr) (mt : MediaType) (allocProperties : AllocatorProperties)
    (rtStart : Int64) (bRunning : Bool) : PinState :=
  ⟨new pName mt allocProperties rtStart bRunning, []⟩

theorem consistent_created (pName : WStr) (mt : MediaType) (allocProperties : AllocatorProperties)
    (rtStart : Int64) (bRunning : Bool) :
    Consistent (created pName mt allocProperties rtStart bRunning) := by
  have hidle : Idle [] := by
    refine ⟨trivial, ?_, fun n => rfl⟩
    intro n hn
    cases hn
  exact Consistent.of_idle hidle rfl rfl

/-- **The connection state over runs**: from its creation on, the pin's handle and
    flag stay consistent through a run exactly when every action of it meets
    `Keeps`. -/
theorem connection_state_consistent_iff (pName : WStr) (mt : MediaType)
    (allocProperties : AllocatorProperties) (rtStart : Int64) (bRunning : Bool)
    (as : List PinAction) (u : PinState)
    (hrun : Transition.run pinStep (created pName mt allocProperties rtStart bRunning) as
      = some u) :
    Transition.Always pinStep Consistent (created pName mt allocProperties rtStart bRunning) as ↔
      Transition.Meets pinStep Keeps (created pName mt allocProperties rtStart bRunning) as :=
  Transition.always_iff_meets consistent_step as _ u
    (consistent_created pName mt allocProperties rtStart bRunning) hrun

/-! A stop and a restart. -/

/-- A FillBuffer call that opens pipe 0 if it connects, and whose reads fail. -/
def fillOnce : PinAction :=
  .fillBuffer ⟨⟨[.opened 0], true⟩, .allOk⟩ emptySample []

/-- Start, fill, stop, fill (which closes the pipe), start, fill. -/
def restart : List PinAction :=
  [.onThreadStartPlay, fillOnce, .stop, .fillBuffer ⟨⟨[.opened 1], true⟩, .allOk⟩ emptySample [],
    .onThreadStartPlay, .fillBuffer ⟨⟨[.opened 1], true⟩, .allOk⟩ emptySample []]

/-- A ReadFile on NULL is not a safe call. -/
theorem not_safe_read_null {cs : List OsCall} {n : Nat}
    (hcs : cs.head? = some (.readFile .null n)) : ¬ Safe cs := by
  intro h
  cases cs with
  | nil => cases hcs
  | cons c cs =>
    obtain rfl := Option.some.inj hcs
    obtain ⟨⟨m, hm, _⟩, _⟩ := h
    cases hm

/-- After a stop that closed the pipe the next FillBuffer does not reconnect: it
    reads from a NULL handle. -/
theorem restart_reads_null :
    (∃ u, Transition.run pinStep (created [] bareVideo ⟨1, 1, 1, 0⟩ 0 false) restart = some u ∧
      u.calls.head? = some (.readFile .null sizeofMediaSampleInfo)) ∧
    ¬ Transition.Always pinStep Consistent (created [] bareVideo ⟨1, 1, 1, 0⟩ 0 false) restart := by
  have hread : ∃ u, Transition.run pinStep (created [] bareVideo ⟨1, 1, 1, 0⟩ 0 false) restart
      = some u ∧ u.calls.head? = some (.readFile .null sizeofMediaSampleInfo) := ⟨_, rfl, rfl⟩
  refine ⟨hread, fun h => ?_⟩
  obtain ⟨u, hrun, hcall⟩ := hread
  have hu := Transition.always_iff_prefix.mp h restart (List.prefix_refl _) u hrun
  exact not_safe_read_null hcall hu.safe

/-- Start, fill, stop: the pin still holds its pipe. -/
theorem connection_state_consistent_start_fill_stop :
    Transition.Always pinStep Consistent (created [] bareVideo ⟨1, 1, 1, 0⟩ 0 false)
      [.onThreadStartPlay, fillOnce, .stop] := by
  refine (connection_state_consistent_iff [] bareVideo ⟨1, 1, 1, 0⟩ 0 false _ _ rfl).mpr ?_
  refine ⟨trivial, fun t ht => ?_⟩
  obtain rfl := Option.some.inj ht
  exact ⟨Or.inr rfl, fun t _ => ⟨trivial, fun _ _ => trivial⟩⟩

end VirtualCaptureStream.SourceOutputPin
