import VirtualCaptureStream.SinkInputPin

/- When the pin has a writer thread. Receive starts one when `m_bWriteBuffering` is
   off, BreakConnect turns that off, waits and terminates the thread. `Sound` is the
   invariant of it: the handle and the flag agree with the thread, except that
   a failed CreateThread leaves the flag set without one. From there no call starts
   a writer again (`Abandoned`).

   Correspondence (C++ ↔ Lean):
     `m_bWriteBuffering`, `m_hThread2`          ↔ the fields of those names
     a BreakConnect in WaitForSingleObject      ↔ `stopping`
     CreateWriteBufferThread, called by Receive ↔ `Step.start`
     the while loop of the writer ends          ↔ `Step.exit`
     TerminateThread; `m_hThread2 = NULL`       ↔ `Step.stopped` -/
namespace VirtualCaptureStream

/-- What the pin keeps about its writer thread, and whether there is one. -/
structure WriterLife where
  bWriteBuffering : Bool
  hThread2 : ThreadHandle
  stopping : Bool
  running : Bool

namespace WriterLife

inductive Step : WriterLife → WriterLife → Prop where
  | keep (l : WriterLife) : Step l l
  | exit (l : WriterLife) : l.bWriteBuffering = false → Step l { l with running := false }
  | start (l : WriterLife) (thread : Bool) : l.bWriteBuffering = false → l.stopping = false →
      Step l ⟨true, if thread then .thread else .null, false, thread || l.running⟩
  | stop (l : WriterLife) : l.hThread2 ≠ .null → l.stopping = false →
      Step l { l with bWriteBuffering := false, stopping := true }
  | stopped (l : WriterLife) : l.stopping = true →
      Step l { l with hThread2 := .null, stopping := false, running := false }

/-- A writer runs under write buffering, or while a BreakConnect waits for it; write
    buffering without a writer means that CreateThread failed. -/
structure Sound (l : WriterLife) : Prop where
  running : l.running = true → l.bWriteBuffering = true ∨ l.stopping = true
  buffering : l.bWriteBuffering = true → l.stopping = false ∧
    ((l.hThread2 = .thread ∧ l.running = true) ∨ (l.hThread2 = .null ∧ l.running = false))

/-- Where Receive may start a writer there is none: an old one would need the flag, or a
    BreakConnect that waits for it. -/
theorem Sound.not_running {l : WriterLife} (hl : l.Sound) (hoff : l.bWriteBuffering = false)
    (hstop : l.stopping = false) : l.running = false := by
  cases hr : l.running with
  | false => rfl
  | true =>
    rcases hl.running hr with h | h
    · rw [h] at hoff
      cases hoff
    · rw [h] at hstop
      cases hstop

theorem Sound.step {l l' : WriterLife} (hl : l.Sound) (h : Step l l') : l'.Sound := by
  cases h with
  | keep => exact hl
  | exit hoff =>
    refine ⟨fun h => (by cases h), fun h => ?_⟩
    rw [show l.bWriteBuffering = true from h] at hoff
    cases hoff
  | start thread hoff hstop =>
    have hnone := hl.not_running hoff hstop
    refine ⟨fun _ => Or.inl rfl, fun _ => ⟨rfl, ?_⟩⟩
    cases thread with
    | true => exact Or.inl ⟨rfl, rfl⟩
    | false => exact Or.inr ⟨rfl, hnone⟩
  | stop => exact ⟨fun _ => Or.inr rfl, fun h => (by cases h)⟩
  | stopped hstop =>
    refine ⟨fun h => (by cases h), fun h => ?_⟩
    rw [(hl.buffering h).1] at hstop
    cases hstop

/-- Write buffering is on, and CreateThread gave no writer for it. -/
def Abandoned (l : WriterLife) : Prop := l.bWriteBuffering = true ∧ l.hThread2 = .null

theorem Abandoned.not_running {l : WriterLife} (ha : l.Abandoned) (hl : l.Sound) :
    l.running = false := by
  rcases (hl.buffering ha.1).2 with ⟨h, _⟩ | ⟨_, h⟩
  · rw [ha.2] at h
    cases h
  · exact h

/-- An abandoned pin stays abandoned: Receive does not start a writer, and
    BreakConnect does not turn write buffering off. -/
theorem Abandoned.step {l l' : WriterLife} (ha : l.Abandoned) (hl : l.Sound) (h : Step l l') :
    l'.Abandoned := by
  cases h with
  | keep => exact ha
  | exit _ => exact ha
  | start thread hoff _ =>
    rw [ha.1] at hoff
    cases hoff
  | stop hthread _ => exact absurd ha.2 hthread
  | stopped hstop =>
    rw [(hl.buffering ha.1).1] at hstop
    cases hstop

end WriterLife

namespace SinkSystem

def life (s : SinkSystem) : WriterLife where
  bWriteBuffering := s.pin.bWriteBuffering
  hThread2 := s.pin.hThread2
  stopping := s.lock = some .breakConnect
  running := s.writer.isSome

/-- No writer runs where the life says so. -/
theorem writer_of_life {s : SinkSystem} (h : s.life.running = false) : s.writer = none :=
  Option.isNone_iff_eq_none.mp (Option.isSome_eq_false_iff.mp h)

/-! The steps of the system are steps of that life. -/

theorem life_keep {s t : SinkSystem} (h : t.life = s.life) : WriterLife.Step s.life t.life :=
  h ▸ .keep s.life

theorem writerStep_life {s t : SinkSystem} {pc : WriterPc} (hpc : s.writer = some pc)
    (h : s.writerStep pc = some t) : WriterLife.Step s.life t.life := by
  cases pc with
  | outer =>
    simp only [writerStep] at h
    split at h
    · obtain rfl := Option.some.inj h
      exact life_keep (by simp [life, hpc])
    · rename_i hoff
      obtain rfl := Option.some.inj h
      exact .exit s.life (Bool.not_eq_true _ ▸ hoff)
  | inner | taken | latched =>
    simp only [writerStep] at h
    split at h <;> obtain rfl := Option.some.inj h <;> exact life_keep (by simp [life, hpc])
  | next =>
    simp only [writerStep, Option.ite_none_right_eq_some] at h
    obtain ⟨_, h⟩ := h
    split at h <;> obtain rfl := Option.some.inj h <;> exact life_keep (by simp [life, hpc])
  | header | payload =>
    obtain rfl := Option.some.inj h
    exact life_keep (by simp [life, write, hpc])
  | latching | sleeping =>
    obtain rfl := Option.some.inj h
    exact life_keep (by simp [life, hpc])

theorem listenerStep_life {s t : SinkSystem} {pc : ListenerPc} (h : s.listenerStep pc = some t) :
    t.life = s.life := by
  obtain ⟨_, _, _, _, rfl⟩ := listenerStep_writes h
  rfl

theorem stopStep_life {s t : SinkSystem} {timeout : Bool} {pc : StopPc}
    (h : s.stopStep timeout pc = some t) : t.life = s.life := by
  obtain ⟨_, _, _, _, _, lock, rfl, hlock⟩ := stopStep_writes h
  simp only [life, hlock]

/-- Receive leaves write buffering on; it turns it on with a new thread, or, where
    CreateThread fails, without one. -/
theorem receiveStep_life_eq {s t : SinkSystem} {env : SinkInputPin.ReceiveEnv}
    {sample : MediaSample} (hlock : s.lock = none) (h : s.receiveStep env sample = some t) :
    t.life = if s.pin.bWriteBuffering then s.life
      else ⟨true, if env.thread then .thread else .null, false,
        env.thread || s.writer.isSome⟩ := by
  have hlife : t.life = ⟨(s.pin.receive env s.received sample).pin.bWriteBuffering,
      (s.pin.receive env s.received sample).pin.hThread2, false,
      (s.pin.receive env s.received sample).startWriter || s.writer.isSome⟩ := by
    have hsome : ∀ b : Bool, (if b then some WriterPc.outer else s.writer).isSome =
        (b || s.writer.isSome) := by
      intro b
      cases b <;> rfl
    obtain ⟨u, rfl, rfl | rfl⟩ := receiveStep_cases h
    · simp only [life, hlock, hsome]
      rfl
    · simp only [life, hsome]
      rfl
  rw [hlife]
  simp only [SinkInputPin.receive_bWriteBuffering, SinkInputPin.receive_hThread2,
    SinkInputPin.receive_startWriter]
  cases hb : s.pin.bWriteBuffering with
  | false => rfl
  | true => simp [life, hb, hlock]

theorem receiveStep_life {s t : SinkSystem} {env : SinkInputPin.ReceiveEnv} {sample : MediaSample}
    (hlock : s.lock = none) (h : s.receiveStep env sample = some t) :
    WriterLife.Step s.life t.life := by
  have hlife := receiveStep_life_eq hlock h
  cases hb : s.pin.bWriteBuffering with
  | false =>
    rw [hlife, hb]
    exact .start s.life env.thread hb (by simp [life, hlock])
  | true =>
    rw [hb] at hlife
    exact life_keep hlife

/-- The actions that leave the writer thread and what the pin keeps about it alone. -/
def SinkAction.calm : SinkAction → Bool
  | .receive .. | .breakConnect | .breakWait _ | .writer => false
  | _ => true

/-- What a calm action keeps. -/
structure CalmStep (s : SinkSystem) (a : SinkAction) (t : SinkSystem) : Prop where
  life : t.life = s.life
  writer : t.writer = s.writer
  writeBuffer : t.pin.writeBuffer = s.pin.writeBuffer
  refPoint : a = .reset ∨
    (t.pin.rtRefPoint = s.pin.rtRefPoint ∧ t.pin.rtRefPoint2 = s.pin.rtRefPoint2)

theorem calm_step {s t : SinkSystem} {a : SinkAction} (ha : a.calm = true)
    (h : s.step a = some t) : CalmStep s a t := by
  cases a with
  | receive | breakConnect | breakWait | writer => cases ha
  | reset =>
    simp only [step, Option.ite_none_right_eq_some] at h
    obtain rfl := Option.some.inj h.2
    exact ⟨rfl, rfl, rfl, Or.inl rfl⟩
  | beginFlush | endFlush | clientOpen =>
    simp only [step, Option.ite_none_right_eq_some] at h
    obtain rfl := Option.some.inj h.2
    exact ⟨rfl, rfl, rfl, Or.inr ⟨rfl, rfl⟩⟩
  | endOfStream =>
    rcases endOfStream_cases h with rfl | ⟨_, rfl⟩ <;> exact ⟨rfl, rfl, rfl, Or.inr ⟨rfl, rfl⟩⟩
  | notifyAllocator a created thread =>
    simp only [step, Option.ite_none_right_eq_some] at h
    obtain rfl := Option.some.inj h.2
    unfold notifyAllocatorStep
    split <;> exact ⟨rfl, rfl, rfl, Or.inr ⟨rfl, rfl⟩⟩
  | stopServer timeout =>
    obtain ⟨pc, _, h⟩ := Option.bind_eq_some_iff.mp h
    have hlife := stopStep_life h
    obtain ⟨_, _, _, _, _, _, rfl, _⟩ := stopStep_writes h
    exact ⟨hlife, rfl, rfl, Or.inr ⟨rfl, rfl⟩⟩
  | listener =>
    obtain ⟨pc, _, h⟩ := Option.bind_eq_some_iff.mp h
    have hlife := listenerStep_life h
    obtain ⟨_, _, _, _, rfl⟩ := listenerStep_writes h
    exact ⟨hlife, rfl, rfl, Or.inr ⟨rfl, rfl⟩⟩
  | clientClose =>
    obtain ⟨c, _, rfl⟩ := Option.map_eq_some_iff.mp h
    exact ⟨rfl, rfl, rfl, Or.inr ⟨rfl, rfl⟩⟩

/-- Every step of the system is a step in the life of the writer. -/
theorem step_life {s t : SinkSystem} {a : SinkAction} (h : s.step a = some t) :
    WriterLife.Step s.life t.life := by
  cases a with
  | receive env sample =>
    simp only [step, Option.ite_none_right_eq_some] at h
    exact receiveStep_life h.1 h.2
  | breakConnect =>
    simp only [step, Option.ite_none_right_eq_some] at h
    obtain ⟨hlock, h⟩ := h
    split at h
    · obtain rfl := Option.some.inj h
      exact life_keep rfl
    · rename_i hthread
      obtain rfl := Option.some.inj h
      exact .stop s.life hthread (by simp [life, hlock])
  | breakWait timeout =>
    simp only [step, Option.ite_none_right_eq_some] at h
    obtain ⟨⟨hlock, _⟩, h⟩ := h
    obtain rfl := Option.some.inj h
    obtain ⟨cut, hcut⟩ := terminateWriter_writes s
    rw [hcut]
    exact .stopped s.life (by simp [life, hlock])
  | writer =>
    obtain ⟨pc, hpc, h⟩ := Option.bind_eq_some_iff.mp h
    exact writerStep_life hpc h
  | reset | beginFlush | endFlush | endOfStream | notifyAllocator | stopServer | listener |
      clientOpen | clientClose => exact life_keep (calm_step rfl h).life

theorem life_new (hThread2 : ThreadHandle) (rtRefPoint2 : Int64) :
    (new hThread2 rtRefPoint2).life.Sound :=
  ⟨fun h => (by cases h), fun h => (by cases h)⟩

end SinkSystem

end VirtualCaptureStream
