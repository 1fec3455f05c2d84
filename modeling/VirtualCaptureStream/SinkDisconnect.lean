import VirtualCaptureStream.SinkWriterLife

/- Disconnect against the writer. CBasePin::Disconnect and a ReceiveConnection that
   fails call BreakConnect with the pin lock held; it turns `m_bWriteBuffering` off
   and waits for the writer. The writer tests that flag before it takes the same
   lock in GetNextWriteBufferSample: one that has passed the test waits for the lock
   while BreakConnect waits for it. `no_deadlock_iff` says that nothing else can
   keep the writer from ending by itself. -/
namespace VirtualCaptureStream

namespace SinkSystem

open Transition

/-- One step of the writer and of nobody else. -/
def writerAlone (s : SinkSystem) (_ : Unit) : Option SinkSystem := s.step .writer

/-- While BreakConnect waits for the writer, the writer does not wait for the lock
    BreakConnect holds, and its own steps bring it to its end. -/
structure NoDeadlock (s : SinkSystem) : Prop where
  no_cycle : s.lock = some .breakConnect → s.writer ≠ some .next
  exits : s.lock = some .breakConnect → ∃ t, Reach writerAlone s t ∧ t.writer = none

/-- BreakConnect, where there is a writer to wait for, does not come in between the
    writer's test of `m_bWriteBuffering` and its taking the lock. -/
def OutsideTest (s : SinkSystem) : SinkAction → Prop
  | .breakConnect => s.pin.hThread2 ≠ .null → s.writer ≠ some .next
  | _ => True

/-! The writer ends by itself. -/

/-- A BreakConnect waits, and the writer is past the lock or has yet to test the
    flag, which is off. -/
structure Leaving (s : SinkSystem) : Prop where
  lock : s.lock = some .breakConnect
  off : s.pin.bWriteBuffering = false
  writer : s.writer ≠ some .next

/-- The steps a writer has still to do when the flag is off. -/
def exitRank : Option WriterPc → Nat
  | none => 0
  | some .outer => 1
  | some .sleeping => 2
  | some .inner => 3
  | some (.payload _ _ _) => 4
  | some (.header _ _) => 5
  | some (.latched _) => 6
  | some (.latching _) => 7
  | some (.taken _) => 8
  | some .next => 9

theorem Leaving.step {s : SinkSystem} (h : Leaving s) (hrank : exitRank s.writer ≠ 0) :
    ∃ t, s.step .writer = some t ∧ Leaving t ∧ exitRank t.writer < exitRank s.writer := by
  cases hpc : s.writer with
  | none => simp [hpc, exitRank] at hrank
  | some pc =>
    have hstep : s.step .writer = s.writerStep pc := by
      simp only [SinkSystem.step, hpc, Option.bind_some]
    have hoff : ¬ s.pin.bWriteBuffering = true := Bool.eq_false_iff.mp h.off
    cases pc with
    | next => exact absurd hpc h.writer
    | outer =>
      refine ⟨_, hstep.trans (if_neg hoff), ⟨h.lock, h.off, fun e => (by cases e)⟩, ?_⟩
      show 0 < 1
      omega
    | inner =>
      refine ⟨_, hstep.trans (if_neg hoff), ⟨h.lock, h.off, fun e => (by cases e)⟩, ?_⟩
      show 2 < 3
      omega
    | sleeping =>
      refine ⟨_, hstep, ⟨h.lock, h.off, fun e => (by cases e)⟩, ?_⟩
      show 1 < 2
      omega
    | taken x =>
      simp only [hstep, writerStep]
      split
      · refine ⟨_, rfl, ⟨h.lock, h.off, fun e => (by cases e)⟩, ?_⟩
        show 7 < 8
        omega
      · refine ⟨_, rfl, ⟨h.lock, h.off, fun e => (by cases e)⟩, ?_⟩
        show 6 < 8
        omega
    | latching x =>
      refine ⟨_, hstep, ⟨h.lock, h.off, fun e => (by cases e)⟩, ?_⟩
      show 6 < 7
      omega
    | latched x =>
      simp only [hstep, writerStep]
      split
      · refine ⟨_, rfl, ⟨h.lock, h.off, fun e => (by cases e)⟩, ?_⟩
        show 5 < 6
        omega
      · refine ⟨_, rfl, ⟨h.lock, h.off, fun e => (by cases e)⟩, ?_⟩
        show 3 < 6
        omega
    | header x p =>
      refine ⟨_, hstep, ⟨h.lock, h.off, ?_⟩, ?_⟩
      · cases p.hasPayload <;> exact fun e => (by cases e)
      · cases p.hasPayload
        · show 3 < 5
          omega
        · show 4 < 5
          omega
    | payload x p d =>
      refine ⟨_, hstep, ⟨h.lock, h.off, fun e => (by cases e)⟩, ?_⟩
      show 3 < 4
      omega

theorem Leaving.exits {s : SinkSystem} (h : Leaving s) :
    ∃ t, Reach writerAlone s t ∧ t.writer = none := by
  have hrun : ∃ t, Reach writerAlone s t ∧ Leaving t ∧ exitRank t.writer = 0 :=
    Reach.of_rank Leaving (fun t => exitRank t.writer)
      (fun t ht hrank => ⟨(), ht.step hrank⟩) s h
  obtain ⟨t, hreach, _, hzero⟩ := hrun
  refine ⟨t, hreach, ?_⟩
  cases hpc : t.writer with
  | none => rfl
  | some pc => cases pc <;> simp [hpc, exitRank] at hzero

/-! Every step. -/

/-- The writer does not wait for the lock while BreakConnect waits for it. -/
structure Untangled (s : SinkSystem) : Prop where
  life : s.life.Sound
  no_cycle : s.lock = some .breakConnect → s.writer ≠ some .next

theorem Untangled.off {s : SinkSystem} (h : Untangled s) (hlock : s.lock = some .breakConnect) :
    s.pin.bWriteBuffering = false := by
  cases hb : s.pin.bWriteBuffering with
  | false => rfl
  | true =>
    have hstop : s.life.stopping = false := (h.life.buffering hb).1
    simp [SinkSystem.life, hlock] at hstop

theorem Untangled.noDeadlock {s : SinkSystem} (h : Untangled s) : NoDeadlock s :=
  ⟨h.no_cycle, fun hlock => Leaving.exits ⟨hlock, h.off hlock, h.no_cycle hlock⟩⟩

/-- Only a writer that finds the flag on gets as far as the lock. -/
theorem writerStep_next {s t : SinkSystem} {pc : WriterPc} (h : s.writerStep pc = some t)
    (hnext : t.writer = some .next) : s.pin.bWriteBuffering = true := by
  cases pc with
  | inner =>
    simp only [writerStep] at h
    split at h
    · rename_i hon
      exact hon
    · obtain rfl := Option.some.inj h
      cases hnext
  | next =>
    simp only [writerStep, Option.ite_none_right_eq_some] at h
    obtain ⟨_, h⟩ := h
    split at h <;> obtain rfl := Option.some.inj h <;> cases hnext
  | outer | taken | latched =>
    simp only [writerStep] at h
    split at h <;> obtain rfl := Option.some.inj h <;> cases hnext
  | header x p =>
    obtain rfl := Option.some.inj h
    cases hp : p.hasPayload <;> simp [hp] at hnext
  | latching | payload | sleeping =>
    obtain rfl := Option.some.inj h
    cases hnext

/-- What holds after a step when BreakConnect has the lock then: it had it before and
    the writer has not moved, or the writer made the step, or BreakConnect was just
    called. -/
theorem step_lock {s t : SinkSystem} {a : SinkAction} (h : s.step a = some t)
    (hlock : t.lock = some .breakConnect) :
    (s.lock = some .breakConnect ∧ (t.writer = s.writer ∨ ∃ pc, s.writerStep pc = some t)) ∨
      (a = .breakConnect ∧ s.pin.hThread2 ≠ .null ∧ t.writer = s.writer) := by
  cases a with
  | receive env sample =>
    simp only [step, Option.ite_none_right_eq_some] at h
    obtain ⟨u, rfl, rfl | rfl⟩ := receiveStep_cases h.2
    · rw [show s.lock = some .breakConnect from hlock] at h
      cases h.1
    · cases hlock
  | breakConnect =>
    simp only [step, Option.ite_none_right_eq_some] at h
    obtain ⟨hnone, h⟩ := h
    split at h
    · obtain rfl := Option.some.inj h
      rw [hlock] at hnone
      cases hnone
    · rename_i hthread
      obtain rfl := Option.some.inj h
      exact Or.inr ⟨rfl, hthread, rfl⟩
  | breakWait timeout =>
    simp only [step, Option.ite_none_right_eq_some] at h
    obtain rfl := Option.some.inj h.2
    cases hlock
  | writer =>
    obtain ⟨pc, _, h⟩ := Option.bind_eq_some_iff.mp h
    have hkept : t.lock = s.lock := by
      obtain ⟨_, _, _, _, _, rfl⟩ := writerStep_writes h
      rfl
    exact Or.inl ⟨hkept.symm.trans hlock, Or.inr ⟨pc, h⟩⟩
  | reset | beginFlush | endFlush | endOfStream | notifyAllocator | stopServer | listener |
      clientOpen | clientClose =>
    have hcalm := calm_step rfl h
    have hstop : s.life.stopping = true := by
      rw [← hcalm.life]
      exact decide_eq_true hlock
    exact Or.inl ⟨of_decide_eq_true hstop, Or.inl hcalm.writer⟩

theorem Untangled.step (s : SinkSystem) (a : SinkAction) (t : SinkSystem) (h : Untangled s)
    (hstep : s.step a = some t) (hC : OutsideTest s a) : Untangled t := by
  refine ⟨h.life.step (step_life hstep), fun hlock => ?_⟩
  rcases step_lock hstep hlock with ⟨hheld, hw | ⟨pc, hpc⟩⟩ | ⟨rfl, hthread, hw⟩
  · exact hw ▸ h.no_cycle hheld
  · -- a writer that comes to the lock has found the flag on, and BreakConnect turned it off
    intro hnext
    have hon := writerStep_next hpc hnext
    rw [h.off hheld] at hon
    cases hon
  · exact hw ▸ hC hthread

/-- The deadlock is there as soon as BreakConnect has the lock. -/
theorem NoDeadlock.outsideTest (s : SinkSystem) (a : SinkAction) (t : SinkSystem)
    (hstep : s.step a = some t) (h : NoDeadlock t) : OutsideTest s a := by
  cases a with
  | breakConnect =>
    intro hthread
    simp only [SinkSystem.step, Option.ite_none_right_eq_some, hthread, if_false] at hstep
    obtain rfl := Option.some.inj hstep.2
    exact h.no_cycle rfl
  | _ => trivial

/-- **Disconnecting does not deadlock against the writer** in a run exactly if no
    BreakConnect comes in between the writer's test of the flag and its taking the
    lock: then the writer always ends by itself. -/
theorem no_deadlock_iff (hThread2 : ThreadHandle) (rtRefPoint2 : Int64) (as : List SinkAction)
    (u : SinkSystem) (hrun : run step (new hThread2 rtRefPoint2) as = some u) :
    Always step NoDeadlock (new hThread2 rtRefPoint2) as ↔
      Meets step OutsideTest (new hThread2 rtRefPoint2) as := by
  have hnew : Untangled (new hThread2 rtRefPoint2) :=
    ⟨life_new hThread2 rtRefPoint2, fun h => (by cases h)⟩
  exact always_iff_meets_of_invariant (fun _ h => h.noDeadlock) Untangled.step
    (fun s a t _ hstep hP => hP.outsideTest s a t hstep) as _ u hnew hrun

/-- A writer that is started and tests the flag twice, and then a Disconnect. -/
def testThenBreak : List SinkAction :=
  [.receive streaming byteSample, .writer, .writer, .breakConnect]

/-- BreakConnect waits for the writer, the writer for the lock: no step of the writer
    is possible until it is terminated. -/
theorem break_waits_for_waiting_writer :
    ∃ u, run step (new .null 0) testThenBreak = some u ∧ u.lock = some .breakConnect ∧
      u.writer = some .next ∧ u.step .writer = none ∧ u.step (.breakWait false) = none ∧
      ¬ Always step NoDeadlock (new .null 0) testThenBreak := by
  refine ⟨_, rfl, rfl, rfl, rfl, rfl, fun h => ?_⟩
  have hend := always_iff_prefix.mp h testThenBreak (List.prefix_refl _) _ rfl
  exact hend.no_cycle rfl rfl

/-- The same Disconnect one step later, when the writer has taken its sample. -/
theorem no_deadlock_iff_taken :
    ∃ u, run step (new .null 0)
        [.receive streaming byteSample, .writer, .writer, .writer, .breakConnect] = some u ∧
      Always step NoDeadlock (new .null 0)
        [.receive streaming byteSample, .writer, .writer, .writer, .breakConnect] := by
  refine ⟨_, rfl, (no_deadlock_iff .null 0 _ _ rfl).mpr ?_⟩
  refine ⟨trivial, fun s₁ h₁ => ⟨trivial, fun s₂ h₂ => ⟨trivial, fun s₃ h₃ => ⟨trivial,
    fun s₄ h₄ => ⟨fun _ => ?_, fun _ _ => trivial⟩⟩⟩⟩⟩
  obtain rfl := Option.some.inj h₁
  obtain rfl := Option.some.inj h₂
  obtain rfl := Option.some.inj h₃
  obtain rfl := Option.some.inj h₄
  exact fun e => (by cases e)

end SinkSystem

end VirtualCaptureStream
