import VirtualCaptureStream.SinkWriterLife

/- The reference point of a pin. The writer takes the times of the first sample it sees
   for `m_rtRefPoint` and `m_rtRefPoint2`, and copies them into every header. That there
   is no reference point yet is the value -999999999 of `m_rtRefPoint`, which a sample
   may start at too; and Reset sets that value while the samples queued before it stay
   where they are. `latched_once` says when the headers between two Resets agree.

   Correspondence (C++ ↔ Lean):
     `m_rtRefPoint == -999999999`, its two assignments ↔ `writerStep` at `taken`, `latching`
     `timeOffset`, `mediaTimeOffset` of a header       ↔ `offsets`
     `CVirtualStreamSinkInputPin::Reset`               ↔ `SinkInputPin.reset` -/
namespace VirtualCaptureStream

/-- The times of a captured sample that may become the reference point. -/
def MediaSampleX.times (x : MediaSampleX) : Int64 × Int64 := (x.timeStart, x.mediaTimeStart)

/-- The offsets in a packet's header. -/
def Packet.offsets (p : Packet) : Int64 × Int64 := (p.info.timeOffset, p.info.mediaTimeOffset)

namespace SinkSystem

open Transition (run Meets Always always_of_meets always_iff_prefix)

/-- What the reference point depends on. -/
structure RefPoint where
  rtRefPoint : Int64
  rtRefPoint2 : Int64
  writeBuffer : List Queued
  writer : Option WriterPc

def refPoint (s : SinkSystem) : RefPoint :=
  ⟨s.pin.rtRefPoint, s.pin.rtRefPoint2, s.pin.writeBuffer, s.writer⟩

/-- The system, the times of the first sample received since the last Reset, and the
    offsets in the headers written since then. -/
structure Latching where
  system : SinkSystem
  first : Option (Int64 × Int64)
  offsets : List (Int64 × Int64)

/-- A new pin counts as reset. -/
def Latching.new (hThread2 : ThreadHandle) (rtRefPoint2 : Int64) : Latching :=
  ⟨SinkSystem.new hThread2 rtRefPoint2, none, []⟩

/-- The first sample since the last Reset, after an action. -/
def firstAfter (first : Option (Int64 × Int64)) : SinkAction → Option (Int64 × Int64)
  | .reset => none
  | .receive env sample => first <|> some (MediaSampleX.new env.capture sample).times
  | _ => first

/-- The offsets written since the last Reset, after an action. -/
def offsetsAfter (s : Latching) : SinkAction → List (Int64 × Int64)
  | .reset => []
  | .writer =>
    match s.system.writer with
    | some (.header _ p) => s.offsets ++ [p.offsets]
    | _ => s.offsets
  | _ => s.offsets

def latchStep (s : Latching) (a : SinkAction) : Option Latching :=
  (s.system.step a).map fun t => ⟨t, firstAfter s.first a, offsetsAfter s a⟩

/-- Every header since the last Reset has the times of the first sample since then. -/
def LatchedOnce (s : Latching) : Prop := ∀ o ∈ s.offsets, s.first = some o

/-- The writer has no sample in hand whose header is yet to be written. -/
def BetweenIterations : Option WriterPc → Prop
  | some (.taken _) | some (.latching _) | some (.latched _) | some (.header _ _) => False
  | _ => True

/-- Reset finds the queue empty and the writer between iterations; the first sample
    after it does not start at -999999999; and no writer is terminated between the
    taking of the sample that is to be the reference point and the second assignment. -/
def Aligned (s : Latching) : SinkAction → Prop
  | .reset => s.system.pin.writeBuffer = [] ∧ BetweenIterations s.system.writer
  | .receive env sample =>
    s.first = none → (MediaSampleX.new env.capture sample).timeStart ≠ noRefPoint
  | .breakWait _ => ∀ x, s.system.writer ≠ some (.latching x) ∧
    (s.system.writer = some (.taken x) → s.system.pin.rtRefPoint ≠ noRefPoint)
  | _ => True

/-! What the other steps leave alone. -/

/-- Only Receive, Reset, the writer and the end of BreakConnect's wait matter. -/
theorem step_refPoint {s t : SinkSystem} {a : SinkAction} (h : s.step a = some t)
    (ha : (∀ env sample, a ≠ .receive env sample) ∧ a ≠ .reset ∧ a ≠ .writer ∧
      ∀ timeout, a ≠ .breakWait timeout) : t.refPoint = s.refPoint := by
  cases a with
  | receive env sample => exact absurd rfl (ha.1 env sample)
  | reset => exact absurd rfl ha.2.1
  | writer => exact absurd rfl ha.2.2.1
  | breakWait timeout => exact absurd rfl (ha.2.2.2 timeout)
  | breakConnect =>
    simp only [step, Option.ite_none_right_eq_some] at h
    obtain ⟨_, h⟩ := h
    split at h <;> obtain rfl := Option.some.inj h <;> rfl
  | beginFlush | endFlush | endOfStream | notifyAllocator | stopServer | listener | clientOpen |
      clientClose =>
    have hcalm := calm_step rfl h
    obtain ⟨hpoint, hpoint2⟩ := hcalm.refPoint.resolve_left SinkAction.noConfusion
    simp only [refPoint, hpoint, hpoint2, hcalm.writeBuffer, hcalm.writer]

/-! The first sample's way to the reference point. -/

/-- The samples whose times may yet be taken, the one in the writer's hand before those
    of the queue. -/
def RefPoint.waiting (r : RefPoint) : List Queued :=
  match r.writer with
  | some (.taken x) => x :: r.writeBuffer
  | _ => r.writeBuffer

/-- The writer is not past the assignment with a sample. -/
def BeforeLatch : Option WriterPc → Prop
  | some (.latching _) | some (.latched _) | some (.header _ _) => False
  | _ => True

/-- Nothing has been received since the last Reset; or the first sample is the next one
    whose times are taken; or the first of its two times has been taken; or both have. -/
inductive Latches (r : RefPoint) : Option (Int64 × Int64) → Prop where
  | empty (hbuffer : r.writeBuffer = []) (hidle : BetweenIterations r.writer)
      (hnone : r.rtRefPoint = noRefPoint) : Latches r none
  | waiting (x : Queued) (rest : List Queued) (hnext : r.waiting = x :: rest)
      (hbefore : BeforeLatch r.writer) (hnone : r.rtRefPoint = noRefPoint)
      (hx : x.sample.timeStart ≠ noRefPoint) : Latches r (some x.sample.times)
  | latching (x : Queued) (hpc : r.writer = some (.latching x))
      (hset : r.rtRefPoint = x.sample.timeStart) (hx : x.sample.timeStart ≠ noRefPoint) :
      Latches r (some x.sample.times)
  | latched (hset : r.rtRefPoint ≠ noRefPoint) (hpast : ∀ x, r.writer ≠ some (.latching x))
      (hheader : ∀ x p, r.writer = some (.header x p) →
        p.offsets = (r.rtRefPoint, r.rtRefPoint2)) :
      Latches r (some (r.rtRefPoint, r.rtRefPoint2))

theorem BetweenIterations.beforeLatch {writer : Option WriterPc} (h : BetweenIterations writer) :
    BeforeLatch writer := by
  rcases writer with _ | pc
  · trivial
  · cases pc with
    | latching | latched | header => exact h
    | _ => trivial

theorem waiting_of_between {r : RefPoint} (h : BetweenIterations r.writer) :
    r.waiting = r.writeBuffer := by
  unfold RefPoint.waiting
  split
  · rename_i x hpc
    rw [hpc] at h
    exact h.elim
  · rfl

theorem waiting_push (r : RefPoint) (x : Queued) :
    RefPoint.waiting { r with writeBuffer := r.writeBuffer ++ [x] } = r.waiting ++ [x] := by
  unfold RefPoint.waiting
  dsimp only
  split <;> rfl

theorem between_or_taken {writer : Option WriterPc} (h : BeforeLatch writer) :
    BetweenIterations writer ∨ ∃ x, writer = some (.taken x) := by
  rcases writer with _ | pc
  · exact Or.inl trivial
  · cases pc with
    | taken x => exact Or.inr ⟨x, rfl⟩
    | latching | latched | header => exact h.elim
    | _ => exact Or.inl trivial

/-- A header that is about to be written has the first sample's times. -/
theorem Latches.header {r : RefPoint} {first : Option (Int64 × Int64)} (h : Latches r first)
    {x : Queued} {p : Packet} (hpc : r.writer = some (.header x p)) : first = some p.offsets := by
  cases h with
  | empty _ hidle _ =>
    rw [hpc] at hidle
    exact hidle.elim
  | waiting _ _ _ hbefore _ _ =>
    rw [hpc] at hbefore
    exact hbefore.elim
  | latching y hy _ _ => cases hpc.symm.trans hy
  | latched _ _ hheader => rw [hheader x p hpc]

/-- The writer goes on, or ends, without a sample. -/
theorem Latches.idle {r : RefPoint} {first : Option (Int64 × Int64)} (h : Latches r first)
    (hhand : ∀ x, r.writer ≠ some (.latching x) ∧
      (r.writer = some (.taken x) → r.rtRefPoint ≠ noRefPoint))
    {writer : Option WriterPc} (hidle : BetweenIterations writer) :
    Latches { r with writer := writer } first := by
  cases h with
  | empty hbuffer _ hnone => exact .empty hbuffer hidle hnone
  | waiting x rest hnext hbefore hnone hx =>
    refine .waiting x rest ?_ hidle.beforeLatch hnone hx
    rcases between_or_taken hbefore with hbetween | ⟨y, hy⟩
    · rw [waiting_of_between hbetween] at hnext
      rw [waiting_of_between hidle]
      exact hnext
    · exact absurd hnone ((hhand y).2 hy)
  | latching x hpc _ _ => exact absurd hpc (hhand x).1
  | latched hset _ _ =>
    refine .latched hset (fun x e => ?_) fun x p e => ?_
    · obtain rfl : writer = some (.latching x) := e
      exact hidle.elim
    · obtain rfl : writer = some (.header x p) := e
      exact hidle.elim

/-- A sample is put in the queue. -/
theorem Latches.push {r : RefPoint} {first : Option (Int64 × Int64)} (h : Latches r first)
    (x : Queued) (hx : first = none → x.sample.timeStart ≠ noRefPoint) :
    Latches { r with writeBuffer := r.writeBuffer ++ [x] } (first <|> some x.sample.times) := by
  cases h with
  | empty hbuffer hidle hnone =>
    refine .waiting x [] ?_ hidle.beforeLatch hnone (hx rfl)
    rw [waiting_push, waiting_of_between hidle, hbuffer]
    rfl
  | waiting y rest hnext hbefore hnone hy =>
    refine .waiting y (rest ++ [x]) ?_ hbefore hnone hy
    rw [waiting_push, hnext]
    rfl
  | latching y hpc hset hy => exact .latching y hpc hset hy
  | latched hset hpast hheader => exact .latched hset hpast hheader

/-- The writer takes the next sample from the queue. -/
theorem Latches.pop {r : RefPoint} {first : Option (Int64 × Int64)} (h : Latches r first)
    {x : Queued} {xs : List Queued} (hidle : BetweenIterations r.writer)
    (hqueue : r.writeBuffer = x :: xs) :
    Latches { r with writeBuffer := xs, writer := some (.taken x) } first := by
  cases h with
  | empty hbuffer _ _ =>
    rw [hbuffer] at hqueue
    cases hqueue
  | waiting y rest hnext _ hnone hy =>
    rw [waiting_of_between hidle, hqueue] at hnext
    exact .waiting y rest hnext trivial hnone hy
  | latching y hpc _ _ =>
    rw [hpc] at hidle
    exact hidle.elim
  | latched hset _ _ => exact .latched hset (fun _ e => (by cases e)) fun _ _ e => (by cases e)

/-- The first assignment: the sample in hand is the first one, or there is a reference
    point. -/
theorem Latches.latch {r : RefPoint} {first : Option (Int64 × Int64)} (h : Latches r first)
    {x : Queued} (hpc : r.writer = some (.taken x)) :
    Latches (if r.rtRefPoint = noRefPoint then
        { r with rtRefPoint := x.sample.timeStart, writer := some (.latching x) }
      else { r with writer := some (.latched x) }) first := by
  cases h with
  | empty _ hidle _ =>
    rw [hpc] at hidle
    exact hidle.elim
  | waiting y rest hnext _ hnone hy =>
    have hhand : r.waiting = x :: r.writeBuffer := by
      rw [RefPoint.waiting, hpc]
    obtain rfl : x = y := (List.cons.inj (hhand.symm.trans hnext)).1
    rw [if_pos hnone]
    exact .latching x rfl rfl hy
  | latching y hy _ _ => cases hpc.symm.trans hy
  | latched hset _ _ =>
    rw [if_neg hset]
    exact .latched hset (fun _ e => (by cases e)) fun _ _ e => (by cases e)

/-- The second assignment. -/
theorem Latches.latch₂ {r : RefPoint} {first : Option (Int64 × Int64)} (h : Latches r first)
    {x : Queued} (hpc : r.writer = some (.latching x)) :
    Latches { r with rtRefPoint2 := x.sample.mediaTimeStart, writer := some (.latched x) }
      first := by
  cases h with
  | empty _ hidle _ =>
    rw [hpc] at hidle
    exact hidle.elim
  | waiting _ _ _ hbefore _ _ =>
    rw [hpc] at hbefore
    exact hbefore.elim
  | latching y hy hset hne =>
    obtain rfl := WriterPc.latching.inj (Option.some.inj (hpc.symm.trans hy))
    have hlatched : Latches
        { r with rtRefPoint2 := x.sample.mediaTimeStart, writer := some (.latched x) }
        (some (r.rtRefPoint, x.sample.mediaTimeStart)) :=
      .latched (hset ▸ hne) (fun _ e => (by cases e)) fun _ _ e => (by cases e)
    rw [MediaSampleX.times, ← hset]
    exact hlatched
  | latched _ hpast _ => exact absurd hpc (hpast x)

/-- The header is built from the reference point. -/
theorem Latches.build {r : RefPoint} {first : Option (Int64 × Int64)} (h : Latches r first)
    {x : Queued} (hpc : r.writer = some (.latched x)) :
    Latches { r with
      writer := some (.header x (x.sample.packet r.rtRefPoint r.rtRefPoint2)) } first := by
  cases h with
  | empty _ hidle _ =>
    rw [hpc] at hidle
    exact hidle.elim
  | waiting _ _ _ hbefore _ _ =>
    rw [hpc] at hbefore
    exact hbefore.elim
  | latching y hy _ _ => cases hpc.symm.trans hy
  | latched hset _ _ =>
    refine .latched hset (fun _ e => (by cases e)) fun y p e => ?_
    obtain ⟨rfl, rfl⟩ := WriterPc.header.inj (Option.some.inj e)
    rfl

/-- Every step of the writer. -/
theorem Latches.writerStep {s t : SinkSystem} {pc : WriterPc} {first : Option (Int64 × Int64)}
    (h : Latches s.refPoint first) (hpc : s.writer = some pc) (hstep : s.writerStep pc = some t) :
    Latches t.refPoint first := by
  have hother : (∀ x, pc ≠ .latching x ∧ pc ≠ .taken x) → ∀ x,
      s.refPoint.writer ≠ some (.latching x) ∧
        (s.refPoint.writer = some (.taken x) → s.refPoint.rtRefPoint ≠ noRefPoint) :=
    fun hne x => ⟨fun e => (hne x).1 (Option.some.inj (hpc.symm.trans e)),
      fun e => absurd (Option.some.inj (hpc.symm.trans e)) (hne x).2⟩
  cases pc with
  | outer | inner =>
    simp only [SinkSystem.writerStep] at hstep
    split at hstep <;> obtain rfl := Option.some.inj hstep <;>
      exact h.idle (hother (by simp)) trivial
  | sleeping | payload =>
    obtain rfl := Option.some.inj hstep
    exact h.idle (hother (by simp)) trivial
  | next =>
    simp only [SinkSystem.writerStep, Option.ite_none_right_eq_some] at hstep
    obtain ⟨_, hstep⟩ := hstep
    split at hstep
    · obtain rfl := Option.some.inj hstep
      exact h.idle (hother (by simp)) trivial
    · rename_i x xs hqueue
      obtain rfl := Option.some.inj hstep
      have hidle : BetweenIterations s.refPoint.writer := by
        rw [refPoint, hpc]
        trivial
      exact h.pop hidle hqueue
  | taken x =>
    have hlatch := h.latch hpc
    simp only [SinkSystem.writerStep] at hstep
    split at hstep
    · rename_i hnone
      obtain rfl := Option.some.inj hstep
      rw [if_pos (show s.refPoint.rtRefPoint = noRefPoint from hnone)] at hlatch
      exact hlatch
    · rename_i hset
      obtain rfl := Option.some.inj hstep
      rw [if_neg (show ¬ s.refPoint.rtRefPoint = noRefPoint from hset)] at hlatch
      exact hlatch
  | latching x =>
    obtain rfl := Option.some.inj hstep
    exact h.latch₂ hpc
  | latched x =>
    simp only [SinkSystem.writerStep] at hstep
    split at hstep <;> obtain rfl := Option.some.inj hstep
    · exact h.build hpc
    · exact h.idle (hother (by simp)) trivial
  | header x p =>
    obtain rfl := Option.some.inj hstep
    refine h.idle (hother (by simp)) ?_
    cases p.hasPayload <;> trivial

/-! Every step. -/

/-- The invariant. -/
structure Settled (s : Latching) : Prop where
  life : s.system.life.Sound
  latches : Latches s.system.refPoint s.first
  written : LatchedOnce s

/-- Receive starts a writer only where there is none. -/
theorem Latches.receive {s t : SinkSystem} {env : SinkInputPin.ReceiveEnv} {sample : MediaSample}
    {first : Option (Int64 × Int64)} (h : Latches s.refPoint first) (hlife : s.life.Sound)
    (hlock : s.lock = none) (hstep : s.receiveStep env sample = some t)
    (hfirst : first = none → (MediaSampleX.new env.capture sample).timeStart ≠ noRefPoint) :
    Latches t.refPoint (first <|> some (MediaSampleX.new env.capture sample).times) := by
  have hpush := h.push ⟨s.received, MediaSampleX.new env.capture sample⟩ hfirst
  have hnone : (s.pin.receive env s.received sample).startWriter = true → s.writer = none := by
    intro hstart
    rw [SinkInputPin.receive_startWriter, Bool.and_eq_true, Bool.not_eq_true'] at hstart
    have hidle : s.life.running = false := hlife.not_running hstart.1 (by simp [life, hlock])
    exact Option.isNone_iff_eq_none.mp (Option.isSome_eq_false_iff.mp hidle)
  obtain ⟨hpoint, hpoint2⟩ := SinkInputPin.receive_rtRefPoint env s.received sample s.pin
  have hview : t.refPoint = ⟨s.pin.rtRefPoint, s.pin.rtRefPoint2,
      s.pin.writeBuffer ++ [⟨s.received, MediaSampleX.new env.capture sample⟩],
      if (s.pin.receive env s.received sample).startWriter then some .outer else s.writer⟩ := by
    obtain ⟨u, rfl, rfl | rfl⟩ := receiveStep_cases hstep <;>
      simp only [refPoint, hpoint, hpoint2, SinkInputPin.receive_writeBuffer]
  rw [hview]
  split
  · rename_i hstart
    refine hpush.idle (fun x => ?_) trivial
    dsimp only
    rw [show s.refPoint.writer = none from hnone hstart]
    exact ⟨fun e => (by cases e), fun e => (by cases e)⟩
  · exact hpush

theorem Latches.step {s : Latching} {a : SinkAction} {t : SinkSystem} (h : Settled s)
    (hC : Aligned s a) (hstep : s.system.step a = some t) :
    Latches t.refPoint (firstAfter s.first a) := by
  cases a with
  | receive env sample =>
    simp only [SinkSystem.step, Option.ite_none_right_eq_some] at hstep
    exact h.latches.receive h.life hstep.1 hstep.2 hC
  | reset =>
    simp only [SinkSystem.step, Option.ite_none_right_eq_some] at hstep
    obtain rfl := Option.some.inj hstep.2
    exact .empty hC.1 hC.2 rfl
  | writer =>
    obtain ⟨pc, hpc, hstep⟩ := Option.bind_eq_some_iff.mp hstep
    exact h.latches.writerStep hpc hstep
  | breakWait timeout =>
    simp only [SinkSystem.step, Option.ite_none_right_eq_some] at hstep
    obtain rfl := Option.some.inj hstep.2
    have hidle : Latches { s.system.refPoint with writer := none } s.first :=
      h.latches.idle hC trivial
    unfold refPoint
    dsimp only
    rw [terminateWriter_writer]
    exact hidle
  | _ =>
    rw [step_refPoint hstep ⟨fun _ _ => SinkAction.noConfusion, SinkAction.noConfusion,
      SinkAction.noConfusion, fun _ => SinkAction.noConfusion⟩]
    exact h.latches

/-- The header that is written has the first sample's times, and no other step writes
    one or changes the first sample. -/
theorem Settled.written_step {s : Latching} {a : SinkAction} (h : Settled s) :
    ∀ o ∈ offsetsAfter s a, firstAfter s.first a = some o := by
  intro o ho
  cases a with
  | reset => cases ho
  | receive env sample =>
    have hfirst := h.written o ho
    rw [firstAfter, hfirst]
    rfl
  | writer =>
    simp only [offsetsAfter] at ho
    split at ho
    · rename_i x p hpc
      rcases List.mem_append.mp ho with hold | hnew
      · exact h.written o hold
      · rw [List.mem_singleton.mp hnew]
        exact h.latches.header hpc
    · exact h.written o ho
  | _ => exact h.written o ho

theorem Settled.step (s : Latching) (a : SinkAction) (t : Latching) (h : Settled s)
    (hC : Aligned s a) (hstep : latchStep s a = some t) : Settled t := by
  obtain ⟨u, hu, rfl⟩ := Option.map_eq_some_iff.mp hstep
  exact ⟨h.life.step (step_life hu), Latches.step h hC hu, h.written_step⟩

theorem settled_new (hThread2 : ThreadHandle) (rtRefPoint2 : Int64) :
    Settled (Latching.new hThread2 rtRefPoint2) :=
  ⟨life_new hThread2 rtRefPoint2, .empty rfl trivial rfl, fun _ ho => (by cases ho)⟩

/-- **The reference point is latched once** between two Resets, as the times of the
    first sample received after the earlier one, in every run whose Resets find the queue
    empty and whose first samples do not start at -999999999. -/
theorem latched_once (hThread2 : ThreadHandle) (rtRefPoint2 : Int64) (as : List SinkAction)
    (hmeets : Meets latchStep Aligned (Latching.new hThread2 rtRefPoint2) as) :
    Always latchStep LatchedOnce (Latching.new hThread2 rtRefPoint2) as :=
  always_of_meets (fun _ h => h.written) Settled.step as _ (settled_new hThread2 rtRefPoint2) hmeets

/-- A sample of one byte that starts at `start`. -/
def startsAt (start : Int64) : MediaSample :=
  { byteSample with time := .startStop start (start + 1) }

/-- A client attaches, and the pin is reset. -/
def connectAndReset : List SinkAction := connectClient ++ [.reset]

/-- Two samples, and the writer's way through both, the second header included. -/
def twoSamples (start start' : Int64) : List SinkAction :=
  [.receive streaming (startsAt start), .receive streaming (startsAt start')] ++
    List.replicate 14 .writer

/-- The first sample starts at -999999999: the second one is latched again. -/
theorem second_sample_latched :
    ∃ u, run latchStep (Latching.new .null 0) (connectAndReset ++ twoSamples (-999999999) 5) =
        some u ∧
      u.first = some (-999999999, 0) ∧ u.offsets = [(-999999999, 0), (5, 0)] ∧
      ¬ Always latchStep LatchedOnce (Latching.new .null 0)
        (connectAndReset ++ twoSamples (-999999999) 5 ++ [.reset]) := by
  refine ⟨_, rfl, rfl, rfl, fun h => ?_⟩
  have hend := always_iff_prefix.mp h (connectAndReset ++ twoSamples (-999999999) 5)
    (List.prefix_append _ _) _ rfl
  have hlast := hend (5, 0) (List.mem_cons_of_mem _ List.mem_cons_self)
  exact absurd hlast (by decide)

/-- A sample that is queued when Reset comes is latched after it. -/
theorem old_sample_latched :
    ∃ u, run latchStep (Latching.new .null 0) (connectClient ++
        [.receive streaming (startsAt 5), .reset, .receive streaming (startsAt 9)] ++
        List.replicate 7 .writer) = some u ∧
      u.first = some (9, 0) ∧ u.offsets = [(5, 0)] :=
  ⟨_, rfl, rfl, rfl⟩

/-- Two samples that start at 5 and at 9. -/
theorem latched_once_connected :
    ∃ u, run latchStep (Latching.new .null 0) (connectAndReset ++ twoSamples 5 9) = some u ∧
      u.offsets = [(5, 0), (5, 0)] ∧
      Always latchStep LatchedOnce (Latching.new .null 0) (connectAndReset ++ twoSamples 5 9) := by
  have hclient : ∀ s, Meets latchStep Aligned s connectClient := by
    refine Transition.meets_of_forall fun a ha s => ?_
    simp only [connectClient, List.mem_cons, List.not_mem_nil, or_false] at ha
    rcases ha with rfl | rfl | rfl | rfl | rfl | rfl <;> trivial
  have hwriter : ∀ s, Meets latchStep Aligned s (List.replicate 14 .writer) := by
    refine Transition.meets_of_forall fun a ha s => ?_
    obtain rfl := List.eq_of_mem_replicate ha
    trivial
  have hreset : Meets latchStep Aligned (Latching.new .null 0) connectAndReset :=
    (hclient _).append rfl (.cons rfl ⟨rfl, trivial⟩ trivial)
  refine ⟨_, rfl, rfl, latched_once .null 0 _ (hreset.append rfl (.append (.cons rfl ?_
    (.cons rfl ?_ trivial)) rfl (hwriter _)))⟩
  · exact fun _ => (by decide)
  · exact fun e => (by cases e)

end SinkSystem

end VirtualCaptureStream
