import VirtualCaptureStream.SinkWriterPool

/- SinkSystem has room for one writer thread. Why that is enough: as long as Receive alone
   creates writers, and CreateThread does not fail it, the writers of a pool are never
   two, and SinkSystem makes every step of the pool with its one.

   What is proved:
     1. `step_slot`, `receiveStep_slot` — what the other threads and calls do does not
        depend on the writer.
     2. `slot_step` — a step of the pool is a step of SinkSystem.
     3. `slot_run`, `slot_run_new` — a run of the pool is a run of SinkSystem. -/
namespace VirtualCaptureStream

namespace SinkSystem

theorem listenerStep_slot (s : SinkSystem) (pc : ListenerPc) (w : Option WriterPc) :
    listenerStep { s with writer := w } pc =
      (s.listenerStep pc).map fun t => { t with writer := w } := by
  cases pc with
  | start | sleeping => rfl
  | test | check =>
    unfold listenerStep
    dsimp only
    rw [apply_ite (Option.map _)]
    rfl
  | connect | waiting =>
    unfold listenerStep
    dsimp only
    cases s.pipe with
    | none => rfl
    | some p => cases p <;> rfl

theorem stopStep_slot (s : SinkSystem) (timeout : Bool) (pc : StopPc) (w : Option WriterPc) :
    stopStep { s with writer := w } timeout pc =
      (s.stopStep timeout pc).map fun t => { t with writer := w } := by
  cases pc with
  | closeClient | disconnect | closeHandle | clear => rfl
  | openPipe =>
    unfold stopStep
    dsimp only
    rw [apply_ite (Option.map _)]
    rfl
  | waitListener =>
    unfold stopStep
    dsimp only
    rw [apply_ite (Option.map _), apply_ite (Option.map _)]
    rfl

theorem endOfStream_slot (s : SinkSystem) (w : Option WriterPc) :
    endOfStream { s with writer := w } =
      s.endOfStream.map fun t => { t with writer := w } := by
  unfold endOfStream
  dsimp only
  rw [apply_ite (Option.map _), apply_ite (Option.map _)]
  rfl

theorem step_slot (s : SinkSystem) {a : SinkAction} (w : Option WriterPc)
    (ha : a.calm = true ∨ a = .breakConnect) :
    step { s with writer := w } a = (s.step a).map fun t => { t with writer := w } := by
  cases a with
  | receive | breakWait | writer => rcases ha with ha | ha <;> cases ha
  | reset | beginFlush | endFlush | clientOpen =>
    unfold step
    dsimp only
    rw [apply_ite (Option.map _)]
    rfl
  | notifyAllocator =>
    unfold step notifyAllocatorStep
    dsimp only
    rw [apply_ite (Option.map _), Option.map_some,
      apply_ite fun t : SinkSystem => ({ t with writer := w } : SinkSystem)]
    rfl
  | breakConnect =>
    unfold step
    dsimp only
    rw [apply_ite (Option.map _), apply_ite (Option.map _)]
    rfl
  | endOfStream => exact endOfStream_slot s w
  | clientClose =>
    unfold step client
    dsimp only
    cases s.pipe with
    | none => rfl
    | some p => cases p <;> rfl
  | listener =>
    unfold step
    dsimp only
    cases s.listener with
    | none => rfl
    | some pc => exact listenerStep_slot s pc w
  | stopServer timeout =>
    unfold step
    dsimp only
    cases s.stopper with
    | none => rfl
    | some pc => exact stopStep_slot s timeout pc w

theorem receiveStep_slot (s : SinkSystem) (env : SinkInputPin.ReceiveEnv) (sample : MediaSample)
    (w : Option WriterPc) (hempty : s.writer = none) :
    receiveStep { s with writer := w } env sample =
      (s.receiveStep env sample).map fun t => { t with writer := t.writer.or w } := by
  have hor : (if (s.pin.receive env s.received sample).startWriter then some WriterPc.outer else w) =
      (if (s.pin.receive env s.received sample).startWriter then some WriterPc.outer
        else none).or w := by
    split <;> rfl
  unfold receiveStep endOfStream
  dsimp only
  rw [hempty, hor]
  by_cases heos : (s.pin.receive env s.received sample).endOfStream = true
  · rw [if_pos heos, if_pos heos]
    by_cases hp : (s.pin.receive env s.received sample).pin.hPipe = .null
    · rw [if_pos hp, if_pos hp]
      rfl
    · rw [if_neg hp, if_neg hp, if_neg hp, if_neg hp]
      by_cases hs : s.stopper = none
      · rw [if_pos hs, if_pos hs]
        rfl
      · rw [if_neg hs, if_neg hs]
        rfl
  · rw [if_neg heos, if_neg heos]
    rfl
end SinkSystem

namespace WriterPool

open Transition (run Meets)

/-- The pool as the system with one writer sees it. -/
def slot (s : WriterPool) : SinkSystem := { s.sink with writer := s.pc (s.writers.length - 1) }

/-- What an action of the pool is there; it does not know of a CreateWriteBufferThread
    that Receive does not call. -/
def single : PoolAction → Option SinkSystem.SinkAction
  | .call a => some a
  | .createWriteBufferThread _ => none
  | .writer _ => some .writer

section
variable {s t : WriterPool} {a : PoolAction} {b : SinkSystem.SinkAction}

theorem slot_adopt {u : SinkSystem} :
    (s.adopt u).slot = { u with writer := u.writer.or s.slot.writer } := by
  cases hu : u.writer with
  | none =>
    rw [adopt_of_none hu]
    rfl
  | some pc =>
    rw [adopt_of_some hu]
    simp [slot, WriterPool.pc]

theorem Last.index {id : Nat} (h : s.Last id) : s.writers.length - 1 = id := by
  unfold Last at h
  omega

/-- What the writer in the slot is when the last writer is known. -/
theorem slot_eq {id : Nat} (h : s.Last id) : s.slot = { s.sink with writer := s.pc id } := by
  unfold slot
  rw [h.index]

/-- The thread goes on, or it ends. -/
theorem slot_set {u : SinkSystem} {id : Nat} {w : Option WriterPc} (h : s.Last id) :
    slot { s with sink := u, writers := s.writers.set id w } = { u with writer := w } := by
  unfold slot WriterPool.pc
  dsimp only
  rw [List.length_set, h.index, List.getElem?_set_self h.lt]
  rfl

/-- The writer has ended, and BreakConnect goes on. -/
theorem slot_released {u : SinkSystem} {id : Nat} (h : s.Last id) (hgone : s.pc id = none) :
    slot { s with sink := u, waits := none } = { u with writer := none } := by
  rw [slot_eq (s := { s with sink := u, waits := none }) h]
  exact congrArg (fun w => ({ u with writer := w } : SinkSystem)) hgone

theorem slot_breakWait {timeout : Bool} (h : s.Sole)
    (hwaits : s.sink.pin.bWriteBuffering = true → s.waits = none)
    (hstep : s.breakWait timeout = some t) : s.slot.step (.breakWait timeout) = some t.slot := by
  obtain ⟨x, hx, hover, _, rfl, rfl⟩ := breakWait_cases hstep
  have hoff : s.sink.pin.bWriteBuffering = false := by
    cases hb : s.sink.pin.bWriteBuffering with
    | false => rfl
    | true =>
      rw [hwaits hb] at hx
      cases hx
  obtain ⟨id, rfl, hid⟩ := h.waited hoff x hx
  have hlast := h.last_of_handle hid
  have hlock : s.slot.lock = some .breakConnect := by
    have hstop := h.waiting.mpr (by rw [hx]; rfl)
    simpa [slot, SinkSystem.life] using hstop
  simp only [SinkSystem.step, Option.ite_none_right_eq_some]
  cases timeout with
  | false =>
    have hgone : s.pc id = none := Option.isNone_iff_eq_none.mp
      (hover.resolve_right Bool.false_ne_true)
    refine ⟨⟨hlock, Or.inl (by rw [slot_eq hlast, hgone]; rfl)⟩, ?_⟩
    rw [slot_eq hlast, hgone, if_neg Bool.false_ne_true, slot_released hlast hgone]
    rfl
  | true =>
    refine ⟨⟨hlock, Or.inr rfl⟩, ?_⟩
    have hterm : s.terminate.sink = s.slot.terminateWriter ∧
        s.terminate.writers = s.writers.set id none := by
      rw [slot_eq hlast]
      simp only [WriterPool.terminate, hid, and_self]
    have hlast' : s.terminate.Last id := by
      unfold Last
      rw [hterm.2, List.length_set]
      exact hlast
    have hgone : s.terminate.pc id = none := by
      unfold WriterPool.pc
      rw [hterm.2, List.getElem?_set_self hlast.lt]
      rfl
    rw [if_pos rfl, slot_released hlast' hgone, hterm.1]
    simp only [SinkSystem.terminateWriter_pin, SinkSystem.terminateWriter_writer]

theorem slot_step (h : s.Sole) (hwaits : s.sink.pin.bWriteBuffering = true → s.waits = none)
    (hb : single a = some b) (hstep : s.step a = some t) : s.slot.step b = some t.slot := by
  cases a with
  | createWriteBufferThread thread => cases hb
  | writer id =>
    obtain rfl := Option.some.inj hb
    obtain ⟨pc, hpc, hstep⟩ := Option.bind_eq_some_iff.mp hstep
    obtain ⟨u, hu, rfl⟩ := Option.map_eq_some_iff.mp hstep
    have hlast := h.last id (Option.isSome_iff_exists.mpr ⟨pc, hpc⟩)
    rw [slot_eq hlast, hpc, SinkSystem.step, Option.bind_some, hu]
    exact congrArg some (slot_set (u := { u with writer := none }) hlast).symm
  | call a =>
    obtain rfl := Option.some.inj hb
    cases a with
    | breakConnect =>
      obtain ⟨u, hu, rfl⟩ := Option.map_eq_some_iff.mp hstep
      rw [slot, SinkSystem.step_slot s.sink _ (Or.inr rfl), hu]
      cases s.hThread2 <;> rfl
    | breakWait timeout => exact slot_breakWait h hwaits hstep
    | receive env sample =>
      obtain ⟨u, hu, rfl⟩ := Option.map_eq_some_iff.mp hstep
      simp only [SinkSystem.step, Option.ite_none_right_eq_some] at hu ⊢
      obtain ⟨hlock, hu⟩ := hu
      refine ⟨hlock, ?_⟩
      rw [slot, SinkSystem.receiveStep_slot _ _ _ _ h.empty, hu, slot_adopt]
      rfl
    | writer =>
      obtain ⟨u, hu, rfl⟩ := Option.map_eq_some_iff.mp hstep
      rw [SinkSystem.step, h.empty] at hu
      cases hu
    | reset | beginFlush | endFlush | endOfStream | notifyAllocator | stopServer | listener |
        clientOpen | clientClose =>
      obtain ⟨u, hu, rfl⟩ := Option.map_eq_some_iff.mp hstep
      have hempty := (h.sink (SinkSystem.calm_step rfl hu).life).empty
      rw [slot, SinkSystem.step_slot s.sink _ (Or.inl rfl), hu, adopt_of_none hempty]
      rfl

/-- The pool where Receive alone has started writers: no BreakConnect waits under write
    buffering. -/
structure Received (s : WriterPool) : Prop where
  sole : s.Sole
  waits : s.sink.pin.bWriteBuffering = true → s.waits = none

theorem adopt_waits (u : SinkSystem) : (s.adopt u).waits = s.waits ∧
    (s.adopt u).sink.pin = u.pin := by
  unfold WriterPool.adopt
  split <;> exact ⟨rfl, rfl⟩

theorem Received.step (h : s.Received) (ha : s.CreatesOne a) (hb : single a = some b)
    (hstep : s.step a = some t) : t.Received := by
  refine ⟨h.sole.step ha hstep, fun hon => ?_⟩
  cases a with
  | createWriteBufferThread thread => cases hb
  | writer id =>
    obtain ⟨pc, _, hstep⟩ := Option.bind_eq_some_iff.mp hstep
    obtain ⟨u, hu, rfl⟩ := Option.map_eq_some_iff.mp hstep
    obtain ⟨_, _, _, _, _, rfl⟩ := SinkSystem.writerStep_writes hu
    exact h.waits hon
  | call a =>
    cases a with
    | breakWait timeout =>
      obtain ⟨_, _, _, _, _, rfl⟩ := breakWait_cases hstep
      rfl
    | breakConnect =>
      rcases h.sole.breakConnect_cases hstep with rfl | ⟨id, _, _, rfl⟩
      · exact h.waits hon
      · cases hon
    | receive env sample =>
      obtain ⟨u, hu, rfl⟩ := Option.map_eq_some_iff.mp hstep
      rw [(adopt_waits u).1]
      exact (life_receive h.sole hu).1
    | writer =>
      obtain ⟨u, hu, rfl⟩ := Option.map_eq_some_iff.mp hstep
      rw [SinkSystem.step, h.sole.empty] at hu
      cases hu
    | reset | beginFlush | endFlush | endOfStream | notifyAllocator | stopServer | listener |
        clientOpen | clientClose =>
      obtain ⟨u, hu, rfl⟩ := Option.map_eq_some_iff.mp hstep
      have hlife := congrArg WriterLife.bWriteBuffering (SinkSystem.calm_step rfl hu).life
      rw [(adopt_waits u).1]
      refine h.waits (hlife.symm.trans ?_)
      rw [(adopt_waits u).2] at hon
      exact hon

/-- **One writer thread is enough**: a run of the pool in which Receive alone creates
    writers is a run of the system with one writer. -/
theorem slot_run {as : List PoolAction} (h : s.Received)
    (hC : Meets WriterPool.step CreatesOne s as)
    (hsingle : ∀ a ∈ as, (single a).isSome = true)
    (hrun : run WriterPool.step s as = some t) :
    run SinkSystem.step s.slot (as.filterMap single) = some t.slot := by
  induction as generalizing s with
  | nil =>
    obtain rfl := Option.some.inj hrun
    rfl
  | cons a as ih =>
    obtain ⟨u, hu, hrun⟩ := Transition.run_cons.mp hrun
    obtain ⟨b, hb⟩ := Option.isSome_iff_exists.mp (hsingle a List.mem_cons_self)
    rw [List.filterMap_cons_some hb, Transition.run_cons]
    refine ⟨u.slot, slot_step h.sole h.waits hb hu, ?_⟩
    exact ih (h.step hC.1 hb hu) (hC.2 u hu) (fun a ha => hsingle a (List.mem_cons_of_mem _ ha))
      hrun

end

/-- A new pin whose memory held NULL. -/
theorem received_new (rtRefPoint2 : Int64) : (new .null rtRefPoint2).Received :=
  ⟨sole_new rtRefPoint2, fun h => by cases h⟩

/-- **While there is one writer the pool is the single slot**: a run of the pin's calls and of
    any number of write threads, in which CreateThread succeeds where Receive starts a write
    thread, is the run with one writer that has the same actions in the same order. -/
theorem slot_run_new {rtRefPoint2 : Int64} {t : WriterPool} {as : List PoolAction}
    (hC : Meets WriterPool.step CreatesOne (new .null rtRefPoint2) as)
    (hsingle : ∀ a ∈ as, (single a).isSome = true)
    (hrun : run WriterPool.step (new .null rtRefPoint2) as = some t) :
    run SinkSystem.step (SinkSystem.new .null rtRefPoint2) (as.filterMap single) = some t.slot :=
  slot_run (received_new rtRefPoint2) hC hsingle hrun

/-- Two connections, with a writer each. -/
example :
    ∃ t, run WriterPool.step (new .null 0) twoConnections = some t ∧
      run SinkSystem.step (SinkSystem.new .null 0) (twoConnections.filterMap single) =
        some t.slot := by
  obtain ⟨t, ht⟩ : ∃ t, run WriterPool.step (new .null 0) twoConnections = some t := ⟨_, rfl⟩
  refine ⟨t, ht, slot_run_new ?_ ?_ ht⟩
  · refine Transition.meets_of_forall (fun a ha s => ?_) _
    simp only [twoConnections, List.mem_cons, List.not_mem_nil, or_false] at ha
    rcases ha with rfl | rfl | rfl | rfl | rfl | rfl | rfl | rfl | rfl
    all_goals first | trivial | exact fun _ => rfl
  · decide

end WriterPool

end VirtualCaptureStream
