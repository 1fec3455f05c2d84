import VirtualCaptureStream.SinkQueue

/- What becomes of discarded samples. Reset, BeginFlush and BreakConnect are meant to
   empty the write buffer, and none of them does: Reset and BreakConnect call
   `m_writeBuffer.empty()`, which only tests the queue. From any state in which such
   a call has returned and left a sample queued, a run sends that sample to a
   client, unless there will never be a writer again;
   `discarded_stays_discarded_iff` says that these are the only two cases. -/
namespace VirtualCaptureStream

namespace SinkSystem

open Transition

/-! From any state a run connects a client and has the writer send the first sample of
    the queue. -/

/-- The queue and the writer are as in `s`, and nobody holds the lock. -/
structure Kept (s u : SinkSystem) : Prop where
  queue : u.pin.writeBuffer = s.pin.writeBuffer
  writer : u.writer = s.writer
  life : u.life = s.life
  lock : u.lock = none

/-- The steps StopServer still has to do. -/
def stopRank : Option StopPc → Nat
  | none => 0
  | some .openPipe => 6
  | some (.closeClient _) => 5
  | some .waitListener => 4
  | some .disconnect => 3
  | some .closeHandle => 2
  | some .clear => 1

/-- StopServer can always go on, past the wait for the listener too, and ends without
    a pipe; it does not touch the queue, the writer or a lock nobody holds. -/
theorem stopStep_progress {s : SinkSystem} (hlock : s.lock = none) (pc : StopPc) :
    ∃ t, s.stopStep true pc = some t ∧ t.pin.writeBuffer = s.pin.writeBuffer ∧
      t.writer = s.writer ∧ t.lock = none ∧ stopRank t.stopper < stopRank (some pc) ∧
      (t.stopper = none → t.pin.hPipe = .null) := by
  cases pc with
  | openPipe =>
    by_cases hp : s.pipe = some .listening
    · refine ⟨_, if_pos hp, rfl, rfl, hlock, ?_, fun h => (by cases h)⟩
      simp [stopRank]
    · refine ⟨_, if_neg hp, rfl, rfl, hlock, ?_, fun h => (by cases h)⟩
      simp [stopRank]
  | closeClient c =>
    refine ⟨_, rfl, rfl, rfl, hlock, ?_, fun h => (by cases h)⟩
    simp [stopRank]
  | waitListener =>
    by_cases hl : s.listener = none
    · refine ⟨_, if_pos hl, rfl, rfl, hlock, ?_, fun h => (by cases h)⟩
      simp [stopRank]
    · have hgo : s.stopStep true .waitListener =
          some { s with listener := none, stopper := some .disconnect } := by
        simp only [stopStep, hl, if_true, if_false]
      refine ⟨_, hgo, rfl, rfl, hlock, ?_, fun h => (by cases h)⟩
      simp [stopRank]
  | disconnect | closeHandle =>
    refine ⟨_, rfl, rfl, rfl, hlock, ?_, fun h => (by cases h)⟩
    simp [stopRank]
  | clear =>
    refine ⟨_, rfl, rfl, rfl, ?_, ?_, fun _ => rfl⟩
    · simp [hlock]
    · simp [stopRank]

/-- When StopServer has ended there is no pipe. -/
def Stops (s u : SinkSystem) : Prop := Kept s u ∧ (u.stopper = none → u.pin.hPipe = .null)

theorem Stops.step {s u : SinkSystem} (h : Stops s u) (hrank : stopRank u.stopper ≠ 0) :
    ∃ t, u.step (.stopServer true) = some t ∧ Stops s t ∧
      stopRank t.stopper < stopRank u.stopper := by
  obtain ⟨⟨hq, hw, hlife, hlock⟩, _⟩ := h
  cases hpc : u.stopper with
  | none => simp [hpc, stopRank] at hrank
  | some pc =>
    have hstep : u.step (.stopServer true) = u.stopStep true pc := by
      simp only [SinkSystem.step, hpc, Option.bind_some]
    obtain ⟨t, ht, htq, htw, htl, hlt, hend⟩ := stopStep_progress hlock pc
    have hkept : Kept s t :=
      ⟨htq.trans hq, htw.trans hw, (stopStep_life ht).trans hlife, htl⟩
    exact ⟨t, hstep.trans ht, ⟨hkept, hend⟩, hlt⟩

/-- EndOfStream can close the pipe. -/
theorem reach_no_pipe {s : SinkSystem} (hlock : s.lock = none) :
    ∃ u, Reach step s u ∧ Kept s u ∧ u.pin.hPipe = .null := by
  have hself : Kept s s := ⟨rfl, rfl, rfl, hlock⟩
  -- a call of EndOfStream starts StopServer, unless one is under way or needless
  have hstart : ∃ v, Reach step s v ∧ Stops s v := by
    by_cases hp : s.pin.hPipe = .null
    · exact ⟨s, Reach.refl s, hself, fun _ => hp⟩
    cases hst : s.stopper with
    | some pc =>
      refine ⟨s, Reach.refl s, hself, fun h => ?_⟩
      rw [hst] at h
      cases h
    | none =>
      have hstep : s.step .endOfStream = some { s with
          pin := { s.pin with bPipeServerRunning := false }, stopper := some .openPipe } := by
        simp only [step, endOfStream, hp, hst, if_true, if_false]
      refine ⟨_, Reach.single hstep, ⟨rfl, rfl, rfl, hlock⟩, fun h => ?_⟩
      cases h
  obtain ⟨v, hv, hstops⟩ := hstart
  have hrun : ∃ u, Reach step v u ∧ Stops s u ∧ stopRank u.stopper = 0 :=
    Reach.of_rank (Stops s) (fun u => stopRank u.stopper)
      (fun u hu hrank => ⟨_, hu.step hrank⟩) v hstops
  obtain ⟨u, hu, hend, hzero⟩ := hrun
  refine ⟨u, hv.trans hu, hend.1, hend.2 ?_⟩
  cases hst : u.stopper with
  | none => rfl
  | some pc => cases pc <;> simp [hst, stopRank] at hzero

/-- A client that has opened the pipe, with `m_bConnected` set and the writer running. -/
structure Flowing (c : Nat) (q : List Queued) (s : SinkSystem) : Prop where
  queue : s.pin.writeBuffer = q
  lock : s.lock = none
  buffering : s.pin.bWriteBuffering = true
  connected : s.pin.bConnected = true
  pipe : s.pipe = some (.connected c)
  client : c < s.logs.length
  writer : s.writer.isSome = true

/-- The writer's steps until it asks for the next sample. -/
def writerRank : Option WriterPc → Nat
  | none => 0
  | some .next => 0
  | some .inner => 1
  | some .outer => 2
  | some .sleeping => 3
  | some (.payload _ _ _) => 2
  | some (.header _ _) => 3
  | some (.latched _) => 4
  | some (.latching _) => 5
  | some (.taken _) => 6

theorem Flowing.of_pin {c : Nat} {q : List Queued} {s : SinkSystem} {pin : SinkInputPin}
    {w : WriterPc} (h : Flowing c q s) (hq : pin.writeBuffer = s.pin.writeBuffer)
    (hb : pin.bWriteBuffering = s.pin.bWriteBuffering) (hc : pin.bConnected = s.pin.bConnected) :
    Flowing c q { s with pin := pin, writer := some w } :=
  ⟨hq.trans h.queue, h.lock, hb.trans h.buffering, hc.trans h.connected, h.pipe, h.client, rfl⟩

theorem Flowing.of_write {c : Nat} {q : List Queued} {s : SinkSystem} {w : WriterPc} {m : Sent}
    (h : Flowing c q s) : Flowing c q { s.write m with writer := some w } :=
  ⟨h.queue, h.lock, h.buffering, h.connected, h.pipe, by
    show c < (s.core.write m).logs.length
    rw [Core.write_length]
    exact h.client, rfl⟩

theorem Flowing.taken {c : Nat} {q : List Queued} {s : SinkSystem} {x : Queued}
    (h : Flowing c q s) (hpc : s.writer = some (.taken x)) :
    ∃ t, s.step .writer = some t ∧ Flowing c q t ∧
      (t.writer = some (.latching x) ∨ t.writer = some (.latched x)) := by
  simp only [SinkSystem.step, hpc, Option.bind_some, writerStep]
  split
  · exact ⟨_, rfl, h.of_pin rfl rfl rfl, Or.inl rfl⟩
  · exact ⟨_, rfl, h.of_pin rfl rfl rfl, Or.inr rfl⟩

theorem Flowing.latching {c : Nat} {q : List Queued} {s : SinkSystem} {x : Queued}
    (h : Flowing c q s) (hpc : s.writer = some (.latching x)) :
    ∃ t, s.step .writer = some t ∧ Flowing c q t ∧ t.writer = some (.latched x) := by
  simp only [SinkSystem.step, hpc, Option.bind_some, writerStep]
  exact ⟨_, rfl, h.of_pin rfl rfl rfl, rfl⟩

/-- Past both assignments, or past the test that there is a reference point. -/
theorem Flowing.reach_latched {c : Nat} {q : List Queued} {s : SinkSystem} {x : Queued}
    (h : Flowing c q s) (hpc : s.writer = some (.taken x)) :
    ∃ t, Reach SinkSystem.step s t ∧ Flowing c q t ∧ t.writer = some (.latched x) := by
  obtain ⟨t, ht, hflow, hw | hw⟩ := h.taken hpc
  · obtain ⟨u, hu, hflow', hw'⟩ := hflow.latching hw
    exact ⟨u, (Reach.single ht).trans (Reach.single hu), hflow', hw'⟩
  · exact ⟨t, Reach.single ht, hflow, hw⟩

theorem Flowing.latched {c : Nat} {q : List Queued} {s : SinkSystem} {x : Queued}
    (h : Flowing c q s) (hpc : s.writer = some (.latched x)) :
    ∃ t p, s.step .writer = some t ∧ Flowing c q t ∧ t.writer = some (.header x p) := by
  simp only [SinkSystem.step, hpc, Option.bind_some, writerStep, h.connected, if_true]
  exact ⟨_, _, rfl, h.of_pin rfl rfl rfl, rfl⟩

theorem Flowing.header {c : Nat} {q : List Queued} {s : SinkSystem} {x : Queued} {p : Packet}
    (h : Flowing c q s) (hpc : s.writer = some (.header x p)) :
    ∃ t, s.step .writer = some t ∧ Flowing c q t ∧ t.core.Written x.id ∧
      writerRank t.writer < 3 := by
  simp only [SinkSystem.step, hpc, Option.bind_some, writerStep]
  refine ⟨_, rfl, h.of_write, ?_, ?_⟩
  · obtain ⟨log, hlog⟩ : ∃ log, s.logs[c]? = some log := ⟨_, List.getElem?_eq_getElem h.client⟩
    have hcl : s.core.client = some c := by simp only [core, SinkSystem.client, h.pipe]
    have hw := Core.write_attached hcl hlog (.head (x.id, p))
    exact ⟨_, List.mem_of_getElem? hw, p, by simp⟩
  · cases p.hasPayload
    · show 1 < 3
      omega
    · show 2 < 3
      omega

/-- Away from `next` the writer comes closer to it and leaves the queue alone. -/
theorem Flowing.step {c : Nat} {q : List Queued} {s : SinkSystem} (h : Flowing c q s)
    (hrank : writerRank s.writer ≠ 0) :
    ∃ t, s.step .writer = some t ∧ Flowing c q t ∧ writerRank t.writer < writerRank s.writer := by
  cases hpc : s.writer with
  | none => simp [hpc, writerRank] at hrank
  | some pc =>
    have hstep : s.step .writer = s.writerStep pc := by
      simp only [SinkSystem.step, hpc, Option.bind_some]
    cases pc with
    | next => simp [hpc, writerRank] at hrank
    | outer =>
      refine ⟨_, hstep.trans (if_pos h.buffering), h.of_pin rfl rfl rfl, ?_⟩
      show 1 < 2
      omega
    | inner =>
      refine ⟨_, hstep.trans (if_pos h.buffering), h.of_pin rfl rfl rfl, ?_⟩
      show 0 < 1
      omega
    | sleeping =>
      refine ⟨_, hstep, h.of_pin rfl rfl rfl, ?_⟩
      show 2 < 3
      omega
    | payload x p d =>
      refine ⟨_, hstep, h.of_write, ?_⟩
      show 1 < 2
      omega
    | taken x =>
      obtain ⟨t, ht, hflow, hw | hw⟩ := h.taken hpc
      · refine ⟨t, ht, hflow, ?_⟩
        rw [hw]
        show 5 < 6
        omega
      · refine ⟨t, ht, hflow, ?_⟩
        rw [hw]
        show 4 < 6
        omega
    | latching x =>
      obtain ⟨t, ht, hflow, hw⟩ := h.latching hpc
      refine ⟨t, ht, hflow, ?_⟩
      rw [hw]
      show 4 < 5
      omega
    | latched x =>
      obtain ⟨t, p, ht, hflow, hw⟩ := h.latched hpc
      refine ⟨t, ht, hflow, ?_⟩
      rw [hw]
      show 3 < 4
      omega
    | header x p =>
      obtain ⟨t, ht, hflow, _, hlt⟩ := h.header hpc
      exact ⟨t, ht, hflow, hlt⟩

/-- Once samples flow, the first of the queue is written. -/
theorem Flowing.reach_written {c : Nat} {x : Queued} {xs : List Queued} {s : SinkSystem}
    (h : Flowing c (x :: xs) s) : ∃ u, Reach SinkSystem.step s u ∧ u.core.Written x.id := by
  have hrun : ∃ t, Reach SinkSystem.step s t ∧ Flowing c (x :: xs) t ∧ writerRank t.writer = 0 :=
    Reach.of_rank (Flowing c (x :: xs)) (fun t => writerRank t.writer)
      (fun t ht hrank => ⟨_, ht.step hrank⟩) s h
  obtain ⟨t, hreach, ht, hzero⟩ := hrun
  have hnext : t.writer = some .next := by
    cases hpc : t.writer with
    | none =>
      have := ht.writer
      simp [hpc] at this
    | some pc => cases pc <;> simp_all [writerRank]
  have htake : t.step .writer =
      some { t with pin := { t.pin with writeBuffer := xs }, writer := some (.taken x) } := by
    simp only [SinkSystem.step, hnext, Option.bind_some, writerStep, ht.lock, ht.queue, if_true]
  have htaken : Flowing c xs
      { t with pin := { t.pin with writeBuffer := xs }, writer := some (.taken x) } :=
    ⟨rfl, ht.lock, ht.buffering, ht.connected, ht.pipe, ht.client, rfl⟩
  -- taken, latched, built, written
  obtain ⟨u₁, h₁, hf₁, hw₁⟩ := htaken.reach_latched rfl
  obtain ⟨u₂, p, h₂, hf₂, hw₂⟩ := hf₁.latched hw₁
  obtain ⟨u₃, h₃, _, hwritten, _⟩ := hf₂.header hw₂
  refine ⟨u₃, ?_, hwritten⟩
  exact hreach.trans ((Reach.single htake).trans
    (h₁.trans ((Reach.single h₂).trans (Reach.single h₃))))

/-- A client can connect: the pipe is closed, created again and opened, and the
    listener sees the client. -/
theorem reach_connected {s : SinkSystem} (hlock : s.lock = none) :
    ∃ c u, Reach step s u ∧ Kept s u ∧ u.pin.bConnected = true ∧
      u.pipe = some (.connected c) ∧ c < u.logs.length := by
  obtain ⟨v, hv, hkept, hnull⟩ := reach_no_pipe hlock
  have hconnect : ∃ u, run step v connectClient = some u ∧ Kept v u ∧ u.pin.bConnected = true ∧
      u.pipe = some (.connected v.logs.length) ∧ v.logs.length < u.logs.length := by
    simp only [connectClient, run, step, hkept.lock, notifyAllocatorStep, hnull, listenerStep,
      attach, Option.bind_some, if_true, Bool.true_and, bne_iff_ne, ne_eq, reduceCtorEq,
      not_false_eq_true]
    refine ⟨_, rfl, ⟨rfl, rfl, ?_, rfl⟩, rfl, rfl, ?_⟩
    · simp only [life, hkept.lock]
    · rw [List.length_append]
      exact Nat.lt_succ_self _
  obtain ⟨u, hrun, hku, hb, hp, hc⟩ := hconnect
  exact ⟨_, u, hv.trans ⟨_, hrun⟩, ⟨hku.queue.trans hkept.queue, hku.writer.trans hkept.writer,
    hku.life.trans hkept.life, hku.lock⟩, hb, hp, hc⟩

/-- Unless the pin is abandoned, a run sends the first sample of the queue. -/
theorem reach_first_written {s : SinkSystem} {x : Queued} {xs : List Queued}
    (hs : s.life.Sound) (hlock : s.lock = none) (hq : s.pin.writeBuffer = x :: xs)
    (hno : ¬ s.life.Abandoned) : ∃ u, Reach step s u ∧ u.core.Written x.id := by
  obtain ⟨c, u, hu, hkept, hconn, hpipe, hc⟩ := reach_connected hlock
  have hqu : u.pin.writeBuffer = x :: xs := hkept.queue.trans hq
  cases hb : u.pin.bWriteBuffering with
  | true =>
    have hbuf : s.life.bWriteBuffering = true := hkept.life ▸ hb
    have hwriter : u.writer.isSome = true := by
      rcases (hs.buffering hbuf).2 with ⟨_, hr⟩ | ⟨hthread, _⟩
      · rw [hkept.writer]
        exact hr
      · exact absurd ⟨hbuf, hthread⟩ hno
    have hflow : Flowing c (x :: xs) u := ⟨hqu, hkept.lock, hb, hconn, hpipe, hc, hwriter⟩
    obtain ⟨v, hv, hwritten⟩ := hflow.reach_written
    exact ⟨v, hu.trans hv, hwritten⟩
  | false =>
    -- the next Receive starts a writer
    have hstart : (u.pin.receive streaming u.received byteSample).startWriter = true := by
      rw [SinkInputPin.receive_startWriter, hb]
      rfl
    have hrecv : u.step (.receive streaming byteSample) = some { u with
        pin := (u.pin.receive streaming u.received byteSample).pin
        received := u.received + 1
        writer := some .outer } := by
      have hsame : byteSample.mediaType = none := rfl
      rw [step, if_pos hkept.lock, receiveStep_same_format hsame, hstart, if_pos rfl]
    have hflow : Flowing c (x :: (xs ++ [⟨u.received, MediaSampleX.new clearedHeap byteSample⟩]))
        { u with
          pin := (u.pin.receive streaming u.received byteSample).pin
          received := u.received + 1
          writer := some .outer } := by
      refine ⟨?_, hkept.lock, ?_, ?_, hpipe, hc, rfl⟩
      · rw [SinkInputPin.receive_writeBuffer, hqu]
        rfl
      · exact SinkInputPin.receive_bWriteBuffering _ _ _ _
      · rw [SinkInputPin.receive_bConnected]
        exact hconn
    obtain ⟨v, hv, hwritten⟩ := hflow.reach_written
    exact ⟨v, hu.trans ((Reach.single hrecv).trans hv), hwritten⟩

/-! What the discarding calls leave. -/

/-- The calls that are meant to discard the queue: Reset, BeginFlush, BreakConnect
    that returns at once, and BreakConnect that ends its wait. -/
def Discards : SinkAction → Prop
  | .reset => True
  | .beginFlush => True
  | .breakConnect => True
  | .breakWait _ => True
  | _ => False

/-- Whatever is written later was taken before, or is received later. -/
def Discarded (t : SinkSystem) : Prop := ∀ u, Reach step t u → ∀ id, u.core.Written id →
  t.core.Taken id ∨ t.received ≤ id

/-- What holds of the queue and the writer in every reachable state. -/
structure Ordered (s : SinkSystem) : Prop where
  life : s.life.Sound
  numbered : s.core.Numbered

theorem ordered_step (s : SinkSystem) (a : SinkAction) (t : SinkSystem) (h : s.Ordered)
    (hstep : s.step a = some t) : t.Ordered := by
  obtain ⟨l, _, happ⟩ := step_refines h.life hstep
  exact ⟨h.life.step (step_life hstep), h.numbered.apply happ⟩

theorem ordered_of_reach {hThread2 : ThreadHandle} {rtRefPoint2 : Int64} {s : SinkSystem}
    (h : Reach step (new hThread2 rtRefPoint2) s) : s.Ordered := by
  refine h.invariant ordered_step ⟨life_new hThread2 rtRefPoint2, List.Pairwise.nil, ?_, ?_⟩
  · intro x hx
    cases hx
  · intro id hid
    rcases hid with ⟨log, hlog, _⟩ | hid
    · cases hlog
    · cases hid

/-- A call that is meant to discard the queue leaves it as it is. -/
theorem discards_queue {s t : SinkSystem} {a : SinkAction} (ha : Discards a)
    (hstep : s.step a = some t) :
    t.pin.writeBuffer = s.pin.writeBuffer := by
  cases a with
  | reset | beginFlush | breakWait =>
    simp only [step, Option.ite_none_right_eq_some] at hstep
    obtain rfl := Option.some.inj hstep.2
    rfl
  | breakConnect =>
    simp only [step, Option.ite_none_right_eq_some] at hstep
    obtain ⟨_, hstep⟩ := hstep
    split at hstep <;> obtain rfl := Option.some.inj hstep <;> rfl
  | _ => exact ha.elim

/-- It does not make the pin abandoned either. -/
theorem discards_abandoned {s t : SinkSystem} {a : SinkAction} (hs : s.life.Sound)
    (ha : Discards a) (hstep : s.step a = some t) (ht : t.life.Abandoned) :
    s.life.Abandoned := by
  cases a with
  | reset | beginFlush =>
    simp only [step, Option.ite_none_right_eq_some] at hstep
    obtain rfl := Option.some.inj hstep.2
    exact ht
  | breakConnect =>
    simp only [step, Option.ite_none_right_eq_some] at hstep
    obtain ⟨_, hstep⟩ := hstep
    split at hstep
    · obtain rfl := Option.some.inj hstep
      exact ht
    · obtain rfl := Option.some.inj hstep
      cases ht.1
  | breakWait timeout =>
    simp only [step, Option.ite_none_right_eq_some] at hstep
    obtain ⟨⟨hlock, _⟩, hstep⟩ := hstep
    obtain rfl := Option.some.inj hstep
    have hbuf : s.life.bWriteBuffering = true := ht.1
    have hstop := (hs.buffering hbuf).1
    simp [SinkSystem.life, hlock] at hstop
  | _ => exact ha.elim

/-- From a pin with nothing queued, later runs write what was taken or comes later. -/
theorem Discarded.of_empty {t : SinkSystem} (ht : t.Ordered) (hq : t.pin.writeBuffer = []) :
    Discarded t := by
  intro u hu id hid
  have hin : t.core.Within (fun id => t.core.Taken id ∨ t.received ≤ id) := by
    refine ⟨fun x hx => ?_, fun _ h => Or.inl h, fun _ h => Or.inr h⟩
    rw [show t.core.queue = [] from hq] at hx
    cases hx
  have hinv : u.Ordered ∧ u.core.Within (fun id => t.core.Taken id ∨ t.received ≤ id) := by
    refine hu.invariant (I := fun v => v.Ordered ∧
      v.core.Within (fun id => t.core.Taken id ∨ t.received ≤ id)) ?_ ⟨ht, hin⟩
    intro v b w hv hb
    obtain ⟨l, _, happ⟩ := step_refines hv.1.life hb
    exact ⟨ordered_step v b w hv.1 hb, hv.2.apply happ⟩
  exact hinv.2.taken id (Or.inl hid)

/-- On an abandoned pin nothing is written any more. -/
theorem Discarded.of_abandoned {t : SinkSystem} (ht : t.Ordered) (ha : t.life.Abandoned) :
    Discarded t := by
  intro u hu id hid
  have hinv : u.Ordered ∧ u.life.Abandoned ∧ ∀ id, u.core.Taken id → t.core.Taken id := by
    refine hu.invariant (I := fun v => v.Ordered ∧ v.life.Abandoned ∧
      ∀ id, v.core.Taken id → t.core.Taken id) ?_ ⟨ht, ha, fun _ h => h⟩
    intro v a w hv hstep
    obtain ⟨hord, hab, htaken⟩ := hv
    refine ⟨ordered_step v a w hord hstep, hab.step hord.life (step_life hstep), fun i hi => ?_⟩
    apply htaken
    obtain ⟨l, hl, happ⟩ := step_refines hord.life hstep
    rcases Core.apply_queue happ with ⟨_, _, ht⟩ | ⟨_, _, _, ht⟩ | ⟨x, rfl, _⟩
    · exact ht i hi
    · exact ht i hi
    · -- a sample is only taken by a writer
      have hrun : v.life.running = true := hl.2.2
      rw [hab.not_running hord.life] at hrun
      cases hrun
  exact Or.inl (hinv.2.2 id (Or.inl hid))

/-- A sample that is still queued is written in some later run. -/
theorem not_discarded_of_queued {t : SinkSystem} {x : Queued} {xs : List Queued} (ht : t.Ordered)
    (hlock : t.lock = none) (hq : t.pin.writeBuffer = x :: xs) (hno : ¬ t.life.Abandoned) :
    ¬ Discarded t := by
  intro hdis
  obtain ⟨u, hu, hwritten⟩ := reach_first_written ht.life hlock hq hno
  have hmem : x ∈ t.core.queue := by
    show x ∈ t.pin.writeBuffer
    rw [hq]
    exact List.mem_cons_self
  rcases hdis u hu x.id hwritten with htaken | hlate
  · have := (ht.numbered.taken_lt x.id htaken).2 x hmem
    omega
  · have : x.id < t.received := ht.numbered.lt_received x hmem
    omega

/-- **Discarded samples over runs**: after Reset, BeginFlush or BreakConnect has
    returned, later runs write only samples that were taken before or are received
    later, exactly when there was nothing to discard or CreateThread has failed. -/
theorem discarded_stays_discarded_iff {hThread2 : ThreadHandle} {rtRefPoint2 : Int64}
    {s t : SinkSystem} {a : SinkAction} (hs : Reach step (new hThread2 rtRefPoint2) s)
    (ha : Discards a) (hstep : s.step a = some t) (hreturned : t.lock = none) :
    Discarded t ↔ s.pin.writeBuffer = [] ∨
      (s.pin.bWriteBuffering = true ∧ s.pin.hThread2 = .null) := by
  have hord := ordered_of_reach hs
  have hordt := ordered_step s a t hord hstep
  have hqueue := discards_queue ha hstep
  refine ⟨fun hdis => ?_, fun h => ?_⟩
  · cases hq : s.pin.writeBuffer with
    | nil => exact Or.inl rfl
    | cons x xs =>
      by_cases hab : s.life.Abandoned
      · exact Or.inr hab
      have hnot : ¬ t.life.Abandoned := fun h => hab (discards_abandoned hord.life ha hstep h)
      exact absurd hdis (not_discarded_of_queued hordt hreturned (hqueue.trans hq) hnot)
  · rcases h with hempty | hab
    · exact Discarded.of_empty hordt (hqueue.trans hempty)
    · have habs : s.life.Abandoned := hab
      exact Discarded.of_abandoned hordt (habs.step hord.life (step_life hstep))

/-- A sample is received, and the writer takes it. -/
def receiveAndTake : List SinkAction :=
  connectClient ++ [.receive streaming byteSample, .writer, .writer, .writer]

/-- Reset when the writer has taken what was received, and has yet to write it. -/
theorem discarded_stays_discarded_iff_all_taken :
    ∃ t, run step (new .garbage 0) (receiveAndTake ++ [.reset]) = some t ∧ t.received = 1 ∧
      t.core.stage = .held ⟨0, MediaSampleX.new streaming.capture byteSample⟩ ∧ Discarded t := by
  obtain ⟨s, hs⟩ : ∃ s, run step (new .garbage 0) receiveAndTake = some s ∧
      s.pin.writeBuffer = [] ∧ s.lock = none ∧ s.received = 1 ∧
      s.core.stage = .held ⟨0, MediaSampleX.new streaming.capture byteSample⟩ :=
    ⟨_, rfl, rfl, rfl, rfl, rfl⟩
  obtain ⟨hrun, hempty, hlock, hreceived, hstage⟩ := hs
  have hstep : s.step .reset = some { s with pin := s.pin.reset } := if_pos hlock
  refine ⟨_, run_append.mpr ⟨s, hrun, run_cons.mpr ⟨_, hstep, rfl⟩⟩, hreceived, hstage, ?_⟩
  exact (discarded_stays_discarded_iff (a := .reset) ⟨_, hrun⟩ trivial hstep hlock).mpr
    (Or.inl hempty)

/-- A sample that is queued when Reset is called is written after it. -/
theorem reset_keeps_sample :
    ∃ s t, run step (new .garbage 0) (connectClient ++ [.receive streaming byteSample]) = some s ∧
      s.step .reset = some t ∧ s.pin.writeBuffer.map (·.id) = [0] ∧ t.received = 1 ∧
      ¬ Discarded t := by
  have hrun : ∃ s t u, run step (new .garbage 0)
      (connectClient ++ [.receive streaming byteSample]) = some s ∧ s.step .reset = some t ∧
        s.pin.writeBuffer.map (·.id) = [0] ∧ t.received = 1 ∧ t.logs = [[]] ∧
        WriterPc.stage t.writer = .idle ∧
        run step t (List.replicate 7 .writer) = some u ∧
        ∃ p, u.logs = [[.head (0, p)]] :=
    ⟨_, _, _, rfl, rfl, rfl, rfl, rfl, rfl, rfl, _, rfl⟩
  obtain ⟨s, t, u, hs, ht, hq, hr, hlogs, hidle, hu, p, hp⟩ := hrun
  refine ⟨s, t, hs, ht, hq, hr, fun hdis => ?_⟩
  have hwritten : u.core.Written 0 := ⟨_, hp ▸ List.mem_singleton_self _, p, by simp⟩
  rcases hdis u ⟨_, hu⟩ 0 hwritten with (⟨log, hlog, p', hp'⟩ | hhand) | hlate
  · rw [show t.core.logs = [[]] from hlogs, List.mem_singleton] at hlog
    rw [hlog] at hp'
    cases hp'
  · rw [show t.core.stage = .idle from hidle] at hhand
    cases hhand
  · omega

end SinkSystem

end VirtualCaptureStream
