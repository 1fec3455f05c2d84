import VirtualCaptureStream.SinkWriterLife

/- The writer threads of a pin, told apart. SinkSystem has room for one writer thread;
   here every CreateThread makes another one, `m_hThread2` is the handle of a particular
   thread, and CreateWriteBufferThread, which is public and takes no lock, may be called
   from anywhere.

   What is proved:
     1. `one_writer_iff` — a run keeps to one writer exactly when the memory of the new
        pin has NULL in `m_hThread2`, CreateThread succeeds wherever write buffering is
        off, and a CreateWriteBufferThread that creates a writer finds none alive.
     2. `failed_connection_terminates_garbage` — else the first BreakConnect, also that of
        a connection that fails, terminates what the memory was the handle of.

   Correspondence (C++ ↔ Lean):
     CreateThread in CreateWriteBufferThread ↔ `adopt`
     `InstanceWritePipeThread`               ↔ an entry of `writers`, `writerStep`
     BreakConnect, up to its wait, its wait  ↔ `breakConnect`, `breakWait`
     `TerminateThread(m_hThread2, 0)`        ↔ `terminate`
     a connection that fails, Disconnect     ↔ `breakConnect`
     a connection that succeeds              ↔ nothing, or NotifyAllocator
   A BreakConnect that CBaseInputPin's refuses returns before it comes to the writer. -/
namespace VirtualCaptureStream

/-- `m_hThread2`, and the thread it is the handle of. Writer threads are numbered as
    they are created. -/
inductive WriterHandle where
  | null
  | garbage
  | thread (id : Nat)
  deriving DecidableEq

/-- The sink, its own writer slot left empty, and the writer threads (`none` once one has
    ended). `thread2`: the thread behind a handle in `m_hThread2`; `waits`: the handle a
    BreakConnect waits for; `told`: the threads BreakConnect has told to stop;
    `targets`: what it has waited for and what it has terminated. -/
structure WriterPool where
  sink : SinkSystem
  writers : List (Option WriterPc)
  thread2 : Nat
  waits : Option WriterHandle
  told : List Nat
  targets : List WriterHandle

inductive PoolAction where
  | call (a : SinkSystem.SinkAction)
  | createWriteBufferThread (thread : Bool)
  | writer (id : Nat)

namespace WriterPool

open Transition (run Meets Always always_iff_meets_of_invariant)

/-- A new pin. -/
def new (hThread2 : ThreadHandle) (rtRefPoint2 : Int64) : WriterPool where
  sink := SinkSystem.new hThread2 rtRefPoint2
  writers := []
  thread2 := 0
  waits := none
  told := []
  targets := []

def hThread2 (s : WriterPool) : WriterHandle :=
  match s.sink.pin.hThread2 with
  | .null => .null
  | .garbage => .garbage
  | .thread => .thread s.thread2

theorem hThread2_eq_null {s : WriterPool} : s.hThread2 = .null ↔ s.sink.pin.hThread2 = .null := by
  unfold hThread2
  cases s.sink.pin.hThread2 <;> simp

theorem hThread2_eq_thread {s : WriterPool} {id : Nat} :
    s.hThread2 = .thread id ↔ s.sink.pin.hThread2 = .thread ∧ s.thread2 = id := by
  unfold hThread2
  cases s.sink.pin.hThread2 <;> simp

/-- Where a writer thread is. -/
def pc (s : WriterPool) (id : Nat) : Option WriterPc := s.writers[id]?.join

/-- The sink after a call; a writer that the call created gets the next number. -/
def adopt (s : WriterPool) (t : SinkSystem) : WriterPool :=
  match t.writer with
  | none => { s with sink := t }
  | some pc =>
    { s with
      sink := { t with writer := none }
      writers := s.writers ++ [some pc]
      thread2 := s.writers.length }

/-- CreateWriteBufferThread, not called by Receive. -/
def createWriteBufferThread (s : WriterPool) (thread : Bool) : WriterPool :=
  s.adopt { s.sink with
    pin := s.sink.pin.createWriteBufferThread thread
    writer := if thread then some .outer else none }

/-- One step of a writer thread. -/
def writerStep (s : WriterPool) (id : Nat) : Option WriterPool :=
  (s.pc id).bind fun pc =>
    (SinkSystem.writerStep { s.sink with writer := some pc } pc).map fun t =>
      { s with sink := { t with writer := none }, writers := s.writers.set id t.writer }

/-- BreakConnect, up to its wait. -/
def breakConnect (s : WriterPool) : Option WriterPool :=
  (s.sink.step .breakConnect).map fun t =>
    match s.hThread2 with
    | .null => { s with sink := t }
    | .garbage =>
      { s with sink := t, waits := some .garbage, targets := s.targets ++ [.garbage] }
    | .thread id =>
      { s with
        sink := t
        waits := some (.thread id)
        told := s.told ++ [id]
        targets := s.targets ++ [.thread id] }

/-- TerminateThread on what is in `m_hThread2` by then. -/
def terminate (s : WriterPool) : WriterPool :=
  match s.hThread2 with
  | .null => s
  | .garbage => { s with targets := s.targets ++ [.garbage] }
  | .thread id =>
    { s with
      sink := SinkSystem.terminateWriter { s.sink with writer := s.pc id }
      writers := s.writers.set id none
      targets := s.targets ++ [.thread id] }

/-- WaitForSingleObject waits for a thread that runs, and not for what is no thread. -/
def waitOver (s : WriterPool) : WriterHandle → Bool
  | .thread id => (s.pc id).isNone
  | _ => true

/-- The wait of BreakConnect ends, with what comes after it. -/
def breakWait (s : WriterPool) (timeout : Bool) : Option WriterPool :=
  s.waits.bind fun h =>
    if s.waitOver h = true ∨ timeout = true then
      let s := if timeout then s.terminate else s
      some { s with
        sink := { s.sink with pin := { s.sink.pin with hThread2 := .null }, lock := none }
        waits := none }
    else none

/-- One step of the pool. -/
def step (s : WriterPool) : PoolAction → Option WriterPool
  | .call .breakConnect => s.breakConnect
  | .call (.breakWait timeout) => s.breakWait timeout
  | .call a => (s.sink.step a).map s.adopt
  | .createWriteBufferThread thread => some (s.createWriteBufferThread thread)
  | .writer id => s.writerStep id

/-- The thread runs. -/
def Alive (s : WriterPool) (id : Nat) : Prop := (s.pc id).isSome = true

/-- It is the writer thread this pin created last. -/
def Last (s : WriterPool) (id : Nat) : Prop := id + 1 = s.writers.length

/-- **One writer.** `m_hThread2` is NULL or the handle of the writer created last, write
    buffering is on exactly when that one was created and not told to stop, at most
    one writer is alive, and BreakConnect has only waited for and terminated threads
    of this pin. -/
structure OneWriter (s : WriterPool) : Prop where
  handle : s.hThread2 = .null ∨ ∃ id, s.hThread2 = .thread id ∧ s.Last id
  buffering : s.sink.pin.bWriteBuffering = true ↔ ∃ id, s.Last id ∧ id ∉ s.told
  alone : ∀ i j, s.Alive i → s.Alive j → i = j
  targets : ∀ h ∈ s.targets, ∃ id, h = .thread id ∧ id < s.writers.length

/-- CreateThread succeeds where write buffering is off, and a writer that
    CreateWriteBufferThread creates is the only one. -/
def CreatesOne (s : WriterPool) : PoolAction → Prop
  | .call (.receive env _) => s.sink.pin.bWriteBuffering = false → env.thread = true
  | .createWriteBufferThread true => ∀ id, ¬ s.Alive id
  | .createWriteBufferThread false => s.sink.pin.bWriteBuffering = true
  | _ => True

/-! The threads after each kind of step. -/

section
variable {s : WriterPool} {id : Nat}

theorem alive_iff : s.Alive id ↔ ∃ pc, s.writers[id]? = some (some pc) := by
  unfold Alive pc
  rw [Option.isSome_iff_exists]
  exact exists_congr fun x => Option.join_eq_some_iff

theorem Alive.lt (h : s.Alive id) : id < s.writers.length := by
  obtain ⟨pc, hpc⟩ := alive_iff.mp h
  exact (List.getElem?_eq_some_iff.mp hpc).1

theorem Last.lt (h : s.Last id) : id < s.writers.length := by
  unfold Last at h
  omega

/-- A step of one thread, or its end, leaves the others alone. -/
theorem alive_set {w : Option WriterPc} {j : Nat} :
    Alive { s with writers := s.writers.set id w } j ↔
      if j = id then id < s.writers.length ∧ w.isSome = true else s.Alive j := by
  unfold Alive pc
  dsimp only
  rw [List.getElem?_set]
  by_cases hj : j = id
  · rw [if_pos hj, if_pos hj.symm]
    by_cases hlt : id < s.writers.length
    · rw [if_pos hlt]
      exact (and_iff_right hlt).symm
    · rw [if_neg hlt]
      exact ⟨fun h => (by cases h), fun h => absurd h.1 hlt⟩
  · rw [if_neg hj, if_neg (Ne.symm hj)]

/-- A thread that takes a step was alive, and no other thread comes to life by it. -/
theorem Alive.of_set {w : Option WriterPc} {j : Nat} (hw : w.isSome = true → s.Alive id)
    (h : Alive { s with writers := s.writers.set id w } j) : s.Alive j := by
  rw [alive_set] at h
  split at h
  · rename_i hj
    rw [hj]
    exact hw h.2
  · exact h

theorem not_alive_set : ¬ Alive { s with writers := s.writers.set id none } id := by
  rw [alive_set, if_pos rfl]
  exact fun h => by cases h.2

theorem adopt_of_none {t : SinkSystem} (h : t.writer = none) :
    s.adopt t = { s with sink := t } := by
  simp only [adopt, h]

theorem adopt_of_some {t : SinkSystem} {pc : WriterPc} (h : t.writer = some pc) :
    s.adopt t =
      { s with
        sink := { t with writer := none }
        writers := s.writers ++ [some pc]
        thread2 := s.writers.length } := by
  simp only [adopt, h]

/-- Beside the threads there were, a call that created one leaves the new one. -/
theorem alive_append {pc : WriterPc} {j : Nat} :
    Alive { s with writers := s.writers ++ [some pc] } j ↔
      s.Alive j ∨ j = s.writers.length := by
  unfold Alive WriterPool.pc
  dsimp only
  rcases Nat.lt_trichotomy j s.writers.length with hj | hj | hj
  · rw [List.getElem?_append_left hj]
    exact (or_iff_left (Nat.ne_of_lt hj)).symm
  · rw [hj, List.getElem?_concat_length]
    exact iff_of_true rfl (Or.inr rfl)
  · rw [List.getElem?_eq_none (by simp; omega), List.getElem?_eq_none (Nat.le_of_lt hj)]
    exact (or_iff_left (Nat.ne_of_gt hj)).symm

end

/-! The invariant. -/

/-- A writer that runs is the last one, and without write buffering a BreakConnect waits
    for it, which is then what `m_hThread2` is the handle of. -/
structure Sole (s : WriterPool) : Prop where
  empty : s.sink.writer = none
  waiting : s.sink.life.stopping = true ↔ s.waits.isSome = true
  handle : s.hThread2 = .null ∨ ∃ id, s.hThread2 = .thread id ∧ s.Last id
  buffering : s.sink.pin.bWriteBuffering = true ↔ ∃ id, s.Last id ∧ id ∉ s.told
  told : ∀ id ∈ s.told, id < s.writers.length
  targets : ∀ h ∈ s.targets, ∃ id, h = .thread id ∧ id < s.writers.length
  last : ∀ id, s.Alive id → s.Last id
  off : s.sink.pin.bWriteBuffering = false → s.waits = none → ∀ id, ¬ s.Alive id
  waited : s.sink.pin.bWriteBuffering = false → ∀ h, s.waits = some h →
    ∃ id, h = .thread id ∧ s.hThread2 = .thread id

theorem Sole.one {s : WriterPool} (h : s.Sole) : s.OneWriter where
  handle := h.handle
  buffering := h.buffering
  alone i j hi hj := by
    have hi := h.last i hi
    have hj := h.last j hj
    unfold Last at hi hj
    omega
  targets := h.targets

theorem sole_new (rtRefPoint2 : Int64) : (new .null rtRefPoint2).Sole where
  empty := rfl
  waiting := by simp [new, SinkSystem.life, SinkSystem.new]
  handle := Or.inl rfl
  buffering := by simp [new, SinkSystem.new, SinkInputPin.new, Last]
  told := by simp [new]
  targets := by simp [new]
  last id h := absurd h.lt (Nat.not_lt_zero id)
  off _ _ id h := absurd h.lt (Nat.not_lt_zero id)
  waited _ h hw := by cases hw

section
variable {s : WriterPool}

/-- The rest of the sink may change. -/
theorem Sole.sink {t : SinkSystem} (h : s.Sole) (ht : t.life = s.sink.life) :
    Sole { s with sink := t } := by
  have hb : t.pin.bWriteBuffering = s.sink.pin.bWriteBuffering :=
    congrArg WriterLife.bWriteBuffering ht
  have hh : hThread2 { s with sink := t } = s.hThread2 := by
    simp only [hThread2, show t.pin.hThread2 = s.sink.pin.hThread2 from
      congrArg WriterLife.hThread2 ht]
  have hempty : t.writer = none := by
    refine SinkSystem.writer_of_life ?_
    rw [ht]
    simp [SinkSystem.life, h.empty]
  exact {
    empty := hempty
    waiting := by rw [← h.waiting, ← ht]
    handle := by rw [hh]; exact h.handle
    buffering := by rw [hb]; exact h.buffering
    told := h.told
    targets := h.targets
    last := h.last
    off := by rw [hb]; exact h.off
    waited := by rw [hb, hh]; exact h.waited }

/-- A writer thread goes on, or it ends. -/
theorem Sole.set (id : Nat) {w : Option WriterPc} (h : s.Sole)
    (hw : w.isSome = true → s.Alive id) : Sole { s with writers := s.writers.set id w } := by
  have hlen : ({ s with writers := s.writers.set id w } : WriterPool).writers.length =
      s.writers.length := List.length_set
  exact {
    empty := h.empty
    waiting := h.waiting
    handle := by unfold Last; rw [hlen]; exact h.handle
    buffering := by unfold Last; rw [hlen]; exact h.buffering
    told := by rw [hlen]; exact h.told
    targets := by rw [hlen]; exact h.targets
    last := by
      intro j hj
      unfold Last
      rw [hlen]
      exact h.last j (hj.of_set hw)
    off hoff hwaits j hj := h.off hoff hwaits j (hj.of_set hw)
    waited := h.waited }

/-- CreateThread succeeds where no writer is alive. -/
theorem Sole.created {t : SinkSystem} (h : s.Sole)
    (ht : t.life = ⟨true, .thread, s.sink.life.stopping, true⟩) (hnone : ∀ id, ¬ s.Alive id) :
    (s.adopt t).Sole := by
  have hb : t.pin.bWriteBuffering = true := congrArg WriterLife.bWriteBuffering ht
  have hh : t.pin.hThread2 = .thread := congrArg WriterLife.hThread2 ht
  have hs : t.life.stopping = s.sink.life.stopping := by rw [ht]
  obtain ⟨pc, hpc⟩ := Option.isSome_iff_exists.mp
    (show t.writer.isSome = true from congrArg WriterLife.running ht)
  rw [adopt_of_some hpc]
  have hlen : (s.writers ++ [some pc]).length = s.writers.length + 1 := by simp
  exact {
    empty := rfl
    waiting := by
      rw [← h.waiting, ← hs]
      exact Iff.rfl
    handle := Or.inr ⟨s.writers.length, by simp only [hThread2, hh], hlen.symm⟩
    buffering := by
      refine iff_of_true hb ⟨s.writers.length, hlen.symm, fun hmem => ?_⟩
      exact Nat.lt_irrefl _ (h.told _ hmem)
    told := by
      intro id hid
      rw [hlen]
      exact Nat.lt_succ_of_lt (h.told id hid)
    targets := by
      intro x hx
      obtain ⟨id, rfl, hid⟩ := h.targets x hx
      exact ⟨id, rfl, by rw [hlen]; exact Nat.lt_succ_of_lt hid⟩
    last := by
      intro id hid
      rcases alive_append.mp hid with hold | rfl
      · exact absurd hold (hnone id)
      · exact hlen.symm
    off := fun hoff => by rw [hb] at hoff; cases hoff
    waited := fun hoff => by rw [hb] at hoff; cases hoff }

/-- CreateThread fails under write buffering. -/
theorem Sole.failed {t : SinkSystem} (h : s.Sole)
    (ht : t.life = ⟨true, .null, s.sink.life.stopping, false⟩)
    (hon : s.sink.pin.bWriteBuffering = true) : (s.adopt t).Sole := by
  have hb : t.pin.bWriteBuffering = true := congrArg WriterLife.bWriteBuffering ht
  have hh : t.pin.hThread2 = .null := congrArg WriterLife.hThread2 ht
  have hs : t.life.stopping = s.sink.life.stopping := by rw [ht]
  have hempty : t.writer = none := SinkSystem.writer_of_life (by rw [ht])
  rw [adopt_of_none hempty]
  exact {
    empty := hempty
    waiting := by
      rw [← h.waiting, ← hs]
    handle := Or.inl (by simp only [hThread2, hh])
    buffering := iff_of_true hb (h.buffering.mp hon)
    told := h.told
    targets := h.targets
    last := h.last
    off := fun hoff => by rw [hb] at hoff; cases hoff
    waited := fun hoff => by rw [hb] at hoff; cases hoff }

/-- What BreakConnect does before its wait: nothing without a handle, else it tells the
    last writer to stop, and begins to wait for it. -/
theorem Sole.breakConnect_cases {t : WriterPool} (h : s.Sole)
    (hstep : s.breakConnect = some t) :
    t = s ∨ ∃ id, s.hThread2 = .thread id ∧ s.Last id ∧ t = { s with
      sink := { s.sink with
        pin := { s.sink.pin with bWriteBuffering := false }, lock := some .breakConnect }
      waits := some (.thread id)
      told := s.told ++ [id]
      targets := s.targets ++ [.thread id] } := by
  obtain ⟨u, hu, rfl⟩ := Option.map_eq_some_iff.mp hstep
  simp only [SinkSystem.step, Option.ite_none_right_eq_some] at hu
  obtain ⟨_, hu⟩ := hu
  rcases h.handle with hnull | ⟨id, hid, hlast⟩
  · rw [if_pos (hThread2_eq_null.mp hnull)] at hu
    obtain rfl := Option.some.inj hu
    simp only [hnull]
    exact Or.inl trivial
  · have hthread := (hThread2_eq_thread.mp hid).1
    rw [if_neg (by rw [hthread]; decide)] at hu
    obtain rfl := Option.some.inj hu
    simp only [hid]
    exact Or.inr ⟨id, rfl, hlast, rfl⟩

theorem Sole.breakConnect {t : WriterPool} (h : s.Sole) (hstep : s.breakConnect = some t) :
    t.Sole := by
  rcases h.breakConnect_cases hstep with rfl | ⟨id, hid, hlast, rfl⟩
  · exact h
  · exact {
      empty := h.empty
      waiting := by simp [SinkSystem.life]
      handle := Or.inr ⟨id, hid, hlast⟩
      buffering := by
        refine iff_of_false Bool.false_ne_true ?_
        rintro ⟨j, hj, hmem⟩
        have hji : j = id := Nat.succ.inj (hj.trans hlast.symm)
        exact hmem (by rw [hji]; exact List.mem_append_right _ List.mem_cons_self)
      told := by
        intro j hj
        rcases List.mem_append.mp hj with hj | hj
        · exact h.told j hj
        · rw [List.mem_singleton.mp hj]
          exact hlast.lt
      targets := by
        intro x hx
        rcases List.mem_append.mp hx with hx | hx
        · exact h.targets x hx
        · exact ⟨id, List.mem_singleton.mp hx, hlast.lt⟩
      last := h.last
      off := fun _ hnone => by cases hnone
      waited := by
        intro _ x hx
        exact ⟨id, (Option.some.inj hx).symm, hid⟩ }

/-- TerminateThread ends the thread behind the handle, which is one of this pin. -/
theorem Sole.terminate (h : s.Sole) : s.terminate.Sole := by
  unfold WriterPool.terminate
  rcases h.handle with hnull | ⟨id, hid, hlast⟩
  · simp only [hnull]
    exact h
  · simp only [hid]
    have hlife : (SinkSystem.terminateWriter { s.sink with writer := s.pc id }).life =
        s.sink.life := by
      obtain ⟨cut, hcut⟩ := SinkSystem.terminateWriter_writes { s.sink with writer := s.pc id }
      rw [hcut]
      simp [SinkSystem.life, h.empty]
    have hset := (h.sink hlife).set id (w := none) (fun hw => by cases hw)
    exact { hset with
      targets := by
        intro x hx
        rcases List.mem_append.mp hx with hx | hx
        · exact hset.targets x hx
        · refine ⟨id, List.mem_singleton.mp hx, ?_⟩
          rw [show (s.writers.set id none).length = s.writers.length from List.length_set]
          exact hlast.lt }

/-- BreakConnect forgets the handle. Where write buffering is off, its thread has ended. -/
theorem Sole.released (h : s.Sole)
    (hnone : s.sink.pin.bWriteBuffering = false → ∀ id, ¬ s.Alive id) :
    Sole { s with
      sink := { s.sink with pin := { s.sink.pin with hThread2 := .null }, lock := none }
      waits := none } where
  empty := h.empty
  waiting := by simp [SinkSystem.life]
  handle := Or.inl rfl
  buffering := h.buffering
  told := h.told
  targets := h.targets
  last := h.last
  off hoff _ := hnone hoff
  waited _ _ hx := by cases hx

theorem Sole.last_of_handle {w : Nat} (h : s.Sole) (hw : s.hThread2 = .thread w) :
    s.Last w := by
  rcases h.handle with hnull | ⟨j, hj, hlast⟩
  · rw [hw] at hnull
    cases hnull
  · rw [hw, WriterHandle.thread.injEq] at hj
    exact hj ▸ hlast

/-- A writer that is alive is the one behind the handle. -/
theorem Sole.alive_eq {id w : Nat} (h : s.Sole) (hid : s.Alive id)
    (hw : s.hThread2 = .thread w) : id = w :=
  Nat.succ.inj ((h.last id hid).trans (h.last_of_handle hw).symm)

theorem terminate_pin : s.terminate.sink.pin = s.sink.pin := by
  unfold WriterPool.terminate
  cases s.hThread2 with
  | null | garbage => rfl
  | thread id => exact SinkSystem.terminateWriter_pin _

/-- The end of the wait, with or without a TerminateThread before it. -/
theorem breakWait_cases {t : WriterPool} {timeout : Bool} (hstep : s.breakWait timeout = some t) :
    ∃ x, s.waits = some x ∧ (s.waitOver x = true ∨ timeout = true) ∧
      ∃ r, r = (if timeout then s.terminate else s) ∧ t = { r with
        sink := { r.sink with pin := { r.sink.pin with hThread2 := .null }, lock := none }
        waits := none } := by
  obtain ⟨x, hx, hstep⟩ := Option.bind_eq_some_iff.mp hstep
  rw [Option.ite_none_right_eq_some] at hstep
  exact ⟨x, hx, hstep.1, _, rfl, (Option.some.inj hstep.2).symm⟩

theorem Sole.breakWait {t : WriterPool} {timeout : Bool} (h : s.Sole)
    (hstep : s.breakWait timeout = some t) : t.Sole := by
  obtain ⟨x, hx, hover, _, rfl, rfl⟩ := breakWait_cases hstep
  cases timeout with
  | false =>
    refine h.released fun hoff id hid => ?_
    obtain ⟨w, rfl, hw⟩ := h.waited hoff x hx
    have hgone := hover.resolve_right Bool.false_ne_true
    rw [← h.alive_eq hid hw] at hgone
    exact absurd hid (by simpa [waitOver, Alive] using hgone)
  | true =>
    refine h.terminate.released fun hoff id hid => ?_
    change s.terminate.sink.pin.bWriteBuffering = false at hoff
    change s.terminate.Alive id at hid
    rw [terminate_pin] at hoff
    obtain ⟨w, _, hw⟩ := h.waited hoff x hx
    simp only [WriterPool.terminate, hw] at hid
    have hold : s.Alive id := Alive.of_set (s := s) (fun hw => by cases hw) hid
    rw [h.alive_eq hold hw] at hid
    exact not_alive_set (s := s) hid

/-- A thread takes a step. -/
theorem Sole.writerStep {t : WriterPool} {id : Nat} (h : s.Sole)
    (hstep : s.writerStep id = some t) : t.Sole := by
  obtain ⟨pc, hpc, hstep⟩ := Option.bind_eq_some_iff.mp hstep
  obtain ⟨u, hu, rfl⟩ := Option.map_eq_some_iff.mp hstep
  obtain ⟨_, _, _, _, w, rfl⟩ := SinkSystem.writerStep_writes hu
  refine Sole.set id (s := { s with sink := _ }) (h.sink ?_) fun _ => ?_
  · simp [SinkSystem.life, h.empty]
  · exact Option.isSome_iff_exists.mpr ⟨pc, hpc⟩

end

/-! One step. -/

section
variable {s : WriterPool} {t : SinkSystem}

/-- A call that starts no writer. -/
theorem Sole.adopt (h : s.Sole) (ht : t.life = s.sink.life) : (s.adopt t).Sole := by
  have hsink := h.sink ht
  rw [adopt_of_none hsink.empty]
  exact hsink

theorem life_receive {env : SinkInputPin.ReceiveEnv} {sample : MediaSample} (h : s.Sole)
    (hstep : s.sink.step (.receive env sample) = some t) :
    s.waits = none ∧ t.life = if s.sink.pin.bWriteBuffering then s.sink.life
      else ⟨true, if env.thread then .thread else .null, s.sink.life.stopping, env.thread⟩ := by
  simp only [SinkSystem.step, Option.ite_none_right_eq_some] at hstep
  obtain ⟨hlock, hstep⟩ := hstep
  have hstop : s.sink.life.stopping = false := by simp [SinkSystem.life, hlock]
  refine ⟨?_, ?_⟩
  · rw [← Option.not_isSome_iff_eq_none, ← h.waiting, hstop]
    exact Bool.false_ne_true
  · rw [SinkSystem.receiveStep_life_eq hlock hstep, h.empty, hstop, Option.isSome_none,
      Bool.or_false]

/-- Where CreateThread failed, write buffering was on: it is on without a new thread. -/
theorem on_of_failed {stopping : Bool} (h : s.Sole) (ht : t.life = ⟨true, .null, stopping, false⟩)
    (hone : (s.adopt t).OneWriter) : s.sink.pin.bWriteBuffering = true := by
  rw [adopt_of_none (SinkSystem.writer_of_life (by rw [ht]))] at hone
  exact h.buffering.mpr (hone.buffering.mp (congrArg WriterLife.bWriteBuffering ht))

end

section
variable {s t : WriterPool} {a : PoolAction}

theorem Sole.step (h : s.Sole) (ha : s.CreatesOne a) (hstep : s.step a = some t) : t.Sole := by
  cases a with
  | createWriteBufferThread thread =>
    obtain rfl := Option.some.inj hstep
    cases thread with
    | true => exact h.created rfl ha
    | false => exact h.failed rfl ha
  | writer id => exact h.writerStep hstep
  | call a =>
    cases a with
    | breakConnect => exact h.breakConnect hstep
    | breakWait timeout => exact h.breakWait hstep
    | receive env sample =>
      obtain ⟨u, hu, rfl⟩ := Option.map_eq_some_iff.mp hstep
      obtain ⟨hwaits, hlife⟩ := life_receive h hu
      cases hb : s.sink.pin.bWriteBuffering with
      | true =>
        rw [hb] at hlife
        exact h.adopt hlife
      | false =>
        rw [hb, ha hb] at hlife
        exact h.created hlife (h.off hb hwaits)
    | writer =>
      obtain ⟨u, hu, rfl⟩ := Option.map_eq_some_iff.mp hstep
      rw [SinkSystem.step, h.empty] at hu
      cases hu
    | reset | beginFlush | endFlush | endOfStream | notifyAllocator | stopServer | listener |
        clientOpen | clientClose =>
      obtain ⟨u, hu, rfl⟩ := Option.map_eq_some_iff.mp hstep
      exact h.adopt (SinkSystem.calm_step rfl hu).life

/-- A step to a state with one writer met the condition. -/
theorem OneWriter.createsOne (ht : t.OneWriter) (h : s.Sole) (hstep : s.step a = some t) :
    s.CreatesOne a := by
  cases a with
  | writer id => trivial
  | createWriteBufferThread thread =>
    obtain rfl := Option.some.inj hstep
    cases thread with
    | false => exact on_of_failed h rfl ht
    | true =>
      intro id hid
      have hnew : s.writers.length = id := by
        refine ht.alone _ _ ?_ ?_
        · exact alive_append.mpr (Or.inr rfl)
        · exact alive_append.mpr (Or.inl hid)
      exact Nat.lt_irrefl id (hnew ▸ hid.lt)
  | call a =>
    cases a with
    | receive env sample =>
      obtain ⟨u, hu, rfl⟩ := Option.map_eq_some_iff.mp hstep
      obtain ⟨_, hlife⟩ := life_receive h hu
      intro hoff
      cases hthread : env.thread with
      | true => rfl
      | false =>
        rw [hoff, hthread] at hlife
        rw [on_of_failed h hlife ht] at hoff
        cases hoff
    | breakConnect | breakWait | writer | reset | beginFlush | endFlush | endOfStream |
        notifyAllocator | stopServer | listener | clientOpen | clientClose => trivial

end

/-! Runs. -/

/-- **One writer at a time**, in every state of a run, exactly when the new pin happens to
    have NULL in `m_hThread2`, and CreateThread keeps to the condition. -/
theorem one_writer_iff (hThread2 : ThreadHandle) (rtRefPoint2 : Int64) (as : List PoolAction)
    {u : WriterPool} (hrun : run step (new hThread2 rtRefPoint2) as = some u) :
    Always step OneWriter (new hThread2 rtRefPoint2) as ↔
      hThread2 = .null ∧ Meets step CreatesOne (new hThread2 rtRefPoint2) as := by
  have hiff := fun hs => always_iff_meets_of_invariant (fun _ => Sole.one)
    (fun _ _ _ hs hstep hC => Sole.step hs hC hstep)
    (fun _ _ _ hs hstep ht => OneWriter.createsOne ht hs hstep)
    as (new hThread2 rtRefPoint2) u hs hrun
  refine ⟨fun h => ?_, fun ⟨hnull, h⟩ => ?_⟩
  · have hnull : hThread2 = .null := by
      -- a handle needs a thread, and the new pin has created none
      rcases h.head.handle with hnull | ⟨id, _, hlast⟩
      · exact hThread2_eq_null.mp hnull
      · exact absurd hlast.lt (Nat.not_lt_zero id)
    subst hnull
    exact ⟨rfl, (hiff (sole_new rtRefPoint2)).mp h⟩
  · subst hnull
    exact (hiff (sole_new rtRefPoint2)).mpr h

/-- A connection that fails before any sample, on a pin whose memory was not zero:
    BreakConnect waits for what the memory held and terminates it. -/
theorem failed_connection_terminates_garbage :
    ∃ u, run step (new .garbage 0) [.call .breakConnect, .call (.breakWait true)] = some u ∧
      u.targets = [.garbage, .garbage] ∧ ¬ u.OneWriter := by
  refine ⟨_, rfl, rfl, fun h => ?_⟩
  obtain ⟨_, hid, _⟩ := h.targets .garbage List.mem_cons_self
  cases hid

/-- A sample, a disconnect that the writer sees, and the next connection's sample. -/
def twoConnections : List PoolAction :=
  [.call (.receive SinkSystem.streaming emptySample), .writer 0, .call .breakConnect, .writer 0,
    .writer 0, .writer 0, .call (.breakWait false),
    .call (.receive SinkSystem.streaming emptySample), .writer 1]

theorem one_writer_iff_twoConnections :
    ∃ u, run step (new .null 0) twoConnections = some u ∧
      u.targets = [.thread 0] ∧ u.hThread2 = .thread 1 ∧
      Always step OneWriter (new .null 0) twoConnections := by
  refine ⟨_, rfl, rfl, rfl, (one_writer_iff .null 0 twoConnections rfl).mpr ⟨rfl, ?_⟩⟩
  refine Transition.meets_of_forall (fun a ha s => ?_) _
  simp only [twoConnections, List.mem_cons, List.not_mem_nil, or_false] at ha
  rcases ha with rfl | rfl | rfl | rfl | rfl | rfl | rfl | rfl | rfl
  all_goals first | trivial | exact fun _ => rfl

end WriterPool

end VirtualCaptureStream
