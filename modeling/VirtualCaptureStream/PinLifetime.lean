import VirtualCaptureStream.ServerStop
import VirtualCaptureStream.SinkThreads
import VirtualCaptureStream.SinkWriterLife

/- The threads of a pin and the end of the pin. The destructor of a pin stops its
   listener, whatever state that is in, and does nothing about the writer: only
   BreakConnect does, and none of the functions that delete pins disconnects them. The
   server of the filter reads the pins without any lock, so it can be at the record of a
   pin while that is deleted, and can find a deleted one in the list: RemovePin erases it
   afterwards, the destructor of the filter stops the server afterwards.
   `threads_end_first_iff` says that nothing else goes wrong. -/
namespace VirtualCaptureStream

open Transition
open SinkServer (ServerAction)
open SinkSystem (SinkAction)

/-! A pin's own threads. -/

namespace SinkSystem

/-- Nothing is left for BreakConnect: write buffering is off, unless CreateThread
    failed, and a BreakConnect that waits has seen the writer end. -/
structure Unattended (s : SinkSystem) : Prop where
  buffering : s.pin.bWriteBuffering = true → s.pin.hThread2 = .null
  waiting : s.lock = some .breakConnect → s.writer = none

theorem unattended_iff {s : SinkSystem} (hs : s.life.Sound) : s.Unattended ↔ s.writer = none := by
  refine ⟨fun h => ?_, fun h => ⟨fun hon => ?_, fun _ => h⟩⟩
  · cases hw : s.writer with
    | none => rfl
    | some pc =>
      have hrun : s.life.running = true := by simp [life, hw]
      rcases hs.running hrun with hon | hstop
      · -- write buffering with a writer: the handle is the writer's
        have hnull : s.pin.hThread2 = .null := h.buffering hon
        have habandoned : s.life.Abandoned := ⟨hon, hnull⟩
        rw [habandoned.not_running hs] at hrun
        cases hrun
      · have hlock : s.lock = some .breakConnect := by simpa [life] using hstop
        rw [h.waiting hlock] at hw
        cases hw
  · rcases (hs.buffering hon).2 with ⟨_, hrun⟩ | ⟨hnull, _⟩
    · simp [life, h] at hrun
    · exact hnull

/-- The pipe is closed once StopServer is through with it. -/
def Closing (s : SinkSystem) : Prop := s.stopper = none → s.pin.hPipe = .null

theorem Closing.of_door {s t : SinkSystem} (hs : s.Closing) (h : t.door = s.door) : t.Closing := by
  intro hstop
  have hpipe : t.pin.hPipe = s.pin.hPipe := congrArg Door.hPipe h
  have hstopper : t.stopper = s.stopper := congrArg Door.stopper h
  rw [hpipe]
  exact hs (hstopper ▸ hstop)

theorem closing_endOfStream {s t : SinkSystem} (h : s.endOfStream = some t) : t.Closing := by
  intro hstop
  unfold endOfStream at h
  split at h
  · rename_i hpipe
    obtain rfl := Option.some.inj h
    exact hpipe
  · rw [Option.ite_none_right_eq_some] at h
    obtain rfl := Option.some.inj h.2
    cases hstop

theorem closing_stopStep {s t : SinkSystem} {timeout : Bool} {pc : StopPc}
    (h : s.stopStep timeout pc = some t) : t.Closing := by
  intro hstop
  cases pc with
  | openPipe =>
    simp only [stopStep] at h
    split at h <;> obtain rfl := Option.some.inj h <;> cases hstop
  | waitListener =>
    simp only [stopStep] at h
    split at h
    · obtain rfl := Option.some.inj h
      cases hstop
    · rw [Option.ite_none_right_eq_some] at h
      obtain rfl := Option.some.inj h.2
      cases hstop
  | closeClient | disconnect | closeHandle =>
    obtain rfl := Option.some.inj h
    cases hstop
  | clear =>
    obtain rfl := Option.some.inj h
    rfl

/-- A pin in its destructor goes on to close its pipe. -/
theorem Closing.step {s t : SinkSystem} {a : SinkAction} (hs : s.Closing)
    (hallow : PinLife.dying.allows a = true) (h : s.step a = some t) : t.Closing := by
  cases a with
  | writer =>
    obtain ⟨pc, _, h⟩ := Option.bind_eq_some_iff.mp h
    exact hs.of_door (writerStep_door h)
  | listener =>
    obtain ⟨pc, _, h⟩ := Option.bind_eq_some_iff.mp h
    obtain ⟨_, _, _, _, rfl⟩ := listenerStep_writes h
    exact hs
  | stopServer timeout =>
    obtain ⟨pc, _, h⟩ := Option.bind_eq_some_iff.mp h
    exact closing_stopStep h
  | breakWait timeout =>
    simp only [SinkSystem.step, Option.ite_none_right_eq_some] at h
    obtain rfl := Option.some.inj h.2
    obtain ⟨cut, hcut⟩ := terminateWriter_writes s
    rw [hcut]
    exact hs.of_door rfl
  | clientOpen =>
    simp only [SinkSystem.step, Option.ite_none_right_eq_some] at h
    obtain rfl := Option.some.inj h.2
    exact hs.of_door rfl
  | clientClose =>
    obtain ⟨c, _, rfl⟩ := Option.map_eq_some_iff.mp h
    exact hs.of_door rfl
  | receive | reset | beginFlush | endFlush | endOfStream | notifyAllocator | breakConnect =>
    simp [PinLife.allows] at hallow

/-- A destroyed pin without threads gets none. -/
theorem step_freed {s t : SinkSystem} {a : SinkAction} (hlistener : s.listener = none)
    (hwriter : s.writer = none) (hallow : PinLife.freed.allows a = true)
    (h : s.step a = some t) : t.listener = none ∧ t.writer = none := by
  cases a with
  | writer =>
    simp only [SinkSystem.step, hwriter, Option.bind_none] at h
    cases h
  | listener =>
    simp only [SinkSystem.step, hlistener, Option.bind_none] at h
    cases h
  | clientOpen =>
    simp only [SinkSystem.step, Option.ite_none_right_eq_some] at h
    obtain rfl := Option.some.inj h.2
    exact ⟨hlistener, hwriter⟩
  | clientClose =>
    obtain ⟨c, _, rfl⟩ := Option.map_eq_some_iff.mp h
    exact ⟨hlistener, hwriter⟩
  | receive | reset | beginFlush | endFlush | endOfStream | notifyAllocator | breakConnect
  | breakWait | stopServer =>
    simp [PinLife.allows] at hallow

end SinkSystem

/-! The server's thread. -/

namespace SinkServer

/-- The thread gets to a record by taking the pin out of the list. -/
theorem threadStep_record {s t : SinkServer} {pc : ServerPc} {i pin : Nat}
    (h : s.threadStep pc = some t) (hrecord : t.thread = some (.record i pin)) :
    pc = .walk i ∧ s.pinList[i]? = some pin := by
  cases pc with
  | walk j =>
    simp only [threadStep] at h
    split at h
    · rename_i pin' hpin
      obtain rfl := Option.some.inj h
      simp only [Option.some.injEq, ServerPc.record.injEq] at hrecord
      obtain ⟨rfl, rfl⟩ := hrecord
      exact ⟨rfl, hpin⟩
    · obtain rfl := Option.some.inj h
      cases hrecord
  | start | record | finish | sleeping =>
    obtain rfl := Option.some.inj h
    cases hrecord
  | waiting =>
    simp only [threadStep] at h
    split at h
    · cases h
    all_goals
      obtain rfl := Option.some.inj h
      cases hrecord
  | test | connect | check | rest =>
    simp only [threadStep] at h
    split at h
    all_goals
      obtain rfl := Option.some.inj h
      cases hrecord

/-- StopServer and InitializePipe do not put the thread at a record. -/
theorem callStep_record {s t : SinkServer} {timeout : Bool} {creates : Option (Bool × Bool)}
    {pc : StopPc} (h : s.callStep timeout creates pc = some t) :
    t.pinList = s.pinList ∧
      ∀ i pin, t.thread = some (.record i pin) → s.thread = some (.record i pin) := by
  cases pc with
  | openPipe =>
    simp only [callStep] at h
    split at h <;> obtain rfl := Option.some.inj h <;> exact ⟨rfl, fun _ _ e => e⟩
  | closeClient | disconnect | closeHandle =>
    obtain rfl := Option.some.inj h
    exact ⟨rfl, fun _ _ e => e⟩
  | waitListener =>
    simp only [callStep] at h
    split at h
    · obtain rfl := Option.some.inj h
      exact ⟨rfl, fun _ _ e => e⟩
    · rw [Option.ite_none_right_eq_some] at h
      obtain rfl := Option.some.inj h.2
      exact ⟨rfl, fun _ _ e => (by cases e)⟩
  | clear =>
    simp only [callStep] at h
    split at h
    · obtain rfl := Option.some.inj h
      exact ⟨rfl, fun _ _ e => e⟩
    · rename_i created thread
      obtain rfl := Option.some.inj h
      refine ⟨rfl, fun _ _ e => ?_⟩
      cases thread with
      | false => exact e
      | true => cases e

theorem createPipe_record {s : SinkServer} {created thread : Bool} {i pin : Nat}
    (h : (s.createPipe created thread).thread = some (.record i pin)) :
    s.thread = some (.record i pin) := by
  cases thread with
  | false => exact h
  | true => cases h

/-- What any step but a change of the list does to the list and the thread. -/
theorem step_record {s t : SinkServer} {a : ServerAction} (ha : ∀ l, a ≠ .pins l)
    (h : s.step a = some t) :
    t.pinList = s.pinList ∧ ∀ i pin, t.thread = some (.record i pin) →
      s.thread = some (.record i pin) ∨
        (a = .thread ∧ s.thread = some (.walk i) ∧ s.pinList[i]? = some pin) := by
  cases a with
  | initializePipe created thread =>
    simp only [step, Option.ite_none_left_eq_some] at h
    obtain ⟨_, h⟩ := h
    split at h <;> obtain rfl := Option.some.inj h
    · exact ⟨rfl, fun i pin e => Or.inl (createPipe_record e)⟩
    · exact ⟨rfl, fun i pin e => Or.inl e⟩
  | stopServer =>
    simp only [step, Option.ite_none_left_eq_some] at h
    obtain ⟨_, h⟩ := h
    split at h <;> obtain rfl := Option.some.inj h <;> exact ⟨rfl, fun i pin e => Or.inl e⟩
  | call timeout =>
    obtain ⟨c, _, h⟩ := Option.bind_eq_some_iff.mp h
    obtain ⟨hlist, hrecord⟩ := callStep_record h
    exact ⟨hlist, fun i pin e => Or.inl (hrecord i pin e)⟩
  | thread =>
    obtain ⟨pc, hpc, h⟩ := Option.bind_eq_some_iff.mp h
    have hlist : t.pinList = s.pinList := by
      obtain ⟨_, _, _, _, rfl⟩ := threadStep_writes h
      rfl
    refine ⟨hlist, fun i pin e => ?_⟩
    obtain ⟨rfl, hpin⟩ := threadStep_record h e
    exact Or.inr ⟨rfl, hpc, hpin⟩
  | clientOpen =>
    simp only [step, Option.ite_none_right_eq_some] at h
    obtain rfl := Option.some.inj h.2
    exact ⟨rfl, fun i pin e => Or.inl e⟩
  | clientClose =>
    obtain ⟨c, _, rfl⟩ := Option.map_eq_some_iff.mp h
    exact ⟨rfl, fun i pin e => Or.inl e⟩
  | pins l => exact absurd rfl (ha l)

end SinkServer

/-! The filter. -/

/-- The call is the filter's destructor. -/
def SinkTask.ofDestructor : SinkTask → Bool
  | .loop (.destructor _) | .delete (.destructor _) _ | .stopServer => true
  | _ => false

namespace SinkThreads

/-- The pin `id` at position `i` of the list is destroyed already: RemovePin has yet to
    erase it, or the destructor of the filter is past it. -/
def Gone : Option SinkTask → Nat → Nat → Prop
  | some (.loop (.destructor k)), i, _ => i < k
  | some (.delete (.destructor k) _), i, _ => i < k
  | some .stopServer, _, _ => True
  | some (.erase _ pin), _, id => id = pin
  | _, _, _ => False

/-- A destroyed pin has no threads, and the server does not read it. -/
structure NoneOutlived (s : SinkThreads) : Prop where
  listener : ∀ pin, s.life pin = .freed → (s.pins pin).listener = none
  writer : ∀ pin, s.life pin = .freed → (s.pins pin).writer = none
  server : ∀ i pin, s.server.thread = some (.record i pin) → s.life pin ≠ .freed

/-- No thread takes a step on a destroyed pin. -/
theorem NoneOutlived.no_step {s : SinkThreads} (h : NoneOutlived s) {pin : Nat}
    (hfreed : s.life pin = .freed) :
    s.step (.pin pin .writer) = none ∧ s.step (.pin pin .listener) = none := by
  refine ⟨?_, ?_⟩
  · simp [step, SinkSystem.step, h.writer pin hfreed]
  · simp [step, SinkSystem.step, h.listener pin hfreed]

/-- A pin is destroyed when BreakConnect has nothing left to do and the server is not at
    its record; and the server does not take a destroyed pin out of the list. -/
def EndFirst (s : SinkThreads) : ThreadsAction → Prop
  | .task => ∀ d pin, s.task = some (.delete d pin) →
      (s.pins pin).Unattended ∧ ∀ i, s.server.thread ≠ some (.record i pin)
  | .server .thread => ∀ i pin, s.server.thread = some (.walk i) →
      s.server.pinList[i]? = some pin → ¬ Gone s.task i pin
  | _ => True

/-- The invariant. A pin of the list is destroyed only where the call in progress says
    so, and the call is with a pin that is in its destructor. -/
structure Sound (s : SinkThreads) : Prop where
  door : ∀ id, (s.pins id).door.Sound
  writers : ∀ id, (s.pins id).life.Sound
  safe : NoneOutlived s
  nodup : s.server.pinList.Nodup
  fresh : ∀ id, s.life id ≠ .unborn → id < s.made
  listed : ∀ i id, s.server.pinList[i]? = some id →
    s.life id ≠ .unborn ∧ (s.life id = .freed ↔ Gone s.task i id)
  deleting : ∀ d pin, s.task = some (.delete d pin) → s.life pin = .dying ∧
    (s.pins pin).Closing ∧ ∀ k, d = .destructor k → s.server.pinList[k]? = some pin
  erasing : ∀ d pin, s.task = some (.erase d pin) → pin < s.made ∧ ∀ k, d ≠ .destructor k
  alone : s.destructed = false → ∀ task, s.task = some task → task.ofDestructor = false

/-! Steps of the threads. -/

theorem Sound.pin {s : SinkThreads} {id : Nat} {a : SinkAction} {p : SinkSystem}
    (h : Sound s) (isConnected : Nat → Bool) (hallow : (s.life id).allows a = true)
    (hp : (s.pins id).step a = some p) :
    Sound { s with pins := Function.update s.pins id p, isConnected := isConnected } := by
  -- no thread of a destroyed pin is left to make the step
  have hfreed : s.life id = .freed → p.listener = none ∧ p.writer = none := fun hlife =>
    SinkSystem.step_freed (h.safe.listener id hlife) (h.safe.writer id hlife) (hlife ▸ hallow) hp
  have hclosing : ∀ j, (∃ d, s.task = some (.delete d j)) →
      (Function.update s.pins id p j).Closing := by
    refine (Function.forall_update_iff s.pins fun j q =>
      (∃ d, s.task = some (.delete d j)) → q.Closing).mpr ⟨?_, ?_⟩
    · rintro ⟨d, htask⟩
      obtain ⟨hdying, hold, _⟩ := h.deleting d id htask
      exact hold.step (hdying ▸ hallow) hp
    · rintro j _ ⟨d, htask⟩
      exact (h.deleting d j htask).2.1
  refine ⟨?_, ?_, ⟨?_, ?_, h.safe.server⟩, h.nodup, h.fresh, h.listed, ?_, h.erasing, h.alone⟩
  · exact (Function.forall_update_iff s.pins fun _ q => q.door.Sound).mpr
      ⟨(SinkSystem.step_door (h.door id) hp).1, fun j _ => h.door j⟩
  · exact (Function.forall_update_iff s.pins fun _ q => q.life.Sound).mpr
      ⟨(h.writers id).step (SinkSystem.step_life hp), fun j _ => h.writers j⟩
  · exact (Function.forall_update_iff s.pins fun j q => s.life j = .freed → q.listener = none).mpr
      ⟨fun hlife => (hfreed hlife).1, fun j _ => h.safe.listener j⟩
  · exact (Function.forall_update_iff s.pins fun j q => s.life j = .freed → q.writer = none).mpr
      ⟨fun hlife => (hfreed hlife).2, fun j _ => h.safe.writer j⟩
  · intro d pin htask
    obtain ⟨hdying, _, hpos⟩ := h.deleting d pin htask
    exact ⟨hdying, hclosing pin ⟨d, htask⟩, hpos⟩

theorem Sound.server {s : SinkThreads} {a : ServerAction} {server : SinkServer} (h : Sound s)
    (hallow : s.allowsServer a = true) (ha : s.server.step a = some server)
    (hC : EndFirst s (.server a)) : Sound { s with server := server } := by
  have hpins : ∀ l, a ≠ .pins l := by
    rintro l rfl
    cases hallow
  obtain ⟨hlist, hrecord⟩ := SinkServer.step_record hpins ha
  refine ⟨h.door, h.writers, ⟨h.safe.listener, h.safe.writer, ?_⟩, ?_, h.fresh, ?_, ?_, h.erasing,
    h.alone⟩
  · intro i pin hrec hfreed
    rcases hrecord i pin hrec with hold | ⟨rfl, hwalk, hpin⟩
    · exact h.safe.server i pin hold hfreed
    · exact hC i pin hwalk hpin ((h.listed i pin hpin).2.mp hfreed)
  · exact hlist ▸ h.nodup
  · exact hlist ▸ h.listed
  · exact hlist ▸ h.deleting

/-! Steps of the calls. -/

/-- A pin that goes from one state to another is in no third one before or after. -/
theorem update_eq_iff {f : Nat → PinLife} {pin : Nat} {l l' : PinLife} (hf : f pin ≠ l')
    (hl : l ≠ l') (id : Nat) : Function.update f pin l id = l' ↔ f id = l' := by
  by_cases hid : id = pin
  · rw [hid, Function.update_self]
    exact iff_of_false hl hf
  · rw [Function.update_of_ne hid]

/-- The call goes on to a point that says the same about the list. -/
theorem Sound.goto {s : SinkThreads} {task : Option SinkTask} (h : Sound s)
    (hgone : ∀ i id, Gone task i id ↔ Gone s.task i id)
    (hdelete : ∀ d pin, task ≠ some (.delete d pin)) (herase : ∀ d pin, task ≠ some (.erase d pin))
    (halone : s.destructed = false → ∀ c, task = some c → c.ofDestructor = false) :
    Sound { s with task := task } := by
  refine ⟨h.door, h.writers, ⟨h.safe.listener, h.safe.writer, h.safe.server⟩, h.nodup, h.fresh, ?_,
    fun d pin e => absurd e (hdelete d pin), fun d pin e => absurd e (herase d pin), halone⟩
  intro i id hid
  obtain ⟨hborn, hfreed⟩ := h.listed i id hid
  exact ⟨hborn, hfreed.trans (hgone i id).symm⟩

/-- The call returns with no destroyed pin in the list. -/
theorem Sound.idle {s : SinkThreads} (h : Sound s) (hgone : ∀ i id, ¬ Gone s.task i id) :
    Sound { s with task := none } :=
  h.goto (fun i id => iff_of_false (fun e => e) (hgone i id)) (fun _ _ e => (by cases e))
    (fun _ _ e => (by cases e)) fun _ _ e => (by cases e)

/-- Behind a clear() there is nothing to find in the list. -/
theorem Sound.cleared {s : SinkThreads} {task : Option SinkTask} (h : Sound s)
    (hdelete : ∀ d pin, task ≠ some (.delete d pin)) (herase : ∀ d pin, task ≠ some (.erase d pin))
    (halone : s.destructed = false → ∀ c, task = some c → c.ofDestructor = false) :
    Sound { s.setPins [] with task := task } := by
  refine ⟨h.door, h.writers, ⟨h.safe.listener, h.safe.writer, h.safe.server⟩, List.nodup_nil,
    h.fresh, ?_, fun d pin e => absurd e (hdelete d pin), fun d pin e => absurd e (herase d pin),
    halone⟩
  intro i id hid
  simp [setPins] at hid

/-- The pin that AddInputPin makes has never been destroyed. -/
theorem Sound.addInputPin {s : SinkThreads} (h : Sound s) (hgone : ∀ i, ¬ Gone s.task i s.made)
    (hdelete : ∀ d pin, s.task = some (.delete d pin) → ∀ k, d ≠ .destructor k) :
    Sound s.addInputPin := by
  unfold SinkThreads.addInputPin
  split
  · exact h
  · have hnew : ∀ id, id ∈ s.server.pinList → id ≠ s.made := by
      intro id hid e
      obtain ⟨i, hi⟩ := List.mem_iff_getElem?.mp hid
      have := h.fresh id (h.listed i id hi).1
      omega
    have hlife : ∀ id, id ≠ s.made → Function.update s.life s.made .alive id = s.life id :=
      fun id hne => Function.update_of_ne hne .alive s.life
    have hunborn : s.life s.made = .unborn := by
      by_contra hborn
      have := h.fresh s.made hborn
      omega
    have hfreed : ∀ id, Function.update s.life s.made .alive id = .freed ↔ s.life id = .freed :=
      update_eq_iff (by rw [hunborn]; decide) (by decide)
    refine ⟨h.door, h.writers, ⟨fun pin e => h.safe.listener pin ((hfreed pin).mp e),
      fun pin e => h.safe.writer pin ((hfreed pin).mp e),
      fun i pin hrec e => h.safe.server i pin hrec ((hfreed pin).mp e)⟩, ?_, ?_, ?_, ?_, ?_,
      h.alone⟩
    · refine List.nodup_append.mpr ⟨h.nodup, List.pairwise_singleton _ _, fun a ha b hb => ?_⟩
      rw [List.mem_singleton.mp hb]
      exact hnew a ha
    · intro id hborn
      show id < s.made + 1
      by_cases hid : id = s.made
      · omega
      · have := h.fresh id (hlife id hid ▸ hborn)
        omega
    · intro i id hid
      dsimp only [setPins] at hid ⊢
      rw [List.getElem?_append] at hid
      split at hid
      · -- an old pin
        have hne := hnew id (List.mem_iff_getElem?.mpr ⟨i, hid⟩)
        rw [hlife id hne]
        exact h.listed i id hid
      · rw [List.getElem?_singleton, Option.ite_none_right_eq_some] at hid
        obtain rfl := Option.some.inj hid.2
        rw [Function.update_self]
        exact ⟨fun e => (by cases e), fun e => (by cases e), fun e => absurd e (hgone i)⟩
    · intro d pin htask
      obtain ⟨hdying, hclosing, _⟩ := h.deleting d pin htask
      have hne : pin ≠ s.made := by
        have := h.fresh pin (fun e => by rw [hdying] at e; cases e)
        omega
      refine ⟨(hlife pin hne).trans hdying, hclosing, fun k hk => absurd hk (hdelete d pin htask k)⟩
    · intro d pin htask
      obtain ⟨hmade, hd⟩ := h.erasing d pin htask
      exact ⟨Nat.lt_succ_of_lt hmade, hd⟩

/-- Into the destructor: StopServer runs, and nothing is destroyed yet. -/
theorem Sound.beginDelete {s t : SinkThreads} {d : Deleter} {pin : Nat} (h : Sound s)
    (hbegin : s.beginDelete d pin = some t)
    (hgone : ∀ i id, Gone (some (.delete d pin)) i id ↔ Gone s.task i id)
    (hpos : ∀ k, d = .destructor k → s.server.pinList[k]? = some pin)
    (halone : s.destructed = false → (SinkTask.delete d pin).ofDestructor = false) : Sound t := by
  unfold SinkThreads.beginDelete at hbegin
  rw [Option.ite_none_right_eq_some] at hbegin
  obtain ⟨halive, hbegin⟩ := hbegin
  obtain ⟨p, hp, rfl⟩ := Option.map_eq_some_iff.mp hbegin
  -- the destructor calls StopServer as EndOfStream does
  have hp' : (s.pins pin).step .endOfStream = some p := hp
  have hallow : (s.life pin).allows .endOfStream = true := by rw [halive]; rfl
  have hpin := h.pin s.isConnected hallow hp'
  have hlife : ∀ id, Function.update s.life pin .dying id = .freed ↔ s.life id = .freed :=
    update_eq_iff (by rw [halive]; decide) (by decide)
  have hborn : ∀ id, Function.update s.life pin .dying id ≠ .unborn ↔ s.life id ≠ .unborn :=
    fun id => not_congr (update_eq_iff (by rw [halive]; decide) (by decide) id)
  refine ⟨hpin.door, hpin.writers, ⟨fun id e => hpin.safe.listener id ((hlife id).mp e),
    fun id e => hpin.safe.writer id ((hlife id).mp e),
    fun i id hrec e => h.safe.server i id hrec ((hlife id).mp e)⟩, h.nodup,
    fun id e => h.fresh id ((hborn id).mp e), ?_, ?_, fun _ _ e => (by cases e), ?_⟩
  · intro i id hid
    obtain ⟨hid', hfreed⟩ := h.listed i id hid
    exact ⟨(hborn id).mpr hid', (hlife id).trans (hfreed.trans (hgone i id).symm)⟩
  · intro d' pin' e
    simp only [Option.some.injEq, SinkTask.delete.injEq] at e
    obtain ⟨rfl, rfl⟩ := e
    dsimp only
    rw [Function.update_self, Function.update_self]
    exact ⟨rfl, SinkSystem.closing_endOfStream hp, hpos⟩
  · intro hdes c e
    obtain rfl := Option.some.inj e
    exact halone hdes

/-- The pin is destroyed: its StopServer is done, and what StopServer does not stop is
    not there. -/
theorem Sound.destroyed {s : SinkThreads} {d : Deleter} {pin : Nat} (h : Sound s)
    (htask : s.task = some (.delete d pin)) (hstop : (s.pins pin).stopper = none)
    (hwriter : (s.pins pin).Unattended) (hserver : ∀ i, s.server.thread ≠ some (.record i pin)) :
    Sound { s with
      life := Function.update s.life pin .freed, task := some (d.deleted pin) } := by
  obtain ⟨hdying, hclosing, hpos⟩ := h.deleting d pin htask
  have hlistener : (s.pins pin).listener = none := ((h.door pin).no_pipe (hclosing hstop)).1
  have hnone : (s.pins pin).writer = none := (SinkSystem.unattended_iff (h.writers pin)).mp hwriter
  have hfreed : ∀ id, Function.update s.life pin .freed id = .freed ↔
      id = pin ∨ s.life id = .freed := by
    intro id
    by_cases hid : id = pin
    · simp [hid]
    · simp [hid]
  have hborn : ∀ id, Function.update s.life pin .freed id ≠ .unborn ↔ s.life id ≠ .unborn :=
    fun id => not_congr (update_eq_iff (by rw [hdying]; decide) (by decide) id)
  refine ⟨h.door, h.writers, ⟨?_, ?_, ?_⟩, h.nodup, fun id e => h.fresh id ((hborn id).mp e), ?_,
    ?_, ?_, ?_⟩
  · intro id e
    rcases (hfreed id).mp e with rfl | e
    · exact hlistener
    · exact h.safe.listener id e
  · intro id e
    rcases (hfreed id).mp e with rfl | e
    · exact hnone
    · exact h.safe.writer id e
  · intro i id hrec e
    rcases (hfreed id).mp e with rfl | e
    · exact hserver i hrec
    · exact h.safe.server i id hrec e
  · intro i id hid
    obtain ⟨hid', hgone⟩ := h.listed i id hid
    refine ⟨(hborn id).mpr hid', (hfreed id).trans ?_⟩
    rw [hgone, htask]
    cases d with
    | destructor k =>
      -- the list is as it was, so the pin is the one at position `k`
      have hk := hpos k rfl
      have hsame : id = pin ↔ i = k := by
        refine ⟨fun e => ?_, fun e => ?_⟩
        · subst e
          exact (List.getElem?_inj (List.getElem?_eq_some_iff.mp hid).1 h.nodup).mp
            (hid.trans hk.symm)
        · subst e
          exact Option.some.inj (hid.symm.trans hk)
      rw [hsame]
      show i = k ∨ i < k ↔ i < k + 1
      omega
    | removePin | setStreamName => exact or_iff_left fun e => e
  · intro d' pin' e
    cases d <;> cases e
  · intro d' pin' e
    cases d with
    | destructor k => cases e
    | removePin | setStreamName =>
      obtain ⟨rfl, rfl⟩ := SinkTask.erase.inj (Option.some.inj e)
      refine ⟨h.fresh pin (fun e => ?_), fun k e => (by cases e)⟩
      rw [hdying] at e
      cases e
  · intro hdes c e
    obtain rfl := Option.some.inj e
    have hbefore := h.alone hdes _ htask
    cases d with
    | destructor k => cases hbefore
    | removePin | setStreamName => rfl

/-- Nothing but the deleted pin is missing behind RemovePin's erase. -/
theorem Sound.erased {s : SinkThreads} {d : Deleter} {pin : Nat} (h : Sound s)
    (htask : s.task = some (.erase d pin)) :
    Sound { s.setPins (s.server.pinList.erase pin) with task := some (.loop d.next) } := by
  obtain ⟨_, hd⟩ := h.erasing d pin htask
  have hno : ∀ i id, ¬ Gone (some (.loop d.next)) i id := by
    intro i id
    cases d with
    | destructor k => exact absurd rfl (hd k)
    | removePin | setStreamName => exact not_false
  refine ⟨h.door, h.writers, ⟨h.safe.listener, h.safe.writer, h.safe.server⟩, h.nodup.erase pin,
    h.fresh, ?_, fun _ _ e => (by cases e), fun _ _ e => (by cases e), ?_⟩
  · intro i id hid
    have hmem : id ∈ s.server.pinList.erase pin := List.mem_iff_getElem?.mpr ⟨i, hid⟩
    obtain ⟨hne, hold⟩ := h.nodup.mem_erase_iff.mp hmem
    obtain ⟨j, hj⟩ := List.mem_iff_getElem?.mp hold
    obtain ⟨hborn, hgone⟩ := h.listed j id hj
    rw [htask] at hgone
    exact ⟨hborn, iff_of_false (fun e => hne (hgone.mp e)) (hno i id)⟩
  · intro _ c e
    obtain rfl := Option.some.inj e
    cases d with
    | destructor k => exact absurd rfl (hd k)
    | removePin | setStreamName => rfl

/-- SetStreamName's loop: into a destructor, or on behind the list. -/
theorem Sound.renaming {s t : SinkThreads} {i : Nat} {created thread : Bool} (h : Sound s)
    (htask : s.task = some (.loop (.setStreamName i created thread)))
    (ht : s.taskStep (.loop (.setStreamName i created thread)) = some t) : Sound t := by
  simp only [SinkThreads.taskStep] at ht
  split at ht
  · refine h.beginDelete ht (fun i id => ?_) (fun k e => (by cases e)) fun _ => rfl
    rw [htask]
    exact Iff.rfl
  · obtain rfl := Option.some.inj ht
    refine h.cleared (fun _ _ e => (by cases e)) (fun _ _ e => (by cases e)) fun _ c e => ?_
    obtain rfl := Option.some.inj e
    rfl

/-- The destructor's loop: into a destructor of a pin, or into StopServer with every
    pin of the list behind it. -/
theorem Sound.destructing {s t : SinkThreads} {k : Nat} (h : Sound s)
    (htask : s.task = some (.loop (.destructor k)))
    (ht : s.taskStep (.loop (.destructor k)) = some t) : Sound t := by
  have hdestructed : ¬ s.destructed = false := fun e => (by cases h.alone e _ htask)
  simp only [SinkThreads.taskStep] at ht
  split at ht
  · rename_i pin hpin
    refine h.beginDelete ht (fun i id => ?_) (fun k' e => ?_) fun e => absurd e hdestructed
    · rw [htask]
      exact Iff.rfl
    · obtain rfl := Deleter.destructor.inj e
      exact hpin
  · rename_i hend
    obtain ⟨server, hserver, rfl⟩ := Option.map_eq_some_iff.mp ht
    obtain ⟨hlist, hrecord⟩ := SinkServer.step_record (fun l e => (by cases e)) hserver
    have hlen : s.server.pinList.length ≤ k := List.getElem?_eq_none_iff.mp hend
    refine ⟨h.door, h.writers, ⟨h.safe.listener, h.safe.writer, fun i pin hrec => ?_⟩,
      hlist ▸ h.nodup, h.fresh, fun i id hid => ?_, fun _ _ e => (by cases e),
      fun _ _ e => (by cases e), fun e => absurd e hdestructed⟩
    · rcases hrecord i pin hrec with hold | ⟨e, _⟩
      · exact h.safe.server i pin hold
      · cases e
    · have hid' : s.server.pinList[i]? = some id := hlist ▸ hid
      obtain ⟨hborn, hgone⟩ := h.listed i id hid'
      have hlt : i < s.server.pinList.length := (List.getElem?_eq_some_iff.mp hid').1
      rw [htask] at hgone
      exact ⟨hborn, hgone.trans (iff_of_true (Nat.lt_of_lt_of_le hlt hlen) trivial)⟩

theorem Sound.addPin {s : SinkThreads} {created thread : Bool} (h : Sound s)
    (htask : s.task = some (.addPin created thread)) :
    Sound { s.addInputPin with task := some (.openPipe created thread) } := by
  have hadd := h.addInputPin (by rw [htask]; exact fun _ e => e)
    (by rw [htask]; exact fun _ _ e => (by cases e))
  have hsame : s.addInputPin.task = some (.addPin created thread) := by
    unfold SinkThreads.addInputPin
    split <;> exact htask
  refine hadd.goto (fun i id => ?_) (fun _ _ e => (by cases e)) (fun _ _ e => (by cases e))
    fun _ c e => ?_
  · rw [hsame]
    exact Iff.rfl
  · obtain rfl := Option.some.inj e
    rfl

/-- The thread of a new pipe is at no record. -/
theorem Sound.openPipe {s : SinkThreads} (h : Sound s) (created thread : Bool) :
    Sound { s with
      server := if s.server.hPipe = .null then s.server.createPipe created thread
        else s.server } := by
  split
  · refine ⟨h.door, h.writers, ⟨h.safe.listener, h.safe.writer, ?_⟩, h.nodup, h.fresh, h.listed,
      h.deleting, h.erasing, h.alone⟩
    exact fun i pin hrec => h.safe.server i pin (SinkServer.createPipe_record hrec)
  · exact h

theorem Sound.taskStep {s t : SinkThreads} {task : SinkTask} (h : Sound s)
    (htask : s.task = some task) (ht : s.taskStep task = some t) (hC : EndFirst s .task) :
    Sound t := by
  cases task with
  | loop d =>
    cases d with
    | removePin =>
      obtain rfl := Option.some.inj ht
      refine h.idle ?_
      rw [htask]
      exact fun _ _ e => e
    | setStreamName i created thread => exact h.renaming htask ht
    | destructor k => exact h.destructing htask ht
  | delete d pin =>
    simp only [SinkThreads.taskStep, Option.ite_none_right_eq_some] at ht
    obtain ⟨hstop, ht⟩ := ht
    obtain rfl := Option.some.inj ht
    obtain ⟨hwriter, hserver⟩ := hC d pin htask
    exact h.destroyed htask hstop hwriter hserver
  | erase d pin =>
    obtain rfl := Option.some.inj ht
    exact h.erased htask
  | addPin created thread =>
    obtain rfl := Option.some.inj ht
    exact h.addPin htask
  | openPipe created thread =>
    obtain rfl := Option.some.inj ht
    have hidle : Sound { s with task := none } := by
      refine h.idle ?_
      rw [htask]
      exact fun _ _ e => e
    exact hidle.openPipe created thread
  | stopServer =>
    simp only [SinkThreads.taskStep, Option.ite_none_right_eq_some] at ht
    obtain rfl := Option.some.inj ht.2
    exact h.cleared (fun _ _ e => (by cases e)) (fun _ _ e => (by cases e))
      fun _ _ e => (by cases e)

/-! Calls on the filter. -/

/-- Before the destructor, no call destroys a pin that is yet to be made, and no call
    deletes by position. -/
theorem Sound.spare {s : SinkThreads} (h : Sound s) (hdes : s.destructed = false) :
    (∀ i, ¬ Gone s.task i s.made) ∧
      ∀ d pin, s.task = some (.delete d pin) → ∀ k, d ≠ .destructor k := by
  refine ⟨fun i hgone => ?_, fun d pin htask k e => ?_⟩
  · cases htask : s.task with
    | none =>
      rw [htask] at hgone
      exact hgone
    | some task =>
      have halone := h.alone hdes task htask
      rw [htask] at hgone
      cases task with
      | erase d pin =>
        -- RemovePin erases a pin that exists
        have hpin := (h.erasing d pin htask).1
        have hmade : s.made = pin := hgone
        omega
      | loop d => cases d <;> first | exact hgone | cases halone
      | delete d pin => cases d <;> first | exact hgone | cases halone
      | addPin | openPipe => exact hgone
      | stopServer => cases halone
  · subst e
    cases h.alone hdes _ htask

/-- The filter's destructor starts with every pin of the list alive. -/
theorem Sound.destruct {s : SinkThreads} (h : Sound s) (hidle : s.task = none) :
    Sound { s with task := some (.loop (.destructor 0)), destructed := true } := by
  refine ⟨h.door, h.writers, ⟨h.safe.listener, h.safe.writer, h.safe.server⟩, h.nodup, h.fresh,
    fun i id hid => ?_, fun _ _ e => (by cases e), fun _ _ e => (by cases e),
    fun e => (by cases e)⟩
  obtain ⟨hborn, hgone⟩ := h.listed i id hid
  rw [hidle] at hgone
  exact ⟨hborn, hgone.trans (iff_of_false (fun e => e) (Nat.not_lt_zero i))⟩

theorem Sound.step (s : SinkThreads) (a : ThreadsAction) (t : SinkThreads) (h : Sound s)
    (ht : s.step a = some t) (hC : EndFirst s a) : Sound t := by
  cases a with
  | pin id a =>
    simp only [SinkThreads.step, Option.ite_none_right_eq_some] at ht
    obtain ⟨hallow, ht⟩ := ht
    obtain ⟨p, hp, rfl⟩ := Option.map_eq_some_iff.mp ht
    exact h.pin _ hallow hp
  | server a =>
    simp only [SinkThreads.step, Option.ite_none_right_eq_some] at ht
    obtain ⟨hallow, ht⟩ := ht
    obtain ⟨server, ha, rfl⟩ := Option.map_eq_some_iff.mp ht
    exact h.server hallow ha hC
  | connect id =>
    simp only [SinkThreads.step, Option.ite_none_right_eq_some] at ht
    obtain ⟨⟨hdes, _, _⟩, ht⟩ := ht
    obtain rfl := Option.some.inj ht
    have hsame : Sound { s with isConnected := Function.update s.isConnected id true } :=
      ⟨h.door, h.writers, ⟨h.safe.listener, h.safe.writer, h.safe.server⟩, h.nodup, h.fresh,
        h.listed, h.deleting, h.erasing, h.alone⟩
    obtain ⟨hgone, hdelete⟩ := h.spare hdes
    exact hsame.addInputPin hgone hdelete
  | setStreamName created thread =>
    simp only [SinkThreads.step, Option.ite_none_right_eq_some] at ht
    obtain ⟨⟨_, hidle⟩, ht⟩ := ht
    obtain rfl := Option.some.inj ht
    refine h.goto (fun i id => ?_) (fun _ _ e => (by cases e)) (fun _ _ e => (by cases e))
      fun _ c e => ?_
    · rw [Option.isNone_iff_eq_none.mp hidle]
      exact Iff.rfl
    · obtain rfl := Option.some.inj e
      rfl
  | removePin pin =>
    simp only [SinkThreads.step, Option.ite_none_right_eq_some] at ht
    obtain ⟨⟨_, hidle⟩, ht⟩ := ht
    split at ht
    · refine h.beginDelete ht (fun i id => ?_) (fun k e => (by cases e)) fun _ => rfl
      rw [Option.isNone_iff_eq_none.mp hidle]
      exact Iff.rfl
    · obtain rfl := Option.some.inj ht
      exact h
  | destructor =>
    simp only [SinkThreads.step, Option.ite_none_right_eq_some] at ht
    obtain ⟨⟨_, hidle⟩, ht⟩ := ht
    obtain rfl := Option.some.inj ht
    exact h.destruct (Option.isNone_iff_eq_none.mp hidle)
  | task =>
    obtain ⟨task, htask, ht⟩ := Option.bind_eq_some_iff.mp ht
    exact h.taskStep htask ht hC

/-- A client is served while the filter is destructed: the server takes the destroyed pin
    out of the list. -/
example : ∃ u, run step (constructed fun _ => (.null, 0))
    [.server (.initializePipe true true), .server .thread, .server .thread, .server .thread,
      .server .clientOpen, .server .thread, .server .thread, .destructor, .task, .task,
      .server .thread] = some u ∧
    u.server.thread = some (.record 0 0) ∧ u.life 0 = .freed :=
  ⟨_, rfl, rfl, rfl⟩

end SinkThreads

end VirtualCaptureStream
