import VirtualCaptureStream.Lib.StopFlag
import VirtualCaptureStream.SinkServer

/- Stopping the two kinds of pipe server: the filter's discovery thread with
   `m_bServerRunning` and a pin's listener with `m_bPipeServerRunning`. Both set their
   flag as the first thing they do, and both StopServers clear it without knowing
   whether that has happened; so the thread of a pipe that is created and stopped in
   a row (as Run does from the stopped state: InitializePipe, and again through Pause)
   can set the flag after it was cleared. The two are views of the same kind of
   worker. -/
namespace VirtualCaptureStream

open Transition StopFlag

/-! The filter's thread. -/

namespace SinkServer

def worker (s : SinkServer) : Worker where
  flag := s.bServerRunning
  phase := match s.thread with
    | none => .absent
    | some .start => .created
    | some _ => .looping

/-- What a step does about the thread, by where the thread is after it: a turn goes to
    ConnectNamedPipe, and serving is PipeOutMediaTypes from its first pin on. -/
def label (s : SinkServer) : ServerAction → Label
  | .initializePipe _ thread =>
    if s.hPipe = .null then (if thread then .create else .quiet) else .clear
  | .stopServer => if s.hPipe = .null then .quiet else .clear
  | .call timeout => match s.call with
    | some ⟨.waitListener, _⟩ => if s.thread.isSome && timeout then .kill else .quiet
    | some ⟨.clear, some (_, true)⟩ => .create
    | _ => .quiet
  | .thread => match s.thread, (s.step .thread).map (·.thread) with
    | some .start, _ => .begin
    | _, some none => .exit
    | _, some (some ServerPc.connect) => .turn
    | _, some (some (ServerPc.walk 0)) => .serve
    | _, _ => .quiet
  | .clientOpen | .clientClose | .pins _ => .quiet

/-- A step that leaves the flag and the thread's stage as they are. -/
theorem refines_quiet {s t : SinkServer} (h : t.worker = s.worker) :
    s.worker.apply .quiet = some t.worker := congrArg some h.symm

theorem createPipe_refines {s u : SinkServer} (hu : s.worker = u.worker) (hnone : u.thread = none)
    (created thread : Bool) :
    s.worker.apply (if thread then .create else .quiet) =
      some (u.createPipe created thread).worker := by
  rw [hu]
  have habsent : u.worker.phase = .absent := by simp only [worker, hnone]
  cases thread with
  | false => exact refines_quiet rfl
  | true =>
    rw [if_pos rfl, Worker.apply, if_pos habsent]
    rfl

theorem threadStep_refines {s t : SinkServer} {pc : ServerPc} (hpc : s.thread = some pc)
    (h : s.threadStep pc = some t) : s.worker.apply (label s .thread) = some t.worker := by
  have hstep : s.step .thread = some t := by
    simp only [step, hpc, Option.bind_some, h]
  rw [label, hpc, hstep, Option.map_some]
  cases pc with
  | start =>
    obtain rfl := Option.some.inj h
    simp [worker, hpc, Worker.apply]
  | test =>
    simp only [threadStep] at h
    split at h
    · rename_i hon
      obtain rfl := Option.some.inj h
      simp [worker, hpc, hon, Worker.apply]
    · rename_i hoff
      obtain rfl := Option.some.inj h
      simp [worker, hpc, Worker.apply]
  | check =>
    simp only [threadStep] at h
    split at h
    · rename_i hserve
      obtain rfl := Option.some.inj h
      obtain ⟨-, hon⟩ := (Bool.and_eq_true _ _).mp hserve
      simp [worker, hpc, hon, Worker.apply]
    · obtain rfl := Option.some.inj h
      simp [worker, hpc, Worker.apply]
  | waiting =>
    simp only [threadStep] at h
    split at h
    · cases h
    all_goals
      obtain rfl := Option.some.inj h
      simp [worker, hpc, Worker.apply]
  | connect | walk | rest =>
    simp only [threadStep] at h
    split at h
    all_goals
      obtain rfl := Option.some.inj h
      simp [worker, hpc, Worker.apply]
  | record | finish | sleeping =>
    obtain rfl := Option.some.inj h
    simp [worker, hpc, Worker.apply]

theorem callStep_refines {s t : SinkServer} {timeout : Bool} {c : ServerCall} (hs : Sound s)
    (hc : s.call = some c) (h : s.callStep timeout c.creates c.pc = some t) :
    s.worker.apply (label s (.call timeout)) = some t.worker := by
  have hwaited := hs.waited c hc
  obtain ⟨pc, creates⟩ := c
  cases pc with
  | openPipe =>
    simp only [callStep] at h
    split at h <;> obtain rfl := Option.some.inj h <;>
      · simp only [label, hc]
        exact refines_quiet rfl
  | closeClient | disconnect | closeHandle =>
    obtain rfl := Option.some.inj h
    simp only [label, hc]
    exact refines_quiet rfl
  | waitListener =>
    simp only [callStep] at h
    split at h
    · rename_i hnone
      obtain rfl := Option.some.inj h
      simp only [label, hc, hnone, Option.isSome_none, Bool.false_and, Bool.false_eq_true, if_false]
      exact refines_quiet (by simp only [worker, hnone])
    · rename_i hsome
      rw [Option.ite_none_right_eq_some] at h
      obtain ⟨htime, h⟩ := h
      obtain rfl := Option.some.inj h
      simp [label, hc, htime, Option.isSome_iff_ne_none.mpr hsome, worker, Worker.apply]
  | clear =>
    have hnone : s.thread = none := hwaited (Or.inr (Or.inr rfl))
    cases creates with
    | none =>
      obtain rfl := Option.some.inj h
      simp only [label, hc]
      exact refines_quiet rfl
    | some p =>
      obtain ⟨created, thread⟩ := p
      obtain rfl := Option.some.inj h
      have hcreate := createPipe_refines (s := s) (u := { s with hPipe := .null, call := none })
        rfl hnone created thread
      simp only [label, hc]
      cases thread <;> exact hcreate

theorem step_refines_worker (s : SinkServer) (a : ServerAction) (t : SinkServer) (hs : Sound s)
    (h : s.step a = some t) : s.worker.apply (label s a) = some t.worker := by
  cases a with
  | initializePipe created thread =>
    simp only [step, Option.ite_none_left_eq_some] at h
    obtain ⟨_, h⟩ := h
    by_cases hpipe : s.hPipe = .null
    · rw [if_pos hpipe] at h
      obtain rfl := Option.some.inj h
      simp only [label, if_pos hpipe]
      exact createPipe_refines rfl (hs.no_pipe hpipe).1 created thread
    · rw [if_neg hpipe] at h
      obtain rfl := Option.some.inj h
      simp only [label, if_neg hpipe]
      rfl
  | stopServer =>
    simp only [step, Option.ite_none_left_eq_some] at h
    obtain ⟨_, h⟩ := h
    by_cases hpipe : s.hPipe = .null
    · rw [if_pos hpipe] at h
      obtain rfl := Option.some.inj h
      simp only [label, if_pos hpipe]
      rfl
    · rw [if_neg hpipe] at h
      obtain rfl := Option.some.inj h
      simp only [label, if_neg hpipe]
      rfl
  | call timeout =>
    obtain ⟨c, hc, h⟩ := Option.bind_eq_some_iff.mp h
    exact callStep_refines hs hc h
  | thread =>
    obtain ⟨pc, hpc, h⟩ := Option.bind_eq_some_iff.mp h
    exact threadStep_refines hpc h
  | clientOpen =>
    simp only [step, Option.ite_none_right_eq_some] at h
    obtain rfl := Option.some.inj h.2
    rfl
  | clientClose =>
    obtain ⟨c, _, rfl⟩ := Option.map_eq_some_iff.mp h
    rfl
  | pins pinList =>
    obtain rfl := Option.some.inj h
    rfl

/-- The phase is `created` until the thread has made its first step. -/
theorem worker_created_iff {s : SinkServer} :
    s.worker.phase = .created ↔ s.thread = some .start := by
  cases hpc : s.thread with
  | none => simp [worker, hpc]
  | some pc => cases pc <;> simp [worker, hpc]

def view : View step where
  worker := worker
  label := label
  Inv := Sound
  inv_step := Sound.step
  refines := step_refines_worker
  begins s _ hphase := by
    have hstart := worker_created_iff.mp hphase
    refine ⟨.thread, { s with
      bServerRunning := true, bConnected := false, thread := some .test }, ?_, ?_⟩
    · simp only [step, hstart, Option.bind_some, threadStep]
    · simp only [label, hstart]

end SinkServer

/-! A pin's listener. -/

@[simp] theorem SinkInputPin.receive_bPipeServerRunning (env : SinkInputPin.ReceiveEnv) (id : Nat)
    (sample : MediaSample) (p : SinkInputPin) :
    (p.receive env id sample).pin.bPipeServerRunning = p.bPipeServerRunning := by
  simp only [SinkInputPin.receive, SinkInputPin.createWriteBufferThread]
  repeat' split
  all_goals rfl

namespace SinkSystem

/-- What the listener's stop depends on. -/
structure Door where
  hPipe : HANDLE
  bPipeServerRunning : Bool
  listener : Option ListenerPc
  stopper : Option StopPc

def door (s : SinkSystem) : Door := ⟨s.pin.hPipe, s.pin.bPipeServerRunning, s.listener, s.stopper⟩

/-- A listener, and a call of StopServer, only for an open pipe; past its wait
    StopServer has no listener. -/
structure Door.Sound (d : Door) : Prop where
  no_pipe : d.hPipe = .null → d.listener = none ∧ d.stopper = none
  waited : ∀ pc, d.stopper = some pc → pc = .disconnect ∨ pc = .closeHandle ∨ pc = .clear →
    d.listener = none

def Door.worker (d : Door) : Worker where
  flag := d.bPipeServerRunning
  phase := match d.listener with
    | none => .absent
    | some .start => .created
    | some _ => .looping

/-- What a step does about the listener, by where it is after it; it serves nobody itself. -/
def listenerLabel (s : SinkSystem) : SinkAction → Label
  | .receive env sample =>
    if (s.pin.receive env s.received sample).endOfStream = true ∧ s.pin.hPipe ≠ .null then .clear
    else .quiet
  | .endOfStream => if s.pin.hPipe = .null then .quiet else .clear
  | .notifyAllocator _ _ thread =>
    if s.pin.hPipe = .null then (if thread then .create else .quiet) else .quiet
  | .stopServer timeout => match s.stopper with
    | some .waitListener => if s.listener.isSome && timeout then .kill else .quiet
    | _ => .quiet
  | .listener => match s.listener, (s.step .listener).map (·.listener) with
    | some .start, _ => .begin
    | _, some none => .exit
    | _, some (some ListenerPc.connect) => .turn
    | _, _ => .quiet
  | .reset | .beginFlush | .endFlush | .breakConnect | .breakWait _ | .writer | .clientOpen
  | .clientClose => .quiet

/-- The step keeps the invariant of the door and does what its label says. -/
def DoorStep (s : SinkSystem) (a : SinkAction) (t : SinkSystem) : Prop :=
  t.door.Sound ∧ s.door.worker.apply (listenerLabel s a) = some t.door.worker

theorem DoorStep.of_same {s t : SinkSystem} {a : SinkAction} (hs : s.door.Sound)
    (hl : listenerLabel s a = .quiet) (h : t.door = s.door) : DoorStep s a t := by
  rw [DoorStep, h, hl]
  exact ⟨hs, rfl⟩

theorem writerStep_door {s t : SinkSystem} {pc : WriterPc} (h : s.writerStep pc = some t) :
    t.door = s.door := by
  obtain ⟨_, _, _, _, _, rfl⟩ := writerStep_writes h
  rfl

/-- EndOfStream and the Receive that raises it both clear the flag and call StopServer. -/
theorem DoorStep.of_stop {s t : SinkSystem} {a : SinkAction} (hpipe : s.pin.hPipe ≠ .null)
    (hl : listenerLabel s a = .clear)
    (h : t.door = ⟨s.pin.hPipe, false, s.listener, some .openPipe⟩) : DoorStep s a t := by
  rw [DoorStep, h, hl]
  refine ⟨⟨fun e => absurd e hpipe, fun pc e hpc => ?_⟩, rfl⟩
  obtain rfl := Option.some.inj e
  simp at hpc

theorem receiveStep_door {s t : SinkSystem} {env : SinkInputPin.ReceiveEnv} {sample : MediaSample}
    (hs : s.door.Sound) (h : s.receiveStep env sample = some t) :
    DoorStep s (.receive env sample) t := by
  unfold receiveStep at h
  dsimp only at h
  cases heos : (s.pin.receive env s.received sample).endOfStream
  · rw [heos, if_neg Bool.false_ne_true] at h
    obtain rfl := Option.some.inj h
    exact .of_same hs (by simp [listenerLabel, heos]) (by simp [door])
  · rw [heos, if_pos rfl, SinkInputPin.receive_hPipe] at h
    by_cases hp : s.pin.hPipe = .null
    · rw [if_pos hp] at h
      obtain rfl := Option.some.inj h
      exact .of_same hs (by simp [listenerLabel, hp]) (by simp [door])
    · rw [if_neg hp, Option.map_eq_some_iff] at h
      obtain ⟨u, hu, rfl⟩ := h
      rw [endOfStream, if_neg (by simpa using hp), Option.ite_none_right_eq_some] at hu
      obtain rfl := Option.some.inj hu.2
      exact .of_stop hp (by simp [listenerLabel, heos, hp]) (by simp [door])

/-- StopServer goes on; once it is past its wait there is no listener. -/
theorem DoorStep.of_next {s t : SinkSystem} {a : SinkAction} {next : StopPc}
    (hpipe : s.pin.hPipe ≠ .null) (hl : listenerLabel s a = .quiet)
    (h : t.door = ⟨s.pin.hPipe, s.pin.bPipeServerRunning, s.listener, some next⟩)
    (hlate : next = .disconnect ∨ next = .closeHandle ∨ next = .clear → s.listener = none) :
    DoorStep s a t := by
  rw [DoorStep, h, hl]
  refine ⟨⟨fun e => absurd e hpipe, fun pc e hpc => ?_⟩, rfl⟩
  obtain rfl := Option.some.inj e
  exact hlate hpc

theorem stopStep_door {s t : SinkSystem} {timeout : Bool} {pc : StopPc} (hs : s.door.Sound)
    (hpc : s.stopper = some pc) (h : s.stopStep timeout pc = some t) :
    DoorStep s (.stopServer timeout) t := by
  have hpipe : s.pin.hPipe ≠ .null := by
    intro e
    have hnone := (hs.no_pipe e).2
    rw [show s.door.stopper = some pc from hpc] at hnone
    cases hnone
  have hwaited := hs.waited pc hpc
  cases pc with
  | openPipe =>
    simp only [stopStep] at h
    split at h <;> obtain rfl := Option.some.inj h <;>
      exact .of_next hpipe (by simp [listenerLabel, hpc]) rfl (by simp)
  | closeClient n =>
    obtain rfl := Option.some.inj h
    exact .of_next hpipe (by simp [listenerLabel, hpc]) rfl (by simp)
  | waitListener =>
    simp only [stopStep] at h
    split at h
    · rename_i hnone
      obtain rfl := Option.some.inj h
      exact .of_next hpipe (by simp [listenerLabel, hpc, hnone]) rfl (fun _ => hnone)
    · rename_i hsome
      rw [Option.ite_none_right_eq_some] at h
      obtain ⟨htime, h⟩ := h
      obtain rfl := Option.some.inj h
      refine ⟨⟨fun e => absurd e hpipe, fun _ _ _ => rfl⟩, ?_⟩
      simp [listenerLabel, hpc, htime, Option.isSome_iff_ne_none.mpr hsome, Door.worker, door,
        Worker.apply]
  | disconnect =>
    obtain rfl := Option.some.inj h
    exact .of_next hpipe (by simp [listenerLabel, hpc]) rfl (fun _ => hwaited (Or.inl rfl))
  | closeHandle =>
    obtain rfl := Option.some.inj h
    exact .of_next hpipe (by simp [listenerLabel, hpc]) rfl (fun _ => hwaited (Or.inr (Or.inl rfl)))
  | clear =>
    obtain rfl := Option.some.inj h
    have hnone : s.listener = none := hwaited (Or.inr (Or.inr rfl))
    refine ⟨⟨fun _ => ⟨hnone, rfl⟩, fun pc e _ => (by cases e)⟩, ?_⟩
    simp only [listenerLabel, hpc, Worker.apply]
    rfl

theorem listenerStep_door {s t : SinkSystem} {pc : ListenerPc} (hs : s.door.Sound)
    (hpc : s.listener = some pc) (h : s.listenerStep pc = some t) : DoorStep s .listener t := by
  have hpipe : s.pin.hPipe ≠ .null := by
    intro e
    have hnone := (hs.no_pipe e).1
    rw [show s.door.listener = some pc from hpc] at hnone
    cases hnone
  have hbefore : ∀ pc', s.stopper = some pc' →
      ¬ (pc' = .disconnect ∨ pc' = .closeHandle ∨ pc' = .clear) := by
    intro pc' hst hlate
    have hnone := hs.waited pc' hst hlate
    rw [show s.door.listener = some pc from hpc] at hnone
    cases hnone
  have hsound : ∀ u : SinkSystem, u.pin.hPipe = s.pin.hPipe → u.stopper = s.stopper →
      u.door.Sound := by
    intro u hp hst
    refine ⟨fun e => absurd (hp ▸ e) hpipe, fun pc' e hlate => ?_⟩
    exact absurd hlate (hbefore pc' (hst ▸ e))
  have hstep : s.step .listener = some t := by
    simp only [step, hpc, Option.bind_some, h]
  rw [DoorStep, listenerLabel, hpc, hstep, Option.map_some]
  cases pc with
  | start | sleeping =>
    obtain rfl := Option.some.inj h
    exact ⟨hsound _ rfl rfl, by simp [hpc, Door.worker, door, Worker.apply]⟩
  | test =>
    simp only [listenerStep] at h
    split at h
    · rename_i hon
      obtain rfl := Option.some.inj h
      have hflag := ((Bool.and_eq_true _ _).mp hon).1
      exact ⟨hsound _ rfl rfl, by simp [hpc, hflag, Door.worker, door, Worker.apply]⟩
    · obtain rfl := Option.some.inj h
      exact ⟨hsound _ rfl rfl, by simp [hpc, Door.worker, door, Worker.apply]⟩
  | waiting =>
    simp only [listenerStep] at h
    split at h
    · cases h
    all_goals
      obtain rfl := Option.some.inj h
      exact ⟨hsound _ rfl rfl, by simp [hpc, Door.worker, door, Worker.apply]⟩
  | connect | check =>
    simp only [listenerStep] at h
    split at h
    all_goals
      obtain rfl := Option.some.inj h
      exact ⟨hsound _ rfl rfl, by simp [hpc, Door.worker, door, Worker.apply]⟩

theorem notifyAllocatorStep_door {s : SinkSystem} (hs : s.door.Sound) (a : AllocatorProperties)
    (created thread : Bool) :
    DoorStep s (.notifyAllocator a created thread) (s.notifyAllocatorStep a created thread) := by
  by_cases hp : s.pin.hPipe = .null
  · obtain ⟨hnone, hstop⟩ := hs.no_pipe hp
    have hl : s.listener = none := hnone
    have hst : s.stopper = none := hstop
    rw [DoorStep, notifyAllocatorStep, if_pos hp]
    refine ⟨⟨fun e => ?_, fun pc e _ => ?_⟩, ?_⟩
    · cases created <;> cases e
    · rw [show s.stopper = some pc from e] at hst
      cases hst
    · cases thread <;> simp [listenerLabel, hp, hl, Door.worker, door, Worker.apply]
  · rw [notifyAllocatorStep, if_neg hp]
    exact .of_same hs (by simp only [listenerLabel, if_neg hp]) rfl

theorem step_door {s t : SinkSystem} {a : SinkAction} (hs : s.door.Sound)
    (h : s.step a = some t) : DoorStep s a t := by
  cases a with
  | receive env sample =>
    simp only [step, Option.ite_none_right_eq_some] at h
    exact receiveStep_door hs h.2
  | reset | beginFlush | endFlush =>
    simp only [step, Option.ite_none_right_eq_some] at h
    obtain rfl := Option.some.inj h.2
    exact .of_same hs rfl rfl
  | endOfStream =>
    simp only [step, endOfStream] at h
    split at h
    · rename_i hp
      obtain rfl := Option.some.inj h
      exact .of_same hs (if_pos hp) rfl
    · rename_i hp
      rw [Option.ite_none_right_eq_some] at h
      obtain rfl := Option.some.inj h.2
      exact .of_stop hp (if_neg hp) rfl
  | notifyAllocator a created thread =>
    simp only [step, Option.ite_none_right_eq_some] at h
    obtain rfl := Option.some.inj h.2
    exact notifyAllocatorStep_door hs a created thread
  | breakConnect =>
    simp only [step, Option.ite_none_right_eq_some] at h
    obtain ⟨_, h⟩ := h
    split at h <;> obtain rfl := Option.some.inj h <;> exact .of_same hs rfl rfl
  | breakWait timeout =>
    simp only [step, Option.ite_none_right_eq_some] at h
    obtain rfl := Option.some.inj h.2
    obtain ⟨cut, hcut⟩ := terminateWriter_writes s
    rw [hcut]
    exact .of_same hs rfl rfl
  | stopServer timeout =>
    obtain ⟨pc, hpc, h⟩ := Option.bind_eq_some_iff.mp h
    exact stopStep_door hs hpc h
  | writer =>
    obtain ⟨pc, _, h⟩ := Option.bind_eq_some_iff.mp h
    exact .of_same hs rfl (writerStep_door h)
  | listener =>
    obtain ⟨pc, hpc, h⟩ := Option.bind_eq_some_iff.mp h
    exact listenerStep_door hs hpc h
  | clientOpen =>
    simp only [step, Option.ite_none_right_eq_some] at h
    obtain rfl := Option.some.inj h.2
    exact .of_same hs rfl rfl
  | clientClose =>
    obtain ⟨c, _, rfl⟩ := Option.map_eq_some_iff.mp h
    exact .of_same hs rfl rfl

theorem door_new (hThread2 : ThreadHandle) (rtRefPoint2 : Int64) :
    (new hThread2 rtRefPoint2).door.Sound :=
  ⟨fun _ => ⟨rfl, rfl⟩, fun pc h => (by cases h)⟩

theorem door_created_iff {s : SinkSystem} :
    s.door.worker.phase = .created ↔ s.listener = some .start := by
  cases hpc : s.listener with
  | none => simp [Door.worker, door, hpc]
  | some pc => cases pc <;> simp [Door.worker, door, hpc]

def listenerView : View step where
  worker s := s.door.worker
  label := listenerLabel
  Inv s := s.door.Sound
  inv_step s a t hs h := (step_door hs h).1
  refines s a t hs h := (step_door hs h).2
  begins s _ hphase := by
    have hstart := door_created_iff.mp hphase
    refine ⟨.listener, { s with
      pin := { s.pin with bPipeServerRunning := true }, listener := some .test }, ?_, ?_⟩
    · simp only [step, hstart, Option.bind_some, listenerStep]
    · simp only [listenerLabel, hstart]

end SinkSystem

/-- **A stopped server stays stopped** exactly if its thread has made its first step
    when StopServer clears the flag, for the filter's server and for a pin's, after
    any run of everybody concerned and for all that may follow. -/
theorem stopped_server_stays_stopped_iff (pinList : List Nat) (hThread2 : ThreadHandle)
    (rtRefPoint2 : Int64) :
    (∀ (s : SinkServer) (a : SinkServer.ServerAction) (t : SinkServer),
      Reach SinkServer.step (SinkServer.new pinList) s → s.step a = some t →
      s.label a = .clear → (SinkServer.view.StaysStopped t ↔ s.thread ≠ some .start)) ∧
    (∀ (s : SinkSystem) (a : SinkSystem.SinkAction) (t : SinkSystem),
      Reach SinkSystem.step (SinkSystem.new hThread2 rtRefPoint2) s →
      s.step a = some t → s.listenerLabel a = .clear →
      (SinkSystem.listenerView.StaysStopped t ↔ s.listener ≠ some .start)) := by
  refine ⟨fun s a t hreach hstep hclear => ?_, fun s a t hreach hstep hclear => ?_⟩
  · have hs : s.Sound := hreach.invariant SinkServer.Sound.step (SinkServer.sound_new pinList)
    rw [SinkServer.view.staysStopped_iff hs hstep hclear]
    exact not_congr SinkServer.worker_created_iff
  · have hs : s.door.Sound := hreach.invariant SinkSystem.listenerView.inv_step
      (SinkSystem.door_new hThread2 rtRefPoint2)
    rw [SinkSystem.listenerView.staysStopped_iff hs hstep hclear]
    exact not_congr SinkSystem.door_created_iff

/-- Run from the stopped state: the pipe that InitializePipe has just made is stopped
    again by the InitializePipe that Pause calls, the thread starts after that, sets
    the flag and goes into its loop. -/
theorem late_start_undoes_stop :
    ∃ s t u, Reach SinkServer.step (SinkServer.new []) s ∧
      s.step (.initializePipe true true) = some t ∧ s.label (.initializePipe true true) = .clear ∧
      run SinkServer.step t [.call false, .call false, .thread, .thread] = some u ∧
      u.bServerRunning = true ∧ u.thread = some .connect ∧ u.pipe = some .closing ∧
      ¬ SinkServer.view.StaysStopped t := by
  refine ⟨_, _, _, Reach.single (a := .initializePipe true true) rfl, rfl, rfl, rfl, rfl, rfl, rfl,
    fun h => ?_⟩
  obtain ⟨hoff, _⟩ := h [.thread] _ rfl ⟨by decide, fun _ _ => trivial⟩
  have hlate := hoff.2 _ rfl
  cases hlate

/-- A thread that has begun when the pipe is stopped, of the filter and of a pin. -/
theorem stopped_server_stays_stopped_iff_begun :
    (∃ s t, Reach SinkServer.step (SinkServer.new []) s ∧ s.step .stopServer = some t ∧
      SinkServer.view.StaysStopped t) ∧
    (∃ s t, Reach SinkSystem.step (SinkSystem.new .null 0) s ∧ s.step .endOfStream = some t ∧
      SinkSystem.listenerView.StaysStopped t) := by
  refine ⟨?_, ?_⟩
  · obtain ⟨s, hs⟩ : ∃ s, run SinkServer.step (SinkServer.new [])
      [.initializePipe true true, .thread] = some s := ⟨_, rfl⟩
    have hstep : s.step .stopServer = some (s.beginStop none) := by
      obtain rfl := Option.some.inj hs
      rfl
    have hclear : s.label .stopServer = .clear := by
      obtain rfl := Option.some.inj hs
      rfl
    refine ⟨s, _, ⟨_, hs⟩, hstep,
      ((stopped_server_stays_stopped_iff [] .null 0).1 s _ _ ⟨_, hs⟩ hstep hclear).mpr ?_⟩
    obtain rfl := Option.some.inj hs
    exact fun e => (by cases e)
  · obtain ⟨s, hs⟩ : ∃ s, run SinkSystem.step (SinkSystem.new .null 0)
      [.notifyAllocator ⟨1, 1, 1, 0⟩ true true, .listener] = some s := ⟨_, rfl⟩
    obtain ⟨t, hstep⟩ : ∃ t, s.step .endOfStream = some t := by
      obtain rfl := Option.some.inj hs
      exact ⟨_, rfl⟩
    have hclear : s.listenerLabel .endOfStream = .clear := by
      obtain rfl := Option.some.inj hs
      rfl
    refine ⟨s, t, ⟨_, hs⟩, hstep,
      ((stopped_server_stays_stopped_iff [] .null 0).2 s _ t ⟨_, hs⟩ hstep hclear).mpr ?_⟩
    obtain rfl := Option.some.inj hs
    exact fun e => (by cases e)

end VirtualCaptureStream
