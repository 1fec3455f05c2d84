import VirtualCaptureStream.ServerStop
import VirtualCaptureStream.SinkDiscard
import VirtualCaptureStream.SinkGraph

/- Whether a source can attach to the pins of a running sink. A pin's data pipe and
   its listener are made by NotifyAllocator, which the graph calls once, when the pin
   is connected; EndOfStream closes both, and neither Pause nor Run looks at them.
   `running_pins_attachable_iff` says which connected pins can be attached to after
   Run, from the calls they have had.

   `Shows` connects this level with the one of the threads: NotifyAllocator does the
   same on both, and EndOfStream has on the threads' level the result it has here. -/
namespace VirtualCaptureStream

namespace PinServer

/-- What the calls, the latest first, have made: no pipe, or what the first
    NotifyAllocator got since there was none. -/
def provided : List PinCall → Option Bool
  | [] => none
  | .endOfStream :: _ => none
  | .destructor :: _ => none
  | .notifyAllocator created thread :: calls =>
    some ((provided calls).getD (created && thread))

/-- The data pipe is open, and a listener waits for a client. -/
def Attachable (p : PinServer) : Prop := (∃ n, p.pin.hPipe = .handle n) ∧ p.listener = true

/-- The pipe and the listener are what the calls have made. -/
structure Accounted (p : PinServer) : Prop where
  missing : provided p.calls = none → p.pin.hPipe = .null ∧ p.listener = false
  given : ∀ b, provided p.calls = some b → p.pin.hPipe ≠ .null ∧ (b = true ↔ p.Attachable)

theorem Accounted.attachable_iff {p : PinServer} (h : Accounted p) :
    p.Attachable ↔ provided p.calls = some true := by
  cases hp : provided p.calls with
  | none =>
    refine ⟨fun hatt => ?_, fun e => (by cases e)⟩
    obtain ⟨n, hn⟩ := hatt.1
    rw [(h.missing hp).1] at hn
    cases hn
  | some b =>
    rw [Option.some.injEq]
    exact (h.given b hp).2.symm

theorem accounted_new (heap : ThreadHandle × Int64) : Accounted (new heap) :=
  ⟨fun _ => ⟨rfl, rfl⟩, fun b e => (by cases e)⟩

/-- Calls that do not touch the pipe. -/
theorem Accounted.of_same {p q : PinServer} (h : Accounted p) (hcalls : q.calls = p.calls)
    (hpipe : q.pin.hPipe = p.pin.hPipe) (hlistener : q.listener = p.listener) : Accounted q := by
  refine ⟨fun e => ?_, fun b e => ?_⟩
  · rw [hpipe, hlistener]
    exact h.missing (hcalls ▸ e)
  · unfold Attachable
    rw [hpipe, hlistener]
    exact h.given b (hcalls ▸ e)

/-- StopServer leaves neither a pipe nor a listener. -/
theorem Accounted.stopServer {p : PinServer} (h : Accounted p) :
    p.stopServer.pin.hPipe = .null ∧ p.stopServer.listener = false := by
  unfold PinServer.stopServer
  split
  · rename_i hnull
    refine ⟨hnull, ?_⟩
    cases hp : provided p.calls with
    | none => exact (h.missing hp).2
    | some b => exact absurd hnull (h.given b hp).1
  · exact ⟨rfl, rfl⟩

theorem Accounted.endOfStream {p : PinServer} (h : Accounted p) : Accounted p.endOfStream :=
  ⟨fun _ => h.stopServer, fun b e => (by cases e)⟩

theorem Accounted.destructor {p : PinServer} (h : Accounted p) : Accounted p.destructor :=
  ⟨fun _ => h.stopServer, fun b e => (by cases e)⟩

theorem Accounted.notifyAllocator {p : PinServer} (h : Accounted p) (a : AllocatorProperties)
    (created thread : Bool) : Accounted (p.notifyAllocator a created thread) := by
  unfold PinServer.notifyAllocator
  dsimp only
  cases hp : provided p.calls with
  | none =>
    -- the pipe and the listener are made now
    obtain ⟨hnull, hno⟩ := h.missing hp
    rw [if_pos hnull]
    refine ⟨fun e => (by cases e), fun b e => ?_⟩
    have hb : b = (created && thread) := by
      rw [provided, hp] at e
      exact (Option.some.inj e).symm
    subst hb
    cases created <;> cases thread <;> simp [Attachable, hno]
  | some b =>
    rw [if_neg (h.given b hp).1]
    refine ⟨fun e => (by cases e), fun b' e => ?_⟩
    have hb : b' = b := by
      rw [provided, hp] at e
      exact (Option.some.inj e).symm
    subst hb
    exact h.given b' hp

theorem Accounted.receive {p : PinServer} (h : Accounted p) (env : SinkInputPin.ReceiveEnv)
    (sample : MediaSample) : Accounted (p.receive env sample) := by
  have hqueued : Accounted { p with
      pin := (p.pin.receive env p.received sample).pin, received := p.received + 1 } :=
    h.of_same rfl (SinkInputPin.receive_hPipe env p.received sample p.pin) rfl
  unfold PinServer.receive
  dsimp only
  split
  · exact hqueued.endOfStream
  · exact hqueued

theorem Accounted.beginFlush {p : PinServer} (h : Accounted p) : Accounted p.beginFlush :=
  h.of_same rfl rfl rfl

theorem Accounted.endFlush {p : PinServer} (h : Accounted p) : Accounted p.endFlush :=
  h.of_same rfl rfl rfl

theorem Accounted.breakConnect {p : PinServer} (h : Accounted p) : Accounted p.breakConnect := by
  unfold PinServer.breakConnect
  split
  · exact h
  · exact h.of_same rfl rfl rfl

/-! The calls on the level of the threads. -/

/-- The pin of the threads has the pipe and the listener that `p` has. -/
structure Shows (s : SinkSystem) (p : PinServer) : Prop where
  null : s.pin.hPipe = .null ↔ p.pin.hPipe = .null
  handle : (∃ n, s.pin.hPipe = .handle n) ↔ ∃ n, p.pin.hPipe = .handle n
  listener : s.listener.isSome = p.listener

theorem Shows.notifyAllocator {s : SinkSystem} {p : PinServer} (h : Shows s p)
    (a : AllocatorProperties) (created thread : Bool) :
    Shows (s.notifyAllocatorStep a created thread) (p.notifyAllocator a created thread) := by
  unfold SinkSystem.notifyAllocatorStep PinServer.notifyAllocator
  dsimp only
  by_cases hnull : s.pin.hPipe = .null
  · rw [if_pos hnull, if_pos (h.null.mp hnull)]
    refine ⟨?_, ?_, ?_⟩
    · cases created <;> simp
    · cases created <;> simp
    · cases thread
      · exact h.listener
      · rfl
  · rw [if_neg hnull, if_neg (fun e => hnull (h.null.mpr e))]
    exact ⟨h.null, h.handle, h.listener⟩

/-- When StopServer returns, the pin is as EndOfStream leaves it. -/
theorem Accounted.shows_endOfStream {s : SinkSystem} {p : PinServer} (hp : Accounted p)
    (hs : s.door.Sound) (hnull : s.pin.hPipe = .null) : Shows s p.endOfStream := by
  obtain ⟨hpipe, hlistener⟩ := hp.endOfStream.missing rfl
  refine ⟨⟨fun _ => hpipe, fun _ => hnull⟩, ?_, ?_⟩
  · rw [hnull, hpipe]
  · have hnone : s.listener = none := (hs.no_pipe hnull).1
    rw [hnone, hlistener, Option.isSome_none]

/-- EndOfStream can return, from any state in which nobody holds the pin lock. -/
theorem Accounted.reach_endOfStream {s : SinkSystem} {p : PinServer} (hp : Accounted p)
    (hs : s.door.Sound) (hlock : s.lock = none) :
    ∃ t, Transition.Reach SinkSystem.step s t ∧ Shows t p.endOfStream := by
  obtain ⟨t, hreach, _, hnull⟩ := SinkSystem.reach_no_pipe hlock
  have ht : t.door.Sound := hreach.invariant SinkSystem.listenerView.inv_step hs
  exact ⟨t, hreach, hp.shows_endOfStream ht hnull⟩

end PinServer

namespace SinkGraph

open PinServer (Accounted provided Attachable)

theorem accounted_onPin {s t : SinkGraph} {i : Nat} {f : PinServer → PinServer}
    (h : ∀ id, Accounted (s.pins id)) (hf : ∀ p, Accounted p → Accounted (f p))
    (hon : s.onPin i f = some t) : ∀ id, Accounted (t.pins id) := by
  obtain ⟨p, _, rfl⟩ := Option.map_eq_some_iff.mp hon
  intro id
  dsimp only
  split
  · exact hf _ (h id)
  · exact h id

theorem accounted_setStreamName {s t : SinkGraph} {name : WStr} {tick : UInt32} {created : Bool}
    (h : ∀ id, Accounted (s.pins id)) (hset : s.setStreamName name tick created = some t) :
    ∀ id, Accounted (t.pins id) := by
  obtain ⟨sink, _, rfl⟩ := Option.map_eq_some_iff.mp hset
  intro id
  have hpin : Accounted (if id ∈ sink.deleted ∧ id ∉ s.sink.deleted then (s.pins id).destructor
      else s.pins id) := by
    split
    · exact (h id).destructor
    · exact h id
  dsimp only
  split <;> exact hpin

theorem run_pins (s : SinkGraph) (first second : Bool) (id : Nat) :
    (s.run first second).pins id =
      if s.connected id then (s.pins id).reset else s.pins id := by
  unfold SinkGraph.run
  dsimp only
  split <;> split <;> rfl

theorem accounted_step (s : SinkGraph) (a : GraphAction) (t : SinkGraph)
    (h : ∀ id, Accounted (s.pins id)) (hstep : s.step a = some t) :
    ∀ id, Accounted (t.pins id) := by
  simp only [SinkGraph.step, Option.ite_none_left_eq_some] at hstep
  obtain ⟨_, hstep⟩ := hstep
  cases a with
  | completeConnect i mt tick =>
    rw [Option.ite_none_right_eq_some] at hstep
    obtain ⟨sink, _, rfl⟩ := Option.map_eq_some_iff.mp hstep.2
    exact h
  | notifyAllocator i a created thread =>
    obtain ⟨sink, _, hon⟩ := Option.bind_eq_some_iff.mp hstep
    refine accounted_onPin ?_ (fun p hp => hp.notifyAllocator a created thread) hon
    exact h
  | disconnect i =>
    obtain ⟨p, _, hstep⟩ := Option.bind_eq_some_iff.mp hstep
    split at hstep
    · refine accounted_onPin ?_ (fun p hp => hp.breakConnect) hstep
      exact h
    · obtain rfl := Option.some.inj hstep
      exact h
  | receive i capture getProperties thread sample =>
    exact accounted_onPin h (fun p hp => hp.receive _ sample) hstep
  | endOfStream i => exact accounted_onPin h (fun p hp => hp.endOfStream) hstep
  | beginFlush i => exact accounted_onPin h (fun p hp => hp.beginFlush) hstep
  | endFlush i => exact accounted_onPin h (fun p hp => hp.endFlush) hstep
  | setStreamName name tick created => exact accounted_setStreamName h hstep
  | pause created =>
    obtain rfl := Option.some.inj hstep
    exact h
  | run first second =>
    obtain rfl := Option.some.inj hstep
    intro id
    rw [run_pins]
    split
    · exact (h id).of_same rfl rfl rfl
    · exact h id
  | stop =>
    obtain rfl := Option.some.inj hstep
    exact h
  | destructor =>
    obtain rfl := Option.some.inj hstep
    intro id
    show Accounted (if s.sink.pinList.any (fun p => p.id == id) then (s.pins id).destructor
      else s.pins id)
    split
    · exact (h id).destructor
    · exact h id

/-- **A running sink can be attached to**: after Run every connected pin has an open
    pipe and a listener, exactly if for every connected pin there was no EndOfStream
    after the NotifyAllocator that made them, and that one made both. -/
theorem running_pins_attachable_iff (heap : Nat → ThreadHandle × Int64) (tick : UInt32)
    (s : SinkGraph) (hs : constructed heap tick = some s) (as : List GraphAction)
    (first second : Bool) (u : SinkGraph)
    (hrun : Transition.run step s (as ++ [.run first second]) = some u) :
    (∀ p ∈ u.sink.pinList, p.isConnected = true → Attachable (u.pins p.id)) ↔
      ∀ p ∈ u.sink.pinList, p.isConnected = true → provided (u.pins p.id).calls = some true := by
  have hnew : ∀ id, Accounted (s.pins id) := by
    obtain ⟨sink, _, rfl⟩ := Option.map_eq_some_iff.mp hs
    exact fun id => PinServer.accounted_new (heap id)
  have hend := Transition.run_invariant accounted_step _ s u hnew hrun
  refine ⟨fun h p hp hc => ?_, fun h p hp hc => ?_⟩
  · exact (hend p.id).attachable_iff.mp (h p hp hc)
  · exact (hend p.id).attachable_iff.mpr (h p hp hc)

/-- A connected pin of a running sink gets an EndOfStream; the sink is stopped and run
    again. -/
def endAndRestart : List GraphAction :=
  [.completeConnect 0 bareVideo 0, .notifyAllocator 0 ⟨1, 1, 1, 0⟩ true true, .run true true,
    .endOfStream 0, .stop, .run true true]

/-- The pin accepts samples and has no pipe. -/
theorem restarted_pin_has_no_pipe :
    ∃ s u, constructed (fun _ => (.null, 0)) 0 = some s ∧
      Transition.run step s endAndRestart = some u ∧
      u.sink.pinList.map (fun p => (p.id, p.isConnected)) = [(0, true), (1, false)] ∧
      u.state = .running ∧ (u.pins 0).pin.hPipe = .null ∧ (u.pins 0).listener = false ∧
      (SinkInputPin.baseReceive ⟨clearedHeap, u.state = .stopped, S_OK, true⟩ byteSample
        (u.pins 0).pin).1 = S_OK ∧
      ¬ ∀ p ∈ u.sink.pinList, p.isConnected = true → Attachable (u.pins p.id) := by
  refine ⟨_, _, rfl, rfl, rfl, rfl, rfl, rfl, by decide, fun h => ?_⟩
  obtain ⟨n, hn⟩ := (h _ List.mem_cons_self rfl).1
  cases hn

/-- The same sink at its first Run. -/
theorem running_pins_attachable_iff_first_run :
    ∃ s u, constructed (fun _ => (.null, 0)) 0 = some s ∧
      Transition.run step s
        ([.completeConnect 0 bareVideo 0, .notifyAllocator 0 ⟨1, 1, 1, 0⟩ true true] ++
          [.run true true]) = some u ∧
      ∀ p ∈ u.sink.pinList, p.isConnected = true → Attachable (u.pins p.id) := by
  obtain ⟨s, hs⟩ : ∃ s, constructed (fun _ => (.null, 0)) 0 = some s := ⟨_, rfl⟩
  obtain ⟨u, hu⟩ : ∃ u, Transition.run step s
      ([.completeConnect 0 bareVideo 0, .notifyAllocator 0 ⟨1, 1, 1, 0⟩ true true] ++
        [.run true true]) = some u := by
    obtain rfl := Option.some.inj hs
    exact ⟨_, rfl⟩
  refine ⟨s, u, hs, hu, (running_pins_attachable_iff _ 0 s hs _ true true u hu).mpr ?_⟩
  obtain rfl := Option.some.inj hs
  obtain rfl := Option.some.inj hu
  intro p hp hc
  rcases List.mem_cons.mp hp with rfl | hp
  · rfl
  · rw [List.mem_singleton.mp hp] at hc
    cases hc

end SinkGraph

end VirtualCaptureStream
