import VirtualCaptureStream.SinkFilter
import VirtualCaptureStream.SinkInputPin

/- The sink in a filter graph: what the graph calls on the filter and on its pins, one
   call after the other, each returned before the next begins.

   Correspondence (C++ ↔ Lean):
     `CVirtualStreamSink::Pause`, `Run`, `Stop`      ↔ `pause`, `run`, the case of `step`
     `InitializePipe`, with the `StopServer` in it   ↔ `initializePipe`
     `SetStreamName`                                 ↔ `setStreamName`
     `CVirtualStreamSinkInputPin::NotifyAllocator`,
       `EndOfStream`, `StopServer`, the destructor   ↔ the functions of `PinServer`
     `CBasePin::Disconnect`                          ↔ `disconnect`

   The threads and the clients run beside these calls, in SinkServer and in
   SinkInputPin. Stop sets `m_State` before it calls CBaseFilter::Stop, so no pin is
   ever made inactive. -/
namespace VirtualCaptureStream

/-- The calls that make and close the data pipe of a pin; `created` and `thread` are
    the results CreateNamedPipe and CreateThread have, where they are called. -/
inductive PinCall where
  | notifyAllocator (created thread : Bool)
  | endOfStream
  | destructor

/-- A pin, whether it has a listener thread, and its calls, the latest first. -/
structure PinServer where
  pin : SinkInputPin
  instances : Nat
  listener : Bool
  received : Nat
  calls : List PinCall

namespace PinServer

/-- The constructor, with what the heap has in the members it does not initialise. -/
def new (heap : ThreadHandle × Int64) : PinServer where
  pin := SinkInputPin.new heap.1 heap.2
  instances := 0
  listener := false
  received := 0
  calls := []

/-- `if (m_hPipe != NULL) StopServer();` -/
def stopServer (p : PinServer) : PinServer :=
  if p.pin.hPipe = .null then p
  else { p with
    pin := { p.pin with bPipeServerRunning := false, hPipe := .null }
    listener := false }

def endOfStream (p : PinServer) : PinServer :=
  { p.stopServer with calls := .endOfStream :: p.calls }

def destructor (p : PinServer) : PinServer :=
  { p.stopServer with calls := .destructor :: p.calls }

/-- NotifyAllocator: the pipe and the listener are made where there is no pipe. -/
def notifyAllocator (a : AllocatorProperties) (created thread : Bool) (p : PinServer) :
    PinServer :=
  let p := { p with calls := .notifyAllocator created thread :: p.calls }
  if p.pin.hPipe = .null then
    { p with
      pin := { p.pin with
        allocProperties := a
        hPipe := if created then .handle p.instances else .invalid
        pipeBufferSize := SinkInputPin.pipeSize a }
      instances := p.instances + 1
      listener := if thread then true else p.listener }
  else { p with pin := { p.pin with allocProperties := a } }

/-- Receive, with the EndOfStream the base class calls on a rejected format. -/
def receive (env : SinkInputPin.ReceiveEnv) (sample : MediaSample) (p : PinServer) : PinServer :=
  let r := p.pin.receive env p.received sample
  let p := { p with pin := r.pin, received := p.received + 1 }
  if r.endOfStream then p.endOfStream else p

def reset (p : PinServer) : PinServer := { p with pin := p.pin.reset }

def beginFlush (p : PinServer) : PinServer := { p with pin := p.pin.beginFlush }

def endFlush (p : PinServer) : PinServer := { p with pin := p.pin.endFlush }

/-- BreakConnect: the writer is stopped, the server is not. -/
def breakConnect (p : PinServer) : PinServer :=
  if p.pin.hThread2 = .null then p
  else { p with pin := { p.pin with bWriteBuffering := false, hThread2 := .null } }

end PinServer

/-- The filter with its pins, each under the number of the object. -/
structure SinkGraph where
  sink : VirtualStreamSink
  state : FilterState
  hPipe : HANDLE
  lpszPipename : WStr
  instances : Nat
  pins : Nat → PinServer
  alive : Bool

namespace SinkGraph

/-- The constructor. -/
def constructed (heap : Nat → ThreadHandle × Int64) (tick : UInt32) : Option SinkGraph :=
  (VirtualStreamSink.constructed tick).map fun sink =>
    { sink := sink, state := .stopped, hPipe := .null, lpszPipename := [], instances := 0,
      pins := fun id => PinServer.new (heap id), alive := true }

/-- InitializePipe. -/
def initializePipe (created : Bool) (s : SinkGraph) : SinkGraph :=
  { s with
    hPipe := if created then .handle s.instances else .invalid
    lpszPipename := sinkPipePath s.sink.szStreamName
    instances := s.instances + 1 }

/-- Pause. -/
def pause (created : Bool) (s : SinkGraph) : SinkGraph :=
  initializePipe created { s with state := .paused }

/-- The connected pins of the list. -/
def connected (s : SinkGraph) (id : Nat) : Bool :=
  s.sink.pinList.any fun p => p.id == id && p.isConnected

/-- Run; from the stopped state CBaseFilter::Run calls Pause. -/
def run (first second : Bool) (s : SinkGraph) : SinkGraph :=
  let s := { s with pins := fun id => if s.connected id then (s.pins id).reset else s.pins id }
  let s := if s.hPipe = .null then initializePipe first s else s
  let s := if s.state = .stopped then pause second s else s
  { s with state := .running }

/-- SetStreamName. The pins that RemovePin deletes are destructed. -/
def setStreamName (name : WStr) (tick : UInt32) (created : Bool) (s : SinkGraph) :
    Option SinkGraph :=
  (s.sink.setStreamName name tick).map fun sink =>
    let s := { s with
      pins := fun id =>
        if id ∈ sink.deleted ∧ id ∉ s.sink.deleted then (s.pins id).destructor else s.pins id
      sink := sink }
    if s.hPipe = .null then initializePipe created s else s

/-- Call a function of the pin at position `i`. -/
def onPin (i : Nat) (f : PinServer → PinServer) (s : SinkGraph) : Option SinkGraph :=
  s.sink.pinList[i]?.map fun p =>
    { s with pins := fun id => if id = p.id then f (s.pins id) else s.pins id }

/-- CBasePin::Disconnect: refused while the filter is active. -/
def disconnect (i : Nat) (s : SinkGraph) : Option SinkGraph :=
  (s.sink.pinList[i]?).bind fun p =>
    if s.state = .stopped ∧ p.isConnected = true then
      onPin i PinServer.breakConnect
        { s with sink := s.sink.modifyPin i fun p => { p with isConnected := false } }
    else some s

/-- The destructor: the pins of the list, then the server. -/
def destructor (s : SinkGraph) : SinkGraph :=
  { s with
    pins := fun id =>
      if s.sink.pinList.any (fun p => p.id == id) then (s.pins id).destructor else s.pins id
    hPipe := .null
    sink := { s.sink with
      pinList := [], deleted := s.sink.pinList.map (·.id) ++ s.sink.deleted }
    alive := false }

inductive GraphAction where
  | completeConnect (i : Nat) (mt : MediaType) (tick : UInt32)
  | notifyAllocator (i : Nat) (allocProperties : AllocatorProperties) (created thread : Bool)
  | disconnect (i : Nat)
  | receive (i : Nat) (capture : CaptureEnv) (getProperties : HRESULT) (thread : Bool)
      (sample : MediaSample)
  | endOfStream (i : Nat)
  | beginFlush (i : Nat)
  | endFlush (i : Nat)
  | setStreamName (name : WStr) (tick : UInt32) (created : Bool)
  | pause (created : Bool)
  | run (first second : Bool)
  | stop
  | destructor

/-- One call. A pin can be connected while the filter is stopped; after the destructor
    there is nothing to call. -/
def step (s : SinkGraph) (a : GraphAction) : Option SinkGraph :=
  if s.alive = false then none else
  match a with
  | .completeConnect i mt tick =>
    if s.state = .stopped then
      (VirtualStreamSink.sinkStep s.sink (.completeConnect i mt tick)).map fun sink =>
        { s with sink := sink }
    else none
  | .notifyAllocator i a created thread =>
    (VirtualStreamSink.sinkStep s.sink (.notifyAllocator i a)).bind fun sink =>
      onPin i (PinServer.notifyAllocator a created thread) { s with sink := sink }
  | .disconnect i => s.disconnect i
  | .receive i capture getProperties thread sample =>
    s.onPin i (PinServer.receive ⟨capture, s.state = .stopped, getProperties, thread⟩ sample)
  | .endOfStream i => s.onPin i PinServer.endOfStream
  | .beginFlush i => s.onPin i PinServer.beginFlush
  | .endFlush i => s.onPin i PinServer.endFlush
  | .setStreamName name tick created => s.setStreamName name tick created
  | .pause created => some (s.pause created)
  | .run first second => some (s.run first second)
  | .stop => some { s with state := .stopped }
  | .destructor => some s.destructor

/-! The name of the discovery pipe. -/

/-- The open discovery pipe is that of the current stream name, and so are the pins. -/
structure Current (s : SinkGraph) : Prop where
  pipe : s.hPipe ≠ .null → s.lpszPipename = sinkPipePath s.sink.szStreamName
  pins : s.hPipe ≠ .null → ∀ p ∈ s.sink.pinList, s.sink.szStreamName <+: p.pName

/-- SetStreamName is called before there is a pipe, or with the name there is. -/
def RenamesClosed (s : SinkGraph) : GraphAction → Prop
  | .setStreamName name _ _ => s.hPipe = .null ∨ name = s.sink.szStreamName
  | _ => True

/-- The pins are named after the current name in any case. -/
structure InStep (s : SinkGraph) : Prop where
  named : s.sink.Named
  pipe : s.hPipe ≠ .null → s.lpszPipename = sinkPipePath s.sink.szStreamName

theorem InStep.current {s : SinkGraph} (h : InStep s) : Current s := by
  refine ⟨h.pipe, fun _ p hp => ?_⟩
  obtain ⟨k, hk⟩ := List.mem_iff_getElem?.mp hp
  obtain ⟨⟨tick, hname⟩, _⟩ := h.named k p hk
  rw [hname, formatPinName, List.append_assoc, List.append_assoc, List.append_assoc]
  exact List.prefix_append _ _

theorem sinkPipePath_injective {a b : WStr} (h : sinkPipePath a = sinkPipePath b) : a = b :=
  List.append_cancel_left h

/-- Everything but SetStreamName and InitializePipe leaves names and pipe alone. -/
theorem InStep.of_same {s t : SinkGraph} (h : InStep s) (hnamed : t.sink.Named)
    (hname : t.sink.szStreamName = s.sink.szStreamName) (hpipe : t.hPipe = s.hPipe)
    (hpath : t.lpszPipename = s.lpszPipename) : InStep t := by
  refine ⟨hnamed, fun hopen => ?_⟩
  rw [hpath, hname]
  exact h.pipe (hpipe ▸ hopen)

theorem InStep.initializePipe {s : SinkGraph} (hnamed : s.sink.Named) (created : Bool) :
    InStep (s.initializePipe created) :=
  ⟨hnamed, fun _ => rfl⟩

theorem InStep.onPin {s t : SinkGraph} {i : Nat} {f : PinServer → PinServer} (h : InStep s)
    (hon : s.onPin i f = some t) : InStep t := by
  obtain ⟨p, _, rfl⟩ := Option.map_eq_some_iff.mp hon
  exact h.of_same h.named rfl rfl rfl

/-- SetStreamName keeps an open pipe under the name it has. -/
theorem setStreamName_current_iff {s t : SinkGraph} {name : WStr} {tick : UInt32} {created : Bool}
    (h : InStep s) (hset : s.setStreamName name tick created = some t) :
    (Current t → s.hPipe = .null ∨ name = s.sink.szStreamName) ∧
      (s.hPipe = .null ∨ name = s.sink.szStreamName → InStep t) := by
  obtain ⟨sink, hsink, rfl⟩ := Option.map_eq_some_iff.mp hset
  have hnamed : sink.Named :=
    VirtualStreamSink.named_step s.sink (.setStreamName name tick) sink h.named hsink
  have hname := VirtualStreamSink.setStreamName_szStreamName hsink
  by_cases hpipe : s.hPipe = .null
  · refine ⟨fun _ => Or.inl hpipe, fun _ => ?_⟩
    rw [if_pos hpipe]
    exact InStep.initializePipe hnamed created
  · rw [if_neg hpipe]
    refine ⟨fun hcur => Or.inr ?_, fun hsame => ?_⟩
    · -- the path is still the old one
      have hold := h.pipe hpipe
      have hnew := hcur.pipe hpipe
      rw [hname] at hnew
      exact sinkPipePath_injective (hnew.symm.trans hold)
    · refine h.of_same hnamed ?_ rfl rfl
      exact hname.trans (hsame.resolve_left hpipe)

theorem InStep.run {s : SinkGraph} (h : InStep s) (first second : Bool) :
    InStep (s.run first second) := by
  have hreset : InStep { s with
      pins := fun id => if s.connected id then (s.pins id).reset else s.pins id } :=
    h.of_same h.named rfl rfl rfl
  have hpipe : ∀ u : SinkGraph, InStep u →
      InStep (if u.hPipe = .null then u.initializePipe first else u) := by
    intro u hu
    split
    · exact InStep.initializePipe hu.named first
    · exact hu
  have hpause : ∀ u : SinkGraph, InStep u →
      InStep (if u.state = .stopped then u.pause second else u) := by
    intro u hu
    split
    · exact ⟨hu.named, fun _ => rfl⟩
    · exact hu
  have hend := hpause _ (hpipe _ hreset)
  exact ⟨hend.named, hend.pipe⟩

theorem InStep.step (s : SinkGraph) (a : GraphAction) (t : SinkGraph) (h : InStep s)
    (hstep : s.step a = some t) (hC : RenamesClosed s a) : InStep t := by
  simp only [SinkGraph.step, Option.ite_none_left_eq_some] at hstep
  obtain ⟨_, hstep⟩ := hstep
  cases a with
  | completeConnect i mt tick =>
    rw [Option.ite_none_right_eq_some] at hstep
    obtain ⟨sink, hsink, rfl⟩ := Option.map_eq_some_iff.mp hstep.2
    have hnamed := VirtualStreamSink.named_step _ _ sink h.named hsink
    obtain ⟨p, _, hadd⟩ := Option.bind_eq_some_iff.mp hsink
    rw [Option.ite_none_left_eq_some] at hadd
    have hname : sink.szStreamName = s.sink.szStreamName :=
      (VirtualStreamSink.addInputPin_szStreamName hadd.2).trans rfl
    exact h.of_same hnamed hname rfl rfl
  | notifyAllocator i a created thread =>
    obtain ⟨sink, hsink, hon⟩ := Option.bind_eq_some_iff.mp hstep
    have hnamed := VirtualStreamSink.named_step _ _ sink h.named hsink
    obtain rfl := Option.some.inj hsink
    refine InStep.onPin ?_ hon
    exact h.of_same hnamed rfl rfl rfl
  | disconnect i =>
    obtain ⟨p, _, hstep⟩ := Option.bind_eq_some_iff.mp hstep
    split at hstep
    · have hnamed := VirtualStreamSink.named_step _ (.breakConnect i) _ h.named rfl
      refine InStep.onPin ?_ hstep
      exact h.of_same hnamed rfl rfl rfl
    · obtain rfl := Option.some.inj hstep
      exact h
  | receive | endOfStream | beginFlush | endFlush => exact h.onPin hstep
  | setStreamName name tick created => exact (setStreamName_current_iff h hstep).2 hC
  | pause created =>
    obtain rfl := Option.some.inj hstep
    exact ⟨h.named, fun _ => rfl⟩
  | run first second =>
    obtain rfl := Option.some.inj hstep
    exact h.run first second
  | stop =>
    obtain rfl := Option.some.inj hstep
    exact h.of_same h.named rfl rfl rfl
  | destructor =>
    obtain rfl := Option.some.inj hstep
    exact ⟨VirtualStreamSink.named_empty rfl, fun hopen => absurd rfl hopen⟩

theorem Current.renamesClosed (s : SinkGraph) (a : GraphAction) (t : SinkGraph) (h : InStep s)
    (hstep : s.step a = some t) (ht : Current t) : RenamesClosed s a := by
  cases a with
  | setStreamName name tick created =>
    simp only [SinkGraph.step, Option.ite_none_left_eq_some] at hstep
    exact (setStreamName_current_iff h hstep.2).1 ht
  | _ => trivial

theorem inStep_constructed {heap : Nat → ThreadHandle × Int64} {tick : UInt32} {s : SinkGraph}
    (hs : constructed heap tick = some s) : InStep s := by
  obtain ⟨sink, hsink, rfl⟩ := Option.map_eq_some_iff.mp hs
  refine ⟨VirtualStreamSink.named_addInputPin (VirtualStreamSink.named_empty rfl) hsink, ?_⟩
  exact fun hopen => absurd rfl hopen

/-- **The discovery pipe carries the current stream name** in a run exactly if every
    SetStreamName comes while there is no pipe, or sets the name there is. -/
theorem pipe_name_current_iff (heap : Nat → ThreadHandle × Int64) (tick : UInt32) (s : SinkGraph)
    (hs : constructed heap tick = some s) (as : List GraphAction) (u : SinkGraph)
    (hrun : Transition.run step s as = some u) :
    Transition.Always step Current s as ↔ Transition.Meets step RenamesClosed s as := by
  exact Transition.always_iff_meets_of_invariant (fun _ h => h.current) InStep.step
    Current.renamesClosed as s u (inStep_constructed hs) hrun

/-- Run opens the pipe under the first name; the next SetStreamName leaves it there. -/
theorem renamed_pipe_is_stale :
    ∃ s u, constructed (fun _ => (.null, 0)) 0 = some s ∧
      Transition.run step s [.run true true, .setStreamName (wide "Cam") 0 true] = some u ∧
      u.hPipe ≠ .null ∧ u.sink.szStreamName = wide "Cam" ∧
      u.lpszPipename = sinkPipePath (wide "VirtualSink1") ∧
      ¬ Transition.Always step Current s [.run true true, .setStreamName (wide "Cam") 0 true] := by
  refine ⟨_, _, rfl, rfl, fun e => (by cases e), rfl, rfl, fun h => ?_⟩
  have hend := Transition.always_iff_prefix.mp h _ (List.prefix_refl _) _ rfl
  have hstale := hend.pipe (fun e => (by cases e))
  exact absurd hstale (by decide)

/-- Renaming before Run. -/
theorem pipe_name_current_iff_renamed_first :
    ∃ s u, constructed (fun _ => (.null, 0)) 0 = some s ∧
      Transition.run step s [.setStreamName (wide "Cam") 0 true, .run true true] = some u ∧
      Transition.Always step Current s [.setStreamName (wide "Cam") 0 true, .run true true] := by
  obtain ⟨s, hs⟩ : ∃ s, constructed (fun _ => (.null, 0)) 0 = some s := ⟨_, rfl⟩
  obtain ⟨u, hu⟩ : ∃ u, Transition.run step s
      [.setStreamName (wide "Cam") 0 true, .run true true] = some u := by
    obtain rfl := Option.some.inj hs
    exact ⟨_, rfl⟩
  refine ⟨s, u, hs, hu, (pipe_name_current_iff _ 0 s hs _ u hu).mpr ?_⟩
  obtain rfl := Option.some.inj hs
  exact ⟨Or.inl rfl, fun t _ => ⟨trivial, fun _ _ => trivial⟩⟩

end SinkGraph

end VirtualCaptureStream
