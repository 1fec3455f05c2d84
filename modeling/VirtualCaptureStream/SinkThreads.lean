import Mathlib.Logic.Function.Basic
import VirtualCaptureStream.SinkFilter
import VirtualCaptureStream.SinkServer

/- The sink with its pins as objects that are made and deleted, while the threads of
   SinkServer and SinkInputPin run: SetStreamName, RemovePin and the destructor of the
   filter go through `m_pinList` one step at a time, and may wait in the StopServer of a
   pin or of the filter.

   Correspondence (C++ ↔ Lean):
     `SetStreamName`, `~CVirtualStreamSink`, `RemovePin`  ↔ `Deleter`, their steps `taskStep`
     `delete m_pinList[i]`, `~CVirtualStreamSinkInputPin` ↔ `beginDelete`, `SinkTask.delete`
     `AddInputPin`                                        ↔ `addInputPin`
     `CompleteConnect`                                    ↔ the action `connect`

   One call of SetStreamName, RemovePin or the destructor is in progress at a time. A
   call on a pin begins while the pin is in use, and goes on until the pin is destroyed.
   What a thread does with a destroyed pin is not C++ any more; the model lets it go on.
   Names are in SinkFilter. -/
namespace VirtualCaptureStream

open SinkServer (ServerAction)
open SinkSystem (SinkAction)

/-- A pin that is not made yet, in use, in its destructor, destroyed. -/
inductive PinLife where
  | unborn
  | alive
  | dying
  | freed
  deriving DecidableEq

/-- Who deletes pins: SetStreamName and the filter's destructor with the index of their
    loop; `created` and `thread` as for InitializePipe. -/
inductive Deleter where
  | removePin
  | setStreamName (i : Nat) (created thread : Bool)
  | destructor (i : Nat)

/-- Where the call in progress is. `loop`: before the deleter's next turn; `delete`: in
    the pin's destructor; `erase`: RemovePin behind its delete; `addPin` and `openPipe`:
    SetStreamName behind its clear() and behind AddInputPin; `stopServer`: the filter's
    destructor in StopServer. -/
inductive SinkTask where
  | loop (d : Deleter)
  | delete (d : Deleter) (pin : Nat)
  | erase (d : Deleter) (pin : Nat)
  | addPin (created thread : Bool)
  | openPipe (created thread : Bool)
  | stopServer

/-- The next turn of the loop. -/
def Deleter.next : Deleter → Deleter
  | .removePin => .removePin
  | .setStreamName i created thread => .setStreamName (i + 1) created thread
  | .destructor i => .destructor (i + 1)

/-- Behind the delete: RemovePin erases the pin from the list, the destructor does not. -/
def Deleter.deleted (pin : Nat) : Deleter → SinkTask
  | .destructor i => .loop (.destructor (i + 1))
  | d => .erase d pin

/-- What a pin in this state takes part in. A thread takes its next step in any case. -/
def PinLife.allows (life : PinLife) : SinkAction → Bool
  | .writer | .listener | .clientOpen | .clientClose => true
  | .breakWait _ | .stopServer _ => life ≠ .freed
  | .receive _ _ | .reset | .beginFlush | .endFlush | .endOfStream | .notifyAllocator _ _ _
  | .breakConnect => life = .alive

/-- The filter's server with `m_pinList`, the pins under the numbers of the objects, how
    many were made, the call in progress, and whether the destructor was called. -/
structure SinkThreads where
  server : SinkServer
  pins : Nat → SinkSystem
  life : Nat → PinLife
  isConnected : Nat → Bool
  made : Nat
  task : Option SinkTask
  destructed : Bool

namespace SinkThreads

def setPins (s : SinkThreads) (pinList : List Nat) : SinkThreads :=
  { s with server := { s.server with pinList := pinList } }

/-- AddInputPin: a new pin, unless there is one that is not connected. -/
def addInputPin (s : SinkThreads) : SinkThreads :=
  if s.server.pinList.any (fun id => !s.isConnected id) then s
  else { s.setPins (s.server.pinList ++ [s.made]) with
    life := Function.update s.life s.made .alive, made := s.made + 1 }

/-- The constructor, with what the heap has in the members a pin does not initialise. -/
def constructed (heap : Nat → ThreadHandle × Int64) : SinkThreads :=
  addInputPin
    { server := SinkServer.new []
      pins := fun id => SinkSystem.new (heap id).1 (heap id).2
      life := fun _ => .unborn
      isConnected := fun _ => false
      made := 0
      task := none
      destructed := false }

/-- Into the destructor of a pin: `if (m_hPipe != NULL) StopServer();` -/
def beginDelete (s : SinkThreads) (d : Deleter) (pin : Nat) : Option SinkThreads :=
  if s.life pin = .alive then
    (s.pins pin).endOfStream.map fun p =>
      { s with
        pins := Function.update s.pins pin p
        life := Function.update s.life pin .dying
        task := some (.delete d pin) }
  else none

/-- One step of the call in progress. A RemovePin that nobody loops over returns. -/
def taskStep (s : SinkThreads) : SinkTask → Option SinkThreads
  | .loop .removePin => some { s with task := none }
  | .loop (.setStreamName i created thread) =>
    match s.server.pinList[i]? with
    | some pin => s.beginDelete (.setStreamName i created thread) pin
    | none => some { s.setPins [] with task := some (.addPin created thread) }
  | .loop (.destructor i) =>
    match s.server.pinList[i]? with
    | some pin => s.beginDelete (.destructor i) pin
    | none => (s.server.step .stopServer).map fun server =>
      { s with server := server, task := some .stopServer }
  | .delete d pin =>
    -- StopServer has returned
    if (s.pins pin).stopper = none then
      some { s with life := Function.update s.life pin .freed, task := some (d.deleted pin) }
    else none
  | .erase d pin =>
    some { s.setPins (s.server.pinList.erase pin) with task := some (.loop d.next) }
  | .addPin created thread => some { s.addInputPin with task := some (.openPipe created thread) }
  | .openPipe created thread =>
    let server := if s.server.hPipe = .null then s.server.createPipe created thread else s.server
    some { s with server := server, task := none }
  | .stopServer =>
    if s.server.call = none then some { s.setPins [] with task := none } else none

/-- Pause and Run call InitializePipe until the filter is destructed. The list of the
    pins is changed by the calls modelled here. -/
def allowsServer (s : SinkThreads) : ServerAction → Bool
  | .initializePipe _ _ | .stopServer => !s.destructed
  | .call _ | .thread | .clientOpen | .clientClose => true
  | .pins _ => false

/-- Disconnect clears `m_Connected` when BreakConnect returns. -/
def disconnects (p : SinkSystem) : SinkAction → Bool
  | .breakConnect => p.pin.hThread2 = .null
  | .breakWait _ => true
  | _ => false

inductive ThreadsAction where
  | pin (id : Nat) (a : SinkAction)
  | server (a : ServerAction)
  | connect (id : Nat)
  | setStreamName (created thread : Bool)
  | removePin (pin : Nat)
  | destructor
  | task

/-- One step of a pin, of the server, or of a call on the filter. -/
def step (s : SinkThreads) : ThreadsAction → Option SinkThreads
  | .pin id a =>
    if (s.life id).allows a then
      ((s.pins id).step a).map fun p =>
        { s with
          pins := Function.update s.pins id p
          isConnected :=
            if disconnects (s.pins id) a then Function.update s.isConnected id false
            else s.isConnected }
    else none
  | .server a =>
    if s.allowsServer a then (s.server.step a).map fun server => { s with server := server }
    else none
  | .connect id =>
    if s.destructed = false ∧ s.life id = .alive ∧ s.isConnected id = false then
      some (addInputPin { s with isConnected := Function.update s.isConnected id true })
    else none
  | .setStreamName created thread =>
    if s.destructed = false ∧ s.task.isNone then
      some { s with task := some (.loop (.setStreamName 0 created thread)) }
    else none
  | .removePin pin =>
    if s.destructed = false ∧ s.task.isNone then
      if pin ∈ s.server.pinList then s.beginDelete .removePin pin else some s
    else none
  | .destructor =>
    if s.destructed = false ∧ s.task.isNone then
      some { s with task := some (.loop (.destructor 0)), destructed := true }
    else none
  | .task => s.task.bind s.taskStep

/-! The loop of SetStreamName, with nobody else in between, does to the list what it does
    in SinkFilter. -/

/-- The list and the destroyed pins are those of `v`; no pin of the list has a pipe. -/
structure Lists (s : SinkThreads) (v : VirtualStreamSink) : Prop where
  pinList : s.server.pinList = v.pinList.map (·.id)
  nodup : s.server.pinList.Nodup
  freed : ∀ id, s.life id = .freed ↔ id ∈ v.deleted
  alive : ∀ id ∈ s.server.pinList, s.life id = .alive
  closed : ∀ id ∈ s.server.pinList, (s.pins id).pin.hPipe = .null ∧ (s.pins id).stopper = none

/-- One turn of the loop: into the pin's destructor, out of it, and the erase. -/
theorem rename_turn {s : SinkThreads} {i pin : Nat} {created thread : Bool}
    (htask : s.task = some (.loop (.setStreamName i created thread)))
    (hpin : s.server.pinList[i]? = some pin) (halive : s.life pin = .alive)
    (hclosed : (s.pins pin).pin.hPipe = .null) (hidle : (s.pins pin).stopper = none) :
    ∃ t, Transition.run step s [.task, .task, .task] = some t ∧
      t.task = some (.loop (.setStreamName (i + 1) created thread)) ∧ t.pins = s.pins ∧
      t.server.pinList = s.server.pinList.erase pin ∧
      t.life = Function.update s.life pin .freed := by
  have hstop : (s.pins pin).endOfStream = some (s.pins pin) := by
    rw [SinkSystem.endOfStream, if_pos hclosed]
  have hbegin : s.step .task = some { s with
      life := Function.update s.life pin .dying
      task := some (.delete (.setStreamName i created thread) pin) } := by
    simp only [step, htask, Option.bind_some, taskStep, hpin, beginDelete, if_pos halive, hstop,
      Option.map_some, Function.update_eq_self]
  refine ⟨{ s.setPins (s.server.pinList.erase pin) with
      life := Function.update s.life pin .freed
      task := some (.loop (.setStreamName (i + 1) created thread)) },
    Transition.run_cons.mpr ⟨_, hbegin, ?_⟩, rfl, rfl, rfl, rfl⟩
  simp only [Transition.run, step, Option.bind_some, taskStep, if_pos hidle, Deleter.deleted,
    Function.update_idem, Deleter.next]
  rfl

/-- What the turn leaves is what RemovePin leaves. -/
theorem Lists.removePin {s t : SinkThreads} {v : VirtualStreamSink} {p : InputPin}
    (hs : Lists s v) (hp : p ∈ v.pinList) (hpins : t.pins = s.pins)
    (hlist : t.server.pinList = s.server.pinList.erase p.id)
    (hlife : t.life = Function.update s.life p.id .freed) : Lists t (v.removePin p.id) := by
  have hrest : ∀ id ∈ t.server.pinList, id ≠ p.id ∧ id ∈ s.server.pinList := by
    intro id hid
    rw [hlist] at hid
    exact hs.nodup.mem_erase_iff.mp hid
  rw [VirtualStreamSink.removePin_of_mem hp]
  refine ⟨?_, ?_, fun id => ?_, fun id hid => ?_, fun id hid => ?_⟩
  · rw [hlist, hs.pinList, List.erase_eq_eraseP', List.eraseP_map]
    rfl
  · rw [hlist]
    exact hs.nodup.erase p.id
  · rw [hlife, List.mem_cons]
    by_cases hid : id = p.id
    · simp [hid]
    · rw [Function.update_of_ne hid, hs.freed id]
      exact (or_iff_right hid).symm
  · obtain ⟨hne, hold⟩ := hrest id hid
    rw [hlife, Function.update_of_ne hne]
    exact hs.alive id hold
  · rw [hpins]
    exact hs.closed id (hrest id hid).2

/-- The whole loop. -/
theorem rename_lists {created thread : Bool} :
    ∀ (fuel i : Nat) (s : SinkThreads) (v : VirtualStreamSink), Lists s v →
      v.pinList.length ≤ i + fuel → s.task = some (.loop (.setStreamName i created thread)) →
      ∃ n j t, Transition.run step s (List.replicate n .task) = some t ∧
        Lists t (v.removePins fuel i) ∧ t.server.pinList[j]? = none ∧
        t.task = some (.loop (.setStreamName j created thread)) := by
  intro fuel
  induction fuel with
  | zero =>
    intro i s v hs hlen htask
    refine ⟨0, i, s, rfl, hs, ?_, htask⟩
    rw [hs.pinList, List.getElem?_eq_none_iff, List.length_map]
    omega
  | succ fuel ih =>
    intro i s v hs hlen htask
    have hat : s.server.pinList[i]? = (v.pinList[i]?).map (·.id) := by
      rw [hs.pinList, List.getElem?_map]
    cases hp : v.pinList[i]? with
    | none =>
      rw [hp, Option.map_none] at hat
      refine ⟨0, i, s, rfl, ?_, hat, htask⟩
      rw [VirtualStreamSink.removePins, hp]
      exact hs
    | some p =>
      rw [hp, Option.map_some] at hat
      have hmem : p.id ∈ s.server.pinList := List.mem_iff_getElem?.mpr ⟨i, hat⟩
      obtain ⟨hclosed, hidle⟩ := hs.closed p.id hmem
      obtain ⟨t, hturn, htask', hpins, hlist, hlife⟩ :=
        rename_turn htask hat (hs.alive p.id hmem) hclosed hidle
      have hlisted : p ∈ v.pinList := List.mem_iff_getElem?.mpr ⟨i, hp⟩
      have ht : Lists t (v.removePin p.id) := hs.removePin hlisted hpins hlist hlife
      have hshort : (v.removePin p.id).pinList.length ≤ i + 1 + fuel := by
        have hle := List.length_eraseP_le (p := fun q : InputPin => q.id == p.id) (l := v.pinList)
        rw [VirtualStreamSink.removePin_of_mem hlisted]
        dsimp only
        omega
      obtain ⟨n, j, u, hrun, hu, hend, hlast⟩ := ih (i + 1) t (v.removePin p.id) ht hshort htask'
      refine ⟨3 + n, j, u, ?_, ?_, hend, hlast⟩
      · rw [List.replicate_add]
        exact Transition.run_append.mpr ⟨t, hturn, hrun⟩
      · rw [VirtualStreamSink.removePins, hp]
        exact hu

end SinkThreads

end VirtualCaptureStream
