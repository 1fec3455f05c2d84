import VirtualCaptureStream.SourceDiscovery
import VirtualCaptureStream.Lib.Transition
import Mathlib.Data.List.Count
import Mathlib.Data.List.Nodup

/- Two lists of the same pins. The filter has `m_pinList`, CSource has `m_paStreams`:
   a pin's constructor calls AddPin and its destructor RemovePin. CreateOutputPins calls
   RemovePin too, before it deletes a pin; `~CVirtualStreamSource` deletes what is in its
   list; and `~CSource`, which runs after it, deletes whatever is left in its own.

   Correspondence (C++ ↔ Lean):
     `CVirtualStreamSource::CreateOutputPins`       ↔ `setStreamName`
     `delete` of an output pin                      ↔ `deletePin`
     `CVirtualStreamSource::~CVirtualStreamSource`  ↔ `deletePins`
     `CSource::~CSource`                            ↔ `freeStreams`
     the two of them                                ↔ `destroy`

   A pin's number stands for the object: two pins that were made are never the same,
   though the second may be where the first one was. -/
namespace VirtualCaptureStream

namespace VirtualStreamSource

open Transition (run Always)

/-- The filter before its constructor calls CreateOutputPins. -/
def constructed : VirtualStreamSource := ⟨.stopped, [], [], 0, []⟩

/-- The destructor of a pin calls RemovePin and waits for the streaming thread. -/
def deletePin (s : VirtualStreamSource) (p : SourcePin) : Option VirtualStreamSource :=
  if p.thread then none
  else some { s with paStreams := s.paStreams.erase p.id, deleted := p.id :: s.deleted }

/-- The loop of `~CVirtualStreamSource`, and the end of the list. -/
def deletePins (s : VirtualStreamSource) : Option VirtualStreamSource :=
  (s.pinList.foldlM deletePin s).map fun s => { s with pinList := [] }

/-- While `m_iPins` is not 0, the pin of the last entry is deleted, and its destructor
    takes the entry out. -/
def freeStreams (s : VirtualStreamSource) : VirtualStreamSource :=
  match _hlast : s.paStreams.getLast? with
  | none => s
  | some n => freeStreams { s with paStreams := s.paStreams.erase n, deleted := n :: s.deleted }
termination_by s.paStreams.length
decreasing_by
  have hmem := List.mem_of_getLast? _hlast
  have hpos := List.length_pos_of_mem hmem
  have hlen := List.length_erase_of_mem hmem
  omega

/-- What the two destructors leave; `found`: what `~CSource` finds in `m_iPins`. -/
structure Destroyed where
  found : Nat
  source : VirtualStreamSource

/-- The end of the filter. -/
def destroy (s : VirtualStreamSource) : Option Destroyed :=
  (deletePins s).map fun s => ⟨s.paStreams.length, freeStreams s⟩

/-- CreateOutputPins, called by the constructor and by SetStreamName; and what a graph
    does with the filter and its pins between two such calls. -/
inductive SourceAction where
  | createOutputPins (env : DiscoveryEnv) (szPipeName : WStr) (calls : List OsCall)
      (msgs : List Msg)
  | elsewhere (state : FilterState) (isConnected thread : Nat → Bool)

def sourceStep (s : VirtualStreamSource) : SourceAction → Option VirtualStreamSource
  | .createOutputPins env szPipeName calls msgs =>
    (setStreamName env szPipeName calls msgs s).map (·.source)
  | .elsewhere state isConnected thread =>
    some { s with
      state := state
      pinList := s.pinList.map fun p =>
        { p with isConnected := isConnected p.id, thread := thread p.id } }

/-! Accounting for pins. -/

/-- Every pin that was made is in CSource's list or was deleted, once; no other pin is. -/
def Accounts (s : VirtualStreamSource) : Prop :=
  ∀ n, s.paStreams.count n + s.deleted.count n = if n < s.made then 1 else 0

/-- The lists hold the same pins, and all pins are accounted for. -/
structure Owned (s : VirtualStreamSource) : Prop where
  same : s.pinList.map (·.id) = s.paStreams
  accounts : Accounts s

theorem Accounts.nodup {s : VirtualStreamSource} (h : Accounts s) : s.paStreams.Nodup := by
  rw [List.nodup_iff_count_le_one]
  intro n
  have hn := h n
  split at hn <;> omega

/-- A turn of a loop over the pins: the pin is taken out and deleted. -/
def TakesOut (turn : VirtualStreamSource → SourcePin → Option VirtualStreamSource) : Prop :=
  ∀ s p t, s.paStreams.Nodup → turn s p = some t →
    t = { s with paStreams := s.paStreams.erase p.id, deleted := p.id :: s.deleted }

theorem deletePin_takesOut : TakesOut deletePin := by
  intro s p t _ h
  rw [deletePin, Option.ite_none_left_eq_some] at h
  exact (Option.some.inj h.2).symm

/-- The RemovePin of the destructor finds nothing after that of CreateOutputPins. -/
theorem removeOutputPin_takesOut (breakConnect : Nat → HRESULT) :
    TakesOut (removeOutputPin breakConnect) := by
  intro s p t hnodup h
  obtain ⟨_, rfl⟩ := removeOutputPin_eq_some_iff.mp h
  rw [List.erase_of_not_mem hnodup.not_mem_erase]

/-- A loop over the pins of CSource's list leaves none there. The induction is on the
    pins that the loop has not reached. -/
theorem Accounts.foldlM {turn : VirtualStreamSource → SourcePin → Option VirtualStreamSource}
    (hturn : TakesOut turn) {ps : List SourcePin} {s t : VirtualStreamSource}
    (h : Accounts s) (hps : ps.map (·.id) = s.paStreams) (hfold : ps.foldlM turn s = some t) :
    Accounts t ∧ t.paStreams = [] ∧ t.made = s.made := by
  induction ps generalizing s with
  | nil =>
    obtain rfl := Option.some.inj hfold
    exact ⟨h, hps.symm, rfl⟩
  | cons p ps ih =>
    rw [List.foldlM_cons] at hfold
    obtain ⟨u, hu, hfold⟩ := Option.bind_eq_some_iff.mp hfold
    obtain rfl := hturn s p u h.nodup hu
    have herase : ps.map (·.id) = s.paStreams.erase p.id := by
      rw [← hps, List.map_cons, List.erase_cons_head]
    have haccounts : Accounts
        { s with paStreams := s.paStreams.erase p.id, deleted := p.id :: s.deleted } := by
      intro n
      have hn := h n
      rw [← hps, List.map_cons, List.count_cons] at hn
      dsimp only
      rw [← herase, List.count_cons]
      omega
    obtain ⟨ht, hnone, hmade⟩ := ih haccounts herase hfold
    exact ⟨ht, hnone, hmade⟩

/-! The loop of CreateOutputPins, and the new pins. -/

theorem removeOutputPins_eq_foldlM (breakConnect : Nat → HRESULT) (ps : List SourcePin)
    (s : VirtualStreamSource) :
    removeOutputPins breakConnect s ps = ps.foldlM (removeOutputPin breakConnect) s := by
  induction ps generalizing s with
  | nil => rfl
  | cons p ps ih =>
    rw [removeOutputPins, List.foldlM_cons]
    exact congrArg _ (funext ih)

theorem newPins_ids (made : Nat) (cs : List CreatedPin) :
    (newPins made cs).map (·.id) = List.range' made cs.length := by
  induction cs generalizing made with
  | nil => rfl
  | cons c cs ih => rw [newPins, List.map_cons, ih, List.length_cons, List.range'_succ]

theorem newPins_length (made : Nat) (cs : List CreatedPin) :
    (newPins made cs).length = cs.length := by
  have h := congrArg List.length (newPins_ids made cs)
  rwa [List.length_map, List.length_range'] at h

/-- A discovery ends with the pins it made, and with no other. -/
theorem Owned.setStreamName {env : DiscoveryEnv} {szPipeName : WStr} {calls : List OsCall}
    {msgs : List Msg} {s : VirtualStreamSource} {r : Rediscovery} (h : Owned s)
    (hset : setStreamName env szPipeName calls msgs s = some r) : Owned r.source := by
  obtain ⟨t, hremove, hset⟩ := Option.bind_eq_some_iff.mp hset
  obtain ⟨d, _, rfl⟩ := Option.map_eq_some_iff.mp hset
  rw [removeOutputPins_eq_foldlM] at hremove
  obtain ⟨haccounts, hnone, hmade⟩ :=
    h.accounts.foldlM (removeOutputPin_takesOut env.breakConnect) h.same hremove
  refine ⟨?_, ?_⟩
  · show (newPins t.made d.pinList).map (·.id) = t.paStreams ++ _
    rw [hnone, List.nil_append]
  · intro n
    have hn := haccounts n
    show (t.paStreams ++ (newPins t.made d.pinList).map (·.id)).count n + t.deleted.count n =
      if n < t.made + (newPins t.made d.pinList).length then 1 else 0
    rw [hnone, List.count_nil, Nat.zero_add] at hn
    rw [hnone, List.nil_append, newPins_ids, newPins_length, List.count_range_1', hn]
    -- the new numbers begin where the deleted ones end
    split <;> split <;> split <;> omega

theorem Owned.sourceStep {s t : VirtualStreamSource} {a : SourceAction} (h : Owned s)
    (hstep : sourceStep s a = some t) : Owned t := by
  cases a with
  | createOutputPins env szPipeName calls msgs =>
    obtain ⟨r, hset, rfl⟩ := Option.map_eq_some_iff.mp hstep
    exact h.setStreamName hset
  | elsewhere state isConnected thread =>
    obtain rfl := Option.some.inj hstep
    refine ⟨?_, h.accounts⟩
    rw [← h.same, List.map_map]
    rfl

theorem Owned.constructed : Owned constructed := by
  refine ⟨rfl, ?_⟩
  intro n
  exact (if_neg (Nat.not_lt_zero n)).symm

/-! The destructors. -/

theorem freeStreams_nil {s : VirtualStreamSource} (h : s.paStreams = []) :
    freeStreams s = s := by
  unfold freeStreams
  split
  · rfl
  · rename_i n hlast
    rw [h] at hlast
    cases hlast

/-- `~CSource` has nothing to do, and every pin is deleted by then. -/
theorem Owned.destroy {s : VirtualStreamSource} {e : Destroyed} (h : Owned s)
    (hdestroy : destroy s = some e) :
    e.found = 0 ∧ ∀ n, e.source.deleted.count n = if n < s.made then 1 else 0 := by
  obtain ⟨t, ht, rfl⟩ := Option.map_eq_some_iff.mp hdestroy
  obtain ⟨u, hfold, rfl⟩ := Option.map_eq_some_iff.mp ht
  obtain ⟨haccounts, hnone, hmade⟩ := h.accounts.foldlM deletePin_takesOut h.same hfold
  refine ⟨?_, ?_⟩
  · show u.paStreams.length = 0
    rw [hnone, List.length_nil]
  · intro n
    have hn := haccounts n
    rw [hnone, List.count_nil, Nat.zero_add, hmade] at hn
    dsimp only
    rw [freeStreams_nil (by exact hnone)]
    exact hn

/-! The lists agree. -/

/-- What is in CSource's list only would be left to `~CSource`. -/
theorem unlisted_pins_are_found {s : VirtualStreamSource} {e : Destroyed} (hs : s.pinList = [])
    (hdestroy : destroy s = some e) : e.found = s.paStreams.length := by
  obtain ⟨t, ht, rfl⟩ := Option.map_eq_some_iff.mp hdestroy
  rw [deletePins, hs] at ht
  obtain rfl := Option.some.inj ht
  rfl

end VirtualStreamSource

end VirtualCaptureStream
