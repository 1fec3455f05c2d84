import VirtualCaptureStream.SinkInputPin
import VirtualCaptureStream.Lib.Transition
import VirtualCaptureStream.Lib.RefCount

/- The allocators of a sink. Each pin's base class has `m_pAllocator`, and the filter
   has one of its own: NotifyAllocator of any pin moves both pointers, and BreakConnect
   of any pin clears both. GetAllocator hands out a reference, and what AddTrack and
   PipeOutMediaTypes get from it they never give back: `allocators_balanced_iff` says
   that the books balance exactly in the runs in which neither of them meets a
   connected pin.

   Correspondence (C++ ↔ Lean):
     `CBaseInputPin::GetAllocator`                       ↔ `getAllocator`
     `CVirtualStreamSinkInputPin::NotifyAllocator`       ↔ `notifyAllocator`
     `AddTrack`; a turn of the loop of PipeOutMediaTypes ↔ `addTrack`, `describe`
     `CVirtualStreamSink::Run`, `PipeOutMediaTypes`      ↔ `run`, `pipeOutMediaTypes`
     `CVirtualStreamSinkInputPin::BreakConnect`          ↔ `breakConnect`

   The allocator that a pin makes for `m_pBufferAllocator` is its own from its
   constructor to its destructor, and no other pointer is ever at it. -/
namespace VirtualCaptureStream

/-- An input pin: `m_Connected` is not null, `m_pAllocator`, and whether BreakConnect
    has succeeded since an allocator last came to the pin. -/
structure AllocatorPin where
  isConnected : Bool
  pAllocator : Option Nat
  disconnected : Bool

/-- The filter, its pins, and the references that they all hold. -/
structure AllocatorSink where
  pAllocator : Option Nat
  pinList : List AllocatorPin
  refs : Nat → Int

namespace AllocatorSink

open RefCount (addRef release releaseAt surplus Balanced)
open Transition (Meets Always)

def setPin (i : Nat) (p : AllocatorPin) (s : AllocatorSink) : AllocatorSink :=
  { s with pinList := s.pinList.set i p }

/-- The pointers: the filter's, then one of each pin. -/
def slots (s : AllocatorSink) : List (Option Nat) :=
  s.pAllocator :: s.pinList.map (·.pAllocator)

/-- How many fields point to the allocator. -/
def fieldsTo (s : AllocatorSink) (a : Nat) : Nat := s.slots.count (some a)

/-- The allocator that GetAllocator returns. The field gets a new one if it is null:
    `create` is what CreateMemoryAllocator makes, and `none` its failure. The reference
    for the caller is not counted here. -/
def getAllocator (i : Nat) (create : Option Nat) (p : AllocatorPin) (s : AllocatorSink) :
    Option (Nat × AllocatorSink) :=
  match p.pAllocator with
  | some a => some (a, s)
  | none => create.map fun a =>
    (a, { s.setPin i { p with pAllocator := some a, disconnected := false } with
      refs := addRef a s.refs })

def notifyAllocator (i : Nat) (pAllocator : Option Nat) (p : AllocatorPin)
    (s : AllocatorSink) : HRESULT × AllocatorSink :=
  match pAllocator with
  | none => (E_FAIL, s)
  | some a =>
    -- the filter's pointer first, then the base class's
    let s := { s with pAllocator := some a, refs := addRef a (releaseAt s.pAllocator s.refs) }
    (S_OK, { s.setPin i { p with pAllocator := some a, disconnected := false } with
      refs := releaseAt p.pAllocator (addRef a s.refs) })

/-- GetAllocator for the sink itself. Nobody gives the reference back, and where
    GetAllocator fails the call goes through a pointer that was never set (`none`). -/
def takeAllocator (i : Nat) (create : Option Nat) (p : AllocatorPin) (s : AllocatorSink) :
    Option AllocatorSink :=
  (getAllocator i create p s).map fun (a, s) => { s with refs := addRef a s.refs }

def addTrack (i : Nat) (create : Option Nat) (p : AllocatorPin) (s : AllocatorSink) :
    Option AllocatorSink :=
  takeAllocator i create p s

/-- The record of a pin. -/
def describe (i : Nat) (create : Option Nat) (p : AllocatorPin) (s : AllocatorSink) :
    Option AllocatorSink :=
  takeAllocator i create p s

/-- A loop over the list that does something about each connected pin. -/
def eachConnected (turn : Nat → AllocatorPin → AllocatorSink → Option AllocatorSink)
    (indices : List Nat) (s : AllocatorSink) : Option AllocatorSink :=
  indices.foldlM (fun s i =>
    match s.pinList[i]? with
    | none => some s
    | some p => if p.isConnected then turn i p s else some s) s

def run (create : Nat → Option Nat) (s : AllocatorSink) : Option AllocatorSink :=
  eachConnected (fun i => addTrack i (create i)) (List.range s.pinList.length) s

def pipeOutMediaTypes (create : Nat → Option Nat) (s : AllocatorSink) : Option AllocatorSink :=
  eachConnected (fun i => describe i (create i)) (List.range s.pinList.length) s

/-- BreakConnect; `decommit` is what the allocator's Decommit returns. -/
def breakConnect (i : Nat) (decommit : HRESULT) (p : AllocatorPin) (s : AllocatorSink) :
    HRESULT × AllocatorSink :=
  if p.pAllocator.isSome && failed decommit then (decommit, s)
  else
    let s := { s.setPin i { p with pAllocator := none, disconnected := true } with
      refs := releaseAt p.pAllocator s.refs }
    -- whichever pin the filter's allocator is from
    (S_OK, { s with pAllocator := none, refs := releaseAt s.pAllocator s.refs })

/-- The calls, in any order and on any pin. `getAllocator` is the other side's, which
    gives its own reference back; `connected` is an assignment to `m_Connected`. -/
inductive AllocatorAction where
  | notifyAllocator (i : Nat) (pAllocator : Option Nat)
  | run (create : Nat → Option Nat)
  | pipeOutMediaTypes (create : Nat → Option Nat)
  | breakConnect (i : Nat) (decommit : HRESULT)
  | getAllocator (i : Nat) (create : Option Nat)
  | connected (i : Nat) (isConnected : Bool)
  | addInputPin

def allocatorStep (s : AllocatorSink) : AllocatorAction → Option AllocatorSink
  | .notifyAllocator i pAllocator =>
    (s.pinList[i]?).map fun p => (notifyAllocator i pAllocator p s).2
  | .run create => run create s
  | .pipeOutMediaTypes create => pipeOutMediaTypes create s
  | .breakConnect i decommit => (s.pinList[i]?).map fun p => (breakConnect i decommit p s).2
  | .getAllocator i create =>
    (s.pinList[i]?).map fun p => ((getAllocator i create p s).map Prod.snd).getD s
  | .connected i isConnected =>
    (s.pinList[i]?).map fun p => s.setPin i { p with isConnected := isConnected }
  | .addInputPin => some { s with pinList := s.pinList ++ [⟨false, none, true⟩] }

/-- The sink with its first pin. -/
def constructed : AllocatorSink := ⟨none, [⟨false, none, true⟩], fun _ => 0⟩

/-- As many references as fields, never less than none, and none at all once every pin
    has been disconnected. -/
structure AllocatorsBalanced (s : AllocatorSink) : Prop where
  equal : ∀ a, s.refs a = s.fieldsTo a
  nonneg : ∀ a, 0 ≤ s.refs a
  zero : (∀ p ∈ s.pinList, p.disconnected = true) → ∀ a, s.refs a = 0

/-- Run and PipeOutMediaTypes find no connected pin. -/
def NoTrack (s : AllocatorSink) : AllocatorAction → Prop
  | .run _ | .pipeOutMediaTypes _ => ∀ p ∈ s.pinList, p.isConnected = false
  | _ => True

/-! What each call does to the books. -/

/-- References on `a` that no field is for. -/
def extra (s : AllocatorSink) (a : Nat) : Int := surplus s.refs s.slots a

theorem slots_setPin (i : Nat) (p : AllocatorPin) (s : AllocatorSink) :
    (s.setPin i p).slots = s.slots.set (i + 1) p.pAllocator := by
  simp only [slots, setPin, List.map_set, List.set_cons_succ]

theorem extra_setPin (i : Nat) (p : AllocatorPin) (s : AllocatorSink) (refs : Nat → Int)
    (b : Nat) : extra { s.setPin i p with refs := refs } b =
      surplus refs (s.slots.set (i + 1) p.pAllocator) b := by
  rw [← slots_setPin]
  rfl

/-- Where a pin's pointer is. -/
theorem slots_pin {s : AllocatorSink} {i : Nat} {p : AllocatorPin} (h : s.pinList[i]? = some p) :
    s.slots[i + 1]? = some p.pAllocator := by
  simp [slots, h]

section
variable {s t : AllocatorSink} {i a : Nat} {p : AllocatorPin} (hp : s.pinList[i]? = some p)
include hp

theorem extra_getAllocator {create : Option Nat} (h : getAllocator i create p s = some (a, t))
    (b : Nat) : t.extra b = s.extra b := by
  unfold getAllocator at h
  cases hfield : p.pAllocator with
  | some c =>
    rw [hfield] at h
    obtain ⟨-, rfl⟩ := Prod.mk.inj (Option.some.inj h)
    rfl
  | none =>
    rw [hfield] at h
    obtain ⟨c, -, heq⟩ := Option.map_eq_some_iff.mp h
    obtain ⟨rfl, rfl⟩ := Prod.mk.inj heq
    have hslot := slots_pin hp
    rw [hfield] at hslot
    rw [extra_setPin]
    exact RefCount.surplus_move hslot c b s.refs

theorem extra_notifyAllocator (pAllocator : Option Nat) (b : Nat) :
    (notifyAllocator i pAllocator p s).2.extra b = s.extra b := by
  cases pAllocator with
  | none => rfl
  | some a =>
    let filter := { s with pAllocator := some a, refs := addRef a (releaseAt s.pAllocator s.refs) }
    have hhead : s.slots[0]? = some s.pAllocator := rfl
    have hfilter : filter.extra b = s.extra b := RefCount.surplus_move hhead a b s.refs
    have hslot : filter.slots[i + 1]? = some p.pAllocator := slots_pin (s := filter) hp
    have hpin := RefCount.surplus_move hslot a b filter.refs
    rw [← RefCount.releaseAt_addRef] at hpin
    show extra { filter.setPin i _ with refs := _ } b = s.extra b
    rw [extra_setPin]
    exact hpin.trans hfilter

theorem extra_breakConnect (decommit : HRESULT) (b : Nat) :
    (breakConnect i decommit p s).2.extra b = s.extra b := by
  unfold breakConnect
  split
  · rfl
  · let pin := { s.setPin i { p with pAllocator := none, disconnected := true } with
      refs := releaseAt p.pAllocator s.refs }
    have hpin : pin.extra b = s.extra b := by
      rw [extra_setPin]
      exact RefCount.surplus_clear (slots_pin hp) b s.refs
    have hhead : pin.slots[0]? = some pin.pAllocator := rfl
    exact (RefCount.surplus_clear hhead b pin.refs).trans hpin

/-- What the sink takes for itself is beyond its fields. -/
theorem extra_takeAllocator {create : Option Nat} (h : takeAllocator i create p s = some t) :
    ∃ a, ∀ b, t.extra b = s.extra b + if a = b then 1 else 0 := by
  obtain ⟨⟨a, u⟩, hget, rfl⟩ := Option.map_eq_some_iff.mp h
  refine ⟨a, ?_⟩
  intro b
  rw [← extra_getAllocator hp hget b]
  exact RefCount.surplus_addRef a b u.refs u.slots

end

/-! The loop over the connected pins. -/

section
variable {turn : Nat → AllocatorPin → AllocatorSink → Option AllocatorSink}
  {s t : AllocatorSink} {indices : List Nat}

/-- A turn at index `i` is that of a connected pin, or it changes nothing. -/
theorem eachConnected_cons {i : Nat} (h : eachConnected turn (i :: indices) s = some t) :
    (∃ p u, s.pinList[i]? = some p ∧ p.isConnected = true ∧ turn i p s = some u ∧
      eachConnected turn indices u = some t) ∨
    ((∀ p, s.pinList[i]? = some p → p.isConnected = false) ∧
      eachConnected turn indices s = some t) := by
  rw [eachConnected, List.foldlM_cons] at h
  obtain ⟨u, hu, hrest⟩ := Option.bind_eq_some_iff.mp h
  cases hp : s.pinList[i]? with
  | none =>
    rw [hp] at hu
    obtain rfl := Option.some.inj hu
    exact Or.inr ⟨fun _ hq => (by cases hq), hrest⟩
  | some p =>
    rw [hp] at hu
    cases hon : p.isConnected with
    | true =>
      simp only [hon, if_true] at hu
      exact Or.inl ⟨p, u, rfl, hon, hu, hrest⟩
    | false =>
      simp only [hon, Bool.false_eq_true, if_false] at hu
      obtain rfl := Option.some.inj hu
      exact Or.inr ⟨fun q hq => Option.some.inj hq ▸ hon, hrest⟩

/-- Nothing happens where no pin is connected. -/
theorem eachConnected_none (h : ∀ p ∈ s.pinList, p.isConnected = false)
    (hrun : eachConnected turn indices s = some t) : t = s := by
  induction indices with
  | nil => exact (Option.some.inj hrun).symm
  | cons i indices ih =>
    rcases eachConnected_cons hrun with ⟨p, u, hp, hon, -, -⟩ | ⟨-, hrest⟩
    · rw [h p (List.mem_of_getElem? hp)] at hon
      cases hon
    · exact ih hrest

/-- A turn that takes one reference too many. -/
def Takes (turn : Nat → AllocatorPin → AllocatorSink → Option AllocatorSink) : Prop :=
  ∀ i p s t, s.pinList[i]? = some p → turn i p s = some t →
    ∃ a, ∀ b, t.extra b = s.extra b + if a = b then 1 else 0

/-- A loop of such turns gives none back. -/
theorem Takes.le (hturn : Takes turn) (h : eachConnected turn indices s = some t) (b : Nat) :
    s.extra b ≤ t.extra b := by
  induction indices generalizing s with
  | nil =>
    obtain rfl := Option.some.inj h
    exact Int.le_refl _
  | cons i indices ih =>
    rcases eachConnected_cons h with ⟨p, u, hp, -, hu, hrest⟩ | ⟨-, hrest⟩
    · obtain ⟨a, ha⟩ := hturn i p s u hp hu
      have hle : u.extra b ≤ t.extra b := ih hrest
      rw [ha b] at hle
      split at hle <;> omega
    · exact ih hrest

/-- The first connected pin of the loop is enough. The pins before it change nothing. -/
theorem Takes.lt (hturn : Takes turn) (h : eachConnected turn indices s = some t) {i : Nat}
    (hi : i ∈ indices) {p : AllocatorPin} (hp : s.pinList[i]? = some p)
    (hon : p.isConnected = true) : ∃ a, s.extra a < t.extra a := by
  induction indices with
  | nil => cases hi
  | cons j indices ih =>
    rcases eachConnected_cons h with ⟨q, u, hq, -, hu, hrest⟩ | ⟨hoff, hrest⟩
    · obtain ⟨a, ha⟩ := hturn j q s u hq hu
      have hle : u.extra a ≤ t.extra a := hturn.le hrest a
      refine ⟨a, ?_⟩
      calc s.extra a < s.extra a + 1 := Int.lt_succ _
        _ = u.extra a := by rw [ha a, if_pos rfl]
        _ ≤ t.extra a := hle
    · refine ih hrest ?_
      rcases List.mem_cons.mp hi with rfl | hi
      · rw [hoff p hp] at hon
        cases hon
      · exact hi

end

theorem takes_takeAllocator (create : Nat → Option Nat) :
    Takes fun i => takeAllocator i (create i) :=
  fun _ _ _ _ hp h => extra_takeAllocator hp h

/-- A whole loop that meets a connected pin puts the books out. -/
theorem extra_of_connected {create : Nat → Option Nat} {s t : AllocatorSink}
    (h : eachConnected (fun i => takeAllocator i (create i)) (List.range s.pinList.length) s =
      some t)
    {p : AllocatorPin} (hp : p ∈ s.pinList) (hon : p.isConnected = true) :
    ∃ a, s.extra a < t.extra a := by
  obtain ⟨i, hi⟩ := List.mem_iff_getElem?.mp hp
  obtain ⟨hlt, -⟩ := List.getElem?_eq_some_iff.mp hi
  exact (takes_takeAllocator create).lt h (List.mem_range.mpr hlt) hi hon

/-! The invariant. -/

/-- The books are balanced, a pin that was disconnected has no allocator, and the filter
    has one only from a pin that was not. -/
structure Settled (s : AllocatorSink) : Prop where
  balanced : Balanced s.refs s.slots
  pins : ∀ p ∈ s.pinList, p.disconnected = true → p.pAllocator = none
  filter : (∀ p ∈ s.pinList, p.disconnected = true) → s.pAllocator = none

namespace Settled

theorem allocatorsBalanced {s : AllocatorSink} (h : Settled s) : AllocatorsBalanced s where
  equal := h.balanced.eq_count
  nonneg := h.balanced.nonneg
  zero hall := by
    refine h.balanced.eq_zero ?_
    intro slot hslot
    rcases List.mem_cons.mp hslot with rfl | hslot
    · exact h.filter hall
    · obtain ⟨p, hp, rfl⟩ := List.mem_map.mp hslot
      exact h.pins p hp (hall p hp)

variable {s t : AllocatorSink} {i : Nat} {p p' : AllocatorPin}

/-- A pin's allocator is replaced. -/
theorem of_setPin (h : Settled s)
    (hlist : t.pinList = s.pinList.set i p') (hbalanced : ∀ a, t.extra a = s.extra a)
    (hpin : p'.disconnected = true → p'.pAllocator = none)
    (hfilter : (∀ q ∈ t.pinList, q.disconnected = true) → t.pAllocator = none) : Settled t where
  balanced a := (hbalanced a).trans (h.balanced a)
  pins q hq := by
    rw [hlist] at hq
    rcases List.mem_or_eq_of_mem_set hq with hq | rfl
    · exact h.pins q hq
    · exact hpin
  filter := hfilter

/-- A pin that an allocator has come to is in the list. -/
theorem not_all_disconnected (hp : s.pinList[i]? = some p)
    (hlist : t.pinList = s.pinList.set i p') (hopen : p'.disconnected = false) :
    ¬ ∀ q ∈ t.pinList, q.disconnected = true := by
  intro hall
  obtain ⟨hlt, -⟩ := List.getElem?_eq_some_iff.mp hp
  have hmem : p' ∈ t.pinList := hlist ▸ List.mem_set hlt p'
  have hclosed := hall p' hmem
  rw [hopen] at hclosed
  cases hclosed

theorem getAllocator (h : Settled s) (hp : s.pinList[i]? = some p) {create : Option Nat}
    {a : Nat} (hget : getAllocator i create p s = some (a, t)) : Settled t := by
  have hextra := extra_getAllocator hp hget
  unfold AllocatorSink.getAllocator at hget
  split at hget
  · obtain ⟨-, rfl⟩ := Prod.mk.inj (Option.some.inj hget)
    exact h
  · obtain ⟨c, -, heq⟩ := Option.map_eq_some_iff.mp hget
    obtain ⟨-, rfl⟩ := Prod.mk.inj heq
    refine h.of_setPin rfl hextra (fun hclosed => (by cases hclosed)) ?_
    intro hall
    exact absurd hall (not_all_disconnected (s := s) hp rfl rfl)

theorem notifyAllocator (h : Settled s) (hp : s.pinList[i]? = some p)
    (pAllocator : Option Nat) : Settled (notifyAllocator i pAllocator p s).2 := by
  have hextra := extra_notifyAllocator hp pAllocator
  cases pAllocator with
  | none => exact h
  | some a =>
    refine h.of_setPin rfl hextra (fun hclosed => (by cases hclosed)) ?_
    intro hall
    exact absurd hall (not_all_disconnected (s := s) hp rfl rfl)

theorem breakConnect (h : Settled s) (hp : s.pinList[i]? = some p) (decommit : HRESULT) :
    Settled (breakConnect i decommit p s).2 := by
  have hextra := extra_breakConnect hp decommit
  unfold AllocatorSink.breakConnect at hextra ⊢
  split at hextra
  · rename_i hfail
    rw [if_pos hfail]
    exact h
  · rename_i hfail
    rw [if_neg hfail]
    exact h.of_setPin rfl hextra (fun _ => rfl) (fun _ => rfl)

theorem connected (h : Settled s) (hp : s.pinList[i]? = some p) (isConnected : Bool) :
    Settled (s.setPin i { p with isConnected := isConnected }) := by
  obtain ⟨hlt, -⟩ := List.getElem?_eq_some_iff.mp hp
  have hslots : (s.setPin i { p with isConnected := isConnected }).slots = s.slots := by
    obtain ⟨hslot, hfield⟩ := List.getElem?_eq_some_iff.mp (slots_pin hp)
    rw [slots_setPin, ← hfield]
    exact List.set_getElem_self hslot
  refine h.of_setPin rfl ?_ (h.pins p (List.mem_of_getElem? hp)) ?_
  · intro a
    rw [extra, hslots]
    rfl
  · intro hall
    refine h.filter ?_
    intro q hq
    obtain ⟨j, hj⟩ := List.mem_iff_getElem?.mp hq
    by_cases hij : i = j
    · subst hij
      obtain rfl : q = p := Option.some.inj (hj.symm.trans hp)
      have hmem := List.mem_set hlt { q with isConnected := isConnected }
      have hclosed := hall _ hmem
      exact hclosed
    · refine hall q (List.mem_of_getElem? (i := j) ?_)
      show (s.pinList.set i _)[j]? = some q
      rw [List.getElem?_set_ne hij, hj]

theorem addInputPin (h : Settled s) :
    Settled { s with pinList := s.pinList ++ [⟨false, none, true⟩] } where
  balanced a := by
    have ha := h.balanced a
    simpa [surplus, slots, List.count_cons] using ha
  pins q hq := by
    rcases List.mem_append.mp hq with hq | hq
    · exact h.pins q hq
    · obtain rfl := List.mem_singleton.mp hq
      exact fun _ => rfl
  filter hall := h.filter fun q hq => hall q (List.mem_append_left _ hq)

/-- Every call keeps the books balanced, but for the two that find a connected pin. -/
theorem step {a : AllocatorAction} (h : Settled s) (hstep : allocatorStep s a = some t)
    (hnone : NoTrack s a) : Settled t := by
  cases a with
  | notifyAllocator i pAllocator =>
    obtain ⟨p, hp, rfl⟩ := Option.map_eq_some_iff.mp hstep
    exact h.notifyAllocator hp pAllocator
  | run create =>
    obtain rfl := eachConnected_none hnone hstep
    exact h
  | pipeOutMediaTypes create =>
    obtain rfl := eachConnected_none hnone hstep
    exact h
  | breakConnect i decommit =>
    obtain ⟨p, hp, rfl⟩ := Option.map_eq_some_iff.mp hstep
    exact h.breakConnect hp decommit
  | getAllocator i create =>
    obtain ⟨p, hp, rfl⟩ := Option.map_eq_some_iff.mp hstep
    cases hget : AllocatorSink.getAllocator i create p s with
    | none => exact h
    | some r => exact h.getAllocator (a := r.1) hp hget
  | connected i isConnected =>
    obtain ⟨p, hp, rfl⟩ := Option.map_eq_some_iff.mp hstep
    exact h.connected hp isConnected
  | addInputPin =>
    obtain rfl := Option.some.inj hstep
    exact h.addInputPin

/-- Books that balance afterwards were not put out. -/
theorem noTrack {a : AllocatorAction} (h : Settled s) (hstep : allocatorStep s a = some t)
    (hbalanced : AllocatorsBalanced t) : NoTrack s a := by
  have hloop : ∀ create : Nat → Option Nat, eachConnected (fun i => takeAllocator i (create i))
      (List.range s.pinList.length) s = some t → ∀ p ∈ s.pinList, p.isConnected = false := by
    intro create hrun p hp
    by_contra hon
    obtain ⟨b, hb⟩ := extra_of_connected hrun hp (eq_true_of_ne_false hon)
    have hbefore : s.extra b = 0 := h.balanced b
    have hafter : t.extra b = t.refs b - t.fieldsTo b := rfl
    rw [hbalanced.equal b] at hafter
    omega
  cases a with
  | run create => exact hloop create hstep
  | pipeOutMediaTypes create => exact hloop create hstep
  | notifyAllocator i pAllocator => trivial
  | breakConnect i decommit => trivial
  | getAllocator i create => trivial
  | connected i isConnected => trivial
  | addInputPin => trivial

theorem constructed : Settled constructed where
  balanced _ := rfl
  pins p hp _ := by
    obtain rfl := List.mem_singleton.mp hp
    rfl
  filter _ := rfl

end Settled

/-- **Allocator references are balanced** throughout a run exactly if no Run and no
    discovery in it finds a connected pin. -/
theorem allocators_balanced_iff (as : List AllocatorAction) (t : AllocatorSink)
    (hrun : Transition.run allocatorStep constructed as = some t) :
    Always allocatorStep AllocatorsBalanced constructed as ↔
      Meets allocatorStep NoTrack constructed as :=
  Transition.always_iff_meets_of_invariant (fun _ h => h.allocatorsBalanced)
    (fun _ _ _ h => h.step) (fun _ _ _ h => h.noTrack) as constructed t Settled.constructed hrun

/-- Two pins that share an allocator, connected after the filter was run; the first to be
    disconnected takes the filter's reference with it. -/
def sharedAllocator : List AllocatorAction :=
  [.run fun _ => none, .connected 0 true, .addInputPin, .notifyAllocator 0 (some 7),
    .connected 1 true, .notifyAllocator 1 (some 7), .breakConnect 0 S_OK, .breakConnect 1 S_OK]

theorem allocators_balanced_iff_shared :
    ∃ t, Transition.run allocatorStep constructed sharedAllocator = some t ∧ t.refs 7 = 0 ∧
      Always allocatorStep AllocatorsBalanced constructed sharedAllocator := by
  have hquiet : Meets allocatorStep NoTrack constructed sharedAllocator := by
    -- Run finds a pin, and it is not connected
    refine Meets.cons rfl (fun p hp => ?_) ?_
    · obtain rfl := List.mem_singleton.mp hp
      rfl
    iterate 7 refine Meets.cons rfl trivial ?_
    trivial
  exact ⟨_, rfl, by decide, (allocators_balanced_iff sharedAllocator _ rfl).mpr hquiet⟩

/-- A pin that ran once and is disconnected: the sink has no pointer left, and still a
    reference. -/
theorem run_leaks_reference :
    ∃ t, Transition.run allocatorStep constructed [.connected 0 true,
        .notifyAllocator 0 (some 7), .run fun _ => none, .breakConnect 0 S_OK] = some t ∧
      (∀ p ∈ t.pinList, p.disconnected = true) ∧ t.fieldsTo 7 = 0 ∧ t.refs 7 = 1 ∧
      ¬ AllocatorsBalanced t := by
  refine ⟨_, rfl, by decide, by decide, by decide, ?_⟩
  intro h
  have hzero := h.zero (by decide) 7
  revert hzero
  decide

end AllocatorSink

end VirtualCaptureStream
