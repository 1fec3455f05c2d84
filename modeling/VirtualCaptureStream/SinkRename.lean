import Mathlib.Data.List.Nodup
import VirtualCaptureStream.SinkFilter

/- SetStreamName's replacement of the pins. The loop takes the pins by an index
   that goes up while RemovePin takes the pin at that index out of the list, so it
   deletes the first pin, the third, the fifth and so on; the `clear()` behind it
   drops the others undeleted. `removePins_eq` is that, by induction on the rest of
   the list, and `renamed_iff` says for which lists the pins are replaced. -/
namespace VirtualCaptureStream

/-- The first of every two elements. -/
def everyOther {α : Type} : List α → List α
  | [] => []
  | [a] => [a]
  | a :: _ :: l => a :: everyOther l

theorem everyOther_perm {α : Type} : ∀ l : List α,
    (everyOther l ++ everyOther l.tail).Perm l
  | [] => List.Perm.nil
  | [a] => List.Perm.refl [a]
  | [a, b] => List.Perm.refl [a, b]
  | a :: b :: c :: l => by
    have ih : (everyOther (c :: l) ++ everyOther l).Perm (c :: l) := everyOther_perm (c :: l)
    calc everyOther (a :: b :: c :: l) ++ everyOther (b :: c :: l)
        = a :: (everyOther (c :: l) ++ b :: everyOther l) := rfl
      _ |>.Perm (a :: b :: (everyOther (c :: l) ++ everyOther l)) :=
          (List.perm_middle).cons a
      _ |>.Perm (a :: b :: c :: l) := (ih.cons b).cons a

namespace VirtualStreamSink

/-! The pins of the list are distinct objects. -/

/-- Every listed pin is an object of its own that was made and not deleted. -/
structure Owned (s : VirtualStreamSink) : Prop where
  distinct : (s.pinList.map (·.id)).Nodup
  made : ∀ p ∈ s.pinList, p.id < s.made
  alive : ∀ p ∈ s.pinList, p.id ∉ s.deleted
  deleted : ∀ i ∈ s.deleted, i < s.made

theorem Owned.addInputPin {s t : VirtualStreamSink} {tick : UInt32} (h : Owned s)
    (hadd : addInputPin tick s = some t) : Owned t := by
  rcases addInputPin_cases hadd with ⟨-, rfl⟩ | ⟨-, -, rfl⟩
  · exact h
  · have hnew : ∀ p ∈ s.pinList, p.id ≠ s.made := fun p hp => Nat.ne_of_lt (h.made p hp)
    refine ⟨?_, ?_, ?_, ?_⟩
    · simp only [List.map_append, List.map_cons, List.map_nil]
      refine List.nodup_append.mpr ⟨h.distinct, List.nodup_singleton _, ?_⟩
      intro i hi j hj
      obtain ⟨p, hp, rfl⟩ := List.mem_map.mp hi
      rw [List.mem_singleton.mp hj]
      exact hnew p hp
    · intro p hp
      rcases List.mem_append.mp hp with hp | hp
      · exact Nat.lt_succ_of_lt (h.made p hp)
      · rw [List.mem_singleton.mp hp]
        exact Nat.lt_succ_self s.made
    · intro p hp
      rcases List.mem_append.mp hp with hp | hp
      · exact h.alive p hp
      · rw [List.mem_singleton.mp hp]
        intro hdel
        exact absurd (h.deleted s.made hdel) (Nat.lt_irrefl _)
    · intro i hi
      exact Nat.lt_succ_of_lt (h.deleted i hi)

theorem Owned.modifyPin {s : VirtualStreamSink} {i : Nat} {f : InputPin → InputPin} (h : Owned s)
    (hid : ∀ p, (f p).id = p.id) : Owned (s.modifyPin i f) := by
  have hids : (s.modifyPin i f).pinList.map (·.id) = s.pinList.map (·.id) := by
    apply List.ext_getElem?
    intro k
    simp only [VirtualStreamSink.modifyPin, List.getElem?_map, List.getElem?_modify]
    cases s.pinList[k]? with
    | none => rfl
    | some p =>
      by_cases hi : i = k
      · simp [hi, hid]
      · simp [hi]
  -- the identities are the same, so what is said of them still holds
  have hmem : ∀ p ∈ (s.modifyPin i f).pinList, ∃ q ∈ s.pinList, q.id = p.id := by
    intro p hp
    have hp' : p.id ∈ (s.modifyPin i f).pinList.map (·.id) := List.mem_map_of_mem hp
    rw [hids] at hp'
    exact List.mem_map.mp hp'
  refine ⟨hids ▸ h.distinct, fun p hp => ?_, fun p hp => ?_, h.deleted⟩
  · obtain ⟨q, hq, e⟩ := hmem p hp
    exact e ▸ h.made q hq
  · obtain ⟨q, hq, e⟩ := hmem p hp
    exact e ▸ h.alive q hq

/-! The loop. -/

/-- Distinct identities: RemovePin takes out the pin it is given. -/
theorem removePin_eq {s : VirtualStreamSink} {pre l : List InputPin} {p : InputPin}
    (hlist : s.pinList = pre ++ p :: l) (hdis : (s.pinList.map (·.id)).Nodup) :
    removePin p.id s = { s with pinList := pre ++ l, deleted := p.id :: s.deleted } := by
  have hmem : p ∈ s.pinList := by
    rw [hlist]
    exact List.mem_append_right pre List.mem_cons_self
  have hpre : ∀ q ∈ pre, ¬ (q.id == p.id) = true := by
    intro q hq e
    rw [hlist, List.map_append, List.map_cons] at hdis
    exact (List.nodup_append.mp hdis).2.2 q.id (List.mem_map_of_mem hq) p.id List.mem_cons_self
      (beq_iff_eq.mp e)
  have herase : (p :: l).eraseP (fun q => q.id == p.id) = l :=
    List.eraseP_cons_of_pos (beq_self_eq_true p.id)
  rw [removePin_of_mem hmem, hlist, List.eraseP_append_right _ hpre, herase]

/-- From index `i` on, the loop deletes every other pin and leaves those between. -/
theorem removePins_eq : ∀ (l pre : List InputPin) (fuel : Nat) (s : VirtualStreamSink),
    l.length ≤ fuel → s.pinList = pre ++ l → (s.pinList.map (·.id)).Nodup →
    removePins fuel pre.length s = { s with
      pinList := pre ++ everyOther l.tail
      deleted := ((everyOther l).map (·.id)).reverse ++ s.deleted }
  | [], pre, fuel, s, _, hlist, _ => by
    have hend : s.pinList[pre.length]? = none := by
      rw [hlist, List.append_nil]
      exact List.getElem?_eq_none (Nat.le_refl _)
    cases fuel with
    | zero => simp [removePins, everyOther, ← hlist]
    | succ fuel => simp [removePins, hend, everyOther, ← hlist]
  | [a], pre, 0, s, hfuel, _, _ => absurd hfuel (by simp)
  | [a], pre, fuel + 1, s, _, hlist, hdis => by
    have hat : s.pinList[pre.length]? = some a := by
      rw [hlist]
      simp
    have hend : (removePin a.id s).pinList[pre.length + 1]? = none := by
      rw [removePin_eq hlist hdis]
      simp
    rw [removePins, hat]
    dsimp only
    cases fuel with
    | zero => simp [removePins, removePin_eq hlist hdis, everyOther]
    | succ fuel =>
      rw [removePins, hend, removePin_eq hlist hdis]
      simp [everyOther]
  | a :: b :: l, pre, 0, s, hfuel, _, _ => absurd hfuel (by simp)
  | a :: b :: l, pre, fuel + 1, s, hfuel, hlist, hdis => by
    have hat : s.pinList[pre.length]? = some a := by
      rw [hlist]
      simp
    -- the pin behind `a` moves to the index of `a`, and the loop goes past it
    have hnext := removePin_eq hlist hdis
    have hlist' : (removePin a.id s).pinList = (pre ++ [b]) ++ l := by
      rw [hnext]
      simp
    have hdis' : ((removePin a.id s).pinList.map (·.id)).Nodup := by
      rw [hlist'] at *
      have hsub : ((pre ++ [b] ++ l).map (·.id)).Sublist (s.pinList.map (·.id)) := by
        rw [hlist, List.append_assoc]
        exact ((List.sublist_cons_self a _).append_left pre).map _
      exact hdis.sublist hsub
    have hlen : l.length ≤ fuel := by
      simp only [List.length_cons] at hfuel
      omega
    have ih := removePins_eq l (pre ++ [b]) fuel (removePin a.id s) hlen hlist' hdis'
    rw [List.length_append, List.length_singleton] at ih
    rw [removePins, hat]
    dsimp only
    rw [ih, hnext]
    cases l with
    | nil => simp [everyOther]
    | cons c l => simp [everyOther]

theorem setStreamName_eq {s : VirtualStreamSink} (h : Owned s) (name : WStr) (tick : UInt32) :
    setStreamName name tick s = addInputPin tick
      { szStreamName := name, pinList := [], made := s.made
        deleted := ((everyOther s.pinList).map (·.id)).reverse ++ s.deleted } := by
  have hloop := removePins_eq s.pinList [] s.pinList.length { s with szStreamName := name }
    (Nat.le_refl _) rfl h.distinct
  rw [List.length_nil] at hloop
  rw [setStreamName, hloop]

theorem Owned.step (s : VirtualStreamSink) (a : SinkAction) (t : VirtualStreamSink) (h : Owned s)
    (hstep : sinkStep s a = some t) : Owned t := by
  cases a with
  | completeConnect i mt tick =>
    obtain ⟨p, _, hadd⟩ := Option.bind_eq_some_iff.mp hstep
    rw [Option.ite_none_left_eq_some] at hadd
    have hmod : Owned (s.modifyPin i fun p => { p with isConnected := true, mt := mt }) :=
      h.modifyPin fun _ => rfl
    exact hmod.addInputPin hadd.2
  | notifyAllocator i allocProperties =>
    cases hstep
    exact h.modifyPin fun _ => rfl
  | breakConnect i =>
    cases hstep
    exact h.modifyPin fun _ => rfl
  | setStreamName name tick =>
    rw [sinkStep, setStreamName_eq h] at hstep
    refine Owned.addInputPin (s := ⟨name, [], s.made, _⟩) ?_ hstep
    refine ⟨List.nodup_nil, fun p hp => (by cases hp), fun p hp => (by cases hp), ?_⟩
    · intro i hi
      rcases List.mem_append.mp hi with hi | hi
      · obtain ⟨p, hp, rfl⟩ := List.mem_map.mp (List.mem_reverse.mp hi)
        exact h.made p ((everyOther_perm s.pinList).mem_iff.mp (List.mem_append_left _ hp))
      · exact h.deleted i hi

/-- Whatever is connected, disconnected and renamed after construction. -/
theorem owned_run {tick : UInt32} {s u : VirtualStreamSink} {as : List SinkAction}
    (hs : constructed tick = some s) (hrun : Transition.run sinkStep s as = some u) : Owned u := by
  have hempty : Owned ⟨wide "VirtualSink1", [], 0, []⟩ := by
    refine ⟨List.nodup_nil, ?_, ?_, ?_⟩ <;>
    · intro x hx
      cases hx
  exact Transition.run_invariant Owned.step as s u (hempty.addInputPin hs) hrun

/-! What a rename should do. -/

/-- SetStreamName returned with `t`. Every pin there was has been deleted, once,
    none of them while it was connected, and one new pin under the new name is left;
    or the call was refused and the list is the old one. -/
def Replaced (name : WStr) (s t : VirtualStreamSink) : Prop :=
  (t.pinList = s.pinList ∧ t.deleted = s.deleted) ∨
  ((∀ p ∈ s.pinList, t.deleted.count p.id = 1) ∧ (∀ p ∈ s.pinList, p.isConnected = false) ∧
    ∃ p, t.pinList = [p] ∧ p.id = s.made ∧ p.isConnected = false ∧
      ∃ tick, p.pName = formatPinName name 1 tick)

theorem addInputPin_empty {tick : UInt32} {name : WStr} {made : Nat} {deleted : List Nat}
    {t : VirtualStreamSink} :
    addInputPin tick ⟨name, [], made, deleted⟩ = some t ↔
      (formatPinName name 1 tick).length < 100 ∧
        t = ⟨name, [InputPin.new made (formatPinName name 1 tick)], made + 1, deleted⟩ := by
  rw [addInputPin, List.any_nil, if_neg Bool.false_ne_true]
  dsimp only [List.length_nil, List.nil_append, Nat.zero_add]
  rw [Option.ite_none_right_eq_some, Option.some.injEq, eq_comm (a := t)]

/-- The pins the loop's index meets are the ones that are deleted. -/
theorem deleted_count {s : VirtualStreamSink} (h : Owned s) {p : InputPin} (hp : p ∈ s.pinList) :
    (((everyOther s.pinList).map (·.id)).reverse ++ s.deleted).count p.id = 1 ↔
      p ∈ everyOther s.pinList := by
  have hids : ((everyOther s.pinList ++ everyOther s.pinList.tail).map (·.id)).Nodup :=
    ((everyOther_perm s.pinList).map _).nodup_iff.mpr h.distinct
  rw [List.map_append] at hids
  have hold : s.deleted.count p.id = 0 := List.count_eq_zero.mpr (h.alive p hp)
  rw [List.count_append, hold, Nat.add_zero, List.count_reverse]
  refine ⟨fun hcount => ?_, fun hmem => ?_⟩
  · have hin : p.id ∈ (everyOther s.pinList).map (·.id) :=
      List.count_pos_iff.mp (by omega)
    obtain ⟨q, hq, e⟩ := List.mem_map.mp hin
    have hq' : q ∈ s.pinList :=
      (everyOther_perm s.pinList).mem_iff.mp (List.mem_append_left _ hq)
    rw [← List.inj_on_of_nodup_map h.distinct hq' hp e]
    exact hq
  · exact List.count_eq_one_of_mem (List.nodup_append.mp hids).1 (List.mem_map_of_mem hmem)

theorem everyOther_of_length_le {α : Type} : ∀ {l : List α}, l.length ≤ 1 → everyOther l = l
  | [], _ => rfl
  | [a], _ => rfl
  | a :: b :: l, h => absurd h (by simp)

/-- The loop reaches every pin only if there is one at most. -/
theorem everyOther_all {α : Type} {l : List α} (hnd : l.Nodup) (h : ∀ a ∈ l, a ∈ everyOther l) :
    l.length ≤ 1 := by
  match l with
  | [] => exact Nat.zero_le 1
  | [a] => exact Nat.le_refl 1
  | a :: b :: l =>
    have hnd' : (everyOther (a :: b :: l) ++ everyOther (b :: l)).Nodup :=
      (everyOther_perm (a :: b :: l)).nodup_iff.mpr hnd
    have hb : b ∈ everyOther (b :: l) := by
      cases l with
      | nil => exact List.mem_singleton_self b
      | cons c l => exact List.mem_cons_self
    have hb' := h b (List.mem_cons_of_mem a List.mem_cons_self)
    exact absurd rfl ((List.nodup_append.mp hnd').2.2 b hb' b hb)

/-- **A rename replaces the pins** exactly if there is one pin at most, it is not
    connected, and the new pin's name fits its buffer. -/
theorem renamed_iff (s : VirtualStreamSink) (h : Owned s) (name : WStr) (tick : UInt32) :
    (∃ t, setStreamName name tick s = some t ∧ Replaced name s t) ↔
      s.pinList.length ≤ 1 ∧ (∀ p ∈ s.pinList, p.isConnected = false) ∧
        (formatPinName name 1 tick).length < 100 := by
  simp only [setStreamName_eq h, addInputPin_empty]
  refine ⟨fun hex => ?_, fun hcond => ?_⟩
  · obtain ⟨t, ht, hrep⟩ := hex
    obtain ⟨hfit, rfl⟩ := ht
    rcases hrep with ⟨hsame, _⟩ | ⟨hall, hfree, _⟩
    · -- the list holds a pin that was not made before
      have hnew : InputPin.new s.made (formatPinName name 1 tick) ∈ s.pinList :=
        hsame ▸ List.mem_singleton_self _
      exact absurd (h.made _ hnew) (Nat.lt_irrefl _)
    · refine ⟨?_, hfree, hfit⟩
      exact everyOther_all h.distinct.of_map fun p hp => (deleted_count h hp).mp (hall p hp)
  · obtain ⟨hone, hfree, hfit⟩ := hcond
    refine ⟨_, ⟨hfit, rfl⟩, Or.inr ⟨fun p hp => (deleted_count h hp).mpr ?_, hfree, ?_⟩⟩
    · rw [everyOther_of_length_le hone]
      exact hp
    · exact ⟨_, rfl, rfl, rfl, tick, rfl⟩

/-- A sink that was connected and disconnected once has two free pins: renaming it
    deletes the first and forgets the second. -/
theorem second_pin_leaks :
    ∃ s u t, constructed 0 = some s ∧
      Transition.run sinkStep s [.completeConnect 0 bareVideo 0, .breakConnect 0] = some u ∧
      setStreamName (wide "Cam") 0 u = some t ∧ t.deleted = [0] ∧ t.pinList.map (·.id) = [2] ∧
      ¬ ∃ t, setStreamName (wide "Cam") 0 u = some t ∧ Replaced (wide "Cam") u t := by
  refine ⟨_, _, _, rfl, rfl, rfl, rfl, rfl, fun hex => ?_⟩
  obtain ⟨t, ht, hrep⟩ := hex
  obtain rfl := Option.some.inj ht
  rcases hrep with ⟨hsame, _⟩ | ⟨hall, _⟩
  · have hlen := congrArg List.length hsame
    exact absurd hlen (by decide)
  · have hsecond := hall _ (List.mem_cons_of_mem _ List.mem_cons_self)
    exact absurd hsecond (by decide)

/-- A new sink can be renamed. -/
theorem renamed_iff_constructed :
    ∃ s, constructed 0 = some s ∧
      ∃ t, setStreamName (wide "Cam") 0 s = some t ∧ Replaced (wide "Cam") s t := by
  obtain ⟨s, hs⟩ : ∃ s, constructed 0 = some s := ⟨_, rfl⟩
  have howned : Owned s := owned_run hs (Transition.run_nil s)
  refine ⟨s, hs, (renamed_iff s howned (wide "Cam") 0).mpr ?_⟩
  obtain rfl := Option.some.inj hs
  exact ⟨Nat.le_refl 1, by decide, by decide⟩

end VirtualStreamSink

end VirtualCaptureStream
