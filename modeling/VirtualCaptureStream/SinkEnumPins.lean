import VirtualCaptureStream.SinkConnect
import VirtualCaptureStream.SinkRename

/- Enumerating a sink's pins while their list changes. CEnumPins keeps the number of
   pins it found when it was made or Reset, and finds it again only when the filter's
   pin version has changed; AddInputPin and SetStreamName change the list and leave
   the version. `enumerated_in_range` says that an enumeration is right as long as
   the list is the one it began with; `shrunk_list_overruns` and `grown_list_is_missed`
   say what happens otherwise.

   Correspondence (C++ ↔ Lean):
     `CEnumPins`, its constructor and `Reset`  ↔ `EnumPins`, `EnumPins.new`
     `CEnumPins::Next`, its while loop         ↔ `next`, `fetch`
     `CEnumPins::Refresh`                      ↔ `refresh`
     `CVirtualStreamSink::GetPin`              ↔ the reads of `fetch`

   The pins are told apart as objects. An enumerator made by Clone is one that was
   made earlier and has done what the original did. -/
namespace VirtualCaptureStream

def VFW_E_ENUM_OUT_OF_SYNC : HRESULT := Int32.ofBitVec 0x80040203#32

namespace VirtualStreamSink

/-- The pins of the list, as objects. -/
def pinIds (s : VirtualStreamSink) : List Nat := s.pinList.map fun p => p.id

/-- The members of CEnumPins. -/
structure EnumPins where
  position : Nat
  pinCount : Nat
  version : Nat
  pinCache : List Nat

/-- The constructor, and Reset. -/
def EnumPins.new (pinVersion : Nat) (s : VirtualStreamSink) : EnumPins where
  position := 0
  pinCount := s.pinList.length
  version := pinVersion
  pinCache := []

/-- Refresh keeps the cache of the pins that were returned. -/
def EnumPins.refresh (pinVersion : Nat) (s : VirtualStreamSink) (e : EnumPins) : EnumPins :=
  { e with position := 0, pinCount := s.pinList.length, version := pinVersion }

/-- What Next returns and leaves. `inRange`: GetPin was called with indices of the
    list only. -/
structure NextResult where
  hr : HRESULT
  enum : EnumPins
  pins : List Nat
  inRange : Bool

/-- Next's loop, with `left` positions to go and `want` pins to fetch. GetPin returns
    NULL for an empty list; otherwise it takes the element without a check. -/
def fetch (ids : List Nat) : Nat → Nat → EnumPins → List Nat → NextResult
  | 0, want, e, pins => ⟨if want = 0 then S_OK else S_FALSE, e, pins, true⟩
  | _ + 1, 0, e, pins => ⟨S_OK, e, pins, true⟩
  | left + 1, want + 1, e, pins =>
    if ids = [] then ⟨VFW_E_ENUM_OUT_OF_SYNC, { e with position := e.position + 1 }, pins, false⟩
    else match ids[e.position]? with
      | none => ⟨E_FAIL, e, pins, false⟩
      | some id =>
        let e := { e with position := e.position + 1 }
        if id ∈ e.pinCache then fetch ids left (want + 1) e pins
        else fetch ids left want { e with pinCache := e.pinCache ++ [id] } (pins ++ [id])

/-- The caller asks for several pins and gives no pointer for their count. -/
def refused (cPins : Nat) (pcFetched : Bool) : Bool := !pcFetched && decide (1 < cPins)

/-- Next. -/
def next (pinVersion cPins : Nat) (pcFetched : Bool) (s : VirtualStreamSink) (e : EnumPins) :
    NextResult :=
  if refused cPins pcFetched then ⟨E_INVALIDARG, e, [], true⟩
  else
    let e := if e.version = pinVersion then e else e.refresh pinVersion s
    fetch s.pinIds (e.pinCount - e.position) cPins e []

/-- A sink with its pin version, and an enumerator. `listed`: the list when the
    enumerator was made or last Reset; `returned`: the pins it has returned since;
    `ended`: its last Next has left no position to go, and the list is still the one
    of that call. -/
structure Enumerating where
  conn : Connections
  pinVersion : Nat
  enum : EnumPins
  listed : List Nat
  returned : List Nat
  ended : Bool
  inRange : Bool

/-- EnumPins on a sink. -/
def Enumerating.new (conn : Connections) (pinVersion : Nat) : Enumerating where
  conn := conn
  pinVersion := pinVersion
  enum := EnumPins.new pinVersion conn.sink
  listed := conn.sink.pinIds
  returned := []
  ended := false
  inRange := true

inductive EnumAction where
  | next (cPins : Nat) (pcFetched : Bool)
  | reset
  | sink (a : ConnectAction)

/-- A call on the enumerator or on the sink. What follows a read beyond the list is
    undefined. No call on the sink changes the pin version. -/
def enumStep (s : Enumerating) (a : EnumAction) : Option Enumerating :=
  if s.inRange = false then none else
  match a with
  | .next cPins pcFetched =>
    let r := next s.pinVersion cPins pcFetched s.conn.sink s.enum
    some { s with
      enum := r.enum
      returned := s.returned ++ r.pins
      ended := if refused cPins pcFetched then s.ended
        else decide (r.enum.pinCount ≤ r.enum.position)
      inRange := r.inRange }
  | .reset =>
    some { s with
      enum := EnumPins.new s.pinVersion s.conn.sink
      listed := s.conn.sink.pinIds
      returned := []
      ended := false }
  | .sink a => (connectStep s.conn a).map fun conn =>
    { s with conn := conn, ended := s.ended && decide (conn.sink.pinIds = s.conn.sink.pinIds) }

/-- GetPin was called with indices of the list only, and an enumeration that ran to
    its end after the last change has returned every pin of the list once. -/
def EnumeratesList (s : Enumerating) : Prop :=
  s.inRange = true ∧ (s.ended = true → ∀ id ∈ s.conn.sink.pinIds, s.returned.count id = 1)

/-- Next finds the list that was there when the enumerator was made or Reset. -/
def FindsListed (s : Enumerating) : EnumAction → Prop
  | .next _ _ => s.conn.sink.pinIds = s.listed
  | _ => True

/-! Next on the list the enumerator knows. -/

/-- In a list without repetition, an element is not among those before it. -/
theorem getElem_not_mem_take {ids : List Nat} (hdis : ids.Nodup) {k : Nat} (hk : k < ids.length) :
    ids[k] ∉ ids.take k := by
  intro hmem
  have hsplit := List.take_append_drop k ids
  rw [← hsplit, List.drop_eq_getElem_cons hk] at hdis
  exact (List.nodup_append.mp hdis).2.2 _ hmem _ List.mem_cons_self rfl

/-- A turn of the loop that returns the pin at its position. -/
theorem fetch_turn {ids : List Nat} {e : EnumPins} (hlt : e.position < ids.length)
    (hfresh : ids[e.position] ∉ e.pinCache) (left want : Nat) (pins : List Nat) :
    fetch ids (left + 1) (want + 1) e pins = fetch ids left want
      { e with position := e.position + 1, pinCache := e.pinCache ++ [ids[e.position]] }
      (pins ++ [ids[e.position]]) := by
  have hne : ids ≠ [] := List.ne_nil_of_length_pos (by omega)
  rw [fetch, if_neg hne, List.getElem?_eq_getElem hlt]
  dsimp only
  rw [if_neg hfresh]

/-- The loop returns the pins from the enumerator's position up to some later one. -/
theorem fetch_listed {ids : List Nat} (hdis : ids.Nodup) : ∀ (left want : Nat) (e : EnumPins)
    (pins : List Nat), e.position + left = ids.length → e.pinCache = ids.take e.position →
    ∃ position, e.position ≤ position ∧ position ≤ ids.length ∧
      (fetch ids left want e pins).enum =
        { e with position := position, pinCache := ids.take position } ∧
      (fetch ids left want e pins).pins = pins ++ (ids.take position).drop e.position ∧
      (fetch ids left want e pins).inRange = true := by
  intro left
  induction left with
  | zero =>
    intro want e pins hpos hcache
    refine ⟨e.position, Nat.le_refl _, by omega, ?_, ?_, rfl⟩
    · rw [fetch, ← hcache]
    · rw [fetch, List.drop_eq_nil_of_le (List.length_take_le _ _), List.append_nil]
  | succ left ih =>
    intro want e pins hpos hcache
    cases want with
    | zero =>
      refine ⟨e.position, Nat.le_refl _, by omega, ?_, ?_, rfl⟩
      · rw [fetch, ← hcache]
      · rw [fetch, List.drop_eq_nil_of_le (List.length_take_le _ _), List.append_nil]
    | succ want =>
      have hlt : e.position < ids.length := by omega
      have hfresh : ids[e.position] ∉ e.pinCache := hcache ▸ getElem_not_mem_take hdis hlt
      have htake : ids.take e.position ++ [ids[e.position]] = ids.take (e.position + 1) :=
        List.take_append_getElem hlt
      obtain ⟨position, hle, hlen, henum, hpins, hrange⟩ := ih want
        { e with position := e.position + 1, pinCache := e.pinCache ++ [ids[e.position]] }
        (pins ++ [ids[e.position]]) (by dsimp only; omega) (by rw [hcache, htake])
      have hle' : e.position + 1 ≤ position := hle
      rw [fetch_turn hlt hfresh]
      refine ⟨position, by omega, hlen, henum, ?_, hrange⟩
      rw [hpins, List.append_assoc, List.singleton_append]
      have hltake : e.position < (ids.take position).length := by
        rw [List.length_take]
        omega
      rw [List.drop_eq_getElem_cons hltake, List.getElem_take]

/-- What holds as long as every Next finds the list it should. -/
structure InStep (s : Enumerating) : Prop where
  owned : Owned s.conn.sink
  distinct : s.listed.Nodup
  version : s.enum.version = s.pinVersion
  count : s.enum.pinCount = s.listed.length
  position : s.enum.position ≤ s.listed.length
  cache : s.enum.pinCache = s.listed.take s.enum.position
  returned : s.returned = s.listed.take s.enum.position
  inRange : s.inRange = true
  ended : s.ended = true → s.conn.sink.pinIds = s.listed ∧ s.listed.length ≤ s.enum.position

theorem InStep.enumeratesList {s : Enumerating} (h : InStep s) : EnumeratesList s := by
  refine ⟨h.inRange, fun hended id hid => ?_⟩
  obtain ⟨hlisted, hend⟩ := h.ended hended
  rw [h.returned, List.take_of_length_le hend]
  rw [hlisted] at hid
  exact List.count_eq_one_of_mem h.distinct hid

theorem owned_kept : KeptByCalls Owned where
  modify h hid _ _ := h.modifyPin hid
  add h hadd := h.addInputPin hadd
  rename h hset := Owned.step _ (.setStreamName _ _) _ h hset

/-- An enumerator that was just made or Reset. -/
theorem inStep_new {conn : Connections} (h : Owned conn.sink) (pinVersion : Nat) :
    InStep (Enumerating.new conn pinVersion) where
  owned := h
  distinct := h.distinct
  version := rfl
  count := (List.length_map _).symm
  position := Nat.zero_le _
  cache := rfl
  returned := rfl
  inRange := rfl
  ended hended := by cases hended

theorem InStep.next {s : Enumerating} (h : InStep s) (hids : s.conn.sink.pinIds = s.listed)
    (cPins : Nat) (pcFetched : Bool) {t : Enumerating}
    (hstep : enumStep s (.next cPins pcFetched) = some t) : InStep t := by
  have hon : ¬ s.inRange = false := by simp [h.inRange]
  rw [enumStep, if_neg hon] at hstep
  dsimp only at hstep
  cases hrefused : refused cPins pcFetched with
  | true =>
    have hnext : VirtualStreamSink.next s.pinVersion cPins pcFetched s.conn.sink s.enum =
        ⟨E_INVALIDARG, s.enum, [], true⟩ := by
      rw [VirtualStreamSink.next, if_pos hrefused]
    rw [hnext, hrefused] at hstep
    obtain rfl := Option.some.inj hstep
    refine ⟨h.owned, h.distinct, h.version, h.count, h.position, h.cache, ?_, rfl, h.ended⟩
    rw [List.append_nil]
    exact h.returned
  | false =>
    have hnext : VirtualStreamSink.next s.pinVersion cPins pcFetched s.conn.sink s.enum =
        fetch s.listed (s.enum.pinCount - s.enum.position) cPins s.enum [] := by
      rw [VirtualStreamSink.next, hrefused, if_neg Bool.false_ne_true, if_pos h.version, hids]
    rw [hnext, hrefused] at hstep
    obtain ⟨position, hle, hlen, henum, hpins, hrange⟩ := fetch_listed h.distinct
      (s.enum.pinCount - s.enum.position) cPins s.enum []
      (by have := h.count; have := h.position; omega) h.cache
    rw [henum, hpins, hrange] at hstep
    obtain rfl := Option.some.inj hstep
    refine ⟨h.owned, h.distinct, h.version, h.count, hlen, rfl, ?_, rfl, fun hended => ?_⟩
    · -- what was returned before, and what this call returned
      show s.returned ++ ([] ++ (s.listed.take position).drop s.enum.position) =
        s.listed.take position
      have hbefore : s.listed.take s.enum.position =
          (s.listed.take position).take s.enum.position := by
        rw [List.take_take, Nat.min_eq_left hle]
      rw [h.returned, List.nil_append, hbefore, List.take_append_drop]
    · refine ⟨hids, ?_⟩
      have hend : s.enum.pinCount ≤ position := of_decide_eq_true hended
      rw [h.count] at hend
      exact hend

theorem InStep.step (s : Enumerating) (a : EnumAction) (t : Enumerating) (h : InStep s)
    (hC : FindsListed s a) (hstep : enumStep s a = some t) : InStep t := by
  cases a with
  | next cPins pcFetched => exact h.next hC cPins pcFetched hstep
  | reset =>
    have hon : ¬ s.inRange = false := by simp [h.inRange]
    rw [enumStep, if_neg hon] at hstep
    obtain rfl := Option.some.inj hstep
    have hnew := inStep_new h.owned s.pinVersion
    exact ⟨h.owned, hnew.distinct, rfl, hnew.count, hnew.position, rfl, rfl, h.inRange,
      fun hended => by cases hended⟩
  | sink a =>
    have hon : ¬ s.inRange = false := by simp [h.inRange]
    rw [enumStep, if_neg hon] at hstep
    obtain ⟨conn, hconn, rfl⟩ := Option.map_eq_some_iff.mp hstep
    refine ⟨owned_kept.connectStep _ a _ h.owned hconn, h.distinct, h.version, h.count, h.position,
      h.cache, h.returned, h.inRange, fun hended => ?_⟩
    obtain ⟨hended, hsame⟩ := Bool.and_eq_true_iff.mp hended
    obtain ⟨hlisted, hend⟩ := h.ended hended
    exact ⟨(of_decide_eq_true hsame).trans hlisted, hend⟩

/-- **Pin enumeration stays in range**, and returns every pin once, in every run in
    which each Next finds the list the enumerator was made for or last Reset on. -/
theorem enumerated_in_range (tick : UInt32) (s : VirtualStreamSink)
    (hs : constructed tick = some s) (bs : List ConnectAction) (conn : Connections)
    (hconn : Transition.run connectStep ⟨s, 0⟩ bs = some conn) (pinVersion : Nat)
    (as : List EnumAction)
    (h : Transition.Meets enumStep FindsListed (Enumerating.new conn pinVersion) as) :
    Transition.Always enumStep EnumeratesList (Enumerating.new conn pinVersion) as := by
  have howned : Owned conn.sink := owned_kept.run (owned_run hs (Transition.run_nil s)) hconn
  exact Transition.always_of_meets (fun _ h => InStep.enumeratesList h) InStep.step as _
    (inStep_new howned pinVersion) h

/-- A sink whose pin was connected and disconnected again, which leaves two pins. -/
def usedOnce : List ConnectAction :=
  [.receiveConnection 0 true ⟨false, bareVideo, S_OK, S_OK, 0⟩, .disconnect 0 true S_OK]

/-- The sink is renamed between two Next calls: the second one reads behind the list. -/
theorem rename_overruns_enumerator :
    ∃ s conn, constructed 0 = some s ∧ Transition.run connectStep ⟨s, 0⟩ usedOnce = some conn ∧
      ¬ Transition.Always enumStep EnumeratesList (Enumerating.new conn 1)
        [.next 1 false, .sink (.setStreamName (wide "Cam") 0), .next 1 false] := by
  refine ⟨_, _, rfl, rfl, fun h => ?_⟩
  have hlast := Transition.always_iff_prefix.mp h _ (List.prefix_refl _) _ rfl
  exact absurd hlast.1 (by decide)

/-- Two pins returned one by one, and both again after a rename and a Reset. -/
theorem enumerated_in_range_reset :
    ∃ s conn, constructed 0 = some s ∧ Transition.run connectStep ⟨s, 0⟩ usedOnce = some conn ∧
      Transition.Always enumStep EnumeratesList (Enumerating.new conn 1)
        [.next 1 false, .next 2 true, .sink (.setStreamName (wide "Cam") 0), .reset, .next 2 true] :=
  ⟨_, _, rfl, rfl, enumerated_in_range 0 _ rfl usedOnce _ rfl 1 _
    (.cons rfl rfl (.cons rfl rfl (.cons rfl trivial (.cons rfl trivial (.cons rfl rfl trivial)))))⟩

/-! Next on another list. -/

/-- An enumerator that expects more pins than the list has reads behind it. -/
theorem fetch_overruns {ids : List Nat} (hne : ids ≠ []) : ∀ (left want : Nat) (e : EnumPins)
    (pins : List Nat), 0 < left → left ≤ want → ids.length < e.position + left →
    (fetch ids left want e pins).inRange = false := by
  intro left
  induction left with
  | zero =>
    intro want e pins hpos
    exact absurd hpos (Nat.lt_irrefl 0)
  | succ left ih =>
    intro want e pins _ hwant hlen
    obtain ⟨want, rfl⟩ := Nat.exists_eq_add_of_lt (Nat.lt_of_lt_of_le (Nat.succ_pos left) hwant)
    rw [Nat.zero_add, fetch, if_neg hne]
    cases hat : ids[e.position]? with
    | none => rfl
    | some id =>
      have hlt := (List.getElem?_eq_some_iff.mp hat).1
      dsimp only
      split
      · exact ih (want + 1) _ pins (by omega) (by omega) (by dsimp only; omega)
      · exact ih want _ _ (by omega) (by omega) (by dsimp only; omega)

/-- Running an enumeration to its end after the list has shrunk. -/
theorem shrunk_list_overruns {s : VirtualStreamSink} {e : EnumPins} {cPins : Nat}
    (hpins : s.pinList ≠ []) (hshrunk : s.pinList.length < e.pinCount)
    (hleft : e.position < e.pinCount) (hall : e.pinCount - e.position ≤ cPins) :
    (next e.version cPins true s e).inRange = false := by
  have hids : s.pinIds ≠ [] := fun h => hpins (List.map_eq_nil_iff.mp h)
  have hlen : s.pinIds.length = s.pinList.length := List.length_map _
  rw [next, refused, Bool.not_true, Bool.false_and, if_neg Bool.false_ne_true, if_pos rfl]
  exact fetch_overruns hids _ _ e [] (by omega) hall (by omega)

/-- Only pins before the expected end are returned. -/
theorem fetch_pins {ids : List Nat} : ∀ (left want : Nat) (e : EnumPins) (pins : List Nat),
    ∀ id ∈ (fetch ids left want e pins).pins, id ∈ pins ∨ id ∈ ids.take (e.position + left) := by
  intro left
  induction left with
  | zero =>
    intro want e pins id hid
    exact Or.inl hid
  | succ left ih =>
    intro want e pins id hid
    cases want with
    | zero => exact Or.inl hid
    | succ want =>
      rw [fetch] at hid
      split at hid
      · exact Or.inl hid
      split at hid
      · exact Or.inl hid
      · rename_i first hat
        have hsucc : e.position + 1 + left = e.position + (left + 1) := by omega
        dsimp only at hid
        split at hid
        · have hmem := ih _ _ pins id hid
          dsimp only at hmem
          rw [hsucc] at hmem
          exact hmem
        · have hmem := ih _ _ _ id hid
          dsimp only at hmem
          rw [hsucc] at hmem
          rcases hmem with hmem | hmem
          · rcases List.mem_append.mp hmem with hmem | hmem
            · exact Or.inl hmem
            · rw [List.mem_singleton.mp hmem]
              refine Or.inr (List.mem_of_getElem? (i := e.position) ?_)
              rw [List.getElem?_take_of_lt (by omega), hat]
          · exact Or.inr hmem

/-- The pins that a grown list has gained are not returned. -/
theorem grown_list_is_missed {s : VirtualStreamSink} {e : EnumPins} {cPins : Nat} {pcFetched : Bool}
    (hpos : e.position ≤ e.pinCount) :
    ∀ id ∈ (next e.version cPins pcFetched s e).pins, id ∈ s.pinIds.take e.pinCount := by
  intro id hid
  unfold next at hid
  split at hid
  · cases hid
  · rw [if_pos rfl] at hid
    rcases fetch_pins _ _ _ _ id hid with hmem | hmem
    · cases hmem
    · rw [Nat.add_sub_cancel' hpos] at hmem
      exact hmem

end VirtualStreamSink

end VirtualCaptureStream
