import VirtualCaptureStream.SinkEnumPins
import VirtualCaptureStream.SourcePinIds

/- Enumerating the source's pins while discoveries replace them. CSource does not change
   the pin version either, so that CEnumPins keeps the count it was made with; but its
   GetPin looks at the index, and Next says so where the sink reads behind its list.

   What is proved:
     `enumerated_pins_listed` — over every run of Next, Reset and discoveries, Next returns
     pins of the list only, none twice, and is out of sync only if the list has got shorter;
     and of a list that stays each Next returns the pins asked for from where the last one
     left off, so that enough of them return all of it.
     `reused_places_missed` — pins that a discovery has put where pins were that Next has
     returned are not returned.

   Correspondence (C++ ↔ Lean):
     `CEnumPins::Next` on a CSource         ↔ `nextPin`, `fetchPins`
     `CSource::GetPin`                      ↔ `getPin`
     the pin list the enumerator remembers  ↔ `EnumPins.pinCache`, of addresses

   The cache holds pointers that nothing is counted for: a discovery deletes the pins, and a
   new one can be where an old one was. `addr` says where each pin is. Calls come one after
   another: Next does not look at the list while a discovery is at it. -/
namespace VirtualCaptureStream

namespace VirtualStreamSource

open Transition (run Always)
open VirtualStreamSink (EnumPins refused)

/-- The pins of CSource's list, by their addresses. -/
def listed (addr : Nat → Nat) (s : VirtualStreamSource) : List Nat := s.paStreams.map addr

/-- What Next returns, leaves, and puts into the caller's array, also where it fails. -/
structure PinsFetched where
  hr : HRESULT
  enum : EnumPins
  pins : List Nat

/-- Next's loop, with `left` positions to go and `want` pins to fetch. -/
def fetchPins (addr : Nat → Nat) (s : VirtualStreamSource) :
    Nat → Nat → EnumPins → List Nat → PinsFetched
  | 0, want, e, pins => ⟨if want = 0 then S_OK else S_FALSE, e, pins⟩
  | _ + 1, 0, e, pins => ⟨S_OK, e, pins⟩
  | left + 1, want + 1, e, pins =>
    match s.getPin e.position with
    | none => ⟨VFW_E_ENUM_OUT_OF_SYNC, { e with position := e.position + 1 }, pins⟩
    | some n =>
      let e := { e with position := e.position + 1 }
      if addr n ∈ e.pinCache then fetchPins addr s left (want + 1) e pins
      else fetchPins addr s left want { e with pinCache := e.pinCache ++ [addr n] }
        (pins ++ [addr n])

/-- The constructor of CEnumPins, and Reset. -/
def enumPins (pinVersion : Nat) (s : VirtualStreamSource) : EnumPins where
  position := 0
  pinCount := s.paStreams.length
  version := pinVersion
  pinCache := []

def refreshPins (pinVersion : Nat) (s : VirtualStreamSource) (e : EnumPins) : EnumPins :=
  { e with position := 0, pinCount := s.paStreams.length, version := pinVersion }

/-- Next. -/
def nextPin (addr : Nat → Nat) (pinVersion cPins : Nat) (pcFetched : Bool)
    (s : VirtualStreamSource) (e : EnumPins) : PinsFetched :=
  if refused cPins pcFetched then ⟨E_INVALIDARG, e, []⟩
  else
    let e := if e.version = pinVersion then e else s.refreshPins pinVersion e
    fetchPins addr s (e.pinCount - e.position) cPins e []

/-- An enumerator on a source. `returned`: what Next has put into arrays since it was made or
    last Reset; `unchanged`: the list has not changed since then; `shrunk`: it has been shorter
    since than it was then; `outOfSync`: a Next since has failed; `onlyListed`: each Next
    returned pins of the list it found. -/
structure SourceEnumerating where
  source : VirtualStreamSource
  enum : EnumPins
  returned : List Nat
  unchanged : Bool
  shrunk : Bool
  outOfSync : Bool
  onlyListed : Bool

inductive SourceEnumAction where
  | next (cPins : Nat) (pcFetched : Bool)
  | reset
  | source (a : SourceAction)

namespace SourceEnumerating

def new (pinVersion : Nat) (s : VirtualStreamSource) : SourceEnumerating where
  source := s
  enum := s.enumPins pinVersion
  returned := []
  unchanged := true
  shrunk := false
  outOfSync := false
  onlyListed := true

/-- A call on the enumerator or on the source. No call changes the pin version, and two
    pins of the list are not in one place. -/
def step (addr : Nat → Nat) (pinVersion : Nat) (s : SourceEnumerating) :
    SourceEnumAction → Option SourceEnumerating
  | .next cPins pcFetched =>
    let r := nextPin addr pinVersion cPins pcFetched s.source s.enum
    some { s with
      enum := r.enum
      returned := s.returned ++ r.pins
      outOfSync := s.outOfSync || decide (r.hr = VFW_E_ENUM_OUT_OF_SYNC)
      onlyListed := s.onlyListed && decide (∀ p ∈ r.pins, p ∈ s.source.listed addr) }
  | .reset => some { new pinVersion s.source with onlyListed := s.onlyListed }
  | .source a =>
    (sourceStep s.source a).bind fun t =>
      if (t.listed addr).Nodup then
        some { s with
          source := t
          unchanged := s.unchanged && decide (t.paStreams = s.source.paStreams)
          shrunk := s.shrunk || decide (t.paStreams.length < s.enum.pinCount) }
      else none

end SourceEnumerating

/-! Next on any list. -/

/-- What the loop returns of the `k` positions it goes on. -/
def gained (ids : List Nat) (e : EnumPins) (k : Nat) : List Nat :=
  ((ids.drop e.position).take k).filter (· ∉ e.pinCache)

/-- How far the loop goes from `e`, and what it leaves. -/
structure Fetches (ids : List Nat) (left : Nat) (e : EnumPins) (pins : List Nat)
    (r : PinsFetched) (k : Nat) : Prop where
  upto : k ≤ left
  enum : r.enum = { e with
    position := e.position + k, pinCache := e.pinCache ++ gained ids e k }
  pins : r.pins = pins ++ gained ids e k
  outOfSync : r.hr = VFW_E_ENUM_OUT_OF_SYNC ↔ 0 < k ∧ ids.length < e.position + k

section
variable {addr : Nat → Nat} {s : VirtualStreamSource}

theorem gained_zero (ids : List Nat) (e : EnumPins) : gained ids e 0 = [] := by
  rw [gained, List.take_zero, List.filter_nil]

theorem gained_cached {ids : List Nat} {e : EnumPins} (hlt : e.position < ids.length)
    (hmem : ids[e.position] ∈ e.pinCache) (k : Nat) :
    gained ids e (k + 1) = gained ids { e with position := e.position + 1 } k := by
  rw [gained, List.drop_eq_getElem_cons hlt, List.take_succ_cons,
    List.filter_cons_of_neg (by simpa using hmem)]
  rfl

/-- A pin that is returned is not met again further on. -/
theorem gained_fresh {ids : List Nat} (hids : ids.Nodup) {e : EnumPins}
    (hlt : e.position < ids.length) (hfresh : ids[e.position] ∉ e.pinCache) (k : Nat) :
    gained ids e (k + 1) = ids[e.position] :: gained ids
      { e with position := e.position + 1, pinCache := e.pinCache ++ [ids[e.position]] } k := by
  rw [gained, List.drop_eq_getElem_cons hlt, List.take_succ_cons,
    List.filter_cons_of_pos (by simpa using hfresh)]
  refine congrArg _ (List.filter_congr fun p hp => ?_)
  have hsub : List.Sublist (ids.drop e.position) ids := List.drop_sublist _ _
  have hnodup := hids.sublist hsub
  rw [List.drop_eq_getElem_cons hlt] at hnodup
  have hne : p ≠ ids[e.position] := by
    rintro rfl
    exact (List.nodup_cons.mp hnodup).1 (List.mem_of_mem_take hp)
  simp [hne]

theorem fetchPins_fetches (hids : (s.listed addr).Nodup) : ∀ (left want : Nat) (e : EnumPins)
    (pins : List Nat), ∃ k,
      Fetches (s.listed addr) left e pins (fetchPins addr s left want e pins) k := by
  intro left
  induction left with
  | zero =>
    intro want e pins
    refine ⟨0, Nat.le_refl 0, ?_, ?_, ?_⟩
    · rw [fetchPins, gained_zero, List.append_nil]
      rfl
    · rw [fetchPins, gained_zero, List.append_nil]
    · rw [fetchPins]
      refine ⟨fun h => ?_, fun h => absurd h.1 (Nat.lt_irrefl 0)⟩
      dsimp only at h
      split at h <;> exact absurd h (by decide)
  | succ left ih =>
    intro want e pins
    cases want with
    | zero =>
      refine ⟨0, Nat.zero_le _, ?_, ?_, ?_⟩
      · rw [fetchPins, gained_zero, List.append_nil]
        rfl
      · rw [fetchPins, gained_zero, List.append_nil]
      · rw [fetchPins]
        refine ⟨fun h => ?_, fun h => absurd h.1 (Nat.lt_irrefl 0)⟩
        dsimp only at h
        exact absurd h (by decide)
    | succ want =>
      rw [fetchPins, getPin_natCast]
      cases hat : s.paStreams[e.position]? with
      | none =>
        have hlen : (s.listed addr).length ≤ e.position := by
          rw [listed, List.length_map]
          exact List.getElem?_eq_none_iff.mp hat
        have hnone : gained (s.listed addr) e 1 = [] := by
          rw [gained, List.drop_eq_nil_of_le hlen]
          rfl
        refine ⟨1, Nat.succ_le_succ (Nat.zero_le _), ?_, ?_, ?_⟩
        · rw [hnone, List.append_nil]
        · rw [hnone, List.append_nil]
        · exact ⟨fun _ => ⟨Nat.one_pos, Nat.lt_succ_of_le hlen⟩, fun _ => rfl⟩
      | some n =>
        obtain ⟨hlt, hget⟩ := List.getElem?_eq_some_iff.mp hat
        have hlt' : e.position < (s.listed addr).length := by
          rw [listed, List.length_map]
          exact hlt
        have hget' : (s.listed addr)[e.position] = addr n := by
          rw [← hget]
          exact List.getElem_map addr
        dsimp only
        split
        · rename_i hmem
          obtain ⟨k, hk⟩ := ih (want + 1) { e with position := e.position + 1 } pins
          have hgained := gained_cached hlt' (hget' ▸ hmem) k
          refine ⟨k + 1, Nat.succ_le_succ hk.upto, ?_, ?_, ?_⟩
          · rw [hk.enum, hgained, Nat.add_right_comm]
            rfl
          · rw [hk.pins, hgained]
          · rw [hk.outOfSync]
            dsimp only
            omega
        · rename_i hfresh
          obtain ⟨k, hk⟩ := ih want
            { e with position := e.position + 1, pinCache := e.pinCache ++ [addr n] }
            (pins ++ [addr n])
          have hgained := gained_fresh hids hlt' (hget' ▸ hfresh) k
          rw [hget'] at hgained
          refine ⟨k + 1, Nat.succ_le_succ hk.upto, ?_, ?_, ?_⟩
          · rw [hk.enum, hgained]
            simp [Nat.add_right_comm, Nat.add_assoc]
          · rw [hk.pins, hgained]
            simp
          · rw [hk.outOfSync]
            dsimp only
            omega

theorem nextPin_fetches {pinVersion : Nat} {e : EnumPins} (hids : (s.listed addr).Nodup)
    (hversion : e.version = pinVersion) (cPins : Nat) (pcFetched : Bool) :
    ∃ k, Fetches (s.listed addr) (e.pinCount - e.position) e []
      (nextPin addr pinVersion cPins pcFetched s e) k := by
  cases hrefused : refused cPins pcFetched with
  | true =>
    refine ⟨0, Nat.zero_le _, ?_, ?_, ?_⟩
    · rw [nextPin, if_pos hrefused, gained_zero, List.append_nil]
      rfl
    · rw [nextPin, if_pos hrefused, gained_zero]
      rfl
    · rw [nextPin, if_pos hrefused]
      refine ⟨fun h => ?_, fun h => absurd h.1 (Nat.lt_irrefl 0)⟩
      dsimp only at h
      exact absurd h (by decide)
  | false =>
    rw [nextPin, hrefused, if_neg Bool.false_ne_true, if_pos hversion]
    exact fetchPins_fetches hids _ cPins e []

/-- Where no pin ahead was returned before, the loop takes the pins in order. -/
theorem fetchPins_ahead (hids : (s.listed addr).Nodup) : ∀ (left want : Nat) (e : EnumPins)
    (pins : List Nat), e.position + left = (s.listed addr).length →
      (∀ p ∈ (s.listed addr).drop e.position, p ∉ e.pinCache) →
      (fetchPins addr s left want e pins).pins =
        pins ++ ((s.listed addr).drop e.position).take want ∧
      (fetchPins addr s left want e pins).hr = if want ≤ left then S_OK else S_FALSE := by
  intro left
  induction left with
  | zero =>
    intro want e pins hlen _
    rw [List.drop_eq_nil_of_le (by omega), List.take_nil, List.append_nil]
    refine ⟨rfl, ?_⟩
    simp only [fetchPins, Nat.le_zero]
  | succ left ih =>
    intro want e pins hlen hfresh
    cases want with
    | zero =>
      rw [List.take_zero, List.append_nil]
      exact ⟨rfl, rfl⟩
    | succ want =>
      have hlt : e.position < (s.listed addr).length := by omega
      have hlt' : e.position < s.paStreams.length := by rwa [listed, List.length_map] at hlt
      have hget : (s.listed addr)[e.position] = addr s.paStreams[e.position] :=
        List.getElem_map addr
      rw [List.drop_eq_getElem_cons hlt, hget] at hfresh ⊢
      have hnew := hfresh _ List.mem_cons_self
      rw [fetchPins, getPin_natCast, List.getElem?_eq_getElem hlt']
      dsimp only
      rw [if_neg hnew]
      obtain ⟨hpins, hhr⟩ := ih want
        { e with
          position := e.position + 1, pinCache := e.pinCache ++ [addr s.paStreams[e.position]] }
        (pins ++ [addr s.paStreams[e.position]]) (by dsimp only; omega) fun p hp hmem => by
          rcases List.mem_append.mp hmem with hmem | hmem
          · exact hfresh p (List.mem_cons_of_mem _ hp) hmem
          · -- the pin that was just returned is not there again
            have hdrop := hids.sublist (List.drop_sublist e.position _)
            rw [List.drop_eq_getElem_cons hlt, hget, ← List.mem_singleton.mp hmem] at hdrop
            exact (List.nodup_cons.mp hdrop).1 hp
      refine ⟨?_, hhr.trans ?_⟩
      · rw [hpins, List.take_succ_cons, List.append_assoc, List.singleton_append]
      · simp only [Nat.succ_le_succ_iff]

/-- New pins in the places of returned ones are taken for them. -/
theorem reused_places_missed {pinVersion cPins : Nat} {pcFetched : Bool} {e : EnumPins}
    (hids : (s.listed addr).Nodup) (hversion : e.version = pinVersion)
    (hreused : ∀ p ∈ s.listed addr, p ∈ e.pinCache) :
    (nextPin addr pinVersion cPins pcFetched s e).pins = [] := by
  obtain ⟨k, hk⟩ := nextPin_fetches hids hversion cPins pcFetched
  rw [hk.pins, List.nil_append, gained, List.filter_eq_nil_iff]
  intro p hp
  have hmem : p ∈ s.listed addr := List.mem_of_mem_drop (List.mem_of_mem_take hp)
  simpa using hreused p hmem

end

/-! Runs. -/

namespace SourceEnumerating

/-- Next returns pins of the list, none twice; it is out of sync only with a list that has
    got shorter. Of a list that stays a Next that is not refused returns the next `cPins`
    pins, or those that are left; `n` of them return all that is left if it is no more. -/
structure EnumeratesPins (addr : Nat → Nat) (pinVersion : Nat) (s : SourceEnumerating) : Prop where
  listed : s.onlyListed = true
  once : s.returned.Nodup
  inSync : s.outOfSync = true → s.shrunk = true
  upto : s.unchanged = true → s.returned = (s.source.listed addr).take s.returned.length
  ended : s.unchanged = true → s.enum.pinCount ≤ s.enum.position →
    s.returned = s.source.listed addr
  next : s.unchanged = true → ∀ cPins pcFetched, refused cPins pcFetched = false →
    (nextPin addr pinVersion cPins pcFetched s.source s.enum).pins =
        ((s.source.listed addr).drop s.returned.length).take cPins ∧
      (nextPin addr pinVersion cPins pcFetched s.source s.enum).hr =
        if s.returned.length + cPins ≤ (s.source.listed addr).length then S_OK else S_FALSE
  all : s.unchanged = true → ∀ n cPins pcFetched, refused cPins pcFetched = false →
    (s.source.listed addr).length ≤ s.returned.length + n * cPins →
    ∃ t, run (step addr pinVersion) s (List.replicate n (.next cPins pcFetched)) = some t ∧
      t.source = s.source ∧ t.returned = s.source.listed addr

/-- What the enumerator knows of the list. -/
structure Tracks (addr : Nat → Nat) (pinVersion : Nat) (s : SourceEnumerating) : Prop where
  distinct : (s.source.listed addr).Nodup
  version : s.enum.version = pinVersion
  position : s.enum.position ≤ s.enum.pinCount
  cache : s.enum.pinCache = s.returned
  once : s.returned.Nodup
  long : s.shrunk = false → s.enum.pinCount ≤ s.source.paStreams.length
  same : s.unchanged = true → s.enum.pinCount = s.source.paStreams.length ∧
    s.returned = (s.source.listed addr).take s.enum.position
  inSync : s.outOfSync = true → s.shrunk = true
  onlyListed : s.onlyListed = true

section
variable {addr : Nat → Nat} {pinVersion : Nat} {s t : SourceEnumerating}

/-- Of a list that stays the pins before the position have been returned. -/
theorem Tracks.place (h : s.Tracks addr pinVersion) (hsame : s.unchanged = true) :
    s.enum.position = s.returned.length ∧
      s.enum.pinCount = (s.source.listed addr).length ∧
      s.returned = (s.source.listed addr).take s.returned.length := by
  obtain ⟨hcount, hreturned⟩ := h.same hsame
  have hlisted : (s.source.listed addr).length = s.source.paStreams.length := List.length_map _
  have hpos := h.position
  have hlen := congrArg List.length hreturned
  rw [List.length_take] at hlen
  have heq : s.enum.position = s.returned.length := by omega
  exact ⟨heq, hcount.trans hlisted.symm, heq ▸ hreturned⟩

theorem Tracks.next_ahead (h : s.Tracks addr pinVersion) (hsame : s.unchanged = true) {cPins : Nat}
    {pcFetched : Bool} (hasked : refused cPins pcFetched = false) :
    (nextPin addr pinVersion cPins pcFetched s.source s.enum).pins =
        ((s.source.listed addr).drop s.returned.length).take cPins ∧
      (nextPin addr pinVersion cPins pcFetched s.source s.enum).hr =
        if s.returned.length + cPins ≤ (s.source.listed addr).length then S_OK else S_FALSE := by
  obtain ⟨hposition, hcount, hreturned⟩ := h.place hsame
  have hle : s.enum.position ≤ (s.source.listed addr).length := hcount ▸ h.position
  have hfresh : ∀ p ∈ (s.source.listed addr).drop s.enum.position, p ∉ s.enum.pinCache := by
    intro p hp hmem
    rw [h.cache, hreturned, ← hposition] at hmem
    have hids := h.distinct
    rw [← List.take_append_drop s.enum.position (s.source.listed addr)] at hids
    exact (List.nodup_append.mp hids).2.2 p hmem p hp rfl
  obtain ⟨hpins, hhr⟩ := fetchPins_ahead h.distinct (s.enum.pinCount - s.enum.position) cPins
    s.enum [] (by omega) hfresh
  rw [nextPin, hasked, if_neg Bool.false_ne_true, if_pos h.version]
  refine ⟨hpins.trans (by rw [List.nil_append, hposition]), hhr.trans ?_⟩
  rw [hposition, hcount]
  exact if_congr (by omega) rfl rfl

theorem tracks_new (pinVersion : Nat) {source : VirtualStreamSource}
    (hids : (source.listed addr).Nodup) :
    (new pinVersion source).Tracks addr pinVersion where
  distinct := hids
  version := rfl
  position := Nat.zero_le _
  cache := rfl
  once := List.nodup_nil
  long _ := Nat.le_refl _
  same _ := ⟨rfl, rfl⟩
  inSync h := by cases h
  onlyListed := rfl

theorem mem_gained {ids : List Nat} {e : EnumPins} {k p : Nat} (hp : p ∈ gained ids e k) :
    p ∈ ids ∧ p ∉ e.pinCache := by
  obtain ⟨hmem, hfresh⟩ := List.mem_filter.mp hp
  exact ⟨List.mem_of_mem_drop (List.mem_of_mem_take hmem), of_decide_eq_true hfresh⟩

theorem nodup_gained {ids : List Nat} (hids : ids.Nodup) (e : EnumPins) (k : Nat) :
    (gained ids e k).Nodup := by
  have hdrop := hids.sublist (List.drop_sublist e.position ids)
  exact (hdrop.sublist (List.take_sublist k _)).filter _

/-- A list of which the first pins were returned. -/
theorem gained_next {ids : List Nat} (hids : ids.Nodup) {e : EnumPins}
    (hcache : e.pinCache = ids.take e.position) (k : Nat) :
    ids.take e.position ++ gained ids e k = ids.take (e.position + k) := by
  have hall : gained ids e k = (ids.drop e.position).take k := by
    rw [gained, List.filter_eq_self]
    intro p hp
    rw [decide_eq_true_eq, hcache]
    intro hmem
    rw [← List.take_append_drop e.position ids] at hids
    exact (List.nodup_append.mp hids).2.2 p hmem p (List.mem_of_mem_take hp) rfl
  rw [hall, List.take_add]

theorem Tracks.next {cPins : Nat} {pcFetched : Bool} (h : s.Tracks addr pinVersion)
    (hstep : step addr pinVersion s (.next cPins pcFetched) = some t) :
    t.Tracks addr pinVersion := by
  obtain rfl := Option.some.inj hstep
  obtain ⟨k, hk⟩ := nextPin_fetches h.distinct h.version cPins pcFetched
  have hupto : s.enum.position + k ≤ s.enum.pinCount := by
    have hle := hk.upto
    have hpos := h.position
    omega
  have hpins := hk.pins
  rw [List.nil_append] at hpins
  constructor
  case distinct => exact h.distinct
  case version =>
    rw [hk.enum]
    exact h.version
  case position =>
    rw [hk.enum]
    exact hupto
  case cache =>
    rw [hk.enum, hpins, ← h.cache]
  case once =>
    rw [hpins]
    refine List.nodup_append.mpr ⟨h.once, nodup_gained h.distinct _ _, ?_⟩
    rintro p hp q hq rfl
    exact (mem_gained hq).2 (h.cache ▸ hp)
  case long =>
    rw [hk.enum]
    exact h.long
  case same =>
    intro hsame
    obtain ⟨hcount, hreturned⟩ := h.same hsame
    have hcache : s.enum.pinCache = (s.source.listed addr).take s.enum.position :=
      h.cache.trans hreturned
    rw [hpins, hk.enum]
    refine ⟨hcount, ?_⟩
    dsimp only
    rw [hreturned, gained_next h.distinct hcache]
  case inSync =>
    intro hout
    rcases Bool.or_eq_true_iff.mp hout with hout | hout
    · exact h.inSync hout
    · -- the loop has gone beyond the list, and not beyond the count
      obtain ⟨-, hlt⟩ := hk.outOfSync.mp (of_decide_eq_true hout)
      rw [listed, List.length_map] at hlt
      by_contra hno
      have hlong := h.long (Bool.eq_false_iff.mpr hno)
      omega
  case onlyListed =>
    refine Bool.and_eq_true_iff.mpr ⟨h.onlyListed, decide_eq_true fun p hp => ?_⟩
    rw [hpins] at hp
    exact (mem_gained hp).1

theorem Tracks.source {a : SourceAction} (h : s.Tracks addr pinVersion)
    (hstep : step addr pinVersion s (.source a) = some t) : t.Tracks addr pinVersion := by
  obtain ⟨u, -, hstep⟩ := Option.bind_eq_some_iff.mp hstep
  rw [Option.ite_none_right_eq_some] at hstep
  obtain ⟨hids, hstep⟩ := hstep
  obtain rfl := Option.some.inj hstep
  refine ⟨hids, h.version, h.position, h.cache, h.once, fun hshrunk => ?_, fun hsame => ?_,
    fun hout => ?_, h.onlyListed⟩
  · obtain ⟨-, hshrunk⟩ := Bool.or_eq_false_iff.mp hshrunk
    exact Nat.le_of_not_lt (of_decide_eq_false hshrunk)
  · obtain ⟨hsame, heq⟩ := Bool.and_eq_true_iff.mp hsame
    have hlist : u.paStreams = s.source.paStreams := of_decide_eq_true heq
    dsimp only
    rw [listed, hlist]
    exact h.same hsame
  · exact Bool.or_eq_true_iff.mpr (Or.inl (h.inSync hout))

theorem Tracks.step (s : SourceEnumerating) (a : SourceEnumAction) (t : SourceEnumerating)
    (h : s.Tracks addr pinVersion) (hstep : step addr pinVersion s a = some t) :
    t.Tracks addr pinVersion := by
  cases a with
  | next cPins pcFetched => exact h.next hstep
  | reset =>
    obtain rfl := Option.some.inj hstep
    have hnew := tracks_new pinVersion h.distinct
    exact ⟨hnew.distinct, hnew.version, hnew.position, hnew.cache, hnew.once, hnew.long, hnew.same,
      hnew.inSync, h.onlyListed⟩
  | source a => exact h.source hstep

/-- Enough calls of Next return what is left of a list that stays. -/
theorem Tracks.all {cPins : Nat} {pcFetched : Bool} (hasked : refused cPins pcFetched = false) :
    ∀ (n : Nat) (s : SourceEnumerating), s.Tracks addr pinVersion → s.unchanged = true →
      (s.source.listed addr).length ≤ s.returned.length + n * cPins →
      ∃ t, run (SourceEnumerating.step addr pinVersion) s
          (List.replicate n (.next cPins pcFetched)) = some t ∧
        t.source = s.source ∧ t.returned = s.source.listed addr := by
  intro n
  induction n with
  | zero =>
    intro s h hsame hleft
    obtain ⟨-, -, hreturned⟩ := h.place hsame
    refine ⟨s, rfl, rfl, ?_⟩
    rw [hreturned, List.take_of_length_le (by omega)]
  | succ n ih =>
    intro s h hsame hleft
    obtain ⟨t, hstep⟩ : ∃ t, s.step addr pinVersion (.next cPins pcFetched) = some t := ⟨_, rfl⟩
    have ht := h.next hstep
    obtain ⟨-, -, hreturned⟩ := h.place hsame
    have hpins := (h.next_ahead hsame hasked).1
    obtain rfl := Option.some.inj hstep
    have hnow : s.returned ++ (nextPin addr pinVersion cPins pcFetched s.source s.enum).pins =
        (s.source.listed addr).take (s.returned.length + cPins) := by
      rw [hpins, List.take_add, ← hreturned]
    obtain ⟨u, hrun, hsource, hall⟩ := ih _ ht hsame (by
      show _ ≤ (s.returned ++ (nextPin addr pinVersion cPins pcFetched s.source s.enum).pins).length
        + n * cPins
      rw [hnow, List.length_take]
      rw [Nat.succ_mul] at hleft
      dsimp only
      omega)
    exact ⟨u, Transition.run_cons.mpr ⟨_, rfl, hrun⟩, hsource, hall⟩

theorem Tracks.enumeratesPins (h : s.Tracks addr pinVersion) :
    s.EnumeratesPins addr pinVersion :=
  ⟨h.onlyListed, h.once, h.inSync, fun hsame => (h.place hsame).2.2, fun hsame hend => by
      obtain ⟨hposition, hcount, hreturned⟩ := h.place hsame
      rw [hreturned, List.take_of_length_le (by omega)],
    fun hsame _ _ hasked => h.next_ahead hsame hasked,
    fun hsame n _ _ hasked hleft => Tracks.all hasked n s h hsame hleft⟩

end

/-- **Enumerating the source** is safe whatever the discoveries do, and complete while they
    do nothing. -/
theorem enumerated_pins_listed (addr : Nat → Nat) (pinVersion : Nat) (as : List SourceEnumAction) :
    Always (step addr pinVersion) (EnumeratesPins addr pinVersion) (new pinVersion constructed) as :=
  Transition.always_of_invariant (fun _ h => Tracks.enumeratesPins h) Tracks.step as _
    (tracks_new pinVersion List.nodup_nil)

end SourceEnumerating

end VirtualStreamSource

end VirtualCaptureStream
