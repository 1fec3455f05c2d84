import VirtualCaptureStream.SinkFilter
import VirtualCaptureStream.SourcePinLists

/- The ids of the source's pins. A graph that is saved keeps the ids of its pins and
   finds the pins by them when it is loaded. QueryId prints the pin's place in CSource's
   list, counted from 1; FindPin reads a number off any string and takes 1 from it.

   What is proved:
     1. `ids_find_pins` — over every run of discoveries, each pin is found by its own id,
        and by no string off which another number is read.
     2. `ids_name_sink_pins` — after a discovery, and until the next, the id `k + 1` finds
        the pin of the sink's `k`-th connected pin.

   Correspondence (C++ ↔ Lean):
     `IntToWstr`                            ↔ `intToWstr`
     `WstrToInt`, which is `_wtoi`          ↔ `wtoi`
     `CSource::FindPinNumber`, `GetPin`     ↔ `findPinNumber`, `getPin`
     `CSource::FindPin`                     ↔ `findPin`
     `CSourceStream::QueryId`               ↔ `queryId`

   An `int` is an integer between -2^31 and 2^31, and `m_iPins` is one. -/
namespace VirtualCaptureStream

def VFW_E_NOT_FOUND : HRESULT := Int32.ofBitVec 0x80040216#32

def INT_MIN : Int := -2147483648
def INT_MAX : Int := 2147483647

/-- What the C library takes for white space and for digits. The ASCII digits are among
    its digits, and no digit is white space or a sign. -/
structure CType where
  iswspace : WChar → Bool
  digit : WChar → Option Nat
  digit_ascii : ∀ d, d < 10 → digit (UInt16.ofNat (48 + d)) = some d
  digit_not_space : ∀ c, (digit c).isSome = true → iswspace c = false
  digit_not_sign : ∀ c, (digit c).isSome = true → c ≠ 43 ∧ c ≠ 45

/-- The "C" locale. -/
def CType.ascii : CType where
  iswspace c := c = 32 ∨ (9 ≤ c ∧ c ≤ 13)
  digit c := if 48 ≤ c ∧ c ≤ 57 then some (c.toNat - 48) else none
  digit_ascii := by decide
  digit_not_space c h := by
    split at h
    · rename_i hc
      obtain ⟨hlow, -⟩ := hc
      rw [UInt16.le_iff_toNat_le] at hlow
      have h48 : (48 : UInt16).toNat = 48 := rfl
      simp only [decide_eq_false_iff_not, not_or, not_and, UInt16.le_iff_toNat_le,
        ← UInt16.toNat_inj]
      refine ⟨fun e => ?_, fun _ hhigh => ?_⟩
      · have h32 : (32 : UInt16).toNat = 32 := rfl
        omega
      · have h13 : (13 : UInt16).toNat = 13 := rfl
        omega
    · cases h
  digit_not_sign c h := by
    split at h
    · rename_i hc
      constructor <;> rintro rfl <;> exact absurd hc.1 (by decide)
    · cases h

namespace CType

variable (crt : CType)

/-- The number that the leading digits are, after `acc`. -/
def readDigits (acc : Nat) : WStr → Nat
  | [] => acc
  | c :: cs =>
    match crt.digit c with
    | some d => readDigits (10 * acc + d) cs
    | none => acc

/-- `_wtoi`: white space, a sign, digits. A number that is no `int` gives the nearest. -/
def wtoi (s : WStr) : Int :=
  match s.dropWhile crt.iswspace with
  | [] => 0
  | c :: cs =>
    if c = 45 then max INT_MIN (-(crt.readDigits 0 cs : Int))
    else if c = 43 then min INT_MAX (crt.readDigits 0 cs : Int)
    else min INT_MAX (crt.readDigits 0 (c :: cs) : Int)

end CType

/-- `%d`, in a buffer of 12 characters. -/
def intToWstr (i : Int) : WStr :=
  let digits := if i < 0 then 45 :: decimal i.natAbs else decimal i.natAbs
  if digits.length < 12 then digits else []

namespace VirtualStreamSource

/-- CSource::FindPinNumber, of the pin with number `n`. -/
def findPinNumber (s : VirtualStreamSource) (n : Nat) : Int :=
  match s.paStreams.idxOf? n with
  | some i => i
  | none => -1

/-- CSource::GetPin. -/
def getPin (s : VirtualStreamSource) (i : Int) : Option Nat :=
  if 0 ≤ i ∧ i < s.paStreams.length then s.paStreams[i.toNat]? else none

/-- CSource::FindPin. The subtraction wraps. -/
def findPin (crt : CType) (s : VirtualStreamSource) (id : WStr) : HRESULT × Option Nat :=
  match s.getPin ((crt.wtoi id - 1).bmod (2 ^ 32)) with
  | some n => (S_OK, some n)
  | none => (VFW_E_NOT_FOUND, none)

/-- CSourceStream::QueryId; `alloc`: CoTaskMemAlloc succeeds. -/
def queryId (alloc : Bool) (s : VirtualStreamSource) (n : Nat) : HRESULT × Option WStr :=
  let i := 1 + s.findPinNumber n
  if i < 1 then (VFW_E_NOT_FOUND, none)
  else if alloc = false then (E_OUTOFMEMORY, none)
  else (S_OK, some (intToWstr i))

end VirtualStreamSource

/-! A number is read as it was printed. -/

/-- A decimal digit is printed as its ASCII character. -/
theorem digit_of_mem_toDigits {n : Nat} {c : Char} (h : c ∈ Nat.toDigits 10 n) :
    c.toNat - 48 < 10 ∧ UInt16.ofNat c.toNat = UInt16.ofNat (48 + (c.toNat - 48)) := by
  have hdigit := Nat.isDigit_of_mem_toDigits (by decide) (by decide) h
  simp only [Char.isDigit, Bool.and_eq_true, decide_eq_true_eq] at hdigit
  have h48 : 48 ≤ c.toNat := UInt32.le_iff_toNat_le.mp hdigit.1
  have h57 : c.toNat ≤ 57 := UInt32.le_iff_toNat_le.mp hdigit.2
  refine ⟨by omega, ?_⟩
  rw [Nat.add_sub_cancel' h48]

namespace CType

variable {crt : CType}

/-- The induction is on the digits that are left. -/
theorem readDigits_digits {cs : List Char} (acc : Nat)
    (h : ∀ c ∈ cs, c.toNat - 48 < 10 ∧ UInt16.ofNat c.toNat = UInt16.ofNat (48 + (c.toNat - 48))) :
    crt.readDigits acc (cs.map fun c => UInt16.ofNat c.toNat) = Nat.ofDigitChars 10 cs acc := by
  induction cs generalizing acc with
  | nil => rw [List.map_nil, readDigits, Nat.ofDigitChars_nil]
  | cons c cs ih =>
    obtain ⟨hlt, hc⟩ := h c List.mem_cons_self
    have hdigit : crt.digit (UInt16.ofNat c.toNat) = some (c.toNat - 48) := by
      rw [hc]
      exact crt.digit_ascii _ hlt
    rw [List.map_cons, readDigits, hdigit, Nat.ofDigitChars_cons]
    exact ih _ fun c' hc' => h c' (List.mem_cons_of_mem c hc')

theorem readDigits_decimal (n : Nat) : crt.readDigits 0 (decimal n) = n := by
  rw [decimal, readDigits_digits 0 fun c hc => digit_of_mem_toDigits hc]
  exact Nat.ofDigitChars_ten_toDigits

theorem wtoi_decimal {n : Nat} (h : n < 2 ^ 31) : crt.wtoi (decimal n) = n := by
  have hread := crt.readDigits_decimal n
  cases hdec : decimal n with
  | nil =>
    have hnil : Nat.toDigits 10 n = [] := List.map_eq_nil_iff.mp hdec
    exact absurd hnil Nat.toDigits_ne_nil
  | cons c cs =>
    obtain ⟨ch, hmem, rfl⟩ : ∃ ch ∈ Nat.toDigits 10 n, UInt16.ofNat ch.toNat = c := by
      have hc : c ∈ decimal n := hdec ▸ List.mem_cons_self
      exact List.mem_map.mp hc
    obtain ⟨hlt, hch⟩ := digit_of_mem_toDigits hmem
    have hdigit : (crt.digit (UInt16.ofNat ch.toNat)).isSome = true := by
      rw [hch, crt.digit_ascii _ hlt]
      rfl
    obtain ⟨hplus, hminus⟩ := crt.digit_not_sign _ hdigit
    have hdrop : (UInt16.ofNat ch.toNat :: cs).dropWhile crt.iswspace =
        UInt16.ofNat ch.toNat :: cs := by
      rw [List.dropWhile_cons, crt.digit_not_space _ hdigit]
      rfl
    rw [hdec] at hread
    rw [wtoi, hdrop]
    simp only [if_neg hminus, if_neg hplus, hread, INT_MAX]
    omega

theorem wtoi_bounds (s : WStr) : -2147483648 ≤ crt.wtoi s ∧ crt.wtoi s ≤ 2147483647 := by
  unfold wtoi INT_MIN INT_MAX
  split
  · decide
  · split
    · omega
    · split <;> omega

end CType

theorem intToWstr_eq {n : Nat} (h : n < 2 ^ 31) : intToWstr n = decimal n := by
  have hlen : (decimal n).length < 12 := by
    rw [decimal, List.length_map]
    have := (Nat.length_toDigits_le_iff (b := 10) (n := n) (k := 10) (by decide) (by decide)).mpr
      (by omega)
    omega
  simp only [intToWstr, Int.natAbs_natCast, if_pos hlen, if_neg (Int.not_lt.mpr (Int.natCast_nonneg n))]

namespace VirtualStreamSource

open Transition (run)

/-! Places and ids. -/

section
variable {crt : CType} {s : VirtualStreamSource}

theorem getPin_natCast (k : Nat) : s.getPin k = s.paStreams[k]? := by
  unfold getPin
  by_cases hk : k < s.paStreams.length
  · rw [if_pos ⟨Int.natCast_nonneg k, Int.ofNat_lt.mpr hk⟩, Int.toNat_natCast]
  · rw [if_neg fun h => hk (Int.ofNat_lt.mp h.2), List.getElem?_eq_none (Nat.le_of_not_lt hk)]

theorem getPin_eq_some {i : Int} {n : Nat} (h : s.getPin i = some n) :
    ∃ k : Nat, i = k ∧ s.paStreams[k]? = some n := by
  unfold getPin at h
  rw [Option.ite_none_right_eq_some] at h
  obtain ⟨⟨hnonneg, -⟩, hget⟩ := h
  exact ⟨i.toNat, (Int.toNat_of_nonneg hnonneg).symm, hget⟩

/-- The subtraction wraps for the least `int` only. -/
theorem wtoi_sub_one (crt : CType) (id : WStr) :
    (crt.wtoi id - 1).bmod (2 ^ 32) = crt.wtoi id - 1 ∨
      (crt.wtoi id - 1).bmod (2 ^ 32) = 2147483647 ∧ crt.wtoi id = -2147483648 := by
  obtain ⟨hlow, hhigh⟩ := crt.wtoi_bounds id
  by_cases hmin : crt.wtoi id = -2147483648
  · refine Or.inr ⟨?_, hmin⟩
    rw [hmin]
    rfl
  · refine Or.inl ?_
    rw [Int.bmod_def]
    split <;> omega

/-- FindPin looks at the number in the string and at nothing else of it. -/
theorem findPin_eq_some_iff (hint : s.paStreams.length < 2 ^ 31) {id : WStr} {n : Nat} :
    findPin crt s id = (S_OK, some n) ↔
      ∃ k : Nat, crt.wtoi id = k + 1 ∧ s.paStreams[k]? = some n := by
  unfold findPin
  refine ⟨fun h => ?_, ?_⟩
  · split at h
    · rename_i m hget
      obtain rfl := Option.some.inj (Prod.mk.inj h).2
      obtain ⟨k, hk, hat⟩ := getPin_eq_some hget
      have hlt : k < s.paStreams.length := (List.getElem?_eq_some_iff.mp hat).1
      refine ⟨k, ?_, hat⟩
      rcases wtoi_sub_one crt id with e | ⟨e, -⟩
      · omega
      · omega
    · cases (Prod.mk.inj h).2
  · rintro ⟨k, hid, hat⟩
    have hlt : k < s.paStreams.length := (List.getElem?_eq_some_iff.mp hat).1
    have hwrap : (crt.wtoi id - 1).bmod (2 ^ 32) = k := by
      rcases wtoi_sub_one crt id with e | ⟨-, e⟩
      · omega
      · omega
    rw [hwrap, getPin_natCast, hat]

theorem findPin_eq_none {id : WStr} (h : ∀ n, findPin crt s id ≠ (S_OK, some n)) :
    findPin crt s id = (VFW_E_NOT_FOUND, none) := by
  have hfound := h
  unfold findPin at hfound ⊢
  split
  · rename_i n hget
    rw [hget] at hfound
    exact absurd rfl (hfound n)
  · rfl

/-- QueryId prints the place of a pin. -/
theorem queryId_of_place (hnodup : s.paStreams.Nodup) (hint : s.paStreams.length < 2 ^ 31) {k n : Nat}
    (hat : s.paStreams[k]? = some n) : queryId true s n = (S_OK, some (decimal (k + 1))) := by
  obtain ⟨hlt, hk⟩ := List.getElem?_eq_some_iff.mp hat
  have hplace : s.findPinNumber n = k := by
    have hfirst : s.paStreams.idxOf? n = some k := by
      refine List.idxOf?_eq_some_iff.mpr ⟨hlt, hk, fun j hj e => ?_⟩
      exact absurd (hnodup.getElem_inj_iff.mp (e.trans hk.symm)) (Nat.ne_of_lt hj)
    rw [findPinNumber, hfirst]
  have hsum : (1 + (k : Int)) = ((k + 1 : Nat) : Int) := by omega
  have hpos : ¬ ((k + 1 : Nat) : Int) < 1 := by omega
  simp only [queryId, hplace, hsum, if_neg hpos, Bool.true_eq_false, if_false,
    intToWstr_eq (show k + 1 < 2 ^ 31 by omega)]

theorem queryId_of_unlisted {n : Nat} (h : n ∉ s.paStreams) (alloc : Bool) :
    queryId alloc s n = (VFW_E_NOT_FOUND, none) := by
  have hplace : s.findPinNumber n = -1 := by
    rw [findPinNumber, List.idxOf?_eq_none_iff.mpr h]
  simp [queryId, hplace]

end

/-! Runs. -/

/-- The id of a pin is the place of its record in the discovery, and finds the pin; a
    string finds a pin exactly by the number that is read off it. -/
structure IdsFindPins (crt : CType) (s : VirtualStreamSource) : Prop where
  place : ∀ (k : Nat) (p : SourcePin), s.pinList[k]? = some p →
    queryId true s p.id = (S_OK, some (decimal (k + 1)))
  found : ∀ p ∈ s.pinList, ∀ id, queryId true s p.id = (S_OK, some id) →
    findPin crt s id = (S_OK, some p.id)
  found_iff : ∀ id n, findPin crt s id = (S_OK, some n) ↔
    ∃ (k : Nat) (p : SourcePin), s.pinList[k]? = some p ∧ p.id = n ∧ crt.wtoi id = k + 1
  refused : ∀ id, ¬ (1 ≤ crt.wtoi id ∧ crt.wtoi id ≤ s.pinList.length) →
    findPin crt s id = (VFW_E_NOT_FOUND, none)

theorem Owned.idsFindPins {s : VirtualStreamSource} (h : Owned s) (crt : CType)
    (hint : s.pinList.length < 2 ^ 31) : IdsFindPins crt s := by
  have hlen : s.paStreams.length = s.pinList.length := by rw [← h.same, List.length_map]
  have hint' : s.paStreams.length < 2 ^ 31 := hlen ▸ hint
  have hplace : ∀ {k : Nat} {p : SourcePin}, s.pinList[k]? = some p →
      s.paStreams[k]? = some p.id := by
    intro k p hp
    rw [← h.same, List.getElem?_map, hp]
    rfl
  have hplaced : ∀ {k n : Nat}, s.paStreams[k]? = some n →
      ∃ p, s.pinList[k]? = some p ∧ p.id = n := by
    intro k n hn
    rw [← h.same, List.getElem?_map] at hn
    exact Option.map_eq_some_iff.mp hn
  have hid : ∀ {k : Nat} {p : SourcePin}, s.pinList[k]? = some p →
      queryId true s p.id = (S_OK, some (decimal (k + 1))) :=
    fun hp => queryId_of_place h.accounts.nodup hint' (hplace hp)
  refine ⟨fun k p => hid, fun p hp id hquery => ?_,
    fun id n => ⟨fun hfind => ?_, fun ⟨k, p, hp, hpn, hread⟩ => ?_⟩, fun id hno => ?_⟩
  · obtain ⟨k, hk⟩ := List.mem_iff_getElem?.mp hp
    have hlt : k < s.pinList.length := (List.getElem?_eq_some_iff.mp hk).1
    obtain rfl : decimal (k + 1) = id := by
      rw [hid hk] at hquery
      exact Option.some.inj (Prod.mk.inj hquery).2
    refine (findPin_eq_some_iff hint').mpr ⟨k, ?_, hplace hk⟩
    rw [CType.wtoi_decimal (by omega)]
    rfl
  · obtain ⟨k, hread, hat⟩ := (findPin_eq_some_iff hint').mp hfind
    obtain ⟨p, hp, hpn⟩ := hplaced hat
    exact ⟨k, p, hp, hpn, hread⟩
  · exact (findPin_eq_some_iff hint').mpr ⟨k, hread, hpn ▸ hplace hp⟩
  · refine findPin_eq_none fun n hfind => hno ?_
    obtain ⟨k, hread, hat⟩ := (findPin_eq_some_iff hint').mp hfind
    have hlt : k < s.paStreams.length := (List.getElem?_eq_some_iff.mp hat).1
    omega

theorem owned_run {as : List SourceAction} {u : VirtualStreamSource} (h : Owned s)
    (hrun : run sourceStep s as = some u) : Owned u :=
  Transition.run_invariant (I := Owned) (fun _ _ _ h hstep => h.sourceStep hstep) as s u h hrun

/-- **Ids**: whatever discoveries there were before, and wherever they broke off. -/
theorem ids_find_pins (crt : CType) (as : List SourceAction) {u : VirtualStreamSource}
    (hrun : run sourceStep constructed as = some u) (hint : u.pinList.length < 2 ^ 31) :
    IdsFindPins crt u := by
  have howned : Owned u := owned_run Owned.constructed hrun
  exact howned.idsFindPins crt hint

/-- A discovery that reads one byte, which makes a pin of what the stack held. -/
def oneByteDiscovery : List SourceAction :=
  [.createOutputPins ⟨.latin1, clearedStack, ⟨[.opened 0], true⟩, fun _ => S_OK⟩ [86] [] [[86], []]]

theorem ids_find_pins_oneByte :
    ∃ u, run sourceStep constructed oneByteDiscovery = some u ∧ IdsFindPins .ascii u ∧
      findPin .ascii u (wide " +01st") = (S_OK, some 0) ∧
      findPin .ascii u (wide "video") = (VFW_E_NOT_FOUND, none) :=
  ⟨_, rfl, ids_find_pins .ascii oneByteDiscovery rfl (by decide), by decide, by decide⟩

/-! After a discovery. -/

/-- What the graph does between two discoveries. -/
def SourceAction.Elsewhere : SourceAction → Prop
  | .createOutputPins .. => False
  | .elsewhere .. => True

/-- It leaves the pins in their places, as they were created. -/
theorem elsewhere_run {as : List SourceAction} {s u : VirtualStreamSource}
    (has : ∀ a ∈ as, a.Elsewhere) (hrun : run sourceStep s as = some u) :
    u.pinList.map (fun p => p.created) = s.pinList.map fun p => p.created := by
  refine Transition.run_invariant_of_meets (C := fun _ a => a.Elsewhere)
    (I := fun t => t.pinList.map (fun p => p.created) = s.pinList.map fun p => p.created) ?_
    as s u rfl (Transition.meets_of_forall (fun a ha _ => has a ha) s) hrun
  rintro t a v ht ha hstep
  cases a with
  | createOutputPins => exact ha.elim
  | elsewhere state isConnected thread =>
    obtain rfl := Option.some.inj hstep
    rw [← ht, List.map_map]
    rfl

/-- What a discovery against a sink leaves. -/
theorem setStreamName_describes {env : DiscoveryEnv} {szStreamName : WStr} {calls : List OsCall}
    {pins : List SinkPin} {msgs extra : List Msg} {s : VirtualStreamSource} {r : Rediscovery}
    (hread : ∀ pin ∈ pins, pin.isConnected = true → pin.Readable)
    (hwrite : pipeOutMediaTypes env.cp pins = some msgs)
    (hopen : SourceOutputPin.opens env.connect.attempts = true) (hmode : env.connect.modeSet = true)
    (hset : setStreamName env szStreamName calls (msgs ++ extra) s = some r) :
    List.Forall₂ (fun pin c => SinkPin.Describes pin c ∧ c.pName = carriedName env.cp pin.pName)
      (pins.filter (·.isConnected)) (r.source.pinList.map fun p => p.created) := by
  obtain ⟨t, -, hset⟩ := Option.bind_eq_some_iff.mp hset
  obtain ⟨d, hcreate, rfl⟩ := Option.map_eq_some_iff.mp hset
  obtain ⟨created, hcreated, hall⟩ :=
    readRecords_pipeOutMediaTypes env.decode extra pins msgs 0 hread hwrite
  dsimp only
  rw [newPins_created]
  rcases createOutputPins_eq hcreate with ⟨-, -, hrun⟩ | ⟨hfail, -, -⟩
  · rw [hcreated] at hrun
    obtain rfl : created = d.pinList := (Prod.mk.inj (Option.some.inj hrun)).1
    exact hall
  · rw [hopen, hmode] at hfail
    rcases hfail with hfail | hfail <;> cases hfail

/-- **Ids across the processes**: the id `k + 1` is for the sink's `k`-th connected pin,
    with any number of discoveries before and until the next one after. -/
theorem ids_name_sink_pins (crt : CType) (as : List SourceAction) {s : VirtualStreamSource}
    (hrun : run sourceStep constructed as = some s) (env : DiscoveryEnv) (szStreamName : WStr)
    (calls : List OsCall) (pins : List SinkPin) (msgs extra : List Msg)
    (hread : ∀ pin ∈ pins, pin.isConnected = true → pin.Readable)
    (hwrite : pipeOutMediaTypes env.cp pins = some msgs)
    (hopen : SourceOutputPin.opens env.connect.attempts = true) (hmode : env.connect.modeSet = true)
    {r : Rediscovery} (hset : setStreamName env szStreamName calls (msgs ++ extra) s = some r)
    (bs : List SourceAction) (hbs : ∀ b ∈ bs, b.Elsewhere) {u : VirtualStreamSource}
    (hafter : run sourceStep r.source bs = some u)
    (hint : (pins.filter (·.isConnected)).length < 2 ^ 31) :
    u.pinList.length = (pins.filter (·.isConnected)).length ∧
    ∀ k pin, (pins.filter (·.isConnected))[k]? = some pin →
      ∃ p ∈ u.pinList, findPin crt u (decimal (k + 1)) = (S_OK, some p.id) ∧
        queryId true u p.id = (S_OK, some (decimal (k + 1))) ∧
        pin.Describes p.created ∧ p.created.pName = carriedName env.cp pin.pName := by
  have hdescribes := setStreamName_describes hread hwrite hopen hmode hset
  rw [← elsewhere_run hbs hafter] at hdescribes
  have howned : Owned s := owned_run Owned.constructed hrun
  have howned' : Owned u := owned_run (howned.setStreamName hset) hafter
  have hlen : u.pinList.length = (pins.filter (·.isConnected)).length := by
    have hlens := hdescribes.length_eq
    rw [List.length_map] at hlens
    exact hlens.symm
  have hids := howned'.idsFindPins crt (hlen ▸ hint)
  refine ⟨hlen, fun k pin hpin => ?_⟩
  have hlt : k < u.pinList.length := hlen ▸ (List.getElem?_eq_some_iff.mp hpin).1
  have hat : u.pinList[k]? = some u.pinList[k] := List.getElem?_eq_getElem hlt
  have hid := hids.place k _ hat
  have hmem : u.pinList[k] ∈ u.pinList := List.getElem_mem hlt
  refine ⟨u.pinList[k], hmem, hids.found _ hmem _ hid, hid, ?_⟩
  have hcreated : (u.pinList.map fun p => p.created)[k]? = some u.pinList[k].created := by
    rw [List.getElem?_map, hat, Option.map_some]
  obtain ⟨hpin', hk⟩ := List.getElem?_eq_some_iff.mp hpin
  obtain ⟨hlt', hk'⟩ := List.getElem?_eq_some_iff.mp hcreated
  have hboth := hdescribes.get hpin' hlt'
  rwa [List.get_eq_getElem, List.get_eq_getElem, hk, hk'] at hboth

set_option maxRecDepth 4000 in
/-- A filter that has made a pin finds the sink's video pin by the same id afterwards. -/
example :
    ∃ s msgs r, run sourceStep constructed oneByteDiscovery = some s ∧
      pipeOutMediaTypes .latin1 [{ videoPin with isConnected := false }, videoPin] = some msgs ∧
      setStreamName ⟨.latin1, clearedStack, ⟨[.opened 0], true⟩, fun _ => S_OK⟩ [86] []
        (msgs ++ []) s = some r ∧
      ∃ p ∈ r.source.pinList, findPin .ascii r.source (decimal 1) = (S_OK, some p.id) ∧
        videoPin.Describes p.created := by
  refine ⟨_, _, _, rfl, rfl, rfl, ?_⟩
  have hread : ∀ pin ∈ [{ videoPin with isConnected := false }, videoPin],
      pin.isConnected = true → pin.Readable := by
    intro pin hpin _
    simp only [List.mem_cons, List.not_mem_nil, or_false] at hpin
    rcases hpin with rfl | rfl <;> exact ⟨rfl, by decide⟩
  obtain ⟨p, hp, hfind, -, hdescribes, -⟩ :=
    (ids_name_sink_pins .ascii oneByteDiscovery rfl
      ⟨.latin1, clearedStack, ⟨[.opened 0], true⟩, fun _ => S_OK⟩ [86] [] _ _ [] hread rfl rfl rfl rfl
      [] (by simp) rfl (by decide)).2 0 videoPin rfl
  exact ⟨p, hp, hfind, hdescribes⟩

end VirtualStreamSource

end VirtualCaptureStream
