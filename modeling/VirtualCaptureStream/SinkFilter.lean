import VirtualCaptureStream.Lib.Transition
import VirtualCaptureStream.PinDescriptor

/- CVirtualStreamSink: the sink filter's list of input pins and their names. A pin
   is added under the current stream name whenever no unconnected one is left;
   SetStreamName replaces the list. `names_agree_iff` says for every reachable list
   when both ends of every pin agree on its data pipe.

   Correspondence (C++ ↔ Lean):
     the constructor, `AddInputPin`           ↔ `constructed`, `addInputPin`
     `RemovePin`, `SetStreamName`             ↔ `removePin`, `setStreamName`
     `CVirtualStreamSinkInputPin::CompleteConnect`,
       `NotifyAllocator`, `BreakConnect`      ↔ the cases of `sinkStep`

   The pipes of the filter and of its pins are not part of this state. -/
namespace VirtualCaptureStream

/-- The decimal digits of `%i`. -/
def decimal (n : Nat) : WStr := (Nat.toDigits 10 n).map fun c => UInt16.ofNat c.toNat

/-- The digits of `%08x`. -/
def hex8 (n : UInt32) : WStr :=
  (List.range 8).map fun k =>
    let d := n.toNat / 16 ^ (7 - k) % 16
    if d < 10 then UInt16.ofNat (48 + d) else UInt16.ofNat (87 + d)

/-- `%sStream-%i-%08x`. -/
def formatPinName (szStreamName : WStr) (index : Nat) (tick : UInt32) : WStr :=
  szStreamName ++ wide "Stream-" ++ decimal index ++ wide "-" ++ hex8 tick

/-- `\\.\pipe\%s`: the path the sink creates for a name. -/
def sinkPipePath (name : WStr) : WStr := wide "\\\\.\\pipe\\" ++ name

/-- An input pin of the list: the object it is, and the path its constructor made. -/
structure InputPin extends SinkPin where
  id : Nat
  lpszPipename : WStr

/-- An empty media type, as CMediaType's constructor makes it. -/
def noMediaType : MediaType where
  amt := { majortype := 0, subtype := 0, bFixedSizeSamples := 1, bTemporalCompression := 0,
           lSampleSize := 1, formattype := 0, pUnk := 0, cbFormat := 0, pbFormat := 0 }
  format := []
  format_length := List.length_nil

/-- The pin's constructor. -/
def InputPin.new (id : Nat) (pName : WStr) : InputPin where
  pName := pName
  isConnected := false
  mt := noMediaType
  allocProperties := ⟨0, 0, 0, 0⟩
  id := id
  lpszPipename := sinkPipePath pName

/-- The filter: its stream name, its pins, how many pins it has made, and which it
    has deleted. -/
structure VirtualStreamSink where
  szStreamName : WStr
  pinList : List InputPin
  made : Nat
  deleted : List Nat

namespace VirtualStreamSink

/-- AddInputPin at the tick count `tick`. `none`: the name does not fit the
    100-character buffer, which `_stprintf_s` answers by ending the process. -/
def addInputPin (tick : UInt32) (s : VirtualStreamSink) : Option VirtualStreamSink :=
  if s.pinList.any (fun p => !p.isConnected) then some s else
  let szPinName := formatPinName s.szStreamName (s.pinList.length + 1) tick
  if szPinName.length < 100 then
    some { s with pinList := s.pinList ++ [InputPin.new s.made szPinName], made := s.made + 1 }
  else none

/-- RemovePin: the first pin of the list that is the object `id`. -/
def removePin (id : Nat) (s : VirtualStreamSink) : VirtualStreamSink :=
  if s.pinList.any (fun p => p.id == id) then
    { s with pinList := s.pinList.eraseP (fun p => p.id == id), deleted := id :: s.deleted }
  else s

/-- SetStreamName's loop from `i` on, with `fuel` turns left: the index goes up
    while the list gets shorter. -/
def removePins : Nat → Nat → VirtualStreamSink → VirtualStreamSink
  | 0, _, s => s
  | fuel + 1, i, s => match s.pinList[i]? with
    | none => s
    | some p => removePins fuel (i + 1) (removePin p.id s)

/-- SetStreamName. The pins its loop leaves out are dropped from the list without
    being deleted. -/
def setStreamName (name : WStr) (tick : UInt32) (s : VirtualStreamSink) :
    Option VirtualStreamSink :=
  let s := { s with szStreamName := name }
  let s := removePins s.pinList.length 0 s
  addInputPin tick { s with pinList := [] }

/-- The constructor. -/
def constructed (tick : UInt32) : Option VirtualStreamSink :=
  addInputPin tick { szStreamName := wide "VirtualSink1", pinList := [], made := 0, deleted := [] }

/-- Change the pin at position `i`. -/
def modifyPin (i : Nat) (f : InputPin → InputPin) (s : VirtualStreamSink) : VirtualStreamSink :=
  { s with pinList := s.pinList.modify i f }

inductive SinkAction where
  | completeConnect (i : Nat) (mt : MediaType) (tick : UInt32)
  | notifyAllocator (i : Nat) (allocProperties : AllocatorProperties)
  | breakConnect (i : Nat)
  | setStreamName (name : WStr) (tick : UInt32)

/-- A connection of an unconnected pin ends in CompleteConnect, which makes sure
    that there is a free pin again. -/
def sinkStep (s : VirtualStreamSink) : SinkAction → Option VirtualStreamSink
  | .completeConnect i mt tick =>
    (s.pinList[i]?).bind fun p =>
      if p.isConnected then none
      else addInputPin tick (s.modifyPin i fun p => { p with isConnected := true, mt := mt })
  | .notifyAllocator i allocProperties =>
    some (s.modifyPin i fun p => { p with allocProperties := allocProperties })
  | .breakConnect i => some (s.modifyPin i fun p => { p with isConnected := false })
  | .setStreamName name tick => s.setStreamName name tick

/-! What AddInputPin does. -/

theorem any_free_iff {pins : List InputPin} :
    pins.any (fun p => !p.isConnected) = true ↔ ∃ p ∈ pins, p.isConnected = false := by
  simp only [List.any_eq_true, Bool.not_eq_true']

/-- There is a free pin and nothing is done, or all pins are connected and one with a
    name that fits its buffer is added. -/
theorem addInputPin_cases {s t : VirtualStreamSink} {tick : UInt32}
    (h : addInputPin tick s = some t) :
    ((∃ p ∈ s.pinList, p.isConnected = false) ∧ t = s) ∨
    ((∀ p ∈ s.pinList, p.isConnected = true) ∧
      (formatPinName s.szStreamName (s.pinList.length + 1) tick).length < 100 ∧
      t = { s with
        pinList := s.pinList ++
          [InputPin.new s.made (formatPinName s.szStreamName (s.pinList.length + 1) tick)]
        made := s.made + 1 }) := by
  unfold addInputPin at h
  dsimp only at h
  split at h
  · rename_i hany
    exact Or.inl ⟨any_free_iff.mp hany, (Option.some.inj h).symm⟩
  · rename_i hnone
    rw [Option.ite_none_right_eq_some] at h
    obtain ⟨hfit, h⟩ := h
    refine Or.inr ⟨?_, hfit, (Option.some.inj h).symm⟩
    intro p hp
    by_contra hoff
    exact hnone (any_free_iff.mpr ⟨p, hp, eq_false_of_ne_true hoff⟩)

theorem addInputPin_szStreamName {s t : VirtualStreamSink} {tick : UInt32}
    (h : addInputPin tick s = some t) : t.szStreamName = s.szStreamName := by
  rcases addInputPin_cases h with ⟨-, rfl⟩ | ⟨-, -, rfl⟩
  · rfl
  · rfl

/-- A pin that is listed: RemovePin finds it. -/
theorem removePin_of_mem {s : VirtualStreamSink} {p : InputPin} (hp : p ∈ s.pinList) :
    removePin p.id s = { s with
      pinList := s.pinList.eraseP (fun q => q.id == p.id), deleted := p.id :: s.deleted } := by
  have hany : s.pinList.any (fun q => q.id == p.id) = true :=
    List.any_eq_true.mpr ⟨p, hp, beq_self_eq_true p.id⟩
  rw [removePin, if_pos hany]

theorem removePins_szStreamName (fuel i : Nat) (s : VirtualStreamSink) :
    (removePins fuel i s).szStreamName = s.szStreamName := by
  induction fuel generalizing i s with
  | zero => rfl
  | succ fuel ih =>
    unfold removePins
    split
    · rfl
    · rw [ih]
      unfold removePin
      split <;> rfl

theorem setStreamName_szStreamName {s t : VirtualStreamSink} {name : WStr} {tick : UInt32}
    (h : setStreamName name tick s = some t) : t.szStreamName = name := by
  unfold setStreamName at h
  dsimp only at h
  rw [addInputPin_szStreamName h]
  dsimp only
  rw [removePins_szStreamName]

/-! The names of the listed pins. -/

theorem decimal_injective {m n : Nat} (h : decimal m = decimal n) : m = n := by
  -- reading the characters back gives the digits
  have back : ∀ k, (decimal k).map (fun u => Char.ofNat u.toNat) = Nat.toDigits 10 k := by
    intro k
    rw [decimal, List.map_map]
    conv_rhs => rw [← List.map_id (Nat.toDigits 10 k)]
    apply List.map_congr_left
    intro c hc
    have hdigit := Nat.isDigit_of_mem_toDigits (by decide) (by decide) hc
    have hlt : c.toNat < 65536 := by
      simp only [Char.isDigit, Bool.and_eq_true, decide_eq_true_eq] at hdigit
      have h9 : c.val.toNat ≤ 57 := UInt32.le_iff_toNat_le.mp hdigit.2
      exact Nat.lt_of_le_of_lt h9 (by decide)
    have hback : (UInt16.ofNat c.toNat).toNat = c.toNat := UInt16.toNat_ofNat_of_lt' hlt
    rw [Function.comp_apply, hback, Char.ofNat_toNat, id_eq]
  have hdigits : Nat.toDigits 10 m = Nat.toDigits 10 n := by rw [← back m, ← back n, h]
  have := congrArg (fun cs => Nat.ofDigitChars 10 cs 0) hdigits
  simpa only [Nat.ofDigitChars_ten_toDigits] using this

theorem hex8_length (n : UInt32) : (hex8 n).length = 8 := by
  rw [hex8, List.length_map, List.length_range]

/-- The index is read off a pin name, whatever the tick counts are. -/
theorem formatPinName_index {name : WStr} {i j : Nat} {t t' : UInt32}
    (h : formatPinName name i t = formatPinName name j t') : i = j := by
  simp only [formatPinName, List.append_assoc, List.append_cancel_left_eq] at h
  have hlen : (wide "-" ++ hex8 t).length = (wide "-" ++ hex8 t').length := by
    simp only [List.length_append, hex8_length]
  exact decimal_injective (List.append_inj' h hlen).1

/-- The pin at position `k` was made under the current stream name with index
    `k + 1`, has a name that fits its buffer, and creates the path of that name. -/
def Named (s : VirtualStreamSink) : Prop :=
  ∀ k p, s.pinList[k]? = some p →
    (∃ tick, p.pName = formatPinName s.szStreamName (k + 1) tick) ∧ p.pName.length < 100 ∧
      p.lpszPipename = sinkPipePath p.pName

theorem named_empty {s : VirtualStreamSink} (h : s.pinList = []) : Named s := by
  intro k p hp
  rw [h] at hp
  cases hp

theorem named_addInputPin {s t : VirtualStreamSink} {tick : UInt32} (h : Named s)
    (hadd : addInputPin tick s = some t) : Named t := by
  rcases addInputPin_cases hadd with ⟨-, rfl⟩ | ⟨-, hlen, rfl⟩
  · exact h
  · intro k p hp
    by_cases hk : k < s.pinList.length
    · rw [List.getElem?_append_left hk] at hp
      exact h k p hp
    · -- the pin that was added
      have hlast : k = s.pinList.length ∧
          InputPin.new s.made (formatPinName s.szStreamName (s.pinList.length + 1) tick) = p := by
        rw [List.getElem?_append_right (by omega)] at hp
        have hk' : k - s.pinList.length = 0 := by
          by_contra hne
          rw [List.getElem?_eq_none (by simp only [List.length_singleton]; omega)] at hp
          cases hp
        rw [hk'] at hp
        exact ⟨by omega, Option.some.inj hp⟩
      obtain ⟨rfl, rfl⟩ := hlast
      exact ⟨⟨tick, rfl⟩, hlen, rfl⟩

/-- A change that leaves the names alone. -/
theorem named_modifyPin {s : VirtualStreamSink} {i : Nat} {f : InputPin → InputPin} (h : Named s)
    (hname : ∀ p, (f p).pName = p.pName) (hpath : ∀ p, (f p).lpszPipename = p.lpszPipename) :
    Named (s.modifyPin i f) := by
  intro k p hp
  simp only [modifyPin, List.getElem?_modify] at hp
  obtain ⟨q, hq, rfl⟩ := Option.map_eq_some_iff.mp hp
  obtain ⟨htick, hlen, hpipe⟩ := h k q hq
  split
  · rw [hname, hpath]
    exact ⟨htick, hlen, hpipe⟩
  · exact ⟨htick, hlen, hpipe⟩

theorem named_step (s : VirtualStreamSink) (a : SinkAction) (t : VirtualStreamSink) (h : Named s)
    (hstep : sinkStep s a = some t) : Named t := by
  cases a with
  | completeConnect i mt tick =>
    obtain ⟨p, _, hadd⟩ := Option.bind_eq_some_iff.mp hstep
    rw [Option.ite_none_left_eq_some] at hadd
    have hmod : Named (s.modifyPin i fun p => { p with isConnected := true, mt := mt }) :=
      named_modifyPin h (fun _ => rfl) (fun _ => rfl)
    exact named_addInputPin hmod hadd.2
  | notifyAllocator i allocProperties =>
    cases hstep
    exact named_modifyPin h (fun _ => rfl) (fun _ => rfl)
  | breakConnect i =>
    cases hstep
    exact named_modifyPin h (fun _ => rfl) (fun _ => rfl)
  | setStreamName name tick =>
    simp only [sinkStep, setStreamName] at hstep
    exact named_addInputPin (named_empty rfl) hstep

/-! Both ends of the data pipes. -/

/-- For every pin of the list: the name its source pin gets is its own, the path
    the source pin opens is the path it creates, and no other pin's source pin
    opens that path. -/
structure NamesAgree (cp : CodePage) (s : VirtualStreamSink) : Prop where
  name : ∀ p ∈ s.pinList, carriedName cp p.pName = some p.pName
  path : ∀ p ∈ s.pinList, (carriedName cp p.pName).map sourcePipePath = some p.lpszPipename
  distinct : ∀ (i j : Nat) (p q : InputPin), s.pinList[i]? = some p →
    s.pinList[j]? = some q → i ≠ j →
    (carriedName cp p.pName).map sourcePipePath ≠ (carriedName cp q.pName).map sourcePipePath

/-- The two path formats agree. -/
theorem sourcePipePath_eq (name : WStr) : sourcePipePath name = sinkPipePath name := by
  have hprefix : wide "\\\\" ++ PIPEHOST ++ wide "\\pipe\\" = wide "\\\\.\\pipe\\" := by decide
  rw [sourcePipePath, sinkPipePath, hprefix]

theorem Named.agree_iff {cp : CodePage} {s : VirtualStreamSink} (h : Named s) :
    NamesAgree cp s ↔ ∀ p ∈ s.pinList, Carriable cp p.pName := by
  refine ⟨fun hag p hp => ?_, fun hcar => ?_⟩
  · obtain ⟨k, hk⟩ := List.mem_iff_getElem?.mp hp
    exact (carriedName_eq_iff (h k p hk).2.1).mp (hag.name p hp)
  · have hname : ∀ p ∈ s.pinList, carriedName cp p.pName = some p.pName := by
      intro p hp
      obtain ⟨k, hk⟩ := List.mem_iff_getElem?.mp hp
      exact (carriedName_eq_iff (h k p hk).2.1).mpr (hcar p hp)
    refine ⟨hname, ?_, ?_⟩
    · intro p hp
      obtain ⟨k, hk⟩ := List.mem_iff_getElem?.mp hp
      rw [hname p hp, Option.map_some, sourcePipePath_eq, (h k p hk).2.2]
    · intro i j p q hi hj hij hsame
      rw [hname p (List.mem_of_getElem? hi), hname q (List.mem_of_getElem? hj), Option.map_some,
        Option.map_some, Option.some.injEq, sourcePipePath, sourcePipePath,
        List.append_cancel_left_eq] at hsame
      obtain ⟨⟨t, ht⟩, _, _⟩ := h i p hi
      obtain ⟨⟨t', ht'⟩, _, _⟩ := h j q hj
      rw [ht, ht'] at hsame
      have := formatPinName_index hsame
      omega

/-- **Both ends agree on the data pipes** of a sink, whatever was connected,
    disconnected and renamed since it was constructed, exactly when all its pin
    names are `Carriable`. -/
theorem names_agree_iff (cp : CodePage) (tick : UInt32) (s : VirtualStreamSink)
    (hs : constructed tick = some s) (as : List SinkAction) (u : VirtualStreamSink)
    (hrun : Transition.run sinkStep s as = some u) :
    NamesAgree cp u ↔ ∀ p ∈ u.pinList, Carriable cp p.pName := by
  have hnamed : Named s := named_addInputPin (named_empty rfl) hs
  exact (Transition.run_invariant named_step as s u hnamed hrun).agree_iff

/-- A stream name with a per cent sign twice: printing makes it one. -/
def discount : WStr := wide "50%%"

/-- The source pin of a sink named `50%%` gets another name than the sink pin. -/
theorem percent_names_differ :
    ∃ s u, constructed 0 = some s ∧
      Transition.run sinkStep s [.setStreamName discount 0, .completeConnect 0 bareVideo 0] =
        some u ∧ ¬ NamesAgree .latin1 u := by
  refine ⟨_, _, rfl, rfl, fun h => ?_⟩
  have hfirst := h.name _ List.mem_cons_self
  have hcar := (carriedName_eq_iff (by decide)).mp hfirst
  exact hcar.no_percent (by decide)

/-- A sink that was connected once, under its first name. -/
theorem names_agree_iff_connected :
    ∃ s u, constructed 0 = some s ∧
      Transition.run sinkStep s [.completeConnect 0 bareVideo 0] = some u ∧
      NamesAgree .latin1 u := by
  obtain ⟨s, hs⟩ : ∃ s, constructed 0 = some s := ⟨_, rfl⟩
  have hnames : ((constructed 0).bind fun s =>
      Transition.run sinkStep s [.completeConnect 0 bareVideo 0]).map
        (fun u => u.pinList.map fun p => p.pName) =
      some [formatPinName (wide "VirtualSink1") 1 0, formatPinName (wide "VirtualSink1") 2 0] := rfl
  rw [hs, Option.bind_some, Option.map_eq_some_iff] at hnames
  obtain ⟨u, hu, hlist⟩ := hnames
  refine ⟨s, u, hs, hu, (names_agree_iff .latin1 0 s hs _ u hu).mpr ?_⟩
  intro p hp
  have hp' : p.pName ∈ u.pinList.map fun p => p.pName := List.mem_map_of_mem hp
  rw [hlist, List.mem_cons, List.mem_singleton] at hp'
  rcases hp' with e | e
  · rw [e]
    exact ⟨by decide, by decide, by decide⟩
  · rw [e]
    exact ⟨by decide, by decide, by decide⟩

end VirtualStreamSink

end VirtualCaptureStream
