import VirtualCaptureStream.SinkFilter

/- A stream name and the arrays it is printed into. SetStreamName takes a name of any
   length. The sink keeps it in `m_szStreamName`, prints the path of the discovery pipe
   from it and the names of its pins, each pin prints the path of its data pipe, a
   record carries the pin's name in the ANSI code page, and the source prints the path
   of the discovery pipe again, the names it receives, and the paths of those.

   Correspondence (C++ ↔ Lean):
     the `_tcscpy` of SetStreamName, and what it calls     ↔ `renameWrites`
     the prints of AddInputPin and of the pin's constructor,
       of InitializePipe, PipeOutMediaTypes, CreateOutputPins
       and the source pin's pipe path                      ↔ `writes`

   Only `_stprintf_s` in AddInputPin looks at the size of its array, and ends the process.
   A name that SetStreamName gets past it is short enough for all the paths;
   `derived_names_fit_iff` says what else has to hold. -/
namespace VirtualCaptureStream

/-- A string that is written to an array of `capacity` characters, without its
    terminator; `none`: what is written there is undefined. -/
structure Write where
  length : Option Nat
  capacity : Nat
  deriving DecidableEq

/-- There is room for the string and its terminator. -/
def Write.Fits (w : Write) : Prop := ∃ n ∈ w.length, n < w.capacity

instance (w : Write) : Decidable w.Fits :=
  inferInstanceAs (Decidable (∃ n ∈ w.length, n < w.capacity))

@[simp] theorem Write.fits_some {n capacity : Nat} :
    Write.Fits ⟨some n, capacity⟩ ↔ n < capacity := by
  simp [Write.Fits]

@[simp] theorem Write.fits_none {capacity : Nat} : ¬ Write.Fits ⟨none, capacity⟩ := by
  simp [Write.Fits]

/-- What the source prints of a pin's name: `_stprintf(pinName, A2W(szPinName))`. -/
def printedName (cp : CodePage) (pName : WStr) : Option WStr :=
  (nameField cp pName).bind fun szPinName => printfNoArgs (cp.a2w (cstr szPinName))

/-- The name the source's pin gets is the printed one, where its array has room. -/
theorem carriedName_eq (cp : CodePage) (pName : WStr) :
    carriedName cp pName =
      (printedName cp pName).bind fun n => if n.length < 100 then some n else none := by
  rw [carriedName, printedName, Option.bind_assoc]
  rfl

/-- The sink, and the names in the records that are in its discovery pipe. -/
structure PublishedSink where
  sink : VirtualStreamSink
  records : List WStr

namespace PublishedSink

open Transition (Meets)
open VirtualStreamSink (Named addInputPin setStreamName hex8_length sourcePipePath_eq)

/-- What is done with a name until the next SetStreamName: pins are connected and
    disconnected, AddInputPin is called, the discovery pipe is made, records are written
    to it, and the source makes pins of the first `n` of them. -/
inductive NameUse where
  | connected (i : Nat) (isConnected : Bool)
  | addInputPin (tick : UInt32)
  | initializePipe
  | pipeOutMediaTypes
  | createOutputPins (n : Nat)

/-- What AddInputPin and the new pin's constructor print. -/
def pinWrites (pName : WStr) : List Write :=
  [⟨some pName.length, 100⟩, ⟨some (sinkPipePath pName).length, 1024⟩]

/-- What the source prints of one record. -/
def recordWrites (cp : CodePage) (pName : WStr) : List Write :=
  [⟨(printedName cp pName).map List.length, 100⟩,
    ⟨(printedName cp pName).map fun n => (sourcePipePath n).length, MAX_PATH⟩]

def connectedNames (s : PublishedSink) : List WStr :=
  (s.sink.pinList.filter (·.isConnected)).map (·.pName)

def writes (cp : CodePage) (s : PublishedSink) : NameUse → List Write
  | .connected _ _ => []
  | .addInputPin tick =>
    if s.sink.pinList.any (fun p => !p.isConnected) then []
    else pinWrites (formatPinName s.sink.szStreamName (s.sink.pinList.length + 1) tick)
  | .initializePipe => [⟨some (sinkPipePath s.sink.szStreamName).length, 1024⟩]
  | .pipeOutMediaTypes => s.connectedNames.map fun pName => ⟨some (cp.w2a pName).length, 100⟩
  | .createOutputPins n =>
    ⟨some (sourcePipePath s.sink.szStreamName).length, MAX_PATH⟩ ::
      (s.records.take n).flatMap (recordWrites cp)

/-- What SetStreamName prints: the copy of the name, its pin, and the discovery path. -/
def renameWrites (name : WStr) (tick : UInt32) : List Write :=
  ⟨some name.length, 1024⟩ :: pinWrites (formatPinName name 1 tick) ++
    [⟨some (sinkPipePath name).length, 1024⟩]

/-- The state afterwards, unless something was printed past the end of its array. A new
    discovery pipe is empty. -/
def useName (cp : CodePage) (s : PublishedSink) (use : NameUse) : Option PublishedSink :=
  if ∀ w ∈ writes cp s use, w.Fits then
    match use with
    | .connected i isConnected =>
      some { s with sink := s.sink.modifyPin i fun p => { p with isConnected := isConnected } }
    | .addInputPin tick => (addInputPin tick s.sink).map fun sink => { s with sink := sink }
    | .initializePipe => some { s with records := [] }
    | .pipeOutMediaTypes => some { s with records := s.records ++ s.connectedNames }
    | .createOutputPins n => some { s with records := s.records.drop n }
  else none

/-- Each per cent sign has another one behind it. -/
def PercentsPaired : WStr → Bool
  | [] => true
  | c :: cs =>
    if c ≠ 37 then PercentsPaired cs
    else match cs with
      | 37 :: cs => PercentsPaired cs
      | _ => false

/-- A new pin's number and the stream name have 83 characters at most; the names that
    are written to records have less than 100 bytes in the ANSI code page; and those that
    are read have no lone per cent sign when they come back from it. -/
def NameFits (cp : CodePage) (s : PublishedSink) : NameUse → Prop
  | .addInputPin _ => (∀ p ∈ s.sink.pinList, p.isConnected = true) →
      s.sink.szStreamName.length + (decimal (s.sink.pinList.length + 1)).length ≤ 83
  | .pipeOutMediaTypes => ∀ pName ∈ s.connectedNames, (cp.w2a pName).length < 100
  | .createOutputPins n =>
      ∀ pName ∈ s.records.take n, PercentsPaired (cp.a2w (cp.w2a pName)) = true
  | _ => True

instance (cp : CodePage) (s : PublishedSink) : (use : NameUse) → Decidable (NameFits cp s use)
  | .addInputPin _ => inferInstanceAs (Decidable (_ → _))
  | .pipeOutMediaTypes => inferInstanceAs (Decidable (∀ pName ∈ s.connectedNames, _))
  | .createOutputPins n => inferInstanceAs (Decidable (∀ pName ∈ s.records.take n, _))
  | .connected _ _ | .initializePipe => instDecidableTrue

/-! Lengths. -/

theorem formatPinName_length (name : WStr) (index : Nat) (tick : UInt32) :
    (formatPinName name index tick).length = name.length + (decimal index).length + 16 := by
  have hstream : (wide "Stream-").length = 7 := by decide
  have hdash : (wide "-").length = 1 := by decide
  simp only [formatPinName, List.length_append, hstream, hdash, hex8_length]
  omega

theorem sinkPipePath_length (name : WStr) : (sinkPipePath name).length = name.length + 9 := by
  have hprefix : (wide "\\\\.\\pipe\\").length = 9 := by decide
  rw [sinkPipePath, List.length_append, hprefix]
  omega

theorem sourcePipePath_length (name : WStr) :
    (sourcePipePath name).length = name.length + 9 := by
  rw [sourcePipePath_eq, sinkPipePath_length]

/-- Printing is defined where the per cent signs are paired. -/
theorem printfNoArgs_isSome : ∀ fmt : WStr, (printfNoArgs fmt).isSome = PercentsPaired fmt
  | [] => rfl
  | c :: cs => by
    by_cases hc : c = 37
    · subst hc
      cases cs with
      | nil => rfl
      | cons d ds =>
        by_cases hd : d = 37
        · subst hd
          -- both go on behind the pair
          show ((printfNoArgs ds).map (37 :: ·)).isSome = PercentsPaired ds
          rw [Option.isSome_map, printfNoArgs_isSome ds]
        · simp [printfNoArgs, PercentsPaired, hd]
    · have hprint : printfNoArgs (c :: cs) = (printfNoArgs cs).map (c :: ·) := by
        conv_lhs => unfold printfNoArgs
        exact if_pos hc
      have hpaired : PercentsPaired (c :: cs) = PercentsPaired cs := by
        conv_lhs => unfold PercentsPaired
        exact if_pos hc
      rw [hprint, hpaired, Option.isSome_map, printfNoArgs_isSome cs]

/-- A printed name is not longer than the pin's, which went through the code page. -/
theorem printedName_length {cp : CodePage} {pName out : WStr}
    (h : printedName cp pName = some out) : out.length ≤ pName.length := by
  obtain ⟨field, hfield, hprint⟩ := Option.bind_eq_some_iff.mp h
  rw [cstr_nameField hfield] at hprint
  calc out.length ≤ (cp.a2w (cp.w2a pName)).length := printfNoArgs_length hprint
    _ ≤ pName.length := cp.round_trip_length pName

/-- A name that is in a record is printed if its per cent signs are paired. -/
theorem printedName_isSome {cp : CodePage} {pName : WStr} (h : (cp.w2a pName).length < 100) :
    (printedName cp pName).isSome = true ↔
      PercentsPaired (cp.a2w (cp.w2a pName)) = true := by
  have hfield : nameField cp pName =
      some (cp.w2a pName ++ List.replicate (100 - (cp.w2a pName).length) 0) := by
    simp only [nameField, if_pos h]
  rw [printedName, hfield, Option.bind_some, cstr_nameField hfield, printfNoArgs_isSome]

/-! One use of the name. -/

/-- The name got past SetStreamName, the pins are named after it, and the names in the
    records fit there. -/
structure Renamed (cp : CodePage) (s : PublishedSink) : Prop where
  named : Named s.sink
  short : s.sink.szStreamName.length ≤ 82
  records : ∀ pName ∈ s.records, pName.length < 100 ∧ (cp.w2a pName).length < 100

theorem connectedNames_length {s : PublishedSink} (h : Named s.sink) :
    ∀ pName ∈ s.connectedNames, pName.length < 100 := by
  intro pName hmem
  obtain ⟨p, hp, rfl⟩ := List.mem_map.mp hmem
  obtain ⟨k, hk⟩ := List.mem_iff_getElem?.mp (List.mem_filter.mp hp).1
  exact (h k p hk).2.1

theorem pinWrites_fit_iff {pName : WStr} :
    (∀ w ∈ pinWrites pName, w.Fits) ↔ pName.length < 100 := by
  simp only [pinWrites, List.forall_mem_cons, List.not_mem_nil, Write.fits_some,
    sinkPipePath_length]
  refine ⟨fun h => h.1, fun h => ⟨h, by omega, fun _ hw => hw.elim⟩⟩

/-- What the source prints of a record fits as soon as it is defined. -/
theorem recordWrites_fit_iff {cp : CodePage} {pName : WStr}
    (h : pName.length < 100 ∧ (cp.w2a pName).length < 100) :
    (∀ w ∈ recordWrites cp pName, w.Fits) ↔
      PercentsPaired (cp.a2w (cp.w2a pName)) = true := by
  rw [← printedName_isSome h.2]
  cases hname : printedName cp pName with
  | none => simp [recordWrites, hname]
  | some out =>
    have hout := printedName_length hname
    have hlen := h.1
    simp only [recordWrites, hname, Option.map_some, List.forall_mem_cons, Write.fits_some,
      sourcePipePath_length, MAX_PATH, Option.isSome_some, iff_true]
    refine ⟨by omega, by omega, fun _ hw => (by cases hw)⟩

theorem addInputPin_fits_iff (cp : CodePage) (s : PublishedSink) (tick : UInt32) :
    (∀ w ∈ writes cp s (.addInputPin tick), w.Fits) ↔ NameFits cp s (.addInputPin tick) := by
  simp only [writes, NameFits]
  by_cases hfree : ∃ p ∈ s.sink.pinList, p.isConnected = false
  · obtain ⟨p, hp, hoff⟩ := hfree
    rw [if_pos (VirtualStreamSink.any_free_iff.mpr ⟨p, hp, hoff⟩)]
    refine iff_of_true (fun _ hw => (by cases hw)) ?_
    intro hall
    rw [hall p hp] at hoff
    cases hoff
  · rw [if_neg (mt VirtualStreamSink.any_free_iff.mp hfree), pinWrites_fit_iff,
      formatPinName_length]
    refine ⟨fun hlen _ => by omega, ?_⟩
    intro hlen
    have hall : ∀ p ∈ s.sink.pinList, p.isConnected = true := by
      intro p hp
      by_contra hoff
      exact hfree ⟨p, hp, eq_false_of_ne_true hoff⟩
    have := hlen hall
    omega

/-- The discovery path always fits, so it is up to the records. -/
theorem Renamed.createOutputPins_fits_iff {cp : CodePage} {s : PublishedSink}
    (h : Renamed cp s) (n : Nat) :
    (∀ w ∈ writes cp s (.createOutputPins n), w.Fits) ↔ NameFits cp s (.createOutputPins n) := by
  have hshort := h.short
  have hrecord : ∀ pName ∈ s.records.take n, (∀ w ∈ recordWrites cp pName, w.Fits) ↔
      PercentsPaired (cp.a2w (cp.w2a pName)) = true := fun pName hmem =>
    recordWrites_fit_iff (h.records pName (List.mem_of_mem_take hmem))
  simp only [writes, List.forall_mem_cons, Write.fits_some, sourcePipePath_length, MAX_PATH,
    NameFits, List.mem_flatMap]
  refine ⟨?_, ?_⟩
  · rintro ⟨-, hrecords⟩ pName hmem
    exact (hrecord pName hmem).mp fun w hw => hrecords w ⟨pName, hmem, hw⟩
  · intro hnames
    refine ⟨by omega, ?_⟩
    rintro w ⟨pName, hmem, hw⟩
    exact (hrecord pName hmem).mpr (hnames pName hmem) w hw

/-- What a use of the name prints fits exactly under its condition. -/
theorem Renamed.writes_fit_iff {cp : CodePage} {s : PublishedSink} (h : Renamed cp s)
    (use : NameUse) : (∀ w ∈ writes cp s use, w.Fits) ↔ NameFits cp s use := by
  cases use with
  | connected i isConnected => simp [writes, NameFits]
  | addInputPin tick => exact addInputPin_fits_iff cp s tick
  | initializePipe =>
    have hshort := h.short
    simp only [writes, List.forall_mem_cons, Write.fits_some, sinkPipePath_length, NameFits]
    exact iff_of_true ⟨by omega, fun _ hw => (by cases hw)⟩ trivial
  | pipeOutMediaTypes => simp [writes, NameFits]
  | createOutputPins n => exact h.createOutputPins_fits_iff n

/-- A use that printed nothing too long keeps what the next one relies on. -/
theorem Renamed.useName {cp : CodePage} {s t : PublishedSink} {use : NameUse}
    (h : Renamed cp s) (hstep : useName cp s use = some t) : Renamed cp t := by
  unfold PublishedSink.useName at hstep
  rw [Option.ite_none_right_eq_some] at hstep
  obtain ⟨hfit, hstep⟩ := hstep
  rw [h.writes_fit_iff] at hfit
  cases use with
  | connected i isConnected =>
    obtain rfl := Option.some.inj hstep
    exact ⟨VirtualStreamSink.named_modifyPin h.named (fun _ => rfl) (fun _ => rfl), h.short,
      h.records⟩
  | addInputPin tick =>
    obtain ⟨sink, hadd, rfl⟩ := Option.map_eq_some_iff.mp hstep
    refine ⟨VirtualStreamSink.named_addInputPin h.named hadd, ?_, h.records⟩
    show sink.szStreamName.length ≤ 82
    rw [VirtualStreamSink.addInputPin_szStreamName hadd]
    exact h.short
  | initializePipe =>
    obtain rfl := Option.some.inj hstep
    exact ⟨h.named, h.short, fun _ hmem => (by cases hmem)⟩
  | pipeOutMediaTypes =>
    obtain rfl := Option.some.inj hstep
    refine ⟨h.named, h.short, ?_⟩
    intro pName hmem
    rcases List.mem_append.mp hmem with hmem | hmem
    · exact h.records pName hmem
    · exact ⟨connectedNames_length h.named pName hmem, hfit pName hmem⟩
  | createOutputPins n =>
    obtain rfl := Option.some.inj hstep
    exact ⟨h.named, h.short, fun pName hmem => h.records pName (List.mem_of_mem_drop hmem)⟩

/-! From SetStreamName on. -/

/-- SetStreamName comes back for names of 82 characters at most. -/
theorem setStreamName_renamed {name : WStr} {tick : UInt32} {s₀ s : VirtualStreamSink}
    (h : setStreamName name tick s₀ = some s) (cp : CodePage) :
    Renamed cp ⟨s, []⟩ ∧ name.length ≤ 82 := by
  have hname := VirtualStreamSink.setStreamName_szStreamName h
  unfold VirtualStreamSink.setStreamName at h
  have hnamed : Named s :=
    VirtualStreamSink.named_addInputPin (VirtualStreamSink.named_empty rfl) h
  simp only [addInputPin, List.any_nil, Bool.false_eq_true, if_false,
    VirtualStreamSink.removePins_szStreamName, List.length_nil, formatPinName_length,
    Option.ite_none_right_eq_some] at h
  have hone : (decimal (0 + 1)).length = 1 := by decide
  have hshort : name.length ≤ 82 := by omega
  exact ⟨⟨hnamed, hname ▸ hshort, fun _ hmem => (by cases hmem)⟩, hshort⟩

/-- What SetStreamName and all later uses of the name print fits. -/
def AllFit (cp : CodePage) (name : WStr) (tick : UInt32) (s : VirtualStreamSink)
    (uses : List NameUse) : Prop :=
  (∀ w ∈ renameWrites name tick, w.Fits) ∧
    Meets (useName cp) (fun s use => ∀ w ∈ writes cp s use, w.Fits) ⟨s, []⟩ uses

/-- **Every derived name fits its array**, for a name that SetStreamName came back from,
    exactly if each use of the name meets its condition. -/
theorem derived_names_fit_iff (cp : CodePage) (name : WStr) (tick : UInt32)
    (s₀ s : VirtualStreamSink) (h : setStreamName name tick s₀ = some s) (uses : List NameUse) :
    AllFit cp name tick s uses ↔ Meets (useName cp) (NameFits cp) ⟨s, []⟩ uses := by
  obtain ⟨hrenamed, hshort⟩ := setStreamName_renamed h cp
  have hrename : ∀ w ∈ renameWrites name tick, w.Fits := by
    have hone : (decimal 1).length = 1 := by decide
    simp only [renameWrites, List.cons_append, List.forall_mem_cons, List.forall_mem_append,
      pinWrites_fit_iff, Write.fits_some, formatPinName_length, sinkPipePath_length]
    refine ⟨by omega, by omega, by omega, fun _ hw => (by cases hw)⟩
  rw [AllFit, and_iff_right hrename]
  exact Transition.meets_iff_of_invariant (I := Renamed cp)
    (fun _ _ _ hs hstep => hs.useName hstep) (fun _ use hs => hs.writes_fit_iff use) uses
    ⟨s, []⟩ hrenamed

/-- Two pins are connected, and the source discovers both. -/
def discoverTwoPins : List NameUse :=
  [.connected 0 true, .initializePipe, .addInputPin 0, .connected 1 true, .pipeOutMediaTypes,
    .createOutputPins 2]

theorem derived_names_fit_iff_discovered :
    ∃ s t, setStreamName (wide "Cam") 0 ⟨[], [], 0, []⟩ = some s ∧
      Transition.run (useName .latin1) ⟨s, []⟩ discoverTwoPins = some t ∧
      t.connectedNames.length = 2 ∧ AllFit .latin1 (wide "Cam") 0 s discoverTwoPins := by
  have hrun : ((setStreamName (wide "Cam") 0 ⟨[], [], 0, []⟩).bind fun s =>
      (Transition.run (useName .latin1) ⟨s, []⟩ discoverTwoPins).map
        (·.connectedNames.length)) = some 2 := by
    decide +kernel
  obtain ⟨s, hs, hrun⟩ := Option.bind_eq_some_iff.mp hrun
  obtain ⟨t, ht, hnames⟩ := Option.map_eq_some_iff.mp hrun
  have hmeets : Meets (useName .latin1) (NameFits .latin1) ⟨s, []⟩ discoverTwoPins := by
    obtain rfl := Option.some.inj hs
    decide +kernel
  exact ⟨s, t, hs, ht, hnames, (derived_names_fit_iff .latin1 _ 0 _ s hs _).mpr hmeets⟩

/-- A name of 82 characters. -/
def longestName : WStr := List.replicate 82 65

/-- Nine pins of the sink are connected, one after the other. -/
def ninePins : List NameUse :=
  ((List.range 8).flatMap fun i => [.connected i true, .addInputPin 0]) ++ [.connected 8 true]

/-- The longest name that SetStreamName comes back from: the name of the tenth pin does
    not fit. -/
theorem tenth_pin_does_not_fit :
    ∃ s, setStreamName longestName 0 ⟨[], [], 0, []⟩ = some s ∧
      ¬ AllFit .latin1 longestName 0 s (ninePins ++ [.addInputPin 0]) := by
  have hrun : ((setStreamName longestName 0 ⟨[], [], 0, []⟩).bind fun s =>
      (Transition.run (useName .latin1) ⟨s, []⟩ ninePins).map fun t =>
        writes .latin1 t (.addInputPin 0)) = some [⟨some 100, 100⟩, ⟨some 109, 1024⟩] := by
    decide +kernel
  obtain ⟨s, hs, hrun⟩ := Option.bind_eq_some_iff.mp hrun
  obtain ⟨t, ht, hwrites⟩ := Option.map_eq_some_iff.mp hrun
  refine ⟨s, hs, ?_⟩
  rintro ⟨-, huses⟩
  have hfit := huses.at ht
  rw [hwrites, List.forall_mem_cons, Write.fits_some] at hfit
  exact absurd hfit.1 (Nat.lt_irrefl 100)

end PublishedSink

end VirtualCaptureStream
