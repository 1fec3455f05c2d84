import VirtualCaptureStream.SinkFilter
import VirtualCaptureStream.SinkInputPin

/- The connections of a sink's pins, as CBasePin makes and undoes them, and the list
   they leave. A pin counts as connected from the moment `m_Connected` is assigned,
   before the other side has agreed, so AddInputPin runs while the connection that
   calls for it may still be undone. `spare_pin` and `names_distinct` say what every
   list has nevertheless: a free pin, few surplus ones, and a name for each pin.

   Correspondence (C++ ↔ Lean):
     `CBasePin::AttemptConnection`, `ReceiveConnection`  ↔ `attempt`
     `TryMediaTypes`, `AgreeMediaType`, `Connect`        ↔ the functions of those names
     `Disconnect`, `DisconnectInternal`                  ↔ `disconnect`
     `CVirtualStreamSinkInputPin::CompleteConnect`       ↔ `completeConnect` -/
namespace VirtualCaptureStream

def VFW_E_INVALID_DIRECTION : HRESULT := Int32.ofBitVec 0x80040208#32
def VFW_E_ALREADY_CONNECTED : HRESULT := Int32.ofBitVec 0x80040204#32
def VFW_E_NO_ACCEPTABLE_TYPES : HRESULT := Int32.ofBitVec 0x80040207#32
def VFW_E_TYPE_NOT_ACCEPTED : HRESULT := Int32.ofBitVec 0x8004022A#32

namespace VirtualStreamSink

/-- How many pins of the list are connected. -/
def connectedPins (s : VirtualStreamSink) : Nat := s.pinList.countP fun p => p.isConnected

/-- The sink, and the largest number of its pins that were connected at one moment
    since it was constructed or renamed. -/
structure Connections where
  sink : VirtualStreamSink
  most : Nat

/-- `m_Connected = pPin`. -/
def Connections.occupy (i : Nat) (c : Connections) : Connections :=
  let sink := c.sink.modifyPin i fun p => { p with isConnected := true }
  ⟨sink, max c.most sink.connectedPins⟩

/-- `m_Connected = NULL`. -/
def Connections.release (i : Nat) (c : Connections) : Connections :=
  { c with sink := c.sink.modifyPin i fun p => { p with isConnected := false } }

/-- SetMediaType: a base class that fails to copy the type fails the call. -/
def Connections.setMediaType (i : Nat) (mt : MediaType) (hr : HRESULT) (c : Connections) :
    Connections :=
  if failed hr then c
  else { c with sink := c.sink.modifyPin i fun p => { p with mt := mt } }

/-- CompleteConnect: the base class agrees, and the result of AddInputPin is not
    looked at. -/
def completeConnect (tick : UInt32) (c : Connections) : Option (HRESULT × Connections) :=
  (addInputPin tick c.sink).map fun s => (S_OK, { c with sink := s })

/-- What one attempt to connect with the type `mt` meets: the other pin's direction,
    the result of the base class's SetMediaType, the answer of the other pin's
    ReceiveConnection, and the tick count. -/
structure AttemptEnv where
  sameDirection : Bool
  mt : MediaType
  setMediaType : HRESULT
  peer : HRESULT
  tick : UInt32

/-- AttemptConnection. ReceiveConnection is the same without a peer to ask. `none`:
    AddInputPin has ended the process. -/
def attempt (i : Nat) (env : AttemptEnv) (c : Connections) : Option (HRESULT × Connections) :=
  if env.sameDirection then some (VFW_E_INVALID_DIRECTION, c)
  else if SinkInputPin.checkMediaType env.mt.amt.majortype ≠ S_OK then
    -- E_INVALIDARG becomes a more helpful code
    some (VFW_E_TYPE_NOT_ACCEPTED, c)
  else
    let c := (c.occupy i).setMediaType i env.mt env.setMediaType
    if failed env.setMediaType then some (env.setMediaType, c.release i)
    else if failed env.peer then some (env.peer, c.release i)
    else completeConnect env.tick c

/-- Connect and ReceiveConnection start with these checks. -/
def connectable (stopped : Bool) (p : InputPin) : HRESULT :=
  if p.isConnected then VFW_E_ALREADY_CONNECTED
  else if !stopped then VFW_E_NOT_STOPPED
  else S_OK

def receiveConnection (i : Nat) (stopped : Bool) (env : AttemptEnv) (p : InputPin)
    (c : Connections) : Option (HRESULT × Connections) :=
  if connectable stopped p ≠ S_OK then some (connectable stopped p, c)
  else attempt i { env with peer := S_OK } c

/-- A code that says more than that the type was not right. -/
def specific (hr : HRESULT) : Bool :=
  hr != E_FAIL && hr != E_INVALIDARG && hr != VFW_E_TYPE_NOT_ACCEPTED

/-- TryMediaTypes: the types of an enumerator that match the one asked for, in
    order, until one connects. -/
def tryMediaTypes (i : Nat) : List AttemptEnv → HRESULT → Connections →
    Option (HRESULT × Connections)
  | [], hrFailure, c =>
    some (if hrFailure = S_OK then VFW_E_NO_ACCEPTABLE_TYPES else hrFailure, c)
  | env :: tries, hrFailure, c =>
    (attempt i env c).bind fun (hr, c) =>
      if hr = S_OK then some (hr, c)
      else tryMediaTypes i tries
        (if failed hr && !failed hrFailure && specific hr then hr else hrFailure) c

/-- What EnumMediaTypes gives: nothing, or an enumerator with the result of its Reset
    and the attempts its types lead to. -/
inductive Enumerator where
  | none
  | types (reset : HRESULT) (tries : List AttemptEnv)

/-- A fully specified type is tried alone; otherwise the other pin's types are tried
    first, then this pin's. -/
inductive ConnectRequest where
  | specified (env : AttemptEnv)
  | enumerated (theirs own : Enumerator)

/-- One turn of AgreeMediaType's loop. -/
def tryEnumerator (i : Nat) (e : Enumerator) (hrFailure : HRESULT) (c : Connections) :
    Option (HRESULT × Connections) :=
  match e with
  | .none => some (hrFailure, c)
  | .types reset tries =>
    (if failed reset then some (reset, c) else tryMediaTypes i tries S_OK c).map fun (hr, c) =>
      (if !failed hr then S_OK else if specific hr then hr else hrFailure, c)

def agreeMediaType (i : Nat) (c : Connections) : ConnectRequest → Option (HRESULT × Connections)
  | .specified env => attempt i env c
  | .enumerated theirs own =>
    (tryEnumerator i theirs VFW_E_NO_ACCEPTABLE_TYPES c).bind fun (hr, c) =>
      if !failed hr then some (S_OK, c) else tryEnumerator i own hr c

def connect (i : Nat) (stopped : Bool) (request : ConnectRequest) (p : InputPin)
    (c : Connections) : Option (HRESULT × Connections) :=
  if connectable stopped p ≠ S_OK then some (connectable stopped p, c)
  else agreeMediaType i c request

/-- Disconnect; `breakConnect` is what BreakConnect returns. -/
def disconnect (i : Nat) (stopped : Bool) (breakConnect : HRESULT) (p : InputPin)
    (c : Connections) : HRESULT × Connections :=
  if !stopped then (VFW_E_NOT_STOPPED, c)
  else if !p.isConnected then (S_FALSE, c)
  else if failed breakConnect then (breakConnect, c)
  else (S_OK, c.release i)

/-- `unlistedConnects`: CompleteConnect of a pin that a rename has dropped from the
    list without deleting it. -/
inductive ConnectAction where
  | receiveConnection (i : Nat) (stopped : Bool) (env : AttemptEnv)
  | connect (i : Nat) (stopped : Bool) (request : ConnectRequest)
  | disconnect (i : Nat) (stopped : Bool) (breakConnect : HRESULT)
  | unlistedConnects (tick : UInt32)
  | setStreamName (name : WStr) (tick : UInt32)

/-- A call on a pin of the sink, or on the sink. -/
def connectStep (c : Connections) : ConnectAction → Option Connections
  | .receiveConnection i stopped env =>
    (c.sink.pinList[i]?).bind fun p => (receiveConnection i stopped env p c).map Prod.snd
  | .connect i stopped request =>
    (c.sink.pinList[i]?).bind fun p => (connect i stopped request p c).map Prod.snd
  | .disconnect i stopped breakConnect =>
    (c.sink.pinList[i]?).map fun p => (disconnect i stopped breakConnect p c).2
  | .unlistedConnects tick => (completeConnect tick c).map Prod.snd
  | .setStreamName name tick => (setStreamName name tick c.sink).map fun s => ⟨s, 0⟩

/-! What attempts leave. -/

/-- An attempt does nothing, or is undone, or ends in CompleteConnect. -/
theorem attempt_cases {i : Nat} {env : AttemptEnv} {c c' : Connections} {hr : HRESULT}
    (h : attempt i env c = some (hr, c')) :
    c' = c ∨ ∃ d, d = (c.occupy i).setMediaType i env.mt env.setMediaType ∧
      (c' = d.release i ∨ completeConnect env.tick d = some (hr, c')) := by
  unfold attempt at h
  split at h
  · obtain ⟨_, rfl⟩ := Prod.mk.inj (Option.some.inj h)
    exact Or.inl rfl
  split at h
  · obtain ⟨_, rfl⟩ := Prod.mk.inj (Option.some.inj h)
    exact Or.inl rfl
  refine Or.inr ⟨_, rfl, ?_⟩
  dsimp only at h
  split at h
  · obtain ⟨_, rfl⟩ := Prod.mk.inj (Option.some.inj h)
    exact Or.inl rfl
  split at h
  · obtain ⟨_, rfl⟩ := Prod.mk.inj (Option.some.inj h)
    exact Or.inl rfl
  · exact Or.inr h

/-- What every attempt at a pin keeps. -/
def KeptByAttempts (i : Nat) (I : Connections → Prop) : Prop :=
  ∀ env c c' hr, I c → attempt i env c = some (hr, c') → I c'

section
variable {i : Nat} {I : Connections → Prop} (hI : KeptByAttempts i I) {c c' : Connections}
  {hr hrFailure : HRESULT}
include hI

theorem KeptByAttempts.tryMediaTypes : ∀ (tries : List AttemptEnv) {hrFailure : HRESULT}
    {c : Connections}, I c → tryMediaTypes i tries hrFailure c = some (hr, c') → I c'
  | [], _, _, hc, h => by
    obtain ⟨_, rfl⟩ := Prod.mk.inj (Option.some.inj h)
    exact hc
  | env :: tries, _, c, hc, h => by
    obtain ⟨⟨hr₁, c₁⟩, hattempt, hrest⟩ := Option.bind_eq_some_iff.mp h
    have hc₁ := hI env c c₁ hr₁ hc hattempt
    dsimp only at hrest
    split at hrest
    · obtain ⟨_, rfl⟩ := Prod.mk.inj (Option.some.inj hrest)
      exact hc₁
    · exact KeptByAttempts.tryMediaTypes tries hc₁ hrest

theorem KeptByAttempts.tryEnumerator {e : Enumerator} (hc : I c)
    (h : tryEnumerator i e hrFailure c = some (hr, c')) : I c' := by
  cases e with
  | none =>
    obtain ⟨_, rfl⟩ := Prod.mk.inj (Option.some.inj h)
    exact hc
  | types reset tries =>
    obtain ⟨⟨hr₁, c₁⟩, htry, heq⟩ := Option.map_eq_some_iff.mp h
    obtain ⟨_, rfl⟩ := Prod.mk.inj heq
    split at htry
    · obtain ⟨_, rfl⟩ := Prod.mk.inj (Option.some.inj htry)
      exact hc
    · exact hI.tryMediaTypes tries hc htry

theorem KeptByAttempts.agreeMediaType {request : ConnectRequest} (hc : I c)
    (h : agreeMediaType i c request = some (hr, c')) : I c' := by
  cases request with
  | specified env => exact hI env c c' hr hc h
  | enumerated theirs own =>
    obtain ⟨⟨hr₁, c₁⟩, htheirs, hown⟩ := Option.bind_eq_some_iff.mp h
    have hc₁ := hI.tryEnumerator hc htheirs
    dsimp only at hown
    split at hown
    · obtain ⟨_, rfl⟩ := Prod.mk.inj (Option.some.inj hown)
      exact hc₁
    · exact hI.tryEnumerator hc₁ hown

theorem KeptByAttempts.connect {stopped : Bool} {request : ConnectRequest} {p : InputPin} (hc : I c)
    (h : connect i stopped request p c = some (hr, c')) : I c' := by
  unfold VirtualStreamSink.connect at h
  split at h
  · obtain ⟨_, rfl⟩ := Prod.mk.inj (Option.some.inj h)
    exact hc
  · exact hI.agreeMediaType hc h

theorem KeptByAttempts.receiveConnection {stopped : Bool} {env : AttemptEnv} {p : InputPin}
    (hc : I c) (h : receiveConnection i stopped env p c = some (hr, c')) : I c' := by
  unfold VirtualStreamSink.receiveConnection at h
  split at h
  · obtain ⟨_, rfl⟩ := Prod.mk.inj (Option.some.inj h)
    exact hc
  · exact hI _ c c' hr hc h

end

/-! The spare pin. -/

/-- There is a free pin, and at most one pin more than were connected at one moment. -/
structure Spare (c : Connections) : Prop where
  free : ∃ p ∈ c.sink.pinList, p.isConnected = false
  bound : c.sink.pinList.length ≤ c.most + 1

theorem modifyPin_length (s : VirtualStreamSink) (i : Nat) (f : InputPin → InputPin) :
    (s.modifyPin i f).pinList.length = s.pinList.length := by
  rw [modifyPin, List.length_modify]

/-- A change that leaves the connections alone. -/
theorem connectedPins_modifyPin (s : VirtualStreamSink) (i : Nat) {f : InputPin → InputPin}
    (hf : ∀ p, (f p).isConnected = p.isConnected) :
    (s.modifyPin i f).connectedPins = s.connectedPins := by
  unfold connectedPins modifyPin
  dsimp only
  induction s.pinList generalizing i with
  | nil => rw [List.modify_nil]
  | cons p l ih =>
    cases i with
    | zero => simp only [List.modify_zero_cons, List.countP_cons, hf]
    | succ i => simp only [List.modify_succ_cons, List.countP_cons, ih]

/-- AddInputPin leaves a free pin, and adds one only to a list of connected pins. -/
theorem addInputPin_spare {tick : UInt32} {s t : VirtualStreamSink}
    (h : addInputPin tick s = some t) :
    (∃ p ∈ t.pinList, p.isConnected = false) ∧
      (t.pinList.length = s.pinList.length ∨
        t.pinList.length = s.pinList.length + 1 ∧ s.connectedPins = s.pinList.length) := by
  rcases addInputPin_cases h with ⟨hfree, rfl⟩ | ⟨hall, -, rfl⟩
  · exact ⟨hfree, Or.inl rfl⟩
  · refine ⟨⟨_, List.mem_append_right _ (List.mem_singleton_self _), rfl⟩, Or.inr ⟨?_, ?_⟩⟩
    · rw [List.length_append, List.length_singleton]
    · exact List.countP_eq_length.mpr hall

/-- The pins that are connected when CompleteConnect is called are counted. -/
theorem setMediaType_occupy (c : Connections) (i : Nat) (mt : MediaType) (hr : HRESULT) :
    ((c.occupy i).setMediaType i mt hr).sink.pinList.length = c.sink.pinList.length ∧
      c.most ≤ ((c.occupy i).setMediaType i mt hr).most ∧
      ((c.occupy i).setMediaType i mt hr).sink.connectedPins ≤
        ((c.occupy i).setMediaType i mt hr).most := by
  unfold Connections.setMediaType
  split
  · exact ⟨modifyPin_length _ i _, Nat.le_max_left _ _, Nat.le_max_right _ _⟩
  · refine ⟨?_, Nat.le_max_left _ _, ?_⟩
    · rw [modifyPin_length]
      exact modifyPin_length _ i _
    · have hsame : ((c.occupy i).sink.modifyPin i fun p => { p with mt := mt }).connectedPins =
          (c.occupy i).sink.connectedPins := connectedPins_modifyPin _ i fun _ => rfl
      show ((c.occupy i).sink.modifyPin i fun p => { p with mt := mt }).connectedPins ≤ _
      rw [hsame]
      exact Nat.le_max_right _ _

/-- A pin that was released is free. -/
theorem free_release {c : Connections} {i : Nat} (hi : i < c.sink.pinList.length) :
    ∃ p ∈ (c.release i).sink.pinList, p.isConnected = false := by
  have hat : (c.release i).sink.pinList[i]? =
      some { c.sink.pinList[i] with isConnected := false } := by
    simp only [Connections.release, modifyPin, List.getElem?_modify, if_true,
      List.getElem?_eq_getElem hi, Option.map_eq_map, Option.map_some]
  exact ⟨_, List.mem_of_getElem? hat, rfl⟩

theorem spare_keptByAttempts (i : Nat) :
    KeptByAttempts i fun c => Spare c ∧ i < c.sink.pinList.length := by
  intro env c c' hr hc h
  obtain ⟨⟨hfree, hbound⟩, hi⟩ := hc
  rcases attempt_cases h with rfl | ⟨d, rfl, hend⟩
  · exact ⟨⟨hfree, hbound⟩, hi⟩
  obtain ⟨hlen, hmost, hcount⟩ := setMediaType_occupy c i env.mt env.setMediaType
  generalize (c.occupy i).setMediaType i env.mt env.setMediaType = d at hend hlen hmost hcount
  rcases hend with rfl | hcomplete
  · -- undone: the pin is free again
    have hlen' : (d.release i).sink.pinList.length = d.sink.pinList.length :=
      modifyPin_length _ i _
    refine ⟨⟨free_release (by omega), ?_⟩, by omega⟩
    show (d.release i).sink.pinList.length ≤ d.most + 1
    omega
  · obtain ⟨t, hadd, heq⟩ := Option.map_eq_some_iff.mp hcomplete
    obtain ⟨_, rfl⟩ := Prod.mk.inj heq
    obtain ⟨hfree', hsize⟩ := addInputPin_spare hadd
    refine ⟨⟨hfree', ?_⟩, ?_⟩
    · show t.pinList.length ≤ d.most + 1
      omega
    · show i < t.pinList.length
      omega

theorem Spare.step (c : Connections) (a : ConnectAction) (c' : Connections) (h : Spare c)
    (hstep : connectStep c a = some c') : Spare c' := by
  have inRange : ∀ {i : Nat} {p : InputPin}, c.sink.pinList[i]? = some p →
      i < c.sink.pinList.length := fun hp => (List.getElem?_eq_some_iff.mp hp).1
  cases a with
  | receiveConnection i stopped env =>
    obtain ⟨p, hp, hcall⟩ := Option.bind_eq_some_iff.mp hstep
    obtain ⟨⟨hr, d⟩, hres, rfl⟩ := Option.map_eq_some_iff.mp hcall
    exact ((spare_keptByAttempts i).receiveConnection ⟨h, inRange hp⟩ hres).1
  | connect i stopped request =>
    obtain ⟨p, hp, hcall⟩ := Option.bind_eq_some_iff.mp hstep
    obtain ⟨⟨hr, d⟩, hres, rfl⟩ := Option.map_eq_some_iff.mp hcall
    exact ((spare_keptByAttempts i).connect ⟨h, inRange hp⟩ hres).1
  | disconnect i stopped breakConnect =>
    obtain ⟨p, hp, rfl⟩ := Option.map_eq_some_iff.mp hstep
    unfold disconnect
    repeat' split
    all_goals first
      | exact h
      | refine ⟨free_release (inRange hp), ?_⟩
        show (c.sink.modifyPin i _).pinList.length ≤ c.most + 1
        rw [modifyPin_length]
        exact h.bound
  | unlistedConnects tick =>
    have hany : c.sink.pinList.any (fun p => !p.isConnected) = true := any_free_iff.mpr h.free
    rw [connectStep, completeConnect, addInputPin, if_pos hany] at hstep
    obtain rfl := Option.some.inj hstep
    exact h
  | setStreamName name tick =>
    obtain ⟨t, hset, rfl⟩ := Option.map_eq_some_iff.mp hstep
    obtain ⟨hfree, hsize⟩ := addInputPin_spare hset
    refine ⟨hfree, ?_⟩
    show t.pinList.length ≤ 0 + 1
    rcases hsize with hsame | ⟨hsame, _⟩ <;> simp [hsame]

/-- **There is always a free input pin, and no surplus**: the list is never longer
    than one more than the most pins that were connected at one moment since the
    sink was constructed or renamed. -/
theorem spare_pin (tick : UInt32) (s : VirtualStreamSink) (hs : constructed tick = some s)
    (as : List ConnectAction) (u : Connections)
    (hrun : Transition.run connectStep ⟨s, 0⟩ as = some u) :
    (∃ p ∈ u.sink.pinList, p.isConnected = false) ∧ u.sink.pinList.length ≤ u.most + 1 := by
  have hnew : Spare ⟨s, 0⟩ := by
    obtain ⟨hfree, hsize⟩ := addInputPin_spare hs
    refine ⟨hfree, ?_⟩
    show s.pinList.length ≤ 0 + 1
    rcases hsize with hsame | ⟨hsame, _⟩ <;> simp [hsame]
  have hu := Transition.run_invariant Spare.step as ⟨s, 0⟩ u hnew hrun
  exact ⟨hu.free, hu.bound⟩

/-- A pin is connected while the other side refuses it, and nothing is added. -/
def refusedThenConnected : List ConnectAction :=
  [.receiveConnection 0 true ⟨false, bareVideo, E_FAIL, S_OK, 0⟩,
    .connect 0 true (.specified ⟨false, bareVideo, S_OK, E_FAIL, 0⟩),
    .receiveConnection 0 true ⟨false, bareVideo, S_OK, S_OK, 0⟩, .disconnect 0 true S_OK]

theorem spare_pin_refused :
    ∃ s u, constructed 0 = some s ∧
      Transition.run connectStep ⟨s, 0⟩ refusedThenConnected = some u ∧
      (∃ p ∈ u.sink.pinList, p.isConnected = false) ∧ u.sink.pinList.length ≤ u.most + 1 :=
  ⟨_, _, rfl, rfl, spare_pin 0 _ rfl refusedThenConnected _ rfl⟩

/-! The names. -/

/-- What changes of a pin's connection and type, AddInputPin and SetStreamName keep,
    where a change of a pin leaves its identity, name and path alone. -/
structure KeptByCalls (I : VirtualStreamSink → Prop) : Prop where
  modify : ∀ {s : VirtualStreamSink} {i : Nat} {f : InputPin → InputPin}, I s →
    (∀ p, (f p).id = p.id) → (∀ p, (f p).pName = p.pName) →
    (∀ p, (f p).lpszPipename = p.lpszPipename) → I (s.modifyPin i f)
  add : ∀ {s t : VirtualStreamSink} {tick : UInt32}, I s → addInputPin tick s = some t → I t
  rename : ∀ {s t : VirtualStreamSink} {name : WStr} {tick : UInt32}, I s →
    setStreamName name tick s = some t → I t

section
variable {I : VirtualStreamSink → Prop} (hI : KeptByCalls I)
include hI

theorem KeptByCalls.completeConnect {tick : UInt32} {c c' : Connections} {hr : HRESULT}
    (hc : I c.sink) (h : completeConnect tick c = some (hr, c')) : I c'.sink := by
  obtain ⟨t, hadd, heq⟩ := Option.map_eq_some_iff.mp h
  obtain ⟨_, rfl⟩ := Prod.mk.inj heq
  exact hI.add hc hadd

theorem KeptByCalls.attempts (i : Nat) : KeptByAttempts i fun c => I c.sink := by
  intro env c c' hr hc h
  rcases attempt_cases h with rfl | ⟨d, rfl, hend⟩
  · exact hc
  have hd : I ((c.occupy i).setMediaType i env.mt env.setMediaType).sink := by
    have hoccupy : I (c.occupy i).sink :=
      hI.modify hc (fun _ => rfl) (fun _ => rfl) (fun _ => rfl)
    unfold Connections.setMediaType
    split
    · exact hoccupy
    · exact hI.modify hoccupy (fun _ => rfl) (fun _ => rfl) (fun _ => rfl)
  rcases hend with rfl | hcomplete
  · exact hI.modify hd (fun _ => rfl) (fun _ => rfl) (fun _ => rfl)
  · exact hI.completeConnect hd hcomplete

theorem KeptByCalls.connectStep (c : Connections) (a : ConnectAction) (c' : Connections)
    (h : I c.sink) (hstep : connectStep c a = some c') : I c'.sink := by
  cases a with
  | receiveConnection i stopped env =>
    obtain ⟨p, _, hcall⟩ := Option.bind_eq_some_iff.mp hstep
    obtain ⟨⟨hr, d⟩, hres, rfl⟩ := Option.map_eq_some_iff.mp hcall
    exact (hI.attempts i).receiveConnection h hres
  | connect i stopped request =>
    obtain ⟨p, _, hcall⟩ := Option.bind_eq_some_iff.mp hstep
    obtain ⟨⟨hr, d⟩, hres, rfl⟩ := Option.map_eq_some_iff.mp hcall
    exact (hI.attempts i).connect h hres
  | disconnect i stopped breakConnect =>
    obtain ⟨p, _, rfl⟩ := Option.map_eq_some_iff.mp hstep
    unfold disconnect
    repeat' split
    all_goals first
      | exact h
      | exact hI.modify h (fun _ => rfl) (fun _ => rfl) (fun _ => rfl)
  | unlistedConnects tick =>
    obtain ⟨⟨hr, d⟩, hres, rfl⟩ := Option.map_eq_some_iff.mp hstep
    exact hI.completeConnect h hres
  | setStreamName name tick =>
    obtain ⟨t, hset, rfl⟩ := Option.map_eq_some_iff.mp hstep
    exact hI.rename h hset

/-- Every run from the constructor on keeps it. -/
theorem KeptByCalls.run {c c' : Connections} {as : List ConnectAction} (hc : I c.sink)
    (hrun : Transition.run VirtualStreamSink.connectStep c as = some c') : I c'.sink :=
  Transition.run_invariant (I := fun c => I c.sink) hI.connectStep as c c' hc hrun

end

theorem named_kept : KeptByCalls Named where
  modify h _ hname hpath := named_modifyPin h hname hpath
  add := named_addInputPin
  rename _ hset := named_addInputPin (named_empty rfl) hset

/-- The index tells the pins of a list apart, and the paths keep the names apart. -/
theorem Named.distinct {s : VirtualStreamSink} (h : Named s) {i j : Nat} {p q : InputPin}
    (hp : s.pinList[i]? = some p) (hq : s.pinList[j]? = some q) (hij : i ≠ j) :
    p.pName ≠ q.pName ∧ p.lpszPipename ≠ q.lpszPipename := by
  obtain ⟨⟨t, hnamep⟩, _, hpathp⟩ := h i p hp
  obtain ⟨⟨t', hnameq⟩, _, hpathq⟩ := h j q hq
  have hname : p.pName ≠ q.pName := by
    intro hsame
    rw [hnamep, hnameq] at hsame
    have hindex := formatPinName_index hsame
    omega
  refine ⟨hname, fun hsame => hname ?_⟩
  rw [hpathp, hpathq, sinkPipePath, sinkPipePath, List.append_cancel_left_eq] at hsame
  exact hsame

/-- **Sink pin names are pairwise distinct**, and so are the data pipe paths, whatever
    the tick counts were. -/
theorem names_distinct (tick : UInt32) (s : VirtualStreamSink) (hs : constructed tick = some s)
    (as : List ConnectAction) (u : Connections)
    (hrun : Transition.run connectStep ⟨s, 0⟩ as = some u) (i j : Nat) (p q : InputPin)
    (hp : u.sink.pinList[i]? = some p) (hq : u.sink.pinList[j]? = some q) (hij : i ≠ j) :
    p.pName ≠ q.pName ∧ p.lpszPipename ≠ q.lpszPipename := by
  have hnamed : Named s := named_addInputPin (named_empty rfl) hs
  exact (named_kept.run hnamed hrun).distinct hp hq hij

/-- Two pins made at the same tick. -/
theorem names_distinct_same_tick :
    ∃ s u p q, constructed 0 = some s ∧
      Transition.run connectStep ⟨s, 0⟩ refusedThenConnected = some u ∧
      u.sink.pinList[0]? = some p ∧ u.sink.pinList[1]? = some q ∧
      p.pName ≠ q.pName ∧ p.lpszPipename ≠ q.lpszPipename :=
  ⟨_, _, _, _, rfl, rfl, rfl, rfl,
    names_distinct 0 _ rfl refusedThenConnected _ rfl 0 1 _ _ rfl rfl (by decide)⟩

end VirtualStreamSink

end VirtualCaptureStream
