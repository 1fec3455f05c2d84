import VirtualCaptureStream.PinDescriptor
import VirtualCaptureStream.SourceHandles

/- Discovery once more. SetStreamName of the source runs CreateOutputPins on a filter
   that has pins: they are disconnected, removed and deleted before the pipe is opened,
   what Disconnect says is ignored, and so is what CreateOutputPins says. The result is
   S_OK on every path; `all_or_nothing_iff` says when that is the truth.

   Correspondence (C++ ↔ Lean):
     `CBasePin::Disconnect`                      ↔ `disconnect`
     the loop over the old pins, one turn of it  ↔ `removeOutputPins`, `removeOutputPin`
     `CVirtualStreamSource::SetStreamName`       ↔ `setStreamName`

   BreakConnect of an output pin fails where the allocator's Decommit does. `none` stands
   for undefined behaviour, and for a call that does not return. -/
namespace VirtualCaptureStream

open SourceOutputPin (ConnectEnv opens openLoop isOpen)

/-- An output pin of the filter; `thread`: its streaming thread exists. -/
structure SourcePin where
  id : Nat
  created : CreatedPin
  isConnected : Bool
  thread : Bool

/-- The filter: `m_pinList`, the pins `m_paStreams` of CSource by their numbers, how many
    were made, and those that were deleted. -/
structure VirtualStreamSource where
  state : FilterState
  pinList : List SourcePin
  paStreams : List Nat
  made : Nat
  deleted : List Nat

/-- What the calls of SetStreamName find; `breakConnect`: what it returns for a pin. -/
structure DiscoveryEnv where
  cp : CodePage
  decode : DecodeEnv
  connect : ConnectEnv
  breakConnect : Nat → HRESULT

namespace VirtualStreamSource

/-- Disconnect: refused while the filter is active; a pin that is not connected is no
    failure. -/
def disconnect (state : FilterState) (breakConnect : Nat → HRESULT) (p : SourcePin) :
    HRESULT × SourcePin :=
  if state ≠ .stopped then (VFW_E_NOT_STOPPED, p)
  else if p.isConnected then
    if failed (breakConnect p.id) then (breakConnect p.id, p)
    else (S_OK, { p with isConnected := false })
  else (S_FALSE, p)

/-- Disconnect, RemovePin and delete. The destructor waits for the streaming thread,
    which ends only when it is told to, and calls RemovePin itself. -/
def removeOutputPin (breakConnect : Nat → HRESULT) (s : VirtualStreamSource) (p : SourcePin) :
    Option VirtualStreamSource :=
  let p := (disconnect s.state breakConnect p).2
  let s := { s with paStreams := s.paStreams.erase p.id }
  if p.thread then none
  else some { s with paStreams := s.paStreams.erase p.id, deleted := p.id :: s.deleted }

/-- The loop over the old pins. -/
def removeOutputPins (breakConnect : Nat → HRESULT) :
    VirtualStreamSource → List SourcePin → Option VirtualStreamSource
  | s, [] => some s
  | s, p :: ps =>
    (removeOutputPin breakConnect s p).bind fun s => removeOutputPins breakConnect s ps

/-- The pins of one discovery, numbered from `made` on. -/
def newPins (made : Nat) : List CreatedPin → List SourcePin
  | [] => []
  | c :: cs => ⟨made, c, false, false⟩ :: newPins (made + 1) cs

/-- What SetStreamName returns and leaves behind. -/
structure Rediscovery where
  hr : HRESULT
  source : VirtualStreamSource
  calls : List OsCall
  unread : List Msg

/-- SetStreamName; the result of CreateOutputPins is not looked at. -/
def setStreamName (env : DiscoveryEnv) (szStreamName : WStr) (calls : List OsCall)
    (msgs : List Msg) (s : VirtualStreamSource) : Option Rediscovery :=
  (removeOutputPins env.breakConnect s s.pinList).bind fun s =>
    (createOutputPins env.cp env.decode env.connect szStreamName calls msgs).map fun d =>
      let pins := newPins s.made d.pinList
      { hr := S_OK
        source := { s with
          pinList := pins
          paStreams := s.paStreams ++ pins.map (·.id)
          made := s.made + pins.length }
        calls := d.calls
        unread := d.unread }

/-! The old pins. -/

/-- Each old pin can be disconnected, and its thread is gone. -/
def Removable (breakConnect : Nat → HRESULT) (s : VirtualStreamSource) : Prop :=
  ∀ p ∈ s.pinList, s.state = .stopped ∧ p.thread = false ∧
    (p.isConnected = true → failed (breakConnect p.id) = false)

theorem disconnect_ok_iff {state : FilterState} {breakConnect : Nat → HRESULT} {p : SourcePin} :
    failed (disconnect state breakConnect p).1 = false ↔
      state = .stopped ∧ (p.isConnected = true → failed (breakConnect p.id) = false) := by
  unfold disconnect
  by_cases hstate : state = .stopped
  · rw [if_neg (not_not_intro hstate)]
    cases hconn : p.isConnected
    · have hfalse : failed S_FALSE = false := by decide
      simp [hstate, hfalse]
    · cases hbreak : failed (breakConnect p.id) <;> simp [hstate, hbreak]
  · rw [if_pos hstate]
    have hrefused : failed VFW_E_NOT_STOPPED = true := by decide
    simp [hstate, hrefused]

@[simp] theorem disconnect_id (state : FilterState) (breakConnect : Nat → HRESULT)
    (p : SourcePin) : (disconnect state breakConnect p).2.id = p.id := by
  unfold disconnect
  repeat' split
  all_goals rfl

@[simp] theorem disconnect_thread (state : FilterState) (breakConnect : Nat → HRESULT)
    (p : SourcePin) : (disconnect state breakConnect p).2.thread = p.thread := by
  unfold disconnect
  repeat' split
  all_goals rfl

/-- A turn goes through exactly when the pin has no thread. -/
theorem removeOutputPin_eq_some_iff {breakConnect : Nat → HRESULT} {s t : VirtualStreamSource}
    {p : SourcePin} : removeOutputPin breakConnect s p = some t ↔
      p.thread = false ∧
        t = { s with
          paStreams := (s.paStreams.erase p.id).erase p.id, deleted := p.id :: s.deleted } := by
  simp only [removeOutputPin, disconnect_id, disconnect_thread, Option.ite_none_left_eq_some,
    Bool.not_eq_true, Option.some.injEq]
  exact and_congr_right fun _ => eq_comm

/-- The loop deletes them all, whatever Disconnect says. -/
theorem removeOutputPins_spec {breakConnect : Nat → HRESULT} {ps : List SourcePin}
    {s t : VirtualStreamSource} (h : removeOutputPins breakConnect s ps = some t) :
    (∀ p ∈ ps, p.thread = false) ∧ ∀ id, id ∈ t.deleted ↔ id ∈ ps.map (·.id) ∨ id ∈ s.deleted := by
  induction ps generalizing s with
  | nil =>
    obtain rfl := Option.some.inj h
    simp
  | cons p ps ih =>
    obtain ⟨s', hp, hps⟩ := Option.bind_eq_some_iff.mp h
    obtain ⟨hthread, rfl⟩ := removeOutputPin_eq_some_iff.mp hp
    obtain ⟨hthreads, hdeleted⟩ := ih hps
    refine ⟨?_, ?_⟩
    · intro q hq
      rcases List.mem_cons.mp hq with rfl | hq
      · exact hthread
      · exact hthreads q hq
    · intro id
      rw [hdeleted, List.map_cons, List.mem_cons, List.mem_cons]
      exact or_left_comm.trans or_assoc.symm

theorem removeOutputPins_isSome (breakConnect : Nat → HRESULT) {ps : List SourcePin}
    (s : VirtualStreamSource) (h : ∀ p ∈ ps, p.thread = false) :
    ∃ t, removeOutputPins breakConnect s ps = some t := by
  induction ps generalizing s with
  | nil => exact ⟨s, rfl⟩
  | cons p ps ih =>
    have hp : removeOutputPin breakConnect s p = some _ :=
      removeOutputPin_eq_some_iff.mpr ⟨h p List.mem_cons_self, rfl⟩
    obtain ⟨t, ht⟩ := ih _ fun q hq => h q (List.mem_cons_of_mem p hq)
    exact ⟨t, Option.bind_eq_some_iff.mpr ⟨_, hp, ht⟩⟩

/-! The records. -/

/-- The loop makes a pin of the `k`-th message: it is not empty, fits the buffer, brings
    no `pUnk`, and its name can be printed. -/
structure Record (cp : CodePage) (env : DecodeEnv) (k : Nat) (m : Msg) : Prop where
  not_empty : m ≠ []
  fits : m.length ≤ BUFSIZE
  no_pUnk : (AmMediaType.codec.dec
    (readOver (env.amt k) ((m.drop 100).take AmMediaType.codec.size))).pUnk = 0
  printable : (installName cp (readOver (List.replicate 100 0) (m.take 100))).isSome = true

/-- The messages are records up to the empty one. -/
def Complete (cp : CodePage) (env : DecodeEnv) (msgs : List Msg) : Prop :=
  ∃ records rest, msgs = records ++ [] :: rest ∧
    ∀ k m, records[k]? = some m → Record cp env k m

/-- The loop read the records up to the empty message, and made one pin of each. -/
def ReadAll (cp : CodePage) (env : DecodeEnv) (msgs : List Msg) (pins : List CreatedPin)
    (unread : List Msg) : Prop :=
  ∃ records, msgs = records ++ [] :: unread ∧ (∀ m ∈ records, m ≠ []) ∧
    pins.length = records.length ∧
    ∀ k m pin, records[k]? = some m → pins[k]? = some pin →
      decodePin cp env k m = some pin ∧ pin.pName.isSome = true

theorem Record.decodes {cp : CodePage} {env : DecodeEnv} {k : Nat} {m : Msg}
    (h : Record cp env k m) :
    ∃ pin, decodePin cp env k m = some pin ∧ pin.pName.isSome = true := by
  unfold decodePin
  dsimp only
  rw [if_neg (not_not_intro h.no_pUnk)]
  exact ⟨_, rfl, h.printable⟩

theorem Record.of_decodes {cp : CodePage} {env : DecodeEnv} {k : Nat} {m : Msg}
    {pin : CreatedPin} (hne : m ≠ []) (hfit : m.length ≤ BUFSIZE)
    (hdec : decodePin cp env k m = some pin) (hname : pin.pName.isSome = true) :
    Record cp env k m := by
  unfold decodePin at hdec
  dsimp only at hdec
  rw [Option.ite_none_left_eq_some] at hdec
  obtain ⟨hunk, hpin⟩ := hdec
  obtain rfl := Option.some.inj hpin
  exact ⟨hne, hfit, not_not.mp hunk, hname⟩

/-- The loop over records. The induction is on them, from any iteration on. -/
theorem readRecords_records {cp : CodePage} {env : DecodeEnv} (rest : List Msg)
    {records : List Msg} {k : Nat}
    (h : ∀ j m, records[j]? = some m → Record cp env (k + j) m) :
    ∃ pins, readRecords cp env k (records ++ [] :: rest) = some (pins, rest) ∧
      pins.length = records.length ∧
      ∀ j m pin, records[j]? = some m → pins[j]? = some pin →
        decodePin cp env (k + j) m = some pin ∧ pin.pName.isSome = true := by
  induction records generalizing k with
  | nil =>
    refine ⟨[], readRecords_terminator cp env k rest, rfl, ?_⟩
    intro j m pin hm
    cases hm
  | cons m records ih =>
    have hrec : Record cp env k m := h 0 m rfl
    obtain ⟨pin, hdec, hname⟩ := hrec.decodes
    have hrecs : ∀ j m', records[j]? = some m' → Record cp env (k + 1 + j) m' := by
      intro j m' hm'
      have := h (j + 1) m' hm'
      rwa [← Nat.add_assoc, Nat.add_right_comm] at this
    obtain ⟨pins, hrun, hlen, hall⟩ := ih hrecs
    refine ⟨pin :: pins, ?_, congrArg (· + 1) hlen, ?_⟩
    · rw [List.cons_append, readRecords_cons hrec.not_empty hrec.fits, hdec, Option.bind_some, hrun,
        Option.map_some]
    · intro j m' pin' hm' hpin'
      cases j with
      | zero =>
        obtain rfl := Option.some.inj hm'
        obtain rfl := Option.some.inj hpin'
        exact ⟨hdec, hname⟩
      | succ j =>
        have := hall j m' pin' hm' hpin'
        rwa [← Nat.add_assoc, Nat.add_right_comm]

/-- A message that does not fit ends the loop, and its remainder is left in the pipe. -/
theorem readRecords_long {cp : CodePage} {env : DecodeEnv} {k : Nat} {m : Msg}
    {msgs unread : List Msg} {pins : List CreatedPin} (hlong : ¬ m.length ≤ BUFSIZE)
    (hrun : readRecords cp env k (m :: msgs) = some (pins, unread)) :
    unread = m.drop BUFSIZE :: msgs := by
  have hread : readMessage BUFSIZE (m :: msgs) =
      (⟨false, m.take BUFSIZE, true⟩, m.drop BUFSIZE :: msgs) := by
    rw [readMessage, if_neg hlong]
  have htake : m.take BUFSIZE ≠ [] := by
    intro e
    have hlen := congrArg List.length e
    rw [List.length_take, List.length_nil] at hlen
    have hpos : 0 < BUFSIZE := by decide
    omega
  rw [readRecords, hread] at hrun
  simp only [htake, Bool.true_eq_false, and_false, or_self, if_false, Bool.false_eq_true] at hrun
  obtain ⟨pin, _, heq⟩ := Option.bind_eq_some_iff.mp hrun
  exact (congrArg Prod.snd (Option.some.inj heq)).symm

/-- A loop that got to the terminator found records only. -/
theorem records_of_readRecords {cp : CodePage} {env : DecodeEnv} {rest records : List Msg}
    {k : Nat} {pins : List CreatedPin} (hne : ∀ m ∈ records, m ≠ [])
    (hrun : readRecords cp env k (records ++ [] :: rest) = some (pins, rest))
    (hnames : ∀ pin ∈ pins, pin.pName.isSome = true) :
    ∀ j m, records[j]? = some m → Record cp env (k + j) m := by
  induction records generalizing k pins with
  | nil =>
    intro j m hm
    cases hm
  | cons m records ih =>
    have hm := hne m List.mem_cons_self
    rw [List.cons_append] at hrun
    have hfit : m.length ≤ BUFSIZE := by
      by_contra hlong
      -- what is left unread is longer than what is behind the terminator
      have hlen := congrArg List.length (readRecords_long hlong hrun)
      simp only [List.length_cons, List.length_append] at hlen
      omega
    rw [readRecords_cons hm hfit] at hrun
    obtain ⟨pin, hdec, hrun⟩ := Option.bind_eq_some_iff.mp hrun
    obtain ⟨⟨pins', unread⟩, hrest, heq⟩ := Option.map_eq_some_iff.mp hrun
    simp only [Prod.mk.injEq] at heq
    obtain ⟨rfl, rfl⟩ := heq
    have hrecs := ih (fun m' hm' => hne m' (List.mem_cons_of_mem m hm')) hrest
      fun p hp => hnames p (List.mem_cons_of_mem pin hp)
    intro j m' hm'
    cases j with
    | zero =>
      obtain rfl := Option.some.inj hm'
      exact Record.of_decodes hm hfit hdec (hnames pin List.mem_cons_self)
    | succ j =>
      have := hrecs j m' hm'
      rwa [Nat.add_assoc, Nat.add_comm 1 j] at this

/-- All is read exactly of a complete sequence. -/
theorem readAll_iff {cp : CodePage} {env : DecodeEnv} {msgs : List Msg} :
    (∃ pins unread, readRecords cp env 0 msgs = some (pins, unread) ∧
      ReadAll cp env msgs pins unread) ↔ Complete cp env msgs := by
  refine ⟨?_, ?_⟩
  · rintro ⟨pins, unread, hrun, records, rfl, hne, hlen, hall⟩
    refine ⟨records, unread, rfl, ?_⟩
    have hnames : ∀ pin ∈ pins, pin.pName.isSome = true := by
      intro pin hpin
      obtain ⟨k, hk⟩ := List.mem_iff_getElem?.mp hpin
      obtain ⟨hlt, _⟩ := List.getElem?_eq_some_iff.mp hk
      have hm := List.getElem?_eq_getElem (hlen ▸ hlt)
      exact (hall k _ pin hm hk).2
    intro k m hm
    have := records_of_readRecords hne hrun hnames k m hm
    rwa [Nat.zero_add] at this
  · rintro ⟨records, rest, rfl, hrec⟩
    obtain ⟨pins, hrun, hlen, hall⟩ := readRecords_records rest (k := 0)
      fun j m hm => by
        rw [Nat.zero_add]
        exact hrec j m hm
    refine ⟨pins, rest, hrun, records, rfl, ?_, hlen, ?_⟩
    · intro m hm
      obtain ⟨k, hk⟩ := List.mem_iff_getElem?.mp hm
      exact (hrec k m hk).not_empty
    · intro k m pin hm hpin
      have := hall k m pin hm hpin
      rwa [Nat.zero_add] at this

/-! All or nothing. -/

/-- What SetStreamName of `s` should have done: S_OK for a discovery that read everything,
    else a failure that leaves the old pins in place and nothing open; and no pin whose
    Disconnect failed is destroyed. -/
structure AllOrNothing (env : DiscoveryEnv) (calls : List OsCall) (msgs : List Msg)
    (s : VirtualStreamSource) (r : Rediscovery) : Prop where
  ok : r.hr = S_OK ↔
    ReadAll env.cp env.decode msgs (r.source.pinList.map (·.created)) r.unread
  kept : r.hr ≠ S_OK → failed r.hr = true ∧ r.source.pinList = s.pinList ∧
    r.source.paStreams = s.paStreams ∧ ∀ n, isOpen r.calls n = true → isOpen calls n = true
  replaced : ∀ p ∈ s.pinList, p.id ∈ r.source.deleted →
    failed (disconnect s.state env.breakConnect p).1 = false

theorem newPins_created (made : Nat) (cs : List CreatedPin) :
    (newPins made cs).map (·.created) = cs := by
  induction cs generalizing made with
  | nil => rfl
  | cons c cs ih => rw [newPins, List.map_cons, ih]

/-- A discovery that fails comes back with no pin and with every message unread. -/
theorem createOutputPins_eq {env : DiscoveryEnv} {szPipeName : WStr} {calls : List OsCall}
    {msgs : List Msg} {d : Discovery}
    (h : createOutputPins env.cp env.decode env.connect szPipeName calls msgs = some d) :
    (opens env.connect.attempts = true ∧ env.connect.modeSet = true ∧
      readRecords env.cp env.decode 0 msgs = some (d.pinList, d.unread)) ∨
    ((opens env.connect.attempts = false ∨ env.connect.modeSet = false) ∧
      d.pinList = [] ∧ d.unread = msgs) := by
  obtain ⟨⟨hPipe, opened, calls'⟩, hloop, h⟩ := Option.bind_eq_some_iff.mp h
  obtain ⟨hopened, _⟩ := SourceOutputPin.openLoop_opened hloop
  dsimp only at h
  split at h
  · rename_i hnot
    obtain rfl := Option.some.inj h
    exact Or.inr ⟨Or.inl (hopened ▸ hnot), rfl, rfl⟩
  · rename_i hopen
    split at h
    · rename_i hmode
      obtain rfl := Option.some.inj h
      exact Or.inr ⟨Or.inr hmode, rfl, rfl⟩
    · rename_i hmode
      obtain ⟨r, hrun, rfl⟩ := Option.map_eq_some_iff.mp h
      refine Or.inl ⟨?_, Bool.not_eq_false _ ▸ hmode, hrun⟩
      exact hopened ▸ (Bool.not_eq_false _ ▸ hopen)

/-- Nothing unread is less than what there was. -/
theorem ReadAll.unread_ne {cp : CodePage} {env : DecodeEnv} {msgs : List Msg}
    {pins : List CreatedPin} (h : ReadAll cp env msgs pins msgs) : False := by
  obtain ⟨records, hmsgs, _⟩ := h
  have hlen := congrArg List.length hmsgs
  rw [List.length_append, List.length_cons] at hlen
  omega

/-- **SetStreamName is all or nothing** exactly if the pipe opens in message mode, a
    complete sequence is in it, and every old pin can be disconnected and has no thread. -/
theorem all_or_nothing_iff (env : DiscoveryEnv) (szStreamName : WStr) (calls : List OsCall)
    (msgs : List Msg) (s : VirtualStreamSource) :
    (∃ r, setStreamName env szStreamName calls msgs s = some r ∧
      AllOrNothing env calls msgs s r) ↔
    opens env.connect.attempts = true ∧ env.connect.modeSet = true ∧
      Complete env.cp env.decode msgs ∧ Removable env.breakConnect s := by
  refine ⟨?_, ?_⟩
  · rintro ⟨r, hset, hr⟩
    obtain ⟨s', hremove, hset⟩ := Option.bind_eq_some_iff.mp hset
    obtain ⟨hthread, hdeleted⟩ := removeOutputPins_spec hremove
    obtain ⟨d, hcreate, rfl⟩ := Option.map_eq_some_iff.mp hset
    have hread := hr.ok.mp rfl
    dsimp only at hread
    rw [newPins_created] at hread
    have hremovable : Removable env.breakConnect s := by
      intro p hp
      have hgone := (hdeleted p.id).mpr (Or.inl (List.mem_map_of_mem hp))
      obtain ⟨hstate, hbreak⟩ := disconnect_ok_iff.mp (hr.replaced p hp hgone)
      exact ⟨hstate, hthread p hp, hbreak⟩
    rcases createOutputPins_eq hcreate with ⟨hopen, hmode, hrun⟩ | ⟨_, _, hunread⟩
    · exact ⟨hopen, hmode, readAll_iff.mp ⟨_, _, hrun, hread⟩, hremovable⟩
    · rw [hunread] at hread
      exact hread.unread_ne.elim
  · rintro ⟨hopen, hmode, hcomplete, hremovable⟩
    obtain ⟨pins, unread, hrun, hread⟩ := readAll_iff.mpr hcomplete
    obtain ⟨s', hremove⟩ := removeOutputPins_isSome env.breakConnect s fun p hp =>
      (hremovable p hp).2.1
    obtain ⟨n, calls', hloop⟩ := SourceOutputPin.openLoop_of_opens
      (sourcePipePath szStreamName) calls hopen
    have hcreate : createOutputPins env.cp env.decode env.connect szStreamName calls msgs =
        some ⟨S_OK, pins, .closeHandle (.handle n) :: calls', unread⟩ := by
      simp [createOutputPins, hloop, hmode, hrun]
    refine ⟨_, Option.bind_eq_some_iff.mpr ⟨s', hremove, Option.map_eq_some_iff.mpr
      ⟨_, hcreate, rfl⟩⟩, ⟨iff_of_true rfl ?_, fun hne => absurd rfl hne, ?_⟩⟩
    · dsimp only
      rw [newPins_created]
      exact hread
    · intro p hp _
      obtain ⟨hstate, _, hbreak⟩ := hremovable p hp
      exact disconnect_ok_iff.mpr ⟨hstate, hbreak⟩

/-- A pipe that cannot be opened, or set to messages, costs the filter its pins. -/
theorem failed_discovery_loses_pins {env : DiscoveryEnv} {szStreamName : WStr}
    {calls : List OsCall} {msgs : List Msg} {s : VirtualStreamSource} {r : Rediscovery}
    (hset : setStreamName env szStreamName calls msgs s = some r)
    (hfail : opens env.connect.attempts = false ∨ env.connect.modeSet = false) :
    r.hr = S_OK ∧ r.source.pinList = [] ∧ ∀ p ∈ s.pinList, p.id ∈ r.source.deleted := by
  obtain ⟨s', hremove, hset⟩ := Option.bind_eq_some_iff.mp hset
  obtain ⟨_, hdeleted⟩ := removeOutputPins_spec hremove
  obtain ⟨d, hcreate, rfl⟩ := Option.map_eq_some_iff.mp hset
  refine ⟨rfl, ?_, fun p hp => (hdeleted p.id).mpr (Or.inl (List.mem_map_of_mem hp))⟩
  rcases createOutputPins_eq hcreate with ⟨hopen, hmode, _⟩ | ⟨_, hnone, _⟩
  · rcases hfail with hfail | hfail
    · rw [hopen] at hfail
      cases hfail
    · rw [hmode] at hfail
      cases hfail
  · dsimp only
    rw [hnone]
    rfl

/-- A stopped filter with a connected pin, and no pipe to open: the pin is gone, and
    the answer is S_OK. -/
theorem missing_pipe_loses_pin :
    let pin : SourcePin := ⟨0, ⟨some [86], bareVideo, ⟨1, 1, 1, 0⟩⟩, true, false⟩
    let env : DiscoveryEnv := ⟨.latin1, clearedStack, ⟨[.error], true⟩, fun _ => S_OK⟩
    ∃ r, setStreamName env [86] [] [] ⟨.stopped, [pin], [0], 1, []⟩ = some r ∧
      r.hr = S_OK ∧ r.source.pinList = [] ∧ r.source.deleted = [0] ∧
      ¬ AllOrNothing env [] [] ⟨.stopped, [pin], [0], 1, []⟩ r := by
  refine ⟨_, rfl, rfl, rfl, rfl, fun h => ?_⟩
  obtain ⟨records, hmsgs, _⟩ := h.ok.mp rfl
  have hlen := congrArg List.length hmsgs
  simp only [List.length_append, List.length_cons, List.length_nil] at hlen
  omega

end VirtualStreamSource

end VirtualCaptureStream
