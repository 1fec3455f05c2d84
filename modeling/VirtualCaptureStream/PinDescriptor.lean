import Mathlib.Data.List.Forall2
import VirtualCaptureStream.SourceOutputPin

/- Pin discovery. The sink writes one message for each connected pin into the
   discovery pipe and an empty message after the last; the source makes an output
   pin of each message until it reads the empty one. A record is the pin's name in
   a 100-byte ANSI field, its AM_MEDIA_TYPE, its ALLOCATOR_PROPERTIES and its
   format block.

   Correspondence (C++ ↔ Lean):
     `CVirtualStreamSink::PipeOutMediaTypes`   ↔ `pipeOutMediaTypes`, one record `pinInfo`
     `CVirtualStreamSource::CreateOutputPins`  ↔ `createOutputPins`, its `do` loop
                                                 `readRecords`, one iteration `decodePin`
     `strcpy(szPinName, W2A(..))`              ↔ `nameField`
     `_stprintf(pinName, A2W(szPinName))`      ↔ `installName`

   Calls that allocate memory succeed, and so does every WriteFile: the loop ignores
   their results. `none` stands for undefined behaviour, with one exception: where the
   _stprintf of a name is undefined, only the name is `none`, and the loop goes on, since
   nothing behind it looks at the name. -/
namespace VirtualCaptureStream

open SourceOutputPin (ConnectEnv openLoop)

/-! Names. -/

/-- The conversions W2A and A2W of the process's ANSI code page, on C strings
    without their terminator. A character comes back as one character at most. -/
structure CodePage where
  w2a : WStr → List UInt8
  a2w : List UInt8 → WStr
  w2a_ne_zero : ∀ s, 0 ∉ w2a s
  round_trip_length : ∀ s, (a2w (w2a s)).length ≤ s.length

/-- Latin-1: what it cannot represent becomes a question mark. -/
def CodePage.latin1 : CodePage where
  w2a s := s.map fun c => if c ≠ 0 ∧ c < 256 then c.toUInt8 else 63
  a2w bs := bs.map UInt8.toUInt16
  w2a_ne_zero s := by
    intro h
    obtain ⟨c, _, hc⟩ := List.mem_map.mp h
    split at hc
    · rename_i hrange
      have h0 : c.toNat ≠ 0 := fun e => hrange.1 (UInt16.toNat_inj.mp e)
      have h256 : c.toNat < 256 := UInt16.lt_iff_toNat_lt.mp hrange.2
      have := congrArg UInt8.toNat hc
      simp only [UInt16.toNat_toUInt8, UInt8.toNat_zero] at this
      omega
    · exact absurd hc (by decide)
  round_trip_length s := by simp

/-- A C string in a buffer: the bytes before the first NUL. -/
def cstr (bs : List UInt8) : List UInt8 := bs.takeWhile (fun b => b ≠ 0)

/-- The stack buffer `CHAR szPinName[100]`, cleared, after the strcpy; a longer
    name runs past its end. -/
def nameField (cp : CodePage) (pName : WStr) : Option (List UInt8) :=
  let name := cp.w2a pName
  if name.length < 100 then some (name ++ List.replicate (100 - name.length) 0) else none

/-- `_stprintf` with the format `fmt` and no arguments. Only `%%` needs none: any
    other conversion reads an argument that was not passed. -/
def printfNoArgs : WStr → Option WStr
  | [] => some []
  | c :: cs =>
    if c ≠ 37 then (printfNoArgs cs).map (c :: ·)
    else match cs with
      | 37 :: cs => (printfNoArgs cs).map (37 :: ·)
      | _ => none

/-- The name CreateOutputPins gives its pin: `TCHAR pinName[100]` after
    `_stprintf(pinName, A2W(szPinName))`. -/
def installName (cp : CodePage) (szPinName : List UInt8) : Option WStr :=
  (printfNoArgs (cp.a2w (cstr szPinName))).bind fun pinName =>
    if pinName.length < 100 then some pinName else none

/-! When a name survives. -/

/-- What the source makes of a pin name the sink sends. -/
def carriedName (cp : CodePage) (pName : WStr) : Option WStr :=
  (nameField cp pName).bind (installName cp)

/-- The name fits the field in the ANSI code page, the code page can represent it,
    and it has no per cent sign. -/
structure Carriable (cp : CodePage) (pName : WStr) : Prop where
  no_percent : 37 ∉ pName
  fits : (cp.w2a pName).length < 100
  representable : cp.a2w (cp.w2a pName) = pName

theorem cstr_nameField {cp : CodePage} {pName : WStr} {field : List UInt8}
    (h : nameField cp pName = some field) : cstr field = cp.w2a pName := by
  unfold nameField at h
  dsimp only at h
  split at h
  · obtain rfl := Option.some.inj h
    have hname : ∀ b ∈ cp.w2a pName, decide (b ≠ 0) = true := by
      intro b hb
      have : b ≠ 0 := fun e => cp.w2a_ne_zero pName (e ▸ hb)
      simpa using this
    have hzeros : ∀ n, (List.replicate n (0 : UInt8)).takeWhile (fun b => decide (b ≠ 0)) = [] := by
      intro n
      cases n <;> simp [List.replicate_succ]
    rw [cstr, List.takeWhile_append_of_pos hname, hzeros, List.append_nil]
  · cases h

theorem printfNoArgs_of_no_percent : ∀ {fmt : WStr}, 37 ∉ fmt → printfNoArgs fmt = some fmt
  | [], _ => rfl
  | c :: cs, h => by
    have hc : c ≠ 37 := fun e => h (e ▸ List.mem_cons_self)
    have hcs : 37 ∉ cs := fun hmem => h (List.mem_cons_of_mem c hmem)
    unfold printfNoArgs
    rw [if_pos hc, printfNoArgs_of_no_percent hcs, Option.map_some]

/-- Nothing is ever inserted. -/
theorem printfNoArgs_length : ∀ {fmt out : WStr}, printfNoArgs fmt = some out →
    out.length ≤ fmt.length
  | [], out, h => by
    obtain rfl := Option.some.inj h
    exact Nat.le_refl 0
  | c :: cs, out, h => by
    unfold printfNoArgs at h
    split at h
    · obtain ⟨out', h', rfl⟩ := Option.map_eq_some_iff.mp h
      exact Nat.succ_le_succ (printfNoArgs_length h')
    · split at h
      · obtain ⟨out', h', rfl⟩ := Option.map_eq_some_iff.mp h
        have := printfNoArgs_length h'
        simp only [List.length_cons]
        omega
      · cases h

/-- A per cent sign is never printed as it stands. -/
theorem printfNoArgs_shorter : ∀ {fmt out : WStr}, printfNoArgs fmt = some out → 37 ∈ fmt →
    out.length < fmt.length
  | c :: cs, out, h, hmem => by
    unfold printfNoArgs at h
    split at h
    · rename_i hc
      obtain ⟨out', h', rfl⟩ := Option.map_eq_some_iff.mp h
      have hcs : 37 ∈ cs := by
        rcases List.mem_cons.mp hmem with e | hcs
        · exact absurd e.symm hc
        · exact hcs
      exact Nat.succ_lt_succ (printfNoArgs_shorter h' hcs)
    · split at h
      · obtain ⟨out', h', rfl⟩ := Option.map_eq_some_iff.mp h
        have := printfNoArgs_length h'
        simp only [List.length_cons]
        omega
      · cases h

/-- A pin name arrives as it was sent exactly when it is `Carriable`. -/
theorem carriedName_eq_iff {cp : CodePage} {pName : WStr} (hlen : pName.length < 100) :
    carriedName cp pName = some pName ↔ Carriable cp pName := by
  refine ⟨fun h => ?_, fun h => ?_⟩
  · obtain ⟨field, hfield, hinst⟩ := Option.bind_eq_some_iff.mp h
    -- a longer name would have run past the field
    have hfits : (cp.w2a pName).length < 100 := by
      by_contra hlong
      simp [nameField, hlong] at hfield
    rw [installName, cstr_nameField hfield] at hinst
    obtain ⟨out, hprint, hout⟩ := Option.bind_eq_some_iff.mp hinst
    obtain ⟨_, rfl⟩ : out.length < 100 ∧ out = pName := by
      simpa [Option.ite_none_right_eq_some] using hout
    -- a per cent sign would make the printed name shorter than the name itself
    have hno : 37 ∉ cp.a2w (cp.w2a out) := by
      intro hmem
      have hshort := printfNoArgs_shorter hprint hmem
      have hround := cp.round_trip_length out
      omega
    have hrep : cp.a2w (cp.w2a out) = out := by
      rw [printfNoArgs_of_no_percent hno] at hprint
      exact Option.some.inj hprint
    rw [hrep] at hno
    exact ⟨hno, hfits, hrep⟩
  · have hfield : nameField cp pName =
        some (cp.w2a pName ++ List.replicate (100 - (cp.w2a pName).length) 0) := by
      simp [nameField, h.fits]
    rw [carriedName, hfield, Option.bind_some, installName, cstr_nameField hfield,
      h.representable, printfNoArgs_of_no_percent h.no_percent, Option.bind_some, if_pos hlen]

/-! The sender. -/

/-- What PipeOutMediaTypes looks at of an input pin. -/
structure SinkPin where
  pName : WStr
  isConnected : Bool
  mt : MediaType
  allocProperties : AllocatorProperties

/-- `UINT cbPinInfoBytes`. -/
def cbPinInfoBytes (amt : AmMediaType) : UInt32 :=
  100 + UInt32.ofNat AmMediaType.codec.size + UInt32.ofNat AllocatorProperties.codec.size +
    amt.cbFormat

/-- The record of one pin: a cleared block of `cbPinInfoBytes` that the ostrstream
    fills and does not write beyond. -/
def pinInfo (cp : CodePage) (pin : SinkPin) : Option Msg :=
  (nameField cp pin.pName).map fun szPinName =>
    let size := (cbPinInfoBytes pin.mt.amt).toNat
    let written := (szPinName ++ AmMediaType.codec.enc pin.mt.amt ++
      AllocatorProperties.codec.enc pin.allocProperties ++ pin.mt.format).take size
    written ++ List.replicate (size - written.length) 0

/-- PipeOutMediaTypes: the messages it writes. -/
def pipeOutMediaTypes (cp : CodePage) : List SinkPin → Option (List Msg)
  | [] => some [[]]
  | pin :: pins =>
    if pin.isConnected = false then pipeOutMediaTypes cp pins
    else (pinInfo cp pin).bind fun info => (pipeOutMediaTypes cp pins).map (info :: ·)

/-! The receiver. -/

/-- An output pin as CreateOutputPins makes it; without a name where the _stprintf
    is undefined. -/
structure CreatedPin where
  pName : Option WStr
  mt : MediaType
  allocProperties : AllocatorProperties

/-- What the loop finds in its `k`-th iteration: the bytes its variables `amt` and
    `allocProps` hold before they are read, and the address of the format block the
    new pin gets. -/
structure DecodeEnv where
  amt : Nat → List UInt8
  allocProps : Nat → List UInt8
  pbFormat : Nat → UInt32

/-- `istrstream::read`: the bytes that are there are stored over the old ones. -/
def readOver (old bytes : List UInt8) : List UInt8 := bytes ++ old.drop bytes.length

/-- The media type read into `amt`, with its format block. -/
def decodeMediaType (amt : AmMediaType) (pbFormat : UInt32) (bytes : List UInt8) : MediaType where
  amt := { amt with pbFormat }
  format := readOver (List.replicate amt.cbFormat.toNat 0) (bytes.take amt.cbFormat.toNat)
  format_length := by
    simp only [readOver, List.length_append, List.length_take, List.length_drop,
      List.length_replicate]
    omega

/-- One iteration of the loop on the bytes read into `chBuf`. SetMediaType calls
    AddRef on a `pUnk` that is not NULL, which is a pointer of another process. An
    undefined _stprintf leaves a pin without a name. -/
def decodePin (cp : CodePage) (env : DecodeEnv) (k : Nat) (chBuf : List UInt8) :
    Option CreatedPin :=
  let szPinName := readOver (List.replicate 100 0) (chBuf.take 100)
  let rest := chBuf.drop 100
  let amt := AmMediaType.codec.dec (readOver (env.amt k) (rest.take AmMediaType.codec.size))
  let rest := rest.drop AmMediaType.codec.size
  let allocProps := AllocatorProperties.codec.dec
    (readOver (env.allocProps k) (rest.take AllocatorProperties.codec.size))
  let rest := rest.drop AllocatorProperties.codec.size
  if amt.pUnk ≠ 0 then none
  else some { pName := installName cp szPinName
              mt := decodeMediaType amt (env.pbFormat k) rest
              allocProperties := allocProps }

/-- The reader's BUFSIZE. -/
def BUFSIZE : Nat := 100000

/-- The `do … while (fSuccess)` loop from its `k`-th iteration on: the pins it makes
    and the messages it leaves unread. A read that succeeds, or reports more data,
    has taken its message (or the part of it that fits). -/
def readRecords (cp : CodePage) (env : DecodeEnv) : Nat → List Msg →
    Option (List CreatedPin × List Msg)
  | _, [] => some ([], [])
  | k, m :: msgs =>
    let read := readMessage BUFSIZE (m :: msgs)
    if read.1.bytes = [] ∨ (read.1.fSuccess = false ∧ read.1.moreData = false) then
      some ([], read.2)
    else (decodePin cp env k read.1.bytes).bind fun pin =>
      if read.1.fSuccess then
        (readRecords cp env (k + 1) msgs).map fun r => (pin :: r.1, r.2)
      else some ([pin], read.2)

/-- What CreateOutputPins returns and leaves behind. -/
structure Discovery where
  hr : HRESULT
  pinList : List CreatedPin
  calls : List OsCall
  unread : List Msg

/-- The pipe was not opened: CreateOutputPins returns -1. -/
def Discovery.failed (calls : List OsCall) (msgs : List Msg) : Discovery :=
  ⟨-1, [], calls, msgs⟩

/-- CreateOutputPins, against a pipe holding `msgs`. The pins made before are
    removed on every path. A pipe whose mode cannot be set is not closed. -/
def createOutputPins (cp : CodePage) (env : DecodeEnv) (connect : ConnectEnv) (szPipeName : WStr)
    (calls : List OsCall) (msgs : List Msg) : Option Discovery :=
  (openLoop (sourcePipePath szPipeName) connect.attempts calls).bind
    fun (hPipe, opened, calls) =>
      if opened = false then some (Discovery.failed calls msgs)
      else if connect.modeSet = false then some (Discovery.failed calls msgs)
      else (readRecords cp env 0 msgs).map fun r =>
        ⟨S_OK, r.1, .closeHandle hPipe :: calls, r.2⟩

/-! One record. -/

theorem nameField_length {cp : CodePage} {pName : WStr} {field : List UInt8}
    (h : nameField cp pName = some field) : field.length = 100 := by
  unfold nameField at h
  dsimp only at h
  split at h
  · obtain rfl := Option.some.inj h
    rw [List.length_append, List.length_replicate]
    omega
  · cases h

theorem readOver_of_length_le {old bytes : List UInt8} (h : old.length ≤ bytes.length) :
    readOver old bytes = bytes := by
  rw [readOver, List.drop_of_length_le h, List.append_nil]

theorem cbPinInfoBytes_eq (amt : AmMediaType) :
    (cbPinInfoBytes amt).toNat = (188 + amt.cbFormat.toNat) % 2 ^ 32 := by
  have hconst : (100 + UInt32.ofNat AmMediaType.codec.size +
      UInt32.ofNat AllocatorProperties.codec.size : UInt32) = 188 := by decide
  have h188 : (188 : UInt32).toNat = 188 := rfl
  rw [cbPinInfoBytes, hconst, UInt32.toNat_add, h188]

/-- A record of the reader's buffer size at most does not wrap its length. -/
theorem cbPinInfoBytes_toNat {amt : AmMediaType} (h : 188 + amt.cbFormat.toNat ≤ BUFSIZE) :
    (cbPinInfoBytes amt).toNat = 188 + amt.cbFormat.toNat := by
  unfold BUFSIZE at h
  rw [cbPinInfoBytes_eq]
  omega

/-- The record, field by field. -/
def recordBytes (szPinName : List UInt8) (pin : SinkPin) : Msg :=
  szPinName ++ (AmMediaType.codec.enc pin.mt.amt ++
    (AllocatorProperties.codec.enc pin.allocProperties ++ pin.mt.format))

theorem recordBytes_length {szPinName : List UInt8} (h : szPinName.length = 100) (pin : SinkPin) :
    (recordBytes szPinName pin).length = 188 + pin.mt.amt.cbFormat.toNat := by
  have hamt := AmMediaType.codec_size
  have hprops := AllocatorProperties.codec_size
  simp only [recordBytes, List.length_append, h, Codec.enc_length, pin.mt.format_length]
  omega

/-- A record that fits the reader's buffer is written whole. -/
theorem pinInfo_eq {cp : CodePage} {pin : SinkPin}
    (hfit : 188 + pin.mt.amt.cbFormat.toNat ≤ BUFSIZE) :
    pinInfo cp pin = (nameField cp pin.pName).map fun field => recordBytes field pin := by
  cases hfield : nameField cp pin.pName with
  | none => simp [pinInfo, hfield]
  | some field =>
    have hlen := recordBytes_length (nameField_length hfield) pin
    have hrec : field ++ AmMediaType.codec.enc pin.mt.amt ++
        AllocatorProperties.codec.enc pin.allocProperties ++ pin.mt.format =
          recordBytes field pin := by
      simp only [recordBytes, List.append_assoc]
    simp only [pinInfo, hfield, Option.map_some, hrec, cbPinInfoBytes_toNat hfit]
    rw [← hlen, List.take_length, Nat.sub_self, List.replicate_zero, List.append_nil]

/-- The created pin's media type: the sender's, with the block at another address. -/
def MediaType.moved (mt : MediaType) (pbFormat : UInt32) : MediaType :=
  { mt with amt := { mt.amt with pbFormat } }

theorem decodeMediaType_self (mt : MediaType) (pbFormat : UInt32) :
    decodeMediaType mt.amt pbFormat mt.format = mt.moved pbFormat := by
  have hformat : readOver (List.replicate mt.amt.cbFormat.toNat 0)
      (mt.format.take mt.amt.cbFormat.toNat) = mt.format := by
    rw [← mt.format_length, List.take_length]
    apply readOver_of_length_le
    rw [List.length_replicate]
  unfold decodeMediaType MediaType.moved
  congr 1

/-- Decoding a record gives its fields back. -/
theorem decodePin_record {cp : CodePage} {env : DecodeEnv} {k : Nat} {field : List UInt8}
    {pin : SinkPin} (hfield : field.length = 100) (hunk : pin.mt.amt.pUnk = 0) :
    decodePin cp env k (recordBytes field pin) =
      some ⟨installName cp field, pin.mt.moved (env.pbFormat k), pin.allocProperties⟩ := by
  have htake : (recordBytes field pin).take 100 = field := by
    rw [recordBytes, ← hfield, List.take_left]
  have hdrop : (recordBytes field pin).drop 100 = AmMediaType.codec.enc pin.mt.amt ++
      (AllocatorProperties.codec.enc pin.allocProperties ++ pin.mt.format) := by
    rw [recordBytes, ← hfield, List.drop_left]
  have hname : readOver (List.replicate 100 0) field = field := by
    apply readOver_of_length_le
    rw [hfield, List.length_replicate]
  simp only [decodePin, htake, hdrop, hname, Codec.take_enc, Codec.drop_enc]
  rw [readOver, readOver, Codec.dec_enc, Codec.dec_enc, if_neg (not_not_intro hunk),
    decodeMediaType_self]

/-! The whole exchange. -/

/-- Equal but for the address of the format block. -/
def MediaType.Same (a b : MediaType) : Prop := a.moved 0 = b.moved 0

theorem MediaType.moved_same (mt : MediaType) (pbFormat : UInt32) : (mt.moved pbFormat).Same mt :=
  rfl

/-- The reader can take the pin's record: `pUnk` is NULL and the record fits its
    buffer. -/
def SinkPin.Readable (pin : SinkPin) : Prop :=
  pin.mt.amt.pUnk = 0 ∧ 188 + pin.mt.amt.cbFormat.toNat ≤ BUFSIZE

/-- The created pin has the sink pin's media type and allocator properties. -/
def SinkPin.Describes (pin : SinkPin) (created : CreatedPin) : Prop :=
  created.mt.Same pin.mt ∧ created.allocProperties = pin.allocProperties

/-- One turn of the loop on a record that is not empty and fits the buffer. -/
theorem readRecords_cons {cp : CodePage} {env : DecodeEnv} {k : Nat} {m : Msg} {msgs : List Msg}
    (hne : m ≠ []) (hfit : m.length ≤ BUFSIZE) :
    readRecords cp env k (m :: msgs) = (decodePin cp env k m).bind fun pin =>
      (readRecords cp env (k + 1) msgs).map fun r => (pin :: r.1, r.2) := by
  rw [readRecords, readMessage_fits hfit]
  simp [ReadResult.ok, hne]

/-- The empty message ends the loop. -/
theorem readRecords_terminator (cp : CodePage) (env : DecodeEnv) (k : Nat) (msgs : List Msg) :
    readRecords cp env k ([] :: msgs) = some ([], msgs) := by
  rw [readRecords, readMessage_fits (Nat.zero_le _)]
  simp [ReadResult.ok]

/-- The loop makes one pin of each record and stops at the terminator. The
    induction is on the sink's pins; an unconnected one sends nothing. -/
theorem readRecords_pipeOutMediaTypes {cp : CodePage} (env : DecodeEnv) (extra : List Msg) :
    ∀ (pins : List SinkPin) (msgs : List Msg) (k : Nat),
      (∀ pin ∈ pins, pin.isConnected = true → pin.Readable) →
      pipeOutMediaTypes cp pins = some msgs →
      ∃ created, readRecords cp env k (msgs ++ extra) = some (created, extra) ∧
        List.Forall₂ (fun pin c => SinkPin.Describes pin c ∧ c.pName = carriedName cp pin.pName)
          (pins.filter (·.isConnected)) created := by
  intro pins
  induction pins with
  | nil =>
    intro msgs k _ hw
    obtain rfl := Option.some.inj hw
    exact ⟨[], readRecords_terminator cp env k extra, List.Forall₂.nil⟩
  | cons pin pins ih =>
    intro msgs k hread hw
    have hrest : ∀ p ∈ pins, p.isConnected = true → p.Readable :=
      fun p hp => hread p (List.mem_cons_of_mem pin hp)
    cases hc : pin.isConnected
    · rw [pipeOutMediaTypes, if_pos hc] at hw
      obtain ⟨created, hrun, hall⟩ := ih msgs k hrest hw
      refine ⟨created, hrun, ?_⟩
      rw [List.filter_cons_of_neg (by simp [hc])]
      exact hall
    · obtain ⟨hunk, hfit⟩ := hread pin List.mem_cons_self hc
      simp only [pipeOutMediaTypes, hc, Bool.true_eq_false, if_false, pinInfo_eq hfit,
        Option.bind_eq_some_iff, Option.map_eq_some_iff] at hw
      obtain ⟨info, ⟨field, hfield, rfl⟩, msgs', hw', rfl⟩ := hw
      obtain ⟨created, hrun, hall⟩ := ih msgs' (k + 1) hrest hw'
      have hlen := recordBytes_length (nameField_length hfield) pin
      have hne : recordBytes field pin ≠ [] := by
        intro e
        rw [e, List.length_nil] at hlen
        omega
      have hname : installName cp field = carriedName cp pin.pName := by
        rw [carriedName, hfield, Option.bind_some]
      refine ⟨⟨installName cp field, pin.mt.moved (env.pbFormat k), pin.allocProperties⟩ :: created,
        ?_, ?_⟩
      · rw [List.cons_append, readRecords_cons hne (by omega),
          decodePin_record (nameField_length hfield) hunk, Option.bind_some, hrun, Option.map_some]
      · rw [List.filter_cons_of_pos hc]
        exact List.Forall₂.cons ⟨⟨pin.mt.moved_same _, rfl⟩, hname⟩ hall

/-- **Pin discovery**: once the source has the pipe open in message mode, it makes
    exactly one pin of each connected sink pin, in order, with the media type and
    the allocator properties of that pin, and stops at the empty message: what
    comes behind it stays unread. -/
theorem createOutputPins_pipeOutMediaTypes (cp : CodePage) (env : DecodeEnv) (connect : ConnectEnv)
    (szPipeName : WStr) (calls : List OsCall) (pins : List SinkPin) (msgs extra : List Msg)
    (hread : ∀ pin ∈ pins, pin.isConnected = true → pin.Readable)
    (hwrite : pipeOutMediaTypes cp pins = some msgs)
    (hopen : SourceOutputPin.opens connect.attempts = true) (hmode : connect.modeSet = true) :
    ∃ d, createOutputPins cp env connect szPipeName calls (msgs ++ extra) = some d ∧ d.hr = S_OK ∧
      List.Forall₂ SinkPin.Describes (pins.filter (·.isConnected)) d.pinList ∧
      d.unread = extra := by
  obtain ⟨created, hrun, hall⟩ := readRecords_pipeOutMediaTypes env extra pins msgs 0 hread hwrite
  obtain ⟨n, calls', hloop⟩ := SourceOutputPin.openLoop_of_opens
    (sourcePipePath szPipeName) calls hopen
  refine ⟨⟨S_OK, created, .closeHandle (.handle n) :: calls', extra⟩, ?_, rfl, ?_, rfl⟩
  · simp [createOutputPins, hloop, hmode, hrun]
  · exact hall.imp fun _ _ h => h.1

/-- A connected video pin. -/
def videoPin : SinkPin := ⟨[86], true, bareVideo, ⟨1, 1, 1, 0⟩⟩

/-- Cleared stack variables, and a block at address 4096 for every pin. -/
def clearedStack : DecodeEnv := ⟨fun _ => [], fun _ => [], fun _ => 4096⟩

/-- An unconnected pin and a connected one. -/
theorem createOutputPins_pipeOutMediaTypes_two :
    ∃ msgs, pipeOutMediaTypes .latin1 [{ videoPin with isConnected := false }, videoPin] =
        some msgs ∧
      ∃ d, createOutputPins .latin1 clearedStack ⟨[.opened 0], true⟩ [86] [] (msgs ++ []) = some d ∧
        d.hr = S_OK ∧ List.Forall₂ SinkPin.Describes [videoPin] d.pinList ∧ d.unread = [] := by
  refine ⟨_, rfl, ?_⟩
  have hread : ∀ pin ∈ [{ videoPin with isConnected := false }, videoPin],
      pin.isConnected = true → pin.Readable := by
    intro pin hpin _
    simp only [List.mem_cons, List.not_mem_nil, or_false] at hpin
    rcases hpin with rfl | rfl <;> exact ⟨rfl, by decide⟩
  exact createOutputPins_pipeOutMediaTypes .latin1 clearedStack ⟨[.opened 0], true⟩ [86] [] _ _ []
    hread rfl rfl rfl

end VirtualCaptureStream
