import VirtualCaptureStream.PinDescriptor

/- One iteration of CreateOutputPins' loop on any message at all. The four reads from
   the istrstream are not checked: a field the message does not reach keeps what the
   stack had (cleared, for the name and the format block), the length of the format
   block is the message's own word for it, and `pUnk` goes into the media type as it
   came. `turn_from_message_iff` says which messages are decoded soundly all the
   same.

   A message longer than the reader's buffer is decoded from the part that fits. -/
namespace VirtualCaptureStream

theorem AmMediaType.codec_exact : AmMediaType.codec.Exact := by
  have h16 := Codec.bits_exact 16
  have h4 := Codec.bits_exact 4
  have hint : Codec.int32.Exact := h4.map fun _ => rfl
  have huint : Codec.uint32.Exact := h4.map fun _ => rfl
  exact (h16.pair <| h16.pair <| hint.pair <| hint.pair <| huint.pair <| h16.pair <|
    huint.pair <| huint.pair huint).map fun _ => rfl

theorem AllocatorProperties.codec_exact : AllocatorProperties.codec.Exact := by
  have hint : Codec.int32.Exact := (Codec.bits_exact 4).map fun _ => rfl
  exact (hint.pair <| hint.pair <| hint.pair hint).map fun _ => rfl

/-! One iteration. -/

/-- The iteration reads a message and makes a pin of it, or ends the loop. -/
def turn (cp : CodePage) (env : DecodeEnv) (k : Nat) (msgs : List Msg) :
    Option (Option CreatedPin) :=
  let read := (readMessage BUFSIZE msgs).1
  if read.bytes = [] ∨ (read.fSuccess = false ∧ read.moreData = false) then some none
  else (decodePin cp env k read.bytes).map some

/-- The loop is its iterations. -/
theorem readRecords_turn (cp : CodePage) (env : DecodeEnv) (k : Nat) (m : Msg) (msgs : List Msg) :
    readRecords cp env k (m :: msgs) = (turn cp env k (m :: msgs)).bind fun made =>
      match made with
      | none => some ([], (readMessage BUFSIZE (m :: msgs)).2)
      | some pin =>
        if (readMessage BUFSIZE (m :: msgs)).1.fSuccess then
          (readRecords cp env (k + 1) msgs).map fun r => (pin :: r.1, r.2)
        else some ([pin], (readMessage BUFSIZE (m :: msgs)).2) := by
  rw [readRecords, turn]
  split
  · rfl
  · rw [Option.bind_map]
    rfl

/-- What a message brings is its first BUFSIZE bytes. -/
theorem turn_cons (cp : CodePage) (env : DecodeEnv) (k : Nat) (m : Msg) (msgs : List Msg) :
    turn cp env k (m :: msgs) = if m = [] then some none
      else (decodePin cp env k (m.take BUFSIZE)).map some := by
  rw [turn, readMessage]
  by_cases hfit : m.length ≤ BUFSIZE
  · rw [if_pos hfit, List.take_of_length_le hfit]
    simp [ReadResult.ok]
  · have hne : m ≠ [] := fun e => hfit (e ▸ Nat.zero_le BUFSIZE)
    have htake : m.take BUFSIZE ≠ [] := by
      rw [ne_eq, List.take_eq_nil_iff]
      exact fun h => h.elim (by decide) hne
    rw [if_neg hfit, if_neg hne]
    simp [htake]

/-! What is decoded. -/

/-- The bytes are a record with these fields, and possibly more behind it. -/
structure Fields (bytes szPinName : List UInt8) (sent : AmMediaType)
    (allocProps : AllocatorProperties) (format tail : List UInt8) : Prop where
  layout : bytes = szPinName ++ (AmMediaType.codec.enc sent ++
    (AllocatorProperties.codec.enc allocProps ++ (format ++ tail)))
  name_length : szPinName.length = 100
  terminated : 0 ∈ szPinName
  format_length : format.length = sent.cbFormat.toNat

/-- All fields of the pin are in the bytes; of the media type that was sent it has
    neither pointer, and its name is a defined one. -/
def FromMessage (cp : CodePage) (bytes : List UInt8) (pin : CreatedPin) : Prop :=
  ∃ szPinName sent tail,
    Fields bytes szPinName sent pin.allocProperties pin.mt.format tail ∧
      pin.mt.amt = { sent with pUnk := 0, pbFormat := pin.mt.amt.pbFormat } ∧
      ∃ name, installName cp szPinName = some name ∧ pin.pName = some name

/-- The AM_MEDIA_TYPE field of a record. -/
def amtField (bytes : List UInt8) : AmMediaType := AmMediaType.codec.dec (bytes.drop 100)

/-- A record with all its fields, a terminated and printable name, and no `pUnk`. -/
structure WellFormed (cp : CodePage) (bytes : List UInt8) : Prop where
  complete : 188 + (amtField bytes).cbFormat.toNat ≤ bytes.length
  terminated : 0 ∈ bytes.take 100
  printable : (installName cp (bytes.take 100)).isSome = true
  no_pUnk : (amtField bytes).pUnk = 0

/-- Of 188 bytes or more every field but the format block is read whole. -/
theorem decodePin_of_length {cp : CodePage} {env : DecodeEnv} {k : Nat} {bytes : List UInt8}
    (h : 188 ≤ bytes.length) : decodePin cp env k bytes =
      if (amtField bytes).pUnk ≠ 0 then none
      else some ⟨installName cp (bytes.take 100),
        decodeMediaType (amtField bytes) (env.pbFormat k) (bytes.drop 188),
        AllocatorProperties.codec.dec (bytes.drop 172)⟩ := by
  have hname : readOver (List.replicate 100 0) (bytes.take 100) = bytes.take 100 := by
    apply readOver_of_length_le
    rw [List.length_replicate, List.length_take]
    omega
  have hamt : AmMediaType.codec.dec (readOver (env.amt k)
      ((bytes.drop 100).take AmMediaType.codec.size)) = amtField bytes := by
    have hlen : AmMediaType.codec.size ≤ (bytes.drop 100).length := by
      rw [AmMediaType.codec_size, List.length_drop]
      omega
    have htake : ((bytes.drop 100).take AmMediaType.codec.size).length =
        AmMediaType.codec.size := by
      rw [List.length_take, Nat.min_eq_left hlen]
    rw [readOver, ← AmMediaType.codec_exact _ htake, Codec.dec_enc,
      AmMediaType.codec_exact.dec_take hlen, amtField]
  have hprops : AllocatorProperties.codec.dec (readOver (env.allocProps k)
      (((bytes.drop 100).drop AmMediaType.codec.size).take AllocatorProperties.codec.size)) =
        AllocatorProperties.codec.dec (bytes.drop 172) := by
    rw [List.drop_drop, AmMediaType.codec_size]
    have hlen : AllocatorProperties.codec.size ≤ (bytes.drop 172).length := by
      rw [AllocatorProperties.codec_size, List.length_drop]
      omega
    have htake : ((bytes.drop 172).take AllocatorProperties.codec.size).length =
        AllocatorProperties.codec.size := by
      rw [List.length_take, Nat.min_eq_left hlen]
    rw [readOver, ← AllocatorProperties.codec_exact _ htake, Codec.dec_enc,
      AllocatorProperties.codec_exact.dec_take hlen]
  unfold decodePin
  dsimp only
  rw [hname, hamt, hprops]
  simp only [List.drop_drop, AmMediaType.codec_size, AllocatorProperties.codec_size]

/-- A record that is all there is read back whole. -/
theorem Fields.amtField {bytes szPinName : List UInt8} {sent : AmMediaType}
    {allocProps : AllocatorProperties} {format tail : List UInt8}
    (h : Fields bytes szPinName sent allocProps format tail) :
    VirtualCaptureStream.amtField bytes = sent := by
  rw [VirtualCaptureStream.amtField, h.layout, ← h.name_length, List.drop_left, Codec.dec_enc]

theorem Fields.length {bytes szPinName : List UInt8} {sent : AmMediaType}
    {allocProps : AllocatorProperties} {format tail : List UInt8}
    (h : Fields bytes szPinName sent allocProps format tail) :
    bytes.length = 188 + sent.cbFormat.toNat + tail.length := by
  have hlen := congrArg List.length h.layout
  simp only [List.length_append, Codec.enc_length, h.name_length, h.format_length,
    AmMediaType.codec_size, AllocatorProperties.codec_size] at hlen
  omega

/-- The bytes of a well-formed record, field by field. -/
theorem WellFormed.fields {cp : CodePage} {bytes : List UInt8} (h : WellFormed cp bytes) :
    Fields bytes (bytes.take 100) (VirtualCaptureStream.amtField bytes)
      (AllocatorProperties.codec.dec (bytes.drop 172))
      ((bytes.drop 188).take (VirtualCaptureStream.amtField bytes).cbFormat.toNat)
      ((bytes.drop 188).drop (VirtualCaptureStream.amtField bytes).cbFormat.toNat) := by
  have hcomplete := h.complete
  refine ⟨?_, ?_, h.terminated, ?_⟩
  · have hamt : AmMediaType.codec.enc (VirtualCaptureStream.amtField bytes) ++ bytes.drop 172 =
        bytes.drop 100 := by
      have hlen : AmMediaType.codec.size ≤ (bytes.drop 100).length := by
        rw [AmMediaType.codec_size, List.length_drop]
        omega
      have happ := AmMediaType.codec_exact.eq_append hlen
      rw [AmMediaType.codec_exact.dec_take hlen, List.drop_drop, AmMediaType.codec_size] at happ
      exact happ
    have hprops : AllocatorProperties.codec.enc
        (AllocatorProperties.codec.dec (bytes.drop 172)) ++ bytes.drop 188 = bytes.drop 172 := by
      have hlen : AllocatorProperties.codec.size ≤ (bytes.drop 172).length := by
        rw [AllocatorProperties.codec_size, List.length_drop]
        omega
      have happ := AllocatorProperties.codec_exact.eq_append hlen
      rw [AllocatorProperties.codec_exact.dec_take hlen, List.drop_drop,
        AllocatorProperties.codec_size] at happ
      exact happ
    rw [List.take_append_drop, hprops, hamt, List.take_append_drop]
  · rw [List.length_take]
    omega
  · rw [List.length_take, List.length_drop]
    omega

theorem AmMediaType.without_pUnk {amt : AmMediaType} (h : amt.pUnk = 0) {pbFormat : UInt32} :
    { amt with pbFormat := pbFormat } = { amt with pUnk := 0, pbFormat := pbFormat } := by
  rw [AmMediaType.mk.injEq]
  exact ⟨rfl, rfl, rfl, rfl, rfl, rfl, h, rfl, rfl⟩

/-- **A message is decoded soundly**, into a pin all of whose fields it contains or
    into none, exactly if it is empty or a well-formed record, as far as it fits the
    buffer. -/
theorem turn_from_message_iff (cp : CodePage) (env : DecodeEnv) (k : Nat) (m : Msg)
    (msgs : List Msg) :
    (∃ made, turn cp env k (m :: msgs) = some made ∧
      ∀ pin, made = some pin → FromMessage cp (m.take BUFSIZE) pin) ↔
        m = [] ∨ WellFormed cp (m.take BUFSIZE) := by
  rw [turn_cons]
  refine ⟨fun h => ?_, fun h => ?_⟩
  · by_cases hm : m = []
    · exact Or.inl hm
    · rw [if_neg hm] at h
      obtain ⟨made, hmade, hfrom⟩ := h
      obtain ⟨pin, hpin, rfl⟩ := Option.map_eq_some_iff.mp hmade
      obtain ⟨szPinName, sent, tail, hfields, _, name, hname, _⟩ := hfrom pin rfl
      have hlen := hfields.length
      have htake : (m.take BUFSIZE).take 100 = szPinName := by
        conv_lhs => rw [hfields.layout, ← hfields.name_length, List.take_left]
      rw [decodePin_of_length (by omega), Option.ite_none_left_eq_some] at hpin
      refine Or.inr ⟨?_, ?_, ?_, not_not.mp hpin.1⟩
      · rw [hfields.amtField]
        omega
      · rw [htake]
        exact hfields.terminated
      · rw [htake, hname, Option.isSome_some]
  · by_cases hm : m = []
    · rw [if_pos hm]
      exact ⟨none, rfl, fun pin e => (by cases e)⟩
    · have hwf := h.resolve_left hm
      have hcomplete := hwf.complete
      obtain ⟨name, hname⟩ := Option.isSome_iff_exists.mp hwf.printable
      have hformat : (decodeMediaType (VirtualCaptureStream.amtField (m.take BUFSIZE))
          (env.pbFormat k) ((m.take BUFSIZE).drop 188)).format =
            ((m.take BUFSIZE).drop 188).take
              (VirtualCaptureStream.amtField (m.take BUFSIZE)).cbFormat.toNat := by
        apply readOver_of_length_le
        rw [List.length_replicate, List.length_take, List.length_drop]
        omega
      rw [if_neg hm, decodePin_of_length (by omega), if_neg (not_not_intro hwf.no_pUnk)]
      refine ⟨_, rfl, fun pin e => ?_⟩
      obtain rfl := Option.some.inj e
      have hfields := hwf.fields
      rw [← hformat] at hfields
      exact ⟨_, _, _, hfields, AmMediaType.without_pUnk hwf.no_pUnk, name, hname, hname⟩

/-- One byte: a pin is made of the name `V` without a terminator and of what the stack
    holds. -/
theorem one_byte_makes_a_pin :
    ∃ pin, turn .latin1 clearedStack 0 [[86]] = some (some pin) ∧ ¬ FromMessage .latin1 [86] pin := by
  have htake : ([86] : Msg).take BUFSIZE = [86] := List.take_of_length_le (by decide)
  have hmade : (decodePin .latin1 clearedStack 0 [86]).isSome = true := rfl
  obtain ⟨pin, hpin⟩ := Option.isSome_iff_exists.mp hmade
  refine ⟨pin, ?_, fun h => ?_⟩
  · rw [turn_cons, if_neg (by decide), htake, hpin, Option.map_some]
  · obtain ⟨szPinName, sent, tail, hfields, _⟩ := h
    have hlen := hfields.length
    rw [List.length_singleton] at hlen
    omega

end VirtualCaptureStream
