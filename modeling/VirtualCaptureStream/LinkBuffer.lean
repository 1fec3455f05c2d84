import VirtualCaptureStream.SinkFraming
import VirtualCaptureStream.Link

/- Whether a payload fits the sample it is read into. FillBuffer asks ReadFile for as
   many bytes as the header says, into a sample whose size goes back to the allocator
   the sink pin had when the source discovered it; nothing compares the two.
   `payload_fits_of_sizes_agree` says over runs of both processes that every payload
   fits as long as the samples sent to the source are no larger than the buffers it
   discovered and both ends keep to the framing; `larger_allocator_overflows` is a
   run where the sink pin was reconnected to an allocator with larger buffers. -/
namespace VirtualCaptureStream.Link

open Transition Framing
open SinkSystem (SinkAction)

/-- The payload read FillBuffer is about to make fits the sample. -/
def PayloadFits (s : Link) : Prop := ∀ f, s.filling = some f → f.n ≤ f.sample.getSize

/-- The buffer size the source discovered. -/
def discovered (s : Link) : Int32 := s.pin.allocProperties.cbBuffer

/-- A message to the source is not torn, and a header is that of a sample no larger
    than the discovered buffers; FillBuffer does not return between a header and its
    payload. -/
def SizesAgree (s : Link) : LinkAction → Prop
  | .sink a => s.sink.Writes a → ∀ c, s.client = some c → s.sink.core.Untorn c ∧
      ∀ x p, s.sink.core.stage = .built x p → s.sink.core.client = some c →
        p.info.actualDataLength ≤ s.discovered
  | .fillHeader r _ => ∀ m msg rest, s.unread = (.head m, msg) :: rest →
      m.2.hasPayload = true → r.Consumes
  | _ => True

/-! The invariant. -/

/-- The source reads where a header or the awaited payload is: `before` is what it has
    read of the messages it was sent, `ts` what it has not. -/
def Reading (s : Link) (c : Nat) : Prop := ∃ before ts : List Sent,
  s.sink.logs[c]? = some (before ++ ts) ∧ s.unread = ts.map (fun m => (m, m.message)) ∧
  (∀ m, .head m ∈ ts → m.2.info.actualDataLength ≤ s.discovered) ∧
  match s.filling with
  | none => Whole sentHasPayload before
  | some f => f.getPointer = true ∧
      ∃ m, OpenAt sentHasPayload m before ∧ f.n = m.2.payload.length

/-- There is nothing to read, and never will be. -/
def Severed (s : Link) (c : Nat) : Prop := s.unread = [] ∧ s.sink.core.client ≠ some c

structure Safe (s : Link) : Prop where
  life : s.sink.life.Sound
  placed : s.sink.core.Placed
  attached : ∀ c, s.client = some c → c < s.sink.logs.length ∧ s.sink.core.Tidy c ∧
    (s.Severed c ∨ s.Reading c)
  detached : s.client = none → s.unread = []
  decided : ∀ n, s.bufferSize = some n → s.discovered.toNatClampNeg ≤ n
  fits : s.PayloadFits

theorem toNatClampNeg_mono {a b : Int32} (h : a ≤ b) : a.toNatClampNeg ≤ b.toNatClampNeg := by
  rw [Int32.le_iff_toInt_le] at h
  unfold Int32.toNatClampNeg
  omega

/-! The sink's steps. -/

/-- What the source has not read follows the messages it is sent. -/
theorem Reading.sink {s : Link} {c : Nat} {u : SinkSystem} {l : Label} {received : List MediaSample}
    (h : s.Reading c) (happ : s.sink.core.apply l = some u.core) (hc : s.client = some c)
    (hsize : l = .head → ∀ x p, s.sink.core.stage = .built x p → s.sink.core.client = some c →
      p.info.actualDataLength ≤ s.discovered) :
    Severed { s with sink := u, unread := s.unreadAfter u, received := received } c ∨
      Reading { s with sink := u, unread := s.unreadAfter u, received := received } c := by
  obtain ⟨before, ts, hlog, hunread, hsizes, hwhere⟩ := h
  by_cases hp : u.pipe = some .disconnected
  · -- DisconnectNamedPipe has discarded what was not read
    refine Or.inl ⟨if_pos hp, ?_⟩
    show u.client ≠ some c
    rw [SinkSystem.client, hp]
    intro h
    cases h
  · have hlog' : s.sink.core.logs[c]? = some (before ++ ts) := hlog
    obtain ⟨new, hnew, hheads⟩ := Core.apply_log happ hlog'
    have harr : arrived s.client s.sink.logs u.logs = new := by
      rw [hc]
      exact arrived_append hlog hnew
    refine Or.inr ⟨before, ts ++ new, ?_, ?_, fun m hm => ?_, hwhere⟩
    · rw [← List.append_assoc]
      exact hnew
    · show s.unreadAfter u = _
      rw [unreadAfter, if_neg hp, harr, hunread, List.map_append]
    · rcases List.mem_append.mp hm with hm | hm
      · exact hsizes m hm
      · obtain ⟨hl, hcl, x, p, hstage, rfl⟩ := hheads m hm
        exact hsize hl x p hstage hcl

theorem Severed.sink {s : Link} {c : Nat} {u : SinkSystem} {l : Label} {received : List MediaSample}
    (h : s.Severed c) (happ : s.sink.core.apply l = some u.core) (hc : s.client = some c)
    (hlt : c < s.sink.logs.length) :
    Severed { s with sink := u, unread := s.unreadAfter u, received := received } c := by
  obtain ⟨hunread, hne⟩ := h
  obtain ⟨hne', hlogs⟩ := Core.apply_unattached happ hlt hne
  refine ⟨?_, hne'⟩
  have harr : arrived s.client s.sink.logs u.logs = [] := by
    have hold : s.sink.logs[c]? = some s.sink.logs[c] := List.getElem?_eq_getElem hlt
    rw [hc]
    apply arrived_append hold
    rw [List.append_nil, ← hold]
    exact hlogs
  show s.unreadAfter u = []
  rw [unreadAfter, harr, hunread]
  split <;> rfl

theorem Safe.sink {s t : Link} {a : SinkAction} (h : s.Safe) (hC : SizesAgree s (.sink a))
    (hstep : s.step (.sink a) = some t) : t.Safe := by
  obtain ⟨_, u, hu, rfl⟩ := sinkStep_cases hstep
  obtain ⟨l, hl, happ⟩ := SinkSystem.step_refines h.life hu
  have hwrites := SinkSystem.isLabel_writes hl
  refine ⟨h.life.step (SinkSystem.step_life hu), h.placed.apply happ, fun c hc => ?_,
    fun hc => ?_, h.decided, h.fits⟩
  · obtain ⟨hlt, htidy, hread⟩ := h.attached c hc
    refine ⟨Nat.lt_of_lt_of_le hlt (Core.apply_length happ), ?_, ?_⟩
    · exact (htidy.apply h.placed happ).1 fun hw => (hC (hwrites.mpr hw) c hc).1
    · rcases hread with hread | hread
      · exact Or.inl (hread.sink happ hc hlt)
      · exact hread.sink happ hc fun hl => (hC (hwrites.mpr (Or.inl hl)) c hc).2
  · have hempty := h.detached hc
    have hc' : s.client = none := hc
    show s.unreadAfter u = []
    rw [unreadAfter, hempty, hc']
    split <;> rfl

/-! The source's steps. -/

/-- Without a client there is nothing to read. -/
theorem Safe.of_no_client {s : Link} (life : s.sink.life.Sound) (placed : s.sink.core.Placed)
    (hclient : s.client = none) (hunread : s.unread = [])
    (hdecided : ∀ n, s.bufferSize = some n → s.discovered.toNatClampNeg ≤ n)
    (hfits : s.PayloadFits) : s.Safe := by
  refine ⟨life, placed, fun c hc => ?_, fun _ => hunread, hdecided, hfits⟩
  rw [hclient] at hc
  cases hc

/-- Closing the source's end is a step of one of the pipe's clients. -/
theorem detach_sink {s : Link} (h : s.Safe) :
    s.detach.sink.life.Sound ∧ s.detach.sink.core.Placed := by
  by_cases hatt : s.Attached
  · have hstep : s.sink.step .clientClose = some s.detach.sink := by
      have hclosed : s.detach.sink = { s.sink with pipe := some .closing } := if_pos hatt
      obtain ⟨c, hc⟩ := Option.isSome_iff_exists.mp (hatt.2 ▸ hatt.1)
      rw [hclosed]
      simp only [SinkSystem.step, hc, Option.map_some]
    obtain ⟨l, _, happ⟩ := SinkSystem.step_refines h.life hstep
    exact ⟨h.life.step (SinkSystem.step_life hstep), h.placed.apply happ⟩
  · have hsame : s.detach.sink = s.sink := if_neg hatt
    rw [hsame]
    exact ⟨h.life, h.placed⟩

theorem Safe.detach {s : Link} (h : s.Safe) (hidle : s.filling = none) {pin : SourceOutputPin}
    {bufferSize : Option Nat}
    (hdecided : ∀ n, bufferSize = some n → pin.allocProperties.cbBuffer.toNatClampNeg ≤ n) :
    Safe { s.detach with pin := pin, bufferSize := bufferSize } := by
  obtain ⟨hlife, hplaced⟩ := detach_sink h
  refine Safe.of_no_client hlife hplaced rfl rfl hdecided fun f hf => ?_
  rw [show s.filling = some f from hf] at hidle
  cases hidle

/-- A step that only touches members of the pin that streaming does not rest on. -/
theorem Safe.with_pin {s : Link} (h : s.Safe) {pin : SourceOutputPin}
    (halloc : pin.allocProperties = s.pin.allocProperties) : Safe { s with pin := pin } := by
  have hdisc : ({ s with pin := pin } : Link).discovered = s.discovered := by
    show pin.allocProperties.cbBuffer = s.pin.allocProperties.cbBuffer
    rw [halloc]
  refine ⟨h.life, h.placed, fun c hc => ?_, h.detached, fun n hn => ?_, h.fits⟩
  · obtain ⟨hlt, htidy, hread⟩ := h.attached c hc
    refine ⟨hlt, htidy, hread.imp_right fun hread => ?_⟩
    obtain ⟨before, ts, hlog, hunread, hsizes, hwhere⟩ := hread
    refine ⟨before, ts, hlog, hunread, fun m hm => ?_, hwhere⟩
    rw [hdisc]
    exact hsizes m hm
  · rw [hdisc]
    exact h.decided n hn

theorem disconnectPipe_allocProperties (p : SourceOutputPin) (calls : List OsCall) :
    (SourceOutputPin.disconnectPipe p calls).1.allocProperties = p.allocProperties := by
  unfold SourceOutputPin.disconnectPipe
  split <;> rfl

theorem connectToSinkPin_allocProperties {env : SourceOutputPin.ConnectEnv} {p p' : SourceOutputPin}
    {calls calls' : List OsCall} {hr : HRESULT}
    (h : SourceOutputPin.connectToSinkPin env p calls = some (hr, p', calls')) :
    p'.allocProperties = p.allocProperties := by
  simp only [SourceOutputPin.connectToSinkPin, Option.map_eq_some_iff] at h
  obtain ⟨⟨hd, ok, cs⟩, _, hres⟩ := h
  have hclosed := disconnectPipe_allocProperties p calls
  dsimp only at hres
  split at hres
  all_goals
    obtain ⟨_, rfl, _⟩ := Prod.mk.injEq .. ▸ hres
    exact hclosed

/-- A new client has been sent nothing. -/
theorem Safe.attach {s : Link} (h : s.Safe) (hidle : s.filling = none)
    (hlisten : s.sink.pipe = some .listening) {pin : SourceOutputPin}
    (halloc : pin.allocProperties = s.pin.allocProperties) : Safe { s with
      sink := s.sink.attach, pin := pin, client := some s.sink.logs.length, unread := [] } := by
  have hstep : s.sink.step .clientOpen = some s.sink.attach := if_pos hlisten
  obtain ⟨l, _, happ⟩ := SinkSystem.step_refines h.life hstep
  have hnew : s.sink.attach.logs[s.sink.logs.length]? = some ([] ++ []) := by
    show (s.sink.logs ++ [[]])[s.sink.logs.length]? = _
    rw [List.getElem?_append_right (Nat.le_refl _), Nat.sub_self]
    rfl
  have hnone : s.sink.core.Tidy s.sink.logs.length := by
    have hno : ∀ log, s.sink.core.logs[s.sink.logs.length]? ≠ some log := by
      intro log hlog
      exact Nat.lt_irrefl _ (List.getElem?_eq_some_iff.mp hlog).1
    exact ⟨fun log hlog => absurd hlog (hno log), fun _ log hlog => absurd hlog (hno log)⟩
  refine ⟨h.life.step (SinkSystem.step_life hstep), h.placed.apply happ, fun c hc => ?_,
    fun hc => (by cases hc), fun n hn => ?_, fun f hf => ?_⟩
  · obtain rfl := Option.some.inj hc
    refine ⟨?_, hnone.attach h.placed, Or.inr ⟨[], [], hnew, rfl, fun m hm => (by cases hm), ?_⟩⟩
    · show s.sink.logs.length < (s.sink.logs ++ [[]]).length
      rw [List.length_append]
      exact Nat.lt_succ_self _
    · show match s.filling with
        | none => Whole sentHasPayload []
        | some f => _
      rw [hidle]
      exact whole_nil
  · show pin.allocProperties.cbBuffer.toNatClampNeg ≤ n
    rw [halloc]
    exact h.decided n hn
  · rw [show s.filling = some f from hf] at hidle
    cases hidle

theorem Safe.connect {s t : Link} {opened modeSet : Bool} (h : s.Safe) (hidle : s.filling = none)
    (hstep : s.connectStep opened modeSet = some t) : t.Safe := by
  unfold connectStep at hstep
  split at hstep
  · rw [Option.ite_none_right_eq_some, Option.map_eq_some_iff] at hstep
    obtain ⟨hlisten, ⟨hr, pin, calls⟩, hconn, rfl⟩ := hstep
    exact h.attach hidle hlisten (connectToSinkPin_allocProperties hconn)
  · obtain ⟨⟨hr, pin, calls⟩, hconn, rfl⟩ := Option.map_eq_some_iff.mp hstep
    refine h.detach hidle fun n hn => ?_
    rw [connectToSinkPin_allocProperties hconn]
    exact h.decided n hn

/-! FillBuffer's steps. -/

/-- When FillBuffer does not wait, it finds a message or never will. -/
theorem severed_of_not_blocked {s : Link} {c : Nat} (hc : s.client = some c)
    (hunread : s.unread = []) (hb : ¬ s.blocked) : s.Severed c := by
  refine ⟨hunread, fun he => hb ⟨hunread, by rw [hc]; rfl, ?_⟩⟩
  rw [hc]
  exact he

/-- A call that ends with nothing read. -/
theorem Safe.unread {s : Link} (h : s.Safe) (hempty : s.unread = [])
    (hsev : ∀ c, s.client = some c → s.Severed c) (hr : HRESULT) (sample : MediaSample) :
    (s.finish hr sample).Safe := by
  refine ⟨h.life, h.placed, fun c hc => ?_, fun _ => hempty, h.decided, fun f hf => (by cases hf)⟩
  obtain ⟨hlt, htidy, _⟩ := h.attached c hc
  exact ⟨hlt, htidy, Or.inl ⟨hempty, (hsev c hc).2⟩⟩

/-- Reading past a message of the client: the rest of the state is as before. -/
theorem Safe.read {s : Link} {c : Nat} {pin : SourceOutputPin} {unread : List (Sent × Msg)}
    {filling : Option Filling} {filled : List MediaSample} (h : s.Safe) (hc : s.client = some c)
    (halloc : pin.allocProperties = s.pin.allocProperties)
    (hread : Reading { s with
      pin := pin, unread := unread, filling := filling, filled := filled } c)
    (hfits : ∀ f, filling = some f → f.n ≤ f.sample.getSize) :
    Safe { s with pin := pin, unread := unread, filling := filling, filled := filled } := by
  obtain ⟨hlt, htidy, _⟩ := h.attached c hc
  refine ⟨h.life, h.placed, fun d hd => ?_, fun hno => ?_, fun n hn => ?_, hfits⟩
  · obtain rfl := Option.some.inj (hc.symm.trans hd)
    exact ⟨hlt, htidy, Or.inr hread⟩
  · rw [show s.client = none from hno] at hc
    cases hc
  · show pin.allocProperties.cbBuffer.toNatClampNeg ≤ n
    rw [halloc]
    exact h.decided n hn

theorem afterHeader_allocProperties (p : SourceOutputPin) (dst : MediaSample)
    (r : SourceOutputPin.SetterResults) (info : MediaSampleInfo) :
    (SourceOutputPin.afterHeader p dst r info).pin.allocProperties = p.allocProperties := by
  rw [SourceOutputPin.afterHeader_latch]

/-- What is left to read is the source's own, and follows what it has read. -/
theorem Safe.reading {s : Link} (h : s.Safe) (hne : s.unread ≠ []) :
    ∃ c, s.client = some c ∧ s.sink.core.Tidy c ∧ s.Reading c := by
  cases hc : s.client with
  | none => exact absurd (h.detached hc) hne
  | some c =>
    obtain ⟨_, htidy, hread⟩ := h.attached c hc
    rcases hread with hread | hread
    · exact absurd hread.1 hne
    · exact ⟨c, rfl, htidy, hread⟩

/-- Between two samples the next message is a header. -/
theorem Reading.next_header {s : Link} {c : Nat} (h : s.Reading c) (htidy : s.sink.core.Tidy c)
    (hidle : s.filling = none) (hne : s.unread ≠ []) : ∃ before m ts,
    Whole sentHasPayload before ∧ s.sink.logs[c]? = some ((before ++ [.head m]) ++ ts) ∧
      s.unread = (.head m, Packet.message (.head m.2)) :: ts.map (fun t => (t, t.message)) ∧
      m.2.info.actualDataLength ≤ s.discovered ∧
      ∀ m', .head m' ∈ ts → m'.2.info.actualDataLength ≤ s.discovered := by
  obtain ⟨before, ts, hlog, hunread, hsizes, hwhere⟩ := h
  rw [hidle] at hwhere
  cases ts with
  | nil => exact absurd hunread hne
  | cons t ts =>
    obtain ⟨units, rfl⟩ := id hwhere
    have hframed := htidy.framed _ hlog
    rw [framed_stream_append] at hframed
    obtain ⟨m, rfl⟩ := hframed.first_is_head
    refine ⟨_, m, ts, hwhere, ?_, hunread, hsizes m List.mem_cons_self,
      fun m' hm' => hsizes m' (List.mem_cons_of_mem _ hm')⟩
    rw [List.append_assoc]
    exact hlog

/-- Within a sample it is the payload FillBuffer is about to read. -/
theorem Reading.next_payload {s : Link} {c : Nat} {f : Filling} (h : s.Reading c)
    (htidy : s.sink.core.Tidy c) (hf : s.filling = some f) (hne : s.unread ≠ []) :
    f.getPointer = true ∧ ∃ before m ts, OpenAt sentHasPayload m before ∧
      s.sink.logs[c]? = some ((before ++ [.body m]) ++ ts) ∧
      s.unread = (.body m, m.2.payload) :: ts.map (fun t => (t, t.message)) ∧
      f.n = m.2.payload.length ∧
      ∀ m', .head m' ∈ ts → m'.2.info.actualDataLength ≤ s.discovered := by
  obtain ⟨before, ts, hlog, hunread, hsizes, hwhere⟩ := h
  rw [hf] at hwhere
  obtain ⟨hptr, m, hopen, hn⟩ := hwhere
  cases ts with
  | nil => exact absurd hunread hne
  | cons t ts =>
    obtain ⟨hpay, units, rfl⟩ := id hopen
    have hframed := htidy.framed _ hlog
    rw [List.append_assoc, framed_stream_append] at hframed
    obtain rfl := hframed.body_follows hpay
    refine ⟨hptr, _, m, ts, hopen, ?_, hunread, hn,
      fun m' hm' => hsizes m' (List.mem_cons_of_mem _ hm')⟩
    rw [List.append_assoc]
    exact hlog

/-- There is nothing to read and the pipe is broken. -/
theorem readTagged_empty {s : Link} (hempty : s.unread = []) (n : Nat) :
    SourceOutputPin.readTagged n s.unread = (.broken, s.unread) := by
  rw [hempty]
  rfl

/-- At a header: the next message is one, and its sample is no larger than the
    discovered buffers. -/
theorem Safe.header {s t : Link} {r : SourceOutputPin.SetterResults} {dst : MediaSample}
    (h : s.Safe) (hC : SizesAgree s (.fillHeader r dst)) (hidle : s.filling = none)
    (hsize : s.bufferSize = some dst.getSize) (hstep : s.fillHeader r dst = some t) : t.Safe := by
  rw [fillHeader, Option.ite_none_left_eq_some] at hstep
  obtain ⟨hblocked, hstep⟩ := hstep
  by_cases hempty : s.unread = []
  · simp only [readTagged_empty hempty, ReadResult.broken, if_true] at hstep
    obtain rfl := Option.some.inj hstep
    exact h.unread hempty (fun c hc => severed_of_not_blocked hc hempty hblocked) S_OK dst
  obtain ⟨c, hc, htidy, hreading⟩ := h.reading hempty
  obtain ⟨before, m, ts, hwhole, hlog, hunread, hlen, hsizes⟩ :=
    hreading.next_header htidy hidle hempty
  have hread : SourceOutputPin.readTagged sizeofMediaSampleInfo s.unread =
      (.ok (Packet.message (.head m.2)), ts.map fun t : Sent => (t, t.message)) := by
    rw [hunread]
    exact SourceOutputPin.readTagged_fits (Nat.le_of_eq m.2.head_length)
  have hdec : MediaSampleInfo.codec.dec (Packet.message (.head m.2)) = m.2.info :=
    MediaSampleInfo.codec.dec_enc_self m.2.info
  simp only [hread, ReadResult.ok, Bool.true_eq_false, if_false, hdec] at hstep
  have halloc := afterHeader_allocProperties s.pin dst r m.2.info
  have hrest : ∀ m', .head m' ∈ ts → m'.2.info.actualDataLength ≤
      (SourceOutputPin.afterHeader s.pin dst r m.2.info).pin.allocProperties.cbBuffer := by
    rw [halloc]
    exact hsizes
  cases hpay : m.2.hasPayload with
  | false =>
    have hpos : ¬ 0 < m.2.info.actualDataLength := by simpa [Packet.hasPayload] using hpay
    obtain ⟨hr, hnext⟩ := SourceOutputPin.afterHeader_no_payload s.pin dst r hpos
    rw [hnext] at hstep
    obtain rfl := Option.some.inj hstep
    exact h.read hc halloc ⟨_, ts, hlog, rfl, hrest, hwhole.snoc_head hpay⟩
      fun f hf => (by cases hf)
  | true =>
    have hpos : 0 < m.2.info.actualDataLength := by simpa [Packet.hasPayload] using hpay
    have hr : r.Consumes := hC m _ _ hunread hpay
    rw [SourceOutputPin.afterHeader_consumes s.pin dst hr hpos] at hstep
    obtain rfl := Option.some.inj hstep
    refine h.read hc halloc ⟨_, ts, hlog, rfl, hrest, hr.2.2.2.2, m, hwhole.open_head hpay,
      m.2.payload_length.symm⟩ fun f hf => ?_
    obtain rfl := Option.some.inj hf
    calc m.2.info.actualDataLength.toNatClampNeg
        ≤ s.discovered.toNatClampNeg := toNatClampNeg_mono hlen
      _ ≤ dst.getSize := h.decided _ hsize
      _ = _ := (SourceOutputPin.afterHeader_size m.2.info).symm

/-- At a payload: it is the next message, or there is no more. -/
theorem Safe.payload {s t : Link} {f : Filling} (h : s.Safe) (hf : s.filling = some f)
    (hstep : s.fillPayload f = some t) : t.Safe := by
  by_cases hempty : s.unread = []
  · unfold fillPayload at hstep
    split at hstep
    · rw [Option.ite_none_left_eq_some] at hstep
      obtain ⟨hblocked, hstep⟩ := hstep
      simp only [readTagged_empty hempty] at hstep
      obtain rfl := Option.some.inj hstep
      exact h.unread hempty (fun c hc => severed_of_not_blocked hc hempty hblocked) f.hr _
    · -- a client that still gets messages would have a buffer for this one
      rename_i hptr
      obtain rfl := Option.some.inj hstep
      refine h.unread hempty (fun c hc => ?_) f.hr _
      obtain ⟨_, _, hread⟩ := h.attached c hc
      rcases hread with hread | ⟨_, _, _, _, _, hwhere⟩
      · exact hread
      · rw [hf] at hwhere
        exact absurd hwhere.1 hptr
  obtain ⟨c, hc, htidy, hreading⟩ := h.reading hempty
  obtain ⟨hptr, before, m, ts, hopen, hlog, hunread, hn, hsizes⟩ :=
    hreading.next_payload htidy hf hempty
  have hread : SourceOutputPin.readTagged f.n s.unread =
      (.ok m.2.payload, ts.map fun t : Sent => (t, t.message)) := by
    rw [hunread]
    exact SourceOutputPin.readTagged_fits (Nat.le_of_eq hn.symm)
  rw [fillPayload, if_pos hptr, Option.ite_none_left_eq_some] at hstep
  simp only [hread, ReadResult.ok] at hstep
  obtain rfl := Option.some.inj hstep.2
  exact h.read hc rfl ⟨_, ts, hlog, rfl, hsizes, hopen.snoc_body⟩ fun f hf => (by cases hf)

theorem safe_step (s : Link) (a : LinkAction) (t : Link) (h : s.Safe) (hC : SizesAgree s a)
    (hstep : s.step a = some t) : t.Safe := by
  cases a with
  | sink a => exact h.sink hC hstep
  | discover pName mt rtStart bRunning =>
    simp only [step, Option.ite_none_right_eq_some] at hstep
    obtain rfl := Option.some.inj hstep.2
    exact h.detach hstep.1 fun n hn => (by cases hn)
  | decideBufferSize setProperties =>
    simp only [step, Option.ite_none_right_eq_some] at hstep
    obtain ⟨⟨hidle, hok⟩, hstep⟩ := hstep
    obtain rfl := Option.some.inj hstep
    refine ⟨h.life, h.placed, h.attached, h.detached, fun n hn => ?_, h.fits⟩
    obtain rfl := Option.some.inj hn
    exact toNatClampNeg_mono (SourceOutputPin.decideBufferSize_ok hok)
  | onThreadStartPlay | onThreadDestroy =>
    simp only [step, Option.ite_none_right_eq_some] at hstep
    obtain rfl := Option.some.inj hstep.2
    exact h.with_pin rfl
  | reset | stop =>
    obtain rfl := Option.some.inj hstep
    exact h.with_pin rfl
  | disconnectPipe =>
    simp only [step, Option.ite_none_right_eq_some] at hstep
    obtain ⟨hidle, hstep⟩ := hstep
    obtain rfl := Option.some.inj hstep
    refine h.detach hidle fun n hn => ?_
    rw [disconnectPipe_allocProperties]
    exact h.decided n hn
  | connectToSinkPin opened modeSet =>
    simp only [step, Option.ite_none_right_eq_some] at hstep
    exact h.connect hstep.1 hstep.2
  | fillHeader r dst =>
    simp only [step, Option.ite_none_right_eq_some] at hstep
    obtain ⟨⟨hidle, _, _, hsize⟩, hstep⟩ := hstep
    exact h.header hC hidle hsize hstep
  | fillPayload =>
    obtain ⟨f, hf, hstep⟩ := Option.bind_eq_some_iff.mp hstep
    exact h.payload hf hstep

theorem safe_new (hThread2 : ThreadHandle) (rtRefPoint2 : Int64) :
    (new hThread2 rtRefPoint2).Safe := by
  obtain ⟨hlife, hplaced, _⟩ := SinkSystem.intact_new hThread2 rtRefPoint2
  exact Safe.of_no_client hlife hplaced rfl rfl (fun n hn => (by cases hn))
    (fun f hf => (by cases hf))

/-- **Payloads fit over runs**: however the two processes interleave, over any number
    of connections at either end, no payload read asks for more than its sample
    holds, as long as every action meets `SizesAgree`. -/
theorem payload_fits_of_sizes_agree (hThread2 : ThreadHandle) (rtRefPoint2 : Int64)
    (as : List LinkAction) (has : Meets step SizesAgree (new hThread2 rtRefPoint2) as) :
    Always step PayloadFits (new hThread2 rtRefPoint2) as :=
  always_of_meets (fun _ h => h.fits) safe_step as _ (safe_new hThread2 rtRefPoint2) has

set_option maxRecDepth 4000 in
/-- One byte into a buffer of one byte. -/
theorem payload_fits_of_sizes_agree_byte :
    ∃ u f, run step (new .null 0) (connectSource ++ (send byteSample).take 9) = some u ∧
      u.filling = some f ∧ f.n = 1 ∧
      Always step PayloadFits (new .null 0) (connectSource ++ (send byteSample).take 9) := by
  have hrun : ∃ u f, run step (new .null 0) (connectSource ++ (send byteSample).take 9) = some u ∧
      u.filling = some f ∧ f.n = 1 := ⟨_, _, rfl, rfl, rfl⟩
  obtain ⟨u, f, hu, hf, hn⟩ := hrun
  refine ⟨u, f, hu, hf, hn, payload_fits_of_sizes_agree .null 0 _ ?_⟩
  iterate 4 refine Meets.cons rfl (fun h => h.elim) ?_
  iterate 4 refine Meets.cons rfl trivial ?_
  iterate 8 refine Meets.cons rfl (fun h => h.elim) ?_
  -- the header is written, with nobody cut off
  refine Meets.cons rfl (fun _ c _ => ⟨fun _ h => (by cases h), fun x p hx _ => ?_⟩) ?_
  · cases hx
    decide
  · exact Meets.cons rfl (fun _ _ _ _ _ => ⟨rfl, rfl, rfl, rfl, rfl⟩) trivial

/-- A sample of two bytes. -/
def twoByteSample : MediaSample where
  buffer := [7, 8]
  actualDataLength := 2
  time := .startStop 0 1
  mediaTime := some (0, 1)
  isSyncPoint := true
  isPreroll := false
  isDiscontinuity := false
  mediaType := none
  size_lt := by decide
  actual_le := Nat.le_refl 2

set_option maxRecDepth 4000 in
/-- The sink pin is disconnected and connected again, to an allocator with buffers of
    two bytes; the source still fills samples of one byte. -/
theorem larger_allocator_overflows :
    ∃ u, run step (new .null 0) (connectSource ++
        .sink .breakConnect :: .sink (.notifyAllocator ⟨1, 2, 1, 0⟩ true true) ::
          (send twoByteSample).take 9) = some u ∧ ¬ PayloadFits u := by
  have hrun : ∃ u f, run step (new .null 0) (connectSource ++
      .sink .breakConnect :: .sink (.notifyAllocator ⟨1, 2, 1, 0⟩ true true) ::
        (send twoByteSample).take 9) = some u ∧ u.filling = some f ∧ f.n = 2 ∧
          f.sample.getSize = 1 := ⟨_, _, rfl, rfl, rfl, rfl⟩
  obtain ⟨u, f, hu, hf, hn, hsize⟩ := hrun
  refine ⟨u, hu, fun h => ?_⟩
  have hfits := h f hf
  rw [hn, hsize] at hfits
  omega

end VirtualCaptureStream.Link
