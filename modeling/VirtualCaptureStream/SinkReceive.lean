import VirtualCaptureStream.SinkInputPin

/- CVirtualStreamSinkInputPin::Receive against the answer of its base class.
   Receive starts the writer and queues the sample first and asks
   CBaseInputPin::Receive last, so what the base class turns down stays queued;
   and only failure codes are passed on, so the S_FALSE of a flushing pin becomes
   S_OK. The result of CreateThread is not looked at, so an accepted sample may be
   queued with no writer. `receive_no_trace_iff` says when none of this shows. -/
namespace VirtualCaptureStream

namespace SinkInputPin

variable {env : ReceiveEnv} {id : Nat} {s : MediaSample} {p : SinkInputPin}

/-! The base class. -/

/-- CheckMediaType accepts the format the sample changes to, if it changes it. -/
def FormatAccepted (s : MediaSample) : Prop :=
  ∀ mt, s.mediaType = some mt → mt.amt.majortype = MEDIATYPE_Video ∨
    mt.amt.majortype = MEDIATYPE_Audio ∨ mt.amt.majortype = MEDIATYPE_AUXLine21Data

/-- The filter streams, the pin is neither flushing nor in error, and the sample
    can be read and keeps to the formats of the pin. -/
structure Streaming (env : ReceiveEnv) (s : MediaSample) (p : SinkInputPin) : Prop where
  running : env.stopped = false
  not_flushing : p.bFlushing = false
  no_error : p.bRunTimeError = false
  readable : failed env.getProperties = false
  format : FormatAccepted s

theorem checkMediaType_eq_S_OK_iff (majortype : GUID) : checkMediaType majortype = S_OK ↔
    majortype = MEDIATYPE_Video ∨ majortype = MEDIATYPE_Audio ∨
      majortype = MEDIATYPE_AUXLine21Data := by
  unfold checkMediaType
  split
  · rename_i h
    exact ⟨fun _ => h, fun _ => rfl⟩
  · rename_i h
    have hcode : E_INVALIDARG ≠ S_OK := by decide
    exact ⟨fun e => absurd e hcode, fun h' => absurd h' h⟩

theorem checkStreaming_eq_S_OK_iff (stopped : Bool) (p : SinkInputPin) :
    checkStreaming stopped p = S_OK ↔
      stopped = false ∧ p.bFlushing = false ∧ p.bRunTimeError = false := by
  have hstate : VFW_E_WRONG_STATE ≠ S_OK := by decide
  have hflush : S_FALSE ≠ S_OK := by decide
  have herror : VFW_E_RUNTIME_ERROR ≠ S_OK := by decide
  unfold checkStreaming
  cases stopped <;> cases p.bFlushing <;> cases p.bRunTimeError <;>
    simp [hstate, hflush, herror]

/-- The base class accepts a sample exactly on a streaming pin. -/
theorem baseReceive_eq_S_OK_iff :
    (baseReceive env s p).1 = S_OK ↔ Streaming env s p := by
  refine ⟨fun h => ?_, fun h => ?_⟩
  · unfold baseReceive at h
    dsimp only at h
    split at h
    · rename_i hne
      exact absurd h hne
    · rename_i hok
      obtain ⟨hrun, hflush, herr⟩ := (checkStreaming_eq_S_OK_iff _ _).mp (not_not.mp hok)
      split at h
      · rename_i hfail
        rw [show env.getProperties = S_OK from h, not_failed_S_OK] at hfail
        cases hfail
      · rename_i hread
        refine ⟨hrun, hflush, herr, Bool.eq_false_iff.mpr hread, fun mt hmt => ?_⟩
        rw [hmt] at h
        dsimp only at h
        by_contra hno
        rw [if_neg (fun e => hno ((checkMediaType_eq_S_OK_iff _).mp e))] at h
        exact absurd h (by decide)
  · have hcheck := (checkStreaming_eq_S_OK_iff env.stopped p).mpr
      ⟨h.running, h.not_flushing, h.no_error⟩
    unfold baseReceive
    dsimp only
    rw [if_neg (not_not_intro hcheck), if_neg (Bool.eq_false_iff.mp h.readable)]
    split
    · rfl
    · rename_i mt hmt
      rw [if_pos ((checkMediaType_eq_S_OK_iff _).mpr (h.format mt hmt))]

/-! The derived class. -/

/-- The base class looks at nothing Receive has changed by then. -/
theorem baseReceive_congr {q : SinkInputPin} (hflush : q.bFlushing = p.bFlushing)
    (herror : q.bRunTimeError = p.bRunTimeError) : baseReceive env s q = baseReceive env s p := by
  unfold baseReceive checkStreaming
  rw [hflush, herror]

theorem receive_hr : (p.receive env id s).hr =
    if failed (baseReceive env s p).1 then (baseReceive env s p).1 else S_OK := by
  unfold receive
  dsimp only
  rw [baseReceive_congr (p := p)]
  · split <;> rfl
  · split <;> rfl

/-- The sample is queued exactly if the base class accepts it, the writer is then on,
    started by this call if it was off; and a sample the base class does not accept
    changes neither and is answered as the base class answers it. -/
structure NoTrace (env : ReceiveEnv) (id : Nat) (s : MediaSample) (p : SinkInputPin) : Prop where
  queued_iff : (p.receive env id s).pin.writeBuffer =
      p.writeBuffer ++ [⟨id, MediaSampleX.new env.capture s⟩] ↔ (baseReceive env s p).1 = S_OK
  accepted : (baseReceive env s p).1 = S_OK →
    (p.receive env id s).hr = S_OK ∧ (p.receive env id s).pin.bWriteBuffering = true ∧
      (p.receive env id s).startWriter = !p.bWriteBuffering
  rejected : (baseReceive env s p).1 ≠ S_OK →
    (p.receive env id s).hr = (baseReceive env s p).1 ∧
      (p.receive env id s).pin.writeBuffer = p.writeBuffer ∧
      (p.receive env id s).pin.bWriteBuffering = p.bWriteBuffering ∧
      (p.receive env id s).pin.hThread2 = p.hThread2 ∧ (p.receive env id s).startWriter = false

/-- A call that has to start the writer starts it if CreateThread succeeds. -/
theorem startWriter_iff : (p.receive env id s).startWriter = (!p.bWriteBuffering) ↔
    p.bWriteBuffering = true ∨ env.thread = true := by
  rw [receive_startWriter]
  cases p.bWriteBuffering <;> cases env.thread <;> decide

/-- **A rejected sample leaves no trace** exactly when it is not rejected, and its writer
    runs: every sample is queued, and a writer asked for, whatever the base class says. -/
theorem receive_no_trace_iff (env : ReceiveEnv) (id : Nat) (s : MediaSample) (p : SinkInputPin) :
    NoTrace env id s p ↔
      Streaming env s p ∧ (p.bWriteBuffering = true ∨ env.thread = true) := by
  rw [← baseReceive_eq_S_OK_iff]
  refine ⟨fun h => ?_, fun ⟨hok, hwriter⟩ => ?_⟩
  · have hok := h.queued_iff.mp (receive_writeBuffer env id s p)
    exact ⟨hok, startWriter_iff.mp (h.accepted hok).2.2⟩
  · refine ⟨⟨fun _ => hok, fun _ => receive_writeBuffer env id s p⟩, fun _ => ?_,
      fun hne => absurd hok hne⟩
    refine ⟨?_, receive_bWriteBuffering env id s p, startWriter_iff.mpr hwriter⟩
    rw [receive_hr, hok, not_failed_S_OK, if_neg Bool.false_ne_true]

/-- On a flushing pin the sample is queued, the writer is started, and S_OK is
    returned for the base class's S_FALSE. -/
theorem flushing_sample_is_queued :
    let p := (new .null 0).beginFlush
    (baseReceive SinkSystem.streaming byteSample p).1 = S_FALSE ∧
      (p.receive SinkSystem.streaming 0 byteSample).hr = S_OK ∧
      (p.receive SinkSystem.streaming 0 byteSample).startWriter = true ∧
      ¬ NoTrace SinkSystem.streaming 0 byteSample p := by
  refine ⟨by decide, by decide, rfl, fun h => ?_⟩
  have haccepted := h.queued_iff.mp (receive_writeBuffer _ _ _ _)
  exact absurd haccepted (by decide)

end SinkInputPin

end VirtualCaptureStream
