import VirtualCaptureStream.SinkGraph
import VirtualCaptureStream.SinkReceive

/- `m_bFlushing` and `m_bRunTimeError`, the two flags for which CBaseInputPin turns
   samples down. The base classes clear them in Inactive, which CBaseFilter::Stop
   calls on every connected pin of a filter that is not stopped yet.
   CVirtualStreamSink::Stop sets `m_State` before it calls CBaseFilter::Stop, so no
   pin is ever made inactive, and the flags outlast Stop, Run and a new connection:
   `flags_since` says of every run what they stand for.

   Correspondence (C++ ↔ Lean):
     `CBaseInputPin::Inactive`  ↔ `PinServer.inactive`
     `CBaseFilter::Stop`        ↔ `baseStop`
     `CVirtualStreamSink::Stop` ↔ `stop` -/
namespace VirtualCaptureStream

/-- CBaseInputPin::Inactive; without an allocator it returns before it clears the second
    flag. -/
def PinServer.inactive (allocator : Bool) (p : PinServer) : PinServer :=
  { p with pin := { p.pin with
      bRunTimeError := false, bFlushing := if allocator then false else p.pin.bFlushing } }

namespace SinkGraph

/-- CBaseFilter::Stop. -/
def baseStop (allocator : Nat → Bool) (s : SinkGraph) : SinkGraph :=
  let s := if s.state ≠ .stopped then
      { s with pins := fun id =>
          if s.connected id then (s.pins id).inactive (allocator id) else s.pins id }
    else s
  { s with state := .stopped }

/-- CVirtualStreamSink::Stop. -/
def stop (allocator : Nat → Bool) (s : SinkGraph) : SinkGraph :=
  baseStop allocator { s with state := .stopped }

/-- The base class finds the filter stopped, so this is all there is to a call of Stop. -/
theorem step_stop {s : SinkGraph} (halive : s.alive = true) (allocator : Nat → Bool) :
    s.step .stop = some (s.stop allocator) := by
  rw [step, if_neg (by simp [halive])]
  rfl

/-- The pin at position `i` is number `id`. -/
def IsAt (s : SinkGraph) (i id : Nat) : Prop := ∃ p, s.sink.pinList[i]? = some p ∧ p.id = id

/-- Receive on an active pin that is not flushing, with a format the pin does not accept. -/
def RejectsFormat (id : Nat) (s : SinkGraph) : GraphAction → Prop
  | .receive i _ getProperties _ sample =>
    s.IsAt i id ∧ s.state ≠ .stopped ∧ (s.pins id).pin.bFlushing = false ∧
      failed getProperties = false ∧ ¬ SinkInputPin.FormatAccepted sample
  | _ => False

def BeginsFlush (id : Nat) (s : SinkGraph) : GraphAction → Prop
  | .beginFlush i => s.IsAt i id
  | _ => False

def EndsFlush (id : Nat) (s : SinkGraph) : GraphAction → Prop
  | .endFlush i => s.IsAt i id
  | _ => False

/-! What the calls do to the flags. -/

/-- The two flags of a pin. -/
def flags (s : SinkGraph) (id : Nat) : Bool × Bool :=
  ((s.pins id).pin.bFlushing, (s.pins id).pin.bRunTimeError)

theorem onPin_cases {s t : SinkGraph} {i : Nat} {f : PinServer → PinServer}
    (h : s.onPin i f = some t) (id : Nat) :
    (s.IsAt i id ∧ t.pins id = f (s.pins id)) ∨ (¬ s.IsAt i id ∧ t.pins id = s.pins id) := by
  obtain ⟨p, hp, rfl⟩ := Option.map_eq_some_iff.mp h
  by_cases hid : id = p.id
  · exact Or.inl ⟨⟨p, hp, hid.symm⟩, if_pos hid⟩
  · refine Or.inr ⟨?_, if_neg hid⟩
    rintro ⟨q, hq, hqid⟩
    obtain rfl := Option.some.inj (hp.symm.trans hq)
    exact hid hqid.symm

theorem onPin_flags {s t : SinkGraph} {i : Nat} {f : PinServer → PinServer}
    (h : s.onPin i f = some t) (hf : ∀ p, (f p).pin.bFlushing = p.pin.bFlushing ∧
      (f p).pin.bRunTimeError = p.pin.bRunTimeError) (id : Nat) : t.flags id = s.flags id := by
  rcases onPin_cases h id with ⟨-, heq⟩ | ⟨-, heq⟩
  · rw [flags, flags, heq, (hf _).1, (hf _).2]
  · rw [flags, flags, heq]

theorem stopServer_flags (p : PinServer) : p.stopServer.pin.bFlushing = p.pin.bFlushing ∧
    p.stopServer.pin.bRunTimeError = p.pin.bRunTimeError := by
  unfold PinServer.stopServer
  split <;> exact ⟨rfl, rfl⟩

theorem destructor_flags (p : PinServer) (c : Prop) [Decidable c] :
    (if c then p.destructor else p).pin.bFlushing = p.pin.bFlushing ∧
      (if c then p.destructor else p).pin.bRunTimeError = p.pin.bRunTimeError := by
  split
  · exact stopServer_flags p
  · exact ⟨rfl, rfl⟩

/-- Run resets connected pins, which is only about their queue and reference point. -/
theorem run_flags (s : SinkGraph) (first second : Bool) (id : Nat) :
    (s.run first second).flags id = s.flags id := by
  have hreset : (if s.connected id then (s.pins id).reset else s.pins id).pin.bFlushing =
      (s.pins id).pin.bFlushing ∧
      (if s.connected id then (s.pins id).reset else s.pins id).pin.bRunTimeError =
        (s.pins id).pin.bRunTimeError := by
    split <;> exact ⟨rfl, rfl⟩
  unfold run flags
  dsimp only
  split <;> split <;> exact Prod.ext hreset.1 hreset.2

/-- When the base class calls EndOfStream. -/
theorem baseReceive_endOfStream_iff {env : SinkInputPin.ReceiveEnv} {x : MediaSample}
    {p : SinkInputPin} : (SinkInputPin.baseReceive env x p).2 = true ↔
      env.stopped = false ∧ p.bFlushing = false ∧ p.bRunTimeError = false ∧
        failed env.getProperties = false ∧ ¬ SinkInputPin.FormatAccepted x := by
  have hstreaming := SinkInputPin.checkStreaming_eq_S_OK_iff env.stopped p
  unfold SinkInputPin.baseReceive
  dsimp only
  split
  · rename_i hne
    refine ⟨fun h => (by cases h), fun h => ?_⟩
    exact absurd (hstreaming.mpr ⟨h.1, h.2.1, h.2.2.1⟩) hne
  rename_i hok
  obtain ⟨hrun, hflush, herr⟩ := hstreaming.mp (not_not.mp hok)
  split
  · rename_i hfail
    refine ⟨fun h => (by cases h), fun h => ?_⟩
    rw [hfail] at h
    cases h.2.2.2.1
  rename_i hread
  split
  · rename_i hsame
    refine ⟨fun h => (by cases h), fun h => absurd ?_ h.2.2.2.2⟩
    intro mt hmt
    rw [hsame] at hmt
    cases hmt
  · rename_i mt hmt
    have haccepted : SinkInputPin.FormatAccepted x ↔
        SinkInputPin.checkMediaType mt.amt.majortype = S_OK := by
      rw [SinkInputPin.checkMediaType_eq_S_OK_iff]
      refine ⟨fun h => h mt hmt, fun h mt' hmt' => ?_⟩
      obtain rfl := Option.some.inj (hmt.symm.trans hmt')
      exact h
    rw [haccepted]
    split
    · rename_i hformat
      exact iff_of_false Bool.false_ne_true fun h => h.2.2.2.2 hformat
    · rename_i hformat
      exact iff_of_true rfl ⟨hrun, hflush, herr, Bool.eq_false_iff.mpr hread, hformat⟩

/-- Receive sets the second flag, if any. -/
theorem receive_flags (env : SinkInputPin.ReceiveEnv) (x : MediaSample) (p : PinServer) :
    (p.receive env x).pin.bFlushing = p.pin.bFlushing ∧
      (p.receive env x).pin.bRunTimeError =
        (p.pin.bRunTimeError || (SinkInputPin.baseReceive env x p.pin).2) := by
  have hpin : (p.pin.receive env p.received x).pin.bFlushing = p.pin.bFlushing ∧
      (p.pin.receive env p.received x).pin.bRunTimeError =
        (p.pin.bRunTimeError || (SinkInputPin.baseReceive env x p.pin).2) := by
    unfold SinkInputPin.receive
    dsimp only
    rw [SinkInputPin.baseReceive_congr (p := p.pin)]
    · cases p.pin.bWriteBuffering <;> cases (SinkInputPin.baseReceive env x p.pin).2 <;>
        simp [SinkInputPin.createWriteBufferThread]
    · split <;> rfl
    · split <;> rfl
  unfold PinServer.receive
  dsimp only
  split
  · have hstop := stopServer_flags
      { p with pin := (p.pin.receive env p.received x).pin, received := p.received + 1 }
    exact ⟨hstop.1.trans hpin.1, hstop.2.trans hpin.2⟩
  · exact hpin

/-- What a call does to the flags of a pin: nothing, or what its name says. -/
theorem step_flags {s t : SinkGraph} {a : GraphAction} (h : s.step a = some t) (k : Nat) :
    (t.flags k = s.flags k ∧ ¬ BeginsFlush k s a ∧ ¬ EndsFlush k s a ∧ ¬ RejectsFormat k s a) ∨
    (BeginsFlush k s a ∧ ¬ EndsFlush k s a ∧ ¬ RejectsFormat k s a ∧
      t.flags k = (true, (s.flags k).2)) ∨
    (EndsFlush k s a ∧ ¬ BeginsFlush k s a ∧ ¬ RejectsFormat k s a ∧ t.flags k = (false, false)) ∨
    (RejectsFormat k s a ∧ ¬ BeginsFlush k s a ∧ ¬ EndsFlush k s a ∧
      t.flags k = ((s.flags k).1, true)) := by
  simp only [step, Option.ite_none_left_eq_some] at h
  obtain ⟨-, h⟩ := h
  cases a with
  | completeConnect i mt tick =>
    rw [Option.ite_none_right_eq_some] at h
    obtain ⟨sink, -, rfl⟩ := Option.map_eq_some_iff.mp h.2
    exact Or.inl ⟨rfl, id, id, id⟩
  | notifyAllocator i p created thread =>
    obtain ⟨sink, hsink, h⟩ := Option.bind_eq_some_iff.mp h
    refine Or.inl ⟨onPin_flags h (fun q => ?_) k, id, id, id⟩
    unfold PinServer.notifyAllocator
    dsimp only
    split <;> exact ⟨rfl, rfl⟩
  | disconnect i =>
    obtain ⟨p, -, h⟩ := Option.bind_eq_some_iff.mp h
    split at h
    · refine Or.inl ⟨onPin_flags h (fun q => ?_) k, id, id, id⟩
      unfold PinServer.breakConnect
      split <;> exact ⟨rfl, rfl⟩
    · obtain rfl := Option.some.inj h
      exact Or.inl ⟨rfl, id, id, id⟩
  | receive i capture getProperties thread x =>
    rcases onPin_cases h k with ⟨hat, heq⟩ | ⟨hnot, heq⟩
    · have hflags := receive_flags ⟨capture, s.state = .stopped, getProperties, thread⟩ x (s.pins k)
      have hiff := @baseReceive_endOfStream_iff
        ⟨capture, s.state = .stopped, getProperties, thread⟩ x (s.pins k).pin
      rw [← heq] at hflags
      have ht : t.flags k = ((s.flags k).1, (s.flags k).2 || _) := Prod.ext hflags.1 hflags.2
      by_cases hrej : RejectsFormat k s (.receive i capture getProperties thread x)
      · obtain ⟨-, hrun, hflush, hread, hformat⟩ := hrej
        refine Or.inr (Or.inr (Or.inr ⟨⟨hat, hrun, hflush, hread, hformat⟩, id, id, ?_⟩))
        rw [ht]
        -- the flag was set before, or the base class sets it
        cases herr : (s.pins k).pin.bRunTimeError with
        | true => rw [flags, herr, Bool.true_or]
        | false => rw [hiff.mpr ⟨decide_eq_false hrun, hflush, herr, hread, hformat⟩, Bool.or_true]
      · refine Or.inl ⟨?_, id, id, hrej⟩
        have hoff : (SinkInputPin.baseReceive
            ⟨capture, s.state = .stopped, getProperties, thread⟩ x (s.pins k).pin).2 = false := by
          rw [Bool.eq_false_iff]
          intro hon
          obtain ⟨hrun, hflush, -, hread, hformat⟩ := hiff.mp hon
          exact hrej ⟨hat, of_decide_eq_false hrun, hflush, hread, hformat⟩
        rw [ht, hoff, Bool.or_false]
    · refine Or.inl ⟨?_, id, id, fun hrej => hnot hrej.1⟩
      rw [flags, flags, heq]
  | endOfStream i =>
    exact Or.inl ⟨onPin_flags h (fun q => stopServer_flags q) k, id, id, id⟩
  | beginFlush i =>
    rcases onPin_cases h k with ⟨hat, heq⟩ | ⟨hnot, heq⟩
    · refine Or.inr (Or.inl ⟨hat, id, id, ?_⟩)
      rw [flags, heq]
      rfl
    · refine Or.inl ⟨?_, hnot, id, id⟩
      rw [flags, flags, heq]
  | endFlush i =>
    rcases onPin_cases h k with ⟨hat, heq⟩ | ⟨hnot, heq⟩
    · refine Or.inr (Or.inr (Or.inl ⟨hat, id, id, ?_⟩))
      rw [flags, heq]
      rfl
    · refine Or.inl ⟨?_, id, hnot, id⟩
      rw [flags, flags, heq]
  | setStreamName name tick created =>
    obtain ⟨sink, -, rfl⟩ := Option.map_eq_some_iff.mp h
    refine Or.inl ⟨?_, id, id, id⟩
    have hif := destructor_flags (s.pins k) (k ∈ sink.deleted ∧ k ∉ s.sink.deleted)
    dsimp only
    split
    · exact Prod.ext hif.1 hif.2
    · exact Prod.ext hif.1 hif.2
  | pause created =>
    obtain rfl := Option.some.inj h
    exact Or.inl ⟨rfl, id, id, id⟩
  | run first second =>
    obtain rfl := Option.some.inj h
    exact Or.inl ⟨run_flags s first second k, id, id, id⟩
  | stop =>
    obtain rfl := Option.some.inj h
    exact Or.inl ⟨rfl, id, id, id⟩
  | destructor =>
    obtain rfl := Option.some.inj h
    have hif := destructor_flags (s.pins k) (s.sink.pinList.any (fun p => p.id == k) = true)
    exact Or.inl ⟨Prod.ext hif.1 hif.2, id, id, id⟩

theorem flushing_step (k : Nat) (s : SinkGraph) (a : GraphAction) (t : SinkGraph)
    (h : s.step a = some t) : ((t.flags k).1 = true ↔
      BeginsFlush k s a ∨ (s.flags k).1 = true ∧ ¬ EndsFlush k s a) := by
  rcases step_flags h k with ⟨heq, hb, he, -⟩ | ⟨hb, -, -, heq⟩ | ⟨he, hb, -, heq⟩ |
      ⟨-, hb, he, heq⟩ <;> rw [heq]
  · exact ⟨fun hon => Or.inr ⟨hon, he⟩, fun hon => (hon.resolve_left hb).1⟩
  · exact iff_of_true rfl (Or.inl hb)
  · exact iff_of_false Bool.false_ne_true fun hon => (hon.resolve_left hb).2 he
  · exact ⟨fun hon => Or.inr ⟨hon, he⟩, fun hon => (hon.resolve_left hb).1⟩

theorem error_step (k : Nat) (s : SinkGraph) (a : GraphAction) (t : SinkGraph)
    (h : s.step a = some t) : ((t.flags k).2 = true ↔
      RejectsFormat k s a ∨ (s.flags k).2 = true ∧ ¬ EndsFlush k s a) := by
  rcases step_flags h k with ⟨heq, -, he, hr⟩ | ⟨-, he, hr, heq⟩ | ⟨he, -, hr, heq⟩ |
      ⟨hr, -, -, heq⟩ <;> rw [heq]
  · exact ⟨fun hon => Or.inr ⟨hon, he⟩, fun hon => (hon.resolve_left hr).1⟩
  · exact ⟨fun hon => Or.inr ⟨hon, he⟩, fun hon => (hon.resolve_left hr).1⟩
  · exact iff_of_false Bool.false_ne_true fun hon => (hon.resolve_left hr).2 he
  · exact iff_of_true rfl (Or.inl hr)

/-- **The flags outlast Stop**: behind any run of the graph's calls a pin is flushing exactly
    since a BeginFlush on it with no EndFlush after it, and in error exactly since a Receive
    with a format it does not accept; Stop, which would clear both if the base class found
    the filter active, leaves them. -/
theorem flags_since (heap : Nat → ThreadHandle × Int64) (tick : UInt32) (s : SinkGraph)
    (hs : constructed heap tick = some s) (as : List GraphAction) (u : SinkGraph)
    (hrun : Transition.run step s as = some u) (k : Nat) :
    ((u.pins k).pin.bFlushing = true ↔ Transition.Since step (BeginsFlush k) (EndsFlush k) s as) ∧
    ((u.pins k).pin.bRunTimeError = true ↔
      Transition.Since step (RejectsFormat k) (EndsFlush k) s as) ∧
    ∀ allocator, u.state ≠ .stopped → u.connected k = true → allocator k = true →
      (u.stop allocator).flags k = u.flags k ∧ (u.baseStop allocator).flags k = (false, false) := by
  have hnew : s.flags k = (false, false) := by
    obtain ⟨sink, -, rfl⟩ := Option.map_eq_some_iff.mp hs
    rfl
  refine ⟨?_, ?_, fun allocator hactive hconn halloc => ⟨rfl, ?_⟩⟩
  · refine (Transition.holds_iff_since (flushing_step k) as s u hrun).trans (or_iff_left ?_)
    intro hon
    rw [hnew] at hon
    cases hon.1
  · refine (Transition.holds_iff_since (error_step k) as s u hrun).trans (or_iff_left ?_)
    intro hon
    rw [hnew] at hon
    cases hon.1
  · unfold baseStop flags PinServer.inactive
    simp [hactive, hconn, halloc]

/-- A format the pin does not accept, then Stop and Run: the pin is still in error. -/
theorem flags_since_stopped_and_run :
    ∃ s u, constructed (fun _ => (.null, 0)) 0 = some s ∧
      Transition.run step s [.run true true,
        .receive 0 clearedHeap S_OK true { byteSample with mediaType := some noMediaType },
        .stop, .run true true] = some u ∧ (u.pins 0).pin.bRunTimeError = true := by
  obtain ⟨s, hs⟩ : ∃ s, constructed (fun _ => (.null, 0)) 0 = some s := ⟨_, rfl⟩
  obtain ⟨u, hu⟩ : ∃ u, Transition.run step s [.run true true,
      .receive 0 clearedHeap S_OK true { byteSample with mediaType := some noMediaType },
      .stop, .run true true] = some u := by
    obtain rfl := Option.some.inj hs
    exact ⟨_, rfl⟩
  refine ⟨s, u, hs, hu, (flags_since _ 0 s hs _ u hu 0).2.1.mpr ?_⟩
  obtain rfl := Option.some.inj hs
  refine ⟨_, rfl, Or.inr ⟨_, rfl, Or.inl ⟨?_, ?_⟩⟩⟩
  · refine ⟨⟨_, rfl, rfl⟩, fun h => (by cases h), rfl, by decide, fun h => ?_⟩
    exact absurd (h noMediaType rfl) (by decide)
  · exact ⟨id, fun _ _ => ⟨id, fun _ _ => trivial⟩⟩

end SinkGraph

end VirtualCaptureStream
