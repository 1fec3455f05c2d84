import VirtualCaptureStream.SourceFillBuffer

/- Rebasing against Reset. FillBuffer tests the first-sample flag, latches the base,
   computes the times and only then sets the flag, all without a lock, and Run calls
   Reset on another thread. A Reset that comes between the computation and the
   setting of the flag is overwritten: `disturbed_breaks`. `rebasing_restarts` says
   that this placement (with two more) is all there is to avoid.

   Correspondence (C++ ↔ Lean):
     FillBuffer's statements on m_rtStart and the flag     ↔ `FillPc`, `fillStep`
     `if (!GetFirstSampleDelivered())`, its assignment     ↔ `test`, `latch`
     `timeStart - m_rtStart`, `SetFirstSampleDelivered()`  ↔ `compute`, `deliver`
     CVirtualStreamSource::Run's call of the pin's Reset   ↔ `reset`
     OnThreadStartPlay, on the streaming thread            ↔ `onThreadStartPlay`

   `fillBuffer_uninterrupted` says that the steps make up `afterHeader`. -/
namespace VirtualCaptureStream.SourceOutputPin

/-- Where a FillBuffer call is that has read the header `info`. -/
inductive FillPc where
  | idle
  | test (info : MediaSampleInfo)
  | latch (info : MediaSampleInfo)
  | compute (info : MediaSampleInfo)
  | deliver
  deriving DecidableEq

/-- The pin and its streaming thread. `epoch`: the samples whose times were computed
    since the last Reset, each with its own start time and the one it was given. -/
structure Rebasing where
  pin : SourceOutputPin
  pc : FillPc
  epoch : List (Int64 × Int64)

inductive RebaseAction where
  | reset
  | onThreadStartPlay
  | fillBuffer (info : MediaSampleInfo)
  | fillStep

/-- One step of FillBuffer. -/
def fillStep (s : Rebasing) : Option Rebasing :=
  match s.pc with
  | .idle => none
  | .test info =>
    some { s with pc := if s.pin.fFirstSampleDelivered then .compute info else .latch info }
  | .latch info =>
    some { s with pin := { s.pin with rtStart := info.timeStart }, pc := .compute info }
  | .compute info =>
    some { s with
      epoch := s.epoch ++ [(info.timeStart, info.timeStart - s.pin.rtStart)], pc := .deliver }
  | .deliver =>
    some { s with pin := { s.pin with fFirstSampleDelivered := true }, pc := .idle }

/-- Reset comes at any time; the rest is the streaming thread's. -/
def rebaseStep (s : Rebasing) : RebaseAction → Option Rebasing
  | .reset => some { s with pin := s.pin.reset, epoch := [] }
  | .onThreadStartPlay =>
    if s.pc = .idle then some { s with pin := s.pin.onThreadStartPlay } else none
  | .fillBuffer info => if s.pc = .idle then some { s with pc := .test info } else none
  | .fillStep => fillStep s

/-- The steps of a call that nothing comes between. -/
def fillBufferSteps (p : SourceOutputPin) (info : MediaSampleInfo) : List RebaseAction :=
  .fillBuffer info :: List.replicate (if p.fFirstSampleDelivered then 3 else 4) .fillStep

theorem fillBuffer_uninterrupted (p : SourceOutputPin) (info : MediaSampleInfo)
    (epoch : List (Int64 × Int64)) (s : MediaSample) (r : SetterResults) :
    Transition.run rebaseStep ⟨p, .idle, epoch⟩ (fillBufferSteps p info) =
      some ⟨(afterHeader p s r info).pin, .idle,
        epoch ++ [(info.timeStart, info.timeStart - (afterHeader p s r info).pin.rtStart)]⟩ := by
  rw [afterHeader_latch]
  cases hfirst : p.fFirstSampleDelivered <;>
    simp [fillBufferSteps, Transition.run, rebaseStep, fillStep, hfirst, List.replicate]

/-! What the samples between two Resets are given. -/

/-- The first sample is given 0, the later ones their distance from it, and so times
    that do not go back, if the sink's start at 0 or later and do not. -/
structure Rebased (epoch : List (Int64 × Int64)) : Prop where
  first : ∀ x, epoch.head? = some x → x.2 = 0
  later : ∀ x, epoch.head? = some x → ∀ y ∈ epoch.tail, y.2 = y.1 - x.1
  monotone : (∀ x ∈ epoch, 0 ≤ x.1) → (epoch.map Prod.fst).Pairwise (· ≤ ·) →
    (∀ x ∈ epoch, 0 ≤ x.2) ∧ (epoch.map Prod.snd).Pairwise (· ≤ ·)

theorem rebased_nil : Rebased [] := by
  refine ⟨?_, ?_, fun _ _ => ⟨?_, List.Pairwise.nil⟩⟩ <;>
  · intro x hx
    cases hx

/-- Every sample is given its distance from `base`, which is the first one's start. -/
structure BasedOn (base : Int64) (epoch : List (Int64 × Int64)) : Prop where
  first : ∃ x, epoch.head? = some x ∧ x.1 = base
  given : ∀ x ∈ epoch, x.2 = x.1 - base

/-- Distances from a start that is not negative do not overflow. -/
theorem toInt_sub_of_le {base x : Int64} (hbase : 0 ≤ base) (hle : base ≤ x) :
    (x - base).toInt = x.toInt - base.toInt := by
  rw [Int64.le_iff_toInt_le] at hbase hle
  have hzero : (0 : Int64).toInt = 0 := rfl
  have hlt := x.toInt_lt
  rw [Int64.toInt_sub]
  apply Int.bmod_eq_of_le <;> omega

theorem sub_le_sub_of_le {base x y : Int64} (hbase : 0 ≤ base) (hx : base ≤ x) (hy : x ≤ y) :
    x - base ≤ y - base := by
  rw [Int64.le_iff_toInt_le, toInt_sub_of_le hbase hx,
    toInt_sub_of_le hbase (Int64.le_trans hx hy)]
  rw [Int64.le_iff_toInt_le] at hy
  omega

theorem BasedOn.rebased {base : Int64} {epoch : List (Int64 × Int64)} (h : BasedOn base epoch) :
    Rebased epoch := by
  obtain ⟨⟨x, hx, rfl⟩, hgiven⟩ := h
  cases epoch with
  | nil => cases hx
  | cons x' rest =>
    obtain rfl := Option.some.inj hx
    refine ⟨fun y hy => ?_, fun y hy z hz => ?_, fun hpos hsorted => ?_⟩
    · obtain rfl := Option.some.inj hy
      rw [hgiven _ List.mem_cons_self, Int64.sub_self]
    · obtain rfl := Option.some.inj hy
      exact hgiven z (List.mem_cons_of_mem _ hz)
    · have hbase := hpos x' List.mem_cons_self
      rw [List.pairwise_map] at hsorted
      have hleast : ∀ y ∈ x' :: rest, x'.1 ≤ y.1 := by
        intro y hy
        rcases List.mem_cons.mp hy with rfl | hy
        · exact Int64.le_refl _
        · exact (List.pairwise_cons.mp hsorted).1 y hy
      refine ⟨fun y hy => ?_, ?_⟩
      · have hzero : x'.1 - x'.1 = 0 := Int64.sub_self x'.1
        rw [hgiven y hy, ← hzero]
        exact sub_le_sub_of_le hbase (Int64.le_refl _) (hleast y hy)
      · rw [List.pairwise_map]
        refine hsorted.imp_of_mem fun {y z} hy hz hle => ?_
        rw [hgiven y hy, hgiven z hz]
        exact sub_le_sub_of_le hbase (hleast y hy) hle

/-- One more sample on the same base; the first one makes the base. -/
theorem BasedOn.snoc {base timeStart : Int64} {epoch : List (Int64 × Int64)}
    (h : epoch = [] ∧ timeStart = base ∨ BasedOn base epoch) :
    BasedOn base (epoch ++ [(timeStart, timeStart - base)]) := by
  rcases h with ⟨rfl, rfl⟩ | ⟨⟨x, hx, hbase⟩, hgiven⟩
  · refine ⟨⟨_, rfl, rfl⟩, fun x hx => ?_⟩
    rw [List.mem_singleton.mp hx]
  · refine ⟨⟨x, ?_, hbase⟩, fun y hy => ?_⟩
    · rw [List.head?_append, hx, Option.some_or]
    · rcases List.mem_append.mp hy with hy | hy
      · exact hgiven y hy
      · rw [List.mem_singleton.mp hy]

/-! The runs. -/

/-- What the flag and the base are worth at each point of FillBuffer. -/
def FlagAgrees (s : Rebasing) : Prop :=
  match s.pc with
  | .idle | .test _ => s.pin.fFirstSampleDelivered = true ↔ s.epoch ≠ []
  | .latch _ => s.epoch = []
  | .compute info => s.epoch = [] → info.timeStart = s.pin.rtStart
  | .deliver => s.epoch ≠ []

/-- The samples of the epoch are based on m_rtStart, and the next one will be. -/
structure Restarts (s : Rebasing) : Prop where
  based : s.epoch = [] ∨ BasedOn s.pin.rtStart s.epoch
  flag : FlagAgrees s

/-- No Reset comes between the time computation and the setting of the flag, nor
    between a test that found the flag set and the time computation, unless the
    sample starts at the old base; and the thread is not started anew while samples
    of the epoch are out. -/
def Undisturbed (s : Rebasing) : RebaseAction → Prop
  | .reset => s.pc ≠ .deliver ∧ ∀ info, s.pc = .compute info → info.timeStart = s.pin.rtStart
  | .onThreadStartPlay => s.epoch = []
  | _ => True

/-- A Reset that disturbs nothing begins an epoch. -/
theorem restarts_reset {s : Rebasing} (hC : Undisturbed s .reset) :
    Restarts { s with pin := s.pin.reset, epoch := [] } := by
  refine ⟨Or.inl rfl, ?_⟩
  unfold FlagAgrees
  cases hpc : s.pc with
  | idle | test info => simp [SourceOutputPin.reset]
  | latch info => rfl
  | compute info => exact fun _ => hC.2 info hpc
  | deliver => exact absurd hpc hC.1

/-- Each step of FillBuffer, on an epoch that was fine. -/
theorem Restarts.fillStep {s t : Rebasing} (h : Restarts s) (hstep : fillStep s = some t) :
    Restarts t := by
  obtain ⟨hbased, hflag⟩ := h
  unfold SourceOutputPin.fillStep at hstep
  unfold FlagAgrees at hflag
  cases hpc : s.pc with
  | idle =>
    rw [hpc] at hstep
    cases hstep
  | test info =>
    rw [hpc] at hstep hflag
    obtain rfl := Option.some.inj hstep
    refine ⟨hbased, ?_⟩
    -- the flag says whether this is the first sample of the epoch
    cases hfirst : s.pin.fFirstSampleDelivered with
    | true => exact fun hempty => absurd hempty (hflag.mp hfirst)
    | false =>
      by_contra hne
      rw [hflag.mpr hne] at hfirst
      cases hfirst
  | latch info =>
    rw [hpc] at hstep hflag
    obtain rfl := Option.some.inj hstep
    exact ⟨Or.inl hflag, fun _ => rfl⟩
  | compute info =>
    rw [hpc] at hstep hflag
    obtain rfl := Option.some.inj hstep
    refine ⟨Or.inr (BasedOn.snoc ?_), ?_⟩
    · rcases hbased with hempty | hbased
      · exact Or.inl ⟨hempty, hflag hempty⟩
      · exact Or.inr hbased
    · simp [FlagAgrees]
  | deliver =>
    rw [hpc] at hstep hflag
    obtain rfl := Option.some.inj hstep
    exact ⟨hbased, iff_of_true rfl hflag⟩

theorem Restarts.step (s : Rebasing) (a : RebaseAction) (t : Rebasing) (h : Restarts s)
    (hC : Undisturbed s a) (hstep : rebaseStep s a = some t) : Restarts t := by
  cases a with
  | reset =>
    obtain rfl := Option.some.inj hstep
    exact restarts_reset hC
  | onThreadStartPlay =>
    simp only [rebaseStep, Option.ite_none_right_eq_some] at hstep
    obtain ⟨hpc, hstep⟩ := hstep
    obtain rfl := Option.some.inj hstep
    have hempty : s.epoch = [] := hC
    exact ⟨Or.inl hempty, by simp [FlagAgrees, hpc, SourceOutputPin.onThreadStartPlay, hempty]⟩
  | fillBuffer info =>
    simp only [rebaseStep, Option.ite_none_right_eq_some] at hstep
    obtain ⟨hpc, hstep⟩ := hstep
    obtain rfl := Option.some.inj hstep
    have hflag := h.flag
    unfold FlagAgrees at hflag
    rw [hpc] at hflag
    exact ⟨h.based, hflag⟩
  | fillStep => exact h.fillStep hstep

/-- A pin as the filter creates it. -/
def newRebasing (pName : WStr) (mt : MediaType) (allocProperties : AllocatorProperties)
    (rtStart : Int64) (bRunning : Bool) : Rebasing :=
  ⟨new pName mt allocProperties rtStart bRunning, .idle, []⟩

/-- **Rebasing restarts on every Reset**, in every interleaving whose Resets and
    thread starts are all `Undisturbed`. -/
theorem rebasing_restarts (pName : WStr) (mt : MediaType) (allocProperties : AllocatorProperties)
    (rtStart : Int64) (bRunning : Bool) (as : List RebaseAction)
    (h : Transition.Meets rebaseStep Undisturbed
      (newRebasing pName mt allocProperties rtStart bRunning) as) :
    Transition.Always rebaseStep (fun s => Rebased s.epoch)
      (newRebasing pName mt allocProperties rtStart bRunning) as := by
  have hnew : Restarts (newRebasing pName mt allocProperties rtStart bRunning) :=
    ⟨Or.inl rfl, by simp [FlagAgrees, newRebasing, new]⟩
  refine Transition.always_of_meets (I := Restarts) (fun s hs => ?_) Restarts.step as _ hnew h
  rcases hs.based with hempty | hbased
  · exact hempty ▸ rebased_nil
  · exact hbased.rebased

/-- The header of a sample without data that starts at `timeStart`. -/
def startingAt (timeStart : Int64) : MediaSampleInfo where
  actualDataLength := 0
  mediaTimeStart := 0
  mediaTimeEnd := 0
  timeStart := timeStart
  timeEnd := 0
  timeOffset := 0
  mediaTimeOffset := 0
  size := 0
  isDiscontinuity := 0
  isPreroll := 0
  isSyncPoint := 0

/-- The first sample after a Reset, on a base that is not its start. -/
theorem not_rebased_first {base timeStart : Int64} (h : timeStart ≠ base) :
    ¬ Rebased [(timeStart, timeStart - base)] := by
  intro hreb
  have hzero : timeStart - base = 0 := hreb.first _ rfl
  exact h (by rw [← Int64.sub_add_cancel timeStart base, hzero, Int64.zero_add])

theorem add_one_ne (x : Int64) : x + 1 ≠ x := by
  intro h
  have hone : x + 1 - x = x - x := congrArg (· - x) h
  rw [Int64.sub_self, Int64.add_comm, Int64.add_sub_cancel] at hone
  exact absurd hone (by decide)

/-- FillBuffer disturbs nothing. -/
theorem fills_undisturbed {bs : List RebaseAction}
    (h : ∀ b ∈ bs, b = .fillStep ∨ ∃ info, b = .fillBuffer info) (s : Rebasing) :
    Transition.Meets rebaseStep Undisturbed s bs := by
  refine Transition.meets_of_forall ?_ s
  intro b hb s
  rcases h b hb with rfl | ⟨info, rfl⟩
  · trivial
  · trivial

/-- Some header to come is given the wrong time. -/
def Spoiled (s : Rebasing) : Prop :=
  ∃ bs u, Transition.run rebaseStep s bs = some u ∧
    Transition.Meets rebaseStep Undisturbed s bs ∧ ¬ Rebased u.epoch

/-- A Reset before the flag is set: the call sets it again, and the next sample gets
    the old base. -/
theorem reset_in_delivery_spoils {s : Rebasing} (hpc : s.pc = .deliver) :
    Spoiled { s with pin := s.pin.reset, epoch := [] } := by
  refine ⟨[.fillStep, .fillBuffer (startingAt (s.pin.rtStart + 1)), .fillStep, .fillStep],
    ⟨{ s.pin with fFirstSampleDelivered := true }, .deliver,
      [(s.pin.rtStart + 1, s.pin.rtStart + 1 - s.pin.rtStart)]⟩, ?_,
    fills_undisturbed (by simp) _, not_rebased_first (add_one_ne s.pin.rtStart)⟩
  simp [Transition.run, rebaseStep, SourceOutputPin.fillStep, hpc, SourceOutputPin.reset,
    startingAt]

/-- A Reset before the times are computed: the call computes with the old base. -/
theorem reset_in_computation_spoils {s : Rebasing} {info : MediaSampleInfo}
    (hpc : s.pc = .compute info) (hne : info.timeStart ≠ s.pin.rtStart) :
    Spoiled { s with pin := s.pin.reset, epoch := [] } := by
  refine ⟨[.fillStep],
    ⟨s.pin.reset, .deliver, [(info.timeStart, info.timeStart - s.pin.rtStart)]⟩, ?_,
    fills_undisturbed (by simp) _, not_rebased_first hne⟩
  simp [Transition.run, rebaseStep, SourceOutputPin.fillStep, hpc, SourceOutputPin.reset]

/-- A thread that starts in the middle of an epoch: the next sample is given 0 instead
    of its distance from the first one. -/
theorem thread_start_spoils {s : Rebasing} (hpc : s.pc = .idle)
    (hbased : BasedOn s.pin.rtStart s.epoch) :
    Spoiled { s with pin := s.pin.onThreadStartPlay } := by
  obtain ⟨x, hx, hbase⟩ := hbased.first
  have hne : s.epoch ≠ [] := by
    intro hempty
    rw [hempty] at hx
    cases hx
  refine ⟨[.fillBuffer (startingAt (s.pin.rtStart + 1)), .fillStep, .fillStep, .fillStep],
    ⟨{ s.pin.onThreadStartPlay with rtStart := s.pin.rtStart + 1 }, .deliver,
      s.epoch ++ [(s.pin.rtStart + 1, 0)]⟩, ?_, fills_undisturbed (by simp) _, ?_⟩
  · simp [Transition.run, rebaseStep, SourceOutputPin.fillStep, hpc,
      SourceOutputPin.onThreadStartPlay, startingAt]
  · intro hreb
    have hlast := hreb.later x (by rw [List.head?_append, hx, Option.some_or])
      (s.pin.rtStart + 1, 0) (by rw [List.tail_append_of_ne_nil hne]; simp)
    have hzero : (0 : Int64) = s.pin.rtStart + 1 - s.pin.rtStart := hbase ▸ hlast
    rw [Int64.add_comm, Int64.add_sub_cancel] at hzero
    exact absurd hzero (by decide)

/-- A step that is not `Undisturbed` spoils a stream that was fine. -/
theorem disturbed_breaks {s t : Rebasing} {a : RebaseAction} (h : Restarts s)
    (hC : ¬ Undisturbed s a) (hstep : rebaseStep s a = some t) : Spoiled t := by
  cases a with
  | fillBuffer info | fillStep => exact absurd trivial hC
  | reset =>
    obtain rfl := Option.some.inj hstep
    by_cases hpc : s.pc = .deliver
    · exact reset_in_delivery_spoils hpc
    · obtain ⟨info, hinfo, hne⟩ :
          ∃ info, s.pc = .compute info ∧ info.timeStart ≠ s.pin.rtStart := by
        by_contra hno
        refine hC ⟨hpc, ?_⟩
        intro info hinfo
        by_contra hne
        exact hno ⟨info, hinfo, hne⟩
      exact reset_in_computation_spoils hinfo hne
  | onThreadStartPlay =>
    simp only [rebaseStep, Option.ite_none_right_eq_some] at hstep
    obtain ⟨hpc, hstep⟩ := hstep
    obtain rfl := Option.some.inj hstep
    exact thread_start_spoils hpc (h.based.resolve_left hC)

/-- Run calls Reset when the first sample's times are computed and the flag is not
    set yet: the second sample, at 200, is given 100. -/
theorem reset_is_lost :
    ¬ Transition.Always rebaseStep (fun s => Rebased s.epoch)
      (newRebasing [] bareVideo ⟨1, 1, 1, 0⟩ 0 true)
      [.onThreadStartPlay, .fillBuffer (startingAt 100), .fillStep, .fillStep, .fillStep, .reset,
        .fillStep, .fillBuffer (startingAt 200), .fillStep, .fillStep] := by
  intro h
  have hlast := Transition.always_iff_prefix.mp h _ (List.prefix_refl _) _ rfl
  exact absurd (hlast.first _ rfl) (by decide)

/-- A Reset between two FillBuffer calls is not lost. -/
theorem rebasing_restarts_between_calls :
    Transition.Always rebaseStep (fun s => Rebased s.epoch)
      (newRebasing [] bareVideo ⟨1, 1, 1, 0⟩ 0 true)
      [.onThreadStartPlay, .fillBuffer (startingAt 100), .fillStep, .fillStep, .fillStep, .fillStep,
        .reset, .fillBuffer (startingAt 200), .fillStep, .fillStep, .fillStep] := by
  refine rebasing_restarts _ _ _ _ _ _ ?_
  simp [Transition.Meets, Undisturbed, rebaseStep, fillStep, newRebasing, new, onThreadStartPlay,
    SourceOutputPin.reset]

end VirtualCaptureStream.SourceOutputPin
