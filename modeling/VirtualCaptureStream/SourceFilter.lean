import VirtualCaptureStream.SourcePinLists
import VirtualCaptureStream.SourceStop
import VirtualCaptureStream.SinkConnect

/- The source filter under a graph's calls. Pause goes through the pins and ends at the
   first that cannot be activated, with the filter still stopped; Stop goes through all
   of them, but only if the filter is not stopped. Whether a worker is left behind is a
   matter of both.

   What is proved:
     1. `workers_only_while_active_iff` — there is no worker while the filter is stopped,
        exactly if no Pause fails behind a pin it has activated and no Stop finds an
        allocator that fails to decommit.
     2. `stale_worker_stays` — a worker that is left behind is never ended: its pin fails
        every Pause while it is connected, and the calls that delete it do not return.
     3. `calls_refine` — what Active and Inactive do here is what they do to the pin's
        threads.

   Correspondence (C++ ↔ Lean):
     `CSourceStream::Active`, `Inactive`               ↔ `active`, `inactive`
     `CBaseFilter::Pause`, the loop over the pins      ↔ `pause`, `activatePins`
     `CBaseFilter::Stop`, the loop over the pins       ↔ `stop`, `deactivatePins`
     `CBaseFilter::Run`; `CBasePin::Run` does nothing  ↔ `run`
     `CBasePin::Connect`, up to AgreeMediaType         ↔ `connect`
   The loops go through CSource's list, which is `pinList` (`Owned.same`). The filter's
   Stop and Run call Stop and Reset of the pins first, which are steps of `SourceStream`. -/
namespace VirtualCaptureStream

/-- What Active of a pin finds: the allocator's Commit, and whether there can be a thread. -/
structure ActiveEnv where
  commit : HRESULT
  createThread : Bool

namespace SourcePin

def active (state : FilterState) (env : ActiveEnv) (p : SourcePin) : HRESULT × SourcePin :=
  if state ≠ .stopped then (S_FALSE, p)
  else if p.isConnected = false then (S_OK, p)
  else if failed env.commit then (env.commit, p)
  else if p.thread = true ∨ env.createThread = false then (E_FAIL, p)
  else (S_OK, { p with thread := true })

def inactive (decommit : HRESULT) (p : SourcePin) : HRESULT × SourcePin :=
  if p.isConnected = false then (S_OK, p)
  else if failed decommit then (decommit, p)
  else (S_OK, { p with thread := false })

/-- Connect, where AgreeMediaType returns `agreed`. -/
def connect (state : FilterState) (agreed : HRESULT) (p : SourcePin) : HRESULT × SourcePin :=
  if p.isConnected then (VFW_E_ALREADY_CONNECTED, p)
  else if state ≠ .stopped then (VFW_E_NOT_STOPPED, p)
  else if failed agreed then (agreed, p)
  else (S_OK, { p with isConnected := true })

end SourcePin

namespace VirtualStreamSource

/-- The loop of Pause over the pins, which ends at the first failure. -/
def activatePins (state : FilterState) (env : Nat → ActiveEnv) :
    List SourcePin → HRESULT × List SourcePin
  | [] => (S_OK, [])
  | p :: ps =>
    if p.isConnected then
      let (hr, p) := p.active state (env p.id)
      if failed hr then (hr, p :: ps)
      else
        let (hr, ps) := activatePins state env ps
        (hr, p :: ps)
    else
      let (hr, ps) := activatePins state env ps
      (hr, p :: ps)

/-- The loop of Stop, which keeps the first error. -/
def deactivatePins (decommit : Nat → HRESULT) : HRESULT → List SourcePin → HRESULT × List SourcePin
  | hr, [] => (hr, [])
  | hr, p :: ps =>
    if p.isConnected then
      let (hrTmp, p) := p.inactive (decommit p.id)
      let (hr, ps) := deactivatePins decommit (if failed hrTmp && !failed hr then hrTmp else hr) ps
      (hr, p :: ps)
    else
      let (hr, ps) := deactivatePins decommit hr ps
      (hr, p :: ps)

def pause (env : Nat → ActiveEnv) (s : VirtualStreamSource) : HRESULT × VirtualStreamSource :=
  if s.state = .stopped then
    let (hr, pins) := activatePins s.state env s.pinList
    if failed hr then (hr, { s with pinList := pins })
    else (S_OK, { s with pinList := pins, state := .paused })
  else (S_OK, { s with state := .paused })

def run (env : Nat → ActiveEnv) (s : VirtualStreamSource) : HRESULT × VirtualStreamSource :=
  let (hr, s) := if s.state = .stopped then s.pause env else (S_OK, s)
  if failed hr then (hr, s) else (S_OK, { s with state := .running })

def stop (decommit : Nat → HRESULT) (s : VirtualStreamSource) : HRESULT × VirtualStreamSource :=
  let (hr, pins) :=
    if s.state ≠ .stopped then deactivatePins decommit S_OK s.pinList else (S_OK, s.pinList)
  (hr, { s with pinList := pins, state := .stopped })

/-- A call on one pin. -/
def onPin (id : Nat) (call : SourcePin → HRESULT × SourcePin) (s : VirtualStreamSource) :
    VirtualStreamSource :=
  { s with pinList := s.pinList.map fun p => if p.id = id then (call p).2 else p }

inductive GraphCall where
  | pause (env : Nat → ActiveEnv)
  | run (env : Nat → ActiveEnv)
  | stop (decommit : Nat → HRESULT)
  | connect (id : Nat) (agreed : HRESULT)
  | disconnect (id : Nat) (breakConnect : Nat → HRESULT)
  | setStreamName (env : DiscoveryEnv) (szStreamName : WStr) (calls : List OsCall) (msgs : List Msg)

def graphStep (s : VirtualStreamSource) : GraphCall → Option VirtualStreamSource
  | .pause env => some (s.pause env).2
  | .run env => some (s.run env).2
  | .stop decommit => some (s.stop decommit).2
  | .connect id agreed => some (s.onPin id (·.connect s.state agreed))
  | .disconnect id breakConnect => some (s.onPin id (disconnect s.state breakConnect))
  | .setStreamName env szStreamName calls msgs =>
    (setStreamName env szStreamName calls msgs s).map (·.source)

end VirtualStreamSource

/-! What Active and Inactive leave. -/

namespace SourcePin

/-- Active of this pin would fail. -/
def Fails (env : ActiveEnv) (p : SourcePin) : Prop :=
  failed env.commit = true ∨ p.thread = true ∨ env.createThread = false

instance (env : ActiveEnv) (p : SourcePin) : Decidable (p.Fails env) :=
  inferInstanceAs (Decidable (_ ∨ _))

/-- The pin as a successful Active leaves it. -/
def activated (p : SourcePin) : SourcePin := if p.isConnected then { p with thread := true } else p

section
variable {p : SourcePin}

theorem active_fails {env : ActiveEnv} (hconn : p.isConnected = true) (h : p.Fails env) :
    failed (p.active .stopped env).1 = true ∧ (p.active .stopped env).2 = p := by
  unfold active
  rw [if_neg (not_not_intro rfl), if_neg (by simp [hconn])]
  by_cases hcommit : failed env.commit = true
  · rw [if_pos hcommit]
    exact ⟨hcommit, rfl⟩
  · rw [if_neg hcommit, if_pos (h.resolve_left hcommit)]
    exact ⟨rfl, rfl⟩

theorem active_succeeds {env : ActiveEnv} (hconn : p.isConnected = true) (h : ¬ p.Fails env) :
    p.active .stopped env = (S_OK, p.activated) := by
  unfold Fails at h
  rw [not_or] at h
  unfold active activated
  rw [if_neg (not_not_intro rfl), if_neg (by simp [hconn]), if_neg h.1, if_neg h.2, if_pos hconn]

theorem activated_frame : p.activated.id = p.id ∧ p.activated.created = p.created ∧
    p.activated.isConnected = p.isConnected := by
  unfold activated
  split <;> exact ⟨rfl, rfl, rfl⟩

theorem inactive_frame (decommit : HRESULT) : (p.inactive decommit).2.id = p.id ∧
    (p.inactive decommit).2.created = p.created ∧
    (p.inactive decommit).2.isConnected = p.isConnected := by
  unfold inactive
  split
  · exact ⟨rfl, rfl, rfl⟩
  · split <;> exact ⟨rfl, rfl, rfl⟩

theorem connect_frame (state : FilterState) (agreed : HRESULT) :
    (p.connect state agreed).2.id = p.id ∧ (p.connect state agreed).2.created = p.created ∧
      (p.connect state agreed).2.thread = p.thread := by
  unfold connect
  repeat' split
  all_goals exact ⟨rfl, rfl, rfl⟩

end

end SourcePin

namespace VirtualStreamSource

section
variable {s t : VirtualStreamSource}

/-- How far the loop of Pause comes: to its end, or to a pin that fails, behind those it
    has activated. -/
inductive Activates (env : Nat → ActiveEnv) (ps : List SourcePin) : HRESULT × List SourcePin → Prop
  | all (h : ∀ p ∈ ps, p.isConnected = true → ¬ p.Fails (env p.id)) :
      Activates env ps (S_OK, ps.map SourcePin.activated)
  | upto {before after : List SourcePin} {p : SourcePin} {hr : HRESULT}
      (hps : ps = before ++ p :: after)
      (h : ∀ q ∈ before, q.isConnected = true → ¬ q.Fails (env q.id))
      (hconn : p.isConnected = true) (hfails : p.Fails (env p.id)) (hr_failed : failed hr = true) :
      Activates env ps (hr, before.map SourcePin.activated ++ p :: after)

/-- A pin that is not connected, or that is activated, leaves the rest to the loop. -/
theorem Activates.cons {env : Nat → ActiveEnv} {p : SourcePin} {ps : List SourcePin}
    {r : HRESULT × List SourcePin} (hp : p.isConnected = true → ¬ p.Fails (env p.id))
    (h : Activates env ps r) : Activates env (p :: ps) (r.1, p.activated :: r.2) := by
  cases h with
  | all h => exact .all (List.forall_mem_cons.mpr ⟨hp, h⟩)
  | upto hps h hconn hfails hr_failed =>
    rw [hps]
    exact .upto (List.cons_append ..).symm (List.forall_mem_cons.mpr ⟨hp, h⟩) hconn hfails hr_failed

theorem activatePins_activates (env : Nat → ActiveEnv) (ps : List SourcePin) :
    Activates env ps (activatePins .stopped env ps) := by
  induction ps with
  | nil => exact .all fun _ h => (by cases h)
  | cons p ps ih =>
    unfold activatePins
    by_cases hconn : p.isConnected = true
    · rw [if_pos hconn]
      by_cases hfails : p.Fails (env p.id)
      · obtain ⟨hfailed, hsame⟩ := SourcePin.active_fails hconn hfails
        dsimp only
        rw [if_pos hfailed, hsame]
        exact .upto (List.nil_append _).symm (fun _ h => (by cases h)) hconn hfails hfailed
      · rw [SourcePin.active_succeeds hconn hfails]
        exact ih.cons fun _ => hfails
    · have hsame : p.activated = p := if_neg hconn
      rw [if_neg hconn]
      have hcons := ih.cons (p := p) fun h => absurd h hconn
      rw [hsame] at hcons
      exact hcons

theorem deactivatePins_pins (decommit : Nat → HRESULT) (ps : List SourcePin) (hr : HRESULT) :
    (deactivatePins decommit hr ps).2 = ps.map fun p => (p.inactive (decommit p.id)).2 := by
  induction ps generalizing hr with
  | nil => rfl
  | cons p ps ih =>
    unfold deactivatePins
    rw [List.map_cons]
    split
    · exact congrArg _ (ih _)
    · have hsame : (p.inactive (decommit p.id)).2 = p := by
        rw [SourcePin.inactive, if_pos (by simpa using ‹¬ p.isConnected = true›)]
      rw [hsame]
      exact congrArg _ (ih hr)

/-- Pause in the stopped state, in the two ways it can end; Run goes on to the running
    state. -/
inductive Starts (env : Nat → ActiveEnv) (s : VirtualStreamSource) :
    HRESULT × VirtualStreamSource → Prop
  | started {state : FilterState} (hstate : state ≠ .stopped)
      (h : ∀ p ∈ s.pinList, p.isConnected = true → ¬ p.Fails (env p.id)) :
      Starts env s (S_OK, { s with pinList := s.pinList.map SourcePin.activated, state := state })
  | failed {before after : List SourcePin} {p : SourcePin} {hr : HRESULT}
      (hpins : s.pinList = before ++ p :: after)
      (h : ∀ q ∈ before, q.isConnected = true → ¬ q.Fails (env q.id))
      (hconn : p.isConnected = true) (hfails : p.Fails (env p.id))
      (hr_failed : VirtualCaptureStream.failed hr = true) :
      Starts env s (hr, { s with pinList := before.map SourcePin.activated ++ p :: after })

theorem pause_starts (env : Nat → ActiveEnv) (hs : s.state = .stopped) : Starts env s (s.pause env) := by
  have hactivates := activatePins_activates env s.pinList
  rw [← hs] at hactivates
  unfold pause
  rw [if_pos hs]
  generalize activatePins s.state env s.pinList = r at hactivates ⊢
  cases hactivates with
  | all h => exact .started (by decide) h
  | upto hps h hconn hfails hr_failed =>
    dsimp only
    rw [if_pos hr_failed]
    exact .failed hps h hconn hfails hr_failed

theorem run_starts (env : Nat → ActiveEnv) (hs : s.state = .stopped) : Starts env s (s.run env) := by
  have hstarts := pause_starts env hs
  unfold run
  rw [if_pos hs]
  generalize s.pause env = r at hstarts ⊢
  cases hstarts with
  | started _ h => exact .started (by decide) h
  | failed hpins h hconn hfails hr_failed =>
    dsimp only
    rw [if_pos hr_failed]
    exact .failed hpins h hconn hfails hr_failed

/-- Pause and Run of an active filter. -/
theorem pause_active (env : Nat → ActiveEnv) (hs : s.state ≠ .stopped) :
    s.pause env = (S_OK, { s with state := .paused }) := if_neg hs

theorem run_active (env : Nat → ActiveEnv) (hs : s.state ≠ .stopped) :
    s.run env = (S_OK, { s with state := .running }) := by
  unfold run
  rw [if_neg hs]
  rfl

theorem stop_stopped (decommit : Nat → HRESULT) (hs : s.state = .stopped) :
    (s.stop decommit).2 = s := by
  unfold stop
  rw [if_neg (not_not_intro hs)]
  cases s
  cases hs
  rfl

theorem stop_active (decommit : Nat → HRESULT) (hs : s.state ≠ .stopped) :
    (s.stop decommit).2 = { s with
      pinList := s.pinList.map fun p => (p.inactive (decommit p.id)).2, state := .stopped } := by
  unfold stop
  rw [if_pos hs, ← deactivatePins_pins decommit s.pinList S_OK]

theorem mem_onPin {id : Nat} {call : SourcePin → HRESULT × SourcePin} {q : SourcePin} :
    q ∈ (s.onPin id call).pinList ↔ ∃ p ∈ s.pinList, (if p.id = id then (call p).2 else p) = q :=
  List.mem_map

/-! Workers and the filter's state. -/

/-- There is a worker for each connected pin while the filter is active, and none else. -/
def Threaded (s : VirtualStreamSource) : Prop :=
  ∀ p ∈ s.pinList, p.thread = true ↔ s.state ≠ .stopped ∧ p.isConnected = true

/-- While the filter is stopped, there is no worker. -/
def Quiet (s : VirtualStreamSource) : Prop :=
  s.state = .stopped → ∀ p ∈ s.pinList, p.thread = false

theorem Threaded.quiet (h : s.Threaded) : s.Quiet := by
  intro hs p hp
  rw [← Bool.not_eq_true, h p hp]
  exact fun hc => hc.1 hs

/-- A Pause from the stopped state can activate every connected pin, or not even the first. -/
def AllOrFirst (env : Nat → ActiveEnv) (s : VirtualStreamSource) : Prop :=
  (∀ p ∈ s.pinList, p.isConnected = true → ¬ p.Fails (env p.id)) ∨
    ∃ p, s.pinList.find? (·.isConnected) = some p ∧ p.Fails (env p.id)

/-- The call leaves no worker behind in a stopped filter. -/
def Clean (s : VirtualStreamSource) : GraphCall → Prop
  | .pause env | .run env => s.state = .stopped → AllOrFirst env s
  | .stop decommit =>
    s.state ≠ .stopped → ∀ p ∈ s.pinList, p.isConnected = true → failed (decommit p.id) = false
  | _ => True

theorem Threaded.start {env : Nat → ActiveEnv} {r : HRESULT × VirtualStreamSource} (h : s.Threaded)
    (hs : s.state = .stopped) (hstarts : Starts env s r) (hclean : AllOrFirst env s) :
    r.2.Threaded := by
  cases hstarts with
  | started hstate _ =>
    intro q hq
    obtain ⟨p, hp, rfl⟩ := List.mem_map.mp hq
    have hquiet := h.quiet hs p hp
    unfold SourcePin.activated
    by_cases hconn : p.isConnected = true <;> simp [hconn, hquiet, hstate]
  | @failed before after p hr hpins hbefore hconn hfails _ =>
    -- the pin that fails is the first that is connected, so no other was activated
    have hnone : ∀ q ∈ before, ¬ q.isConnected = true := by
      rcases hclean with hall | ⟨first, hfind, hfirst⟩
      · exact absurd hfails (hall p (by rw [hpins]; simp) hconn)
      · intro q hq hqconn
        rw [hpins, List.find?_append] at hfind
        obtain ⟨first', hfind'⟩ := List.find?_isSome.mpr ⟨q, hq, hqconn⟩ |> Option.isSome_iff_exists.mp
        rw [hfind', Option.some_or] at hfind
        obtain rfl := Option.some.inj hfind
        exact hbefore first' (List.mem_of_find?_eq_some hfind') (List.find?_some hfind') hfirst
    have hsame : before.map SourcePin.activated = before :=
      (List.map_congr_left fun q hq => if_neg (hnone q hq)).trans (List.map_id _)
    dsimp only
    rw [hsame, ← hpins]
    exact h

theorem newPins_fresh {made : Nat} {cs : List CreatedPin} {p : SourcePin} (h : p ∈ newPins made cs) :
    p.thread = false ∧ p.isConnected = false := by
  induction cs generalizing made with
  | nil => cases h
  | cons c cs ih =>
    rcases List.mem_cons.mp h with rfl | h
    · exact ⟨rfl, rfl⟩
    · exact ih h

theorem Threaded.step (s : VirtualStreamSource) (a : GraphCall) (t : VirtualStreamSource)
    (h : s.Threaded) (hstep : graphStep s a = some t) (hclean : Clean s a) : t.Threaded := by
  cases a with
  | pause env =>
    obtain rfl := Option.some.inj hstep
    by_cases hs : s.state = .stopped
    · exact h.start hs (pause_starts env hs) (hclean hs)
    · rw [pause_active env hs]
      intro p hp
      simp [h p hp, hs]
  | run env =>
    obtain rfl := Option.some.inj hstep
    by_cases hs : s.state = .stopped
    · exact h.start hs (run_starts env hs) (hclean hs)
    · rw [run_active env hs]
      intro p hp
      simp [h p hp, hs]
  | stop decommit =>
    obtain rfl := Option.some.inj hstep
    by_cases hs : s.state = .stopped
    · rw [stop_stopped decommit hs]
      exact h
    · rw [stop_active decommit hs]
      intro q hq
      obtain ⟨p, hp, rfl⟩ := List.mem_map.mp hq
      have hthread := h p hp
      have hdecommit := hclean hs p hp
      unfold SourcePin.inactive
      cases hconn : p.isConnected
      · simpa [hconn] using hthread
      · simp [hdecommit hconn]
  | connect id agreed =>
    obtain rfl := Option.some.inj hstep
    intro q hq
    obtain ⟨p, hp, rfl⟩ := mem_onPin.mp hq
    have hthread := h p hp
    show _ ↔ s.state ≠ .stopped ∧ _
    split
    · unfold SourcePin.connect
      split
      · exact hthread
      split
      · exact hthread
      split
      · exact hthread
      · rename_i hs _
        have hstopped := not_not.mp hs
        simpa [hstopped] using hthread
    · exact hthread
  | disconnect id breakConnect =>
    obtain rfl := Option.some.inj hstep
    intro q hq
    obtain ⟨p, hp, rfl⟩ := mem_onPin.mp hq
    have hthread := h p hp
    show _ ↔ s.state ≠ .stopped ∧ _
    split
    · rw [disconnect_thread, hthread]
      unfold disconnect
      split
      · rfl
      split
      · split
        · rfl
        · rename_i hs _ _
          simp [not_not.mp hs]
      · rfl
    · exact hthread
  | setStreamName env szStreamName calls msgs =>
    obtain ⟨r, hset, rfl⟩ := Option.map_eq_some_iff.mp hstep
    obtain ⟨u, -, hset⟩ := Option.bind_eq_some_iff.mp hset
    obtain ⟨d, -, rfl⟩ := Option.map_eq_some_iff.mp hset
    intro p hp
    obtain ⟨hthread, hconn⟩ := newPins_fresh hp
    simp [hthread, hconn]

/-- A start that leaves no worker behind went through, or ended at the first pin. -/
theorem Starts.allOrFirst {env : Nat → ActiveEnv} {r : HRESULT × VirtualStreamSource}
    (hs : s.state = .stopped) (hstarts : Starts env s r) (hquiet : r.2.Quiet) :
    AllOrFirst env s := by
  cases hstarts with
  | started _ h => exact Or.inl h
  | @failed before after p hr hpins _ hconn hfails _ =>
    refine Or.inr ⟨p, ?_, hfails⟩
    have hnone : before.find? (·.isConnected) = none := by
      refine List.find?_eq_none.mpr fun q hq hqconn => ?_
      have hthread := hquiet hs q.activated
        (List.mem_append_left _ (List.mem_map_of_mem hq))
      rw [SourcePin.activated, if_pos hqconn] at hthread
      cases hthread
    rw [hpins, List.find?_append, hnone, Option.none_or, List.find?_cons_of_pos hconn]

theorem Threaded.clean_of_quiet (s : VirtualStreamSource) (a : GraphCall) (t : VirtualStreamSource)
    (h : s.Threaded) (hstep : graphStep s a = some t) (hquiet : t.Quiet) : Clean s a := by
  cases a with
  | pause env =>
    obtain rfl := Option.some.inj hstep
    exact fun hs => (pause_starts env hs).allOrFirst hs hquiet
  | run env =>
    obtain rfl := Option.some.inj hstep
    exact fun hs => (run_starts env hs).allOrFirst hs hquiet
  | stop decommit =>
    obtain rfl := Option.some.inj hstep
    intro hs p hp hconn
    rw [stop_active decommit hs] at hquiet
    have hthread := hquiet rfl _ (List.mem_map_of_mem hp)
    by_contra hfailed
    rw [SourcePin.inactive, if_neg (by simp [hconn]), if_pos (by simpa using hfailed),
      (h p hp).mpr ⟨hs, hconn⟩] at hthread
    cases hthread
  | connect | disconnect | setStreamName => trivial

theorem threaded_constructed : constructed.Threaded := fun _ h => by cases h

/-- **No worker is left in a stopped filter** exactly if no start fails behind a pin it has
    activated and no Stop fails to decommit; and then there is one for each connected pin
    as long as the filter is active. -/
theorem workers_only_while_active_iff (as : List GraphCall) (u : VirtualStreamSource)
    (hrun : Transition.run graphStep constructed as = some u) :
    (Transition.Always graphStep Quiet constructed as ↔
        Transition.Meets graphStep Clean constructed as) ∧
      (Transition.Meets graphStep Clean constructed as →
        Transition.Always graphStep Threaded constructed as) :=
  ⟨Transition.always_iff_meets_of_invariant (fun _ h => h.quiet) Threaded.step
      Threaded.clean_of_quiet as constructed u threaded_constructed hrun,
    Transition.always_of_meets (fun _ h => h)
      (fun s a t h hclean hstep => Threaded.step s a t h hstep hclean) as constructed
      threaded_constructed⟩

/-- Two pins are discovered, connected and started. -/
def twoPinsStarted : List GraphCall :=
  [.setStreamName ⟨.latin1, clearedStack, ⟨[.opened 0], true⟩, fun _ => S_OK⟩ [86] [] [[86], [87]],
    .connect 0 S_OK, .connect 1 S_OK, .run fun _ => ⟨S_OK, true⟩]

theorem twoPinsStarted_clean :
    Transition.Meets graphStep Clean constructed (twoPinsStarted ++ [.stop fun _ => S_OK]) := by
  refine ⟨trivial, fun _ h₁ => ⟨trivial, fun _ h₂ => ⟨trivial, fun _ h₃ => ⟨fun _ => Or.inl ?_,
    fun _ _ => ⟨fun _ _ _ _ => not_failed_S_OK, fun _ _ => trivial⟩⟩⟩⟩⟩
  obtain rfl := Option.some.inj h₁
  obtain rfl := Option.some.inj h₂
  obtain rfl := Option.some.inj h₃
  intro p hp _
  have hthread : p.thread = false := by
    rcases List.mem_cons.mp hp with rfl | hp
    · rfl
    · obtain rfl := List.mem_singleton.mp hp
      rfl
  rintro (hf | hf | hf)
  · cases hf
  · rw [hthread] at hf
    cases hf
  · cases hf

theorem workers_only_while_active_started :
    ∃ t u, Transition.run graphStep constructed twoPinsStarted = some t ∧
      t.pinList.map (·.thread) = [true, true] ∧
      Transition.run graphStep constructed (twoPinsStarted ++ [.stop fun _ => S_OK]) = some u ∧
      u.pinList.map (·.thread) = [false, false] ∧
      Transition.Always graphStep Threaded constructed (twoPinsStarted ++ [.stop fun _ => S_OK]) :=
  ⟨_, _, rfl, rfl, rfl, rfl, (workers_only_while_active_iff _ _ rfl).2 twoPinsStarted_clean⟩

/-! A worker that is left behind. -/

theorem Owned.keeps (h : Owned s) (hids : t.pinList.map (·.id) = s.pinList.map (·.id))
    (hstreams : t.paStreams = s.paStreams) (hdeleted : t.deleted = s.deleted)
    (hmade : t.made = s.made) : Owned t := by
  refine ⟨hids.trans (h.same.trans hstreams.symm), fun n => ?_⟩
  rw [hstreams, hdeleted, hmade]
  exact h.accounts n

theorem map_ids {f : SourcePin → SourcePin} (hf : ∀ p, (f p).id = p.id) (ps : List SourcePin) :
    (ps.map f).map (·.id) = ps.map (·.id) := by
  rw [List.map_map]
  exact List.map_congr_left fun p _ => hf p

theorem Starts.owned {env : Nat → ActiveEnv} {r : HRESULT × VirtualStreamSource} (h : Owned s)
    (hstarts : Starts env s r) : Owned r.2 := by
  have hids := map_ids fun p => (SourcePin.activated_frame (p := p)).1
  cases hstarts with
  | started => exact h.keeps (hids _) rfl rfl rfl
  | failed hpins =>
    refine h.keeps ?_ rfl rfl rfl
    rw [hpins, List.map_append, List.map_append, hids]

theorem Owned.graphStep (s : VirtualStreamSource) (a : GraphCall) (t : VirtualStreamSource)
    (h : Owned s) (hstep : graphStep s a = some t) : Owned t := by
  cases a with
  | pause env =>
    obtain rfl := Option.some.inj hstep
    by_cases hs : s.state = .stopped
    · exact (pause_starts env hs).owned h
    · rw [pause_active env hs]
      exact h.keeps rfl rfl rfl rfl
  | run env =>
    obtain rfl := Option.some.inj hstep
    by_cases hs : s.state = .stopped
    · exact (run_starts env hs).owned h
    · rw [run_active env hs]
      exact h.keeps rfl rfl rfl rfl
  | stop decommit =>
    obtain rfl := Option.some.inj hstep
    by_cases hs : s.state = .stopped
    · rw [stop_stopped decommit hs]
      exact h
    · rw [stop_active decommit hs]
      exact h.keeps (map_ids (fun p => (SourcePin.inactive_frame _).1) _) rfl rfl rfl
  | connect id agreed =>
    obtain rfl := Option.some.inj hstep
    refine h.keeps (map_ids (fun p => ?_) _) rfl rfl rfl
    split
    · exact (SourcePin.connect_frame _ _).1
    · rfl
  | disconnect id breakConnect =>
    obtain rfl := Option.some.inj hstep
    refine h.keeps (map_ids (fun p => ?_) _) rfl rfl rfl
    split
    · exact disconnect_id _ _ p
    · rfl
  | setStreamName env szStreamName calls msgs =>
    obtain ⟨r, hset, rfl⟩ := Option.map_eq_some_iff.mp hstep
    exact h.setStreamName hset

/-- The pin has a worker, and no Inactive will reach it. -/
def Lost (id : Nat) (s : VirtualStreamSource) : Prop :=
  ∃ p ∈ s.pinList, p.id = id ∧ p.thread = true ∧ (p.isConnected = true → s.state = .stopped)

/-- Deleting the pin waits for its worker. -/
theorem Lost.no_rename {id : Nat} (h : s.Lost id) (env : DiscoveryEnv) (szStreamName : WStr)
    (calls : List OsCall) (msgs : List Msg) : setStreamName env szStreamName calls msgs s = none := by
  obtain ⟨p, hp, -, hthread, -⟩ := h
  rw [setStreamName, Option.bind_eq_none_iff]
  intro u hu
  rw [(removeOutputPins_spec hu).1 p hp] at hthread
  cases hthread

theorem no_thread_of_deletePins {ps : List SourcePin} (h : ps.foldlM deletePin s = some t) :
    ∀ p ∈ ps, p.thread = false := by
  induction ps generalizing s with
  | nil => exact fun _ hp => by cases hp
  | cons p ps ih =>
    rw [List.foldlM_cons] at h
    obtain ⟨u, hu, h⟩ := Option.bind_eq_some_iff.mp h
    rw [deletePin, Option.ite_none_left_eq_some] at hu
    exact List.forall_mem_cons.mpr ⟨by simpa using hu.1, ih h⟩

theorem Lost.no_destroy {id : Nat} (h : s.Lost id) : destroy s = none := by
  obtain ⟨p, hp, -, hthread, -⟩ := h
  rw [destroy, Option.map_eq_none_iff, deletePins, Option.map_eq_none_iff]
  by_contra hne
  obtain ⟨u, hu⟩ := Option.ne_none_iff_exists'.mp hne
  rw [no_thread_of_deletePins hu p hp] at hthread
  cases hthread

/-- A start fails, and leaves the pin its worker. -/
theorem Starts.lost {env : Nat → ActiveEnv} {r : HRESULT × VirtualStreamSource} {p : SourcePin}
    (hs : s.state = .stopped) (hstarts : Starts env s r) (hp : p ∈ s.pinList)
    (hthread : p.thread = true) :
    r.2.Lost p.id ∧ (p.isConnected = true → VirtualCaptureStream.failed r.1 = true) := by
  have hactivated : p.activated = p := by
    unfold SourcePin.activated
    split
    · cases p
      cases hthread
      rfl
    · rfl
  cases hstarts with
  | started hstate h =>
    -- Create refuses a second thread
    have hconn : ¬ p.isConnected = true := fun hconn => h p hp hconn (Or.inr (Or.inl hthread))
    refine ⟨⟨p, ?_, rfl, hthread, fun hc => absurd hc hconn⟩, fun hc => absurd hc hconn⟩
    rw [← hactivated]
    exact List.mem_map_of_mem hp
  | failed hpins _ _ _ hr_failed =>
    refine ⟨⟨p, ?_, rfl, hthread, fun _ => hs⟩, fun _ => hr_failed⟩
    rw [hpins] at hp
    rcases List.mem_append.mp hp with hp | hp
    · refine List.mem_append_left _ ?_
      rw [← hactivated]
      exact List.mem_map_of_mem hp
    · exact List.mem_append_right _ hp

theorem Lost.step {id : Nat} (s : VirtualStreamSource) (a : GraphCall) (t : VirtualStreamSource)
    (h : s.Lost id) (hstep : VirtualStreamSource.graphStep s a = some t) : t.Lost id := by
  obtain ⟨p, hp, rfl, hthread, hconn⟩ := h
  cases a with
  | pause env =>
    obtain rfl := Option.some.inj hstep
    by_cases hs : s.state = .stopped
    · exact ((pause_starts env hs).lost hs hp hthread).1
    · rw [pause_active env hs]
      exact ⟨p, hp, rfl, hthread, fun hc => absurd (hconn hc) hs⟩
  | run env =>
    obtain rfl := Option.some.inj hstep
    by_cases hs : s.state = .stopped
    · exact ((run_starts env hs).lost hs hp hthread).1
    · rw [run_active env hs]
      exact ⟨p, hp, rfl, hthread, fun hc => absurd (hconn hc) hs⟩
  | stop decommit =>
    obtain rfl := Option.some.inj hstep
    by_cases hs : s.state = .stopped
    · rw [stop_stopped decommit hs]
      exact ⟨p, hp, rfl, hthread, hconn⟩
    · have hsame : (p.inactive (decommit p.id)).2 = p := by
        rw [SourcePin.inactive, if_pos (by simpa using fun hc => hs (hconn hc))]
      rw [stop_active decommit hs]
      refine ⟨p, ?_, rfl, hthread, fun _ => rfl⟩
      exact List.mem_map.mpr ⟨p, hp, hsame⟩
  | connect id agreed =>
    obtain rfl := Option.some.inj hstep
    refine ⟨_, mem_onPin.mpr ⟨p, hp, rfl⟩, ?_⟩
    split
    · refine ⟨(SourcePin.connect_frame _ _).1, (SourcePin.connect_frame _ _).2.2.trans hthread, ?_⟩
      unfold SourcePin.connect
      split
      · exact hconn
      split
      · exact hconn
      · rename_i hs
        exact fun _ => not_not.mp hs
    · exact ⟨rfl, hthread, hconn⟩
  | disconnect id breakConnect =>
    obtain rfl := Option.some.inj hstep
    refine ⟨_, mem_onPin.mpr ⟨p, hp, rfl⟩, ?_⟩
    split
    · refine ⟨disconnect_id _ _ p, (disconnect_thread _ _ p).trans hthread, fun hc => hconn ?_⟩
      unfold disconnect at hc
      split at hc
      · exact hc
      split at hc
      · assumption
      · exact hc
    · exact ⟨rfl, hthread, hconn⟩
  | setStreamName env szStreamName calls msgs =>
    have hnone := Lost.no_rename ⟨p, hp, rfl, hthread, hconn⟩ env szStreamName calls msgs
    rw [VirtualStreamSource.graphStep, hnone] at hstep
    cases hstep

/-- What a worker that was left behind means for every later call. -/
structure Stale (id : Nat) (s : VirtualStreamSource) : Prop where
  listed : id ∈ s.paStreams
  worker : ∃ p ∈ s.pinList, p.id = id ∧ (∀ q ∈ s.pinList, q.id = id → q = p) ∧
    p.thread = true ∧ (p.isConnected = true →
      s.state = .stopped ∧ ∀ env, failed (s.pause env).1 = true ∧ failed (s.run env).1 = true)
  no_rename : ∀ env szStreamName calls msgs, setStreamName env szStreamName calls msgs s = none
  no_destroy : destroy s = none

theorem Lost.stale {id : Nat} (hs : Owned s) (h : s.Lost id) : s.Stale id := by
  refine ⟨?_, ?_, h.no_rename, h.no_destroy⟩
  · obtain ⟨p, hp, rfl, -⟩ := h
    exact hs.same ▸ List.mem_map_of_mem hp
  · obtain ⟨p, hp, hpid, hthread, hconn⟩ := h
    have hnodup : (s.pinList.map (·.id)).Nodup := hs.same ▸ hs.accounts.nodup
    refine ⟨p, hp, hpid, fun q hq hid => ?_, hthread, fun hc => ⟨hconn hc, fun env => ⟨?_, ?_⟩⟩⟩
    · exact List.inj_on_of_nodup_map hnodup hq hp (hid.trans hpid.symm)
    · exact ((pause_starts env (hconn hc)).lost (hconn hc) hp hthread).2 hc
    · exact ((run_starts env (hconn hc)).lost (hconn hc) hp hthread).2 hc

/-- **A worker that is left in a stopped filter stays**, whatever the graph calls: Stop does
    not reach it, its pin fails every Pause and every Run while it is connected, and
    SetStreamName and the destructor wait for it for ever. -/
theorem stale_worker_stays (as : List GraphCall) :
    Transition.Always VirtualStreamSource.graphStep (fun s => s.state = .stopped →
      ∀ p ∈ s.pinList, p.thread = true →
        ∀ bs, Transition.Always VirtualStreamSource.graphStep (Stale p.id) s bs) constructed as := by
  refine Transition.always_of_invariant (I := Owned) ?_ Owned.graphStep as constructed
    Owned.constructed
  intro s hs hstopped p hp hthread bs
  refine Transition.always_of_invariant (I := fun u => Owned u ∧ u.Lost p.id)
    (fun u hu => hu.2.stale hu.1)
    (fun u a t hu hstep => ⟨Owned.graphStep u a t hu.1 hstep, Lost.step u a t hu.2 hstep⟩) bs s
    ⟨hs, p, hp, rfl, hthread, fun _ => hstopped⟩

/-- The second pin's allocator does not commit. -/
example (c d : CreatedPin) : (pause (fun n => ⟨if n = 1 then E_FAIL else S_OK, true⟩)
    ⟨.stopped, [⟨0, c, true, false⟩, ⟨1, d, true, false⟩], [0, 1], 2, []⟩).2.pinList.map
      (·.thread) = [true, false] := rfl

end

end VirtualStreamSource

/-! The calls, as the pin's threads carry them out. -/

namespace SourceStream

section
variable {s t : SourceStream}

/-- A step of a call that has begun and not returned. -/
def duringCall (s : SourceStream) (a : StreamAction) : Option SourceStream :=
  if s.client = .idle then none else s.step a

/-- Where the call is that began in `s₀`, and what has become of the thread handle. -/
def Progress (s₀ s : SourceStream) (call : StreamCall) : Prop :=
  match s.client with
  | .commit | .create => call = .active ∧ s.hThread = s₀.hThread
  | .call .init | .call .pause => call = .active ∧ s₀.hThread = false ∧ s.hThread = true
  | .decommit => call = .inactive ∧ s.hThread = s₀.hThread
  | .call .stop | .call .exit | .close => call = .inactive ∧ s₀.hThread = true ∧ s.hThread = true
  | .join => call = .inactive ∧ s₀.hThread = true ∧ s.hThread = false
  | _ => False

/-- What the filter sees of the call. -/
def pinCall (call : StreamCall) (p : SourcePin) (r : HRESULT × SourcePin) : Prop :=
  match call with
  | .active => ∃ env, p.active .stopped env = r
  | .inactive => ∃ decommit, p.inactive decommit = r

/-- The call that began in `s₀` has returned. -/
structure Returned (call : StreamCall) (s₀ s : SourceStream) : Prop where
  idle : s.client = .idle
  outcome : ∃ hr, s.returned = (call, hr) :: s₀.returned ∧
    ∀ p : SourcePin, p.isConnected = true → p.thread = s₀.hThread →
      pinCall call p (hr, { p with thread := s.hThread })

theorem pin_eq {p : SourcePin} {b : Bool} (h : p.thread = b) : { p with thread := b } = p := by
  cases p
  cases h
  rfl

/-- A call that fails leaves the worker as it was. -/
theorem returned_failed {s₀ : SourceStream} {call : StreamCall} {hr : HRESULT}
    (hreturned : s.returned = s₀.returned) (hthread : s.hThread = s₀.hThread)
    (h : ∀ p : SourcePin, p.isConnected = true → pinCall call p (hr, p)) :
    Returned call s₀ (s.returns call hr) := by
  refine ⟨rfl, hr, congrArg _ hreturned, fun p hconn hp => ?_⟩
  have hsame : { p with thread := (s.returns call hr).hThread } = p := pin_eq (hp.trans hthread.symm)
  rw [hsame]
  exact h p hconn

theorem Progress.frame {s₀ : SourceStream} {call : StreamCall} (hs : Progress s₀ s call)
    (hclient : t.client = s.client) (hthread : t.hThread = s.hThread) : Progress s₀ t call := by
  unfold Progress at hs ⊢
  rw [hclient, hthread]
  exact hs

/-- The end of Active with a worker, and of Inactive without. -/
theorem returned_active {s₀ : SourceStream} (hreturned : s.returned = s₀.returned)
    (hnone : s₀.hThread = false) (hthread : s.hThread = true) :
    Returned .active s₀ (s.returns .active S_OK) := by
  refine ⟨rfl, S_OK, congrArg _ hreturned, fun p hconn hp => ⟨⟨S_OK, true⟩, ?_⟩⟩
  have hgoes : ¬ p.Fails ⟨S_OK, true⟩ := by
    rintro (hf | ht | hf)
    · cases hf
    · rw [hp, hnone] at ht
      cases ht
    · cases hf
  rw [SourcePin.active_succeeds hconn hgoes, SourcePin.activated, if_pos hconn]
  show _ = (S_OK, { p with thread := s.hThread })
  rw [hthread]

theorem returned_inactive {s₀ : SourceStream} (hreturned : s.returned = s₀.returned)
    (hthread : s.hThread = false) : Returned .inactive s₀ (s.returns .inactive S_OK) := by
  refine ⟨rfl, S_OK, congrArg _ hreturned, fun p hconn _ => ⟨S_OK, ?_⟩⟩
  show _ = (S_OK, { p with thread := s.hThread })
  rw [SourcePin.inactive, if_neg (by simp [hconn]), if_neg (by decide), hthread]

/-- The allocator's answer to Active or to Inactive. -/
theorem Progress.allocatorStep {s₀ : SourceStream} {call : StreamCall} {hr : HRESULT}
    (hs : Progress s₀ s call) (hreturned : s.returned = s₀.returned)
    (hstep : s.allocatorStep hr = some t) :
    Progress s₀ t call ∧ t.returned = s₀.returned ∨ Returned call s₀ t := by
  unfold SourceStream.allocatorStep at hstep
  unfold Progress at hs
  split at hstep
  · rename_i hclient
    simp only [hclient] at hs
    obtain ⟨rfl, hthread⟩ := hs
    obtain rfl := Option.some.inj hstep
    split
    · refine Or.inr (returned_failed hreturned hthread fun p hconn => ⟨⟨hr, true⟩, ?_⟩)
      rw [SourcePin.active, if_neg (by decide), if_neg (by simp [hconn]), if_pos ‹_›]
    · exact Or.inl ⟨⟨rfl, hthread⟩, hreturned⟩
  · rename_i hclient
    simp only [hclient] at hs
    obtain ⟨rfl, hthread⟩ := hs
    obtain rfl := Option.some.inj hstep
    split
    · refine Or.inr (returned_failed hreturned hthread fun p hconn => ⟨hr, ?_⟩)
      rw [SourcePin.inactive, if_neg (by simp [hconn]), if_pos ‹_›]
    split
    · rename_i hsome
      exact Or.inl ⟨⟨rfl, hthread ▸ hsome, hsome⟩, hreturned⟩
    · exact Or.inr (returned_inactive hreturned (by simpa using ‹¬ s.hThread = true›))
  · cases hstep

/-- A step of the call. -/
theorem Progress.step {s₀ : SourceStream} {call : StreamCall} {a : StreamAction} (h : s.Agrees)
    (hs : Progress s₀ s call) (hreturned : s.returned = s₀.returned) (hstep : s.step a = some t) :
    Progress s₀ t call ∧ t.returned = s₀.returned ∨ Returned call s₀ t := by
  have hcases := step_cases h hstep
  have hprogress := hs
  unfold Progress at hprogress
  cases hcases with
  | work hw =>
    obtain ⟨hclient, hthread, hret, -⟩ := hw.frame
    exact Or.inl ⟨hs.frame hclient hthread, hret.trans hreturned⟩
  | @called c _ hclient hc =>
    simp only [hclient] at hprogress
    cases hc with
    | enter | store | signal | wake => exact Or.inl ⟨hs.frame rfl rfl, hreturned⟩
    | leave =>
      cases c with
      | init =>
        obtain ⟨rfl, hnone, hthread⟩ := hprogress
        exact Or.inl ⟨⟨rfl, hnone, hthread⟩, hreturned⟩
      | pause =>
        obtain ⟨rfl, hnone, hthread⟩ := hprogress
        exact Or.inr (returned_active (s := { s with exchange := _ }) hreturned hnone hthread)
      | run => exact hprogress.elim
      | stop | exit =>
        obtain ⟨rfl, hsome, hthread⟩ := hprogress
        exact Or.inl ⟨⟨rfl, hsome, hthread⟩, hreturned⟩
  | close hclient =>
    simp only [hclient] at hprogress
    exact Or.inl ⟨⟨hprogress.1, hprogress.2.1, rfl⟩, hreturned⟩
  | join hclient =>
    simp only [hclient] at hprogress
    obtain ⟨rfl, -, hthread⟩ := hprogress
    exact Or.inr (returned_inactive hreturned hthread)
  | active hclient | inactive hclient =>
    simp only [hclient] at hprogress
  | refused | committed | stopping | no_thread => exact hs.allocatorStep hreturned hstep
  | not_created hclient =>
    simp only [hclient] at hprogress
    obtain ⟨rfl, hthread⟩ := hprogress
    refine Or.inr (returned_failed hreturned hthread fun p hconn => ⟨⟨S_OK, false⟩, ?_⟩)
    rw [SourcePin.active, if_neg (by decide), if_neg (by simp [hconn]), if_neg (by decide),
      if_pos (Or.inr rfl)]
  | created hclient hthread =>
    simp only [hclient] at hprogress
    exact Or.inl ⟨⟨hprogress.1, hprogress.2 ▸ hthread, rfl⟩, hreturned⟩
  | stop | reset => exact Or.inl ⟨hs.frame rfl rfl, hreturned⟩

/-- The call's beginning. -/
def begins : StreamCall → StreamAction
  | .active => .active
  | .inactive => .inactive

theorem Progress.begins {call : StreamCall} (hstep : s.step (begins call) = some t) :
    Progress s t call ∧ t.returned = s.returned := by
  cases call with
  | active | inactive =>
    simp only [SourceStream.begins, SourceStream.step, Option.ite_none_right_eq_some] at hstep
    obtain rfl := Option.some.inj hstep.2
    exact ⟨⟨rfl, rfl⟩, rfl⟩

/-- **Active and Inactive of the filter's view are those of the threads**: whatever happens
    between their beginning and their return, they return what `active` or `inactive` does
    for some answers of the allocator and of CreateThread, and leave its worker. -/
theorem calls_refine (pin : SourceOutputPin) (dwParam : Command) (dwReturnVal : HRESULT)
    (as : List StreamAction) :
    Transition.Always SourceStream.step (fun s => ∀ call t, s.step (begins call) = some t →
      ∀ bs, Transition.Always duringCall (fun u => u.client = .idle →
        (u.hThread = true ↔ u.worker ≠ .none) ∧ Returned call s u) t bs)
      (new pin dwParam dwReturnVal) as := by
  refine always_of_agrees (fun s h call t ht bs => ?_) pin dwParam dwReturnVal as
  refine Transition.always_of_invariant
    (I := fun u => u.Agrees ∧ (Progress s u call ∧ u.returned = s.returned ∨ Returned call s u))
    (fun u hu hidle => ?_) (fun u a v hu hstep => ?_) bs t
    ⟨Agrees.step _ _ _ h ht, Or.inl (Progress.begins ht)⟩
  · obtain ⟨hagrees, hu⟩ := hu
    have hrest := (hagrees.worker.settled (Or.inl hidle)).worker
    refine ⟨?_, hu.resolve_left fun hprogress => ?_⟩
    · split at hrest
      · rename_i hthread
        refine ⟨fun _ hnone => ?_, fun _ => hthread⟩
        rw [hnone] at hrest
        cases hrest
      · rename_i hthread
        exact ⟨fun hsome => absurd hsome hthread, fun hne => absurd hrest hne⟩
    · have hno := hprogress.1
      unfold Progress at hno
      simp only [hidle] at hno
  · unfold duringCall at hstep
    rw [Option.ite_none_left_eq_some] at hstep
    obtain ⟨hbusy, hstep⟩ := hstep
    refine ⟨Agrees.step _ _ _ hu.1 hstep, ?_⟩
    rcases hu.2 with ⟨hprogress, hreturned⟩ | hreturned
    · exact hprogress.step hu.1 hreturned hstep
    · exact absurd hreturned.idle hbusy

end

end SourceStream

end VirtualCaptureStream
