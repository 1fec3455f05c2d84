import VirtualCaptureStream.SourceStream

/- Stopping the worker of a source pin, in two ways that meet: the filter's Stop clears
   `m_bRunning`, which FillBuffer tests, and Inactive sends CMD_STOP and CMD_EXIT.

   What is proved:
     1. `stop_lost_iff` — clearing the flag stops the pin until its next Pause, unless
        the worker has just left its Reply to CMD_PAUSE and will set the flag in
        OnThreadStartPlay.
     2. `inactive_bounded` — once CMD_STOP is signalled, the two threads together take
        at most 28 steps before Inactive returns, and until it returns one of them can go
        on: what Inactive waits for is the return of the call the worker is in. -/
namespace VirtualCaptureStream.SourceStream

/-! The flag. -/

/-- The worker has answered the command. -/
def answered (x : Rendezvous.Exchange Command HRESULT) : Bool :=
  match x.caller with
  | some (_, .woken _) => true
  | some (_, .signalled _) => !x.send
  | _ => false

/-- How far the loop is, where only the calling thread's side tells: before CMD_PAUSE is
    answered there is none. -/
def clientPhase (s : SourceStream) : StopFlag.Phase :=
  match s.client with
  | .call .init => .absent
  | .call .pause | .call .run => if answered s.exchange then .looping else .absent
  | _ => .looping

/-- How far DoBufferProcessingLoop is: about to set the flag, or past that and up to
    OnThreadDestroy. -/
def phase (s : SourceStream) : StopFlag.Phase :=
  match s.worker with
  | .none | .reply _ .startPlay => .absent
  | .startPlay => .created
  | _ => s.clientPhase

/-- A turn is a FillBuffer that goes on to the pipe, to connect it or to read. -/
def label (s : SourceStream) : StreamAction → StopFlag.Label
  | .stop => .clear
  | .work input =>
    match s.worker with
    | .reply _ .startPlay =>
      match s.exchange.server with
      | .cleared _ _ => .create
      | _ => .quiet
    | .startPlay => .begin
    | .destroy => .exit
    | .fill _ =>
      match (s.step (.work input)).map (·.worker) with
      | some (WorkerPc.connect _) | some (WorkerPc.readHeader _) => .turn
      | _ => .quiet
    | _ => .quiet
  | _ => .quiet

def flagWorker (s : SourceStream) : StopFlag.Worker := ⟨s.pin.bRunning, s.phase⟩

section
variable {s t : SourceStream}

/-- In its loop, or on the way to a command other than CMD_PAUSE, the worker does not
    decide the phase. -/
def plain : WorkerPc → Bool
  | .none | .reply _ .startPlay | .startPlay => false
  | _ => true

theorem phase_of_plain (h : plain s.worker = true) : s.phase = s.clientPhase := by
  unfold phase
  split
  · rename_i hw
    rw [hw] at h
    cases h
  · rename_i hw
    rw [hw] at h
    cases h
  · rename_i hw
    rw [hw] at h
    cases h
  · rfl

theorem plain_of_inFill {w : WorkerPc} (h : inFill w = true) : plain w = true := by
  cases w <;> first
    | rfl
    | cases h

theorem Plays.plain {w w' : WorkerPc} {es es' : List StreamEvent} (h : Plays w es w' es') :
    SourceStream.plain w = true ∧ SourceStream.plain w' = true := by
  cases h with
  | fill hfill hfill' =>
    refine ⟨plain_of_inFill hfill, ?_⟩
    rcases hfill' with hfill' | ⟨m, hr, rfl⟩
    · exact plain_of_inFill hfill'
    · rfl
  | release => rename_i next; cases next <;> exact ⟨rfl, rfl⟩
  | endOfStream hnext => rcases hnext with rfl | rfl <;> exact ⟨rfl, rfl⟩
  | _ => exact ⟨rfl, rfl⟩

/-- The calling thread and the exchange decide alone. -/
theorem clientPhase_congr (hclient : t.client = s.client)
    (hanswered : answered t.exchange = answered s.exchange) : t.clientPhase = s.clientPhase := by
  unfold clientPhase
  rw [hclient, hanswered]

theorem clientPhase_of_ne (h : ∀ c, s.client = .call c → c = .stop ∨ c = .exit) :
    s.clientPhase = .looping := by
  unfold clientPhase
  split
  · rename_i hc
    rcases h _ hc with e | e <;> cases e
  · rename_i hc
    rcases h _ hc with e | e <;> cases e
  · rename_i hc
    rcases h _ hc with e | e <;> cases e
  · rfl

/-- A worker that roams has its loop behind it or is in it. -/
theorem Agrees.looping (h : s.Agrees) (hw : live s.worker = true) (hne : s.worker ≠ .command) :
    s.clientPhase = .looping := by
  by_cases hcall : ∃ c, s.client = .call c ∧ c ≠ .stop ∧ c ≠ .exit
  · obtain ⟨c, hclient, hstop, hexit⟩ := hcall
    obtain ⟨-, hserves⟩ := h.serves hclient
    unfold clientPhase
    cases hserves with
    | unseen _ _ hb =>
      cases c with
      | init => rw [show s.worker = _ from hb] at hw; cases hw
      | pause | run => exact absurd hb hne
      | stop => exact absurd rfl hstop
      | exit => exact absurd rfl hexit
    | passed _ _ hpassed => exact absurd hpassed hstop
    | replying _ _ hp => rw [hp] at hw; cases hw
    | done hc _ _ ha =>
      have hanswered : answered s.exchange = true := by
        unfold answered
        rcases hc with ⟨hc, hsend⟩ | hc
        · simp [hc, hsend]
        · simp [hc]
      cases c with
      | init => exact absurd ha hne
      | pause | run => simp [hclient, hanswered]
      | stop => exact absurd rfl hstop
      | exit => exact absurd rfl hexit
  · refine clientPhase_of_ne fun c hc => ?_
    by_contra hno
    exact hcall ⟨c, hc, fun e => hno (Or.inl e), fun e => hno (Or.inr e)⟩

/-- The worker sees a command: none but CMD_PAUSE and CMD_RUN lead into the loop. -/
theorem Agrees.take_phase {next : Command → WorkerPc} {x : Rendezvous.Exchange Command HRESULT}
    (h : s.Agrees) (hlooks : Looks s.worker next)
    (hx : Rendezvous.step s.exchange .take = some x) :
    ({ s with exchange := x, worker := next s.exchange.param }).phase = s.phase := by
  obtain ⟨i, q, hcaller, hparam, -, hsend, -, -, rfl⟩ := h.sound.take_cases hx
  obtain ⟨c, hclient, -, hserves⟩ := h.worker.calling hcaller
  have hs : s.phase = s.clientPhase := phase_of_plain (by
    generalize s.worker = w at hlooks
    cases hlooks <;> rfl)
  rw [hs, hparam]
  by_cases hplain : plain (next q) = true
  · exact (phase_of_plain hplain).trans (clientPhase_congr rfl rfl)
  · -- the reply before OnThreadStartPlay, and nobody has been answered yet
    have hq : (q = .pause ∨ q = .run) ∧ ∃ hr, next q = .reply hr .startPlay := by
      generalize s.worker = w at hlooks
      cases hlooks <;> cases q <;> first
        | exact absurd rfl hplain
        | exact ⟨Or.inl rfl, _, rfl⟩
        | exact ⟨Or.inr rfl, _, rfl⟩
    obtain ⟨hq, hr, hnext⟩ := hq
    have hqc : q = c := by
      cases hserves with
      | unseen hc =>
        rcases hc with hc | ⟨j, hc | hc | ⟨hc, -⟩⟩ <;> rw [hcaller] at hc <;> cases hc
        rfl
      | passed hc | replying hc => rw [hcaller] at hc; cases hc; rfl
      | done hc => rcases hc with ⟨hc, -⟩ | hc <;> rw [hcaller] at hc <;> cases hc; rfl
    subst hqc
    have hunanswered : answered s.exchange = false := by simp [answered, hcaller, hsend]
    have habsent : s.clientPhase = .absent := by
      unfold clientPhase
      rcases hq with rfl | rfl <;> simp [hclient, hunanswered]
    rw [habsent]
    unfold phase
    rw [hnext]

/-- A step of a Reply, up to the last. -/
theorem Agrees.reply_phase {hr : HRESULT} {next : AfterReply}
    {x : Rendezvous.Exchange Command HRESULT} {w : WorkerPc} {i : Nat} {q : Command}
    (h : s.Agrees) (hw : s.worker = .reply hr next)
    (hcaller : s.exchange.caller = some (i, .signalled q)) (hne : next ≠ .startPlay)
    (hplain : plain w = true) : ({ s with exchange := x, worker := w }).phase = s.phase := by
  obtain ⟨hclient, -, -, rfl, -⟩ := h.replying hw hcaller
  have hs : s.phase = s.clientPhase := phase_of_plain (by
    rw [hw]
    cases q <;> first | rfl | exact absurd rfl hne)
  rw [hs]
  refine (phase_of_plain hplain).trans ?_
  unfold clientPhase
  cases q with
  | pause | run => exact absurd rfl hne
  | init | stop | exit => simp [hclient]

/-- A step after which the Reply goes on. -/
theorem Agrees.reply_goes_on {hr : HRESULT} {next : AfterReply}
    {x : Rendezvous.Exchange Command HRESULT} {i : Nat} {q : Command} (h : s.Agrees)
    (hw : s.worker = .reply hr next) (hcaller : s.exchange.caller = some (i, .signalled q)) :
    ({ s with exchange := x }).phase = s.phase := by
  by_cases hne : next = .startPlay
  · simp only [phase, hw, hne]
  · have hplain : plain s.worker = true := by
      rw [hw]
      cases next <;> first | rfl | exact absurd rfl hne
    exact h.reply_phase hw hcaller hne hplain

/-- A step that leaves the flag and the loop as they are. -/
theorem apply_quiet (hrun : t.pin.bRunning = s.pin.bRunning) (hphase : t.phase = s.phase) :
    s.flagWorker.apply .quiet = some t.flagWorker := by
  unfold flagWorker
  rw [hrun, hphase]
  rfl

/-- FillBuffer returns at once, or goes on to the pipe, as the flag says. -/
theorem fill_worker {m : MediaSample} {input : WorkerInput} (hw : s.worker = .fill m)
    (hs : s.step (.work input) = some t) :
    s.pin.bRunning = false ∧ t.worker = .filled m S_FALSE ∨
      s.pin.bRunning = true ∧ (t.worker = .connect m ∨ t.worker = .readHeader m) := by
  cases input with
  | go =>
    simp only [step, work, hw, fillStep] at hs
    split at hs
    · rename_i hoff
      obtain rfl := Option.some.inj hs
      exact Or.inl ⟨hoff, rfl⟩
    · rename_i hon
      obtain rfl := Option.some.inj hs
      refine Or.inr ⟨by simpa using hon, ?_⟩
      dsimp only
      split
      · exact Or.inr rfl
      · exact Or.inl rfl
  | _ => simp [step, work, hw, fillStep] at hs

theorem Worked.flag (h : s.Agrees) {input : WorkerInput} (hs : s.step (.work input) = some t)
    (hstep : Worked s t) : s.flagWorker.apply (s.label (.work input)) = some t.flagWorker := by
  cases hstep with
  | take hlooks hx =>
    have hlabel : s.label (.work input) = .quiet := by
      unfold label
      generalize s.worker = w at hlooks
      cases hlooks <;> rfl
    rw [hlabel]
    exact apply_quiet rfl (h.take_phase hlooks hx)
  | @answer hr next x hw hx =>
    obtain ⟨i, q, hcaller, hserver, -⟩ := h.sound.answer_cases hx
    have hlabel : s.label (.work input) = .quiet := by
      simp only [label, hw, hserver]
      cases next <;> rfl
    rw [hlabel]
    exact apply_quiet rfl (h.reply_goes_on hw hcaller)
  | @clear hr next x hw hx =>
    obtain ⟨i, q, r, hcaller, hserver, -⟩ := h.sound.clear_cases hx
    have hlabel : s.label (.work input) = .quiet := by
      simp only [label, hw, hserver]
      cases next <;> rfl
    rw [hlabel]
    exact apply_quiet rfl (h.reply_goes_on hw hcaller)
  | @finish hr next x hw hx =>
    obtain ⟨i, q, r, hcaller, hserver, -⟩ := h.sound.finish_cases hx
    by_cases hne : next = .startPlay
    · subst hne
      simp only [label, hw, hserver, flagWorker, phase, AfterReply.pc, StopFlag.Worker.apply, if_true]
    · have hlabel : s.label (.work input) = .quiet := by
        simp only [label, hw, hserver]
        cases next <;> first | rfl | exact absurd rfl hne
      rw [hlabel]
      refine apply_quiet rfl (h.reply_phase hw hcaller hne ?_)
      cases next <;> first | rfl | exact absurd rfl hne
  | destroy hw =>
    have hlooping : s.phase = .looping := by
      rw [phase_of_plain (by rw [hw]; rfl)]
      have hagrees := h.worker
      unfold WorkerAgrees at hagrees
      rw [hw] at hagrees
      refine clientPhase_of_ne fun c hc => ?_
      simp only [hc] at hagrees
      cases hagrees.2 with
      | unseen _ _ hb => cases c <;> cases hb
      | passed _ _ _ hp => cases hp
      | replying _ _ hp => cases hp
      | done _ _ _ ha => cases c <;> first | exact Or.inr rfl | cases ha
    simp only [label, hw, flagWorker, hlooping, StopFlag.Worker.apply, if_true]
    rfl
  | start hw =>
    have hlooping : s.clientPhase = .looping :=
      h.looping (by rw [hw]; rfl) (by rw [hw]; exact fun e => by cases e)
    have hafter : ({ s with worker := WorkerPc.poll, pin := s.pin.onThreadStartPlay, events := StreamEvent.start :: s.events } : SourceStream).phase =
        .looping := hlooping
    simp only [label, hw, flagWorker, phase, StopFlag.Worker.apply, if_true]
    exact congrArg some (congrArg (StopFlag.Worker.mk true) hafter.symm)
  | @play p w es hw hrun hsend =>
    obtain ⟨hlive, hlive'⟩ := hw.live
    obtain ⟨hplain, hplain'⟩ := hw.plain
    have hlooping := h.looping hlive hw.ne_command
    have hphase : s.phase = .looping := (phase_of_plain hplain).trans hlooping
    have ht : ({ s with pin := p, worker := w, events := es } : SourceStream).phase = .looping :=
      (phase_of_plain hplain').trans hlooping
    have hquiet := apply_quiet (s := s) (t := { s with pin := p, worker := w, events := es })
      hrun (ht.trans hphase.symm)
    simp only [label]
    split
    · rename_i hworker
      rw [hworker] at hplain
      cases hplain
    · rename_i hworker
      rw [hworker] at hplain
      cases hplain
    · rename_i hworker
      rw [hworker] at hlive
      cases hlive
    · rename_i m hworker
      have hturn : s.pin.bRunning = true → s.flagWorker.apply .turn = some s.flagWorker :=
        fun hon => if_pos ⟨hphase, hon⟩
      rw [hs, Option.map_some]
      rcases fill_worker hworker hs with ⟨-, hfilled⟩ | ⟨hon, hconnect | hread⟩
      · rw [hfilled]
        exact hquiet
      · rw [hconnect]
        exact (hturn hon).trans hquiet
      · rw [hread]
        exact (hturn hon).trans hquiet
    · exact hquiet

theorem Called.flag {c : Command} (h : s.Agrees) (hclient : s.client = .call c)
    (hcalled : Called s c t) : s.flagWorker.apply .quiet = some t.flagWorker := by
  obtain ⟨-, hserves⟩ := h.serves hclient
  have same : ∀ {u : SourceStream}, u.worker = s.worker → u.pin = s.pin →
      u.clientPhase = s.clientPhase → s.flagWorker.apply .quiet = some u.flagWorker := by
    intro u hw hp hc
    refine apply_quiet (by rw [hp]) ?_
    unfold phase
    rw [hw, hc]
  cases hcalled with
  | enter hc => exact same rfl rfl (clientPhase_congr rfl (by simp [answered, hc]))
  | store hc => exact same rfl rfl (clientPhase_congr rfl (by simp [answered, hc]))
  | signal hc => exact same rfl rfl (clientPhase_congr rfl (by simp [answered, hc]))
  | wake hc _ hsend => exact same rfl rfl (clientPhase_congr rfl (by simp [answered, hc, hsend]))
  | leave hc =>
    cases c with
    | init | pause | run | stop | exit =>
      refine same rfl rfl ?_
      simp [clientPhase, hclient, afterCall, returns, answered, hc]

/-- What an action does about the flag and the loop. -/
theorem Stepped.flag {a : StreamAction} (h : s.Agrees) (hs : s.step a = some t)
    (hstep : Stepped s a t) : s.flagWorker.apply (s.label a) = some t.flagWorker := by
  have around : ∀ {u : SourceStream}, u.worker = s.worker → u.pin = s.pin →
      (∀ c, s.client = .call c → c = .stop ∨ c = .exit) →
      (∀ c, u.client = .call c → c = .stop ∨ c = .exit) →
      s.flagWorker.apply .quiet = some u.flagWorker := by
    intro u hw hp hs hu
    refine apply_quiet (by rw [hp]) ?_
    unfold phase
    rw [hw, clientPhase_of_ne hs, clientPhase_of_ne hu]
  cases hstep with
  | work hw => exact hw.flag h hs
  | called hclient hcalled => exact hcalled.flag h hclient
  | close hclient | join hclient | active hclient | inactive hclient | committed hclient
  | no_thread hclient | not_created hclient =>
    exact around rfl rfl (by simp [hclient]) (by simp [returns])
  | stopping hclient => exact around rfl rfl (by simp [hclient]) (by simp)
  | refused hclient =>
    exact around rfl rfl (by rcases hclient with hc | hc <;> simp [hc]) (by simp [returns])
  | created hclient hthread =>
    have hnone := (h.worker.settled (Or.inr (Or.inr (Or.inl hclient)))).worker
    rw [if_neg (by simp [hthread])] at hnone
    exact apply_quiet rfl (by simp [phase, clientPhase, hnone])
  | stop => rfl
  | reset => exact apply_quiet rfl rfl

theorem clientPhase_ne_created : s.clientPhase ≠ .created := by
  unfold clientPhase
  split
  · exact fun e => by cases e
  · split <;> exact fun e => by cases e
  · split <;> exact fun e => by cases e
  · exact fun e => by cases e

theorem created_iff : s.phase = .created ↔ s.worker = .startPlay := by
  unfold phase
  split
  · rename_i hw
    simp [hw]
  · rename_i hw
    simp [hw]
  · rename_i hw
    simp [hw]
  · rename_i hstart
    exact ⟨fun h => absurd h clientPhase_ne_created, fun h => absurd h hstart⟩

/-- The worker of a source pin, as a thread that is stopped by a flag. -/
def flagView : StopFlag.View step where
  worker := flagWorker
  label := label
  Inv := Agrees
  inv_step := Agrees.step
  refines := fun _ _ _ h hstep => (step_cases h hstep).flag h hstep
  begins := fun s _ hcreated => by
    have hw : s.worker = .startPlay := created_iff.mp hcreated
    exact ⟨.work .go, { s with
      worker := .poll, pin := s.pin.onThreadStartPlay, events := .start :: s.events },
      by simp only [step, work, hw], by simp only [label, hw]⟩

/-- **Clearing the flag stops the pin** up to its next Pause: the flag stays off and no
    FillBuffer passes its test. It is lost exactly when the worker has replied to CMD_PAUSE
    and has not yet set the flag in OnThreadStartPlay. -/
theorem stop_lost_iff (pin : SourceOutputPin) (dwParam : Command) (dwReturnVal : HRESULT)
    (as : List StreamAction) :
    Transition.Always step (fun s => ∀ t, s.step .stop = some t →
      (¬ flagView.StaysStopped t ↔ s.worker = .startPlay)) (new pin dwParam dwReturnVal) as := by
  refine always_of_agrees (fun s h t ht => ?_) pin dwParam dwReturnVal as
  rw [flagView.staysStopped_iff h ht rfl, not_not]
  exact created_iff


/-! The end of Inactive. -/

/-- Inactive has signalled CMD_STOP and has not returned. -/
def Ending (s : SourceStream) : Prop :=
  match s.client with
  | .call .stop =>
    match s.exchange.caller with
    | some (_, .signalled _) | some (_, .woken _) => True
    | _ => False
  | .call .exit | .close | .join => True
  | _ => False

/-- A step of one of the two threads. -/
def ofThreads : StreamAction → Bool
  | .client | .work _ => true
  | _ => false

/-- The steps of the worker that are left in its present Reply. -/
def replyRank (x : Rendezvous.Exchange Command HRESULT) : Nat :=
  match x.server with
  | .serving _ => 3
  | .answered _ _ => 2
  | .cleared _ _ => 1
  | .idle => 0

/-- The steps of the worker that are left, up to its Reply to CMD_STOP. -/
def stopWork (x : Rendezvous.Exchange Command HRESULT) : WorkerPc → Nat
  | .reply _ _ => replyRank x
  | w => if answered x then 0 else distance w + 4

/-- The steps of the worker that are left after that, up to its end. -/
def exitWork (x : Rendezvous.Exchange Command HRESULT) : WorkerPc → Nat
  | .reply _ _ => 1 + replyRank x
  | .none => 0
  | .destroy => 1
  | _ => 5

def workerRank (s : SourceStream) : Nat :=
  if s.client = .call .stop then stopWork s.exchange s.worker else exitWork s.exchange s.worker

/-- The steps of the calling thread that are left; behind CMD_STOP there are the worker's
    for CMD_EXIT. -/
def clientRank (s : SourceStream) : Nat :=
  match s.client with
  | .call .stop =>
    match s.exchange.caller with
    | some (_, .woken _) => 13
    | _ => 14
  | .call _ =>
    match s.exchange.caller with
    | none => 7
    | some (_, .entered _) => 6
    | some (_, .stored _) => 5
    | some (_, .signalled _) => 4
    | some (_, .woken _) => 3
  | .close => 2
  | _ => 1

def endRank (s : SourceStream) : Nat := s.workerRank + s.clientRank

theorem distance_le (w : WorkerPc) : distance w ≤ 10 := by
  cases w <;> simp [distance]

theorem endRank_le (s : SourceStream) : s.endRank ≤ 28 := by
  have hd := distance_le s.worker
  have hreply : replyRank s.exchange ≤ 3 := by
    unfold replyRank
    split <;> omega
  have hw : s.workerRank ≤ 14 := by
    unfold workerRank
    split
    · unfold stopWork
      split
      · omega
      · split <;> omega
    · unfold exitWork
      split <;> omega
  have hc : s.clientRank ≤ 14 := by
    unfold clientRank
    split <;> first
      | omega
      | (split <;> omega)
  unfold endRank
  omega

/-- Where the four states of Inactive's end leave the worker. -/
inductive EndCase (s : SourceStream) : Prop
  | stop {j} (hclient : s.client = .call .stop)
      (hc : s.exchange.caller = some (j, .signalled .stop) ∨ s.exchange.caller = some (j, .woken .stop))
      (hserves : Serves .stop s.exchange s.worker)
  | exit (hclient : s.client = .call .exit) (hserves : Serves .exit s.exchange s.worker)
  | rest (hclient : s.client = .close ∨ s.client = .join)
      (hrests : Rests s.exchange (after .exit) s.worker)

theorem Serves.caller {c : Command} {x : Rendezvous.Exchange Command HRESULT} {w : WorkerPc}
    {i : Nat} {pc : Rendezvous.CallerPc Command} (h : Serves c x w) (hc : x.caller = some (i, pc)) :
    pc.request = c := by
  cases h with
  | unseen hc' =>
    rcases hc' with hc' | ⟨j, hc' | hc' | ⟨hc', -⟩⟩ <;> rw [hc] at hc' <;> cases hc' <;> rfl
  | passed hc' | replying hc' => rw [hc] at hc'; cases hc'; rfl
  | done hc' => rcases hc' with ⟨hc', -⟩ | hc' <;> rw [hc] at hc' <;> cases hc' <;> rfl

theorem Ending.cases (hs : s.Ending) (h : s.Agrees) : EndCase s := by
  have hagrees := h.worker
  unfold WorkerAgrees at hagrees
  unfold Ending at hs
  split at hs
  · rename_i hclient
    simp only [hclient] at hagrees
    split at hs
    · rename_i j q hc
      obtain rfl : q = .stop := hagrees.2.caller hc
      exact .stop hclient (Or.inl hc) hagrees.2
    · rename_i j q hc
      obtain rfl : q = .stop := hagrees.2.caller hc
      exact .stop hclient (Or.inr hc) hagrees.2
    · exact hs.elim
  · rename_i hclient
    simp only [hclient] at hagrees
    exact .exit hclient hagrees.2
  · rename_i hclient
    simp only [hclient] at hagrees
    exact .rest (Or.inl hclient) hagrees.2
  · rename_i hclient
    simp only [hclient] at hagrees
    exact .rest (Or.inr hclient) hagrees.2
  · exact hs.elim

/-- CMD_STOP is signalled, and the worker has not seen it. -/
theorem unseen_pending {j : Nat} {x : Rendezvous.Exchange Command HRESULT}
    (h : x.caller = none ∨ ∃ i, x.caller = some (i, .entered .stop) ∨
      x.caller = some (i, .stored .stop) ∨ x.caller = some (i, .signalled .stop) ∧ x.send = true)
    (hcall : x.caller = some (j, .signalled .stop) ∨ x.caller = some (j, .woken .stop)) :
    x.send = true ∧ answered x = false := by
  rcases h with hc | ⟨i, hc | hc | ⟨hc, hsend⟩⟩
  · rcases hcall with hc' | hc' <;> rw [hc] at hc' <;> cases hc'
  · rcases hcall with hc' | hc' <;> rw [hc] at hc' <;> cases hc'
  · rcases hcall with hc' | hc' <;> rw [hc] at hc' <;> cases hc'
  · exact ⟨hsend, by simp [answered, hc, hsend]⟩

theorem stopWork_live {x : Rendezvous.Exchange Command HRESULT} {w : WorkerPc}
    (hw : live w = true) (hx : answered x = false) : stopWork x w = distance w + 4 := by
  unfold stopWork
  split
  · cases hw
  · rw [if_neg (by simp [hx])]

/-- On CMD_STOP, each step of the worker brings its Reply nearer. -/
theorem Worked.stopWork_lt {j : Nat} (h : s.Agrees) (hserves : Serves .stop s.exchange s.worker)
    (hcall : s.exchange.caller = some (j, .signalled .stop) ∨
      s.exchange.caller = some (j, .woken .stop)) (hstep : Worked s t) : stopWork t.exchange t.worker < stopWork s.exchange s.worker := by
  cases hstep with
  | take hlooks hx =>
    obtain ⟨i, q, hcaller, hparam, hserver, hsend, -, -, rfl⟩ := h.sound.take_cases hx
    obtain rfl : q = .stop := hserves.caller hcaller
    have hans : answered s.exchange = false := by simp [answered, hcaller, hsend]
    rw [hparam]
    generalize s.worker = w at hlooks hserves
    cases hlooks with
    | init =>
      cases hserves with
      | unseen _ _ hb => cases hb
      | passed _ _ _ hp => cases hp
      | replying _ _ hp => cases hp
      | done _ _ _ ha => cases ha
    | thread => simp [stopWork, threadRequest, replyRank, hans]
    | loop => simp [stopWork, loopRequest, answered, hcaller, hsend, distance]
  | answer hw hx =>
    obtain ⟨i, q, hcaller, hserver, -, -, rfl⟩ := h.sound.answer_cases hx
    simp [hw, stopWork, replyRank, hserver]
  | clear hw hx =>
    obtain ⟨i, q, r, hcaller, hserver, -, -, -, rfl⟩ := h.sound.clear_cases hx
    simp [hw, stopWork, replyRank, hserver]
  | finish hw hx =>
    obtain ⟨i, q, r, hcaller, hserver, hsend, -, -, rfl⟩ := h.sound.finish_cases hx
    rw [hw] at hserves
    obtain ⟨j, -, -, rfl, -⟩ := hserves.of_reply
    simp [hw, stopWork, replyRank, hserver, target, AfterReply.pc, answered, hcaller, hsend]
  | destroy hw =>
    rw [hw] at hserves
    cases hserves with
    | unseen _ _ hb => cases hb
    | passed _ _ _ hp => cases hp
    | replying _ _ hp => cases hp
    | done _ _ _ ha => cases ha
  | start hw =>
    have hans : answered s.exchange = false := by
      cases hserves with
      | unseen hc => exact (unseen_pending hc hcall).2
      | passed _ _ _ hp => rw [hw] at hp; cases hp
      | replying _ _ hp => rw [hw] at hp; cases hp
      | done _ _ _ ha => rw [hw] at ha; cases ha
    simp [hw, stopWork, hans, distance]
  | @play p w es hplays hrun hsend =>
    obtain ⟨hlive, hlive'⟩ := hplays.live
    cases hserves with
    | unseen hc =>
      obtain ⟨hpending, hans⟩ := unseen_pending hc hcall
      rw [stopWork_live hlive hans, stopWork_live hlive' hans]
      have hlt := hplays.distance_lt fun hp => by
        rw [hsend hp] at hpending
        cases hpending
      omega
    | passed _ _ _ hp => exact absurd hp hplays.ne_command
    | replying _ _ hp => rw [hp] at hlive; cases hlive
    | done _ _ _ ha => exact absurd ha hplays.ne_command

/-- From CMD_EXIT on, each step of the worker brings its end nearer. -/
theorem Worked.exitWork_lt (h : s.Agrees) (hserves : Serves .exit s.exchange s.worker)
    (hstep : Worked s t) : exitWork t.exchange t.worker < exitWork s.exchange s.worker := by
  have hplace : s.worker = .command ∨ s.worker = .reply S_OK .destroy ∨ s.worker = .destroy ∨
      s.worker = .none := by
    cases hserves with
    | unseen _ _ hb => exact Or.inl hb
    | passed _ _ hstop => cases hstop
    | replying _ _ hp => exact Or.inr (Or.inl hp)
    | done _ _ _ ha => exact Or.inr (Or.inr ha)
  cases hstep with
  | take hlooks hx =>
    obtain ⟨i, q, hcaller, hparam, -, -, -, -, rfl⟩ := h.sound.take_cases hx
    obtain rfl : q = .exit := hserves.caller hcaller
    rw [hparam]
    generalize s.worker = w at hlooks hplace
    cases hlooks with
    | init => simp at hplace
    | thread => simp [exitWork, threadRequest, replyRank]
    | loop => simp at hplace
  | answer hw hx =>
    obtain ⟨i, q, hcaller, hserver, -, -, rfl⟩ := h.sound.answer_cases hx
    simp [hw, exitWork, replyRank, hserver]
  | clear hw hx =>
    obtain ⟨i, q, r, hcaller, hserver, -, -, -, rfl⟩ := h.sound.clear_cases hx
    simp [hw, exitWork, replyRank, hserver]
  | finish hw hx =>
    obtain ⟨i, q, r, hcaller, hserver, -, -, -, rfl⟩ := h.sound.finish_cases hx
    rw [hw] at hserves
    obtain ⟨j, -, -, rfl, -⟩ := hserves.of_reply
    simp [hw, exitWork, replyRank, hserver, target, AfterReply.pc]
  | destroy hw => simp [hw, exitWork]
  | start hw => simp [hw] at hplace
  | play hplays =>
    obtain ⟨hlive, -⟩ := hplays.live
    rcases hplace with hp | hp | hp | hp
    · exact absurd hp hplays.ne_command
    all_goals
      rw [hp] at hlive
      cases hlive

/-- A worker that has replied to CMD_EXIT has one step to go. -/
theorem Worked.ends (hrests : Rests s.exchange (after .exit) s.worker) (hstep : Worked s t) :
    s.worker = .destroy ∧ t.worker = .none := by
  have hplace : s.worker = .destroy ∨ s.worker = .none := hrests.worker
  cases hstep with
  | take hlooks =>
    generalize s.worker = w at hlooks hplace
    cases hlooks <;> simp at hplace
  | answer hw | clear hw | finish hw | start hw => simp [hw] at hplace
  | destroy hw => exact ⟨hw, rfl⟩
  | play hplays =>
    obtain ⟨hlive, -⟩ := hplays.live
    rcases hplace with hp | hp <;> rw [hp] at hlive <;> cases hlive

theorem clientRank_frame (hclient : t.client = s.client)
    (hcaller : t.exchange.caller = s.exchange.caller) : t.clientRank = s.clientRank := by
  unfold clientRank
  rw [hclient, hcaller]

theorem Called.endRank_lt {c : Command} (hclient : s.client = .call c) (hs : EndCase s)
    (ht : t.Ending) (hcalled : Called s c t) : t.endRank < s.endRank := by
  cases hs with
  | stop hclient' hc _ =>
    obtain rfl : c = .stop := by rw [hclient] at hclient'; cases hclient'; rfl
    cases hcalled with
    | enter hc' | store hc' | signal hc' => rcases hc with hc | hc <;> rw [hc] at hc' <;> cases hc'
    | wake hc' _ hsend _ ha =>
      have hw : s.worker = .command := ha
      simp [endRank, workerRank, clientRank, hclient, stopWork, hw, answered, hc', hsend]
    | leave hc' _ ha =>
      have hw : s.worker = .command := ha
      simp [endRank, workerRank, clientRank, hclient, stopWork, exitWork, hw, answered, hc',
        afterCall]
  | exit hclient' _ =>
    obtain rfl : c = .exit := by rw [hclient] at hclient'; cases hclient'; rfl
    have same : ∀ {x : Rendezvous.Exchange Command HRESULT}, x.server = s.exchange.server →
        exitWork x s.worker = exitWork s.exchange s.worker := by
      intro x hx
      unfold exitWork replyRank
      rw [hx]
    cases hcalled with
    | enter hc | store hc | signal hc | wake hc =>
      simp [endRank, workerRank, clientRank, hclient, hc, same]
    | leave hc =>
      simp [endRank, workerRank, clientRank, hclient, hc, same, afterCall]
  | rest hclient' => rcases hclient' with hc | hc <;> rw [hclient] at hc <;> cases hc

/-- Each step of the two threads lowers the rank, and nobody else raises it. -/
theorem Stepped.endRank_le {a : StreamAction} (h : s.Agrees) (hs : s.Ending) (ht : t.Ending)
    (hstep : Stepped s a t) : t.endRank + (if ofThreads a then 1 else 0) ≤ s.endRank := by
  have hcase := hs.cases h
  cases hstep with
  | work hw =>
    obtain ⟨hclient, -, -, hcaller, -⟩ := hw.frame
    have hwork : t.workerRank < s.workerRank := by
      unfold workerRank
      rw [hclient]
      cases hcase with
      | stop hc hcall hserves =>
        rw [if_pos hc, if_pos hc]
        exact hw.stopWork_lt h hserves hcall
      | exit hc hserves =>
        rw [if_neg (by simp [hc]), if_neg (by simp [hc])]
        exact hw.exitWork_lt h hserves
      | rest hc hrests =>
        have hne : s.client ≠ .call .stop := by rcases hc with hc | hc <;> simp [hc]
        obtain ⟨hfrom, hto⟩ := hw.ends hrests
        rw [if_neg hne, if_neg hne, hfrom, hto]
        exact Nat.zero_lt_one
    have hclientRank := clientRank_frame hclient hcaller
    show t.workerRank + t.clientRank + 1 ≤ s.workerRank + s.clientRank
    omega
  | called hclient hcalled => exact hcalled.endRank_lt hclient hcase ht
  | close hclient =>
    simp [endRank, workerRank, clientRank, hclient, ofThreads]
  | join => exact ht.elim
  | active hclient | inactive hclient | committed hclient | stopping hclient | no_thread hclient
  | not_created hclient | created hclient =>
    unfold Ending at hs
    simp only [hclient] at hs
  | refused hclient =>
    unfold Ending at hs
    rcases hclient with hclient | hclient <;> simp only [hclient] at hs
  | stop | reset => exact Nat.le_refl _

/-- A worker that is not waiting for a command can go on, when the call it is in returns. -/
theorem work_enabled (hw : live s.worker = true)
    (htake : ∃ x, Rendezvous.step s.exchange .take = some x) : ∃ i t, s.work i = some t := by
  obtain ⟨x, hx⟩ := htake
  cases hworker : s.worker with
  | none | awaitInit | reply | destroy => rw [hworker] at hw; cases hw
  | command => exact ⟨.go, _, by simp only [work, hworker, getRequest, hx]; rfl⟩
  | poll =>
    by_cases hsend : s.exchange.send = true
    · exact ⟨.go, _, by simp only [work, hworker, getRequest, hx, if_pos hsend]; rfl⟩
    · exact ⟨.go, _, by simp only [work, hworker, if_neg hsend]; rfl⟩
  | startPlay | release next | endOfStream hr | notify hr =>
    exact ⟨.go, _, by simp only [work, hworker]; rfl⟩
  | getBuffer => exact ⟨.buffer none, _, by simp only [work, hworker]; rfl⟩
  | fill m =>
    by_cases hrun : s.pin.bRunning = false
    · exact ⟨.go, _, by simp only [work, hworker, fillStep, if_pos hrun]; rfl⟩
    · exact ⟨.go, _, by simp only [work, hworker, fillStep, if_neg hrun]; rfl⟩
  | connect m =>
    exact ⟨.connected ⟨[.error], false⟩, _, by simp only [work, hworker, fillStep]; rfl⟩
  | readHeader m =>
    exact ⟨.header ReadResult.broken .allOk, _, by simp only [work, hworker, fillStep]; rfl⟩
  | readPayload m n hr =>
    exact ⟨.payload ReadResult.broken, _, by simp only [work, hworker, fillStep]; rfl⟩
  | filled m hr =>
    by_cases hok : hr = S_OK
    · exact ⟨.go, _, by simp only [work, hworker, if_pos hok]; rfl⟩
    · exact ⟨.go, _, by simp only [work, hworker, if_neg hok]; rfl⟩
  | deliver m => exact ⟨.received S_OK, _, by simp only [work, hworker]; rfl⟩

/-- A Reply goes on by itself. -/
theorem reply_enabled {hr : HRESULT} {next : AfterReply} (hw : s.worker = .reply hr next)
    (hserver : s.exchange.server ≠ .idle) : ∃ i t, s.work i = some t := by
  cases hs : s.exchange.server with
  | idle => exact absurd hs hserver
  | serving q => exact ⟨.go, _, by simp only [work, hw, replyStep, hs, Rendezvous.step]; rfl⟩
  | answered q r => exact ⟨.go, _, by simp only [work, hw, replyStep, hs, Rendezvous.step]; rfl⟩
  | cleared q r => exact ⟨.go, _, by simp only [work, hw, replyStep, hs, Rendezvous.step]; rfl⟩

theorem take_enabled {q : Command} (hsend : s.exchange.send = true)
    (hserver : s.exchange.server = .idle ∨ s.exchange.server = .serving q) :
    ∃ x, Rendezvous.step s.exchange .take = some x := by
  rcases hserver with hs | hs <;> exact ⟨_, by simp only [Rendezvous.step, hsend, hs]; rfl⟩

/-- CallWorker goes on, or the worker does. -/
theorem Agrees.call_enabled {c : Command} (h : s.Agrees) (hclient : s.client = .call c)
    (hlive : ∀ w, before c w → live w = true) :
    ∃ a t, ofThreads a = true ∧ s.step a = some t := by
  obtain ⟨hthread, hserves⟩ := h.serves hclient
  have byClient : ∀ {t}, s.callWorker c = some t → ∃ a t, ofThreads a = true ∧ s.step a = some t :=
    fun ht => ⟨.client, _, rfl, by simp only [SourceStream.step, clientStep, hclient]; exact ht⟩
  have byWorker : (∃ i t, s.work i = some t) → ∃ a t, ofThreads a = true ∧ s.step a = some t := by
    rintro ⟨i, t, ht⟩
    exact ⟨.work i, t, rfl, ht⟩
  cases hserves with
  | unseen hc hserver hb =>
    rcases hc with hc | ⟨i, hc | hc | ⟨hc, hsend⟩⟩
    · exact byClient (by simp only [callWorker, hc, hthread, Rendezvous.step]; rfl)
    · exact byClient (by simp only [callWorker, hc, Rendezvous.step]; rfl)
    · exact byClient (by simp only [callWorker, hc, Rendezvous.step]; rfl)
    · exact byWorker (work_enabled (hlive _ hb) (take_enabled (q := c) hsend (Or.inl hserver)))
  | @passed i hc hserver _ hw =>
    have hsend : s.exchange.send = true := by
      rcases h.sound.waiting hc with ⟨hsend, -⟩ | ⟨r, hs | hs⟩ | ⟨-, hs⟩
      · exact hsend
      all_goals
        rw [hserver] at hs
        cases hs
    exact byWorker (work_enabled (by rw [hw]; rfl) (take_enabled hsend (Or.inr hserver)))
  | replying _ hserver hw =>
    refine byWorker (reply_enabled hw fun he => ?_)
    rcases hserver with hs | hs | hs <;> rw [he] at hs <;> cases hs
  | done hc hserver =>
    rcases hc with ⟨hc, hsend⟩ | hc
    · have hcomplete : s.exchange.complete = true := by
        rcases h.sound.waiting hc with ⟨hsend', -⟩ | ⟨r, hs | hs⟩ | ⟨hcomplete, -⟩
        · rw [hsend] at hsend'
          cases hsend'
        · rw [hserver] at hs
          cases hs
        · rw [hserver] at hs
          cases hs
        · exact hcomplete
      exact byClient (by simp only [callWorker, hc, Rendezvous.step, hcomplete]; rfl)
    · exact byClient (by simp only [callWorker, hc, Rendezvous.step]; rfl)

/-- Once CMD_STOP is signalled. `ended`: Inactive ends by returning NOERROR, with the worker
    gone. -/
structure Bounded (s : SourceStream) : Prop where
  goes_on : ∃ a t, ofThreads a = true ∧ s.step a = some t
  bounded : ∀ as t, Transition.run step s as = some t → Transition.Always step Ending s as →
    as.countP ofThreads ≤ 28
  ended : ∀ a t, s.step a = some t → ¬ t.Ending →
    t.client = .idle ∧ t.worker = .none ∧ t.returned = (.inactive, S_OK) :: s.returned

theorem Ending.goes_on (hs : s.Ending) (h : s.Agrees) :
    ∃ a t, ofThreads a = true ∧ s.step a = some t := by
  cases hs.cases h with
  | stop hclient => exact h.call_enabled hclient fun _ hb => hb
  | exit hclient => exact h.call_enabled hclient fun w hb => by rw [show w = .command from hb]; rfl
  | rest hclient hrests =>
    rcases hclient with hclient | hclient
    · exact ⟨.client, _, rfl, by simp only [step, clientStep, hclient]; rfl⟩
    · rcases (hrests.worker : s.worker = .destroy ∨ s.worker = .none) with hw | hw
      · exact ⟨.work .go, _, rfl, by simp only [step, work, hw]; rfl⟩
      · exact ⟨.client, _, rfl, by simp only [step, clientStep, hclient, hw]; rfl⟩

theorem Ending.ended {a : StreamAction} (hs : s.Ending) (h : s.Agrees) (hstep : s.step a = some t)
    (ht : ¬ t.Ending) :
    t.client = .idle ∧ t.worker = .none ∧ t.returned = (.inactive, S_OK) :: s.returned := by
  cases step_cases h hstep with
  | work hw =>
    obtain ⟨hclient, -, -, hcaller, -⟩ := hw.frame
    unfold Ending at hs ht
    rw [hclient, hcaller] at ht
    exact absurd hs ht
  | @called c _ hclient hcalled =>
    cases hs.cases h with
    | stop hclient' hc =>
      obtain rfl : c = .stop := by rw [hclient] at hclient'; cases hclient'; rfl
      cases hcalled with
      | enter hc' | store hc' | signal hc' => rcases hc with hc | hc <;> rw [hc] at hc' <;> cases hc'
      | wake => exact absurd (by simp [Ending, hclient]) ht
      | leave => exact absurd trivial ht
    | exit hclient' =>
      obtain rfl : c = .exit := by rw [hclient] at hclient'; cases hclient'; rfl
      cases hcalled with
      | enter | store | signal | wake => exact absurd (by simp [Ending, hclient]) ht
      | leave => exact absurd trivial ht
    | rest hclient' => rcases hclient' with hc | hc <;> rw [hclient] at hc <;> cases hc
  | close => exact absurd trivial ht
  | join _ hw => exact ⟨rfl, hw, rfl⟩
  | active hclient | inactive hclient | committed hclient | stopping hclient | no_thread hclient
  | not_created hclient | created hclient =>
    unfold Ending at hs
    simp only [hclient] at hs
  | refused hclient =>
    unfold Ending at hs
    rcases hclient with hclient | hclient <;> simp only [hclient] at hs
  | stop | reset => exact absurd hs ht

/-- **Inactive returns**: from the signal of CMD_STOP on, the two threads take 28 steps at
    most before it does, in whatever order; and until then one of them can step, if only
    by the return of a call the worker is in. -/
theorem inactive_bounded (pin : SourceOutputPin) (dwParam : Command) (dwReturnVal : HRESULT)
    (as : List StreamAction) :
    Transition.Always step (fun s => s.Ending → s.Bounded) (new pin dwParam dwReturnVal) as := by
  refine always_of_agrees (fun s h hs => ⟨hs.goes_on h, fun bs t hrun hends => ?_,
    fun a t hstep ht => hs.ended h hstep ht⟩) pin dwParam dwReturnVal as
  have hrank := Transition.countP_le_of_rank endRank ofThreads
    (fun s a t hs hstep ht => (step_cases hs.2 hstep).endRank_le hs.2 hs.1 ht.1)
    bs s t (hends.and_invariant Agrees.step h) hrun
  have hle := SourceStream.endRank_le s
  omega

end

end VirtualCaptureStream.SourceStream
