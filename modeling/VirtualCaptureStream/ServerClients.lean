import VirtualCaptureStream.SinkServer

/- The discovery server against its clients. A client that opens the pipe and closes
   it again leaves the instance in a state in which ConnectNamedPipe fails until
   somebody disconnects it. PipeOutMediaTypes does so for the clients the thread has
   accepted; for one that is gone before the thread's first ConnectNamedPipe nobody
   does, since the loop goes to sleep after a failed call (the pin's loop calls
   DisconnectNamedPipe there). `available_iff` says that nothing else can make the
   server unavailable. -/
namespace VirtualCaptureStream

namespace SinkServer

open Transition

/-- One step of the thread and of nobody else. -/
def threadAlone (s : SinkServer) (_ : Unit) : Option SinkServer := s.step .thread

/-- The end of an iteration of a running server: the thread is before its Sleep or in
    it. -/
def EndOfIteration (s : SinkServer) : Prop :=
  s.bServerRunning = true ∧ (s.thread = some .rest ∨ s.thread = some .sleeping)

/-- The client has been served or disconnected: no client is attached, and no client
    that has closed the pipe is left to be disconnected. -/
structure Released (s : SinkServer) : Prop where
  not_closing : s.pipe ≠ some .closing
  not_attached : ∀ c, s.pipe ≠ some (.connected c)

/-- An iteration that ends here, or that the thread ends by itself from here, ends
    with its client released. -/
def Available (s : SinkServer) : Prop :=
  ∀ t, Reach threadAlone s t → EndOfIteration t → Released t

/-- The thread has yet to come to its next ConnectNamedPipe. -/
def BeforeConnect (s : SinkServer) : Prop :=
  s.thread = some .start ∨
    ((s.thread = some .test ∨ s.thread = some .connect) ∧ s.bServerRunning = true)

/-- The step closes the end of the pipe that a client, or StopServer itself, holds. -/
def Closes (s : SinkServer) : ServerAction → Prop
  | .clientClose => True
  | .call _ => ∃ c creates, s.call = some ⟨.closeClient c, creates⟩ ∧
      s.pipe = some (.connected c)
  | _ => False

/-- The end of a client is closed only once the thread has called ConnectNamedPipe. -/
def AfterConnect (s : SinkServer) (a : ServerAction) : Prop := Closes s a → ¬ BeforeConnect s

/-- Nobody is attached, and nobody can attach before the next ConnectNamedPipe. -/
def Gone (pipe : Option PipeState) : Prop := pipe = none ∨ pipe = some .disconnected

/-- What the thread can count on where it is. -/
def Counted (s : SinkServer) : ServerPc → Prop
  | .start => s.pipe ≠ some .closing
  | .test | .connect => s.bServerRunning = true → s.pipe ≠ some .closing
  | .check => s.bServerRunning = true → s.bConnected = false → Gone s.pipe
  | .rest | .sleeping => s.bServerRunning = true → Gone s.pipe
  | .waiting | .walk _ | .record _ _ | .finish => True

/-- A ConnectNamedPipe that fails in a running server fails for want of a pipe. -/
structure Orderly (s : SinkServer) : Prop where
  sound : Sound s
  counted : ∀ pc, s.thread = some pc → Counted s pc

theorem Gone.ne_closing {pipe : Option PipeState} (h : Gone pipe) : pipe ≠ some .closing := by
  rcases h with h | h <;> rw [h] <;> exact fun e => (by cases e)

theorem Gone.ne_connected {pipe : Option PipeState} (h : Gone pipe) (c : Nat) :
    pipe ≠ some (.connected c) := by
  rcases h with h | h <;> rw [h] <;> exact fun e => (by cases e)

theorem gone_disconnect (pipe : Option PipeState) : Gone (pipe.map fun _ => .disconnected) := by
  cases pipe with
  | none => exact Or.inl rfl
  | some p => exact Or.inr rfl

/-! Steps that keep order. -/

theorem threadStep_counted {s t : SinkServer} {pc : ServerPc} (hs : Counted s pc)
    (h : s.threadStep pc = some t) : ∀ pc', t.thread = some pc' → Counted t pc' := by
  cases pc with
  | start =>
    obtain rfl := Option.some.inj h
    rintro _ ⟨⟩ _
    exact hs
  | test =>
    simp only [threadStep] at h
    split at h <;> obtain rfl := Option.some.inj h
    · rintro _ ⟨⟩
      exact hs
    · rintro _ ⟨⟩
  | connect =>
    simp only [threadStep] at h
    split at h <;> obtain rfl := Option.some.inj h
    · rintro _ ⟨⟩
      trivial
    · rintro _ ⟨⟩
      trivial
    · rintro _ ⟨⟩ _ hfalse
      cases hfalse
    · -- the call fails: in a running server there is no pipe at all
      rename_i hpipe
      rintro _ ⟨⟩ hon _
      exact absurd hpipe (hs hon)
    · rename_i hpipe
      rintro _ ⟨⟩ _ _
      exact Or.inl hpipe
  | waiting =>
    simp only [threadStep] at h
    split at h
    · cases h
    · obtain rfl := Option.some.inj h
      rintro _ ⟨⟩ _ hfalse
      cases hfalse
    · obtain rfl := Option.some.inj h
      rintro _ ⟨⟩ _ hfalse
      cases hfalse
    · rename_i hpipe
      obtain rfl := Option.some.inj h
      rintro _ ⟨⟩ _ _
      exact Or.inr hpipe
    · rename_i hpipe
      obtain rfl := Option.some.inj h
      rintro _ ⟨⟩ _ _
      exact Or.inl hpipe
  | check =>
    simp only [threadStep] at h
    split at h
    · obtain rfl := Option.some.inj h
      rintro _ ⟨⟩
      trivial
    · rename_i hno
      obtain rfl := Option.some.inj h
      rintro _ ⟨⟩ hon
      refine hs hon ?_
      cases hconn : s.bConnected with
      | false => rfl
      | true => exact absurd ((Bool.and_eq_true _ _).mpr ⟨hconn, hon⟩) hno
  | walk i =>
    simp only [threadStep] at h
    split at h <;> obtain rfl := Option.some.inj h <;>
    · rintro _ ⟨⟩
      trivial
  | record i pin =>
    obtain rfl := Option.some.inj h
    rintro _ ⟨⟩
    trivial
  | finish =>
    obtain rfl := Option.some.inj h
    rintro _ ⟨⟩ _
    exact gone_disconnect s.pipe
  | rest =>
    simp only [threadStep] at h
    split at h
    · obtain rfl := Option.some.inj h
      rintro _ ⟨⟩
      exact hs
    · rename_i hoff
      obtain rfl := Option.some.inj h
      rintro _ ⟨⟩ hon
      exact absurd hon hoff
  | sleeping =>
    obtain rfl := Option.some.inj h
    rintro _ ⟨⟩ hon
    exact (hs hon).ne_closing

/-- A client attaches: then the pipe was listening, and nobody counted on its being
    gone. -/
theorem Counted.attach {s : SinkServer} {pc : ServerPc} (hs : Counted s pc)
    (hpipe : s.pipe = some .listening) {t : SinkServer}
    (hflag : t.bServerRunning = s.bServerRunning) (hconn : t.bConnected = s.bConnected)
    (ht : t.pipe = some (.connected s.clients)) : Counted t pc := by
  have hnot : ¬ Gone s.pipe := by
    rw [hpipe]
    rintro (e | e) <;> cases e
  cases pc with
  | start =>
    rw [Counted, ht]
    exact fun e => (by cases e)
  | test | connect =>
    rw [Counted, ht]
    exact fun _ e => (by cases e)
  | check =>
    intro hon hoff
    exact absurd (hs (hflag ▸ hon) (hconn ▸ hoff)) hnot
  | rest | sleeping =>
    intro hon
    exact absurd (hs (hflag ▸ hon)) hnot
  | waiting | walk | record | finish => trivial

/-- An attached client leaves after the thread's ConnectNamedPipe. -/
theorem Counted.close {s : SinkServer} {pc : ServerPc} {c : Nat} (hs : Counted s pc)
    (hpc : s.thread = some pc) (hpipe : s.pipe = some (.connected c)) (hlate : ¬ BeforeConnect s)
    {t : SinkServer} (hflag : t.bServerRunning = s.bServerRunning)
    (hconn : t.bConnected = s.bConnected) : Counted t pc := by
  have hnot : ¬ Gone s.pipe := by
    rw [hpipe]
    rintro (e | e) <;> cases e
  cases pc with
  | start => exact absurd (Or.inl hpc) hlate
  | test => exact fun hon => absurd (Or.inr ⟨Or.inl hpc, hflag ▸ hon⟩) hlate
  | connect => exact fun hon => absurd (Or.inr ⟨Or.inr hpc, hflag ▸ hon⟩) hlate
  | check =>
    intro hon hoff
    exact absurd (hs (hflag ▸ hon) (hconn ▸ hoff)) hnot
  | rest | sleeping =>
    intro hon
    exact absurd (hs (hflag ▸ hon)) hnot
  | waiting | walk | record | finish => trivial

/-- StopServer clears the flag: only a thread that has not started counts on the pipe. -/
theorem Counted.stop {s : SinkServer} {pc : ServerPc} (hs : Counted s pc) {t : SinkServer}
    (hflag : t.bServerRunning = false) (hpipe : t.pipe = s.pipe) : Counted t pc := by
  have hoff : ¬ t.bServerRunning = true := Bool.eq_false_iff.mp hflag
  cases pc with
  | start =>
    rw [Counted, hpipe]
    exact hs
  | test | connect | check | rest | sleeping => exact fun hon => absurd hon hoff
  | waiting | walk | record | finish => trivial

theorem createPipe_counted {s : SinkServer} (hnone : s.thread = none) (created thread : Bool) :
    ∀ pc, (s.createPipe created thread).thread = some pc →
      Counted (s.createPipe created thread) pc := by
  intro pc hpc
  cases thread with
  | false =>
    rw [show (s.createPipe created false).thread = s.thread from rfl, hnone] at hpc
    cases hpc
  | true =>
    obtain rfl := Option.some.inj hpc
    cases created <;> exact fun e => (by cases e)

theorem callStep_counted {s t : SinkServer} {timeout : Bool} {c : ServerCall} (hs : Orderly s)
    (hc : s.call = some c) (hC : AfterConnect s (.call timeout))
    (h : s.callStep timeout c.creates c.pc = some t) :
    ∀ pc, t.thread = some pc → Counted t pc := by
  have hwaited := hs.sound.waited c hc
  obtain ⟨pc, creates⟩ := c
  cases pc with
  | openPipe =>
    simp only [callStep] at h
    split at h
    · rename_i hpipe
      obtain rfl := Option.some.inj h
      exact fun pc hpc => (hs.counted pc hpc).attach hpipe rfl rfl rfl
    · obtain rfl := Option.some.inj h
      exact fun pc hpc => hs.counted pc hpc
  | closeClient n =>
    obtain rfl := Option.some.inj h
    by_cases hpipe : s.pipe = some (.connected n)
    · exact fun pc hpc => (hs.counted pc hpc).close hpc hpipe
        (hC ⟨n, creates, hc, hpipe⟩) rfl rfl
    · simp only [if_neg hpipe]
      exact fun pc hpc => hs.counted pc hpc
  | waitListener =>
    simp only [callStep] at h
    split at h
    · obtain rfl := Option.some.inj h
      exact fun pc hpc => hs.counted pc hpc
    · rw [Option.ite_none_right_eq_some] at h
      obtain rfl := Option.some.inj h.2
      rintro _ ⟨⟩
  | disconnect =>
    obtain rfl := Option.some.inj h
    intro pc hpc
    rw [show s.thread = some pc from hpc] at hwaited
    cases hwaited (Or.inl rfl)
  | closeHandle =>
    obtain rfl := Option.some.inj h
    intro pc hpc
    rw [show s.thread = some pc from hpc] at hwaited
    cases hwaited (Or.inr (Or.inl rfl))
  | clear =>
    have hnone : s.thread = none := hwaited (Or.inr (Or.inr rfl))
    cases creates with
    | none =>
      obtain rfl := Option.some.inj h
      intro pc hpc
      rw [show s.thread = some pc from hpc] at hnone
      cases hnone
    | some p =>
      obtain rfl := Option.some.inj h
      exact createPipe_counted hnone p.1 p.2

theorem Orderly.step (s : SinkServer) (a : ServerAction) (t : SinkServer) (hs : Orderly s)
    (h : s.step a = some t) (hC : AfterConnect s a) : Orderly t := by
  refine ⟨hs.sound.step s a t h, ?_⟩
  cases a with
  | initializePipe created thread =>
    simp only [SinkServer.step, Option.ite_none_left_eq_some] at h
    obtain ⟨_, h⟩ := h
    split at h
    · rename_i hpipe
      obtain rfl := Option.some.inj h
      exact createPipe_counted (hs.sound.no_pipe hpipe).1 created thread
    · obtain rfl := Option.some.inj h
      exact fun pc hpc => (hs.counted pc hpc).stop rfl rfl
  | stopServer =>
    simp only [SinkServer.step, Option.ite_none_left_eq_some] at h
    obtain ⟨_, h⟩ := h
    split at h <;> obtain rfl := Option.some.inj h
    · exact hs.counted
    · exact fun pc hpc => (hs.counted pc hpc).stop rfl rfl
  | call timeout =>
    obtain ⟨c, hc, h⟩ := Option.bind_eq_some_iff.mp h
    exact callStep_counted hs hc hC h
  | thread =>
    obtain ⟨pc, hpc, h⟩ := Option.bind_eq_some_iff.mp h
    exact threadStep_counted (hs.counted pc hpc) h
  | clientOpen =>
    simp only [SinkServer.step, Option.ite_none_right_eq_some] at h
    obtain ⟨hpipe, h⟩ := h
    obtain rfl := Option.some.inj h
    exact fun pc hpc => (hs.counted pc hpc).attach hpipe rfl rfl rfl
  | clientClose =>
    obtain ⟨c, hclient, rfl⟩ := Option.map_eq_some_iff.mp h
    obtain ⟨n, hpipe⟩ : ∃ n, s.pipe = some (.connected n) := by
      unfold client at hclient
      split at hclient
      · exact ⟨_, ‹_›⟩
      · cases hclient
    exact fun pc hpc => (hs.counted pc hpc).close hpc hpipe (hC trivial) rfl rfl
  | pins pinList =>
    obtain rfl := Option.some.inj h
    exact hs.counted

theorem Orderly.available {s : SinkServer} (hs : Orderly s) : Available s := by
  intro t hreach hend
  have ht : Orderly t := hreach.invariant
    (fun s _ t hs h => hs.step s .thread t h (fun hclose => hclose.elim)) hs
  have hgone : Gone t.pipe := by
    rcases hend.2 with hpc | hpc
    · exact ht.counted _ hpc hend.1
    · exact ht.counted _ hpc hend.1
  exact ⟨hgone.ne_closing, hgone.ne_connected⟩

/-! A client that leaves too early. -/

/-- The thread finds the pipe closed by its client, and leaves it so. -/
theorem reach_unreleased {s : SinkServer} (hbefore : BeforeConnect s)
    (hpipe : s.pipe = some .closing) :
    ∃ t, Reach threadAlone s t ∧ EndOfIteration t ∧ t.pipe = some .closing := by
  have hconnect : ∀ u : SinkServer, u.thread = some .connect → u.bServerRunning = true →
      u.pipe = some .closing →
      ∃ t, Reach threadAlone u t ∧ EndOfIteration t ∧ t.pipe = some .closing := by
    intro u hpc hon hclosing
    have hfail : threadAlone u () = some { u with bConnected := false, thread := some .check } := by
      simp only [threadAlone, step, hpc, Option.bind_some, threadStep, hclosing]
    have hrest : threadAlone { u with bConnected := false, thread := some .check } () =
        some { u with bConnected := false, thread := some .rest } := rfl
    exact ⟨_, (Reach.single hfail).trans (Reach.single hrest), ⟨hon, Or.inl rfl⟩, hclosing⟩
  have htest : ∀ u : SinkServer, u.thread = some .test → u.bServerRunning = true →
      u.pipe = some .closing →
      ∃ t, Reach threadAlone u t ∧ EndOfIteration t ∧ t.pipe = some .closing := by
    intro u hpc hon hclosing
    have hturn : threadAlone u () = some { u with thread := some .connect } := by
      simp only [threadAlone, step, hpc, Option.bind_some, threadStep, hon, if_true]
    obtain ⟨t, ht, hend⟩ := hconnect { u with thread := some .connect } rfl hon hclosing
    exact ⟨t, (Reach.single hturn).trans ht, hend⟩
  rcases hbefore with hpc | ⟨hpc | hpc, hon⟩
  · have hbegin : threadAlone s () = some { s with
        bServerRunning := true, bConnected := false, thread := some .test } := by
      simp only [threadAlone, step, hpc, Option.bind_some, threadStep]
    obtain ⟨t, ht, hend⟩ := htest
      { s with bServerRunning := true, bConnected := false, thread := some .test } rfl rfl hpipe
    exact ⟨t, (Reach.single hbegin).trans ht, hend⟩
  · exact htest s hpc hon hpipe
  · exact hconnect s hpc hon hpipe

/-- Closing an end before the thread's ConnectNamedPipe makes the server unavailable. -/
theorem Available.afterConnect {s t : SinkServer} {a : ServerAction} (h : s.step a = some t)
    (ht : Available t) : AfterConnect s a := by
  intro hclose hbefore
  have hclosed : t.pipe = some .closing ∧ t.thread = s.thread ∧
      t.bServerRunning = s.bServerRunning := by
    cases a with
    | clientClose =>
      obtain ⟨c, _, rfl⟩ := Option.map_eq_some_iff.mp h
      exact ⟨rfl, rfl, rfl⟩
    | call timeout =>
      obtain ⟨c, creates, hc, hpipe⟩ := hclose
      simp only [SinkServer.step, hc, Option.bind_some, callStep, if_pos hpipe] at h
      obtain rfl := Option.some.inj h
      exact ⟨rfl, rfl, rfl⟩
    | initializePipe | stopServer | thread | clientOpen | pins => exact hclose.elim
  obtain ⟨hpipe, hthread, hflag⟩ := hclosed
  have hbefore' : BeforeConnect t := by
    unfold BeforeConnect
    rw [hthread, hflag]
    exact hbefore
  obtain ⟨u, hu, hend, hclosing⟩ := reach_unreleased hbefore' hpipe
  exact (ht u hu hend).not_closing hclosing

/-- **The discovery server stays available** in a run exactly if no client's end, and
    not the one StopServer opens, is closed before the server thread has come to its
    ConnectNamedPipe. -/
theorem available_iff (pinList : List Nat) (as : List ServerAction) (u : SinkServer)
    (hrun : run step (new pinList) as = some u) :
    Always step Available (new pinList) as ↔ Meets step AfterConnect (new pinList) as := by
  have hnew : Orderly (new pinList) := ⟨sound_new pinList, fun pc h => (by cases h)⟩
  exact always_iff_meets_of_invariant (fun _ h => h.available) Orderly.step
    (fun s a t _ h ht => ht.afterConnect h) as _ u hnew hrun

/-- A client that is gone before the thread gets to run. -/
def earlyClient : List ServerAction :=
  [.initializePipe true true, .clientOpen, .clientClose, .thread, .thread, .thread, .thread,
    .thread]

/-- The thread sleeps over a pipe that its client has closed, and finds it so in its
    next iteration. -/
theorem early_client_is_not_released :
    ∃ u v, run step (new []) earlyClient = some u ∧ u.bServerRunning = true ∧
      u.thread = some .sleeping ∧ u.pipe = some .closing ∧ u.step .clientOpen = none ∧
      run step u [.thread, .thread, .thread, .thread, .thread] = some v ∧ v.thread = u.thread ∧
      v.pipe = some .closing ∧ ¬ Always step Available (new []) earlyClient := by
  refine ⟨_, _, rfl, rfl, rfl, rfl, rfl, rfl, rfl, rfl, fun h => ?_⟩
  have hend := always_iff_prefix.mp h earlyClient (List.prefix_refl _) _ rfl
  exact (hend _ (Reach.refl _) ⟨rfl, Or.inr rfl⟩).not_closing rfl

/-- A client that comes and goes while the thread waits for one. -/
theorem available_iff_accepted :
    ∃ u, run step (new [])
        [.initializePipe true true, .thread, .thread, .thread, .clientOpen, .clientClose] = some u ∧
      Always step Available (new [])
        [.initializePipe true true, .thread, .thread, .thread, .clientOpen, .clientClose] := by
  refine ⟨_, rfl, (available_iff [] _ _ rfl).mpr ?_⟩
  refine ⟨fun h => h.elim, fun s₁ h₁ => ⟨fun h => h.elim, fun s₂ h₂ => ⟨fun h => h.elim,
    fun s₃ h₃ => ⟨fun h => h.elim, fun s₄ h₄ => ⟨fun h => h.elim, fun s₅ h₅ =>
      ⟨fun _ hbefore => ?_, fun _ _ => trivial⟩⟩⟩⟩⟩⟩
  obtain rfl := Option.some.inj h₁
  obtain rfl := Option.some.inj h₂
  obtain rfl := Option.some.inj h₃
  obtain rfl := Option.some.inj h₄
  obtain rfl := Option.some.inj h₅
  rcases hbefore with e | ⟨e | e, _⟩ <;> cases e

end SinkServer

end VirtualCaptureStream
