import VirtualCaptureStream.SinkWriterLife

/- What a sink pin is for: samples go from a queue through the writer's hand to the
   client that is attached at the time. `Core` is that and no more, one `Label` for
   each thing that can happen to a sample or a client; locks, flags and the other
   threads are gone. `step_refines` shows that every step of the pin's system is one
   of these or leaves the core alone. -/
namespace VirtualCaptureStream

/-- How far the writer is with the sample in its hand. -/
inductive Stage where
  | idle
  | held (x : Queued)
  | built (x : Queued) (p : Packet)
  | sent (x : Queued) (p : Packet) (sentTo : Option Nat)

/-- The stage of a writer thread; without a thread nothing is in hand. -/
def WriterPc.stage : Option WriterPc → Stage
  | some (.taken x) => .held x
  | some (.latching x) => .held x
  | some (.latched x) => .held x
  | some (.header x p) => .built x p
  | some (.payload x p sentTo) => .sent x p sentTo
  | _ => .idle

/-- The message after a header is its payload when there is one. -/
def sentHasPayload (m : Nat × Packet) : Bool := m.2.hasPayload

structure Core where
  queue : List Queued
  received : Nat
  stage : Stage
  logs : List (List Sent)
  client : Option Nat
  cut : List Nat

inductive Label where
  | quiet
  | attach
  | detach
  | push (sample : MediaSampleX)
  | pop
  | build (rtRefPoint rtRefPoint2 : Int64)
  | skip
  | head
  | body
  | drop

namespace Core

def write (k : Core) (m : Sent) : Core := { k with logs := deliver k.client m k.logs }

def apply (k : Core) : Label → Option Core
  | .quiet => some k
  | .attach => some { k with client := some k.logs.length, logs := k.logs ++ [[]] }
  | .detach => some { k with client := none }
  | .push sample =>
    some { k with queue := k.queue ++ [⟨k.received, sample⟩], received := k.received + 1 }
  | .pop => match k.stage, k.queue with
    | .idle, x :: xs => some { k with queue := xs, stage := .held x }
    | _, _ => none
  | .build r r2 => match k.stage with
    | .held x => some { k with stage := .built x (x.sample.packet r r2) }
    | _ => none
  | .skip => match k.stage with
    | .held _ => some { k with stage := .idle }
    | _ => none
  | .head => match k.stage with
    | .built x p => some { k.write (.head (x.id, p)) with
        stage := if p.hasPayload then .sent x p k.client else .idle }
    | _ => none
  | .body => match k.stage with
    | .sent x p _ => some { k.write (.body (x.id, p)) with stage := .idle }
    | _ => none
  | .drop => match k.stage with
    | .sent _ _ (some c) => some { k with stage := .idle, cut := c :: k.cut }
    | _ => some { k with stage := .idle }

theorem write_length (k : Core) (m : Sent) : (k.write m).logs.length = k.logs.length := by
  unfold write deliver
  dsimp only
  split
  · exact List.length_modify _ _ _
  · rfl

/-! What a label asks for and does. -/

section
variable {k k' : Core}

theorem apply_pop (h : k.apply .pop = some k') :
    ∃ x xs, k.stage = .idle ∧ k.queue = x :: xs ∧
      k' = { k with queue := xs, stage := .held x } := by
  unfold apply at h
  dsimp only at h
  split at h
  · rename_i x xs hstage hqueue
    exact ⟨x, xs, hstage, hqueue, (Option.some.inj h).symm⟩
  · cases h

theorem apply_build {r r2 : Int64} (h : k.apply (.build r r2) = some k') :
    ∃ x, k.stage = .held x ∧ k' = { k with stage := .built x (x.sample.packet r r2) } := by
  unfold apply at h
  dsimp only at h
  split at h
  · rename_i x hstage
    exact ⟨x, hstage, (Option.some.inj h).symm⟩
  · cases h

theorem apply_skip (h : k.apply .skip = some k') :
    ∃ x, k.stage = .held x ∧ k' = { k with stage := .idle } := by
  unfold apply at h
  dsimp only at h
  split at h
  · rename_i x hstage
    exact ⟨x, hstage, (Option.some.inj h).symm⟩
  · cases h

theorem apply_head (h : k.apply .head = some k') :
    ∃ x p, k.stage = .built x p ∧ k' = { k.write (.head (x.id, p)) with
      stage := if p.hasPayload then .sent x p k.client else .idle } := by
  unfold apply at h
  dsimp only at h
  split at h
  · rename_i x p hstage
    exact ⟨x, p, hstage, (Option.some.inj h).symm⟩
  · cases h

theorem apply_body (h : k.apply .body = some k') :
    ∃ x p sentTo, k.stage = .sent x p sentTo ∧
      k' = { k.write (.body (x.id, p)) with stage := .idle } := by
  unfold apply at h
  dsimp only at h
  split at h
  · rename_i x p sentTo hstage
    exact ⟨x, p, sentTo, hstage, (Option.some.inj h).symm⟩
  · cases h

/-- What is dropped between its two messages leaves its client cut off. -/
theorem apply_drop (h : k.apply .drop = some k') :
    (∃ x p c, k.stage = .sent x p (some c) ∧
      k' = { k with stage := .idle, cut := c :: k.cut }) ∨ k' = { k with stage := .idle } := by
  unfold apply at h
  dsimp only at h
  split at h
  · rename_i x p c hstage
    exact Or.inl ⟨x, p, c, hstage, (Option.some.inj h).symm⟩
  · exact Or.inr (Option.some.inj h).symm

/-- What a label does to the messages and the client: nothing, or a client comes or
    goes, or the writer sends the attached client what it has in hand. -/
theorem apply_messages {l : Label} (h : k.apply l = some k') :
    (k'.logs = k.logs ∧ (k'.client = k.client ∨ k'.client = none)) ∨
    (k'.logs = k.logs ++ [[]] ∧ k'.client = some k.logs.length) ∨
    (∃ m, k'.logs = (k.write m).logs ∧ k'.client = k.client ∧
      ∀ u, m = .head u → l = .head ∧ ∃ x p, k.stage = .built x p ∧ u = (x.id, p)) := by
  cases l with
  | quiet | push =>
    obtain rfl := Option.some.inj h
    exact Or.inl ⟨rfl, Or.inl rfl⟩
  | attach =>
    obtain rfl := Option.some.inj h
    exact Or.inr (Or.inl ⟨rfl, rfl⟩)
  | detach =>
    obtain rfl := Option.some.inj h
    exact Or.inl ⟨rfl, Or.inr rfl⟩
  | pop =>
    obtain ⟨x, xs, -, -, rfl⟩ := apply_pop h
    exact Or.inl ⟨rfl, Or.inl rfl⟩
  | build r r2 =>
    obtain ⟨x, -, rfl⟩ := apply_build h
    exact Or.inl ⟨rfl, Or.inl rfl⟩
  | skip =>
    obtain ⟨x, -, rfl⟩ := apply_skip h
    exact Or.inl ⟨rfl, Or.inl rfl⟩
  | head =>
    obtain ⟨x, p, hstage, rfl⟩ := apply_head h
    refine Or.inr (Or.inr ⟨.head (x.id, p), rfl, rfl, ?_⟩)
    intro u hu
    exact ⟨rfl, x, p, hstage, (Framing.Part.head.inj hu).symm⟩
  | body =>
    obtain ⟨x, p, sentTo, -, rfl⟩ := apply_body h
    exact Or.inr (Or.inr ⟨.body (x.id, p), rfl, rfl, fun u hu => (by cases hu)⟩)
  | drop =>
    rcases apply_drop h with ⟨x, p, c, -, rfl⟩ | rfl
    · exact Or.inl ⟨rfl, Or.inl rfl⟩
    · exact Or.inl ⟨rfl, Or.inl rfl⟩

end

/-- Clients are only added. -/
theorem apply_length {k k' : Core} {l : Label} (h : k.apply l = some k') :
    k.logs.length ≤ k'.logs.length := by
  rcases apply_messages h with ⟨hlogs, -⟩ | ⟨hlogs, -⟩ | ⟨m, hlogs, -, -⟩
  · rw [hlogs]
  · rw [hlogs, List.length_append]
    omega
  · rw [hlogs, write_length]

theorem write_attached {k : Core} {c : Nat} {log : List Sent} (hc : k.client = some c)
    (hlog : k.logs[c]? = some log) (m : Sent) : (k.write m).logs[c]? = some (log ++ [m]) := by
  simp [write, hc, deliver, hlog]

theorem write_other {k : Core} {c : Nat} (hc : k.client ≠ some c) (m : Sent) :
    (k.write m).logs[c]? = k.logs[c]? := by
  unfold write deliver
  dsimp only
  split
  · rename_i d hd
    have hdc : d ≠ c := fun e => hc (e ▸ hd)
    simp [hdc]
  · rfl

/-- What a label adds to a client's messages; a header only comes from the writer's
    hand, to the client that is attached. -/
theorem apply_log {k k' : Core} {l : Label} {c : Nat} {log : List Sent}
    (h : k.apply l = some k') (hlog : k.logs[c]? = some log) :
    ∃ new, k'.logs[c]? = some (log ++ new) ∧ ∀ m, .head m ∈ new → l = .head ∧
      k.client = some c ∧ ∃ x p, k.stage = .built x p ∧ m = (x.id, p) := by
  rcases apply_messages h with ⟨hlogs, -⟩ | ⟨hlogs, -⟩ | ⟨m, hlogs, -, hhead⟩
  · refine ⟨[], ?_, fun m hm => (by cases hm)⟩
    rw [hlogs, hlog, List.append_nil]
  · refine ⟨[], ?_, fun m hm => (by cases hm)⟩
    rw [hlogs, List.getElem?_append_left (List.getElem?_eq_some_iff.mp hlog).1, hlog,
      List.append_nil]
  · by_cases hc : k.client = some c
    · refine ⟨[m], hlogs ▸ write_attached hc hlog m, ?_⟩
      intro u hu
      obtain ⟨hl, hhand⟩ := hhead u (List.mem_singleton.mp hu).symm
      exact ⟨hl, hc, hhand⟩
    · refine ⟨[], ?_, fun m hm => (by cases hm)⟩
      rw [hlogs, write_other hc, hlog, List.append_nil]

/-- A client that is not attached never is again, and gets nothing more. -/
theorem apply_unattached {k k' : Core} {l : Label} {c : Nat} (h : k.apply l = some k')
    (hlt : c < k.logs.length) (hc : k.client ≠ some c) :
    k'.client ≠ some c ∧ k'.logs[c]? = k.logs[c]? := by
  rcases apply_messages h with ⟨hlogs, hclient⟩ | ⟨hlogs, hclient⟩ | ⟨m, hlogs, hclient, -⟩
  · refine ⟨?_, by rw [hlogs]⟩
    rcases hclient with hclient | hclient
    · rw [hclient]
      exact hc
    · rw [hclient]
      exact fun he => (by cases he)
  · refine ⟨?_, by rw [hlogs, List.getElem?_append_left hlt]⟩
    intro he
    have hlen := Option.some.inj (hclient.symm.trans he)
    omega
  · rw [hclient, hlogs]
    exact ⟨hc, write_other hc m⟩

end Core

namespace SinkSystem

def core (s : SinkSystem) : Core where
  queue := s.pin.writeBuffer
  received := s.received
  stage := WriterPc.stage s.writer
  logs := s.logs
  client := s.client
  cut := s.cut

/-- The writer is about to write a message. -/
def Writes (s : SinkSystem) (a : SinkAction) : Prop :=
  match a with
  | .writer => match WriterPc.stage s.writer with
    | .built _ _ => True
    | .sent _ _ _ => True
    | _ => False
  | _ => False

/-- The actions that have a label. -/
def IsLabel (s : SinkSystem) (a : SinkAction) : Label → Prop
  | .quiet => ¬ Writes s a ∧ ∀ env sample, a ≠ .receive env sample
  | .attach => a = .clientOpen ∨ ∃ timeout, a = .stopServer timeout
  | .detach => (a = .listener ∧ s.pin.bConnected = false) ∨ (∃ timeout, a = .stopServer timeout) ∨
      (∃ p created thread, a = .notifyAllocator p created thread ∧ s.pin.hPipe = .null) ∨
      a = .clientClose
  | .push x => ∃ env sample, a = .receive env sample ∧ x = MediaSampleX.new env.capture sample
  | .pop => a = .writer ∧ ¬ Writes s a ∧ s.writer.isSome = true
  | .build _ _ => a = .writer ∧ ¬ Writes s a
  | .skip => a = .writer ∧ ¬ Writes s a ∧ s.pin.bConnected = false
  | .head => Writes s a
  | .body => Writes s a
  | .drop => ∃ timeout, a = .breakWait timeout

/-- Receive only has the label of a sample that is queued. -/
theorem isLabel_receive {s : SinkSystem} {env : SinkInputPin.ReceiveEnv} {sample : MediaSample}
    {l : Label} (h : IsLabel s (.receive env sample) l) : ∃ x, l = .push x := by
  cases l with
  | push x => exact ⟨x, rfl⟩
  | quiet => exact absurd rfl (h.2 env sample)
  | pop | build | skip => cases h.1
  | head | body => exact h.elim
  | attach => rcases h with h | ⟨_, h⟩ <;> cases h
  | detach => rcases h with ⟨h, _⟩ | ⟨_, h⟩ | ⟨_, _, _, h, _⟩ | h <;> cases h
  | drop =>
    obtain ⟨_, h⟩ := h
    cases h

/-! The steps refine the labels. -/

theorem core_write (s : SinkSystem) (m : Sent) (w : Option WriterPc) :
    ({ s.write m with writer := w } : SinkSystem).core =
      { s.core.write m with stage := WriterPc.stage w } := rfl

/-- A step that changes neither queue, hand, logs nor clients. -/
theorem refines_quiet {s t : SinkSystem} {a : SinkAction} (ha : IsLabel s a .quiet)
    (h : t.core = s.core) : ∃ l, IsLabel s a l ∧ s.core.apply l = some t.core :=
  ⟨.quiet, ha, by rw [h]; rfl⟩

/-- A step after which no client is attached, and that changes nothing else. -/
theorem refines_detach {s t : SinkSystem} {a : SinkAction} (ha : IsLabel s a .detach)
    (h : t.core = { s.core with client := none }) :
    ∃ l, IsLabel s a l ∧ s.core.apply l = some t.core :=
  ⟨.detach, ha, by rw [h]; rfl⟩

theorem refines_attach {s t : SinkSystem} {a : SinkAction} (ha : IsLabel s a .attach)
    (h : t.core = s.attach.core) : ∃ l, IsLabel s a l ∧ s.core.apply l = some t.core :=
  ⟨.attach, ha, by rw [h]; rfl⟩

theorem writes_writer {s : SinkSystem} {pc : WriterPc} (hpc : s.writer = some pc) :
    Writes s .writer ↔ (∃ x p, pc = .header x p) ∨ ∃ x p c, pc = .payload x p c := by
  unfold Writes
  rw [hpc]
  cases pc <;> simp [WriterPc.stage]

/-- A step of the writer that leaves hand and queue alone. -/
theorem refines_writer_quiet {s t : SinkSystem} (hno : ¬ Writes s .writer)
    (h : t.core = s.core) : ∃ l, IsLabel s .writer l ∧ s.core.apply l = some t.core :=
  refines_quiet ⟨hno, fun _ _ h => SinkAction.noConfusion h⟩ h

theorem writerStep_refines {s t : SinkSystem} {pc : WriterPc} (hpc : s.writer = some pc)
    (h : s.writerStep pc = some t) :
    ∃ l, IsLabel s .writer l ∧ s.core.apply l = some t.core := by
  have hwrites := writes_writer hpc
  have hstage : s.core.stage = WriterPc.stage (some pc) := by rw [← hpc]; rfl
  cases pc with
  | outer | inner | taken =>
    have hno : ¬ Writes s .writer := by simp [hwrites]
    simp only [writerStep] at h
    split at h
    all_goals
      obtain rfl := Option.some.inj h
      exact refines_writer_quiet hno (by simp [core, client, hpc, WriterPc.stage])
  | next =>
    have hno : ¬ Writes s .writer := by simp [hwrites]
    simp only [writerStep, Option.ite_none_right_eq_some] at h
    obtain ⟨_, h⟩ := h
    cases hq : s.pin.writeBuffer with
    | nil =>
      rw [hq] at h
      obtain rfl := Option.some.inj h
      exact refines_writer_quiet hno (by simp [core, client, hpc, WriterPc.stage])
    | cons x xs =>
      rw [hq] at h
      obtain rfl := Option.some.inj h
      refine ⟨.pop, ⟨rfl, hno, by rw [hpc]; rfl⟩, ?_⟩
      have hqueue : s.core.queue = x :: xs := hq
      rw [Core.apply, hstage, hqueue]
      rfl
  | latched x =>
    have hno : ¬ Writes s .writer := by simp [hwrites]
    simp only [writerStep] at h
    split at h
    · obtain rfl := Option.some.inj h
      refine ⟨.build s.pin.rtRefPoint s.pin.rtRefPoint2, ⟨rfl, hno⟩, ?_⟩
      rw [Core.apply, hstage]
      rfl
    · rename_i hconn
      obtain rfl := Option.some.inj h
      refine ⟨.skip, ⟨rfl, hno, Bool.not_eq_true _ ▸ hconn⟩, ?_⟩
      rw [Core.apply, hstage]
      rfl
  | header x p =>
    obtain rfl := Option.some.inj h
    refine ⟨.head, hwrites.mpr (Or.inl ⟨x, p, rfl⟩), ?_⟩
    have hnext : WriterPc.stage (some (if p.hasPayload then .payload x p s.client else .inner)) =
        if p.hasPayload then .sent x p s.client else .idle := by
      cases p.hasPayload <;> rfl
    rw [Core.apply, hstage, core_write, hnext]
    rfl
  | payload x p c =>
    obtain rfl := Option.some.inj h
    refine ⟨.body, hwrites.mpr (Or.inr ⟨x, p, c, rfl⟩), ?_⟩
    rw [Core.apply, hstage, core_write]
    rfl
  | latching | sleeping =>
    obtain rfl := Option.some.inj h
    have hno : ¬ Writes s .writer := by simp [hwrites]
    exact refines_writer_quiet hno (by simp [core, client, hpc, WriterPc.stage])

theorem listenerStep_refines {s t : SinkSystem} {pc : ListenerPc}
    (h : s.listenerStep pc = some t) :
    ∃ l, IsLabel s .listener l ∧ s.core.apply l = some t.core := by
  have hno : IsLabel s .listener .quiet := ⟨id, fun _ _ h => SinkAction.noConfusion h⟩
  cases pc with
  | start =>
    obtain rfl := Option.some.inj h
    exact refines_quiet hno rfl
  | test =>
    simp only [listenerStep] at h
    split at h <;> obtain rfl := Option.some.inj h <;> exact refines_quiet hno rfl
  | connect =>
    simp only [listenerStep] at h
    split at h
    case h_2 hp =>
      obtain rfl := Option.some.inj h
      exact refines_quiet hno (by simp [core, client, hp])
    all_goals
      obtain rfl := Option.some.inj h
      exact refines_quiet hno rfl
  | waiting =>
    simp only [listenerStep] at h
    split at h
    · cases h
    all_goals
      obtain rfl := Option.some.inj h
      exact refines_quiet hno rfl
  | check =>
    simp only [listenerStep] at h
    split at h
    · rename_i hcheck
      have hconn : s.pin.bConnected = false := by simp_all
      obtain rfl := Option.some.inj h
      refine refines_detach (Or.inl ⟨rfl, hconn⟩) ?_
      cases hp : s.pipe <;> simp [core, client, hp]
    · obtain rfl := Option.some.inj h
      exact refines_quiet hno rfl
  | sleeping =>
    obtain rfl := Option.some.inj h
    exact refines_quiet hno rfl

theorem stopStep_refines {s t : SinkSystem} {timeout : Bool} {pc : StopPc}
    (h : s.stopStep timeout pc = some t) :
    ∃ l, IsLabel s (.stopServer timeout) l ∧ s.core.apply l = some t.core := by
  have hno : IsLabel s (.stopServer timeout) .quiet := ⟨id, fun _ _ h => SinkAction.noConfusion h⟩
  have hatt : IsLabel s (.stopServer timeout) .attach := Or.inr ⟨timeout, rfl⟩
  have hdet : IsLabel s (.stopServer timeout) .detach := Or.inr (Or.inl ⟨timeout, rfl⟩)
  cases pc with
  | openPipe =>
    simp only [stopStep] at h
    split at h
    · obtain rfl := Option.some.inj h
      exact refines_attach hatt rfl
    · obtain rfl := Option.some.inj h
      exact refines_quiet hno rfl
  | closeClient c =>
    obtain rfl := Option.some.inj h
    by_cases hc : s.pipe = some (.connected c)
    · refine refines_detach hdet ?_
      simp [core, client, hc]
    · refine refines_quiet hno ?_
      simp [core, client, hc]
  | waitListener =>
    simp only [stopStep] at h
    split at h
    · obtain rfl := Option.some.inj h
      exact refines_quiet hno rfl
    · rw [Option.ite_none_right_eq_some] at h
      obtain rfl := Option.some.inj h.2
      exact refines_quiet hno rfl
  | disconnect =>
    obtain rfl := Option.some.inj h
    refine refines_detach hdet ?_
    cases hp : s.pipe <;> simp [core, client, hp]
  | closeHandle =>
    obtain rfl := Option.some.inj h
    exact refines_detach hdet rfl
  | clear =>
    obtain rfl := Option.some.inj h
    exact refines_quiet hno rfl

theorem receiveStep_refines {s t : SinkSystem} {env : SinkInputPin.ReceiveEnv}
    {sample : MediaSample} (hw : s.life.Sound) (hlock : s.lock = none)
    (h : s.receiveStep env sample = some t) :
    s.core.apply (.push (MediaSampleX.new env.capture sample)) = some t.core := by
  -- a writer is only started when there is none
  have hstage : WriterPc.stage (if (s.pin.receive env s.received sample).startWriter then
      some .outer else s.writer) = WriterPc.stage s.writer := by
    cases hb : s.pin.bWriteBuffering
    · cases hwr : s.writer with
      | none => split <;> rfl
      | some pc =>
        rcases hw.running (by simp [life, hwr]) with hon | hbr
        · rw [show s.pin.bWriteBuffering = true from hon] at hb
          cases hb
        · simp [life, hlock] at hbr
    · simp [hb]
  have hcore : ∀ u : SinkSystem,
      u.pin.writeBuffer = (s.pin.receive env s.received sample).pin.writeBuffer →
      u.received = s.received + 1 → WriterPc.stage u.writer = WriterPc.stage s.writer →
      u.pipe = s.pipe → u.logs = s.logs → u.cut = s.cut →
      s.core.apply (.push (MediaSampleX.new env.capture sample)) = some u.core := by
    intro u hq hr hst hp hl hc
    have hcl : u.client = s.client := by unfold client; rw [hp]
    simp only [Core.apply, core, hq, SinkInputPin.receive_writeBuffer, hr, hst, hcl, hl, hc]
  obtain ⟨u, rfl, rfl | rfl⟩ := receiveStep_cases h
  · exact hcore _ rfl rfl hstage rfl rfl rfl
  · exact hcore _ rfl rfl hstage rfl rfl rfl

/-- What is left of a terminated writer is in the cut of its client, if it had sent the
    header. -/
theorem terminateWriter_refines (s : SinkSystem) :
    s.core.apply .drop = some s.terminateWriter.core := by
  unfold terminateWriter
  split
  · rename_i x p c hwr
    simp only [Core.apply, core, hwr, WriterPc.stage]
    rfl
  · rename_i hwr
    have hstage : ∀ x p c, s.core.stage ≠ .sent x p (some c) := by
      intro x p c hst
      cases hpc : s.writer with
      | none => simp [core, hpc, WriterPc.stage] at hst
      | some pc =>
        cases pc <;> simp [core, hpc, WriterPc.stage] at hst
        obtain ⟨rfl, rfl, rfl⟩ := hst
        exact hwr _ _ _ hpc
    rw [Core.apply]
    split
    · rename_i x p c hst
      exact absurd hst (hstage x p c)
    · rfl

/-- **Refinement**: a step of the pin's system is a step of its core. -/
theorem step_refines {s t : SinkSystem} {a : SinkAction} (hw : s.life.Sound)
    (h : s.step a = some t) : ∃ l, IsLabel s a l ∧ s.core.apply l = some t.core := by
  cases a with
  | receive env sample =>
    simp only [step, Option.ite_none_right_eq_some] at h
    exact ⟨.push _, ⟨env, sample, rfl, rfl⟩, receiveStep_refines hw h.1 h.2⟩
  | reset | beginFlush | endFlush =>
    simp only [step, Option.ite_none_right_eq_some] at h
    obtain rfl := Option.some.inj h.2
    exact refines_quiet ⟨id, fun _ _ h => SinkAction.noConfusion h⟩ rfl
  | endOfStream =>
    rcases endOfStream_cases h with rfl | ⟨_, rfl⟩
    · exact refines_quiet ⟨id, fun _ _ h => SinkAction.noConfusion h⟩ rfl
    · exact refines_quiet ⟨id, fun _ _ h => SinkAction.noConfusion h⟩ rfl
  | notifyAllocator a created thread =>
    simp only [step, Option.ite_none_right_eq_some] at h
    obtain rfl := Option.some.inj h.2
    simp only [notifyAllocatorStep]
    split
    · rename_i hnull
      refine refines_detach (Or.inr (Or.inr (Or.inl ⟨a, created, thread, rfl, hnull⟩))) ?_
      cases created <;> rfl
    · exact refines_quiet ⟨id, fun _ _ h => SinkAction.noConfusion h⟩ rfl
  | breakConnect =>
    simp only [step, Option.ite_none_right_eq_some] at h
    obtain ⟨_, h⟩ := h
    split at h
    all_goals
      obtain rfl := Option.some.inj h
      exact refines_quiet ⟨id, fun _ _ h => SinkAction.noConfusion h⟩ rfl
  | breakWait timeout =>
    simp only [step, Option.ite_none_right_eq_some] at h
    obtain rfl := Option.some.inj h.2
    refine ⟨.drop, ⟨timeout, rfl⟩, (terminateWriter_refines s).trans (congrArg some ?_)⟩
    simp only [core, client, terminateWriter_pin]
  | stopServer timeout =>
    obtain ⟨pc, _, h⟩ := Option.bind_eq_some_iff.mp h
    exact stopStep_refines h
  | writer =>
    obtain ⟨pc, hpc, h⟩ := Option.bind_eq_some_iff.mp h
    exact writerStep_refines hpc h
  | listener =>
    obtain ⟨pc, _, h⟩ := Option.bind_eq_some_iff.mp h
    exact listenerStep_refines h
  | clientOpen =>
    simp only [step, Option.ite_none_right_eq_some] at h
    obtain rfl := Option.some.inj h.2
    exact refines_attach (Or.inl rfl) rfl
  | clientClose =>
    obtain ⟨c, _, rfl⟩ := Option.map_eq_some_iff.mp h
    exact refines_detach (Or.inr (Or.inr (Or.inr rfl))) rfl

end SinkSystem

end VirtualCaptureStream
