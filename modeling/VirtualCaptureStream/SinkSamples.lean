import VirtualCaptureStream.SinkWriterPool

/- The captured samples, whoever has them. Receive allocates a CMediaSampleX and queues it;
   a write thread takes it from the queue, writes its header and its payload, and deletes
   it. There may be several write threads, and BreakConnect may terminate one that has a
   sample, which nobody deletes then.

   What is proved:
     1. `samples_owned_once` — each sample is in the queue, in one thread's hand, deleted
        or leaked, and only one of these.
     2. `sample_sent_once` — whatever the number of threads, no header and no payload is
        written twice.

   Correspondence (C++ ↔ Lean):
     `new CMediaSampleX`, `m_writeBuffer.push`  ↔ `received`, `queued`
     `pSample` in InstanceWritePipeThread       ↔ `WriterPc.sample?`
     `delete pSample`                           ↔ `deleted`
     `TerminateThread(m_hThread2, 0)`           ↔ `leaked` -/
namespace VirtualCaptureStream

namespace WriterPc

/-- The sample the thread has. -/
def sample? : WriterPc → Option Queued
  | .taken x | .latching x | .latched x | .header x _ | .payload x _ _ => some x
  | _ => none

/-- The sample whose header it has not written. -/
def unsent? : WriterPc → Option Queued
  | .taken x | .latching x | .latched x | .header x _ => some x
  | _ => none

end WriterPc

/-- The messages of the sample with number `n`. -/
def isHead (n : Nat) : Sent → Bool
  | .head u => u.1 = n
  | .body _ => false

def isBody (n : Nat) : Sent → Bool
  | .head _ => false
  | .body u => u.1 = n

/-- A message arrives at one client at most. -/
theorem countP_deliver (p : Sent → Bool) (client : Option Nat) (m : Sent) (logs : List (List Sent)) :
    (deliver client m logs).flatten.countP p ≤ logs.flatten.countP p + if p m then 1 else 0 := by
  cases client with
  | none => exact Nat.le_add_right _ _
  | some c =>
    show (logs.modify c (· ++ [m])).flatten.countP p ≤ _
    induction logs generalizing c with
    | nil => simp
    | cons log logs ih =>
      cases c with
      | zero =>
        simp only [List.modify_zero_cons, List.flatten_cons, List.countP_append,
          List.countP_singleton]
        omega
      | succ c =>
        have hrest := ih c
        simp only [List.modify_succ_cons, List.flatten_cons, List.countP_append]
        omega

namespace WriterPool

open Transition (run)

/-- What a step of a write thread does with the samples: the queue, the messages and the
    thread's place before and after it. -/
inductive WriterTurn (q : List Queued) (logs : List (List Sent)) (pc : WriterPc) :
    List Queued → List (List Sent) → Option WriterPc → Prop
  | keep {w} (hsample : w.bind WriterPc.sample? = pc.sample?)
      (hunsent : w.bind WriterPc.unsent? = pc.unsent?) : WriterTurn q logs pc q logs w
  | take {x xs} (hpc : pc = .next) (hqueue : q = x :: xs) :
      WriterTurn q logs pc xs logs (some (.taken x))
  | skip {x} (hpc : pc = .latched x) : WriterTurn q logs pc q logs (some .inner)
  | head {x p client w} (hpc : pc = .header x p) (hw : w = .payload x p client ∨ w = .inner) :
      WriterTurn q logs pc q (deliver client (.head (x.id, p)) logs) (some w)
  | body {x p sentTo client} (hpc : pc = .payload x p sentTo) :
      WriterTurn q logs pc q (deliver client (.body (x.id, p)) logs) (some .inner)

theorem writerStep_turn {s t : SinkSystem} {pc : WriterPc} (h : s.writerStep pc = some t) :
    WriterTurn s.pin.writeBuffer s.logs pc t.pin.writeBuffer t.logs t.writer ∧
      t.received = s.received := by
  cases pc with
  | outer | inner | taken =>
    simp only [SinkSystem.writerStep] at h
    split at h <;> obtain rfl := Option.some.inj h <;> exact ⟨.keep rfl rfl, rfl⟩
  | latching | sleeping =>
    obtain rfl := Option.some.inj h
    exact ⟨.keep rfl rfl, rfl⟩
  | next =>
    simp only [SinkSystem.writerStep, Option.ite_none_right_eq_some] at h
    obtain ⟨-, h⟩ := h
    split at h
    · obtain rfl := Option.some.inj h
      exact ⟨.keep rfl rfl, rfl⟩
    · rename_i x xs hqueue
      obtain rfl := Option.some.inj h
      exact ⟨.take rfl hqueue, rfl⟩
  | latched x =>
    simp only [SinkSystem.writerStep] at h
    split at h <;> obtain rfl := Option.some.inj h
    · exact ⟨.keep rfl rfl, rfl⟩
    · exact ⟨.skip rfl, rfl⟩
  | header x p =>
    obtain rfl := Option.some.inj h
    refine ⟨.head rfl ?_, rfl⟩
    cases p.hasPayload with
    | true => exact Or.inl rfl
    | false => exact Or.inr rfl
  | payload x p sentTo =>
    obtain rfl := Option.some.inj h
    exact ⟨.body rfl, rfl⟩

/-- What Receive does with them. -/
theorem receiveStep_samples {s t : SinkSystem} {env : SinkInputPin.ReceiveEnv}
    {sample : MediaSample} (h : s.receiveStep env sample = some t) :
    (∃ x : Queued, x.id = s.received ∧ t.pin.writeBuffer = s.pin.writeBuffer ++ [x]) ∧
      t.logs = s.logs ∧ t.received = s.received + 1 ∧
      (t.writer = s.writer ∨ t.writer = some .outer) := by
  obtain ⟨u, hu, ht⟩ := SinkSystem.receiveStep_cases h
  have hqueue : ∃ x : Queued, x.id = s.received ∧ u.pin.writeBuffer = s.pin.writeBuffer ++ [x] := by
    rw [hu]
    exact ⟨_, rfl, SinkInputPin.receive_writeBuffer _ _ _ _⟩
  have hwriter : u.writer = s.writer ∨ u.writer = some .outer := by
    rw [hu]
    dsimp only
    split
    · exact Or.inr rfl
    · exact Or.inl rfl
  have hlogs : u.logs = s.logs := by rw [hu]
  have hreceived : u.received = s.received + 1 := by rw [hu]
  rcases ht with rfl | rfl
  · exact ⟨hqueue, hlogs, hreceived, hwriter⟩
  · exact ⟨hqueue, hlogs, hreceived, hwriter⟩

/-- Who else calls or runs captures nothing and writes nothing. -/
theorem calm_samples {s t : SinkSystem} {a : SinkSystem.SinkAction} (ha : a.calm = true)
    (h : s.step a = some t) : t.received = s.received ∧ t.logs.flatten = s.logs.flatten := by
  cases a with
  | receive | breakConnect | breakWait | writer => cases ha
  | reset | beginFlush | endFlush =>
    simp only [SinkSystem.step, Option.ite_none_right_eq_some] at h
    obtain rfl := Option.some.inj h.2
    exact ⟨rfl, rfl⟩
  | clientOpen =>
    simp only [SinkSystem.step, Option.ite_none_right_eq_some] at h
    obtain rfl := Option.some.inj h.2
    exact ⟨rfl, by simp [SinkSystem.attach]⟩
  | endOfStream =>
    rcases SinkSystem.endOfStream_cases h with rfl | ⟨_, rfl⟩ <;> exact ⟨rfl, rfl⟩
  | notifyAllocator a created thread =>
    simp only [SinkSystem.step, Option.ite_none_right_eq_some] at h
    obtain rfl := Option.some.inj h.2
    unfold SinkSystem.notifyAllocatorStep
    split <;> exact ⟨rfl, rfl⟩
  | stopServer timeout =>
    obtain ⟨pc, -, h⟩ := Option.bind_eq_some_iff.mp h
    cases pc with
    | openPipe =>
      simp only [SinkSystem.stopStep] at h
      split at h <;> obtain rfl := Option.some.inj h
      · exact ⟨rfl, by simp [SinkSystem.attach]⟩
      · exact ⟨rfl, rfl⟩
    | waitListener =>
      simp only [SinkSystem.stopStep] at h
      split at h
      · obtain rfl := Option.some.inj h
        exact ⟨rfl, rfl⟩
      · rw [Option.ite_none_right_eq_some] at h
        obtain rfl := Option.some.inj h.2
        exact ⟨rfl, rfl⟩
    | closeClient | disconnect | closeHandle | clear =>
      obtain rfl := Option.some.inj h
      exact ⟨rfl, rfl⟩
  | listener =>
    obtain ⟨pc, -, h⟩ := Option.bind_eq_some_iff.mp h
    obtain ⟨_, _, _, _, rfl⟩ := SinkSystem.listenerStep_writes h
    exact ⟨rfl, rfl⟩
  | clientClose =>
    obtain ⟨c, -, rfl⟩ := Option.map_eq_some_iff.mp h
    exact ⟨rfl, rfl⟩

/-! The hands of all threads. -/

/-- The number of the sample a thread has, if it runs and has one. -/
def inHand (w : Option WriterPc) : Option Nat := (w.bind WriterPc.sample?).map Queued.id

def unsent (w : Option WriterPc) : Option Nat := (w.bind WriterPc.unsent?).map Queued.id

/-- The samples in the hands of all threads, and those in the queue. -/
def held (s : WriterPool) : List Nat := s.writers.filterMap inHand

def queued (s : WriterPool) : List Nat := s.sink.pin.writeBuffer.map Queued.id

/-- The sample that a thread had and has no more. -/
def gone (w w' : Option WriterPc) : List Nat :=
  match inHand w, inHand w' with
  | some n, none => [n]
  | _, _ => []

/-- The sample a step deletes. -/
def deleted (s t : WriterPool) : PoolAction → List Nat
  | .writer id => gone (s.pc id) (t.pc id)
  | _ => []

/-- The sample that the thread had which a step terminates. -/
def leaked (s t : WriterPool) : PoolAction → List Nat
  | .call (.breakWait _) =>
    match s.hThread2 with
    | .thread id => gone (s.pc id) (t.pc id)
    | _ => []
  | _ => []

/-- What a run gives, step for step. -/
def along (f : WriterPool → WriterPool → PoolAction → List Nat) :
    WriterPool → List PoolAction → List Nat
  | _, [] => []
  | s, a :: as =>
    match s.step a with
    | some t => f s t a ++ along f t as
    | none => []

section
variable {s : WriterPool} {id : Nat}

/-- Another place for one thread. -/
theorem countP_set (f : Option WriterPc → Option Nat) (w : Option WriterPc)
    (hlt : id < s.writers.length) (n : Nat) :
    (s.writers.set id w).countP (fun w => f w == some n) + (if f (s.pc id) = some n then 1 else 0) =
      s.writers.countP (fun w => f w == some n) + if f w = some n then 1 else 0 := by
  have hpc : s.pc id = s.writers[id] := by
    rw [pc, List.getElem?_eq_getElem hlt]
    rfl
  have hpos : f s.writers[id] = some n → 0 < s.writers.countP fun w => f w == some n := by
    intro h
    rw [List.countP_pos_iff]
    exact ⟨_, List.getElem_mem hlt, by simp [h]⟩
  rw [List.countP_set hlt, hpc]
  simp only [beq_iff_eq]
  by_cases h : f s.writers[id] = some n
  · have := hpos h
    rw [if_pos h]
    omega
  · rw [if_neg h]
    omega

/-- What a thread keeps, or has no more. -/
theorem count_gone {w w' : Option WriterPc} (h : inHand w' = inHand w ∨ inHand w' = none) (n : Nat) :
    (gone w w').count n + (if inHand w' = some n then 1 else 0) =
      if inHand w = some n then 1 else 0 := by
  unfold gone
  cases hw : inHand w with
  | none =>
    have hw' : inHand w' = none := h.elim (fun e => e.trans hw) id
    simp [hw']
  | some m =>
    rcases h with h | h
    · rw [h, hw]
      exact Nat.zero_add _
    · rw [h]
      simp [List.count_singleton]

theorem count_places_set (f : Option WriterPc → Option Nat) (w : Option WriterPc)
    (hlt : id < s.writers.length) (n : Nat) :
    ((s.writers.set id w).filterMap f).count n + (if f (s.pc id) = some n then 1 else 0) =
      (s.writers.filterMap f).count n + if f w = some n then 1 else 0 := by
  rw [List.count_filterMap, List.count_filterMap]
  exact countP_set f w hlt n

theorem WriterTurn.owned {q q' : List Queued} {logs logs' : List (List Sent)} {pc : WriterPc}
    {w : Option WriterPc} (h : WriterTurn q logs pc q' logs' w) (n : Nat) :
    (gone (some pc) w).count n + (if inHand w = some n then 1 else 0) + (q'.map Queued.id).count n =
      (if inHand (some pc) = some n then 1 else 0) + (q.map Queued.id).count n := by
  cases h with
  | keep hsample =>
    have hin : inHand w = inHand (some pc) := congrArg (Option.map Queued.id) hsample
    rw [count_gone (Or.inl hin)]
  | take hpc hqueue =>
    subst hpc hqueue
    simp only [gone, inHand, List.map_cons, List.count_cons]
    simp [WriterPc.sample?]
    omega
  | skip hpc =>
    subst hpc
    rw [count_gone (Or.inr rfl)]
  | @head x p client w hpc hw =>
    subst hpc
    rcases hw with rfl | rfl
    · have hin : inHand (some (.payload x p client)) = inHand (some (.header x p)) := rfl
      rw [count_gone (Or.inl hin)]
    · rw [count_gone (Or.inr rfl)]
  | body hpc =>
    subst hpc
    rw [count_gone (Or.inr rfl)]

theorem WriterTurn.heads {q q' : List Queued} {logs logs' : List (List Sent)} {pc : WriterPc}
    {w : Option WriterPc} (h : WriterTurn q logs pc q' logs' w) (n : Nat) :
    logs'.flatten.countP (isHead n) + (if unsent w = some n then 1 else 0) +
        (q'.map Queued.id).count n ≤
      logs.flatten.countP (isHead n) + (if unsent (some pc) = some n then 1 else 0) +
        (q.map Queued.id).count n := by
  cases h with
  | keep _ hunsent =>
    have hun : unsent w = unsent (some pc) := congrArg (Option.map Queued.id) hunsent
    rw [hun]
  | take hpc hqueue =>
    subst hpc hqueue
    simp only [unsent, List.map_cons, List.count_cons]
    simp [WriterPc.unsent?]
    omega
  | skip hpc =>
    subst hpc
    simp [unsent, WriterPc.unsent?]
  | @head x p client w hpc hw =>
    have hlogs := countP_deliver (isHead n) client (.head (x.id, p)) logs
    subst hpc
    rcases hw with rfl | rfl
    · simp [unsent, WriterPc.unsent?, isHead] at hlogs ⊢
      omega
    · simp [unsent, WriterPc.unsent?, isHead] at hlogs ⊢
      omega
  | @body x p sentTo client hpc =>
    have hlogs := countP_deliver (isHead n) client (.body (x.id, p)) logs
    subst hpc
    simp [unsent, WriterPc.unsent?, isHead] at hlogs ⊢
    omega

theorem WriterTurn.bodies {q q' : List Queued} {logs logs' : List (List Sent)} {pc : WriterPc}
    {w : Option WriterPc} (h : WriterTurn q logs pc q' logs' w) (n : Nat) :
    logs'.flatten.countP (isBody n) + (if inHand w = some n then 1 else 0) +
        (q'.map Queued.id).count n ≤
      logs.flatten.countP (isBody n) + (if inHand (some pc) = some n then 1 else 0) +
        (q.map Queued.id).count n := by
  cases h with
  | keep hsample =>
    have hin : inHand w = inHand (some pc) := congrArg (Option.map Queued.id) hsample
    rw [hin]
  | take hpc hqueue =>
    subst hpc hqueue
    simp only [inHand, List.map_cons, List.count_cons]
    simp [WriterPc.sample?]
    omega
  | skip hpc =>
    subst hpc
    simp [inHand, WriterPc.sample?]
  | @head x p client w hpc hw =>
    have hlogs := countP_deliver (isBody n) client (.head (x.id, p)) logs
    subst hpc
    rcases hw with rfl | rfl
    · simp [inHand, WriterPc.sample?, isBody] at hlogs ⊢
      omega
    · simp [inHand, WriterPc.sample?, isBody] at hlogs ⊢
      omega
  | @body x p sentTo client hpc =>
    have hlogs := countP_deliver (isBody n) client (.body (x.id, p)) logs
    subst hpc
    simp [inHand, WriterPc.sample?, isBody] at hlogs ⊢
    omega

theorem pc_set (hlt : id < s.writers.length) (sink : SinkSystem) (w : Option WriterPc) :
    ({ s with sink := sink, writers := s.writers.set id w } : WriterPool).pc id = w := by
  unfold pc
  rw [List.getElem?_set_self hlt]
  rfl

end

/-! The books. -/

/-- Each captured sample is in one place, and its messages are written by one thread. The
    first two arguments are what has been deleted, and what has leaked. -/
structure SampleBooks (del leak : List Nat) (s : WriterPool) : Prop where
  empty : s.sink.writer = none
  owned : ∀ n, del.count n + leak.count n + s.held.count n + s.queued.count n =
    if n < s.sink.received then 1 else 0
  heads : ∀ n, s.sink.logs.flatten.countP (isHead n) + (s.writers.filterMap unsent).count n +
    s.queued.count n ≤ if n < s.sink.received then 1 else 0
  bodies : ∀ n, s.sink.logs.flatten.countP (isBody n) + s.held.count n + s.queued.count n ≤
    if n < s.sink.received then 1 else 0

section
variable {s t : WriterPool} {del leak : List Nat}

/-- Samples that only change places, and no more messages than that allows. -/
theorem SampleBooks.moved {t : WriterPool} {d l : List Nat} (h : s.SampleBooks del leak)
    (hempty : t.sink.writer = none) (hreceived : t.sink.received = s.sink.received)
    (howned : ∀ n, d.count n + l.count n + t.held.count n + t.queued.count n =
      s.held.count n + s.queued.count n)
    (hheads : ∀ n, t.sink.logs.flatten.countP (isHead n) + (t.writers.filterMap unsent).count n +
        t.queued.count n ≤ s.sink.logs.flatten.countP (isHead n) +
          (s.writers.filterMap unsent).count n + s.queued.count n)
    (hbodies : ∀ n, t.sink.logs.flatten.countP (isBody n) + t.held.count n + t.queued.count n ≤
      s.sink.logs.flatten.countP (isBody n) + s.held.count n + s.queued.count n) :
    t.SampleBooks (del ++ d) (leak ++ l) where
  empty := hempty
  owned n := by
    have hbefore := h.owned n
    have hstep := howned n
    rw [hreceived, List.count_append, List.count_append]
    omega
  heads n := by
    rw [hreceived]
    exact (hheads n).trans (h.heads n)
  bodies n := by
    rw [hreceived]
    exact (hbodies n).trans (h.bodies n)

theorem SampleBooks.writer {id : Nat} (h : s.SampleBooks del leak) (hstep : s.writerStep id = some t) :
    t.SampleBooks (del ++ gone (s.pc id) (t.pc id)) (leak ++ []) := by
  obtain ⟨pc, hpc, hstep⟩ := Option.bind_eq_some_iff.mp hstep
  obtain ⟨u, hu, rfl⟩ := Option.map_eq_some_iff.mp hstep
  have hlt : id < s.writers.length := by
    have halive : s.Alive id := by rw [Alive, hpc]; rfl
    exact halive.lt
  have hturn : WriterTurn s.sink.pin.writeBuffer s.sink.logs pc u.pin.writeBuffer u.logs u.writer :=
    (writerStep_turn hu).1
  have hheld : ∀ n, ((s.writers.set id u.writer).filterMap inHand).count n +
      (if inHand (s.pc id) = some n then 1 else 0) =
        s.held.count n + if inHand u.writer = some n then 1 else 0 :=
    count_places_set inHand u.writer hlt
  have hunsent := count_places_set unsent u.writer hlt
  rw [pc_set hlt]
  rw [hpc] at hheld hunsent ⊢
  refine h.moved rfl (writerStep_turn hu).2 (fun n => ?_) (fun n => ?_) (fun n => ?_)
  · have hown := hturn.owned n
    have := hheld n
    show _ + 0 + ((s.writers.set id u.writer).filterMap inHand).count n +
      (u.pin.writeBuffer.map Queued.id).count n = _ + (s.sink.pin.writeBuffer.map Queued.id).count n
    omega
  · have hown := hturn.heads n
    have := hunsent n
    show u.logs.flatten.countP (isHead n) + ((s.writers.set id u.writer).filterMap unsent).count n +
      (u.pin.writeBuffer.map Queued.id).count n ≤ _ + _ +
        (s.sink.pin.writeBuffer.map Queued.id).count n
    omega
  · have hown := hturn.bodies n
    have := hheld n
    show u.logs.flatten.countP (isBody n) + ((s.writers.set id u.writer).filterMap inHand).count n +
      (u.pin.writeBuffer.map Queued.id).count n ≤ _ + _ +
        (s.sink.pin.writeBuffer.map Queued.id).count n
    omega

/-- Nobody has taken or written anything. -/
theorem SampleBooks.keep (h : s.SampleBooks del leak)
    (hsink : t.sink.writer = none) (hreceived : t.sink.received = s.sink.received)
    (hqueue : t.sink.pin.writeBuffer = s.sink.pin.writeBuffer)
    (hlogs : t.sink.logs.flatten = s.sink.logs.flatten)
    (hheld : ∀ n, t.held.count n = s.held.count n)
    (hunsent : ∀ n, (t.writers.filterMap unsent).count n = (s.writers.filterMap unsent).count n) :
    t.SampleBooks (del ++ []) (leak ++ []) := by
  have hqueued : t.queued = s.queued := congrArg (List.map Queued.id) hqueue
  refine h.moved hsink hreceived (fun n => ?_) (fun n => ?_) (fun n => ?_)
  · rw [hqueued, hheld, List.count_nil, Nat.zero_add]
  · rw [hqueued, hlogs, hunsent]
  · rw [hqueued, hlogs, hheld]

/-- A thread that has been created has no sample. -/
theorem adopt_cases {u : SinkSystem} (hu : u.writer = none ∨ u.writer = some .outer) :
    (s.adopt u).sink = { u with writer := none } ∧
      (s.adopt u).held = s.held ∧ (s.adopt u).writers.filterMap unsent = s.writers.filterMap unsent := by
  rcases hu with hu | hu
  · rw [adopt_of_none hu]
    refine ⟨?_, rfl, rfl⟩
    rw [← hu]
  · rw [adopt_of_some hu]
    refine ⟨rfl, ?_, ?_⟩
    · rw [held, held, List.filterMap_append]
      exact List.append_nil _
    · rw [List.filterMap_append]
      exact List.append_nil _

theorem SampleBooks.adopt {u : SinkSystem} (h : s.SampleBooks del leak)
    (hu : u.writer = none ∨ u.writer = some .outer) (hreceived : u.received = s.sink.received)
    (hqueue : u.pin.writeBuffer = s.sink.pin.writeBuffer)
    (hlogs : u.logs.flatten = s.sink.logs.flatten) :
    (s.adopt u).SampleBooks (del ++ []) (leak ++ []) := by
  obtain ⟨hsink, hheld, hunsent⟩ := adopt_cases hu (s := s)
  refine h.keep ?_ ?_ ?_ ?_ (fun n => by rw [hheld]) (fun n => by rw [hunsent])
  · rw [hsink]
  · rw [hsink]
    exact hreceived
  · rw [hsink]
    exact hqueue
  · rw [hsink]
    exact hlogs

/-- Receive gives the sample the next number. -/
theorem SampleBooks.receive {env : SinkInputPin.ReceiveEnv} {sample : MediaSample} {u : SinkSystem}
    (h : s.SampleBooks del leak) (hu : s.sink.receiveStep env sample = some u) :
    (s.adopt u).SampleBooks del leak := by
  obtain ⟨⟨x, hx, hqueue⟩, hlogs, hreceived, hwriter⟩ := receiveStep_samples hu
  rw [h.empty] at hwriter
  obtain ⟨hsink, hheld, hunsent⟩ := adopt_cases hwriter (s := s)
  have hqueued : (s.adopt u).queued = s.queued ++ [s.sink.received] := by
    rw [queued, hsink, queued, hqueue, List.map_append, ← hx]
    rfl
  have hlogs' : (s.adopt u).sink.logs = s.sink.logs := by rw [hsink, hlogs]
  have hreceived' : (s.adopt u).sink.received = s.sink.received + 1 := by rw [hsink, hreceived]
  refine ⟨by rw [hsink], fun n => ?_, fun n => ?_, fun n => ?_⟩
  · have hbefore := h.owned n
    rw [hqueued, hheld, hreceived', List.count_append, List.count_singleton]
    simp only [beq_iff_eq]
    split at hbefore <;> split <;> split <;> omega
  · have hbefore := h.heads n
    rw [hqueued, hunsent, hlogs', hreceived', List.count_append, List.count_singleton]
    simp only [beq_iff_eq]
    split at hbefore <;> split <;> split <;> omega
  · have hbefore := h.bodies n
    rw [hqueued, hheld, hlogs', hreceived', List.count_append, List.count_singleton]
    simp only [beq_iff_eq]
    split at hbefore <;> split <;> split <;> omega

/-- BreakConnect tells a thread to stop. -/
theorem SampleBooks.breakConnect (h : s.SampleBooks del leak) (hstep : s.breakConnect = some t) :
    t.SampleBooks (del ++ []) (leak ++ []) := by
  obtain ⟨u, hu, rfl⟩ := Option.map_eq_some_iff.mp hstep
  have hsink : u.writer = none ∧ u.received = s.sink.received ∧
      u.pin.writeBuffer = s.sink.pin.writeBuffer ∧ u.logs = s.sink.logs := by
    simp only [SinkSystem.step, Option.ite_none_right_eq_some] at hu
    obtain ⟨-, hu⟩ := hu
    split at hu <;> obtain rfl := Option.some.inj hu <;> exact ⟨h.empty, rfl, rfl, rfl⟩
  obtain ⟨hwriter, hreceived, hqueue, hlogs⟩ := hsink
  split <;> exact h.keep hwriter hreceived hqueue (by rw [hlogs]) (fun _ => rfl) fun _ => rfl

/-- The counts without a terminated thread. -/
theorem count_terminated {f : Option WriterPc → Option Nat} (hf : f none = none) (id n : Nat) :
    ((s.writers.set id none).filterMap f).count n + (if f (s.pc id) = some n then 1 else 0) =
      (s.writers.filterMap f).count n := by
  by_cases hlt : id < s.writers.length
  · have hset := count_places_set f none hlt n
    simp only [hf, reduceCtorEq, if_false, Nat.add_zero] at hset
    exact hset
  · have hpc : s.pc id = none := by
      rw [pc, List.getElem?_eq_none (Nat.le_of_not_lt hlt)]
      rfl
    rw [List.set_eq_of_length_le (Nat.le_of_not_lt hlt), hpc, hf]
    simp

theorem pc_terminated {id : Nat} (hwriters : t.writers = s.writers.set id none) : t.pc id = none := by
  unfold pc
  rw [hwriters]
  by_cases hlt : id < s.writers.length
  · rw [List.getElem?_set_self hlt]
    rfl
  · rw [List.getElem?_eq_none (by rw [List.length_set]; exact Nat.le_of_not_lt hlt)]
    rfl

/-- The thread that is terminated leaves its sample to nobody. -/
theorem SampleBooks.terminated {id : Nat} (h : s.SampleBooks del leak) (hsink : t.sink.writer = none)
    (hreceived : t.sink.received = s.sink.received)
    (hqueue : t.sink.pin.writeBuffer = s.sink.pin.writeBuffer)
    (hlogs : t.sink.logs = s.sink.logs) (hwriters : t.writers = s.writers.set id none) :
    t.SampleBooks (del ++ []) (leak ++ gone (s.pc id) (t.pc id)) := by
  rw [pc_terminated hwriters]
  have hqueued : t.queued = s.queued := congrArg (List.map Queued.id) hqueue
  refine h.moved hsink hreceived (fun n => ?_) (fun n => ?_) (fun n => ?_)
  · have hheld := count_terminated (s := s) (f := inHand) rfl id n
    have hgone := @count_gone (s.pc id) none (Or.inr rfl) n
    have hnone : inHand none = none := rfl
    simp only [hnone, reduceCtorEq, if_false, Nat.add_zero] at hgone
    rw [hqueued, held, hwriters, held, List.count_nil, Nat.zero_add]
    omega
  · have hunsent := count_terminated (s := s) (f := unsent) rfl id n
    rw [hqueued, hwriters, hlogs]
    omega
  · have hheld := count_terminated (s := s) (f := inHand) rfl id n
    rw [hqueued, held, hwriters, held, hlogs]
    omega

theorem gone_self (w : Option WriterPc) : gone w w = [] := by
  unfold gone
  cases inHand w <;> rfl

/-- The end of BreakConnect's wait. -/
theorem SampleBooks.breakWait {timeout : Bool} (h : s.SampleBooks del leak)
    (hstep : s.breakWait timeout = some t) :
    t.SampleBooks (del ++ []) (leak ++ leaked s t (.call (.breakWait timeout))) := by
  obtain ⟨hd, -, hstep⟩ := Option.bind_eq_some_iff.mp hstep
  rw [Option.ite_none_right_eq_some] at hstep
  obtain ⟨-, hstep⟩ := hstep
  cases timeout with
  | false =>
    obtain rfl := Option.some.inj hstep
    simp only [Bool.false_eq_true, if_false]
    have hleaked : ∀ u : WriterPool, u.writers = s.writers →
        leaked s u (.call (.breakWait false)) = [] := by
      intro u hu
      unfold leaked
      dsimp only
      split
      · rw [pc, pc, hu, gone_self]
      · rfl
    rw [hleaked]
    · exact h.keep h.empty rfl rfl rfl (fun _ => rfl) fun _ => rfl
    · rfl
  | true =>
    obtain rfl := Option.some.inj hstep
    cases hhandle : s.hThread2 with
    | null =>
      simp only [leaked, hhandle, terminate, if_true]
      exact h.keep h.empty rfl rfl rfl (fun _ => rfl) fun _ => rfl
    | garbage =>
      simp only [leaked, hhandle, terminate, if_true]
      exact h.keep h.empty rfl rfl rfl (fun _ => rfl) fun _ => rfl
    | thread id =>
      obtain ⟨cut, hcut⟩ := SinkSystem.terminateWriter_writes { s.sink with writer := s.pc id }
      simp only [leaked, hhandle, terminate, if_true, hcut]
      exact h.terminated rfl rfl rfl rfl rfl

theorem SampleBooks.step {a : PoolAction} (h : s.SampleBooks del leak) (hstep : s.step a = some t) :
    t.SampleBooks (del ++ deleted s t a) (leak ++ leaked s t a) := by
  have other : ∀ {b : SinkSystem.SinkAction}, b.calm = true → (s.sink.step b).map s.adopt = some t →
      t.SampleBooks (del ++ []) (leak ++ []) := by
    intro b hb hstep
    obtain ⟨u, hu, rfl⟩ := Option.map_eq_some_iff.mp hstep
    obtain ⟨hreceived, hlogs⟩ := calm_samples hb hu
    have hcalm := SinkSystem.calm_step hb hu
    exact h.adopt (Or.inl (hcalm.writer.trans h.empty)) hreceived hcalm.writeBuffer hlogs
  cases a with
  | writer id => exact h.writer hstep
  | createWriteBufferThread thread =>
    obtain rfl := Option.some.inj hstep
    refine h.adopt ?_ rfl rfl rfl
    cases thread with
    | true => exact Or.inr rfl
    | false => exact Or.inl rfl
  | call a =>
    cases a with
    | breakConnect => exact h.breakConnect hstep
    | breakWait timeout => exact h.breakWait hstep
    | receive env sample =>
      obtain ⟨u, hu, rfl⟩ := Option.map_eq_some_iff.mp hstep
      simp only [SinkSystem.step, Option.ite_none_right_eq_some] at hu
      have hbooks := h.receive hu.2
      rwa [← List.append_nil del, ← List.append_nil leak] at hbooks
    | writer =>
      obtain ⟨u, hu, -⟩ := Option.map_eq_some_iff.mp hstep
      simp only [SinkSystem.step, h.empty, Option.bind_none] at hu
      cases hu
    | reset | beginFlush | endFlush | endOfStream | notifyAllocator | stopServer | listener |
      clientOpen | clientClose => exact other rfl hstep

theorem SampleBooks.run {as : List PoolAction} (h : s.SampleBooks del leak)
    (hrun : Transition.run WriterPool.step s as = some t) :
    t.SampleBooks (del ++ along deleted s as) (leak ++ along leaked s as) := by
  induction as generalizing s del leak with
  | nil =>
    obtain rfl := Option.some.inj hrun
    rw [along, along, List.append_nil, List.append_nil]
    exact h
  | cons a as ih =>
    obtain ⟨u, hu, hrun⟩ := Transition.run_cons.mp hrun
    have hrest := ih (h.step hu) hrun
    rw [List.append_assoc, List.append_assoc] at hrest
    rw [along, along, hu]
    exact hrest

end

theorem sampleBooks_new (hThread2 : ThreadHandle) (rtRefPoint2 : Int64) :
    (new hThread2 rtRefPoint2).SampleBooks [] [] :=
  ⟨rfl, fun _ => rfl, fun _ => Nat.le_refl _, fun _ => Nat.le_refl _⟩

theorem sampleBooks_run {hThread2 : ThreadHandle} {rtRefPoint2 : Int64} {as : List PoolAction}
    {u : WriterPool} (hrun : run step (new hThread2 rtRefPoint2) as = some u) :
    u.SampleBooks (along deleted (new hThread2 rtRefPoint2) as)
      (along leaked (new hThread2 rtRefPoint2) as) := by
  have hbooks := (sampleBooks_new hThread2 rtRefPoint2).run hrun
  rwa [List.nil_append, List.nil_append] at hbooks

/-- **One owner.** What has been deleted, what has leaked, what the threads have and what
    is queued are together the captured samples, each once: none is deleted twice, or
    deleted while somebody has it, and none is lost but with a terminated thread. -/
theorem samples_owned_once (hThread2 : ThreadHandle) (rtRefPoint2 : Int64) (as : List PoolAction)
    {u : WriterPool} (hrun : run step (new hThread2 rtRefPoint2) as = some u) :
    (along deleted (new hThread2 rtRefPoint2) as ++ along leaked (new hThread2 rtRefPoint2) as ++
      u.held ++ u.queued).Perm (List.range u.sink.received) := by
  have hbooks := sampleBooks_run hrun
  refine List.perm_iff_count.mpr fun n => ?_
  have howned := hbooks.owned n
  rw [List.count_append, List.count_append, List.count_append, howned, List.count_range]

/-- A thread is terminated with the sample it has taken; the next one sends its own. -/
def terminatedWithSample : List PoolAction :=
  [.call (.receive SinkSystem.streaming emptySample), .writer 0, .writer 0, .writer 0,
    .call .breakConnect, .call (.breakWait true),
    .call (.receive SinkSystem.streaming emptySample), .writer 1, .writer 1, .writer 1]

theorem samples_owned_once_terminated :
    ∃ u, run step (new .null 0) terminatedWithSample = some u ∧
      along leaked (new .null 0) terminatedWithSample = [0] ∧ u.held = [1] ∧
      (along deleted (new .null 0) terminatedWithSample ++
        along leaked (new .null 0) terminatedWithSample ++ u.held ++ u.queued).Perm
          (List.range u.sink.received) :=
  ⟨_, rfl, rfl, rfl, samples_owned_once .null 0 terminatedWithSample rfl⟩

/-- **Sent once**, by however many threads: of each sample one header at most and one
    payload at most, to whatever client, and none while the sample is queued. -/
theorem sample_sent_once (hThread2 : ThreadHandle) (rtRefPoint2 : Int64) (as : List PoolAction)
    {u : WriterPool} (hrun : run step (new hThread2 rtRefPoint2) as = some u) (n : Nat) :
    u.sink.logs.flatten.countP (isHead n) + u.queued.count n ≤ 1 ∧
      u.sink.logs.flatten.countP (isBody n) + u.queued.count n ≤ 1 := by
  have hbooks := sampleBooks_run hrun
  have hheads := hbooks.heads n
  have hbodies := hbooks.bodies n
  have hone : (if n < u.sink.received then 1 else 0) ≤ 1 := by
    split
    · exact Nat.le_refl _
    · exact Nat.zero_le _
  omega

/-- Two threads write to one client, a step of the one and a step of the other. -/
def twoWriters : List PoolAction :=
  SinkSystem.connectClient.map .call ++
    [.call (.receive SinkSystem.streaming byteSample), .createWriteBufferThread true,
      .call (.receive SinkSystem.streaming byteSample)] ++
    (List.replicate 8 [.writer 0, .writer 1]).flatten

theorem sample_sent_once_twoWriters :
    ∃ u m n, run step (new .null 0) twoWriters = some u ∧
      u.sink.logs = [[.head (1, n), .head (0, m), .body (1, n), .body (0, m)]] ∧
      u.sink.logs.flatten.countP (isHead 1) + u.queued.count 1 ≤ 1 := by
  refine ⟨_, _, _, rfl, rfl, ?_⟩
  exact (sample_sent_once .null 0 twoWriters rfl 1).1

end WriterPool

end VirtualCaptureStream
