import Mathlib.Data.List.Basic
import VirtualCaptureStream.SinkFraming
import VirtualCaptureStream.SinkQueue

/- What a sink pin sends over its whole life, to all its clients. Samples are
   numbered as Receive gets them; `logs` holds what each client was sent, in the
   order in which the clients came, so `logs.flatten` is every write that reached
   anybody, in the order of the writes. Reset, flushes, terminated writers and
   changes of client can lose samples, but no write repeats one or comes out of
   order: `sent_once_in_order`. -/
namespace VirtualCaptureStream

/-- The sample a message belongs to, and the packet it was taken from. -/
def Sent.unit : Sent → Nat × Packet
  | .head u => u
  | .body u => u

/-- An earlier sample's message, or the header before its payload. -/
def Sent.Before (m m' : Sent) : Prop := m.unit.1 < m'.unit.1 ∨ ∃ u, m = .head u ∧ m' = .body u

/-- The captured samples under the numbers Receive gives them. -/
def numbered (captures : List MediaSampleX) : List Queued := captures.mapIdx fun i x => ⟨i, x⟩

/-- The message was built from the captured sample of its number. -/
def Sent.BuiltFrom (captures : List MediaSampleX) (m : Sent) : Prop :=
  ∃ x r r2, captures[m.unit.1]? = some x ∧ m.unit.2 = x.packet r r2

theorem numbered_concat (captures : List MediaSampleX) (x : MediaSampleX) :
    numbered (captures ++ [x]) = numbered captures ++ [⟨captures.length, x⟩] := by
  simp [numbered]

theorem numbered_length (captures : List MediaSampleX) :
    (numbered captures).length = captures.length := by
  simp [numbered]

/-- The first of the samples from `n` on is number `n`. -/
theorem numbered_drop_cons {captures : List MediaSampleX} {n : Nat} {x : Queued} {xs : List Queued}
    (h : (numbered captures).drop n = x :: xs) :
    x.id = n ∧ captures[n]? = some x.sample ∧ (numbered captures).drop (n + 1) = xs ∧
      n + 1 ≤ captures.length := by
  have hlt : n < captures.length := by
    by_contra hge
    rw [List.drop_eq_nil_of_le (by rw [numbered_length]; omega)] at h
    cases h
  have hn : n < (numbered captures).length := by rw [numbered_length]; exact hlt
  rw [List.drop_eq_getElem_cons hn] at h
  obtain ⟨hx, hxs⟩ := List.cons.inj h
  simp only [numbered, List.getElem_mapIdx] at hx
  subst hx
  exact ⟨rfl, List.getElem?_eq_getElem hlt, hxs, hlt⟩

theorem Sent.BuiltFrom.concat {captures : List MediaSampleX} {m : Sent}
    (h : m.BuiltFrom captures) (xs : List MediaSampleX) : m.BuiltFrom (captures ++ xs) := by
  obtain ⟨x, r, r2, hx, hp⟩ := h
  have hlt := (List.getElem?_eq_some_iff.mp hx).1
  exact ⟨x, r, r2, by rw [List.getElem?_append_left hlt]; exact hx, hp⟩

/-- Another message at the end of an ordered sequence. -/
theorem pairwise_before_concat {ms : List Sent} {m : Sent} (h : ms.Pairwise Sent.Before)
    (hlast : ∀ m' ∈ ms, m'.Before m) : (ms ++ [m]).Pairwise Sent.Before := by
  rw [List.pairwise_append]
  refine ⟨h, List.pairwise_singleton _ _, fun m' hm' m'' hm'' => ?_⟩
  rw [List.mem_singleton.mp hm'']
  exact hlast m' hm'

/-- What a label puts into the write buffer. -/
def Label.pushed : Label → List MediaSampleX
  | .push x => [x]
  | _ => []

/-- The sample in the writer's hand is the one before number `n`, and what was
    sent is of earlier samples, but for its own header. -/
def Stage.Hand (captures : List MediaSampleX) (n : Nat) (ms : List Sent) : Stage → Prop
  | .idle => ∀ m ∈ ms, m.unit.1 < n
  | .held x => n = x.id + 1 ∧ captures[x.id]? = some x.sample ∧ ∀ m ∈ ms, m.unit.1 < x.id
  | .built x p => n = x.id + 1 ∧ Sent.BuiltFrom captures (.head (x.id, p)) ∧
      ∀ m ∈ ms, m.unit.1 < x.id
  | .sent x p _ => n = x.id + 1 ∧ Sent.BuiltFrom captures (.head (x.id, p)) ∧
      ∀ m ∈ ms, m.unit.1 < x.id ∨ m = .head (x.id, p)

/-- Whatever the writer does next, the samples sent so far lie below `n`. -/
theorem Stage.Hand.lt {captures : List MediaSampleX} {n : Nat} {ms : List Sent} {stage : Stage}
    (h : stage.Hand captures n ms) {m : Sent} (hm : m ∈ ms) : m.unit.1 < n := by
  cases stage with
  | idle => exact h m hm
  | held x =>
    have hlt := h.2.2 m hm
    have hn := h.1
    omega
  | built x p =>
    have hlt := h.2.2 m hm
    have hn := h.1
    omega
  | sent x p c =>
    have hn := h.1
    rcases h.2.2 m hm with hlt | rfl
    · omega
    · show x.id < n
      omega

theorem Stage.Hand.concat {captures : List MediaSampleX} {n : Nat} {ms : List Sent} {stage : Stage}
    (h : stage.Hand captures n ms) (xs : List MediaSampleX) :
    stage.Hand (captures ++ xs) n ms := by
  cases stage with
  | idle => exact h
  | held x =>
    obtain ⟨hn, hx, hms⟩ := h
    have hlt := (List.getElem?_eq_some_iff.mp hx).1
    exact ⟨hn, by rw [List.getElem?_append_left hlt]; exact hx, hms⟩
  | built x p => exact ⟨h.1, h.2.1.concat xs, h.2.2⟩
  | sent x p c => exact ⟨h.1, h.2.1.concat xs, h.2.2⟩

namespace Core

/-- The books of a pin that has captured `captures` and taken the first `n` of
    them from the write buffer. -/
structure Ledger (captures : List MediaSampleX) (n : Nat) (k : Core) : Prop where
  received : k.received = captures.length
  taken : n ≤ captures.length
  queue : k.queue = (numbered captures).drop n
  newest : ∀ c, k.client = some c → c + 1 = k.logs.length
  hand : k.stage.Hand captures n k.logs.flatten
  built : ∀ m ∈ k.logs.flatten, m.BuiltFrom captures
  ordered : k.logs.flatten.Pairwise Sent.Before

/-- A write that reaches nobody. -/
theorem write_detached {k : Core} (hc : k.client = none) (m : Sent) :
    (k.write m).logs = k.logs := by
  simp only [write, deliver, hc]

/-- A write to the newest client adds its message at the end of all messages. -/
theorem write_newest {k : Core} {c : Nat} (hc : k.client = some c) (hlen : c + 1 = k.logs.length)
    (m : Sent) : (k.write m).logs.flatten = k.logs.flatten ++ [m] := by
  obtain ⟨logs, log, hlogs⟩ : ∃ logs log, k.logs = logs ++ [log] := by
    rcases List.eq_nil_or_concat' k.logs with hnil | ⟨logs, log, h⟩
    · rw [hnil] at hlen
      cases hlen
    · exact ⟨logs, log, h⟩
  have hlast : c = logs.length := by
    rw [hlogs, List.length_append] at hlen
    exact Nat.succ.inj hlen
  subst hlast
  simp only [write, deliver, hc, hlogs]
  simp [List.modify_eq_take_drop]

theorem Ledger.push {captures : List MediaSampleX} {n : Nat} {k : Core}
    (h : k.Ledger captures n) (x : MediaSampleX) :
    Ledger (captures ++ [x]) n
      { k with queue := k.queue ++ [⟨k.received, x⟩], received := k.received + 1 } := by
  refine ⟨?_, ?_, ?_, h.newest, h.hand.concat [x], fun m hm => (h.built m hm).concat [x],
    h.ordered⟩
  · rw [List.length_append]
    exact congrArg (· + 1) h.received
  · have := h.taken
    rw [List.length_append]
    omega
  · have hle : n ≤ (numbered captures).length := by rw [numbered_length]; exact h.taken
    show k.queue ++ [⟨k.received, x⟩] = _
    rw [numbered_concat, List.drop_append_of_le_length hle, h.queue, h.received]

/-- A message that comes after everything sent so far is written. -/
theorem Ledger.write {captures : List MediaSampleX} {n : Nat} {k : Core} {m : Sent}
    {stage : Stage} (h : k.Ledger captures n) (hm : m.BuiltFrom captures)
    (hlast : ∀ m' ∈ k.logs.flatten, m'.Before m)
    (hsame : stage.Hand captures n k.logs.flatten)
    (hmore : stage.Hand captures n (k.logs.flatten ++ [m])) :
    Ledger captures n { k.write m with stage := stage } := by
  have hnew : ∀ c, k.client = some c → c + 1 = (k.write m).logs.length := by
    intro c hc
    rw [write_length]
    exact h.newest c hc
  have hcases : (k.write m).logs.flatten = k.logs.flatten ∨
      (k.write m).logs.flatten = k.logs.flatten ++ [m] := by
    cases hc : k.client with
    | none => exact Or.inl (by rw [write_detached hc])
    | some c => exact Or.inr (write_newest hc (h.newest c hc) m)
  rcases hcases with hflat | hflat
  · refine ⟨h.received, h.taken, h.queue, hnew, ?_, ?_, ?_⟩
    · show stage.Hand captures n (k.write m).logs.flatten
      rw [hflat]
      exact hsame
    · show ∀ m' ∈ (k.write m).logs.flatten, _
      rw [hflat]
      exact h.built
    · show (k.write m).logs.flatten.Pairwise _
      rw [hflat]
      exact h.ordered
  · refine ⟨h.received, h.taken, h.queue, hnew, ?_, ?_, ?_⟩
    · show stage.Hand captures n (k.write m).logs.flatten
      rw [hflat]
      exact hmore
    · show ∀ m' ∈ (k.write m).logs.flatten, _
      rw [hflat]
      intro m' hm'
      rcases List.mem_append.mp hm' with hm' | hm'
      · exact h.built m' hm'
      · rw [List.mem_singleton.mp hm']
        exact hm
    · show (k.write m).logs.flatten.Pairwise _
      rw [hflat]
      exact pairwise_before_concat h.ordered hlast

/-- The header of the sample in the writer's hand. -/
theorem Ledger.head {captures : List MediaSampleX} {n : Nat} {k k' : Core}
    (h : k.Ledger captures n) (happ : k.apply .head = some k') : k'.Ledger captures n := by
  obtain ⟨x, p, hstage, rfl⟩ := apply_head happ
  have hhand := h.hand
  rw [hstage] at hhand
  obtain ⟨hn, hbuilt, hbelow⟩ := hhand
  have hlt : ∀ m ∈ k.logs.flatten ++ [.head (x.id, p)], m.unit.1 < n := by
    intro m hm
    rcases List.mem_append.mp hm with hm | hm
    · have := hbelow m hm
      omega
    · rw [List.mem_singleton.mp hm]
      show x.id < n
      omega
  refine h.write hbuilt (fun m hm => Or.inl (hbelow m hm)) ?_ ?_
  · cases p.hasPayload
    · exact fun m hm => hlt m (List.mem_append_left _ hm)
    · exact ⟨hn, hbuilt, fun m hm => Or.inl (hbelow m hm)⟩
  · cases p.hasPayload
    · exact hlt
    · refine ⟨hn, hbuilt, fun m hm => ?_⟩
      rcases List.mem_append.mp hm with hm | hm
      · exact Or.inl (hbelow m hm)
      · exact Or.inr (List.mem_singleton.mp hm)

/-- Its payload, behind the header or, if that reached nobody, behind what was sent
    before. -/
theorem Ledger.body {captures : List MediaSampleX} {n : Nat} {k k' : Core}
    (h : k.Ledger captures n) (happ : k.apply .body = some k') : k'.Ledger captures n := by
  obtain ⟨x, p, c, hstage, rfl⟩ := apply_body happ
  have hhand := h.hand
  rw [hstage] at hhand
  obtain ⟨hn, hbuilt, hbelow⟩ := hhand
  have hlt : ∀ m ∈ k.logs.flatten, m.unit.1 < n := by
    intro m hm
    rcases hbelow m hm with hm | rfl
    · omega
    · show x.id < n
      omega
  refine h.write hbuilt (fun m hm => ?_) hlt (fun m hm => ?_)
  · rcases hbelow m hm with hm | rfl
    · exact Or.inl hm
    · exact Or.inr ⟨(x.id, p), rfl, rfl⟩
  · rcases List.mem_append.mp hm with hm | hm
    · exact hlt m hm
    · rw [List.mem_singleton.mp hm]
      show x.id < n
      omega

/-- A label that leaves logs, queue and count alone. -/
theorem Ledger.of_stage {captures : List MediaSampleX} {n : Nat} {k k' : Core}
    (h : k.Ledger captures n) (hq : k'.queue = k.queue) (hr : k'.received = k.received)
    (hl : k'.logs = k.logs) (hc : k'.client = k.client)
    (hstage : k'.stage.Hand captures n k.logs.flatten) : k'.Ledger captures n := by
  refine ⟨hr.trans h.received, h.taken, hq.trans h.queue, ?_, ?_, ?_, ?_⟩
  · rw [hc, hl]
    exact h.newest
  · rw [hl]
    exact hstage
  · rw [hl]
    exact h.built
  · rw [hl]
    exact h.ordered

/-- A client comes: nothing is sent yet to the newest. -/
theorem Ledger.attach {captures : List MediaSampleX} {n : Nat} {k : Core}
    (h : k.Ledger captures n) :
    Ledger captures n { k with client := some k.logs.length, logs := k.logs ++ [[]] } := by
  have hflat : (k.logs ++ [[]]).flatten = k.logs.flatten := by simp
  refine ⟨h.received, h.taken, h.queue, fun c hc => ?_, ?_, ?_, ?_⟩
  · rw [← Option.some.inj hc, List.length_append]
    rfl
  · show k.stage.Hand captures n (k.logs ++ [[]]).flatten
    rw [hflat]
    exact h.hand
  · show ∀ m ∈ (k.logs ++ [[]]).flatten, _
    rw [hflat]
    exact h.built
  · show (k.logs ++ [[]]).flatten.Pairwise _
    rw [hflat]
    exact h.ordered

/-- The writer takes number `n`. -/
theorem Ledger.pop {captures : List MediaSampleX} {n : Nat} {k k' : Core}
    (h : k.Ledger captures n) (happ : k.apply .pop = some k') : k'.Ledger captures (n + 1) := by
  obtain ⟨x, xs, hstage, hq, rfl⟩ := apply_pop happ
  obtain ⟨hid, hx, hxs, hle⟩ := numbered_drop_cons (h.queue.symm.trans hq)
  have hhand := h.hand
  rw [hstage] at hhand
  refine ⟨h.received, hle, hxs.symm, h.newest, ⟨by rw [hid], by rw [hid]; exact hx, ?_⟩,
    h.built, h.ordered⟩
  intro m hm
  rw [hid]
  exact hhand m hm

theorem Ledger.apply {captures : List MediaSampleX} {n : Nat} {k k' : Core} {l : Label}
    (h : k.Ledger captures n) (happ : k.apply l = some k') :
    ∃ n', k'.Ledger (captures ++ l.pushed) n' := by
  have hsame : captures ++ [] = captures := List.append_nil captures
  cases l with
  | push x =>
    obtain rfl := Option.some.inj happ
    exact ⟨n, h.push x⟩
  | quiet =>
    obtain rfl := Option.some.inj happ
    exact ⟨n, hsame.symm ▸ h⟩
  | attach =>
    obtain rfl := Option.some.inj happ
    exact ⟨n, hsame.symm ▸ h.attach⟩
  | detach =>
    obtain rfl := Option.some.inj happ
    have hgone : Ledger captures n { k with client := none } :=
      ⟨h.received, h.taken, h.queue, nofun, h.hand, h.built, h.ordered⟩
    exact ⟨n, hsame.symm ▸ hgone⟩
  | pop => exact ⟨n + 1, hsame.symm ▸ h.pop happ⟩
  | build r r2 =>
    obtain ⟨x, hstage, rfl⟩ := apply_build happ
    have hhand := h.hand
    rw [hstage] at hhand
    have hbuilt : Ledger captures n { k with stage := .built x (x.sample.packet r r2) } :=
      h.of_stage rfl rfl rfl rfl ⟨hhand.1, ⟨x.sample, r, r2, hhand.2.1, rfl⟩, hhand.2.2⟩
    exact ⟨n, hsame.symm ▸ hbuilt⟩
  | skip =>
    obtain ⟨x, hstage, rfl⟩ := apply_skip happ
    have hidle : Ledger captures n { k with stage := .idle } :=
      h.of_stage rfl rfl rfl rfl fun m hm => h.hand.lt hm
    exact ⟨n, hsame.symm ▸ hidle⟩
  | head => exact ⟨n, hsame.symm ▸ h.head happ⟩
  | body => exact ⟨n, hsame.symm ▸ h.body happ⟩
  | drop =>
    -- a terminated writer takes its sample with it
    have hidle : Ledger captures n k' := by
      rcases apply_drop happ with ⟨x, p, c, -, rfl⟩ | rfl
      · exact h.of_stage rfl rfl rfl rfl fun m hm => h.hand.lt hm
      · exact h.of_stage rfl rfl rfl rfl fun m hm => h.hand.lt hm
    exact ⟨n, hsame.symm ▸ hidle⟩

theorem Ledger.run {captures : List MediaSampleX} {n : Nat} {k k' : Core} {ls : List Label}
    (h : k.Ledger captures n) (hrun : Transition.run Core.apply k ls = some k') :
    ∃ n', k'.Ledger (captures ++ ls.flatMap Label.pushed) n' := by
  induction ls generalizing k captures n with
  | nil =>
    obtain rfl := Option.some.inj hrun
    rw [List.flatMap_nil, List.append_nil]
    exact ⟨n, h⟩
  | cons l ls ih =>
    obtain ⟨t, ht, hrun⟩ := Transition.run_cons.mp hrun
    obtain ⟨m, hm⟩ := h.apply ht
    obtain ⟨n', hn'⟩ := ih hm hrun
    rw [List.append_assoc] at hn'
    exact ⟨n', hn'⟩

end Core

namespace SinkSystem

open Transition

/-- The sample a call captures. -/
def captured : SinkAction → List MediaSampleX
  | .receive env sample => [MediaSampleX.new env.capture sample]
  | _ => []

/-- What Receive has captured in a run, in the order of the calls. -/
def captures (as : List SinkAction) : List MediaSampleX := as.flatMap captured

theorem isLabel_pushed {s : SinkSystem} {a : SinkAction} {l : Label} (h : IsLabel s a l) :
    l.pushed = captured a := by
  cases a with
  | receive env sample =>
    obtain ⟨x, rfl⟩ := isLabel_receive h
    obtain ⟨env', sample', ha, rfl⟩ := h
    obtain ⟨rfl, rfl⟩ := SinkAction.receive.inj ha
    rfl
  | _ =>
    cases l with
    | push x =>
      obtain ⟨env', sample', ha, -⟩ := h
      cases ha
    | _ => rfl

theorem ledger_new (hThread2 : ThreadHandle) (rtRefPoint2 : Int64) :
    (new hThread2 rtRefPoint2).core.Ledger [] 0 := by
  refine ⟨rfl, Nat.le_refl 0, rfl, nofun, ?_, ?_, ?_⟩
  · intro m hm
    cases hm
  · intro m hm
    cases hm
  · exact List.Pairwise.nil

/-- A step of the system goes into the books. -/
theorem ledger_step {s t : SinkSystem} {a : SinkAction} {cs : List MediaSampleX} {n : Nat}
    (hs : s.life.Sound) (h : s.core.Ledger cs n) (hstep : s.step a = some t) :
    t.life.Sound ∧ ∃ n', t.core.Ledger (cs ++ captured a) n' := by
  obtain ⟨l, hl, happ⟩ := step_refines hs hstep
  refine ⟨hs.step (step_life hstep), ?_⟩
  rw [← isLabel_pushed hl]
  exact h.apply happ

/-- A run of the system is a run of its core, which is pushed what Receive captures. -/
theorem run_refines {s u : SinkSystem} {as : List SinkAction} (hs : s.life.Sound)
    (hrun : run step s as = some u) :
    ∃ ls, run Core.apply s.core ls = some u.core ∧ ls.length = as.length ∧
      ls.flatMap Label.pushed = captures as := by
  induction as generalizing s with
  | nil =>
    obtain rfl := Option.some.inj hrun
    exact ⟨[], rfl, rfl, rfl⟩
  | cons a as ih =>
    obtain ⟨t, ht, hrun⟩ := run_cons.mp hrun
    obtain ⟨l, hl, happ⟩ := step_refines hs ht
    obtain ⟨ls, hls, hlen, hpushed⟩ := ih (hs.step (step_life ht)) hrun
    refine ⟨l :: ls, run_cons.mpr ⟨_, happ, hls⟩, ?_, ?_⟩
    · rw [List.length_cons, List.length_cons, hlen]
    · rw [List.flatMap_cons, hpushed, isLabel_pushed hl]
      rfl

/-- **No sample is sent twice or out of order**: in every run of the pin's threads,
    its callers and any number of clients, all messages that reached a client, one
    client after the other, are of captured samples, in the order of Receive, and a
    payload comes directly behind its header if that reached anybody; what is still
    queued was captured after all of them, none missing. -/
theorem sent_once_in_order (hThread2 : ThreadHandle) (rtRefPoint2 : Int64) (as : List SinkAction)
    (u : SinkSystem) (hrun : run step (new hThread2 rtRefPoint2) as = some u) :
    u.logs.flatten.Pairwise Sent.Before ∧
      (∀ m ∈ u.logs.flatten, m.BuiltFrom (captures as)) ∧
      ∃ n, u.pin.writeBuffer = (numbered (captures as)).drop n ∧
        ∀ m ∈ u.logs.flatten, m.unit.1 < n := by
  obtain ⟨ls, hls, -, hpushed⟩ := run_refines (life_new hThread2 rtRefPoint2) hrun
  obtain ⟨n, hn⟩ := (ledger_new hThread2 rtRefPoint2).run hls
  rw [List.nil_append, hpushed] at hn
  exact ⟨hn.ordered, hn.built, n, hn.queue, fun m hm => hn.hand.lt hm⟩

/-- A header to one client and its payload to the next. -/
theorem sent_once_in_order_two_clients :
    ∃ u m, run step (new .null 0) (connectClient ++ writeHeader ++ changeClient ++ [.writer]) =
        some u ∧ u.logs = [[.head m], [.body m]] ∧ u.logs.flatten.Pairwise Sent.Before := by
  have hrun : ∃ u m, run step (new .null 0)
      (connectClient ++ writeHeader ++ changeClient ++ [.writer]) = some u ∧
        u.logs = [[.head m], [.body m]] := ⟨_, _, rfl, rfl⟩
  obtain ⟨u, m, hu, hlogs⟩ := hrun
  exact ⟨u, m, hu, hlogs, (sent_once_in_order .null 0 _ u hu).1⟩

/-- **The sink is a queue machine**: whatever the locks, the flags, the three threads and the
    callers do, each run from a new pin is, step for step, a run of the core, in which samples
    only go from the queue through the writer's hand to the client attached at the time. -/
theorem runs_refine (hThread2 : ThreadHandle) (rtRefPoint2 : Int64) (as : List SinkAction)
    (u : SinkSystem) (hrun : run step (new hThread2 rtRefPoint2) as = some u) :
    ∃ ls, run Core.apply ⟨[], 0, .idle, [], none, []⟩ ls = some u.core ∧ ls.length = as.length ∧
      ls.flatMap Label.pushed = captures as :=
  run_refines (life_new hThread2 rtRefPoint2) hrun

/-- Two clients, and the queue's one sample. -/
theorem runs_refine_two_clients :
    ∃ u ls, run step (new .null 0) (connectClient ++ writeHeader ++ changeClient ++ [.writer]) =
        some u ∧ run Core.apply ⟨[], 0, .idle, [], none, []⟩ ls = some u.core := by
  obtain ⟨u, hu⟩ : ∃ u, run step (new .null 0)
      (connectClient ++ writeHeader ++ changeClient ++ [.writer]) = some u := ⟨_, rfl⟩
  obtain ⟨ls, hls, -, -⟩ := runs_refine .null 0 _ u hu
  exact ⟨u, ls, hu, hls⟩

end SinkSystem

end VirtualCaptureStream
