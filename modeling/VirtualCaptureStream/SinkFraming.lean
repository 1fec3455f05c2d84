import VirtualCaptureStream.SinkCore

/- What each client of the data pipe is sent. The header and the payload of a
   sample are two writes, each to whatever client is attached at the time.
   `client_streams_framed_iff` says over runs of all threads when every client gets
   whole header and payload pairs, possibly cut off at the end: a payload goes to
   the client that took its header, and no header goes to a client that waits for
   the payload of a terminated writer. -/
namespace VirtualCaptureStream

namespace Core

open Framing

/-- Every client's messages are whole pairs, possibly cut off at the end. -/
def AllFramed (k : Core) : Prop := ∀ (c : Nat) (log : List Sent), k.logs[c]? = some log →
  Framed sentHasPayload log

/-- What the attached client has been sent, for each stage of the writer. -/
def Fits (k : Core) (c : Nat) (log : List Sent) : Prop :=
  match k.stage with
  | .sent x p sentTo => c ∉ k.cut ∧
      ((sentTo = some c ∧ OpenAt sentHasPayload (x.id, p) log) ∨ (sentTo ≠ some c ∧ log = []))
  | _ => (c ∉ k.cut ∧ Whole sentHasPayload log) ∨
      (c ∈ k.cut ∧ ∃ m, OpenAt sentHasPayload m log)

/-- The clients the core speaks of have attached. -/
structure Placed (k : Core) : Prop where
  client_lt : ∀ c, k.client = some c → c < k.logs.length
  sent_lt : ∀ x p c, k.stage = .sent x p (some c) → c < k.logs.length
  cut_lt : ∀ c ∈ k.cut, c < k.logs.length

/-- The invariant behind the framing of one client's messages. -/
structure Tidy (c : Nat) (k : Core) : Prop where
  framed : ∀ log, k.logs[c]? = some log → Framed sentHasPayload log
  attached : k.client = some c → ∀ log, k.logs[c]? = some log → k.Fits c log

/-- The next write, a header or a payload, may go to the client if it is the one
    that is attached. -/
def Untorn (c : Nat) (k : Core) : Prop :=
  match k.stage with
  | .built _ _ => k.client = some c → c ∉ k.cut
  | .sent _ _ sentTo => k.client = some c → sentTo = some c
  | _ => True

theorem Placed.mono {k k' : Core} (hk : k.Placed) (hlen : k.logs.length ≤ k'.logs.length)
    (hclient : ∀ c, k'.client = some c → k.client = some c ∨ c < k'.logs.length)
    (hstage : ∀ x p c, k'.stage = .sent x p (some c) →
      k.stage = .sent x p (some c) ∨ k.client = some c)
    (hcut : ∀ c ∈ k'.cut, c ∈ k.cut ∨ ∃ x p, k.stage = .sent x p (some c)) : k'.Placed := by
  refine ⟨fun c hc => ?_, fun x p c hc => ?_, fun c hc => ?_⟩
  · rcases hclient c hc with h | h
    · exact Nat.lt_of_lt_of_le (hk.client_lt c h) hlen
    · exact h
  · apply Nat.lt_of_lt_of_le _ hlen
    rcases hstage x p c hc with h | h
    · exact hk.sent_lt x p c h
    · exact hk.client_lt c h
  · apply Nat.lt_of_lt_of_le _ hlen
    rcases hcut c hc with h | ⟨x, p, h⟩
    · exact hk.cut_lt c h
    · exact hk.sent_lt x p c h

theorem Placed.apply {k k' : Core} {l : Label} (hk : k.Placed) (h : k.apply l = some k') :
    k'.Placed := by
  cases l with
  | quiet =>
    obtain rfl := Option.some.inj h
    exact hk
  | attach =>
    obtain rfl := Option.some.inj h
    refine hk.mono ?_ (fun c hc => Or.inr ?_) (fun x p c hc => Or.inl hc) (fun c hc => Or.inl hc)
    · simp
    · obtain rfl := Option.some.inj hc
      show k.logs.length < (k.logs ++ [[]]).length
      rw [List.length_append]
      exact Nat.lt_succ_self _
  | detach =>
    obtain rfl := Option.some.inj h
    exact ⟨fun c hc => (by cases hc), hk.sent_lt, hk.cut_lt⟩
  | push sample =>
    obtain rfl := Option.some.inj h
    exact ⟨hk.client_lt, hk.sent_lt, hk.cut_lt⟩
  | pop =>
    obtain ⟨x, xs, -, -, rfl⟩ := apply_pop h
    exact ⟨hk.client_lt, fun x p c hc => (by cases hc), hk.cut_lt⟩
  | build r r2 =>
    obtain ⟨x, -, rfl⟩ := apply_build h
    exact ⟨hk.client_lt, fun x p c hc => (by cases hc), hk.cut_lt⟩
  | skip =>
    obtain ⟨x, -, rfl⟩ := apply_skip h
    exact ⟨hk.client_lt, fun x p c hc => (by cases hc), hk.cut_lt⟩
  | head =>
    obtain ⟨x, p, -, rfl⟩ := apply_head h
    refine hk.mono ?_ (fun c hc => Or.inl hc) (fun x p c hc => Or.inr ?_) (fun c hc => Or.inl hc)
    · exact Nat.le_of_eq (write_length k _).symm
    · dsimp only at hc
      split at hc
      · exact (Stage.sent.inj hc).2.2
      · cases hc
  | body =>
    obtain ⟨x, p, sentTo, -, rfl⟩ := apply_body h
    refine hk.mono ?_ (fun c hc => Or.inl hc) (fun x p c hc => (by cases hc))
      (fun c hc => Or.inl hc)
    exact Nat.le_of_eq (write_length k _).symm
  | drop =>
    rcases apply_drop h with ⟨x, p, d, hs, rfl⟩ | rfl
    · refine hk.mono (Nat.le_refl _) (fun c hc => Or.inl hc) (fun x p c hc => (by cases hc))
        (fun c hc => ?_)
      rcases List.mem_cons.mp hc with rfl | hc
      · exact Or.inr ⟨x, p, hs⟩
      · exact Or.inl hc
    · exact ⟨hk.client_lt, fun x p c hc => (by cases hc), hk.cut_lt⟩

/-! One lemma for each label, about one client. -/

section
variable {c : Nat} {k k' : Core}

/-- A client that is not attached keeps what it has. -/
theorem Tidy.of_unattached (hk : k.Tidy c) (hlog : ∀ log, k'.logs[c]? = some log →
    k.logs[c]? = some log ∨ log = []) (hclient : k'.client ≠ some c) : k'.Tidy c := by
  refine ⟨fun log h => ?_, fun h => absurd h hclient⟩
  rcases hlog log h with h | rfl
  · exact hk.framed log h
  · exact whole_nil.framed

/-- Away from a sent header the invariant does not look at the stage. -/
theorem Tidy.of_stage (hk : k.Tidy c) (h : ∀ x p d, k.stage ≠ .sent x p d)
    (h' : ∀ x p d, k'.stage ≠ .sent x p d) (hlogs : k'.logs = k.logs)
    (hclient : k'.client = k.client) (hcut : k'.cut = k.cut) : k'.Tidy c := by
  refine ⟨fun log hlog => hk.framed log (hlogs ▸ hlog), fun hc log hlog => ?_⟩
  have hfits := hk.attached (hclient ▸ hc) log (hlogs ▸ hlog)
  unfold Fits at hfits ⊢
  rw [hcut]
  cases hs : k.stage with
  | sent x p d => exact absurd hs (h x p d)
  | _ =>
    rw [hs] at hfits
    cases hs' : k'.stage with
    | sent x p d => exact absurd hs' (h' x p d)
    | _ => exact hfits

theorem Tidy.attach (hk : k.Tidy c) (hp : k.Placed) :
    ({ k with client := some k.logs.length, logs := k.logs ++ [[]] } : Core).Tidy c := by
  have hlog : ∀ log, (k.logs ++ [[]])[c]? = some log → k.logs[c]? = some log ∨ log = [] := by
    intro log h
    rw [List.getElem?_append] at h
    split at h
    · exact Or.inl h
    · obtain ⟨_, h⟩ := List.getElem?_eq_some_iff.mp h
      exact Or.inr (by rw [← h, List.getElem_singleton])
  by_cases hc : c = k.logs.length
  · -- the new client: it is in no cut, and took no header
    subst hc
    have hcut : k.logs.length ∉ k.cut := fun h => Nat.lt_irrefl _ (hp.cut_lt _ h)
    have hnew : ∀ log, (k.logs ++ [[]])[k.logs.length]? = some log → log = [] := by
      intro log h
      rcases hlog log h with h | h
      · exact absurd (List.getElem?_eq_some_iff.mp h).1 (Nat.lt_irrefl _)
      · exact h
    refine ⟨fun log h => hnew log h ▸ whole_nil.framed, fun _ log h => ?_⟩
    obtain rfl := hnew log h
    unfold Fits
    dsimp only
    cases hs : k.stage with
    | sent x p d =>
      refine ⟨hcut, Or.inr ⟨?_, rfl⟩⟩
      intro hd
      exact Nat.lt_irrefl _ (hp.sent_lt x p _ (hd ▸ hs))
    | _ => exact Or.inl ⟨hcut, whole_nil⟩
  · exact hk.of_unattached hlog (fun h => hc (Option.some.inj h).symm)

/-- A terminated writer leaves the client of its header with an open pair. -/
theorem Tidy.drop (hk : k.Tidy c) (h : k.apply .drop = some k') : k'.Tidy c := by
  unfold apply at h
  dsimp only at h
  split at h
  · rename_i x p d hs
    obtain rfl := Option.some.inj h
    refine ⟨hk.framed, fun hc log hlog => ?_⟩
    have hfits := hk.attached hc log hlog
    unfold Fits at hfits ⊢
    rw [hs] at hfits
    obtain ⟨hcut, hcase⟩ := hfits
    rcases hcase with ⟨hsent, hopen⟩ | ⟨hsent, rfl⟩
    · -- the client of the header now waits for a payload that will not come
      obtain rfl := Option.some.inj hsent
      exact Or.inr ⟨List.mem_cons_self, _, hopen⟩
    · -- a client that came after the header has got nothing yet
      refine Or.inl ⟨?_, whole_nil⟩
      intro hmem
      rcases List.mem_cons.mp hmem with e | hmem
      · exact hsent (congrArg some e.symm)
      · exact hcut hmem
  · rename_i hno
    obtain rfl := Option.some.inj h
    refine ⟨hk.framed, fun hc log hlog => ?_⟩
    have hfits := hk.attached hc log hlog
    unfold Fits at hfits ⊢
    cases hs : k.stage with
    | sent x p d =>
      rw [hs] at hfits
      obtain ⟨hcut, hcase⟩ := hfits
      rcases hcase with ⟨rfl, _⟩ | ⟨_, rfl⟩
      · exact absurd hs (hno x p c)
      · exact Or.inl ⟨hcut, whole_nil⟩
    | _ =>
      rw [hs] at hfits
      exact hfits

/-! The two writes. -/

theorem Placed.log (hp : k.Placed) (hc : k.client = some c) : ∃ log, k.logs[c]? = some log :=
  ⟨_, List.getElem?_eq_getElem (hp.client_lt c hc)⟩

/-- A message to somebody else. -/
theorem Tidy.write_other (hk : k.Tidy c) (hc : k.client ≠ some c) (m : Sent) (stage : Stage) :
    ({ k.write m with stage := stage } : Core).Tidy c := by
  refine hk.of_unattached (fun log hlog => Or.inl ?_) hc
  rw [← Core.write_other hc m]
  exact hlog

/-- A message to the client that its stream goes on with. -/
theorem Tidy.write_attached {log : List Sent} {m : Sent} {stage : Stage} (hc : k.client = some c)
    (hlog : k.logs[c]? = some log) (hframed : Framed sentHasPayload (log ++ [m]))
    (hfits : Fits { k.write m with stage := stage } c (log ++ [m])) :
    ({ k.write m with stage := stage } : Core).Tidy c := by
  have hw := Core.write_attached hc hlog m
  refine ⟨fun l hl => ?_, fun _ l hl => ?_⟩
  · obtain rfl := Option.some.inj (hw.symm.trans hl)
    exact hframed
  · obtain rfl := Option.some.inj (hw.symm.trans hl)
    exact hfits

/-- A header leaves the client's stream framed exactly when it is not torn, and
    then the invariant holds again. -/
theorem Tidy.head (hk : k.Tidy c) (hp : k.Placed) (h : k.apply .head = some k') :
    (k.Untorn c → k'.Tidy c) ∧
      ((∀ log, k'.logs[c]? = some log → Framed sentHasPayload log) → k.Untorn c) := by
  obtain ⟨x, p, hs, rfl⟩ := apply_head h
  have huntorn : k.Untorn c ↔ (k.client = some c → c ∉ k.cut) := by
    unfold Untorn
    rw [hs]
  rw [huntorn]
  by_cases hcl : k.client = some c
  swap
  · exact ⟨fun _ => hk.write_other hcl _ _, fun _ h => absurd h hcl⟩
  obtain ⟨log, hlog⟩ := hp.log hcl
  have hfits := hk.attached hcl log hlog
  unfold Fits at hfits
  rw [hs] at hfits
  refine ⟨fun hun => ?_, fun hall _ hin => ?_⟩
  · have hcut : c ∉ k.cut := hun hcl
    have hwhole : Whole sentHasPayload log := by
      rcases hfits with ⟨_, hw⟩ | ⟨hin, _⟩
      · exact hw
      · exact absurd hin hcut
    cases hpay : p.hasPayload
    · have hdone : Whole sentHasPayload (log ++ [.head (x.id, p)]) := hwhole.snoc_head hpay
      exact Tidy.write_attached hcl hlog hdone.framed (Or.inl ⟨hcut, hdone⟩)
    · have hopen : OpenAt sentHasPayload (x.id, p) (log ++ [.head (x.id, p)]) :=
        hwhole.open_head hpay
      exact Tidy.write_attached hcl hlog hopen.framed ⟨hcut, Or.inl ⟨hcl, hopen⟩⟩
  · -- a header behind the open pair of a terminated writer
    have hframed := hall _ (Core.write_attached hcl hlog (.head (x.id, p)))
    rcases hfits with ⟨hcut, _⟩ | ⟨_, m, hopen⟩
    · exact hcut hin
    · exact hopen.not_framed_head hframed

/-- The same of a payload. -/
theorem Tidy.body (hk : k.Tidy c) (hp : k.Placed) (h : k.apply .body = some k') :
    (k.Untorn c → k'.Tidy c) ∧
      ((∀ log, k'.logs[c]? = some log → Framed sentHasPayload log) → k.Untorn c) := by
  obtain ⟨x, p, sentTo, hs, rfl⟩ := apply_body h
  have huntorn : k.Untorn c ↔ (k.client = some c → sentTo = some c) := by
    unfold Untorn
    rw [hs]
  rw [huntorn]
  by_cases hcl : k.client = some c
  swap
  · exact ⟨fun _ => hk.write_other hcl _ _, fun _ h => absurd h hcl⟩
  obtain ⟨log, hlog⟩ := hp.log hcl
  have hfits := hk.attached hcl log hlog
  unfold Fits at hfits
  rw [hs] at hfits
  obtain ⟨hcut, hcase⟩ := hfits
  refine ⟨fun hun => ?_, fun hall _ => ?_⟩
  · have hopen : OpenAt sentHasPayload (x.id, p) log := by
      rcases hcase with ⟨_, hopen⟩ | ⟨hne, _⟩
      · exact hopen
      · exact absurd (hun hcl) hne
    have hdone := hopen.snoc_body
    exact Tidy.write_attached hcl hlog hdone.framed (Or.inl ⟨hcut, hdone⟩)
  · -- a payload to a client that has not got its header is its first message
    have hframed := hall _ (Core.write_attached hcl hlog (.body (x.id, p)))
    rcases hcase with ⟨hsent, _⟩ | ⟨_, rfl⟩
    · exact hsent
    · exact absurd hframed (not_framed_body _ _)

/-- A label keeps the invariant unless it is a torn write to the client, and a torn
    write leaves a stream that is not framed. -/
theorem Tidy.apply {l : Label} (hk : k.Tidy c) (hp : k.Placed) (h : k.apply l = some k') :
    ((l = .head ∨ l = .body → k.Untorn c) → k'.Tidy c) ∧
      ((∀ log, k'.logs[c]? = some log → Framed sentHasPayload log) →
        (l = .head ∨ l = .body) → k.Untorn c) := by
  cases l with
  | head =>
    have hhead := hk.head hp h
    exact ⟨fun hun => hhead.1 (hun (Or.inl rfl)), fun hall _ => hhead.2 hall⟩
  | body =>
    have hbody := hk.body hp h
    exact ⟨fun hun => hbody.1 (hun (Or.inr rfl)), fun hall _ => hbody.2 hall⟩
  | quiet =>
    obtain rfl := Option.some.inj h
    exact ⟨fun _ => hk, fun _ hl => by simp at hl⟩
  | attach =>
    obtain rfl := Option.some.inj h
    exact ⟨fun _ => hk.attach hp, fun _ hl => by simp at hl⟩
  | detach =>
    obtain rfl := Option.some.inj h
    exact ⟨fun _ => hk.of_unattached (fun _ h => Or.inl h) nofun, fun _ hl => by simp at hl⟩
  | push sample =>
    obtain rfl := Option.some.inj h
    exact ⟨fun _ => ⟨hk.framed, hk.attached⟩, fun _ hl => by simp at hl⟩
  | drop => exact ⟨fun _ => hk.drop h, fun _ hl => by simp at hl⟩
  | pop =>
    obtain ⟨x, xs, hs, -, rfl⟩ := apply_pop h
    refine ⟨fun _ => hk.of_stage ?_ ?_ rfl rfl rfl, fun _ hl => by simp at hl⟩
    · simp [hs]
    · simp
  | build r r2 =>
    obtain ⟨x, hs, rfl⟩ := apply_build h
    refine ⟨fun _ => hk.of_stage ?_ ?_ rfl rfl rfl, fun _ hl => by simp at hl⟩
    · simp [hs]
    · simp
  | skip =>
    obtain ⟨x, hs, rfl⟩ := apply_skip h
    refine ⟨fun _ => hk.of_stage ?_ ?_ rfl rfl rfl, fun _ hl => by simp at hl⟩
    · simp [hs]
    · simp

end

end Core

namespace SinkSystem

open Transition

/-- Every client's messages are whole header and payload pairs, possibly cut off at
    the end. -/
def ClientsFramed (s : SinkSystem) : Prop := s.core.AllFramed

/-- A step of the writer that writes a header finds no client that still waits for
    the payload of a terminated writer; one that writes a payload finds nobody but
    the client that took the header. -/
def WritesUntorn (s : SinkSystem) (a : SinkAction) : Prop := Writes s a → ∀ c, s.core.Untorn c

theorem isLabel_writes {s : SinkSystem} {a : SinkAction} {l : Label} (h : IsLabel s a l) :
    Writes s a ↔ l = .head ∨ l = .body := by
  cases l with
  | head => exact iff_of_true h (Or.inl rfl)
  | body => exact iff_of_true h (Or.inr rfl)
  | quiet => exact iff_of_false h.1 (by simp)
  | pop => exact iff_of_false h.2.1 (by simp)
  | build r r2 => exact iff_of_false h.2 (by simp)
  | skip => exact iff_of_false h.2.1 (by simp)
  | push x =>
    obtain ⟨env, sample, rfl, _⟩ := h
    exact iff_of_false id (by simp)
  | drop =>
    obtain ⟨timeout, rfl⟩ := h
    exact iff_of_false id (by simp)
  | attach =>
    rcases h with rfl | ⟨timeout, rfl⟩ <;> exact iff_of_false id (by simp)
  | detach =>
    rcases h with ⟨rfl, _⟩ | ⟨timeout, rfl⟩ | ⟨p, created, thread, rfl, _⟩ | rfl <;>
      exact iff_of_false id (by simp)

/-- What holds in every state of a run without torn writes. -/
structure Intact (s : SinkSystem) : Prop where
  life : s.life.Sound
  placed : s.core.Placed
  tidy : ∀ c, s.core.Tidy c

theorem intact_step {s t : SinkSystem} {a : SinkAction} (hs : s.Intact)
    (hstep : s.step a = some t) (hC : WritesUntorn s a) : t.Intact := by
  obtain ⟨l, hl, happ⟩ := step_refines hs.life hstep
  refine ⟨hs.life.step (step_life hstep), hs.placed.apply happ, fun c => ?_⟩
  exact ((hs.tidy c).apply hs.placed happ).1 fun hwr => hC ((isLabel_writes hl).mpr hwr) c

theorem intact_new (hThread2 : ThreadHandle) (rtRefPoint2 : Int64) :
    (new hThread2 rtRefPoint2).Intact := by
  refine ⟨life_new hThread2 rtRefPoint2, ⟨nofun, nofun, nofun⟩, fun c => ⟨nofun, nofun⟩⟩

/-- **The writer's framing over runs**: however the writer, the listener,
    StopServer, the streaming and application threads and the clients interleave,
    all clients get framed streams exactly when no write of the run is torn. -/
theorem client_streams_framed_iff (hThread2 : ThreadHandle) (rtRefPoint2 : Int64)
    (as : List SinkAction) (u : SinkSystem)
    (hrun : run step (new hThread2 rtRefPoint2) as = some u) :
    Always step ClientsFramed (new hThread2 rtRefPoint2) as ↔
      Meets step WritesUntorn (new hThread2 rtRefPoint2) as := by
  refine always_iff_meets_of_invariant (I := Intact) ?_ ?_ ?_ as (new hThread2 rtRefPoint2) u
    (intact_new hThread2 rtRefPoint2) hrun
  · intro s hs c
    exact (hs.tidy c).framed
  · intro s a t hs hstep hC
    exact intact_step hs hstep fun hwr c => hC hwr c
  · intro s a t hs hstep hP hwr c
    obtain ⟨l, hl, happ⟩ := step_refines hs.life hstep
    exact ((hs.tidy c).apply hs.placed happ).2 (hP c) ((isLabel_writes hl).mp hwr)

/-- The writer takes a sample and writes its header to the client. -/
def writeHeader : List SinkAction := .receive streaming byteSample :: List.replicate 7 .writer

/-- The client closes the pipe, the listener disconnects it and waits again, and
    another client opens it. -/
def changeClient : List SinkAction :=
  [.clientClose, .listener, .listener, .listener, .listener, .listener, .listener, .listener,
    .listener, .clientOpen]

/-- The first message the second client gets is the payload of a sample whose header
    went to the first. -/
theorem second_client_gets_payload :
    ∃ u, run step (new .null 0) (connectClient ++ writeHeader ++ changeClient ++ [.writer]) =
        some u ∧ (∃ m, u.logs[1]? = some [.body m]) ∧ ¬ ClientsFramed u := by
  have hrun : ∃ u, run step (new .null 0)
      (connectClient ++ writeHeader ++ changeClient ++ [.writer]) = some u ∧
        ∃ m, u.logs[1]? = some [.body m] := ⟨_, rfl, _, rfl⟩
  obtain ⟨u, hu, m, hlog⟩ := hrun
  refine ⟨u, hu, ⟨m, hlog⟩, fun h => ?_⟩
  exact Framing.not_framed_body m [] (h 1 _ hlog)

/-- One client that stays gets the whole pair. -/
theorem client_streams_framed_iff_one_client :
    Always step ClientsFramed (new .null 0) (connectClient ++ writeHeader ++ [.writer]) := by
  refine (client_streams_framed_iff .null 0 _ _ rfl).mpr ?_
  -- only the last two steps write, with nobody cut off and the first client attached
  iterate 13 refine Meets.cons rfl (fun h => h.elim) ?_
  refine Meets.cons rfl (fun _ _ _ h => nomatch h) ?_
  exact Meets.cons rfl (fun _ _ h => h) trivial

end SinkSystem

end VirtualCaptureStream
