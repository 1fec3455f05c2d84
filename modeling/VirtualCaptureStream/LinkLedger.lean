import VirtualCaptureStream.LinkBuffer
import VirtualCaptureStream.LinkFidelity
import VirtualCaptureStream.SinkLedger

/- What the source reads over its whole life, through any number of connections. A
   source that disconnects, is stopped or discovers its pin anew loses what it has not
   read; it opens the pipe again as a new client of the sink. `read_once_in_order` says
   that it never reads a message twice, and reads them in the order of the samples,
   whatever the two processes and the sink's other clients do in between, and also where
   the messages it reads are not whole pairs. -/
namespace VirtualCaptureStream

namespace Link

open Transition
open SourceOutputPin (readTagged)
open SinkSystem (SinkAction captured)

/-- The messages a step of FillBuffer takes from the pipe. A message that is read in part
    stays there. -/
def consumed (s t : Link) : LinkAction → List Sent
  | .fillHeader _ _ => (s.unread.take (s.unread.length - t.unread.length)).map Prod.fst
  | .fillPayload => (s.unread.take (s.unread.length - t.unread.length)).map Prod.fst
  | _ => []

/-- The messages the source takes from the pipe in a run. -/
def readBy : Link → List LinkAction → List Sent
  | _, [] => []
  | s, a :: as =>
    match s.step a with
    | some t => consumed s t a ++ readBy t as
    | none => []

/-- What Receive captures in a step of the two processes. -/
def linkCaptured : LinkAction → List MediaSampleX
  | .sink a => captured a
  | _ => []

def linkCaptures (as : List LinkAction) : List MediaSampleX := as.flatMap linkCaptured

/-- The sink's books, and those of a source that has taken the messages `ms` from the pipe:
    with what waits for it they are some of all messages, in order. -/
structure ReadBooks (cs : List MediaSampleX) (ms : List Sent) (s : Link) : Prop where
  life : s.sink.life.Sound
  ledger : ∃ n, s.sink.core.Ledger cs n
  client : ∀ c, s.client = some c → c < s.sink.logs.length
  among : (ms ++ s.unread.map Prod.fst).Sublist s.sink.logs.flatten

/-! The sink's steps. -/

/-- What arrives at the source is among what is sent. -/
theorem arrived_flatten {k k' : Core} {l : Label} (happ : k.apply l = some k')
    (hnew : ∀ c, k.client = some c → c + 1 = k.logs.length) {client : Option Nat}
    (hlt : ∀ c, client = some c → c < k.logs.length) :
    ∃ more, k'.logs.flatten = k.logs.flatten ++ more ∧
      (arrived client k.logs k'.logs).Sublist more := by
  -- nothing arrives where the client's messages stay as they are
  have hnone : (∀ c, client = some c → k'.logs[c]? = k.logs[c]?) →
      arrived client k.logs k'.logs = [] := by
    intro hsame
    cases client with
    | none => rfl
    | some c => simp only [arrived, hsame c rfl, List.drop_length]
  rcases Core.apply_messages happ with ⟨hlogs, -⟩ | ⟨hlogs, -⟩ | ⟨m, hlogs, -, -⟩
  · refine ⟨[], by rw [hlogs, List.append_nil], ?_⟩
    rw [hnone fun c _ => by rw [hlogs]]
  · refine ⟨[], by simp [hlogs], ?_⟩
    rw [hnone fun c hc => by rw [hlogs, List.getElem?_append_left (hlt c hc)]]
  · cases hcl : k.client with
    | none =>
      have hsame := hlogs.trans (Core.write_detached hcl m)
      refine ⟨[], by rw [hsame, List.append_nil], ?_⟩
      rw [hnone fun c _ => by rw [hsame]]
    | some d =>
      refine ⟨[m], by rw [hlogs, Core.write_newest hcl (hnew d hcl)], ?_⟩
      by_cases hc : client = some d
      · rw [hc, hlogs, arrived_write hcl (hlt d hc)]
      · rw [hnone fun c hc' => ?_]
        · exact List.nil_sublist _
        · rw [hlogs, Core.write_other]
          rw [hcl, ← hc']
          exact fun he => hc he.symm

theorem ReadBooks.sink {cs : List MediaSampleX} {ms : List Sent} {s t : Link} {a : SinkAction}
    (h : ReadBooks cs ms s) (hstep : s.step (.sink a) = some t) :
    ReadBooks (cs ++ captured a) ms t := by
  obtain ⟨-, u, hu, rfl⟩ := sinkStep_cases hstep
  obtain ⟨n, hn⟩ := h.ledger
  obtain ⟨l, -, happ⟩ := SinkSystem.step_refines h.life hu
  obtain ⟨hlife, hledger⟩ := SinkSystem.ledger_step h.life hn hu
  obtain ⟨more, hmore, hsub⟩ := arrived_flatten happ hn.newest h.client
  refine ⟨hlife, hledger, fun c hc => ?_, ?_⟩
  · exact Nat.lt_of_lt_of_le (h.client c hc) (Core.apply_length happ)
  · show (ms ++ (s.unreadAfter u).map Prod.fst).Sublist u.core.logs.flatten
    rw [hmore]
    unfold unreadAfter
    split
    · -- DisconnectNamedPipe has discarded what was not read
      rw [List.map_nil, List.append_nil]
      exact ((List.sublist_append_left _ _).trans h.among).trans (List.sublist_append_left _ _)
    · have htags : (s.unread ++ (arrived s.client s.sink.logs u.logs).map
          fun m => (m, m.message)).map Prod.fst =
          s.unread.map Prod.fst ++ arrived s.client s.sink.logs u.logs := by
        simp [Function.comp_def]
      rw [htags, ← List.append_assoc]
      exact h.among.append hsub

/-! The source's steps. -/

/-- What is forgotten of the pipe is not read later. -/
theorem ReadBooks.forget {cs : List MediaSampleX} {ms : List Sent} {s t : Link}
    (h : ReadBooks cs ms s) (hlife : t.sink.life.Sound) (hledger : ∃ n, t.sink.core.Ledger cs n)
    (hclient : ∀ c, t.client = some c → c < t.sink.logs.length) (hunread : t.unread = [])
    (hlogs : t.sink.logs.flatten = s.sink.logs.flatten) : ReadBooks cs ms t := by
  refine ⟨hlife, hledger, hclient, ?_⟩
  rw [hunread, hlogs, List.map_nil, List.append_nil]
  exact (List.sublist_append_left _ _).trans h.among

/-- A client opens or closes the pipe: nothing is captured. -/
theorem ReadBooks.sink_step {cs : List MediaSampleX} {ms : List Sent} {s : Link} {u : SinkSystem}
    {a : SinkAction} (h : ReadBooks cs ms s) (ha : captured a = []) (hu : s.sink.step a = some u) :
    u.life.Sound ∧ ∃ n, u.core.Ledger cs n := by
  obtain ⟨n, hn⟩ := h.ledger
  have hnext := SinkSystem.ledger_step h.life hn hu
  rw [ha, List.append_nil] at hnext
  exact hnext

/-- The source closes its end. -/
theorem ReadBooks.detach {cs : List MediaSampleX} {ms : List Sent} {s : Link}
    (h : ReadBooks cs ms s) : ReadBooks cs ms s.detach := by
  have hlogs : s.detach.sink.logs = s.sink.logs := by
    unfold Link.detach
    dsimp only
    split <;> rfl
  have hsink : s.detach.sink.life.Sound ∧ ∃ n, s.detach.sink.core.Ledger cs n := by
    by_cases hatt : s.Attached
    · have hclosed : s.detach.sink = { s.sink with pipe := some .closing } := if_pos hatt
      have hstep : s.sink.step .clientClose = some s.detach.sink := by
        obtain ⟨c, hc⟩ := Option.isSome_iff_exists.mp (hatt.2 ▸ hatt.1)
        rw [hclosed]
        simp only [SinkSystem.step, hc, Option.map_some]
      exact h.sink_step rfl hstep
    · have hsame : s.detach.sink = s.sink := if_neg hatt
      rw [hsame]
      exact ⟨h.life, h.ledger⟩
  exact h.forget hsink.1 hsink.2 nofun rfl (by rw [hlogs])

/-- A step that leaves the sink, the client and what waits in the pipe alone. -/
theorem ReadBooks.congr {cs : List MediaSampleX} {ms : List Sent} {s t : Link}
    (h : ReadBooks cs ms s) (hsink : t.sink = s.sink) (hclient : t.client = s.client)
    (hunread : t.unread = s.unread) : ReadBooks cs ms t := by
  obtain ⟨hlife, hledger, hlt, hamong⟩ := h
  refine ⟨hsink ▸ hlife, hsink ▸ hledger, ?_, ?_⟩
  · rw [hclient, hsink]
    exact hlt
  · rw [hunread, hsink]
    exact hamong

theorem ReadBooks.connect {cs : List MediaSampleX} {ms : List Sent} {s t : Link}
    {opened modeSet : Bool} (h : ReadBooks cs ms s) (hstep : s.connectStep opened modeSet = some t) :
    ReadBooks cs ms t := by
  unfold connectStep at hstep
  split at hstep
  · rw [Option.ite_none_right_eq_some, Option.map_eq_some_iff] at hstep
    obtain ⟨hlisten, r, -, rfl⟩ := hstep
    have hopen : s.sink.step .clientOpen = some s.sink.attach := if_pos hlisten
    obtain ⟨hlife, hledger⟩ := h.sink_step rfl hopen
    refine h.forget hlife hledger (fun c hc => ?_) rfl ?_
    · rw [← Option.some.inj hc]
      show s.sink.logs.length < (s.sink.logs ++ [[]]).length
      rw [List.length_append]
      exact Nat.lt_succ_self _
    · show (s.sink.logs ++ [[]]).flatten = s.sink.logs.flatten
      simp
  · obtain ⟨r, -, rfl⟩ := Option.map_eq_some_iff.mp hstep
    exact h.detach.congr rfl rfl rfl

/-! FillBuffer's steps. -/

/-- A read takes a message or leaves them all, the first perhaps in part. -/
theorem readTagged_tags (n : Nat) (w : List (Sent × Msg)) :
    w.map Prod.fst = (w.take (w.length - (readTagged n w).2.length)).map Prod.fst ++
      (readTagged n w).2.map Prod.fst := by
  cases w with
  | nil => rfl
  | cons tm rest =>
    obtain ⟨t, m⟩ := tm
    by_cases hfits : m.length ≤ n
    · simp [readTagged, hfits]
    · simp [readTagged, hfits]

/-- After a read the source has taken what is no longer in the pipe. -/
theorem ReadBooks.read {cs : List MediaSampleX} {ms : List Sent} {s t : Link} {n : Nat}
    (h : ReadBooks cs ms s) (hsink : t.sink = s.sink) (hclient : t.client = s.client)
    (hunread : t.unread = (readTagged n s.unread).2) :
    ReadBooks cs (ms ++ (s.unread.take (s.unread.length - t.unread.length)).map Prod.fst) t := by
  obtain ⟨hlife, hledger, hlt, hamong⟩ := h
  refine ⟨hsink ▸ hlife, hsink ▸ hledger, ?_, ?_⟩
  · rw [hclient, hsink]
    exact hlt
  · rw [hunread, hsink, List.append_assoc, ← readTagged_tags]
    exact hamong

/-- A call that reads nothing takes nothing. -/
theorem ReadBooks.unread {cs : List MediaSampleX} {ms : List Sent} {s t : Link}
    (h : ReadBooks cs ms s) (hsink : t.sink = s.sink) (hclient : t.client = s.client)
    (hunread : t.unread = s.unread) :
    ReadBooks cs (ms ++ (s.unread.take (s.unread.length - t.unread.length)).map Prod.fst) t := by
  rw [hunread, Nat.sub_self, List.take_zero, List.map_nil, List.append_nil]
  exact h.congr hsink hclient hunread

theorem ReadBooks.header {cs : List MediaSampleX} {ms : List Sent} {s t : Link}
    {r : SourceOutputPin.SetterResults} {sample : MediaSample} (h : ReadBooks cs ms s)
    (hstep : s.fillHeader r sample = some t) :
    ReadBooks cs (ms ++ consumed s t (.fillHeader r sample)) t := by
  rw [fillHeader, Option.ite_none_left_eq_some] at hstep
  obtain ⟨-, hstep⟩ := hstep
  dsimp only at hstep
  split at hstep
  · obtain rfl := Option.some.inj hstep
    exact h.read rfl rfl rfl
  · split at hstep <;> obtain rfl := Option.some.inj hstep
    · exact h.read rfl rfl rfl
    · exact h.read rfl rfl rfl

theorem ReadBooks.payload {cs : List MediaSampleX} {ms : List Sent} {s t : Link} {f : Filling}
    (h : ReadBooks cs ms s) (hstep : s.fillPayload f = some t) :
    ReadBooks cs (ms ++ consumed s t .fillPayload) t := by
  unfold fillPayload at hstep
  split at hstep
  · rw [Option.ite_none_left_eq_some] at hstep
    obtain rfl := Option.some.inj hstep.2
    exact h.read rfl rfl rfl
  · obtain rfl := Option.some.inj hstep
    exact h.unread rfl rfl rfl

theorem ReadBooks.step {cs : List MediaSampleX} {ms : List Sent} {s t : Link} {a : LinkAction}
    (h : ReadBooks cs ms s) (hstep : s.step a = some t) :
    ReadBooks (cs ++ linkCaptured a) (ms ++ consumed s t a) t := by
  have hcs : cs ++ [] = cs := List.append_nil cs
  have hms : ms ++ [] = ms := List.append_nil ms
  cases a with
  | sink a => exact hms.symm ▸ h.sink hstep
  | fillHeader r sample =>
    simp only [Link.step, Option.ite_none_right_eq_some] at hstep
    exact hcs.symm ▸ h.header hstep.2
  | fillPayload =>
    obtain ⟨f, -, hstep⟩ := Option.bind_eq_some_iff.mp hstep
    exact hcs.symm ▸ h.payload hstep
  | discover pName mt rtStart bRunning =>
    simp only [Link.step, Option.ite_none_right_eq_some] at hstep
    obtain rfl := Option.some.inj hstep.2
    exact hcs.symm ▸ hms.symm ▸ h.detach.congr rfl rfl rfl
  | disconnectPipe =>
    simp only [Link.step, Option.ite_none_right_eq_some] at hstep
    obtain rfl := Option.some.inj hstep.2
    exact hcs.symm ▸ hms.symm ▸ h.detach.congr rfl rfl rfl
  | decideBufferSize | onThreadStartPlay | onThreadDestroy =>
    simp only [Link.step, Option.ite_none_right_eq_some] at hstep
    obtain rfl := Option.some.inj hstep.2
    exact hcs.symm ▸ hms.symm ▸ h.congr rfl rfl rfl
  | reset | stop =>
    obtain rfl := Option.some.inj hstep
    exact hcs.symm ▸ hms.symm ▸ h.congr rfl rfl rfl
  | connectToSinkPin opened modeSet =>
    simp only [Link.step, Option.ite_none_right_eq_some] at hstep
    exact hcs.symm ▸ hms.symm ▸ h.connect hstep.2

theorem ReadBooks.run {cs : List MediaSampleX} {ms : List Sent} {s u : Link} {as : List LinkAction}
    (h : ReadBooks cs ms s) (hrun : run Link.step s as = some u) :
    ReadBooks (cs ++ linkCaptures as) (ms ++ readBy s as) u := by
  induction as generalizing s cs ms with
  | nil =>
    obtain rfl := Option.some.inj hrun
    rw [linkCaptures, List.flatMap_nil, readBy, List.append_nil, List.append_nil]
    exact h
  | cons a as ih =>
    obtain ⟨t, ht, hrun⟩ := run_cons.mp hrun
    have hrest := ih (h.step ht) hrun
    rw [List.append_assoc, List.append_assoc] at hrest
    rw [readBy, ht]
    exact hrest

theorem readBooks_new (hThread2 : ThreadHandle) (rtRefPoint2 : Int64) :
    ReadBooks [] [] (new hThread2 rtRefPoint2) :=
  ⟨SinkSystem.life_new hThread2 rtRefPoint2, ⟨0, SinkSystem.ledger_new hThread2 rtRefPoint2⟩,
    nofun, List.Sublist.refl _⟩

/-- **The source reads nothing twice**: in every run of the two processes, over any number of
    connections of the source and of other clients, what FillBuffer takes from the pipe is in
    the order of the captured samples, each header and each payload at most once, and is
    built from the captured sample. -/
theorem read_once_in_order (hThread2 : ThreadHandle) (rtRefPoint2 : Int64) (as : List LinkAction)
    (u : Link) (hrun : run step (new hThread2 rtRefPoint2) as = some u) :
    (readBy (new hThread2 rtRefPoint2) as).Pairwise Sent.Before ∧
      (∀ m ∈ readBy (new hThread2 rtRefPoint2) as, m.BuiltFrom (linkCaptures as)) ∧
      (readBy (new hThread2 rtRefPoint2) as).Sublist u.sink.logs.flatten := by
  have hbooks := (readBooks_new hThread2 rtRefPoint2).run hrun
  rw [List.nil_append, List.nil_append] at hbooks
  obtain ⟨n, hn⟩ := hbooks.ledger
  have hsub := (List.sublist_append_left _ _).trans hbooks.among
  exact ⟨hn.ordered.sublist hsub, fun m hm => hn.built m (hsub.mem hm), hsub⟩

/-- The source goes and comes back as another client. -/
def reconnectSource : List LinkAction :=
  [.disconnectPipe, .sink .listener, .sink .listener, .sink .listener, .sink .listener,
    .sink .listener, .sink .listener, .sink .listener, .sink .listener,
    .connectToSinkPin true true, .sink .listener]

/-- A sample is read before that, and the header of the next after it. -/
def sendTwice : List LinkAction :=
  connectSource ++ send byteSample ++ reconnectSource ++
    [.sink (.receive SinkSystem.streaming byteSample), .sink .writer, .sink .writer, .sink .writer,
      .sink .writer, .sink .writer, .sink .writer, .fillHeader .allOk byteSample]

set_option maxRecDepth 4000 in
theorem read_once_in_order_two_connections :
    ∃ u m n, run step (new .null 0) sendTwice = some u ∧ u.client = some 1 ∧
      readBy (new .null 0) sendTwice = [.head m, .body m, .head n] ∧ m.1 < n.1 := by
  obtain ⟨u, m, n, hu, hclient, hread⟩ : ∃ u m n, run step (new .null 0) sendTwice = some u ∧
      u.client = some 1 ∧ readBy (new .null 0) sendTwice = [.head m, .body m, .head n] :=
    ⟨_, _, _, rfl, rfl, rfl⟩
  have hordered := (read_once_in_order .null 0 sendTwice u hu).1
  rw [hread] at hordered
  refine ⟨u, m, n, hu, hclient, hread, ?_⟩
  rcases List.rel_of_pairwise_cons hordered (List.mem_cons_of_mem _ List.mem_cons_self) with
    hlt | ⟨x, -, hbody⟩
  · exact hlt
  · cases hbody

end Link

end VirtualCaptureStream
