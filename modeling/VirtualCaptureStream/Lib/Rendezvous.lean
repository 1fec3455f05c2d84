import Mathlib.Data.List.Infix

/- Callers and a server that meet through two events. A caller takes the lock, stores its
   request, sets `send` and waits for `complete`; the server looks at `send`, serves the
   request, stores a result, resets `send` and sets `complete`, which wakes the caller.
   `send` stays set until the server resets it, `complete` is used up by one wait.

   What is proved:
     1. `Sound.enter`, …, `Sound.finish` — each single access, whoever makes the next one,
        keeps the words and the events in agreement with where caller and server are.
     2. `Sound.aligned` — the calls, the answers and the returns are one sequence: each
        call is answered once, and returns the answer to itself.
     3. `Sound.waiting` — a request that is sent is there to be served until its caller
        can wake up. -/
namespace Rendezvous

/-- How far the caller that holds the lock is with its request. -/
inductive CallerPc (Req : Type) where
  | entered (q : Req)
  | stored (q : Req)
  | signalled (q : Req)
  | woken (q : Req)

def CallerPc.request {Req : Type} : CallerPc Req → Req
  | .entered q | .stored q | .signalled q | .woken q => q

/-- How far the server is: the result is stored, and then `send` is reset. -/
inductive ServerPc (Req Res : Type) where
  | idle
  | serving (q : Req)
  | answered (q : Req) (r : Res)
  | cleared (q : Req) (r : Res)

/-- The two words, the two events, who is where, and what has happened so far. -/
structure Exchange (Req Res : Type) where
  param : Req
  result : Res
  send : Bool
  complete : Bool
  caller : Option (Nat × CallerPc Req)
  server : ServerPc Req Res
  calls : List (Nat × Req)
  answers : List (Req × Res)
  returns : List (Nat × Req × Res)

inductive Action (Req Res : Type) where
  | enter (i : Nat) (q : Req)
  | store
  | signal
  | wake
  | leave
  | take
  | answer (r : Res)
  | clear
  | finish

variable {Req Res : Type}

/-- Nobody has called yet. -/
def Exchange.new (param : Req) (result : Res) : Exchange Req Res where
  param := param
  result := result
  send := false
  complete := false
  caller := none
  server := .idle
  calls := []
  answers := []
  returns := []

/-- One access to the words and events. The server may look at a request again before it
    answers. -/
def step (x : Exchange Req Res) : Action Req Res → Option (Exchange Req Res)
  | .enter i q =>
    match x.caller with
    | none => some { x with caller := some (i, .entered q), calls := x.calls ++ [(i, q)] }
    | some _ => none
  | .store =>
    match x.caller with
    | some (i, .entered q) => some { x with param := q, caller := some (i, .stored q) }
    | _ => none
  | .signal =>
    match x.caller with
    | some (i, .stored q) => some { x with send := true, caller := some (i, .signalled q) }
    | _ => none
  | .wake =>
    match x.caller, x.complete with
    | some (i, .signalled q), true =>
      some { x with complete := false, caller := some (i, .woken q) }
    | _, _ => none
  | .leave =>
    match x.caller with
    | some (i, .woken q) =>
      some { x with caller := none, returns := x.returns ++ [(i, q, x.result)] }
    | _ => none
  | .take =>
    match x.send, x.server with
    | true, .idle | true, .serving _ => some { x with server := .serving x.param }
    | _, _ => none
  | .answer r =>
    match x.server with
    | .serving q =>
      some { x with result := r, server := .answered q r, answers := x.answers ++ [(q, r)] }
    | _ => none
  | .clear =>
    match x.server with
    | .answered q r => some { x with send := false, server := .cleared q r }
    | _ => none
  | .finish =>
    match x.server with
    | .cleared _ _ => some { x with complete := true, server := .idle }
    | _ => none

/-- The server touches nothing of the caller's. -/
theorem server_frame {x y : Exchange Req Res} {a : Action Req Res} (h : step x a = some y)
    (ha : a = .take ∨ (∃ r, a = .answer r) ∨ a = .clear ∨ a = .finish) :
    y.caller = x.caller ∧ y.calls = x.calls ∧ y.returns = x.returns := by
  rcases ha with rfl | ⟨r, rfl⟩ | rfl | rfl <;> simp only [step] at h <;> split at h <;> cases h <;>
    exact ⟨rfl, rfl, rfl⟩

/-! Where the caller and the server are, and what that says of words and events. The last
argument is the answer that was not returned yet. -/

section
variable (x : Exchange Req Res)

inductive Phase : List (Req × Res) → Prop
  | free (hc : x.caller = none) (hs : x.server = .idle) (hsend : x.send = false)
      (hdone : x.complete = false) : Phase []
  | entered {i : Nat} {q : Req} (hc : x.caller = some (i, .entered q)) (hs : x.server = .idle)
      (hsend : x.send = false) (hdone : x.complete = false) : Phase []
  | stored {i : Nat} {q : Req} (hc : x.caller = some (i, .stored q)) (hs : x.server = .idle)
      (hsend : x.send = false) (hdone : x.complete = false) (hp : x.param = q) : Phase []
  | sent {i : Nat} {q : Req} (hc : x.caller = some (i, .signalled q))
      (hs : x.server = .idle ∨ x.server = .serving q)
      (hsend : x.send = true) (hdone : x.complete = false) (hp : x.param = q) : Phase []
  | answered {i : Nat} {q : Req} {r : Res} (hc : x.caller = some (i, .signalled q))
      (hs : x.server = .answered q r) (hdone : x.complete = false) (hr : x.result = r) :
      Phase [(q, r)]
  | cleared {i : Nat} {q : Req} {r : Res} (hc : x.caller = some (i, .signalled q))
      (hs : x.server = .cleared q r) (hsend : x.send = false) (hdone : x.complete = false)
      (hr : x.result = r) : Phase [(q, r)]
  | finished {i : Nat} {q : Req} {r : Res} (hc : x.caller = some (i, .signalled q))
      (hs : x.server = .idle) (hsend : x.send = false) (hdone : x.complete = true)
      (hr : x.result = r) : Phase [(q, r)]
  | woken {i : Nat} {q : Req} {r : Res} (hc : x.caller = some (i, .woken q))
      (hs : x.server = .idle) (hsend : x.send = false) (hdone : x.complete = false)
      (hr : x.result = r) : Phase [(q, r)]

/-- The call that has not returned. -/
def openCall : List (Nat × Req) :=
  match x.caller with
  | none => []
  | some (i, pc) => [(i, pc.request)]

/-- The phase, and the histories up to it. -/
structure Sound : Prop where
  calls : x.calls = x.returns.map (fun e => (e.1, e.2.1)) ++ openCall x
  answers : ∃ pending, Phase x pending ∧ x.answers = x.returns.map (·.2) ++ pending

end

theorem sound_new (param : Req) (result : Res) : Sound (Exchange.new param result) :=
  ⟨rfl, [], .free rfl rfl rfl rfl, rfl⟩

section
variable {x y : Exchange Req Res}

/-- An access that neither calls nor returns. -/
theorem Sound.of_phase {pending : List (Req × Res)} (h : Sound x) (hp : Phase y pending)
    (hreturns : y.returns = x.returns) (hcalls : y.calls = x.calls) (hopen : openCall y = openCall x)
    (hanswers : y.answers = x.returns.map (·.2) ++ pending) : Sound y where
  calls := by rw [hreturns, hcalls, hopen]; exact h.calls
  answers := ⟨pending, hp, by rw [hreturns]; exact hanswers⟩

theorem Sound.enter {i : Nat} {q : Req} (h : Sound x) (hstep : step x (.enter i q) = some y) :
    Sound y := by
  obtain ⟨hcalls, pending, hphase, hanswers⟩ := h
  simp only [step] at hstep
  split at hstep
  · rename_i hc
    obtain rfl := Option.some.inj hstep
    simp only [openCall, hc, List.append_nil] at hcalls
    cases hphase with
    | free _ hs hsend hdone =>
      refine ⟨?_, [], .entered rfl hs hsend hdone, hanswers⟩
      simp only [openCall, CallerPc.request, hcalls]
    | entered hc' | stored hc' | sent hc' | answered hc' | cleared hc' | finished hc'
    | woken hc' => rw [hc] at hc'; cases hc'
  · cases hstep

theorem Sound.store (h : Sound x) (hstep : step x .store = some y) : Sound y := by
  obtain ⟨pending, hphase, hanswers⟩ := h.answers
  simp only [step] at hstep
  split at hstep
  · rename_i i q hc
    obtain rfl := Option.some.inj hstep
    cases hphase with
    | entered hc' hs hsend hdone =>
      refine h.of_phase (.stored rfl hs hsend hdone rfl) rfl rfl ?_ hanswers
      simp only [openCall, hc, CallerPc.request]
    | free hc' | stored hc' | sent hc' | answered hc' | cleared hc' | finished hc'
    | woken hc' => rw [hc] at hc'; cases hc'
  · cases hstep

theorem Sound.signal (h : Sound x) (hstep : step x .signal = some y) : Sound y := by
  obtain ⟨pending, hphase, hanswers⟩ := h.answers
  simp only [step] at hstep
  split at hstep
  · rename_i i q hc
    obtain rfl := Option.some.inj hstep
    cases hphase with
    | stored hc' hs hsend hdone hp =>
      rw [hc] at hc'
      cases hc'
      refine h.of_phase (.sent rfl (Or.inl hs) rfl hdone hp) rfl rfl ?_ hanswers
      simp only [openCall, hc, CallerPc.request]
    | free hc' | entered hc' | sent hc' | answered hc' | cleared hc' | finished hc'
    | woken hc' => rw [hc] at hc'; cases hc'
  · cases hstep

/-! The accesses that need the other side, with what is then known of it. -/

theorem Sound.wake_cases (h : Sound x) (hstep : step x .wake = some y) :
    ∃ i q, x.caller = some (i, .signalled q) ∧ x.server = .idle ∧ x.send = false ∧
      (∃ r, x.result = r ∧ x.answers = x.returns.map (·.2) ++ [(q, r)]) ∧
      y = { x with complete := false, caller := some (i, .woken q) } := by
  obtain ⟨pending, hphase, hanswers⟩ := h.answers
  simp only [step] at hstep
  split at hstep
  · rename_i i q hc hdone
    cases hphase with
    | finished hc' hs hsend _ hr =>
      rw [hc] at hc'
      cases hc'
      exact ⟨i, q, hc, hs, hsend, ⟨_, hr, hanswers⟩, (Option.some.inj hstep).symm⟩
    | free _ _ _ hdone' | entered _ _ _ hdone' | stored _ _ _ hdone' | sent _ _ _ hdone'
    | answered _ _ hdone' | cleared _ _ _ hdone' | woken _ _ _ hdone' =>
      rw [hdone] at hdone'; cases hdone'
  · cases hstep

theorem Sound.leave_cases (h : Sound x) (hstep : step x .leave = some y) :
    ∃ i q, x.caller = some (i, .woken q) ∧ x.server = .idle ∧ x.send = false ∧
      x.complete = false ∧ x.answers = x.returns.map (·.2) ++ [(q, x.result)] ∧
      y = { x with caller := none, returns := x.returns ++ [(i, q, x.result)] } := by
  obtain ⟨pending, hphase, hanswers⟩ := h.answers
  simp only [step] at hstep
  split at hstep
  · rename_i i q hc
    cases hphase with
    | woken hc' hs hsend hdone hr =>
      rw [hc] at hc'
      cases hc'
      exact ⟨i, q, hc, hs, hsend, hdone, hr ▸ hanswers, (Option.some.inj hstep).symm⟩
    | free hc' | entered hc' | stored hc' | sent hc' | answered hc' | cleared hc'
    | finished hc' => rw [hc] at hc'; cases hc'
  · cases hstep

theorem Sound.take_cases (h : Sound x) (hstep : step x .take = some y) :
    ∃ i q, x.caller = some (i, .signalled q) ∧ x.param = q ∧
      (x.server = .idle ∨ x.server = .serving q) ∧ x.send = true ∧ x.complete = false ∧
      x.answers = x.returns.map (·.2) ++ [] ∧ y = { x with server := .serving q } := by
  obtain ⟨pending, hphase, hanswers⟩ := h.answers
  have htaken : x.send = true ∧ (x.server = .idle ∨ ∃ q, x.server = .serving q) ∧
      y = { x with server := .serving x.param } := by
    simp only [step] at hstep
    split at hstep
    · rename_i hsend hs
      exact ⟨hsend, Or.inl hs, (Option.some.inj hstep).symm⟩
    · rename_i q hsend hs
      exact ⟨hsend, Or.inr ⟨q, hs⟩, (Option.some.inj hstep).symm⟩
    · cases hstep
  obtain ⟨hsend, hserver, rfl⟩ := htaken
  cases hphase with
  | sent hc hs _ hdone hp => exact ⟨_, _, hc, hp, hs, hsend, hdone, hanswers, by rw [hp]⟩
  | answered _ hs =>
    rw [hs] at hserver
    rcases hserver with hs' | ⟨_, hs'⟩ <;> cases hs'
  | free _ _ hsend' | entered _ _ hsend' | stored _ _ hsend' | cleared _ _ hsend'
  | finished _ _ hsend' | woken _ _ hsend' => rw [hsend] at hsend'; cases hsend'

theorem Sound.answer_cases {r : Res} (h : Sound x) (hstep : step x (.answer r) = some y) :
    ∃ i q, x.caller = some (i, .signalled q) ∧ x.server = .serving q ∧ x.complete = false ∧
      x.answers = x.returns.map (·.2) ++ [] ∧
      y = { x with result := r, server := .answered q r, answers := x.answers ++ [(q, r)] } := by
  obtain ⟨pending, hphase, hanswers⟩ := h.answers
  simp only [step] at hstep
  split at hstep
  · rename_i q hs
    cases hphase with
    | sent hc hs' _ hdone _ =>
      rw [hs] at hs'
      rcases hs' with hs' | hs'
      · cases hs'
      · cases hs'
        exact ⟨_, q, hc, hs, hdone, hanswers, (Option.some.inj hstep).symm⟩
    | free _ hs' | entered _ hs' | stored _ hs' | answered _ hs' | cleared _ hs' | finished _ hs'
    | woken _ hs' => rw [hs] at hs'; cases hs'
  · cases hstep

theorem Sound.clear_cases (h : Sound x) (hstep : step x .clear = some y) :
    ∃ i q r, x.caller = some (i, .signalled q) ∧ x.server = .answered q r ∧ x.complete = false ∧
      x.result = r ∧ x.answers = x.returns.map (·.2) ++ [(q, r)] ∧
      y = { x with send := false, server := .cleared q r } := by
  obtain ⟨pending, hphase, hanswers⟩ := h.answers
  simp only [step] at hstep
  split at hstep
  · rename_i q r hs
    cases hphase with
    | answered hc hs' hdone hr =>
      rw [hs] at hs'
      cases hs'
      exact ⟨_, q, r, hc, hs, hdone, hr, hanswers, (Option.some.inj hstep).symm⟩
    | sent _ hs' =>
      rw [hs] at hs'
      rcases hs' with hs' | hs' <;> cases hs'
    | free _ hs' | entered _ hs' | stored _ hs' | cleared _ hs' | finished _ hs'
    | woken _ hs' => rw [hs] at hs'; cases hs'
  · cases hstep

theorem Sound.finish_cases (h : Sound x) (hstep : step x .finish = some y) :
    ∃ i q r, x.caller = some (i, .signalled q) ∧ x.server = .cleared q r ∧ x.send = false ∧
      x.result = r ∧ x.answers = x.returns.map (·.2) ++ [(q, r)] ∧
      y = { x with complete := true, server := .idle } := by
  obtain ⟨pending, hphase, hanswers⟩ := h.answers
  simp only [step] at hstep
  split at hstep
  · rename_i q r hs
    cases hphase with
    | cleared hc hs' hsend hdone hr =>
      rw [hs] at hs'
      cases hs'
      exact ⟨_, q, r, hc, hs, hsend, hr, hanswers, (Option.some.inj hstep).symm⟩
    | sent _ hs' =>
      rw [hs] at hs'
      rcases hs' with hs' | hs' <;> cases hs'
    | free _ hs' | entered _ hs' | stored _ hs' | answered _ hs' | finished _ hs'
    | woken _ hs' => rw [hs] at hs'; cases hs'
  · cases hstep

theorem Sound.wake (h : Sound x) (hstep : step x .wake = some y) : Sound y := by
  obtain ⟨i, q, hc, hs, hsend, ⟨r, hr, hanswers⟩, rfl⟩ := h.wake_cases hstep
  refine h.of_phase (.woken rfl hs hsend rfl hr) rfl rfl ?_ hanswers
  simp only [openCall, hc, CallerPc.request]

theorem Sound.leave (h : Sound x) (hstep : step x .leave = some y) : Sound y := by
  obtain ⟨i, q, hc, hs, hsend, hdone, hanswers, rfl⟩ := h.leave_cases hstep
  have hcalls := h.calls
  simp only [openCall, hc, CallerPc.request] at hcalls
  refine ⟨?_, [], .free rfl hs hsend hdone, ?_⟩
  · simp only [hcalls, openCall, List.map_append, List.map_cons, List.map_nil, List.append_nil]
  · simp only [hanswers, List.map_append, List.map_cons, List.map_nil, List.append_nil]

theorem Sound.take (h : Sound x) (hstep : step x .take = some y) : Sound y := by
  obtain ⟨i, q, hc, hp, -, hsend, hdone, hanswers, rfl⟩ := h.take_cases hstep
  exact h.of_phase (.sent hc (Or.inr rfl) hsend hdone hp) rfl rfl rfl hanswers

theorem Sound.answer {r : Res} (h : Sound x) (hstep : step x (.answer r) = some y) : Sound y := by
  obtain ⟨i, q, hc, hs, hdone, hanswers, rfl⟩ := h.answer_cases hstep
  refine h.of_phase (.answered hc rfl hdone rfl) rfl rfl rfl ?_
  rw [hanswers, List.append_nil]

theorem Sound.clear (h : Sound x) (hstep : step x .clear = some y) : Sound y := by
  obtain ⟨i, q, r, hc, hs, hdone, hr, hanswers, rfl⟩ := h.clear_cases hstep
  exact h.of_phase (.cleared hc rfl rfl hdone hr) rfl rfl rfl hanswers

theorem Sound.finish (h : Sound x) (hstep : step x .finish = some y) : Sound y := by
  obtain ⟨i, q, r, hc, hs, hsend, hr, hanswers, rfl⟩ := h.finish_cases hstep
  exact h.of_phase (.finished hc rfl hsend rfl hr) rfl rfl rfl hanswers

/-! What the two sides can rely on. -/

/-- One sequence of requests and results, of which the callers have seen all but the last
    one at most. -/
structure Aligned (x : Exchange Req Res) : Prop where
  called : x.returns.map (fun e => (e.1, e.2.1)) <+: x.calls
  answered : x.returns.map (·.2) <+: x.answers
  asked : x.answers.map Prod.fst <+: x.calls.map Prod.snd
  one_open : x.calls.length ≤ x.returns.length + 1

/-- **Each call returns the answer to itself.** -/
theorem Sound.aligned (h : Sound x) : Aligned x := by
  obtain ⟨hcalls, pending, hphase, hanswers⟩ := h
  have hasked : ∀ {i pc}, x.caller = some (i, pc) → x.calls.map Prod.snd =
      x.returns.map (fun e => e.2.1) ++ [pc.request] := by
    intro i pc hc
    simp [hcalls, openCall, hc, Function.comp_def]
  refine ⟨⟨_, hcalls.symm⟩, ⟨pending, hanswers.symm⟩, ?_, ?_⟩
  · rw [hanswers, List.map_append, List.map_map]
    cases hphase with
    | free hc => simp [hcalls, openCall, hc, Function.comp_def]
    | entered hc | stored hc | sent hc =>
      rw [hasked hc, List.map_nil, List.append_nil]
      exact List.prefix_append _ _
    | answered hc | cleared hc | finished hc | woken hc =>
      rw [hasked hc]
      exact List.prefix_refl _
  · rw [hcalls, List.length_append, List.length_map]
    have hopen : (openCall x).length ≤ 1 := by
      unfold openCall
      split <;> simp
    omega

/-- While its caller waits, a request is still to be taken, or in service, or the caller
    can wake up. -/
theorem Sound.waiting {i : Nat} {q : Req} (h : Sound x) (hc : x.caller = some (i, .signalled q)) :
    (x.send = true ∧ x.param = q ∧ (x.server = .idle ∨ x.server = .serving q)) ∨
      (∃ r, x.server = .answered q r ∨ x.server = .cleared q r) ∨
      (x.complete = true ∧ x.server = .idle) := by
  obtain ⟨pending, hphase, -⟩ := h.answers
  cases hphase with
  | sent hc' hs hsend _ hp =>
    rw [hc] at hc'
    cases hc'
    exact Or.inl ⟨hsend, hp, hs⟩
  | answered hc' hs =>
    rw [hc] at hc'
    cases hc'
    exact Or.inr (Or.inl ⟨_, Or.inl hs⟩)
  | cleared hc' hs =>
    rw [hc] at hc'
    cases hc'
    exact Or.inr (Or.inl ⟨_, Or.inr hs⟩)
  | finished _ hs _ hdone => exact Or.inr (Or.inr ⟨hdone, hs⟩)
  | free hc' | entered hc' | stored hc' | woken hc' => rw [hc] at hc'; cases hc'

/-- With no caller that waits, the server has nothing to do. -/
theorem Sound.quiet (h : Sound x) (hc : ∀ i q, x.caller ≠ some (i, .signalled q)) :
    x.server = .idle ∧ x.send = false ∧ x.complete = false := by
  obtain ⟨pending, hphase, -⟩ := h.answers
  cases hphase with
  | sent hc' | answered hc' | cleared hc' | finished hc' => exact absurd hc' (hc _ _)
  | free _ hs hsend hdone | entered _ hs hsend hdone | stored _ hs hsend hdone
  | woken _ hs hsend hdone => exact ⟨hs, hsend, hdone⟩

end

end Rendezvous
