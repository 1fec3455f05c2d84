import Mathlib.Data.List.Infix

/- Transition systems whose step is a partial function of a state and an action
   (`none`: the action is not enabled). A run performs a list of actions; an
   invariant is proved once per action and carried over every run, and a
   condition on the actions of a run (`Meets`) is compared with a property of the
   states it passes through (`Always`). -/
namespace Transition

variable {σ α : Type} (step : σ → α → Option σ)

/-- Perform the actions in order; `none` when one of them is not enabled. -/
def run : σ → List α → Option σ
  | s, [] => some s
  | s, a :: as => (step s a).bind (fun t => run t as)

/-- `t` is reached from `s` by some run. -/
def Reach (s t : σ) : Prop := ∃ as, run step s as = some t

/-- Every action meets `C` in the state it is performed in. -/
def Meets (C : σ → α → Prop) : σ → List α → Prop
  | _, [] => True
  | s, a :: as => C s a ∧ ∀ t, step s a = some t → Meets C t as

/-- `P` holds in every state the run passes through, the first one included. -/
def Always (P : σ → Prop) : σ → List α → Prop
  | s, [] => P s
  | s, a :: as => P s ∧ ∀ t, step s a = some t → Always P t as

/-- An action of the run meets `S`, and none behind it meets `C`. -/
def Since (S C : σ → α → Prop) : σ → List α → Prop
  | _, [] => False
  | s, a :: as => ∃ t, step s a = some t ∧
      (S s a ∧ Meets step (fun s a => ¬ C s a) t as ∨ Since S C t as)

variable {step}

@[simp] theorem run_nil (s : σ) : run step s [] = some s := rfl

theorem run_cons {s u : σ} {a : α} {as : List α} :
    run step s (a :: as) = some u ↔ ∃ t, step s a = some t ∧ run step t as = some u := by
  simp only [run, Option.bind_eq_some_iff]

theorem run_append {as bs : List α} {s u : σ} :
    run step s (as ++ bs) = some u ↔ ∃ t, run step s as = some t ∧ run step t bs = some u := by
  induction as generalizing s with
  | nil => simp
  | cons a as ih =>
    simp only [List.cons_append, run_cons, ih]
    refine ⟨fun h => ?_, fun h => ?_⟩
    · obtain ⟨t, ht, v, hv, hu⟩ := h
      exact ⟨v, ⟨t, ht, hv⟩, hu⟩
    · obtain ⟨v, ⟨t, ht, hv⟩, hu⟩ := h
      exact ⟨t, ht, v, hv, hu⟩

theorem Reach.refl (s : σ) : Reach step s s := ⟨[], rfl⟩

theorem Reach.trans {s t u : σ} (h₁ : Reach step s t) (h₂ : Reach step t u) : Reach step s u := by
  obtain ⟨as, has⟩ := h₁
  obtain ⟨bs, hbs⟩ := h₂
  exact ⟨as ++ bs, run_append.mpr ⟨t, has, hbs⟩⟩

theorem Reach.single {s t : σ} {a : α} (h : step s a = some t) : Reach step s t :=
  ⟨[a], run_cons.mpr ⟨t, h, rfl⟩⟩

/-- A state that can always lower its rank can bring it to zero. -/
theorem Reach.of_rank (I : σ → Prop) (rank : σ → Nat)
    (h : ∀ s, I s → rank s ≠ 0 → ∃ a t, step s a = some t ∧ I t ∧ rank t < rank s) :
    ∀ s, I s → ∃ t, Reach step s t ∧ I t ∧ rank t = 0 := by
  intro s
  induction hn : rank s using Nat.strong_induction_on generalizing s with
  | _ n ih =>
    intro hs
    by_cases hz : rank s = 0
    · exact ⟨s, Reach.refl s, hs, hz⟩
    · obtain ⟨a, t, hstep, ht, hlt⟩ := h s hs hz
      obtain ⟨u, hu, hIu, hzero⟩ := ih (rank t) (hn ▸ hlt) t rfl ht
      exact ⟨u, (Reach.single hstep).trans hu, hIu, hzero⟩

/-- What every action preserves, every run preserves. -/
theorem run_invariant {I : σ → Prop} (hstep : ∀ s a t, I s → step s a = some t → I t) :
    ∀ (as : List α) (s t : σ), I s → run step s as = some t → I t := by
  intro as
  induction as with
  | nil =>
    intro s t hs hr
    simp only [run_nil, Option.some.injEq] at hr
    exact hr ▸ hs
  | cons a as ih =>
    intro s t hs hr
    obtain ⟨u, hu, hr⟩ := run_cons.mp hr
    exact ih u t (hstep s a u hs hu) hr

theorem Reach.invariant {I : σ → Prop} {s t : σ} (h : Reach step s t)
    (hstep : ∀ s a t, I s → step s a = some t → I t) (hs : I s) : I t := by
  obtain ⟨as, has⟩ := h
  exact run_invariant hstep as s t hs has

/-- What every action that meets `C` preserves, every run of such actions preserves. -/
theorem run_invariant_of_meets {C : σ → α → Prop} {I : σ → Prop}
    (hstep : ∀ s a t, I s → C s a → step s a = some t → I t) :
    ∀ (as : List α) (s t : σ), I s → Meets step C s as → run step s as = some t → I t := by
  intro as
  induction as with
  | nil =>
    intro s t hs _ hr
    simp only [run_nil, Option.some.injEq] at hr
    exact hr ▸ hs
  | cons a as ih =>
    intro s t hs hm hr
    obtain ⟨u, hu, hr⟩ := run_cons.mp hr
    exact ih u t (hstep s a u hs hm.1 hu) (hm.2 u hu) hr

/-- The same for every state on the way. -/
theorem always_of_meets {C : σ → α → Prop} {I P : σ → Prop} (hIP : ∀ s, I s → P s)
    (hstep : ∀ s a t, I s → C s a → step s a = some t → I t) :
    ∀ (as : List α) (s : σ), I s → Meets step C s as → Always step P s as := by
  intro as
  induction as with
  | nil => intro s hs _; exact hIP s hs
  | cons a as ih =>
    intro s hs hm
    exact ⟨hIP s hs, fun t ht => ih t (hstep s a t hs hm.1 ht) (hm.2 t ht)⟩

theorem Meets.cons {C : σ → α → Prop} {s t : σ} {a : α} {as : List α} (h : step s a = some t)
    (ha : C s a) (has : Meets step C t as) : Meets step C s (a :: as) := by
  refine ⟨ha, fun t' ht' => ?_⟩
  rw [h, Option.some.injEq] at ht'
  exact ht' ▸ has

instance Meets.decidable {C : σ → α → Prop} [∀ s a, Decidable (C s a)] :
    ∀ (as : List α) (s : σ), Decidable (Meets step C s as)
  | [], _ => instDecidableTrue
  | a :: as, s =>
    match h : step s a with
    | none => decidable_of_iff (C s a) (by simp [Meets, h])
    | some t =>
      have : Decidable (Meets step C t as) := Meets.decidable as t
      decidable_of_iff (C s a ∧ Meets step C t as) (by simp [Meets, h])

/-- A condition on the actions alone. -/
theorem meets_of_forall {C : σ → α → Prop} {as : List α} (h : ∀ a ∈ as, ∀ s, C s a) (s : σ) :
    Meets step C s as := by
  induction as generalizing s with
  | nil => trivial
  | cons a as ih =>
    exact ⟨h a List.mem_cons_self s, fun t _ => ih (fun b hb => h b (List.mem_cons_of_mem a hb)) t⟩

/-- An invariant of every step, whatever the action. -/
theorem always_of_invariant {I P : σ → Prop} (hIP : ∀ s, I s → P s)
    (hstep : ∀ s a t, I s → step s a = some t → I t) (as : List α) (s : σ) (hs : I s) :
    Always step P s as :=
  always_of_meets (C := fun _ _ => True) hIP (fun s a t h _ hst => hstep s a t h hst) as s hs
    (meets_of_forall (fun _ _ _ => trivial) s)

/-- One part of a run after another. -/
theorem Meets.append {C : σ → α → Prop} {as bs : List α} {s t : σ} (h : Meets step C s as)
    (hr : run step s as = some t) (ht : Meets step C t bs) : Meets step C s (as ++ bs) := by
  induction as generalizing s with
  | nil =>
    obtain rfl := Option.some.inj hr
    exact ht
  | cons a as ih =>
    obtain ⟨u, hu, hr⟩ := run_cons.mp hr
    exact .cons hu h.1 (ih (h.2 u hu) hr)

/-- What `Meets` says of the action behind a part of the run. -/
theorem Meets.at {C : σ → α → Prop} {a : α} {bs cs : List α} {s t : σ}
    (h : Meets step C s (bs ++ a :: cs)) (hr : run step s bs = some t) : C t a := by
  induction bs generalizing s with
  | nil =>
    obtain rfl := Option.some.inj hr
    exact h.1
  | cons b bs ih =>
    obtain ⟨u, hu, hr⟩ := run_cons.mp hr
    exact ih (h.2 u hu) hr

/-- **A property that some actions bring about and others end**, and nothing else touches,
    holds behind a run exactly since the last of them, or from the start on. -/
theorem holds_iff_since {S C : σ → α → Prop} {P : σ → Prop}
    (h : ∀ s a t, step s a = some t → (P t ↔ S s a ∨ P s ∧ ¬ C s a)) :
    ∀ (as : List α) (s u : σ), run step s as = some u →
      (P u ↔ Since step S C s as ∨ P s ∧ Meets step (fun s a => ¬ C s a) s as) := by
  intro as
  induction as with
  | nil =>
    intro s u hr
    obtain rfl := Option.some.inj hr
    simp [Since, Meets]
  | cons a as ih =>
    intro s u hr
    obtain ⟨t, ht, hr⟩ := run_cons.mp hr
    have hmeets : Meets step (fun s a => ¬ C s a) s (a :: as) ↔
        ¬ C s a ∧ Meets step (fun s a => ¬ C s a) t as := by
      simp only [Meets, ht, Option.some.injEq, forall_eq']
    have hsince : Since step S C s (a :: as) ↔
        S s a ∧ Meets step (fun s a => ¬ C s a) t as ∨ Since step S C t as := by
      simp only [Since, ht, Option.some.injEq, exists_eq_left']
    rw [ih t u hr, h s a t ht, hmeets, hsince]
    tauto

/-- Conditions that agree wherever an invariant holds. -/
theorem meets_iff_of_invariant {C D : σ → α → Prop} {I : σ → Prop}
    (hstep : ∀ s a t, I s → step s a = some t → I t) (hiff : ∀ s a, I s → (C s a ↔ D s a)) :
    ∀ (as : List α) (s : σ), I s → (Meets step C s as ↔ Meets step D s as) := by
  intro as
  induction as with
  | nil => exact fun _ _ => Iff.rfl
  | cons a as ih =>
    intro s hs
    exact and_congr (hiff s a hs)
      (forall₂_congr fun t ht => ih t (hstep s a t hs ht))

theorem Always.head {P : σ → Prop} {as : List α} {s : σ} (h : Always step P s as) : P s := by
  cases as with
  | nil => exact h
  | cons a as => exact h.1

/-- An invariant goes along with what holds throughout a run. -/
theorem Always.and_invariant {P I : σ → Prop} (hstep : ∀ s a t, I s → step s a = some t → I t) :
    ∀ {as : List α} {s : σ}, I s → Always step P s as → Always step (fun s => P s ∧ I s) s as := by
  intro as
  induction as with
  | nil => exact fun hs h => ⟨h, hs⟩
  | cons a as ih => exact fun hs h => ⟨⟨h.1, hs⟩, fun t ht => ih (hstep _ a t hs ht) (h.2 t ht)⟩

/-- Where each of the actions `own` lowers the rank and no other raises it, the rank bounds
    how many of them a run can have. -/
theorem countP_le_of_rank {I : σ → Prop} (rank : σ → Nat) (own : α → Bool)
    (h : ∀ s a t, I s → step s a = some t → I t → rank t + (if own a then 1 else 0) ≤ rank s) :
    ∀ (as : List α) (s t : σ), Always step I s as → run step s as = some t →
      rank t + as.countP own ≤ rank s := by
  intro as
  induction as with
  | nil =>
    intro s t _ hr
    obtain rfl := Option.some.inj hr
    exact Nat.le_refl _
  | cons a as ih =>
    intro s t hs hr
    obtain ⟨u, hu, hr⟩ := run_cons.mp hr
    have hrest := ih u t (hs.2 u hu) hr
    have hfirst := h s a u hs.1 hu (hs.2 u hu).head
    rw [List.countP_cons]
    omega

/-- `Always` speaks of the states after every prefix of the run. -/
theorem always_iff_prefix {P : σ → Prop} {as : List α} {s : σ} :
    Always step P s as ↔ ∀ bs, bs <+: as → ∀ t, run step s bs = some t → P t := by
  induction as generalizing s with
  | nil =>
    refine ⟨?_, ?_⟩
    · intro h bs hbs t ht
      rw [List.prefix_nil.mp hbs, run_nil, Option.some.injEq] at ht
      exact ht ▸ h
    · intro h
      exact h [] (List.prefix_refl []) s rfl
  | cons a as ih =>
    refine ⟨?_, ?_⟩
    · intro h bs hbs t ht
      cases bs with
      | nil =>
        rw [run_nil, Option.some.injEq] at ht
        exact ht ▸ h.1
      | cons b bs =>
        obtain ⟨rfl, htail⟩ := List.cons_prefix_cons.mp hbs
        obtain ⟨u, hu, ht⟩ := run_cons.mp ht
        exact ih.mp (h.2 u hu) bs htail t ht
    · intro h
      refine ⟨h [] (List.nil_prefix) s rfl, fun u hu => ih.mpr ?_⟩
      intro bs hbs t ht
      exact h (a :: bs) (List.cons_prefix_cons.mpr ⟨rfl, hbs⟩) t (run_cons.mpr ⟨u, hu, ht⟩)

/-- **A condition that is exact at every step is exact on runs**: from states with
    the invariant `I`, actions that meet `C` keep it, and an action that leads to a
    state with `P` meets `C`. Then a run stays in states with `P`, which `I`
    contains, exactly when all its actions meet `C`. -/
theorem always_iff_meets_of_invariant {C : σ → α → Prop} {I P : σ → Prop}
    (hIP : ∀ s, I s → P s)
    (hstep : ∀ s a t, I s → step s a = some t → C s a → I t)
    (hback : ∀ s a t, I s → step s a = some t → P t → C s a) :
    ∀ (as : List α) (s u : σ), I s → run step s as = some u →
      (Always step P s as ↔ Meets step C s as) := by
  intro as
  induction as with
  | nil => intro s u hs _; exact ⟨fun _ => trivial, fun _ => hIP s hs⟩
  | cons a as ih =>
    intro s u hs hr
    obtain ⟨t, ht, hr⟩ := run_cons.mp hr
    -- an action has one outcome, so both sides speak of the same state
    have only : ∀ t', step s a = some t' → t' = t := fun t' ht' =>
      Option.some.inj (ht'.symm.trans ht)
    refine ⟨fun h => ?_, fun h => ?_⟩
    · have hC := hback s a t hs ht (h.2 t ht).head
      refine ⟨hC, fun t' ht' => ?_⟩
      rw [only t' ht']
      exact (ih t u (hstep s a t hs ht hC) hr).mp (h.2 t ht)
    · refine ⟨hIP s hs, fun t' ht' => ?_⟩
      rw [only t' ht']
      exact (ih t u (hstep s a t hs ht h.1) hr).mpr (h.2 t ht)

/-- The same where the states that count are the ones the steps speak of. -/
theorem always_iff_meets {C : σ → α → Prop} {I : σ → Prop}
    (hstep : ∀ s a t, I s → step s a = some t → (I t ↔ C s a)) :
    ∀ (as : List α) (s u : σ), I s → run step s as = some u →
      (Always step I s as ↔ Meets step C s as) :=
  always_iff_meets_of_invariant (fun _ h => h) (fun s a t hs ht hC => (hstep s a t hs ht).mpr hC)
    (fun s a t hs ht hI => (hstep s a t hs ht).mp hI)

/-! Two systems side by side. -/

section
variable {σ₁ σ₂ α₁ α₂ : Type} {step₁ : σ₁ → α₁ → Option σ₁} {step₂ : σ₂ → α₂ → Option σ₂}

/-- Each action is one of the first system or one of the second. -/
def prod (step₁ : σ₁ → α₁ → Option σ₁) (step₂ : σ₂ → α₂ → Option σ₂) (s : σ₁ × σ₂) :
    α₁ ⊕ α₂ → Option (σ₁ × σ₂)
  | .inl a => (step₁ s.1 a).map fun t => (t, s.2)
  | .inr b => (step₂ s.2 b).map fun t => (s.1, t)

/-- The action meets the condition of its system. -/
def Both (C₁ : σ₁ → α₁ → Prop) (C₂ : σ₂ → α₂ → Prop) (s : σ₁ × σ₂) : α₁ ⊕ α₂ → Prop
  | .inl a => C₁ s.1 a
  | .inr b => C₂ s.2 b

/-- Invariants of the two systems hold of them side by side. -/
theorem prod_invariant {C₁ : σ₁ → α₁ → Prop} {C₂ : σ₂ → α₂ → Prop} {I₁ : σ₁ → Prop}
    {I₂ : σ₂ → Prop} (h₁ : ∀ s a t, I₁ s → C₁ s a → step₁ s a = some t → I₁ t)
    (h₂ : ∀ s a t, I₂ s → C₂ s a → step₂ s a = some t → I₂ t)
    (s : σ₁ × σ₂) (a : α₁ ⊕ α₂) (t : σ₁ × σ₂) (hs : I₁ s.1 ∧ I₂ s.2) (hC : Both C₁ C₂ s a)
    (hstep : prod step₁ step₂ s a = some t) : I₁ t.1 ∧ I₂ t.2 := by
  cases a with
  | inl a =>
    obtain ⟨u, hu, rfl⟩ := Option.map_eq_some_iff.mp hstep
    exact ⟨h₁ s.1 a u hs.1 hC hu, hs.2⟩
  | inr b =>
    obtain ⟨u, hu, rfl⟩ := Option.map_eq_some_iff.mp hstep
    exact ⟨hs.1, h₂ s.2 b u hs.2 hC hu⟩

end

end Transition
