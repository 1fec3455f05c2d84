import VirtualCaptureStream.Lib.Transition

/- Threads that are stopped by a flag. A thread sets the flag when it first runs, tests
   it at every turn of its loop, and leaves the loop when somebody has cleared it.
   `Worker` is what there is to know about such a thread; a `View` shows the thread
   inside a larger system. Clearing the flag stops the thread for good exactly when
   the thread has already set it (`View.staysStopped_iff`): one that was created and
   has not run yet sets it afterwards. -/
namespace StopFlag

open Transition

inductive Phase where
  | absent
  | created
  | looping
  deriving DecidableEq

/-- The flag, and how far the thread has come. -/
structure Worker where
  flag : Bool
  phase : Phase

/-- What a step does about the thread: it is created, sets the flag (`begin`), finds the
    flag set at the head of its loop (`turn`) or before it serves somebody (`serve`),
    leaves the loop, or is terminated; or somebody clears the flag. -/
inductive Label where
  | quiet
  | create
  | begin
  | clear
  | turn
  | serve
  | exit
  | kill
  deriving DecidableEq

def Worker.apply (w : Worker) : Label → Option Worker
  | .quiet => some w
  | .create => if w.phase = .absent then some { w with phase := .created } else none
  | .begin => if w.phase = .created then some ⟨true, .looping⟩ else none
  | .clear => some { w with flag := false }
  | .turn | .serve => if w.phase = .looping ∧ w.flag = true then some w else none
  | .exit => if w.phase = .looping then some ⟨false, .absent⟩ else none
  | .kill => some { w with phase := .absent }

/-- The flag is off, and there is no thread that has yet to set it. -/
structure Worker.Stopped (w : Worker) : Prop where
  off : w.flag = false
  begun : w.phase ≠ .created

/-- Without a new thread, the flag stays off. -/
theorem Worker.Stopped.apply {w w' : Worker} {l : Label} (h : w.Stopped)
    (hl : l ≠ .create) (ha : w.apply l = some w') : w'.Stopped := by
  cases l with
  | quiet =>
    obtain rfl := Option.some.inj ha
    exact h
  | create => exact absurd rfl hl
  | begin =>
    simp only [Worker.apply, Option.ite_none_right_eq_some] at ha
    exact absurd ha.1 h.begun
  | clear =>
    obtain rfl := Option.some.inj ha
    exact ⟨rfl, h.begun⟩
  | turn | serve =>
    simp only [Worker.apply, Option.ite_none_right_eq_some] at ha
    obtain rfl := Option.some.inj ha.2
    exact h
  | exit =>
    simp only [Worker.apply, Option.ite_none_right_eq_some] at ha
    obtain rfl := Option.some.inj ha.2
    exact ⟨rfl, fun e => (by cases e)⟩
  | kill =>
    obtain rfl := Option.some.inj ha
    exact ⟨h.off, fun e => (by cases e)⟩

/-- Neither does a thread go round its loop or serve anybody while the flag is off. -/
theorem Worker.Stopped.idle {w w' : Worker} {l : Label} (h : w.Stopped)
    (ha : w.apply l = some w') : l ≠ .turn ∧ l ≠ .serve := by
  refine ⟨?_, ?_⟩ <;>
  · rintro rfl
    simp only [Worker.apply, Option.ite_none_right_eq_some] at ha
    rw [h.off] at ha
    cases ha.1.2

variable {σ α : Type} {step : σ → α → Option σ}

/-- A thread of a system: what its steps do about the thread, under an invariant. A
    thread that was created can always begin. -/
structure View (step : σ → α → Option σ) where
  worker : σ → Worker
  label : σ → α → Label
  Inv : σ → Prop
  inv_step : ∀ s a t, Inv s → step s a = some t → Inv t
  refines : ∀ s a t, Inv s → step s a = some t → (worker s).apply (label s a) = some (worker t)
  begins : ∀ s, Inv s → (worker s).phase = .created → ∃ a t, step s a = some t ∧ label s a = .begin

namespace View

/-- In every run from here, up to the creation of another thread, the flag stays off
    and the thread neither starts a turn of its loop nor serves anybody. -/
def StaysStopped (V : View step) (t : σ) : Prop :=
  ∀ as u, run step t as = some u → Meets step (fun s a => V.label s a ≠ .create) t as →
    Always step (fun s => (V.worker s).flag = false) t as ∧
      Meets step (fun s a => V.label s a ≠ .turn ∧ V.label s a ≠ .serve) t as

theorem stopped_run (V : View step) : ∀ (as : List α) (s : σ), V.Inv s → (V.worker s).Stopped →
    Meets step (fun s a => V.label s a ≠ .create) s as →
    Always step (fun s => (V.worker s).flag = false) s as ∧
      (∀ u, run step s as = some u →
        Meets step (fun s a => V.label s a ≠ .turn ∧ V.label s a ≠ .serve) s as)
  | [], s, _, hw, _ => ⟨hw.off, fun _ _ => trivial⟩
  | a :: as, s, hs, hw, hm => by
    have hnext : ∀ t, step s a = some t → V.Inv t ∧ (V.worker t).Stopped := fun t ht =>
      ⟨V.inv_step s a t hs ht, hw.apply hm.1 (V.refines s a t hs ht)⟩
    refine ⟨⟨hw.off, fun t ht => ?_⟩, fun u hu => ?_⟩
    · obtain ⟨hinv, hstop⟩ := hnext t ht
      exact (stopped_run V as t hinv hstop (hm.2 t ht)).1
    · obtain ⟨t, ht, hrun⟩ := run_cons.mp hu
      obtain ⟨hinv, hstop⟩ := hnext t ht
      exact Meets.cons ht (hw.idle (V.refines s a t hs ht))
        ((stopped_run V as t hinv hstop (hm.2 t ht)).2 u hrun)

/-- **A cleared flag stops the thread** exactly when the thread has set it before. -/
theorem staysStopped_iff (V : View step) {s t : σ} {a : α} (hs : V.Inv s)
    (hstep : step s a = some t) (hclear : V.label s a = .clear) :
    V.StaysStopped t ↔ (V.worker s).phase ≠ .created := by
  have hworker := V.refines s a t hs hstep
  rw [hclear] at hworker
  have hafter : V.worker t = ⟨false, (V.worker s).phase⟩ := (Option.some.inj hworker).symm
  have ht := V.inv_step s a t hs hstep
  refine ⟨fun h hphase => ?_, fun hphase as u hrun hm => ?_⟩
  · -- the thread begins, and the flag is on again
    have hcreated : (V.worker t).phase = .created := by
      rw [hafter]
      exact hphase
    obtain ⟨b, v, hv, hbegin⟩ := V.begins t ht hcreated
    have hon := V.refines t b v ht hv
    rw [hbegin, Worker.apply, if_pos hcreated, Option.some.injEq] at hon
    have hno : V.label t b ≠ .create := by
      rw [hbegin]
      exact fun e => (by cases e)
    have hoff : (V.worker v).flag = false :=
      (h [b] v (run_cons.mpr ⟨v, hv, rfl⟩) (Meets.cons hv hno trivial)).1.2 v hv
    rw [← hon] at hoff
    cases hoff
  · have hstop : (V.worker t).Stopped := by
      rw [hafter]
      exact ⟨rfl, hphase⟩
    obtain ⟨hoff, hidle⟩ := stopped_run V as t ht hstop hm
    exact ⟨hoff, hidle u hrun⟩

end View

end StopFlag
