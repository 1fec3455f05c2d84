import Mathlib.Data.List.Count
import Mathlib.Logic.Function.Basic

/- Counted references. An owner has pointers (`slots`), each of them null or at an
   object, and holds references: AddRef takes one, Release gives one back. A pointer
   that is moved takes a reference to what it will point at and gives back the one it
   had, which leaves the `surplus` alone: what is held beyond the pointers. The books
   are `Balanced` where the surplus is nothing. -/
namespace RefCount

variable {α : Type} [DecidableEq α]

def addRef (a : α) (refs : α → Int) : α → Int := Function.update refs a (refs a + 1)

def release (a : α) (refs : α → Int) : α → Int := Function.update refs a (refs a - 1)

/-- Release through a pointer, unless it is null. -/
def releaseAt : Option α → (α → Int) → α → Int
  | none, refs => refs
  | some a, refs => release a refs

/-- What is held on `a` beyond the pointers to it. -/
def surplus (refs : α → Int) (slots : List (Option α)) (a : α) : Int :=
  refs a - slots.count (some a)

def Balanced (refs : α → Int) (slots : List (Option α)) : Prop :=
  ∀ a, surplus refs slots a = 0

theorem addRef_apply (a b : α) (refs : α → Int) :
    addRef a refs b = refs b + if a = b then 1 else 0 := by
  by_cases h : a = b
  · subst h
    rw [addRef, Function.update_self, if_pos rfl]
  · rw [addRef, Function.update_of_ne (Ne.symm h), if_neg h]
    omega

theorem release_apply (a b : α) (refs : α → Int) :
    release a refs b = refs b - if a = b then 1 else 0 := by
  by_cases h : a = b
  · subst h
    rw [release, Function.update_self, if_pos rfl]
  · rw [release, Function.update_of_ne (Ne.symm h), if_neg h]
    omega

theorem releaseAt_apply (p : Option α) (b : α) (refs : α → Int) :
    releaseAt p refs b = refs b - if p = some b then 1 else 0 := by
  cases p with
  | none => simp [releaseAt]
  | some a => simp [releaseAt, release_apply]

/-- It makes no difference which is done first. -/
theorem releaseAt_addRef (p : Option α) (a : α) (refs : α → Int) :
    releaseAt p (addRef a refs) = addRef a (releaseAt p refs) := by
  funext b
  simp only [releaseAt_apply, addRef_apply]
  omega

/-- How the pointers to `a` change when one of them is moved. -/
theorem count_set {slots : List (Option α)} {i : Nat} {old : Option α}
    (h : slots[i]? = some old) (new : Option α) (a : α) :
    ((slots.set i new).count (some a) : Int) =
      slots.count (some a) + (if new = some a then 1 else 0) - if old = some a then 1 else 0 := by
  induction slots generalizing i with
  | nil => simp at h
  | cons p slots ih =>
    cases i with
    | zero =>
      obtain rfl : p = old := by simpa using h
      rw [List.set_cons_zero, List.count_cons, List.count_cons]
      simp only [beq_iff_eq]
      split <;> split <;> omega
    | succ i =>
      have hrest := ih (i := i) (by simpa using h)
      rw [List.set_cons_succ, List.count_cons, List.count_cons]
      split <;> omega

/-- A pointer that is moved. -/
theorem surplus_move {slots : List (Option α)} {i : Nat} {old : Option α}
    (h : slots[i]? = some old) (new b : α) (refs : α → Int) :
    surplus (addRef new (releaseAt old refs)) (slots.set i (some new)) b =
      surplus refs slots b := by
  have hcount := count_set h (some new) b
  simp only [surplus, addRef_apply, releaseAt_apply, Option.some.injEq] at hcount ⊢
  omega

/-- A pointer that is set to null. -/
theorem surplus_clear {slots : List (Option α)} {i : Nat} {old : Option α}
    (h : slots[i]? = some old) (b : α) (refs : α → Int) :
    surplus (releaseAt old refs) (slots.set i none) b = surplus refs slots b := by
  have hcount := count_set h none b
  simp only [surplus, releaseAt_apply, reduceCtorEq, if_false] at hcount ⊢
  omega

/-- A reference that no pointer is for. -/
theorem surplus_addRef (a b : α) (refs : α → Int) (slots : List (Option α)) :
    surplus (addRef a refs) slots b = surplus refs slots b + if a = b then 1 else 0 := by
  simp only [surplus, addRef_apply]
  omega

namespace Balanced

variable {refs : α → Int} {slots : List (Option α)}

theorem eq_count (h : Balanced refs slots) (a : α) : refs a = slots.count (some a) := by
  have ha := h a
  unfold surplus at ha
  omega

theorem nonneg (h : Balanced refs slots) (a : α) : 0 ≤ refs a := by
  rw [h.eq_count a]
  omega

/-- No pointer, no reference. -/
theorem eq_zero (h : Balanced refs slots) (hnull : ∀ p ∈ slots, p = none) (a : α) :
    refs a = 0 := by
  have hnone : slots.count (some a) = 0 := by
    rw [List.count_eq_zero]
    intro hmem
    cases hnull _ hmem
  rw [h.eq_count a, hnone]
  rfl

end Balanced

end RefCount
