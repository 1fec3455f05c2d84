import Mathlib.Data.List.Infix

/- Streams of two-part units: a head, and a body exactly when the unit has one.
   `stream` lays whole units end to end; a sequence is `Framed` when it is such a
   stream, possibly cut off at its end. Parts carry the unit they belong to, so a
   framed sequence decodes uniquely: no body stands first, and a head that has a
   body is followed by that body and by nothing else. -/
namespace Framing

/-- A part of a unit: its head or its body. -/
inductive Part (α : Type*) where
  | head (a : α)
  | body (a : α)
  deriving DecidableEq, Repr

variable {α : Type*} (hasBody : α → Bool)

/-- The parts of one unit, in order. -/
def unit (a : α) : List (Part α) :=
  if hasBody a then [.head a, .body a] else [.head a]

/-- Whole units end to end. -/
def stream (as : List α) : List (Part α) := as.flatMap (unit hasBody)

/-- Whole units, possibly cut off at the end. -/
def Framed (ps : List (Part α)) : Prop := ∃ as, ps <+: stream hasBody as

/-- Whole units and nothing else. -/
def Whole (ps : List (Part α)) : Prop := ∃ as, ps = stream hasBody as

/-- Whole units, then the head of `a`, whose body is still to come. -/
def OpenAt (a : α) (ps : List (Part α)) : Prop :=
  hasBody a = true ∧ ∃ as, ps = stream hasBody as ++ [.head a]

variable {hasBody}

theorem unit_of_body {a : α} (h : hasBody a = true) : unit hasBody a = [.head a, .body a] := by
  simp [unit, h]

theorem unit_of_no_body {a : α} (h : hasBody a = false) : unit hasBody a = [.head a] := by
  simp [unit, h]

/-- A unit is its head and what is left of it. -/
theorem unit_eq_cons (a : α) :
    unit hasBody a = .head a :: (if hasBody a then [.body a] else []) := by
  cases h : hasBody a <;> simp [unit, h]

@[simp] theorem stream_nil : stream hasBody [] = [] := rfl

@[simp] theorem stream_cons (a : α) (as : List α) :
    stream hasBody (a :: as) = unit hasBody a ++ stream hasBody as := by
  simp [stream]

@[simp] theorem stream_append (as bs : List α) :
    stream hasBody (as ++ bs) = stream hasBody as ++ stream hasBody bs := by
  simp [stream]

theorem whole_nil : Whole hasBody ([] : List (Part α)) := ⟨[], rfl⟩

/-- A head without a body completes a unit. -/
theorem Whole.snoc_head {ps : List (Part α)} {a : α} (h : Whole hasBody ps)
    (ha : hasBody a = false) : Whole hasBody (ps ++ [.head a]) := by
  obtain ⟨as, rfl⟩ := h
  exact ⟨as ++ [a], by simp [unit_of_no_body ha]⟩

/-- A head with a body opens a unit. -/
theorem Whole.open_head {ps : List (Part α)} {a : α} (h : Whole hasBody ps)
    (ha : hasBody a = true) : OpenAt hasBody a (ps ++ [.head a]) := by
  obtain ⟨as, rfl⟩ := h
  exact ⟨ha, as, rfl⟩

/-- Its own body completes an open unit. -/
theorem OpenAt.snoc_body {ps : List (Part α)} {a : α} (h : OpenAt hasBody a ps) :
    Whole hasBody (ps ++ [.body a]) := by
  obtain ⟨ha, as, rfl⟩ := h
  exact ⟨as ++ [a], by simp [unit_of_body ha]⟩

theorem Framed.of_prefix {ps qs : List (Part α)} (h : Framed hasBody qs) (hpq : ps <+: qs) :
    Framed hasBody ps := by
  obtain ⟨as, has⟩ := h
  exact ⟨as, hpq.trans has⟩

theorem Whole.framed {ps : List (Part α)} (h : Whole hasBody ps) : Framed hasBody ps := by
  obtain ⟨as, rfl⟩ := h
  exact ⟨as, List.prefix_refl _⟩

theorem OpenAt.framed {ps : List (Part α)} {a : α} (h : OpenAt hasBody a ps) :
    Framed hasBody ps :=
  h.snoc_body.framed.of_prefix (List.prefix_append ps [.body a])

/-! Unique decoding. -/

/-- Units are told apart by their first part. -/
theorem framed_unit_append {a : α} {ps : List (Part α)} :
    Framed hasBody (unit hasBody a ++ ps) ↔ Framed hasBody ps := by
  refine ⟨fun h => ?_, fun h => ?_⟩
  · obtain ⟨bs, hbs⟩ := h
    cases bs with
    | nil =>
      rw [unit_eq_cons] at hbs
      simp at hbs
    | cons b bs =>
      have hab : a = b := by
        rw [stream_cons, unit_eq_cons, unit_eq_cons, List.cons_append, List.cons_append,
          List.cons_prefix_cons] at hbs
        exact (Part.head.inj hbs.1)
      subst hab
      rw [stream_cons, List.prefix_append_right_inj] at hbs
      exact ⟨bs, hbs⟩
  · obtain ⟨bs, hbs⟩ := h
    refine ⟨a :: bs, ?_⟩
    rw [stream_cons, List.prefix_append_right_inj]
    exact hbs

theorem framed_stream_append {as : List α} {ps : List (Part α)} :
    Framed hasBody (stream hasBody as ++ ps) ↔ Framed hasBody ps := by
  induction as with
  | nil => simp
  | cons a as ih => rw [stream_cons, List.append_assoc, framed_unit_append, ih]

/-- The first part of a framed sequence is a head. -/
theorem Framed.first_is_head {p : Part α} {ps : List (Part α)} (h : Framed hasBody (p :: ps)) :
    ∃ a, p = .head a := by
  obtain ⟨as, has⟩ := h
  cases as with
  | nil => simp at has
  | cons a as =>
    rw [stream_cons, unit_eq_cons, List.cons_append, List.cons_prefix_cons] at has
    exact ⟨a, has.1⟩

/-- After a head that has a body comes that body. -/
theorem Framed.body_follows {a : α} {p : Part α} {ps : List (Part α)}
    (h : Framed hasBody (.head a :: p :: ps)) (ha : hasBody a = true) : p = .body a := by
  obtain ⟨as, has⟩ := h
  cases as with
  | nil => simp at has
  | cons b as =>
    rw [stream_cons, unit_eq_cons, List.cons_append, List.cons_prefix_cons] at has
    obtain ⟨hab, has⟩ := has
    obtain rfl := Part.head.inj hab
    rw [if_pos ha, List.singleton_append, List.cons_prefix_cons] at has
    exact has.1

/-- A head whose body is still to come is not followed by another head. -/
theorem OpenAt.not_framed_head {a b : α} {ps : List (Part α)} (h : OpenAt hasBody a ps) :
    ¬ Framed hasBody (ps ++ [.head b]) := by
  obtain ⟨ha, as, rfl⟩ := h
  intro hf
  rw [List.append_assoc, framed_stream_append] at hf
  cases hf.body_follows ha

/-- A sequence that starts with a body is not framed. -/
theorem not_framed_body (a : α) (ps : List (Part α)) : ¬ Framed hasBody (.body a :: ps) := by
  intro h
  obtain ⟨b, hb⟩ := h.first_is_head
  cases hb

end Framing
