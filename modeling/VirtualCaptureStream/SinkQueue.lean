import VirtualCaptureStream.SinkCore

/- Which samples are in the write buffer. Samples are numbered as Receive gets
   them; the buffer holds them in that order (`Numbered`), and a sample that is in
   none of buffer, hand and pipe is never seen again (`Within`). -/
namespace VirtualCaptureStream

/-- The sample in the writer's hand. -/
def Stage.id? : Stage → Option Nat
  | .idle => none
  | .held x => some x.id
  | .built x _ => some x.id
  | .sent x _ _ => some x.id

namespace Core

/-- Some client was sent the header of the sample. -/
def Written (k : Core) (id : Nat) : Prop := ∃ log ∈ k.logs, ∃ p, Framing.Part.head (id, p) ∈ log

/-- The header was written, or the writer has the sample in its hand. -/
def Taken (k : Core) (id : Nat) : Prop := k.Written id ∨ k.stage.id? = some id

theorem written_write {k : Core} {m : Sent} {id : Nat} (h : (k.write m).Written id) :
    k.Written id ∨ ∃ p, m = .head (id, p) := by
  obtain ⟨log, hlog, p, hp⟩ := h
  cases hc : k.client with
  | none =>
    rw [write, hc] at hlog
    exact Or.inl ⟨log, hlog, p, hp⟩
  | some c =>
    rw [write, hc] at hlog
    obtain ⟨d, hd⟩ := List.mem_iff_getElem?.mp hlog
    simp only [deliver, List.getElem?_modify] at hd
    obtain ⟨old, hold, rfl⟩ := Option.map_eq_some_iff.mp hd
    have hmem : old ∈ k.logs := List.mem_of_getElem? hold
    by_cases hcd : c = d
    · simp only [hcd, if_true] at hp
      rcases List.mem_append.mp hp with hp | hp
      · exact Or.inl ⟨old, hmem, p, hp⟩
      · exact Or.inr ⟨p, (List.mem_singleton.mp hp).symm⟩
    · simp only [hcd, if_false] at hp
      exact Or.inl ⟨old, hmem, p, hp⟩

theorem written_attach {logs : List (List Sent)} {k : Core} {c : Option Nat} {id : Nat}
    (hlogs : k.logs = logs) (h : ({ k with client := c, logs := logs ++ [[]] } : Core).Written id) :
    k.Written id := by
  obtain ⟨log, hlog, p, hp⟩ := h
  rcases List.mem_append.mp hlog with hlog | hlog
  · exact ⟨log, hlogs ▸ hlog, p, hp⟩
  · rw [List.mem_singleton.mp hlog] at hp
    cases hp

/-- What a label does to the queue: nothing, a sample is added, or the first one is
    taken. Only then is another sample taken. -/
theorem apply_queue {k k' : Core} {l : Label} (h : k.apply l = some k') :
    (k'.queue = k.queue ∧ k'.received = k.received ∧ ∀ id, k'.Taken id → k.Taken id) ∨
    (∃ sample, k'.queue = k.queue ++ [⟨k.received, sample⟩] ∧ k'.received = k.received + 1 ∧
      ∀ id, k'.Taken id → k.Taken id) ∨
    (∃ x, l = .pop ∧ k.queue = x :: k'.queue ∧ k'.received = k.received ∧
      ∀ id, k'.Taken id → k.Taken id ∨ id = x.id) := by
  cases l with
  | quiet =>
    obtain rfl := Option.some.inj h
    exact Or.inl ⟨rfl, rfl, fun _ ht => ht⟩
  | attach =>
    obtain rfl := Option.some.inj h
    exact Or.inl ⟨rfl, rfl, fun _ ht => ht.imp_left (written_attach rfl)⟩
  | detach =>
    obtain rfl := Option.some.inj h
    exact Or.inl ⟨rfl, rfl, fun _ ht => ht⟩
  | push sample =>
    obtain rfl := Option.some.inj h
    exact Or.inr (Or.inl ⟨sample, rfl, rfl, fun _ ht => ht⟩)
  | pop =>
    obtain ⟨x, xs, -, hq, rfl⟩ := apply_pop h
    refine Or.inr (Or.inr ⟨x, rfl, hq, rfl, fun id ht => ?_⟩)
    rcases ht with ht | ht
    · exact Or.inl (Or.inl ht)
    · exact Or.inr (Option.some.inj ht).symm
  | build r r2 =>
    obtain ⟨x, hs, rfl⟩ := apply_build h
    refine Or.inl ⟨rfl, rfl, fun id ht => ht.imp_right fun hid => ?_⟩
    rw [hs]
    exact hid
  | skip =>
    obtain ⟨x, -, rfl⟩ := apply_skip h
    exact Or.inl ⟨rfl, rfl, fun id ht => ht.imp_right fun hid => by cases hid⟩
  | head =>
    obtain ⟨x, p, hs, rfl⟩ := apply_head h
    -- what is written was in the writer's hand
    refine Or.inl ⟨rfl, rfl, fun id ht => ?_⟩
    have hhand : id = x.id → k.stage.id? = some id := by
      intro e
      rw [hs, e]
      rfl
    rcases ht with ht | ht
    · rcases written_write ht with hw | ⟨p', hp⟩
      · exact Or.inl hw
      · exact Or.inr (hhand (by cases hp; rfl))
    · apply Or.inr
      apply hhand
      dsimp only at ht
      split at ht
      · exact (Option.some.inj ht).symm
      · cases ht
  | body =>
    obtain ⟨x, p, sentTo, -, rfl⟩ := apply_body h
    refine Or.inl ⟨rfl, rfl, fun id ht => ?_⟩
    rcases ht with ht | ht
    · rcases written_write ht with hw | ⟨p', hp⟩
      · exact Or.inl hw
      · cases hp
    · cases ht
  | drop =>
    rcases apply_drop h with ⟨x, p, c, -, rfl⟩ | rfl
    all_goals exact Or.inl ⟨rfl, rfl, fun id ht => ht.imp_right fun hid => by cases hid⟩

/-- Samples are numbered in the order of the queue, those that were taken lie below
    it and those to come above. -/
structure Numbered (k : Core) : Prop where
  sorted : k.queue.Pairwise (·.id < ·.id)
  lt_received : ∀ x ∈ k.queue, x.id < k.received
  taken_lt : ∀ id, k.Taken id → id < k.received ∧ ∀ x ∈ k.queue, id < x.id

theorem Numbered.apply {k k' : Core} {l : Label} (hk : k.Numbered) (h : k.apply l = some k') :
    k'.Numbered := by
  rcases apply_queue h with ⟨hq, hr, ht⟩ | ⟨sample, hq, hr, ht⟩ | ⟨x, _, hq, hr, ht⟩
  · refine ⟨?_, ?_, ?_⟩
    · rw [hq]
      exact hk.sorted
    · rw [hq, hr]
      exact hk.lt_received
    · rw [hq, hr]
      exact fun id hid => hk.taken_lt id (ht id hid)
  · refine ⟨?_, ?_, ?_⟩
    · rw [hq, List.pairwise_append]
      refine ⟨hk.sorted, List.pairwise_singleton _ _, fun y hy z hz => ?_⟩
      rw [List.mem_singleton.mp hz]
      exact hk.lt_received y hy
    · intro y hy
      rw [hq] at hy
      rcases List.mem_append.mp hy with hy | hy
      · have := hk.lt_received y hy
        omega
      · rw [List.mem_singleton.mp hy]
        show k.received < k'.received
        omega
    · intro id hid
      obtain ⟨hlt, hall⟩ := hk.taken_lt id (ht id hid)
      refine ⟨by omega, fun y hy => ?_⟩
      rw [hq] at hy
      rcases List.mem_append.mp hy with hy | hy
      · exact hall y hy
      · rw [List.mem_singleton.mp hy]
        exact hlt
  · have hsorted := hk.sorted
    rw [hq, List.pairwise_cons] at hsorted
    have hmem : ∀ y ∈ k'.queue, y ∈ k.queue := by
      intro y hy
      rw [hq]
      exact List.mem_cons_of_mem _ hy
    refine ⟨hsorted.2, fun y hy => hr ▸ hk.lt_received y (hmem y hy), fun id hid => ?_⟩
    rw [hr]
    rcases ht id hid with hid | rfl
    · obtain ⟨hlt, hall⟩ := hk.taken_lt id hid
      exact ⟨hlt, fun y hy => hall y (hmem y hy)⟩
    · exact ⟨hk.lt_received x (hq ▸ List.mem_cons_self), hsorted.1⟩

/-- Every sample that is queued or taken, or is still to come, has a number in `P`. -/
structure Within (P : Nat → Prop) (k : Core) : Prop where
  queued : ∀ x ∈ k.queue, P x.id
  taken : ∀ id, k.Taken id → P id
  coming : ∀ id, k.received ≤ id → P id

theorem Within.apply {P : Nat → Prop} {k k' : Core} {l : Label} (hk : k.Within P)
    (h : k.apply l = some k') : k'.Within P := by
  rcases apply_queue h with ⟨hq, hr, ht⟩ | ⟨sample, hq, hr, ht⟩ | ⟨x, _, hq, hr, ht⟩
  · exact ⟨fun x hx => hk.queued x (hq ▸ hx), fun id hid => hk.taken id (ht id hid),
      fun id hid => hk.coming id (hr ▸ hid)⟩
  · refine ⟨fun x hx => ?_, fun id hid => hk.taken id (ht id hid), fun id hid => ?_⟩
    · rw [hq] at hx
      rcases List.mem_append.mp hx with hx | hx
      · exact hk.queued x hx
      · rw [List.mem_singleton.mp hx]
        exact hk.coming _ (Nat.le_refl _)
    · apply hk.coming
      omega
  · refine ⟨fun y hy => ?_, fun id hid => ?_, fun id hid => hk.coming id (hr ▸ hid)⟩
    · apply hk.queued
      rw [hq]
      exact List.mem_cons_of_mem _ hy
    · rcases ht id hid with hid | rfl
      · exact hk.taken id hid
      · exact hk.queued x (hq ▸ List.mem_cons_self)

end Core

end VirtualCaptureStream
