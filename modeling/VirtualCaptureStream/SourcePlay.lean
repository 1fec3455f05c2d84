import VirtualCaptureStream.SourceStop
import VirtualCaptureStream.MemAllocator

/- The worker of a source pin with the allocator of its samples and whatever the pin is
   connected to. GetBuffer, the Release behind it, Commit and Decommit are the allocator's
   own steps here; `down` counts the references to each sample that the filters downstream
   hold. The sample the worker is in FillBuffer with is the allocator's, and what FillBuffer
   does to it stays there.

   What is proved:
     1. `samples_accounted` — a sample is referenced by the worker that has it from
        GetBuffer to its Release, and by those who took it in Receive; FillBuffer never has
        a sample that somebody else references; after an Inactive the worker has none.
     2. `inactive_frees_getBuffer` — as Inactive decommits before it sends CMD_STOP, a worker
        in GetBuffer gets out of it, and Inactive is over after at most 30 steps.

   Correspondence (C++ ↔ Lean):
     `GetDeliveryBuffer`, `CBaseAllocator::GetBuffer`  ↔ the actions `getBuffer`, `wake`, `again`
     `pSample->Release()` of the loop                  ↔ `release`
     `m_pAllocator->Commit()` in Active                ↔ `commit`
     `m_pAllocator->Decommit()` in Inactive            ↔ `decommit`
     `Receive`, the filters downstream                 ↔ `keep`, `addRef`, `giveBack`, `downDecommit` -/
namespace VirtualCaptureStream

namespace WorkerPc

/-- The worker has a sample that it has to release. -/
def holds : WorkerPc → Bool
  | .release _ => true
  | w => w.sample?.isSome

/-- Nobody else has seen the sample yet. -/
def filling : WorkerPc → Bool
  | .filled _ _ => true
  | w => SourceStream.inFill w

end WorkerPc

namespace MemAllocator

def setSample (a : MemAllocator) (b : Nat) (m : MediaSample) : MemAllocator :=
  { a with samples := a.samples.modify b fun s => { s with sample := m } }

section
variable {a : MemAllocator}

theorem refs_setSample (b d : Nat) (m : MediaSample) : (a.setSample b m).refs d = a.refs d := by
  unfold refs setSample
  rw [List.getElem?_modify]
  by_cases hbd : b = d
  · subst hbd
    cases a.samples[b]? <;> simp
  · simp [hbd]

theorem content_setSample {b : Nat} (hb : 0 < a.refs b) (m : MediaSample) :
    (a.setSample b m).content b = m := by
  have hlt := lt_of_refs_pos hb
  unfold content setSample
  rw [List.getElem?_modify, List.getElem?_eq_getElem hlt]
  simp

theorem setSample_books (h : a.Books) (b : Nat) (m : MediaSample) : (a.setSample b m).Books := by
  have hlen : (a.setSample b m).samples.length = a.samples.length := List.length_modify _ _ _
  refine ⟨h.nodup, fun d => ?_, ?_, ?_, h.changed, h.selfRefs, fun he => ?_⟩
  · rw [refs_setSample, hlen]
    exact h.free_iff d
  · rw [hlen]
    exact h.decommitting
  · rw [hlen]
    exact h.outstanding
  · rw [← List.length_eq_zero_iff, hlen, h.no_block he]
    rfl

theorem Sound.setSample (h : a.Sound) {b : Nat} {m : MediaSample}
    (hsize : m.getSize = (a.content b).getSize) : (a.setSample b m).Sound := by
  obtain ⟨hfree, huncommitted, hcounted⟩ := h.waits
  refine ⟨setSample_books h.books b m, ⟨hfree, huncommitted, hcounted⟩, ?_, h.oneCall⟩
  refine Layout.modify (b := b) (f := fun s => { s with sample := m }) h.layout (fun s hs => ?_)
    rfl rfl rfl rfl
  refine ⟨rfl, hsize.trans ?_⟩
  simp [content, hs]

end

end MemAllocator

structure SourcePlay where
  stream : SourceStream
  alloc : MemAllocator
  held : Option Nat
  down : Nat → Nat

inductive PlayAction where
  | stream (a : StreamAction)
  | commit (env : AllocEnv)
  | decommit
  | getBuffer
  | wake
  | again
  | release
  | keep
  | addRef (b : Nat)
  | giveBack (b : Nat)
  | downDecommit
  | setProperties (granularity : UInt32) (request : AllocatorProperties)

namespace SourcePlay

def new (pin : SourceOutputPin) (dwParam : Command) (dwReturnVal : HRESULT) : SourcePlay where
  stream := .new pin dwParam dwReturnVal
  alloc := .new
  held := none
  down := fun _ => 0

/-- The action is not one of those that go to the allocator. -/
def alone (s : SourceStream) : StreamAction → Bool
  | .allocator _ => false
  | .work _ =>
    match s.worker with
    | .getBuffer | .release _ => false
    | _ => true
  | _ => true

/-- The allocator when FillBuffer has worked on the sample. -/
def written (s : SourcePlay) (w : WorkerPc) : MemAllocator :=
  match s.held, w.sample? with
  | some b, some m => s.alloc.setSample b m
  | _, _ => s.alloc

/-- A turn of GetBuffer, which the worker leaves with a sample or an error, or waits in. -/
def turn (s : SourcePlay) (a : MemAllocator) : Option SourcePlay :=
  match a.tryGet false with
  | (.sample b, a) =>
    (s.stream.work (.buffer (some (a.content b)))).map fun t =>
      { s with stream := t, alloc := a, held := some b }
  | (.failed _, a) =>
    (s.stream.work (.buffer none)).map fun t => { s with stream := t, alloc := a }
  | (.wait, a) =>
    match s.stream.worker with
    | .getBuffer => some { s with alloc := { a with waiting := 0 :: a.waiting } }
    | _ => none

def step (s : SourcePlay) : PlayAction → Option SourcePlay
  | .stream a =>
    if alone s.stream a then
      (s.stream.step a).map fun t => { s with stream := t, alloc := s.written t.worker }
    else none
  | .commit env =>
    if s.stream.client = .commit then
      (s.stream.step (.allocator (s.alloc.commit env).1)).map fun t =>
        { s with stream := t, alloc := (s.alloc.commit env).2 }
    else none
  | .decommit =>
    if s.stream.client = .decommit then
      (s.stream.step (.allocator S_OK)).map fun t =>
        { s with stream := t, alloc := s.alloc.decommit }
    else none
  | .getBuffer => if s.alloc.inGetBuffer 0 then none else s.turn s.alloc
  | .wake => (s.alloc.wake 0).map fun a => { s with alloc := a }
  | .again =>
    if 0 ∈ s.alloc.retrying then
      s.turn { s.alloc with retrying := s.alloc.retrying.erase 0 }
    else none
  | .release =>
    match s.stream.worker, s.held with
    | .release _, some b => (s.stream.work .go).map fun t =>
      { s with stream := t, alloc := s.alloc.release b, held := none }
    | _, _ => none
  | .keep =>
    match s.stream.worker, s.held with
    | .deliver _, some b => some { s with
      alloc := s.alloc.setRef b (s.alloc.refs b + 1)
      down := Function.update s.down b (s.down b + 1) }
    | _, _ => none
  | .addRef b =>
    if 0 < s.down b then
      some { s with
        alloc := s.alloc.setRef b (s.alloc.refs b + 1)
        down := Function.update s.down b (s.down b + 1) }
    else none
  | .giveBack b =>
    if 0 < s.down b then
      some { s with
        alloc := s.alloc.release b, down := Function.update s.down b (s.down b - 1) }
    else none
  | .downDecommit => some { s with alloc := s.alloc.decommit }
  | .setProperties granularity request =>
    some { s with alloc := (s.alloc.setProperties granularity request).2 }

/-! What goes on with the sample the worker has. -/

section
variable {s t : SourceStream}

open SourceStream

theorem holds_of_filling {w : WorkerPc} (h : w.filling = true) : w.holds = true := by
  cases w <;> first
    | rfl
    | cases h

theorem filling_of_inFill {w : WorkerPc} (h : inFill w = true) : w.filling = true := by
  cases w <;> first
    | rfl
    | cases h

theorem sample_of_inFill {w : WorkerPc} (h : inFill w = true) : ∃ m, w.sample? = some m := by
  cases w <;> first
    | exact ⟨_, rfl⟩
    | cases h

/-- What becomes of the worker's sample: it keeps the one it has, and those that nobody
    has seen are the ones it was filling. -/
structure SameSample (w w' : WorkerPc) : Prop where
  holds : w'.holds = w.holds
  filling : w'.filling = true → w.filling = true
  sample : ∀ m', w'.sample? = some m' → ∃ m, w.sample? = some m ∧ m'.getSize = m.getSize

theorem SameSample.refl (w : WorkerPc) : SameSample w w :=
  ⟨rfl, fun e => e, fun m hm => ⟨m, hm, rfl⟩⟩

/-- Neither has a sample. -/
theorem SameSample.of_none {w w' : WorkerPc} (h : w.holds = false) (h' : w'.holds = false) :
    SameSample w w' := by
  have hnone : w'.sample? = none := by
    cases w' <;> first
      | rfl
      | cases h'
  refine ⟨h'.trans h.symm, fun e => ?_, fun m hm => ?_⟩
  · rw [holds_of_filling e] at h'
    cases h'
  · rw [hnone] at hm
    cases hm

/-- Apart from GetBuffer and the Release, the worker keeps what it has. -/
theorem plays_same {w w' : WorkerPc} {es es' : List StreamEvent} (h : Plays w es w' es')
    (hget : w ≠ .getBuffer) (hrelease : ∀ next, w ≠ .release next) : SameSample w w' := by
  cases h with
  | poll | notify => exact .of_none rfl rfl
  | again | buffer => exact absurd rfl hget
  | fill hfill hfill' _ hsize =>
    have hw := filling_of_inFill hfill
    obtain ⟨m, hm⟩ := sample_of_inFill hfill
    refine ⟨?_, fun _ => hw, fun m' hm' => ⟨m, hm, hsize m m' hm hm'⟩⟩
    rw [holds_of_filling hw]
    rcases hfill' with hfill' | ⟨m, hr, rfl⟩
    · exact holds_of_filling (filling_of_inFill hfill')
    · rfl
  | deliver => exact ⟨rfl, fun _ => rfl, fun m hm => ⟨m, hm, rfl⟩⟩
  | end_ => exact ⟨rfl, fun _ => rfl, fun _ e => (by cases e)⟩
  | received => exact ⟨rfl, fun e => (by cases e), fun _ e => (by cases e)⟩
  | release => exact absurd rfl (hrelease _)
  | endOfStream hnext => rcases hnext with rfl | rfl <;> exact .of_none rfl rfl

theorem looks_same {w : WorkerPc} {next : Command → WorkerPc} (h : Looks w next) (c : Command) :
    SameSample w (next c) := by
  cases h <;> cases c <;> exact .of_none rfl rfl

/-- The same of every action that does not go to the allocator. -/
theorem alone_same {a : StreamAction} (h : s.Agrees) (ha : alone s a = true)
    (hstep : s.step a = some t) : SameSample s.worker t.worker := by
  cases step_cases h hstep with
  | @work i t' hw =>
    have hget : s.worker ≠ .getBuffer := fun e => by simp [alone, e] at ha
    have hrelease : ∀ next, s.worker ≠ .release next := fun next e => by simp [alone, e] at ha
    cases hw with
    | take hlooks => exact looks_same hlooks s.exchange.param
    | answer | clear => exact .refl _
    | @finish hr next x hw =>
      rw [hw]
      cases next <;> exact .of_none rfl rfl
    | destroy hw | start hw =>
      rw [hw]
      exact .of_none rfl rfl
    | play hplays => exact plays_same hplays hget hrelease
  | called _ hc =>
    rw [hc.frame.1]
    exact .refl _
  | created hclient hthread =>
    have hnone := (h.worker.settled (Or.inr (Or.inr (Or.inl hclient)))).worker
    rw [if_neg (by simp [hthread])] at hnone
    rw [hnone]
    exact .of_none rfl rfl
  | refused | committed | stopping | no_thread => cases ha
  | _ => exact .refl _

end

/-! The pin and its samples. -/

/-- The worker is in GetBuffer where the allocator has it waiting, or behind its wait. -/
def Parked (a : MemAllocator) (w : WorkerPc) : Prop :=
  a.waiting = [] ∧ a.retrying = [] ∨
    w = .getBuffer ∧ (a.waiting = [0] ∧ a.retrying = [] ∨ a.waiting = [] ∧ a.retrying = [0])

/-- Inactive has decommitted the allocator and has not returned. -/
def Stopping (c : ClientPc) : Prop := c = .call .stop ∨ c = .call .exit ∨ c = .close ∨ c = .join

/-- What holds of the pin and its samples at every point. -/
structure Holds (s : SourcePlay) : Prop where
  agrees : s.stream.Agrees
  sound : s.alloc.Sound
  refs : ∀ b, s.alloc.refs b = s.down b + if s.held = some b then 1 else 0
  held : s.held.isSome = s.stream.worker.holds
  content : ∀ b m, s.held = some b → s.stream.worker.sample? = some m → s.alloc.content b = m
  unseen : ∀ b, s.held = some b → s.stream.worker.filling = true → s.down b = 0
  parked : Parked s.alloc s.stream.worker
  decommitted : Stopping s.stream.client → s.alloc.bCommitted = false

theorem holds_new (pin : SourceOutputPin) (dwParam : Command) (dwReturnVal : HRESULT) :
    (new pin dwParam dwReturnVal).Holds where
  agrees := SourceStream.agrees_new pin dwParam dwReturnVal
  sound := MemAllocator.sound_new
  refs := fun _ => rfl
  held := rfl
  content := fun _ _ h => by cases h
  unseen := fun _ h => by cases h
  parked := Or.inl ⟨rfl, rfl⟩
  decommitted := fun _ => rfl

section
variable {s t : SourcePlay}

theorem Holds.refs_pos (h : s.Holds) {b : Nat} (hb : s.held = some b) : 0 < s.alloc.refs b := by
  rw [h.refs b, if_pos hb]
  omega

theorem Holds.none_of_holds (h : s.Holds) (hw : s.stream.worker.holds = false) : s.held = none := by
  rw [← Option.isNone_iff_eq_none, ← Option.not_isSome, h.held, hw]
  rfl

/-- A step of the allocator that the pin does not notice, beside a step of the pin that does
    not change what it has. -/
theorem Holds.keeps (h : s.Holds) (hagrees : t.stream.Agrees) (hsound : t.alloc.Sound)
    (hkeeps : MemAllocator.Keeps s.alloc t.alloc) (hheld : t.held = s.held) (hdown : t.down = s.down)
    (hworker : t.stream.worker = s.stream.worker)
    (hdecommitted : Stopping t.stream.client → t.alloc.bCommitted = false) : t.Holds where
  agrees := hagrees
  sound := hsound
  refs := fun b => by rw [hkeeps.refs, hheld, hdown]; exact h.refs b
  held := by rw [hheld, hworker]; exact h.held
  content := fun b m hb hm => by
    rw [hheld] at hb
    rw [hworker] at hm
    exact (hkeeps.content b (h.refs_pos hb)).trans (h.content b m hb hm)
  unseen := by rw [hheld, hdown, hworker]; exact h.unseen
  parked := by
    unfold Parked
    rw [hkeeps.waiting, hkeeps.retrying, hworker]
    exact h.parked
  decommitted := hdecommitted

/-- Whether Inactive is past its Decommit is not the worker's business. -/
theorem stopping_of_alone {u v : SourceStream} {a : StreamAction} (h : u.Agrees)
    (ha : alone u a = true) (hstep : u.step a = some v) (hv : Stopping v.client) :
    Stopping u.client := by
  cases SourceStream.step_cases h hstep with
  | work hw => rwa [hw.frame.1] at hv
  | @called c _ hclient hc =>
    cases hc with
    | leave =>
      cases c with
      | stop | exit => simp [Stopping, hclient]
      | init | pause | run =>
        rcases hv with hv | hv | hv | hv <;> cases hv
    | _ => exact hv
  | close hclient | join hclient => simp [Stopping, hclient]
  | active | inactive | not_created | created => rcases hv with hv | hv | hv | hv <;> cases hv
  | refused | committed | stopping | no_thread => cases ha
  | stop | reset => exact hv

theorem parked_of_alone {u v : SourceStream} {a : StreamAction} {m : MemAllocator} (h : u.Agrees)
    (ha : alone u a = true) (hstep : u.step a = some v) (hp : Parked m u.worker) :
    Parked m v.worker := by
  rcases hp with hp | ⟨hget, hp⟩
  · exact Or.inl hp
  refine Or.inr ⟨?_, hp⟩
  cases SourceStream.step_cases h hstep with
  | work => simp [alone, hget] at ha
  | called _ hc => rw [hc.frame.1]; exact hget
  | created hclient hthread =>
    have hnone := (h.worker.settled (Or.inr (Or.inr (Or.inl hclient)))).worker
    rw [if_neg (by simp [hthread]), hget] at hnone
    cases hnone
  | _ => exact hget

/-- FillBuffer's work on the sample the worker has. -/
theorem Holds.alone {u : SourceStream} {a : StreamAction} (h : s.Holds)
    (ha : alone s.stream a = true) (hstep : s.stream.step a = some u) :
    ({ s with stream := u, alloc := s.written u.worker } : SourcePlay).Holds := by
  have hagrees := SourceStream.Agrees.step _ _ _ h.agrees hstep
  have hsame := alone_same h.agrees ha hstep
  have hparked := parked_of_alone h.agrees ha hstep h.parked
  have hdecommitted : Stopping u.client → s.alloc.bCommitted = false := fun hu =>
    h.decommitted (stopping_of_alone h.agrees ha hstep hu)
  have hheld : s.held.isSome = u.worker.holds := h.held.trans hsame.holds.symm
  have hunseen : ∀ b, s.held = some b → u.worker.filling = true → s.down b = 0 := fun b hb hf =>
    h.unseen b hb (hsame.filling hf)
  unfold written
  split
  · rename_i b m hb hm
    have hsize : m.getSize = (s.alloc.content b).getSize := by
      obtain ⟨k, hk, hsize⟩ := hsame.sample m hm
      rw [h.content b k hb hk]
      exact hsize
    refine ⟨hagrees, h.sound.setSample hsize, fun d => ?_, hheld, fun d m' hd hm' => ?_, hunseen,
      hparked, hdecommitted⟩
    · rw [MemAllocator.refs_setSample]
      exact h.refs d
    · obtain rfl : b = d := Option.some.inj (hb.symm.trans hd)
      obtain rfl : m = m' := Option.some.inj (hm.symm.trans hm')
      exact MemAllocator.content_setSample (h.refs_pos hb) m
  · rename_i hno
    exact ⟨hagrees, h.sound, h.refs, hheld, fun b m hb hm => absurd hm (hno b m hb), hunseen,
      hparked, hdecommitted⟩

/-- The pin's part of Commit and Decommit. -/
theorem allocatorStep_frame {u v : SourceStream} {hr : HRESULT}
    (hstep : u.step (.allocator hr) = some v) : v.worker = u.worker := by
  simp only [SourceStream.step, SourceStream.allocatorStep] at hstep
  split at hstep
  · obtain rfl := Option.some.inj hstep
    split <;> rfl
  · obtain rfl := Option.some.inj hstep
    split
    · rfl
    · split <;> rfl
  · cases hstep

theorem Holds.commit {u : SourceStream} {env : AllocEnv} (h : s.Holds)
    (hclient : s.stream.client = .commit)
    (hstep : s.stream.step (.allocator (s.alloc.commit env).1) = some u) :
    ({ s with stream := u, alloc := (s.alloc.commit env).2 } : SourcePlay).Holds := by
  -- the granularity is there for SetProperties alone: here any will do
  refine h.keeps (SourceStream.Agrees.step _ _ _ h.agrees hstep)
    (MemAllocator.Sound.step 0 s.alloc (.commit env) _ h.sound rfl)
    (MemAllocator.keeps_commit h.sound.books env) rfl rfl (allocatorStep_frame hstep) fun hv => ?_
  simp only [SourceStream.step, SourceStream.allocatorStep, hclient] at hstep
  obtain rfl := Option.some.inj hstep
  split at hv <;> rcases hv with hv | hv | hv | hv <;> cases hv

theorem Holds.decommit {u : SourceStream} (h : s.Holds)
    (hstep : s.stream.step (.allocator S_OK) = some u) :
    ({ s with stream := u, alloc := s.alloc.decommit } : SourcePlay).Holds :=
  h.keeps (SourceStream.Agrees.step _ _ _ h.agrees hstep)
    (MemAllocator.Sound.step 0 s.alloc .decommit _ h.sound rfl) MemAllocator.keeps_decommit.1 rfl
    rfl (allocatorStep_frame hstep) fun _ => MemAllocator.keeps_decommit.2

/-- Somebody who may takes one more reference. -/
theorem Holds.addRef {b : Nat} (h : s.Holds) (hb : 0 < s.alloc.refs b)
    (hseen : s.held = some b → s.stream.worker.filling = false) :
    ({ s with
      alloc := s.alloc.setRef b (s.alloc.refs b + 1)
      down := Function.update s.down b (s.down b + 1) } : SourcePlay).Holds := by
  refine ⟨h.agrees, MemAllocator.Sound.step 0 s.alloc (.addRef b) _ h.sound (if_pos hb), fun d => ?_,
    h.held, fun d m hd hm => ?_, fun d hd hf => ?_, h.parked, h.decommitted⟩
  · show (s.alloc.setRef b (s.alloc.refs b + 1)).refs d =
      Function.update s.down b (s.down b + 1) d + if s.held = some d then 1 else 0
    rw [MemAllocator.refs_setRef]
    by_cases hbd : b = d
    · subst hbd
      rw [if_pos ⟨rfl, MemAllocator.lt_of_refs_pos hb⟩, Function.update_self, h.refs b]
      omega
    · rw [if_neg fun e => hbd e.1, Function.update_of_ne (Ne.symm hbd)]
      exact h.refs d
  · exact (MemAllocator.content_setRef b d _).trans (h.content d m hd hm)
  · have hbd : d ≠ b := by
      rintro rfl
      rw [hseen hd] at hf
      cases hf
    exact (Function.update_of_ne hbd _ _).trans (h.unseen d hd hf)

/-- A filter downstream gives one of its references back. -/
theorem Holds.giveBack {b : Nat} (h : s.Holds) (hb : 0 < s.down b) :
    ({ s with
      alloc := s.alloc.release b
      down := Function.update s.down b (s.down b - 1) } : SourcePlay).Holds := by
  have hpos : 0 < s.alloc.refs b := by
    rw [h.refs b]
    omega
  have hreleases := MemAllocator.releases_release hpos
  have hrefs : ∀ d, (s.alloc.release b).refs d =
      Function.update s.down b (s.down b - 1) d + if s.held = some d then 1 else 0 := by
    intro d
    rw [hreleases.refs d]
    by_cases hbd : b = d
    · subst hbd
      rw [if_pos rfl, Function.update_self, h.refs b]
      omega
    · rw [if_neg hbd, Function.update_of_ne (Ne.symm hbd)]
      exact h.refs d
  refine ⟨h.agrees, MemAllocator.Sound.step 0 s.alloc (.release b) _ h.sound (if_pos hpos), hrefs,
    h.held, fun d m hd hm => ?_, fun d hd hf => ?_, ?_, fun hv => ?_⟩
  · refine (hreleases.content d ?_).trans (h.content d m hd hm)
    rw [hrefs d, if_pos hd]
    omega
  · have hzero := h.unseen d hd hf
    have hbd : d ≠ b := by
      rintro rfl
      omega
    exact (Function.update_of_ne hbd _ _).trans hzero
  · unfold Parked
    rw [hreleases.waiting, hreleases.retrying]
    exact h.parked
  · show (s.alloc.release b).bCommitted = false
    rw [hreleases.bCommitted]
    exact h.decommitted hv

/-- The worker releases its sample. -/
theorem Holds.release {u : SourceStream} {b : Nat} {next : AfterRelease} (h : s.Holds)
    (hworker : s.stream.worker = .release next) (hheld : s.held = some b)
    (hstep : s.stream.work .go = some u) :
    ({ s with stream := u, alloc := s.alloc.release b, held := none } : SourcePlay).Holds := by
  have hreleases := MemAllocator.releases_release (h.refs_pos hheld)
  have hagrees := SourceStream.Agrees.step _ (.work .go) _ h.agrees hstep
  simp only [SourceStream.work, hworker, Option.some.injEq] at hstep
  subst hstep
  refine ⟨hagrees,
    MemAllocator.Sound.step 0 s.alloc (.release b) _ h.sound (if_pos (h.refs_pos hheld)),
    fun d => ?_, ?_, fun _ _ hd => (by cases hd), fun _ hd => (by cases hd), ?_, fun hv => ?_⟩
  · show (s.alloc.release b).refs d = s.down d + 0
    rw [hreleases.refs d, h.refs b, if_pos hheld]
    by_cases hbd : b = d
    · rw [if_pos hbd, hbd]
      omega
    · rw [if_neg hbd, h.refs d, hheld, if_neg fun e => hbd (Option.some.inj e)]
  · show false = next.pc.holds
    cases next <;> rfl
  · have hparked : s.alloc.waiting = [] ∧ s.alloc.retrying = [] := by
      refine h.parked.resolve_right fun hget => ?_
      rw [hworker] at hget
      cases hget.1
    refine Or.inl ⟨?_, ?_⟩
    · exact hreleases.waiting.trans hparked.1
    · exact hreleases.retrying.trans hparked.2
  · show (s.alloc.release b).bCommitted = false
    rw [hreleases.bCommitted]
    exact h.decommitted hv

/-- Where the worker goes from GetBuffer. -/
def afterGetBuffer : Option MediaSample → WorkerPc
  | none => .poll
  | some m => .fill m

theorem work_buffer {u v : SourceStream} {m : Option MediaSample}
    (hstep : u.work (.buffer m) = some v) : u.worker = .getBuffer ∧
      v = { u with worker := afterGetBuffer m } := by
  cases hw : u.worker with
  | getBuffer =>
    refine ⟨rfl, ?_⟩
    cases m <;> simp only [SourceStream.work, hw] at hstep <;> exact (Option.some.inj hstep).symm
  | _ => simp [SourceStream.work, SourceStream.fillStep, hw] at hstep

/-- The allocator with nobody in GetBuffer. -/
def unparked (a : MemAllocator) : MemAllocator := { a with waiting := [], retrying := [] }

theorem unparked_eq {a : MemAllocator} (hw : a.waiting = []) (hr : a.retrying = []) :
    unparked a = a := by
  cases a
  cases hw
  cases hr
  rfl

/-- A turn of GetBuffer by a worker that is not waiting. -/
theorem Holds.turn (h : s.Holds) (hsound : (MemAllocator.getTurn 0 false (unparked s.alloc)).Sound)
    (hstep : s.turn (unparked s.alloc) = some t) : t.Holds := by
  have hnone : s.stream.worker = .getBuffer → s.held = none := fun hw =>
    h.none_of_holds (by rw [hw]; rfl)
  unfold SourcePlay.turn at hstep
  rcases MemAllocator.getTurn_cases 0 false (unparked s.alloc) with ⟨-, htry, hturn⟩ |
      ⟨b, rest, -, hfree, htry, hturn⟩ | ⟨-, -, hno, -⟩ | ⟨hc, hempty, -, -, hturn⟩
  · rw [htry] at hstep
    rw [hturn] at hsound
    obtain ⟨u, hu, rfl⟩ := Option.map_eq_some_iff.mp hstep
    have hagrees := SourceStream.Agrees.step _ (.work _) _ h.agrees hu
    obtain ⟨hw, rfl⟩ := work_buffer hu
    have hno : ∀ b, s.held ≠ some b := fun b hb => by
      rw [hnone hw] at hb
      cases hb
    exact ⟨hagrees, hsound, h.refs, by rw [hnone hw]; rfl, fun b _ hb => absurd hb (hno b),
      fun b hb => absurd hb (hno b), Or.inl ⟨rfl, rfl⟩, h.decommitted⟩
  · rw [htry] at hstep
    rw [hturn] at hsound
    obtain ⟨u, hu, rfl⟩ := Option.map_eq_some_iff.mp hstep
    have hagrees := SourceStream.Agrees.step _ (.work _) _ h.agrees hu
    obtain ⟨hw, rfl⟩ := work_buffer hu
    have hmem : b ∈ s.alloc.lFree := by
      show b ∈ (unparked s.alloc).lFree
      rw [hfree]
      exact List.mem_cons_self
    obtain ⟨hlt, hzero⟩ := (h.sound.books.free_iff b).mp hmem
    have hdown : s.down b = 0 := by
      have hrefs := h.refs b
      omega
    refine ⟨hagrees, hsound, fun d => ?_, rfl, fun d m hd hm => ?_, fun d hd _ => ?_,
      Or.inl ⟨rfl, rfl⟩, h.decommitted⟩
    · show MemAllocator.refs (MemAllocator.setRef _ b 1) d = s.down d + if some b = some d then 1 else 0
      rw [MemAllocator.refs_setRef]
      by_cases hbd : b = d
      · rw [if_pos ⟨hbd, hlt⟩, if_pos (congrArg some hbd), ← hbd, hdown]
      · rw [if_neg fun e => hbd e.1, if_neg fun e => hbd (Option.some.inj e)]
        have hrefs := h.refs d
        rw [hnone hw, if_neg (fun e => by cases e)] at hrefs
        exact hrefs
    · obtain rfl := Option.some.inj hd
      exact Option.some.inj hm
    · obtain rfl := Option.some.inj hd
      exact hdown
  · cases hno
  · have htry : (unparked s.alloc).tryGet false = (.wait, { unparked s.alloc with
        lWaiting := (unparked s.alloc).lWaiting + 1 }) := by
      simp [MemAllocator.tryGet, hc, hempty]
    rw [htry] at hstep
    rw [hturn] at hsound
    dsimp only at hstep
    split at hstep
    · rename_i hw
      obtain rfl := Option.some.inj hstep
      exact ⟨h.agrees, hsound, h.refs, h.held, h.content, h.unseen,
        Or.inr ⟨hw, Or.inl ⟨rfl, rfl⟩⟩, h.decommitted⟩
    · cases hstep

theorem Holds.step (s : SourcePlay) (act : PlayAction) (t : SourcePlay) (h : s.Holds)
    (hstep : s.step act = some t) : t.Holds := by
  cases act with
  | stream a =>
    simp only [SourcePlay.step, Option.ite_none_right_eq_some] at hstep
    obtain ⟨u, hu, rfl⟩ := Option.map_eq_some_iff.mp hstep.2
    exact h.alone hstep.1 hu
  | commit env =>
    simp only [SourcePlay.step, Option.ite_none_right_eq_some] at hstep
    obtain ⟨u, hu, rfl⟩ := Option.map_eq_some_iff.mp hstep.2
    exact h.commit hstep.1 hu
  | decommit =>
    simp only [SourcePlay.step, Option.ite_none_right_eq_some] at hstep
    obtain ⟨u, hu, rfl⟩ := Option.map_eq_some_iff.mp hstep.2
    exact h.decommit hu
  | getBuffer =>
    simp only [SourcePlay.step, Option.ite_none_left_eq_some] at hstep
    obtain ⟨hno, hturn⟩ := hstep
    have hempty : s.alloc.waiting = [] ∧ s.alloc.retrying = [] := by
      refine h.parked.resolve_right fun hp => hno ?_
      rcases hp.2 with ⟨hw, -⟩ | ⟨-, hr⟩
      · exact Or.inl (by rw [hw]; exact List.mem_cons_self)
      · exact Or.inr (by rw [hr]; exact List.mem_cons_self)
    have heq := unparked_eq hempty.1 hempty.2
    refine h.turn ?_ (heq ▸ hturn)
    rw [heq]
    exact MemAllocator.Sound.step 0 s.alloc (.getBuffer 0 false) _ h.sound (if_neg hno)
  | wake =>
    obtain ⟨a, ha, rfl⟩ := Option.map_eq_some_iff.mp hstep
    have hsound := MemAllocator.Sound.step 0 s.alloc (.wake 0) a h.sound ha
    simp only [MemAllocator.wake, Option.ite_none_right_eq_some] at ha
    obtain ⟨⟨hmem, -⟩, ha⟩ := ha
    obtain rfl := Option.some.inj ha
    have hparked : s.stream.worker = .getBuffer ∧ s.alloc.waiting = [0] ∧ s.alloc.retrying = [] := by
      rcases h.parked with ⟨hw, -⟩ | ⟨hget, hp | ⟨hw, -⟩⟩
      · rw [hw] at hmem
        cases hmem
      · exact ⟨hget, hp⟩
      · rw [hw] at hmem
        cases hmem
    obtain ⟨hget, hw, hr⟩ := hparked
    refine ⟨h.agrees, hsound, h.refs, h.held, h.content, h.unseen, Or.inr ⟨hget, Or.inr ⟨?_, ?_⟩⟩,
      h.decommitted⟩
    · show s.alloc.waiting.erase 0 = []
      rw [hw]
      rfl
    · show 0 :: s.alloc.retrying = [0]
      rw [hr]
  | again =>
    simp only [SourcePlay.step, Option.ite_none_right_eq_some] at hstep
    obtain ⟨hmem, hturn⟩ := hstep
    have hparked : s.alloc.waiting = [] ∧ s.alloc.retrying = [0] := by
      rcases h.parked with ⟨-, hr⟩ | ⟨-, ⟨-, hr⟩ | hp⟩
      · rw [hr] at hmem
        cases hmem
      · rw [hr] at hmem
        cases hmem
      · exact hp
    have heq : { s.alloc with retrying := s.alloc.retrying.erase 0 } = unparked s.alloc := by
      unfold unparked
      rw [hparked.2, ← hparked.1]
      rfl
    rw [heq] at hturn
    refine h.turn ?_ hturn
    rw [← heq]
    exact MemAllocator.Sound.step 0 s.alloc (.again 0) _ h.sound (if_pos hmem)
  | release =>
    simp only [SourcePlay.step] at hstep
    split at hstep
    · rename_i next b hworker hheld
      obtain ⟨u, hu, rfl⟩ := Option.map_eq_some_iff.mp hstep
      exact h.release hworker hheld hu
    · cases hstep
  | keep =>
    simp only [SourcePlay.step] at hstep
    split at hstep
    · rename_i m b hworker hheld
      obtain rfl := Option.some.inj hstep
      exact h.addRef (h.refs_pos hheld) fun _ => by rw [hworker]; rfl
    · cases hstep
  | addRef b =>
    simp only [SourcePlay.step, Option.ite_none_right_eq_some] at hstep
    obtain rfl := Option.some.inj hstep.2
    refine h.addRef (by rw [h.refs b]; omega) fun hb => ?_
    by_contra hf
    have := h.unseen b hb (by simpa using hf)
    omega
  | giveBack b =>
    simp only [SourcePlay.step, Option.ite_none_right_eq_some] at hstep
    obtain rfl := Option.some.inj hstep.2
    exact h.giveBack hstep.1
  | downDecommit =>
    obtain rfl := Option.some.inj hstep
    exact h.keeps h.agrees (MemAllocator.Sound.step 0 s.alloc .decommit _ h.sound rfl)
      MemAllocator.keeps_decommit.1 rfl rfl rfl fun _ => MemAllocator.keeps_decommit.2
  | setProperties granularity request =>
    obtain rfl := Option.some.inj hstep
    refine h.keeps h.agrees
      (MemAllocator.Sound.step granularity s.alloc (.setProperties request) _ h.sound rfl)
      (MemAllocator.keeps_setProperties granularity request).1 rfl rfl rfl fun hv => ?_
    exact (MemAllocator.keeps_setProperties granularity request).2.trans (h.decommitted hv)

/-- A turn of GetBuffer is a step of the pin, or a wait. -/
theorem turn_stream {a : MemAllocator} (h : s.turn a = some t) :
    (∃ m, s.stream.step (.work (.buffer m)) = some t.stream) ∨ t.stream = s.stream := by
  unfold SourcePlay.turn at h
  split at h
  · obtain ⟨u, hu, rfl⟩ := Option.map_eq_some_iff.mp h
    exact Or.inl ⟨_, hu⟩
  · obtain ⟨u, hu, rfl⟩ := Option.map_eq_some_iff.mp h
    exact Or.inl ⟨_, hu⟩
  · split at h
    · obtain rfl := Option.some.inj h
      exact Or.inr rfl
    · cases h

/-- **The pin with its samples is the pin**: each step is one of the worker and the calling
    thread, or does not touch them. -/
theorem step_stream {act : PlayAction} (h : s.step act = some t) :
    (∃ a, s.stream.step a = some t.stream) ∨ t.stream = s.stream := by
  cases act with
  | stream a =>
    simp only [SourcePlay.step, Option.ite_none_right_eq_some] at h
    obtain ⟨u, hu, rfl⟩ := Option.map_eq_some_iff.mp h.2
    exact Or.inl ⟨a, hu⟩
  | commit env =>
    simp only [SourcePlay.step, Option.ite_none_right_eq_some] at h
    obtain ⟨u, hu, rfl⟩ := Option.map_eq_some_iff.mp h.2
    exact Or.inl ⟨_, hu⟩
  | decommit =>
    simp only [SourcePlay.step, Option.ite_none_right_eq_some] at h
    obtain ⟨u, hu, rfl⟩ := Option.map_eq_some_iff.mp h.2
    exact Or.inl ⟨_, hu⟩
  | getBuffer =>
    simp only [SourcePlay.step, Option.ite_none_left_eq_some] at h
    exact (turn_stream h.2).imp_left fun ⟨m, hm⟩ => ⟨_, hm⟩
  | again =>
    simp only [SourcePlay.step, Option.ite_none_right_eq_some] at h
    exact (turn_stream h.2).imp_left fun ⟨m, hm⟩ => ⟨_, hm⟩
  | release =>
    simp only [SourcePlay.step] at h
    split at h
    · obtain ⟨u, hu, rfl⟩ := Option.map_eq_some_iff.mp h
      exact Or.inl ⟨.work .go, hu⟩
    · cases h
  | wake =>
    obtain ⟨a, -, rfl⟩ := Option.map_eq_some_iff.mp h
    exact Or.inr rfl
  | keep =>
    simp only [SourcePlay.step] at h
    split at h
    · obtain rfl := Option.some.inj h
      exact Or.inr rfl
    · cases h
  | addRef b | giveBack b =>
    simp only [SourcePlay.step, Option.ite_none_right_eq_some] at h
    obtain rfl := Option.some.inj h.2
    exact Or.inr rfl
  | downDecommit | setProperties granularity request =>
    obtain rfl := Option.some.inj h
    exact Or.inr rfl

/-- What follows from the invariant holds at every point of every run. -/
theorem always_of_holds {P : SourcePlay → Prop} (hP : ∀ s, s.Holds → P s) (pin : SourceOutputPin)
    (dwParam : Command) (dwReturnVal : HRESULT) (as : List PlayAction) :
    Transition.Always SourcePlay.step P (new pin dwParam dwReturnVal) as :=
  Transition.always_of_invariant hP Holds.step as _ (holds_new pin dwParam dwReturnVal)

/-- Who references the samples. -/
structure Accounted (s : SourcePlay) : Prop where
  refs : ∀ b, s.alloc.refs b = s.down b + if s.held = some b then 1 else 0
  held_iff : s.held.isSome = true ↔ s.stream.worker.holds = true
  filled_alone : ∀ b, s.held = some b → s.stream.worker.filling = true → s.alloc.refs b = 1
  ended : s.stream.client = .idle → s.stream.hThread = false →
    s.held = none ∧ ¬ s.alloc.inGetBuffer 0
  all_back : s.stream.client = .idle → s.stream.hThread = false → s.alloc.bCommitted = false →
    (∀ b, s.down b = 0) → s.alloc.selfRefs = 0 ∧ s.alloc.lFree.length = s.alloc.samples.length

/-- **Every reference to a sample is accounted for**, and FillBuffer has its sample for
    itself. Without a worker the references are those downstream, and when they are given
    back the allocator has all its samples. -/
theorem samples_accounted (pin : SourceOutputPin) (dwParam : Command) (dwReturnVal : HRESULT)
    (as : List PlayAction) :
    Transition.Always step Accounted (new pin dwParam dwReturnVal) as := by
  refine always_of_holds (fun s h => ?_) pin dwParam dwReturnVal as
  have hworker : s.stream.client = .idle → s.stream.hThread = false → s.stream.worker = .none := by
    intro hidle hthread
    have hw := (h.agrees.worker.settled (Or.inl hidle)).worker
    rw [if_neg (by simp [hthread])] at hw
    exact hw
  have hended : s.stream.client = .idle → s.stream.hThread = false →
      s.held = none ∧ ¬ s.alloc.inGetBuffer 0 := by
    intro hidle hthread
    have hw := hworker hidle hthread
    refine ⟨h.none_of_holds (by rw [hw]; rfl), ?_⟩
    rcases h.parked with ⟨hwaiting, hretrying⟩ | ⟨hget, -⟩
    · rintro (hmem | hmem)
      · rw [hwaiting] at hmem
        cases hmem
      · rw [hretrying] at hmem
        cases hmem
    · rw [hw] at hget
      cases hget
  refine ⟨h.refs, by rw [h.held], fun b hb hf => ?_, hended, fun hidle hthread hc hdown => ?_⟩
  · rw [h.refs b, h.unseen b hb hf, if_pos hb]
  · have hbooks := h.sound.books
    have hzero : ∀ b, s.alloc.refs b = 0 := by
      intro b
      rw [h.refs b, hdown b, (hended hidle hthread).1, if_neg (fun e => by cases e)]
    have hfree : ¬ s.alloc.lFree.length < s.alloc.samples.length := by
      rw [hbooks.outstanding_iff]
      rintro ⟨b, hb⟩
      rw [hzero b] at hb
      exact Nat.lt_irrefl 0 hb
    have hprogress : s.alloc.bDecommitInProgress = false := hbooks.not_decommitting hfree
    refine ⟨?_, ?_⟩
    · rw [hbooks.selfRefs, if_neg]
      rintro (hc' | hp)
      · rw [hc] at hc'
        cases hc'
      · rw [hprogress] at hp
        cases hp
    · have hsub : s.alloc.lFree ⊆ List.range s.alloc.samples.length := fun b hb =>
        List.mem_range.mpr (hbooks.free_lt hb)
      have hle := hbooks.nodup.length_le_of_subset hsub
      rw [List.length_range] at hle
      omega

/-! Inactive, and a worker that is in GetBuffer. -/

/-- A step of the worker or of the thread that is in Inactive. -/
def ofThreads : PlayAction → Bool
  | .stream a => SourceStream.ofThreads a
  | .getBuffer | .wake | .again | .release => true
  | _ => false

/-- The steps of the two threads that are left, those out of GetBuffer among them. -/
def endRank (s : SourcePlay) : Nat :=
  s.stream.endRank + 2 * s.alloc.waiting.length + s.alloc.retrying.length

theorem stopping_of_ending {u : SourceStream} (h : u.Ending) : Stopping u.client := by
  unfold SourceStream.Ending at h
  split at h
  · rename_i hclient
    exact Or.inl hclient
  · rename_i hclient
    exact Or.inr (Or.inl hclient)
  · rename_i hclient
    exact Or.inr (Or.inr (Or.inl hclient))
  · rename_i hclient
    exact Or.inr (Or.inr (Or.inr hclient))
  · exact h.elim

theorem Holds.parked_length (h : s.Holds) :
    s.alloc.waiting.length + s.alloc.retrying.length ≤ 1 := by
  rcases h.parked with ⟨hw, hr⟩ | ⟨-, ⟨hw, hr⟩ | ⟨hw, hr⟩⟩ <;> simp [hw, hr]

theorem Holds.endRank_le (h : s.Holds) : s.endRank ≤ 30 := by
  have hstream := SourceStream.endRank_le s.stream
  have hparked := h.parked_length
  unfold endRank
  omega

theorem tryGet_uncommitted {a : MemAllocator} (ha : a.bCommitted = false) :
    a.tryGet false = (.failed VFW_E_NOT_COMMITTED, a) := if_pos ha

/-- Without the commit a turn of GetBuffer is the worker's way out. -/
theorem turn_uncommitted {a : MemAllocator} (ha : a.bCommitted = false) :
    s.turn a = (s.stream.work (.buffer none)).map fun t => { s with stream := t, alloc := a } := by
  unfold SourcePlay.turn
  rw [tryGet_uncommitted ha]

theorem written_waits (w : WorkerPc) :
    (s.written w).waiting = s.alloc.waiting ∧ (s.written w).retrying = s.alloc.retrying := by
  unfold written
  split <;> exact ⟨rfl, rfl⟩

/-- Each step of the two threads lowers the rank, and nobody else raises it. -/
theorem Holds.endRank_step {act : PlayAction} (h : s.Holds) (hs : s.stream.Ending)
    (ht : t.stream.Ending) (hstep : s.step act = some t) :
    t.endRank + (if ofThreads act then 1 else 0) ≤ s.endRank := by
  have hdown := h.decommitted (stopping_of_ending hs)
  -- what a step of the stream takes off
  have lowers : ∀ {a : StreamAction} {u : SourceStream}, s.stream.step a = some u → u.Ending →
      u.endRank + (if SourceStream.ofThreads a then 1 else 0) ≤ s.stream.endRank := fun hu hend =>
    (SourceStream.step_cases h.agrees hu).endRank_le h.agrees hs hend
  have failed : ∀ {a : MemAllocator}, a.bCommitted = false → s.turn a = some t →
      t.stream.endRank + 1 ≤ s.stream.endRank ∧ t.alloc = a := by
    intro a ha hturn
    rw [turn_uncommitted ha] at hturn
    obtain ⟨u, hu, rfl⟩ := Option.map_eq_some_iff.mp hturn
    exact ⟨lowers (a := .work (.buffer none)) hu ht, rfl⟩
  unfold endRank
  cases act with
  | stream a =>
    simp only [SourcePlay.step, Option.ite_none_right_eq_some] at hstep
    obtain ⟨u, hu, rfl⟩ := Option.map_eq_some_iff.mp hstep.2
    have hlt := lowers hu ht
    rw [(written_waits _).1, (written_waits _).2]
    show u.endRank + _ + _ + (if SourceStream.ofThreads a then 1 else 0) ≤ _
    generalize (if SourceStream.ofThreads a then 1 else 0) = own at hlt ⊢
    omega
  | commit env =>
    simp only [SourcePlay.step, Option.ite_none_right_eq_some] at hstep
    rcases stopping_of_ending hs with hc | hc | hc | hc <;> rw [hc] at hstep <;> cases hstep.1
  | decommit =>
    simp only [SourcePlay.step, Option.ite_none_right_eq_some] at hstep
    rcases stopping_of_ending hs with hc | hc | hc | hc <;> rw [hc] at hstep <;> cases hstep.1
  | getBuffer =>
    simp only [SourcePlay.step, Option.ite_none_left_eq_some] at hstep
    obtain ⟨hlt, ha⟩ := failed hdown hstep.2
    simp only [ha, ofThreads, if_true]
    omega
  | wake =>
    obtain ⟨a, ha, rfl⟩ := Option.map_eq_some_iff.mp hstep
    simp only [MemAllocator.wake, Option.ite_none_right_eq_some] at ha
    obtain ⟨⟨hmem, -⟩, ha⟩ := ha
    obtain rfl := Option.some.inj ha
    have hpos := List.length_pos_of_mem hmem
    simp only [ofThreads, if_true, List.length_erase_of_mem hmem, List.length_cons]
    omega
  | again =>
    simp only [SourcePlay.step, Option.ite_none_right_eq_some] at hstep
    obtain ⟨hmem, hturn⟩ := hstep
    have hpos := List.length_pos_of_mem hmem
    obtain ⟨hlt, ha⟩ := failed (a := { s.alloc with retrying := s.alloc.retrying.erase 0 }) hdown
      hturn
    simp only [ha, ofThreads, if_true, List.length_erase_of_mem hmem]
    omega
  | release =>
    simp only [SourcePlay.step] at hstep
    split at hstep
    · rename_i next b hworker hheld
      obtain ⟨u, hu, rfl⟩ := Option.map_eq_some_iff.mp hstep
      have hlt := lowers (a := .work .go) hu ht
      have hreleases := MemAllocator.releases_release (h.refs_pos hheld)
      simp only [SourceStream.ofThreads, if_true] at hlt
      simp only [ofThreads, if_true, hreleases.waiting, hreleases.retrying]
      omega
    · cases hstep
  | keep =>
    simp only [SourcePlay.step] at hstep
    split at hstep
    · obtain rfl := Option.some.inj hstep
      exact Nat.le_refl _
    · cases hstep
  | addRef b =>
    simp only [SourcePlay.step, Option.ite_none_right_eq_some] at hstep
    obtain rfl := Option.some.inj hstep.2
    exact Nat.le_refl _
  | giveBack b =>
    simp only [SourcePlay.step, Option.ite_none_right_eq_some] at hstep
    obtain ⟨hb, rfl⟩ := hstep.1, Option.some.inj hstep.2
    have hreleases := MemAllocator.releases_release (a := s.alloc) (b := b)
      (by rw [h.refs b]; omega)
    simp only [ofThreads, hreleases.waiting, hreleases.retrying]
    exact Nat.le_refl _
  | downDecommit =>
    obtain rfl := Option.some.inj hstep
    have hkeeps := (MemAllocator.keeps_decommit (a := s.alloc)).1
    simp only [ofThreads, hkeeps.waiting, hkeeps.retrying]
    exact Nat.le_refl _
  | setProperties granularity request =>
    obtain rfl := Option.some.inj hstep
    have hkeeps := (MemAllocator.keeps_setProperties (a := s.alloc) granularity request).1
    simp only [ofThreads, hkeeps.waiting, hkeeps.retrying]
    exact Nat.le_refl _

/-- A worker in GetBuffer gets on: Decommit has signalled the one that waits. -/
theorem Holds.getBuffer_goes_on (h : s.Holds) (hdown : s.alloc.bCommitted = false)
    (hworker : s.stream.worker = .getBuffer) : ∃ a t, ofThreads a = true ∧ s.step a = some t := by
  have hwork : s.stream.work (.buffer none) = some { s.stream with worker := .poll } := by
    simp only [SourceStream.work, hworker]
  have turns : ∀ a : MemAllocator, a.bCommitted = false → ∃ t, s.turn a = some t := fun a ha =>
    ⟨_, by rw [turn_uncommitted ha, hwork]; rfl⟩
  rcases h.parked with ⟨hw, hr⟩ | ⟨-, ⟨hw, hr⟩ | ⟨hw, hr⟩⟩
  · obtain ⟨t, ht⟩ := turns s.alloc hdown
    refine ⟨.getBuffer, t, rfl, ?_⟩
    rw [SourcePlay.step, if_neg, ht]
    rintro (hmem | hmem)
    · rw [hw] at hmem
      cases hmem
    · rw [hr] at hmem
      cases hmem
  · have hwakes := h.sound.wakes hdown (t := 0) (by rw [hw]; exact List.mem_cons_self)
    exact ⟨.wake, _, rfl, by rw [SourcePlay.step, hwakes]; rfl⟩
  · obtain ⟨t, ht⟩ := turns { s.alloc with retrying := s.alloc.retrying.erase 0 } hdown
    refine ⟨.again, t, rfl, ?_⟩
    rw [SourcePlay.step, if_pos (by rw [hr]; exact List.mem_cons_self), ht]

theorem Holds.goes_on (h : s.Holds) (hs : s.stream.Ending) :
    ∃ a t, ofThreads a = true ∧ s.step a = some t := by
  obtain ⟨a, u, ha, hu⟩ := hs.goes_on h.agrees
  by_cases halone : SourcePlay.alone s.stream a = true
  · exact ⟨.stream a, _, ha, by rw [SourcePlay.step, if_pos halone, hu]; rfl⟩
  -- what is left is the worker in GetBuffer or before its Release
  cases a with
  | work i =>
    cases hworker : s.stream.worker with
    | getBuffer => exact h.getBuffer_goes_on (h.decommitted (stopping_of_ending hs)) hworker
    | release next =>
      obtain ⟨b, hb⟩ := Option.isSome_iff_exists.mp (h.held.trans (by rw [hworker]; rfl))
      exact ⟨.release, _, rfl, by
        simp only [SourcePlay.step, hworker, hb, SourceStream.work, Option.map_some]; rfl⟩
    | _ => simp [SourcePlay.alone, hworker] at halone
  | allocator => cases ha
  | _ => exact absurd rfl halone

/-- Once CMD_STOP is signalled. `ended`: Inactive ends by returning NOERROR, with the worker
    gone and its sample given back. -/
structure Frees (s : SourcePlay) : Prop where
  goes_on : ∃ a t, ofThreads a = true ∧ s.step a = some t
  bounded : ∀ as t, Transition.run step s as = some t →
    Transition.Always step (fun u => u.stream.Ending) s as → as.countP ofThreads ≤ 30
  ended : ∀ a t, s.step a = some t → ¬ t.stream.Ending →
    t.stream.returned = (.inactive, S_OK) :: s.stream.returned ∧ t.stream.worker = .none ∧
      t.held = none ∧ ¬ t.alloc.inGetBuffer 0

/-- **Inactive returns with a worker in GetBuffer**: Decommit goes before CMD_STOP, so the
    worker gets out of its wait without a sample coming back, whatever the filters
    downstream do with the ones they hold; the two threads take 30 steps at most. -/
theorem inactive_frees_getBuffer (pin : SourceOutputPin) (dwParam : Command)
    (dwReturnVal : HRESULT) (as : List PlayAction) :
    Transition.Always step (fun s => s.stream.Ending → s.Frees) (new pin dwParam dwReturnVal) as := by
  refine always_of_holds (fun s h hs => ⟨h.goes_on hs, fun bs t hrun hends => ?_,
    fun a t hstep ht => ?_⟩) pin dwParam dwReturnVal as
  · have hrank := Transition.countP_le_of_rank endRank ofThreads
      (fun s a t hs hstep ht => hs.2.endRank_step hs.1 ht.1 hstep)
      bs s t (hends.and_invariant Holds.step h) hrun
    have hle := h.endRank_le
    omega
  · have hholds := Holds.step s a t h hstep
    rcases step_stream hstep with ⟨b, hb⟩ | hsame
    · obtain ⟨-, hworker, hreturned⟩ := hs.ended h.agrees hb ht
      refine ⟨hreturned, hworker, hholds.none_of_holds (by rw [hworker]; rfl), ?_⟩
      rcases hholds.parked with ⟨hwaiting, hretrying⟩ | ⟨hget, -⟩
      · rintro (hmem | hmem)
        · rw [hwaiting] at hmem
          cases hmem
        · rw [hretrying] at hmem
          cases hmem
      · rw [hworker] at hget
        cases hget
    · rw [hsame] at ht
      exact absurd hs ht

end

end SourcePlay

end VirtualCaptureStream
