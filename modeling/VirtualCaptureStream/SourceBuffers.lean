import VirtualCaptureStream.MemAllocator
import VirtualCaptureStream.SourceOutputPin

/- The buffers on both sides of the pipe. The sink publishes the properties of the
   allocator its upstream pin has settled on; in the other process DecideBufferSize
   asks an allocator for the same. SetProperties rounds sizes up, and Commit may still
   refuse what SetProperties has accepted. What is proved: what a committed allocator
   reports is settled, so another one takes it as it is, commits it when it has the
   memory, and every sample of the first fits every buffer of the second. -/
namespace VirtualCaptureStream

namespace MemAllocator

/-! Rounding. -/

/-- The size SetProperties rounds to. -/
def roundUp (lSize cbAlign : Int32) : Int32 :=
  if lSize % cbAlign ≠ 0 then lSize - lSize % cbAlign + cbAlign else lSize

/-- A size without its remainder does not wrap. -/
theorem sub_mod_toInt {lSize cbAlign : Int32} (halign : 0 < cbAlign) :
    (lSize - lSize % cbAlign).toInt = lSize.toInt - lSize.toInt.tmod cbAlign.toInt := by
  rw [Int32.lt_iff_toInt_lt] at halign
  have hzero : (0 : Int32).toInt = 0 := rfl
  have hlt := lSize.toInt_lt
  have hle := lSize.le_toInt
  have hd := cbAlign.toInt_lt
  have hpos : 0 < cbAlign.toInt := hzero ▸ halign
  have hupper := Int.tmod_lt_of_pos lSize.toInt hpos
  have hlower := Int.lt_tmod_of_pos lSize.toInt hpos
  -- the remainder has the sign of the size
  have hsign : 0 ≤ lSize.toInt → 0 ≤ lSize.toInt.tmod cbAlign.toInt :=
    Int.tmod_nonneg cbAlign.toInt
  have hsign' : lSize.toInt ≤ 0 → lSize.toInt.tmod cbAlign.toInt ≤ 0 := by
    intro hneg
    have hnonneg := Int.tmod_nonneg (a := -lSize.toInt) cbAlign.toInt (by omega)
    rw [Int.neg_tmod] at hnonneg
    omega
  rw [Int32.toInt_sub, Int32.toInt_mod]
  apply Int.bmod_eq_of_le
  · omega
  · omega

/-- What is rounded up and has not wrapped fills the alignment. -/
theorem roundUp_mod {lSize cbAlign : Int32} (halign : 0 < cbAlign)
    (hpos : 0 < roundUp lSize cbAlign) : roundUp lSize cbAlign % cbAlign = 0 := by
  unfold roundUp at hpos ⊢
  split
  swap
  · rename_i hzero
    exact not_not.mp hzero
  rename_i hne
  rw [if_pos hne, Int32.lt_iff_toInt_lt] at hpos
  have hdpos := Int32.lt_iff_toInt_lt.mp halign
  have hzero : (0 : Int32).toInt = 0 := rfl
  have hdiv := Int.dvd_self_sub_tmod (x := lSize.toInt) (m := cbAlign.toInt)
  have hm : (lSize - lSize % cbAlign).toInt = _ := sub_mod_toInt halign
  have hmlt := (lSize - lSize % cbAlign).toInt_lt
  have hmle := (lSize - lSize % cbAlign).le_toInt
  have hd := cbAlign.toInt_lt
  -- had the sum wrapped, it would be negative
  have hsum : (lSize - lSize % cbAlign + cbAlign).toInt =
      lSize.toInt - lSize.toInt.tmod cbAlign.toInt + cbAlign.toInt := by
    rw [Int32.toInt_add] at hpos ⊢
    rw [← hm]
    simp only [Int.bmod] at hpos ⊢
    split at hpos <;> split <;> omega
  have hmod : (lSize - lSize % cbAlign + cbAlign).toInt.tmod cbAlign.toInt = 0 := by
    apply Int.tmod_eq_zero_of_dvd
    rw [hsum]
    exact Int.dvd_add hdiv (Int.dvd_refl _)
  apply Int32.toInt_inj.mp
  rw [Int32.toInt_mod, hmod]
  rfl

/-! What an allocator settles on. -/

section
variable {a b c : MemAllocator}

/-- SetProperties has found nothing wrong with the alignment, and has rounded the size. -/
def Rounded (granularity : UInt32) (a : MemAllocator) : Prop :=
  granularity &&& (a.lAlignment - 1).toUInt32 = 0 ∧
    ∃ lSize, a.lSize + a.lPrefix = roundUp lSize a.lAlignment

/-- The block with the properties can be made, given the memory. -/
structure Fit (a : MemAllocator) : Prop where
  set : failed a.sizeSet = false
  prefix_nonneg : 0 ≤ a.lPrefix
  block : ∃ aligned, a.alignedSize = some aligned ∧ a.lCount.toInt * aligned.toInt ≤ MAXLONG

/-- What is known of the properties: they are rounded once they are set, and a block has
    been made with them while they are unchanged. -/
structure Geometry (granularity : UInt32) (a : MemAllocator) : Prop where
  rounded : a.lAlignment ≠ 0 → a.Rounded granularity
  fit : a.bChanged = false → failed a.sizeSet = false → a.Fit
  committed : a.bCommitted = true ∨ a.bDecommitInProgress = true → failed a.sizeSet = false

variable {granularity : UInt32}

theorem sizeSet_ok_iff : failed a.sizeSet = false ↔ 0 < a.lCount ∧ 0 < a.lSize ∧ 0 < a.lAlignment := by
  have hnotset : failed VFW_E_SIZENOTSET = true := by decide
  have hfalse : failed S_FALSE = false := by decide
  unfold sizeSet
  split
  · rename_i hle
    rw [hnotset]
    refine ⟨fun h => (by cases h), fun h => ?_⟩
    rcases hle with hle | hle | hle
    · exact absurd h.1 (Int32.not_lt.mpr hle)
    · exact absurd h.2.1 (Int32.not_lt.mpr hle)
    · exact absurd h.2.2 (Int32.not_lt.mpr hle)
  · rename_i hle
    simp only [not_or, Int32.not_le] at hle
    refine iff_of_true ?_ hle
    split
    · exact hfalse
    · exact not_failed_S_OK

/-- What only the four properties decide. -/
theorem Geometry.congr (h : a.Geometry granularity) (hsize : c.lSize = a.lSize)
    (hcount : c.lCount = a.lCount) (halign : c.lAlignment = a.lAlignment) (hpre : c.lPrefix = a.lPrefix)
    (hchanged : c.bChanged = a.bChanged)
    (hcommitted : c.bCommitted = true ∨ c.bDecommitInProgress = true →
      a.bCommitted = true ∨ a.bDecommitInProgress = true ∨ failed a.sizeSet = false) :
    c.Geometry granularity := by
  have hset : failed c.sizeSet = false ↔ failed a.sizeSet = false := by
    rw [sizeSet_ok_iff, sizeSet_ok_iff, hsize, hcount, halign]
  refine ⟨fun hne => ?_, fun hch hok => ?_, fun hcom => hset.mpr ?_⟩
  · obtain ⟨hgran, l, hl⟩ := h.rounded (halign ▸ hne)
    refine ⟨?_, l, ?_⟩
    · rw [halign]
      exact hgran
    · rw [hsize, hpre, halign]
      exact hl
  · obtain ⟨-, hpos, aligned, haligned, hmax⟩ := h.fit (hchanged ▸ hch) (hset.mp hok)
    refine ⟨hok, hpre ▸ hpos, aligned, ?_, hcount ▸ hmax⟩
    rw [← haligned, alignedSize, alignedSize, hsize, halign, hpre]
  · rcases hcommitted hcom with hc | hd | hok
    · exact h.committed (Or.inl hc)
    · exact h.committed (Or.inr hd)
    · exact hok

theorem Geometry.setProperties (h : a.Geometry granularity) (request : AllocatorProperties)
    (hbooks : a.Books) : (a.setProperties granularity request).2.Geometry granularity := by
  unfold MemAllocator.setProperties
  split
  · exact h
  rename_i hgran
  split
  · exact h
  rename_i hcommitted
  split
  · exact h
  rename_i hall
  simp only [not_or, not_not] at hgran
  refine ⟨fun _ => ⟨hgran.2, request.cbBuffer + request.cbPrefix, ?_⟩, fun hch => (by cases hch),
    fun hcom => ?_⟩
  · rw [Int32.sub_add_cancel]
    rfl
  · -- nothing is outstanding, so no decommit is in progress
    rcases hcom with hc | hd
    · exact absurd hc hcommitted
    · rw [hbooks.not_decommitting hall] at hd
      cases hd

/-- Commit that succeeds has found the properties set. -/
theorem commit_ok_set {env : AllocEnv} (hcommitted : a.bCommitted = false)
    (hprogress : a.bDecommitInProgress = false) (hok : failed (a.commit env).1 = false) :
    failed a.sizeSet = false := by
  by_contra hset
  rw [Bool.not_eq_false] at hset
  have halloc : alloc env { a with bCommitted := true } = (a.sizeSet, { a with bCommitted := true }) :=
    if_pos hset
  have hfail : failed (a.commit env).1 = true := by
    unfold MemAllocator.commit
    rw [if_neg (by simp [hcommitted]), if_neg (by simp [hprogress])]
    dsimp only
    rw [halloc, if_pos hset]
    exact hset
  rw [hfail] at hok
  cases hok

theorem Geometry.commit (h : a.Geometry granularity) (hbooks : a.Books) (env : AllocEnv) :
    (a.commit env).2.Geometry granularity := by
  rcases commit_cases env hbooks with heq | ⟨-, hd, -, heq⟩ | ⟨hc, hd, ⟨-, hok, heq⟩ | ⟨-, heq⟩ |
      ⟨n, aligned, hmakes, heq⟩⟩
  · rw [heq]
    exact h
  · rw [heq]
    exact h.congr rfl rfl rfl rfl rfl fun _ => Or.inr (Or.inl hd)
  · have hset := commit_ok_set hc hd (hok ▸ not_failed_S_OK)
    rw [heq]
    exact h.congr rfl rfl rfl rfl rfl fun _ => Or.inr (Or.inr hset)
  · rw [heq]
    refine h.congr rfl rfl rfl rfl rfl fun hcom => ?_
    exact hcom.imp_right Or.inl
  · split at heq
    · rename_i hlt
      rw [heq.2]
      have hchanged : (a.withBlock n aligned).bChanged = a.bChanged := by
        rw [hmakes.changed]
        exact decide_eq_true hlt
      exact h.congr rfl rfl rfl rfl hchanged fun hcom => hcom.imp_right Or.inl
    · have hset := sizeSet_ok_iff.mp (commit_ok_set hc hd (heq.1 ▸ not_failed_S_OK))
      rw [heq.2]
      refine ⟨h.rounded, fun _ hok => ?_, fun _ => sizeSet_ok_iff.mpr hset⟩
      exact ⟨hok, hmakes.prefix_nonneg, aligned, hmakes.alignedSize, hmakes.fits⟩

theorem Geometry.notifySample (h : a.Geometry granularity) : a.notifySample.Geometry granularity := by
  unfold MemAllocator.notifySample
  split
  · exact h.congr rfl rfl rfl rfl rfl fun hcom => hcom.imp_right Or.inl
  · exact h

theorem Geometry.decommit (h : a.Geometry granularity) : a.decommit.Geometry granularity := by
  unfold MemAllocator.decommit
  split
  · exact h
  rename_i hon
  have hset : failed a.sizeSet = false := by
    apply h.committed
    cases hc : a.bCommitted with
    | true => exact Or.inl rfl
    | false =>
      cases hd : a.bDecommitInProgress with
      | true => exact Or.inr rfl
      | false => exact absurd ⟨hc, hd⟩ hon
  split
  · exact Geometry.notifySample (h.congr rfl rfl rfl rfl rfl fun _ => Or.inr (Or.inr hset))
  · exact Geometry.notifySample (h.congr rfl rfl rfl rfl rfl fun _ => Or.inr (Or.inr hset))

theorem Geometry.getTurn (h : a.Geometry granularity) (t : Nat) (noWait : Bool) :
    (getTurn t noWait a).Geometry granularity := by
  rcases getTurn_cases t noWait a with ⟨-, -, heq⟩ | ⟨b, rest, -, -, -, heq⟩ |
      ⟨-, -, -, -, heq⟩ | ⟨-, -, -, -, heq⟩ <;> rw [heq]
  · exact h
  all_goals exact h.congr rfl rfl rfl rfl rfl fun hcom => hcom.imp_right Or.inl

theorem Geometry.release (h : a.Geometry granularity) (b : Nat) :
    (a.release b).Geometry granularity := by
  by_cases hone : a.refs b = 1
  · have hgive : (a.giveBack b).Geometry granularity :=
      h.congr rfl rfl rfl rfl rfl fun hcom => hcom.imp_right Or.inl
    rw [release_last hone]
    split
    · refine hgive.notifySample.congr rfl rfl rfl rfl rfl fun hcom => ?_
      rcases hcom with hc | hd
      · exact Or.inl hc
      · cases hd
    · exact hgive.notifySample
  · rw [MemAllocator.release, if_neg hone]
    exact h.congr rfl rfl rfl rfl rfl fun hcom => hcom.imp_right Or.inl

theorem Geometry.step (a : MemAllocator) (act : AllocAction) (c : MemAllocator)
    (h : a.Sound ∧ a.Geometry granularity) (hstep : a.step granularity act = some c) :
    c.Sound ∧ c.Geometry granularity := by
  refine ⟨Sound.step granularity a act c h.1 hstep, ?_⟩
  obtain ⟨hsound, h⟩ := h
  cases step_cases hstep with
  | setProperties request => exact h.setProperties request hsound.books
  | commit env => exact h.commit hsound.books env
  | decommit => exact h.decommit
  | getBuffer => exact h.getTurn _ _
  | wake => exact h.congr rfl rfl rfl rfl rfl fun hcom => hcom.imp_right Or.inl
  | again =>
    refine Geometry.getTurn ?_ _ false
    exact h.congr rfl rfl rfl rfl rfl fun hcom => hcom.imp_right Or.inl
  | addRef => exact h.congr rfl rfl rfl rfl rfl fun hcom => hcom.imp_right Or.inl
  | release => exact h.release _

theorem geometry_new : new.Geometry granularity := by
  refine ⟨fun hne => absurd rfl hne, fun _ hok => ?_, fun hcom => ?_⟩
  · exact absurd hok (by decide)
  · rcases hcom with hc | hd
    · cases hc
    · cases hd

/-! Another allocator with the same properties. -/

/-- The size of a block that fits is rounded already. -/
theorem Fit.rounded (h : a.Fit) (hgeom : a.Geometry granularity) :
    granularity &&& (a.lAlignment - 1).toUInt32 = 0 ∧ a.lAlignment ≠ 0 ∧
      (a.lSize + a.lPrefix) % a.lAlignment = 0 := by
  obtain ⟨-, hsize, halign⟩ := sizeSet_ok_iff.mp h.set
  have hne : a.lAlignment ≠ 0 := (Int32.ne_of_lt halign).symm
  obtain ⟨hgran, l, hl⟩ := hgeom.rounded hne
  refine ⟨hgran, hne, ?_⟩
  -- Alloc has seen that the sum is no smaller than the size
  have hpos : 0 < a.lSize + a.lPrefix := by
    obtain ⟨aligned, haligned, -⟩ := h.block
    unfold alignedSize at haligned
    dsimp only at haligned
    split at haligned
    · cases haligned
    · rename_i hge
      exact Int32.lt_of_lt_of_le hsize (Int32.not_lt.mp hge)
  rw [hl] at hpos ⊢
  exact roundUp_mod halign hpos

/-- An allocator that can be set, with the properties of another one. -/
def withProperties (b : MemAllocator) (p : AllocatorProperties) : MemAllocator :=
  { b with
    lCount := p.cBuffers, lSize := p.cbBuffer, lAlignment := p.cbAlign, lPrefix := p.cbPrefix
    bChanged := true }

/-- Properties of a block that fits are taken as they are. -/
theorem setProperties_settled (h : a.Fit) (hgeom : a.Geometry granularity)
    (hcommitted : b.bCommitted = false) (hall : ¬ b.lFree.length < b.samples.length) :
    b.setProperties granularity a.getProperties = (S_OK, b.withProperties a.getProperties) := by
  obtain ⟨hgran, hne, hmod⟩ := h.rounded hgeom
  have hgranularity : ¬ (a.getProperties.cbAlign = 0 ∨
      granularity &&& (a.getProperties.cbAlign - 1).toUInt32 ≠ 0) := by
    rintro (he | he)
    · exact hne he
    · exact he hgran
  have hexact : ¬ (a.getProperties.cbBuffer + a.getProperties.cbPrefix) %
      a.getProperties.cbAlign ≠ 0 := not_not.mpr hmod
  unfold MemAllocator.setProperties
  rw [if_neg hgranularity, if_neg (by simp [hcommitted]), if_neg hall]
  dsimp only
  rw [if_neg hexact, Int32.add_sub_cancel]
  rfl

/-- With the memory for it, Commit makes the block. -/
theorem commit_withProperties (h : a.Fit) (hcommitted : b.bCommitted = false)
    (hprogress : b.bDecommitInProgress = false) {env : AllocEnv} (hmem : env.virtualAlloc = true)
    (hnews : a.lCount.toNatClampNeg ≤ env.news) :
    ((b.withProperties a.getProperties).commit env).1 = S_OK := by
  obtain ⟨hcount, hsize, halign⟩ := sizeSet_ok_iff.mp h.set
  obtain ⟨aligned, haligned, hmax⟩ := h.block
  have hpos : ¬ (a.lSize < 0 ∨ a.lPrefix < 0 ∨ a.lCount < 0) := by
    rintro (he | he | he)
    · exact absurd (Int32.lt_trans hsize he) Int32.lt_irrefl
    · exact absurd h.prefix_nonneg (Int32.not_le.mpr he)
    · exact absurd (Int32.lt_trans hcount he) Int32.lt_irrefl
  -- Alloc only looks at the properties
  have hmake : ∀ w : MemAllocator, w.lSize = a.lSize → w.lPrefix = a.lPrefix →
      w.lCount = a.lCount → w.lAlignment = a.lAlignment → (makeBlock env w).1 = S_OK := by
    intro w hs hp hc ha
    have hw : w.alignedSize = some aligned := by
      rw [← haligned, alignedSize, alignedSize, hs, hp, ha]
    unfold makeBlock
    rw [if_neg (by rw [hs, hp, hc]; exact hpos), hw]
    dsimp only
    rw [if_neg (by rw [hc]; exact Int.not_lt.mpr hmax), if_neg (by simp [hmem])]
    rw [if_neg (by rw [hc]; omega)]
  have hset : ({ b.withProperties a.getProperties with bCommitted := true }).sizeSet = S_OK := by
    unfold sizeSet
    rw [if_neg (by
      rintro (he | he | he)
      · exact absurd hcount (Int32.not_lt.mpr he)
      · exact absurd hsize (Int32.not_lt.mpr he)
      · exact absurd halign (Int32.not_lt.mpr he))]
    rfl
  have hne : S_OK ≠ S_FALSE := by decide
  have halloc : (alloc env { b.withProperties a.getProperties with bCommitted := true }).1 = S_OK := by
    unfold alloc
    rw [hset, not_failed_S_OK, if_neg Bool.false_ne_true, if_neg hne]
    split
    · exact hmake _ rfl rfl rfl rfl
    · exact hmake _ rfl rfl rfl rfl
  unfold MemAllocator.commit
  rw [if_neg (by show ¬ b.bCommitted = true; simp [hcommitted]),
    if_neg (by show ¬ b.bDecommitInProgress = true; simp [hprogress])]
  dsimp only
  rw [halloc, not_failed_S_OK, if_neg Bool.false_ne_true]

/-- The samples of a committed allocator have the size it reports. -/
theorem Sound.size (h : a.Sound) (hcommitted : a.bCommitted = true) {s : AllocSample}
    (hs : s ∈ a.samples) : s.sample.getSize = a.lSize.toNatClampNeg := by
  obtain ⟨total, aligned, lPrefix, size, hlaid, -, -, -, -, hsz⟩ := h.layout.laid
  have hunchanged : a.bChanged = false := h.books.unchanged hcommitted
  obtain ⟨b, hb⟩ := List.mem_iff_getElem?.mp hs
  rw [(hlaid b s hb).2]
  exact hsz hunchanged (List.ne_nil_of_mem hs)

/-- After a Commit that made a block the allocator is committed, with its properties. -/
theorem commit_ok (hbooks : a.Books) (hcommitted : a.bCommitted = false) {env : AllocEnv}
    (hok : failed (a.commit env).1 = false) :
    (a.commit env).2.bCommitted = true ∧ (a.commit env).2.lSize = a.lSize := by
  have hblock : a.buffer = none → a.samples = [] ∧ a.lFree = [] := fun hb =>
    ⟨hbooks.no_block hb, hbooks.no_free (hbooks.no_block hb)⟩
  unfold MemAllocator.commit at hok ⊢
  rw [if_neg (by simp [hcommitted])] at hok ⊢
  split at hok
  · rename_i hprogress
    rw [if_pos hprogress]
    exact ⟨rfl, rfl⟩
  rename_i hprogress
  rw [if_neg hprogress]
  dsimp only at hok ⊢
  split at hok
  · rename_i hfail
    rw [hfail] at hok
    cases hok
  rename_i hfail
  rw [if_neg hfail]
  rcases alloc_cases (a := { a with bCommitted := true }) env hblock with
    ⟨heq, -⟩ | ⟨-, heq⟩ | ⟨n, aligned, -, -, heq⟩ <;> rw [heq] <;> exact ⟨rfl, rfl⟩

/-- What an allocator `b` makes of the properties that `a` reports, through the pin `p` that
    has been given them. -/
structure Reproduces (granularity : UInt32) (a b : MemAllocator) (p : SourceOutputPin) : Prop where
  accepted : p.decideBufferSize (fun r =>
    ((b.setProperties granularity r).1, (b.setProperties granularity r).2.getProperties)) = S_OK
  settled : (b.setProperties granularity p.allocProperties).2.getProperties = a.getProperties
  commits : ∀ env : AllocEnv, env.virtualAlloc = true → a.lCount.toNatClampNeg ≤ env.news →
    ((b.setProperties granularity p.allocProperties).2.commit env).1 = S_OK
  holds : ∀ env,
    failed ((b.setProperties granularity p.allocProperties).2.commit env).1 = false →
    ∀ x ∈ a.samples,
      ∀ y ∈ ((b.setProperties granularity p.allocProperties).2.commit env).2.samples,
        y.sample.getSize = x.sample.getSize ∧ x.sample.actualDataLength ≤ y.sample.getSize

/-- **The buffers are the same on both sides**: what a committed allocator reports, at any
    point of any run, DecideBufferSize settles with any allocator that can be set, in whatever
    state earlier calls have left it; Commit then fails for want of memory alone, and each
    of its buffers has room for every sample of the first. -/
theorem geometry_reproduced (granularity : UInt32) (as : List AllocAction) :
    Transition.Always (step granularity) (fun a => a.bCommitted = true →
      ∀ (bs : List AllocAction) (b : MemAllocator) (p : SourceOutputPin),
        Transition.run (step granularity) new bs = some b → b.bCommitted = false →
        ¬ b.lFree.length < b.samples.length → p.allocProperties = a.getProperties →
        Reproduces granularity a b p) new as := by
  refine Transition.always_of_invariant (I := fun a => a.Sound ∧ a.Geometry granularity) ?_
    Geometry.step as new ⟨sound_new, geometry_new⟩
  intro a h hcommitted bs b p hrun hb hall hp
  obtain ⟨hsound, hgeom⟩ := h
  have hfit : a.Fit :=
    hgeom.fit (hsound.books.unchanged hcommitted) (hgeom.committed (Or.inl hcommitted))
  have hbsound : b.Sound := Transition.run_invariant (Sound.step granularity) bs new b sound_new hrun
  have hprogress : b.bDecommitInProgress = false := hbsound.books.not_decommitting hall
  have hset := setProperties_settled (b := b) hfit hgeom hb hall
  have hset₂ :
      (b.setProperties granularity a.getProperties).2 = b.withProperties a.getProperties :=
    congrArg Prod.snd hset
  have hafter : (b.withProperties a.getProperties).Sound := by
    rw [← hset₂]
    exact Sound.step granularity b (.setProperties a.getProperties) _ hbsound rfl
  refine ⟨?_, ?_, ?_, ?_⟩
  · have hok : ¬ failed (b.setProperties granularity p.allocProperties).1 = true := by
      rw [hp, hset, not_failed_S_OK]
      exact Bool.false_ne_true
    have hlarge : ¬ (b.setProperties granularity p.allocProperties).2.getProperties.cbBuffer <
        p.allocProperties.cbBuffer := by
      rw [hp, hset₂]
      exact Int32.lt_irrefl
    exact (if_neg hok).trans (if_neg hlarge)
  · rw [hp, hset₂]
    rfl
  · intro env hmem hnews
    rw [hp, hset₂]
    exact commit_withProperties hfit hb hprogress hmem hnews
  · intro env hok x hx y hy
    rw [hp, hset₂] at hok hy
    obtain ⟨hcom, hsize⟩ := commit_ok hafter.books hb hok
    have hcsound : ((b.withProperties a.getProperties).commit env).2.Sound :=
      Sound.step granularity _ (.commit env) _ hafter rfl
    have hy' := hcsound.size hcom hy
    have hx' := hsound.size hcommitted hx
    have hsame : y.sample.getSize = x.sample.getSize := by
      rw [hy', hx', hsize]
      rfl
    refine ⟨hsame, ?_⟩
    rw [hsame]
    exact x.sample.actual_le

end

end MemAllocator

end VirtualCaptureStream
