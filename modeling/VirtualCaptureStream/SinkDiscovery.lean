import Mathlib.Data.List.Forall2
import Mathlib.Logic.Function.Basic
import VirtualCaptureStream.SinkFilter

/- The records of one discovery, while the pins they are about are connected and
   disconnected. PipeOutMediaTypes takes no lock: it tests a pin, copies its media type,
   asks it for its allocator, asks the allocator for its properties, and writes the
   record with the format block the copy points to. Only GetAllocator waits for a call
   that has the pin's lock.

   What is proved:
     `settled_pins_discovered` — whatever the calls on other pins do meanwhile, each pin
     that was connected and is left alone gets one record, of what it is; the records are
     of different pins, in order; and the source makes a pin of each. A pin that is being
     connected may be sent as a mixture (`settled_pins_discovered_duringConnect`).

   Correspondence (C++ ↔ Lean):
     `PipeOutMediaTypes`, its steps                ↔ `WalkPc`, `walkStep`
     `CBaseInputPin::GetAllocator`                 ↔ the step from `typed`
     a call on a pin that holds `m_pinLock`        ↔ `lock`, its writes, `unlock`
     `m_mt.Set`, which frees the old format block  ↔ `setMediaType`
     `m_pinList.push_back` in AddInputPin          ↔ `addInputPin`

   In which order a call writes `m_Connected`, `m_mt` and `m_pAllocator`, and how often, is
   left open; Connect, ReceiveConnection, Disconnect and NotifyAllocator are among the calls
   that are possible. SetStreamName deletes the pins, and is not; nor is a push_back that
   moves the vector while an element is read. The server's thread around the walk is in
   SinkServer, the references GetAllocator takes are in SinkAllocators. `none` stands for a
   step that waits, and for undefined behaviour. -/
namespace VirtualCaptureStream

/-- An input pin. `block`: which of the format blocks it has had is the one it has;
    `allocator`: the object behind `m_pAllocator`; `locked`: a call has the pin's lock. -/
structure WalkedPin where
  pName : WStr
  isConnected : Bool
  mt : MediaType
  block : Nat
  allocator : Option Nat
  locked : Bool

/-- What PipeOutMediaTypes does next: the test of its loop, for the pin at `i`; the copy
    of the media type; GetAllocator; GetProperties; the record. -/
inductive WalkPc where
  | walk (i : Nat)
  | connected (i : Nat)
  | typed (i : Nat) (mt : MediaType) (block : Nat)
  | allocator (i : Nat) (mt : MediaType) (block a : Nat)
  | record (i : Nat) (mt : MediaType) (block : Nat) (allocProps : AllocatorProperties)
  | done

/-- The sink during a discovery. `allocators`: what the allocators would report, of which
    the first `made` exist; `written`: the messages; `sent`: what the records were made
    of, and the places of their pins. -/
structure SinkDiscovery where
  pinList : List WalkedPin
  allocators : Nat → AllocatorProperties
  made : Nat
  walk : WalkPc
  written : List Msg
  sent : List (Nat × SinkPin)

inductive DiscoveryAction where
  | walk
  | lock (i : Nat)
  | unlock (i : Nat)
  | connect (i : Nat) (isConnected : Bool)
  | setMediaType (i : Nat) (mt : MediaType)
  | setAllocator (i : Nat) (a : Option Nat)
  | createAllocator
  | setProperties (a : Nat) (allocProps : AllocatorProperties)
  | addInputPin (pName : WStr)

/-- The pin as a record has it. -/
def WalkedPin.described (p : WalkedPin) (mt : MediaType) (allocProps : AllocatorProperties) :
    SinkPin :=
  ⟨p.pName, true, mt, allocProps⟩

/-- The reader can take a record with this type. -/
def MediaType.Readable (mt : MediaType) : Prop :=
  mt.amt.pUnk = 0 ∧ 188 + mt.amt.cbFormat.toNat ≤ BUFSIZE

def DiscoveryAction.Readable : DiscoveryAction → Prop
  | .setMediaType _ mt => mt.Readable
  | _ => True

namespace SinkDiscovery

open Transition (run)

def modifyPin (s : SinkDiscovery) (i : Nat) (f : WalkedPin → WalkedPin) : SinkDiscovery :=
  { s with pinList := s.pinList.modify i f }

/-- One step of PipeOutMediaTypes. -/
def walkStep (cp : CodePage) (s : SinkDiscovery) : WalkPc → Option SinkDiscovery
  | .walk i =>
    match s.pinList[i]? with
    | some p => some { s with walk := if p.isConnected then .connected i else .walk (i + 1) }
    | none => some { s with walk := .done, written := s.written ++ [[]] }
  | .connected i => (s.pinList[i]?).map fun p => { s with walk := .typed i p.mt p.block }
  | .typed i mt block =>
    (s.pinList[i]?).bind fun p =>
      if p.locked then none
      else match p.allocator with
        | some a => some { s with walk := .allocator i mt block a }
        | none =>
          -- GetAllocator makes one, and the pin keeps it
          some { s.modifyPin i fun p => { p with allocator := some s.made } with
            made := s.made + 1
            walk := .allocator i mt block s.made }
  | .allocator i mt block a => some { s with walk := .record i mt block (s.allocators a) }
  | .record i mt block allocProps =>
    (s.pinList[i]?).bind fun p =>
      -- the copied pointer is to a block that has been freed
      if p.block ≠ block ∧ mt.amt.cbFormat ≠ 0 then none
      else (pinInfo cp (p.described mt allocProps)).map fun info =>
        { s with
          walk := .walk (i + 1)
          written := s.written ++ [info]
          sent := s.sent ++ [(i, p.described mt allocProps)] }
  | .done => none

/-- A write of the call that has the pin's lock. -/
def write (s : SinkDiscovery) (i : Nat) (f : WalkedPin → WalkedPin) : Option SinkDiscovery :=
  (s.pinList[i]?).bind fun p => if p.locked then some (s.modifyPin i f) else none

/-- A pin as its constructor makes it. -/
def newPin (pName : WStr) : WalkedPin where
  pName := pName
  isConnected := false
  mt := noMediaType
  block := 0
  allocator := none
  locked := false

def step (cp : CodePage) (s : SinkDiscovery) : DiscoveryAction → Option SinkDiscovery
  | .walk => s.walkStep cp s.walk
  | .lock i =>
    (s.pinList[i]?).bind fun p =>
      if p.locked then none else some (s.modifyPin i fun p => { p with locked := true })
  | .unlock i => s.write i fun p => { p with locked := false }
  | .connect i isConnected => s.write i fun p => { p with isConnected := isConnected }
  | .setMediaType i mt => s.write i fun p => { p with mt := mt, block := p.block + 1 }
  | .setAllocator i a =>
    if ∀ n ∈ a, n < s.made then s.write i fun p => { p with allocator := a } else none
  | .createAllocator => some { s with made := s.made + 1 }
  | .setProperties a allocProps =>
    if a < s.made then some { s with allocators := Function.update s.allocators a allocProps }
    else none
  | .addInputPin pName => some { s with pinList := s.pinList ++ [newPin pName] }

/-! What is left alone. -/

/-- No call on the pin at `i` begins, and nobody sets the properties of `a`. -/
def Undisturbed (i a : Nat) (b : DiscoveryAction) : Prop :=
  b ≠ .lock i ∧ ∀ allocProps, b ≠ .setProperties a allocProps

theorem noMediaType_readable : noMediaType.Readable := ⟨rfl, by decide⟩

/-! Steps of the others. -/

section
variable {cp : CodePage} {s t : SinkDiscovery} {a : DiscoveryAction}

theorem write_cases {i : Nat} {f : WalkedPin → WalkedPin} (h : s.write i f = some t) :
    ∃ p, s.pinList[i]? = some p ∧ p.locked = true ∧ t = s.modifyPin i f := by
  obtain ⟨p, hp, h⟩ := Option.bind_eq_some_iff.mp h
  rw [Option.ite_none_right_eq_some] at h
  exact ⟨p, hp, h.1, (Option.some.inj h.2).symm⟩

/-- What a step does that is none of the walk's. -/
inductive Other (s : SinkDiscovery) (a : DiscoveryAction) : SinkDiscovery → Prop
  | pin {i : Nat} {p : WalkedPin} {f : WalkedPin → WalkedPin} (hp : s.pinList[i]? = some p)
      (hlock : p.locked = true ∨ a = .lock i) (hname : ∀ q, (f q).pName = q.pName)
      (hmt : ∀ q, (f q).mt = q.mt ∨ a = .setMediaType i (f q).mt) : Other s a (s.modifyPin i f)
  | created : Other s a { s with made := s.made + 1 }
  | properties {n : Nat} {allocProps : AllocatorProperties} (ha : a = .setProperties n allocProps) :
      Other s a { s with allocators := Function.update s.allocators n allocProps }
  | added {pName : WStr} : Other s a { s with pinList := s.pinList ++ [newPin pName] }

theorem step_other (ha : a ≠ .walk) (h : s.step cp a = some t) : Other s a t := by
  cases a with
  | walk => exact absurd rfl ha
  | lock i =>
    obtain ⟨p, hp, h⟩ := Option.bind_eq_some_iff.mp h
    rw [Option.ite_none_left_eq_some] at h
    obtain rfl := Option.some.inj h.2
    exact .pin hp (Or.inr rfl) (fun _ => rfl) fun _ => Or.inl rfl
  | unlock i =>
    obtain ⟨p, hp, hlock, rfl⟩ := write_cases h
    exact .pin hp (Or.inl hlock) (fun _ => rfl) fun _ => Or.inl rfl
  | connect i isConnected =>
    obtain ⟨p, hp, hlock, rfl⟩ := write_cases h
    exact .pin hp (Or.inl hlock) (fun _ => rfl) fun _ => Or.inl rfl
  | setMediaType i mt =>
    obtain ⟨p, hp, hlock, rfl⟩ := write_cases h
    exact .pin hp (Or.inl hlock) (fun _ => rfl) fun _ => Or.inr rfl
  | setAllocator i n =>
    rw [step, Option.ite_none_right_eq_some] at h
    obtain ⟨p, hp, hlock, rfl⟩ := write_cases h.2
    exact .pin hp (Or.inl hlock) (fun _ => rfl) fun _ => Or.inl rfl
  | createAllocator =>
    obtain rfl := Option.some.inj h
    exact .created
  | setProperties n allocProps =>
    rw [step, Option.ite_none_right_eq_some] at h
    obtain rfl := Option.some.inj h.2
    exact .properties rfl
  | addInputPin pName =>
    obtain rfl := Option.some.inj h
    exact .added

/-- The walk does not notice, until it looks. -/
theorem Other.frame (h : Other s a t) :
    t.walk = s.walk ∧ t.written = s.written ∧ t.sent = s.sent := by
  cases h <;> exact ⟨rfl, rfl, rfl⟩

theorem modifyPin_getElem? (s : SinkDiscovery) (i j : Nat) (f : WalkedPin → WalkedPin) :
    (s.modifyPin i f).pinList[j]? = (s.pinList[j]?).map fun p => if i = j then f p else p := by
  rw [modifyPin, List.getElem?_modify]
  by_cases hij : i = j
  · simp [hij]
  · simp [hij]

theorem modifyPin_named {i j : Nat} {f : WalkedPin → WalkedPin} (hf : ∀ p, (f p).pName = p.pName)
    {p : WalkedPin} (hp : s.pinList[j]? = some p) :
    ∃ q, (s.modifyPin i f).pinList[j]? = some q ∧ q.pName = p.pName := by
  rw [modifyPin_getElem?, hp, Option.map_some]
  refine ⟨_, rfl, ?_⟩
  split
  · exact hf p
  · rfl

/-- No pin changes its place or its name. -/
theorem Other.named (h : Other s a t) {j : Nat} {p : WalkedPin} (hp : s.pinList[j]? = some p) :
    ∃ q, t.pinList[j]? = some q ∧ q.pName = p.pName := by
  cases h with
  | pin _ _ hname => exact modifyPin_named hname hp
  | created | properties => exact ⟨p, hp, rfl⟩
  | added =>
    have hlt : j < s.pinList.length := (List.getElem?_eq_some_iff.mp hp).1
    exact ⟨p, (List.getElem?_append_left hlt).trans hp, rfl⟩

/-- Nobody writes to a pin without its lock. -/
theorem Other.kept (h : Other s a t) {j : Nat} {p : WalkedPin} (hp : s.pinList[j]? = some p)
    (hfree : p.locked = false) (ha : a ≠ .lock j) : t.pinList[j]? = some p := by
  cases h with
  | @pin i q f hq hlock =>
    have hne : i ≠ j := by
      rintro rfl
      rw [hp] at hq
      obtain rfl := Option.some.inj hq
      rcases hlock with hlock | rfl
      · rw [hfree] at hlock
        cases hlock
      · exact ha rfl
    rw [modifyPin_getElem?, hp, Option.map_some, if_neg hne]
  | created | properties => exact hp
  | added =>
    have hlt : j < s.pinList.length := (List.getElem?_eq_some_iff.mp hp).1
    exact (List.getElem?_append_left hlt).trans hp

theorem Other.reports (h : Other s a t) {n : Nat}
    (ha : ∀ allocProps, a ≠ .setProperties n allocProps) : t.allocators n = s.allocators n := by
  cases h with
  | pin | created | added => rfl
  | @properties m allocProps hset =>
    have hne : n ≠ m := by
      rintro rfl
      exact ha allocProps hset
    exact Function.update_of_ne hne _ _

theorem Other.readable (h : Other s a t) (ha : a.Readable)
    (hs : ∀ p ∈ s.pinList, p.mt.Readable) : ∀ p ∈ t.pinList, p.mt.Readable := by
  intro p hp
  cases h with
  | @pin i q f _ _ _ hmt =>
    obtain ⟨j, hj⟩ := List.mem_iff_getElem?.mp hp
    rw [modifyPin_getElem?] at hj
    obtain ⟨r, hr, rfl⟩ := Option.map_eq_some_iff.mp hj
    have hold : r.mt.Readable := hs r (List.mem_of_getElem? hr)
    split
    · rcases hmt r with e | rfl
      · rw [e]
        exact hold
      · exact ha
    · exact hold
  | created | properties => exact hs p hp
  | added =>
    rcases List.mem_append.mp hp with hp | hp
    · exact hs p hp
    · obtain rfl := List.mem_singleton.mp hp
      exact noMediaType_readable

end

/-! The records. -/

/-- Records of connected pins, and the empty message. -/
theorem pipeOutMediaTypes_of_forall₂ {cp : CodePage} {pins : List SinkPin} {infos : List Msg}
    (h : List.Forall₂ (fun pin info => pin.isConnected = true ∧ pinInfo cp pin = some info)
      pins infos) : pipeOutMediaTypes cp pins = some (infos ++ [[]]) := by
  induction h with
  | nil => rfl
  | cons hpin _ ih =>
    obtain ⟨hconn, hinfo⟩ := hpin
    rw [pipeOutMediaTypes, if_neg (by rw [hconn]; exact Bool.noConfusion), hinfo, Option.bind_some,
      ih]
    rfl

/-- The walk is past the place. -/
def Passed (j : Nat) : WalkPc → Prop
  | .walk i | .connected i | .typed i _ _ | .allocator i _ _ _ | .record i _ _ _ => j < i
  | .done => True

/-- What the walk has copied. -/
def copied : WalkPc → Option MediaType
  | .typed _ mt _ | .allocator _ mt _ _ | .record _ mt _ _ => some mt
  | .walk _ | .connected _ | .done => none

/-- The empty message, once it is written. -/
def ending : WalkPc → List Msg
  | .done => [[]]
  | _ => []

/-- A record is of the pin at its place, and says that it is connected. -/
structure RecordOf (pinList : List WalkedPin) (x : Nat × SinkPin) : Prop where
  readable : x.2.mt.Readable
  connected : x.2.isConnected = true
  named : ∃ p, pinList[x.1]? = some p ∧ p.pName = x.2.pName

/-- The records written so far, in the order of their pins. -/
structure Walked (cp : CodePage) (s : SinkDiscovery) : Prop where
  readable : ∀ p ∈ s.pinList, p.mt.Readable
  copy : ∀ mt ∈ copied s.walk, mt.Readable
  order : (s.sent.map Prod.fst).Pairwise (· < ·)
  passed : ∀ x ∈ s.sent, Passed x.1 s.walk
  pins : ∀ x ∈ s.sent, RecordOf s.pinList x
  written : ∃ infos, List.Forall₂
    (fun x info => x.2.isConnected = true ∧ pinInfo cp x.2 = some info) s.sent infos ∧
      s.written = infos ++ ending s.walk

/-- The steps of the walk. -/
inductive Turn (cp : CodePage) (s : SinkDiscovery) : SinkDiscovery → Prop
  | skip {i : Nat} {p : WalkedPin} (hpc : s.walk = .walk i) (hp : s.pinList[i]? = some p)
      (hconn : p.isConnected = false) : Turn cp s { s with walk := .walk (i + 1) }
  | enter {i : Nat} {p : WalkedPin} (hpc : s.walk = .walk i) (hp : s.pinList[i]? = some p)
      (hconn : p.isConnected = true) : Turn cp s { s with walk := .connected i }
  | finish {i : Nat} (hpc : s.walk = .walk i) (hend : s.pinList[i]? = none) :
      Turn cp s { s with walk := .done, written := s.written ++ [[]] }
  | copy {i : Nat} {p : WalkedPin} (hpc : s.walk = .connected i) (hp : s.pinList[i]? = some p) :
      Turn cp s { s with walk := .typed i p.mt p.block }
  | has {i block a : Nat} {mt : MediaType} {p : WalkedPin} (hpc : s.walk = .typed i mt block)
      (hp : s.pinList[i]? = some p) (ha : p.allocator = some a) :
      Turn cp s { s with walk := .allocator i mt block a }
  | makes {i block : Nat} {mt : MediaType} {p : WalkedPin} (hpc : s.walk = .typed i mt block)
      (hp : s.pinList[i]? = some p) (ha : p.allocator = none) :
      Turn cp s { s.modifyPin i fun p => { p with allocator := some s.made } with
        made := s.made + 1
        walk := .allocator i mt block s.made }
  | ask {i block a : Nat} {mt : MediaType} (hpc : s.walk = .allocator i mt block a) :
      Turn cp s { s with walk := .record i mt block (s.allocators a) }
  | record {i block : Nat} {mt : MediaType} {allocProps : AllocatorProperties} {p : WalkedPin}
      {info : Msg} (hpc : s.walk = .record i mt block allocProps) (hp : s.pinList[i]? = some p)
      (hinfo : pinInfo cp (p.described mt allocProps) = some info) :
      Turn cp s { s with
        walk := .walk (i + 1)
        written := s.written ++ [info]
        sent := s.sent ++ [(i, p.described mt allocProps)] }

section
variable {cp : CodePage} {s t : SinkDiscovery} {a : DiscoveryAction}

theorem walkStep_turn (h : s.walkStep cp s.walk = some t) : Turn cp s t := by
  cases hpc : s.walk with
  | walk i =>
    rw [hpc, walkStep] at h
    split at h
    · rename_i p hp
      obtain rfl := Option.some.inj h
      cases hconn : p.isConnected with
      | true => exact .enter hpc hp hconn
      | false => exact .skip hpc hp hconn
    · rename_i hend
      obtain rfl := Option.some.inj h
      exact .finish hpc hend
  | connected i =>
    rw [hpc] at h
    obtain ⟨p, hp, rfl⟩ := Option.map_eq_some_iff.mp h
    exact .copy hpc hp
  | typed i mt block =>
    rw [hpc] at h
    obtain ⟨p, hp, h⟩ := Option.bind_eq_some_iff.mp h
    rw [Option.ite_none_left_eq_some] at h
    obtain ⟨-, h⟩ := h
    split at h
    · rename_i ha
      obtain rfl := Option.some.inj h
      exact .has hpc hp ha
    · rename_i ha
      obtain rfl := Option.some.inj h
      exact .makes hpc hp ha
  | allocator i mt block a =>
    rw [hpc] at h
    obtain rfl := Option.some.inj h
    exact .ask hpc
  | record i mt block allocProps =>
    rw [hpc] at h
    obtain ⟨p, hp, h⟩ := Option.bind_eq_some_iff.mp h
    rw [Option.ite_none_left_eq_some] at h
    obtain ⟨info, hinfo, rfl⟩ := Option.map_eq_some_iff.mp h.2
    exact .record hpc hp hinfo
  | done =>
    rw [hpc] at h
    cases h

/-- Steps that write no record. -/
theorem Walked.quiet (h : s.Walked cp)
    (hpins : ∀ {j : Nat} {p : WalkedPin}, s.pinList[j]? = some p →
      ∃ q, t.pinList[j]? = some q ∧ q.pName = p.pName)
    (hreadable : ∀ p ∈ t.pinList, p.mt.Readable) (hcopy : ∀ mt ∈ copied t.walk, mt.Readable)
    (hpassed : ∀ j, Passed j s.walk → Passed j t.walk) (hsent : t.sent = s.sent)
    (hwritten : ∀ infos, s.written = infos ++ ending s.walk → t.written = infos ++ ending t.walk) :
    t.Walked cp where
  readable := hreadable
  copy := hcopy
  order := hsent ▸ h.order
  passed x hx := hpassed x.1 (h.passed x (hsent ▸ hx))
  pins x hx := by
    obtain ⟨hmt, hconn, p, hp, hname⟩ := h.pins x (hsent ▸ hx)
    obtain ⟨q, hq, hqname⟩ := hpins hp
    exact ⟨hmt, hconn, q, hq, hqname.trans hname⟩
  written := by
    obtain ⟨infos, hall, hw⟩ := h.written
    exact ⟨infos, hsent ▸ hall, hwritten infos hw⟩

theorem Walked.other (h : s.Walked cp) (ha : a.Readable) (hstep : Other s a t) : t.Walked cp := by
  obtain ⟨hwalk, hwritten, hsent⟩ := hstep.frame
  refine h.quiet hstep.named (hstep.readable ha h.readable) ?_ ?_ hsent ?_
  · rw [hwalk]
    exact h.copy
  · rw [hwalk]
    exact fun _ hj => hj
  · rw [hwalk, hwritten]
    exact fun _ hw => hw

theorem Walked.goto (h : s.Walked cp) {pc : WalkPc} (hcopy : ∀ mt ∈ copied pc, mt.Readable)
    (hpassed : ∀ j, Passed j s.walk → Passed j pc) (hend : ending pc = ending s.walk) :
    ({ s with walk := pc } : SinkDiscovery).Walked cp := by
  refine h.quiet (fun hp => ⟨_, hp, rfl⟩) h.readable hcopy hpassed rfl fun infos hw => ?_
  rw [hend]
  exact hw

theorem Walked.turn (h : s.Walked cp) (hturn : Turn cp s t) : t.Walked cp := by
  cases hturn with
  | @skip i p hpc hp =>
    refine h.goto (fun mt hmt => by cases hmt) (fun j hj => ?_) (by rw [hpc]; rfl)
    rw [hpc] at hj
    exact Nat.lt_succ_of_lt hj
  | enter hpc hp =>
    refine h.goto (fun mt hmt => by cases hmt) (fun j hj => ?_) (by rw [hpc]; rfl)
    rw [hpc] at hj
    exact hj
  | finish hpc =>
    refine h.quiet (fun hp => ⟨_, hp, rfl⟩) h.readable (fun mt hmt => by cases hmt)
      (fun j hj => trivial) rfl fun infos hw => ?_
    rw [hpc] at hw
    rw [hw]
    exact congrArg (· ++ [[]]) (List.append_nil infos)
  | copy hpc hp =>
    refine h.goto (fun mt hmt => ?_) (fun j hj => ?_) (by rw [hpc]; rfl)
    · obtain rfl := Option.mem_some_iff.mp hmt
      exact h.readable _ (List.mem_of_getElem? hp)
    · rw [hpc] at hj
      exact hj
  | has hpc hp =>
    have hcopy := h.copy
    rw [hpc] at hcopy
    refine h.goto hcopy (fun j hj => ?_) (by rw [hpc]; rfl)
    rw [hpc] at hj
    exact hj
  | @makes i block mt p hpc hp =>
    have hcopy := h.copy
    rw [hpc] at hcopy
    have hpins : ∀ {j : Nat} {q : WalkedPin}, s.pinList[j]? = some q → ∃ r,
        (s.modifyPin i fun p => { p with allocator := some s.made }).pinList[j]? = some r ∧
          r.pName = q.pName := fun hq =>
      modifyPin_named (f := fun p => { p with allocator := some s.made }) (fun _ => rfl) hq
    refine h.quiet hpins (fun q hq => ?_) hcopy (fun j hj => ?_) rfl ?_
    · obtain ⟨j, hj⟩ := List.mem_iff_getElem?.mp hq
      have hj' := (modifyPin_getElem? s i j _).symm.trans hj
      obtain ⟨r, hr, rfl⟩ := Option.map_eq_some_iff.mp hj'
      have hold : r.mt.Readable := h.readable r (List.mem_of_getElem? hr)
      split <;> exact hold
    · rw [hpc] at hj
      exact hj
    · rw [hpc]
      exact fun _ hw => hw
  | ask hpc =>
    have hcopy := h.copy
    rw [hpc] at hcopy
    refine h.goto hcopy (fun j hj => ?_) (by rw [hpc]; rfl)
    rw [hpc] at hj
    exact hj
  | @record i block mt allocProps p info hpc hp hinfo =>
    have hmt : mt.Readable := h.copy mt (by rw [hpc]; rfl)
    have hpassed := h.passed
    rw [hpc] at hpassed
    obtain ⟨infos, hall, hw⟩ := h.written
    rw [hpc] at hw
    refine ⟨h.readable, fun mt hmt => (by cases hmt), ?_, fun x hx => ?_, fun x hx => ?_,
      infos ++ [info], ?_, ?_⟩
    · dsimp only
      rw [List.map_append, List.pairwise_append]
      refine ⟨h.order, List.pairwise_singleton _ _, fun j hj k hk => ?_⟩
      obtain ⟨x, hx, rfl⟩ := List.mem_map.mp hj
      obtain rfl := List.mem_singleton.mp hk
      exact hpassed x hx
    · rcases List.mem_append.mp hx with hx | hx
      · exact Nat.lt_succ_of_lt (hpassed x hx)
      · obtain rfl := List.mem_singleton.mp hx
        exact Nat.lt_succ_self i
    · rcases List.mem_append.mp hx with hx | hx
      · exact h.pins x hx
      · obtain rfl := List.mem_singleton.mp hx
        exact ⟨hmt, rfl, p, hp, rfl⟩
    · exact List.rel_append hall (List.Forall₂.cons ⟨rfl, hinfo⟩ List.Forall₂.nil)
    · dsimp only
      rw [hw]
      simp [ending]

theorem Walked.step (h : s.Walked cp) (ha : a.Readable) (hstep : s.step cp a = some t) :
    t.Walked cp := by
  by_cases hwalk : a = .walk
  · subst hwalk
    exact h.turn (walkStep_turn hstep)
  · exact h.other ha (step_other hwalk hstep)

/-- A connected pin that is left alone: while the walk is at it, it has copied what the pin
    is; once the walk is past it, it has recorded that. -/
structure Settled (i a : Nat) (p : WalkedPin) (allocProps : AllocatorProperties)
    (s : SinkDiscovery) : Prop where
  here : s.pinList[i]? = some p
  reports : s.allocators a = allocProps
  copied : ∀ mt block, s.walk = .typed i mt block → mt = p.mt
  asked : ∀ mt block b, s.walk = .allocator i mt block b → mt = p.mt ∧ b = a
  told : ∀ mt block props, s.walk = .record i mt block props → mt = p.mt ∧ props = allocProps
  passed : Passed i s.walk → (i, p.described p.mt allocProps) ∈ s.sent

/-- Between two records there is nothing to keep but what is sent. -/
theorem Settled.of_no_copy {i n : Nat} {p : WalkedPin} {allocProps : AllocatorProperties}
    (hhere : t.pinList[i]? = some p) (hreports : t.allocators n = allocProps)
    (hcopy : SinkDiscovery.copied t.walk = none)
    (hpassed : Passed i t.walk → (i, p.described p.mt allocProps) ∈ t.sent) :
    t.Settled i n p allocProps := by
  refine ⟨hhere, hreports, fun mt block e => ?_, fun mt block b e => ?_,
    fun mt block props e => ?_, hpassed⟩
  all_goals
    rw [e] at hcopy
    cases hcopy

theorem Settled.other {i n : Nat} {p : WalkedPin} {allocProps : AllocatorProperties}
    (h : s.Settled i n p allocProps) (hfree : p.locked = false) (ha : Undisturbed i n a)
    (hstep : Other s a t) : t.Settled i n p allocProps := by
  obtain ⟨hwalk, -, hsent⟩ := hstep.frame
  refine ⟨hstep.kept h.here hfree ha.1, (hstep.reports ha.2).trans h.reports, ?_, ?_, ?_, ?_⟩
  · rw [hwalk]
    exact h.copied
  · rw [hwalk]
    exact h.asked
  · rw [hwalk]
    exact h.told
  · rw [hwalk, hsent]
    exact h.passed

theorem Settled.turn {i n : Nat} {p : WalkedPin} {allocProps : AllocatorProperties}
    (h : s.Settled i n p allocProps) (hconn : p.isConnected = true) (hall : p.allocator = some n)
    (hturn : Turn cp s t) : t.Settled i n p allocProps := by
  have hpassed := h.passed
  cases hturn with
  | @skip j q hpc hq hno =>
    rw [hpc] at hpassed
    have hne : i ≠ j := by
      rintro rfl
      rw [h.here] at hq
      obtain rfl := Option.some.inj hq
      rw [hconn] at hno
      cases hno
    refine .of_no_copy h.here h.reports rfl fun hlt => hpassed ?_
    exact Nat.lt_of_le_of_ne (Nat.le_of_lt_succ hlt) hne
  | enter hpc =>
    rw [hpc] at hpassed
    exact .of_no_copy h.here h.reports rfl hpassed
  | @finish j hpc hend =>
    rw [hpc] at hpassed
    refine .of_no_copy h.here h.reports rfl fun _ => hpassed ?_
    have hlt : i < s.pinList.length := (List.getElem?_eq_some_iff.mp h.here).1
    exact Nat.lt_of_lt_of_le hlt (List.getElem?_eq_none_iff.mp hend)
  | @copy j q hpc hq =>
    rw [hpc] at hpassed
    refine ⟨h.here, h.reports, fun mt block e => ?_, fun _ _ _ e => (by cases e),
      fun _ _ _ e => (by cases e), hpassed⟩
    obtain ⟨rfl, rfl, rfl⟩ := WalkPc.typed.inj e
    rw [h.here] at hq
    rw [Option.some.inj hq]
  | @has j block b mt q hpc hq hb =>
    rw [hpc] at hpassed
    refine ⟨h.here, h.reports, fun _ _ e => (by cases e), fun mt' block' b' e => ?_,
      fun _ _ _ e => (by cases e), hpassed⟩
    obtain ⟨rfl, rfl, rfl, rfl⟩ := WalkPc.allocator.inj e
    rw [h.here] at hq
    obtain rfl := Option.some.inj hq
    rw [hall] at hb
    exact ⟨h.copied _ _ hpc, (Option.some.inj hb).symm⟩
  | @makes j block mt q hpc hq hb =>
    rw [hpc] at hpassed
    have hne : j ≠ i := by
      rintro rfl
      rw [h.here] at hq
      obtain rfl := Option.some.inj hq
      rw [hall] at hb
      cases hb
    refine ⟨?_, h.reports, fun _ _ e => (by cases e), fun mt' block' b' e => ?_,
      fun _ _ _ e => (by cases e), hpassed⟩
    · refine (modifyPin_getElem? s j i _).trans ?_
      rw [h.here, Option.map_some, if_neg hne]
    · obtain ⟨rfl, -⟩ := WalkPc.allocator.inj e
      exact absurd rfl hne
  | @ask j block b mt hpc =>
    rw [hpc] at hpassed
    refine ⟨h.here, h.reports, fun _ _ e => (by cases e), fun _ _ _ e => (by cases e),
      fun mt' block' props e => ?_, hpassed⟩
    obtain ⟨rfl, rfl, rfl, rfl⟩ := WalkPc.record.inj e
    obtain ⟨hmt, rfl⟩ := h.asked _ _ _ hpc
    exact ⟨hmt, h.reports⟩
  | @record j block mt props q info hpc hq =>
    rw [hpc] at hpassed
    refine .of_no_copy h.here h.reports rfl fun hlt => List.mem_append.mpr ?_
    rcases Nat.lt_succ_iff_lt_or_eq.mp hlt with hlt | rfl
    · exact Or.inl (hpassed hlt)
    · obtain ⟨rfl, rfl⟩ := h.told _ _ _ hpc
      rw [h.here] at hq
      obtain rfl := Option.some.inj hq
      exact Or.inr (List.mem_singleton.mpr rfl)

/-- The pin that the walk is in the middle of. -/
def inRecord : WalkPc → Option Nat
  | .connected i | .typed i _ _ | .allocator i _ _ _ | .record i _ _ _ => some i
  | .walk _ | .done => none

/-- A pin that is not connected and is left alone gets no record. -/
structure Unrecorded (i : Nat) (p : WalkedPin) (s : SinkDiscovery) : Prop where
  here : s.pinList[i]? = some p
  away : inRecord s.walk ≠ some i
  unsent : ∀ x ∈ s.sent, x.1 ≠ i

theorem Unrecorded.other {i : Nat} {p : WalkedPin} (h : s.Unrecorded i p) (hfree : p.locked = false)
    (ha : a ≠ .lock i) (hstep : Other s a t) : t.Unrecorded i p := by
  obtain ⟨hwalk, -, hsent⟩ := hstep.frame
  exact ⟨hstep.kept h.here hfree ha, hwalk ▸ h.away, hsent ▸ h.unsent⟩

theorem Unrecorded.turn {i : Nat} {p : WalkedPin} (h : s.Unrecorded i p)
    (hconn : p.isConnected = false) (hturn : Turn cp s t) : t.Unrecorded i p := by
  have haway := h.away
  cases hturn with
  | skip | finish => exact ⟨h.here, fun e => (by cases e), h.unsent⟩
  | @enter j q hpc hq hyes =>
    refine ⟨h.here, fun e => ?_, h.unsent⟩
    obtain rfl := Option.some.inj e
    rw [h.here] at hq
    obtain rfl := Option.some.inj hq
    rw [hconn] at hyes
    cases hyes
  | copy hpc | has hpc | ask hpc =>
    rw [hpc] at haway
    exact ⟨h.here, haway, h.unsent⟩
  | @makes j block mt q hpc =>
    rw [hpc] at haway
    have hne : j ≠ i := fun e => haway (congrArg some e)
    refine ⟨?_, haway, h.unsent⟩
    refine (modifyPin_getElem? s j i _).trans ?_
    rw [h.here, Option.map_some, if_neg hne]
  | @record j block mt allocProps q info hpc =>
    rw [hpc] at haway
    refine ⟨h.here, fun e => (by cases e), fun x hx => ?_⟩
    rcases List.mem_append.mp hx with hx | hx
    · exact h.unsent x hx
    · obtain rfl := List.mem_singleton.mp hx
      exact fun e => haway (congrArg some e)

end

/-! Runs. -/

/-- Before the first step of PipeOutMediaTypes. -/
def start (pinList : List WalkedPin) (allocators : Nat → AllocatorProperties) (made : Nat) :
    SinkDiscovery where
  pinList := pinList
  allocators := allocators
  made := made
  walk := .walk 0
  written := []
  sent := []

section
variable {cp : CodePage} {pinList : List WalkedPin} {allocators : Nat → AllocatorProperties}
  {made : Nat} {as : List DiscoveryAction} {u : SinkDiscovery}

theorem walked_run (hreadable : ∀ p ∈ pinList, p.mt.Readable) (has : ∀ a ∈ as, a.Readable)
    (hrun : run (step cp) (start pinList allocators made) as = some u) : u.Walked cp := by
  have hstart : (start pinList allocators made).Walked cp := by
    refine ⟨hreadable, fun mt hmt => (by cases hmt), List.Pairwise.nil, fun x hx => (by cases hx),
      fun x hx => (by cases hx), [], List.Forall₂.nil, rfl⟩
  refine Transition.run_invariant_of_meets (C := fun _ a => a.Readable) (I := Walked cp) ?_ as _ u
    hstart (Transition.meets_of_forall (fun a ha _ => has a ha) _) hrun
  intro s a t hs ha hstep
  exact hs.step ha hstep

theorem settled_run {i n : Nat} {p : WalkedPin} (hp : pinList[i]? = some p)
    (hconn : p.isConnected = true) (hfree : p.locked = false) (hall : p.allocator = some n)
    (has : ∀ a ∈ as, Undisturbed i n a)
    (hrun : run (step cp) (start pinList allocators made) as = some u) :
    u.Settled i n p (allocators n) := by
  have hstart : (start pinList allocators made).Settled i n p (allocators n) :=
    .of_no_copy hp rfl rfl fun hlt => absurd hlt (Nat.not_lt_zero i)
  refine Transition.run_invariant_of_meets (C := fun _ a => Undisturbed i n a)
    (I := Settled i n p (allocators n)) ?_ as _ u
    hstart (Transition.meets_of_forall (fun a ha _ => has a ha) _) hrun
  intro s a t hs ha hstep
  by_cases hwalk : a = .walk
  · subst hwalk
    exact hs.turn hconn hall (walkStep_turn hstep)
  · exact hs.other hfree ha (step_other hwalk hstep)

theorem unrecorded_run {i : Nat} {p : WalkedPin} (hp : pinList[i]? = some p)
    (hconn : p.isConnected = false) (hfree : p.locked = false) (has : ∀ a ∈ as, a ≠ .lock i)
    (hrun : run (step cp) (start pinList allocators made) as = some u) : u.Unrecorded i p := by
  have hstart : (start pinList allocators made).Unrecorded i p :=
    ⟨hp, fun e => (by cases e), fun x hx => (by cases hx)⟩
  refine Transition.run_invariant_of_meets (C := fun _ a => a ≠ .lock i) (I := Unrecorded i p) ?_
    as _ u hstart (Transition.meets_of_forall (fun a ha _ => has a ha) _) hrun
  intro s a t hs ha hstep
  by_cases hwalk : a = .walk
  · subst hwalk
    exact hs.turn hconn (walkStep_turn hstep)
  · exact hs.other hfree ha (step_other hwalk hstep)

end

/-- What a discovery that is done has sent of the pins it found at its beginning, and what
    the source makes of it. -/
structure Discovers (cp : CodePage) (env : DecodeEnv) (extra : List Msg) (pinList : List WalkedPin)
    (allocators : Nat → AllocatorProperties) (as : List DiscoveryAction) (u : SinkDiscovery) :
    Prop where
  piped : pipeOutMediaTypes cp (u.sent.map Prod.snd) = some u.written
  read : ∃ created, readRecords cp env 0 (u.written ++ extra) = some (created, extra) ∧
    List.Forall₂ (fun x c => SinkPin.Describes x.2 c ∧ c.pName = carriedName cp x.2.pName)
      u.sent created
  order : (u.sent.map Prod.fst).Pairwise (· < ·)
  named : ∀ x ∈ u.sent, ∃ p, u.pinList[x.1]? = some p ∧ p.pName = x.2.pName
  settled : ∀ (i a : Nat) (p : WalkedPin), pinList[i]? = some p → p.isConnected = true →
    p.locked = false → p.allocator = some a → (∀ b ∈ as, Undisturbed i a b) →
    (i, p.described p.mt (allocators a)) ∈ u.sent
  free : ∀ (i : Nat) (p : WalkedPin), pinList[i]? = some p → p.isConnected = false →
    p.locked = false → (∀ b ∈ as, b ≠ .lock i) → ∀ x ∈ u.sent, x.1 ≠ i

/-- **Discovery among calls**: whatever is done to the other pins meanwhile, and wherever a
    connection is half made when the walk comes to its pin. -/
theorem settled_pins_discovered (cp : CodePage) (env : DecodeEnv) (extra : List Msg)
    (pinList : List WalkedPin) (allocators : Nat → AllocatorProperties) (made : Nat)
    (as : List DiscoveryAction) {u : SinkDiscovery} (hreadable : ∀ p ∈ pinList, p.mt.Readable)
    (has : ∀ a ∈ as, a.Readable)
    (hrun : run (step cp) (start pinList allocators made) as = some u) (hdone : u.walk = .done) :
    Discovers cp env extra pinList allocators as u := by
  have hwalked := walked_run hreadable has hrun
  have hpiped : pipeOutMediaTypes cp (u.sent.map Prod.snd) = some u.written := by
    obtain ⟨infos, hall, hw⟩ := hwalked.written
    rw [hw, hdone]
    exact pipeOutMediaTypes_of_forall₂ (List.forall₂_map_left_iff.mpr hall)
  refine ⟨hpiped, ?_, hwalked.order, fun x hx => (hwalked.pins x hx).named, ?_, ?_⟩
  · have hread : ∀ pin ∈ u.sent.map Prod.snd, pin.isConnected = true → pin.Readable := by
      intro pin hpin _
      obtain ⟨x, hx, rfl⟩ := List.mem_map.mp hpin
      exact (hwalked.pins x hx).readable
    have hfilter : (u.sent.map Prod.snd).filter (·.isConnected) = u.sent.map Prod.snd := by
      rw [List.filter_eq_self]
      intro pin hpin
      obtain ⟨x, hx, rfl⟩ := List.mem_map.mp hpin
      exact (hwalked.pins x hx).connected
    obtain ⟨created, hcreated, hall⟩ :=
      readRecords_pipeOutMediaTypes env extra (u.sent.map Prod.snd) u.written 0 hread hpiped
    rw [hfilter] at hall
    exact ⟨created, hcreated, List.forall₂_map_left_iff.mp hall⟩
  · intro i a p hp hconn hfree hall hundisturbed
    have hsettled := settled_run hp hconn hfree hall hundisturbed hrun
    exact hsettled.passed (by rw [hdone]; trivial)
  · intro i p hp hconn hfree hlock
    exact (unrecorded_run hp hconn hfree hlock hrun).unsent

/-- A connected pin, and one that nothing is connected to. -/
def twoPins : List WalkedPin :=
  [{ newPin [86] with isConnected := true, mt := bareVideo, allocator := some 0 }, newPin [87]]

/-- The second pin is being connected when the walk comes to it. -/
def duringConnect : List DiscoveryAction :=
  [.walk, .lock 1, .connect 1 true, .walk, .walk, .walk, .walk, .walk, .walk,
    .setMediaType 1 bareVideo, .addInputPin [88], .unlock 1, .walk, .walk, .walk, .walk, .walk]

/-- It is sent with the type it had before, and with an allocator that GetAllocator made. -/
theorem settled_pins_discovered_duringConnect :
    let allocators := fun n => if n = 0 then ⟨1, 1, 1, 0⟩ else ⟨0, 0, 0, 0⟩
    ∃ u, run (step .latin1) (start twoPins allocators 1) duringConnect = some u ∧
      u.sent = [(0, ⟨[86], true, bareVideo, ⟨1, 1, 1, 0⟩⟩),
        (1, ⟨[87], true, noMediaType, ⟨0, 0, 0, 0⟩⟩)] ∧
      Discovers .latin1 clearedStack [] twoPins allocators duringConnect u := by
  refine ⟨_, rfl, rfl, ?_⟩
  refine settled_pins_discovered .latin1 clearedStack [] twoPins _ 1 duringConnect ?_ ?_ rfl rfl
  · intro p hp
    simp only [twoPins, List.mem_cons, List.not_mem_nil, or_false] at hp
    rcases hp with rfl | rfl
    · exact ⟨rfl, by decide⟩
    · exact noMediaType_readable
  · intro a ha
    simp only [duringConnect, List.mem_cons, List.not_mem_nil, or_false] at ha
    rcases ha with rfl | rfl | rfl | rfl | rfl | rfl | rfl | rfl | rfl | rfl | rfl | rfl | rfl | rfl |
      rfl | rfl | rfl
    all_goals trivial

end SinkDiscovery

end VirtualCaptureStream
