import VirtualCaptureStream.Win32

/- Which stream a new source looks for. The constructor takes the name from the
   environment variable VirtualStreamID, else from the command line, else it is
   VirtualSink1. In the command line it searches for the characters `/stream` and takes
   what stands eight characters further on, to the end.

   What is proved: `selected_iff`. A name from the environment is right if it fits. One
   from the command line is right if there is no `/stream`, or the first one starts an
   argument whose value stands behind one separator and goes on to the end; else only
   where it comes out as VirtualSink1 by itself. With `/stream` at the very end the
   pointer is past the terminator (`stream_at_the_end`).

   Correspondence (C++ ↔ Lean):
     `GetEnvironmentVariable`, with its buffer    ↔ `getEnvironmentVariable`
     `_tcsstr`                                    ↔ `tcsstr`
     what `_tcslen` and CreateOutputPins read     ↔ `cstring`
     the constructor, up to CreateOutputPins      ↔ `selectName`
   What a '/stream' argument is the code does not say: `switchValue` is the usual reading
   of a command line, arguments between blanks, with double quotes around blanks. -/
namespace VirtualCaptureStream

namespace SourceStreamName

def switch : WStr := wide "/stream"

def defaultName : WStr := wide "VirtualSink1"

/-- The string a pointer points to; `none`: there is no terminator. -/
def cstring : List WChar → Option WStr
  | [] => none
  | c :: cs => if c = 0 then some [] else (cstring cs).map (c :: ·)

/-- The first place where the pattern stands: what is before it, and behind it. -/
def tcsstr (pattern : WStr) : WStr → Option (WStr × WStr)
  | [] => if pattern = [] then some ([], []) else none
  | c :: cs =>
    if pattern.isPrefixOf (c :: cs) then some ([], (c :: cs).drop pattern.length)
    else (tcsstr pattern cs).map fun x => (c :: x.1, x.2)

/-- What the constructor finds. `stack`: what `szStreamID` held before; `left`: what
    GetEnvironmentVariable leaves there when the value has no room, which is
    undefined; `beyond`: the memory behind the command line. -/
structure NameEnv where
  streamID : Option WStr
  stack : List WChar
  left : List WChar
  commandLine : WStr
  beyond : List WChar
  streamID_noZero : ∀ v ∈ streamID, 0 ∉ v
  commandLine_noZero : 0 ∉ commandLine

/-- `szStreamID` after the call. -/
def getEnvironmentVariable (env : NameEnv) (szStreamID : List WChar) : List WChar :=
  match env.streamID with
  | none => szStreamID
  | some v =>
    if v.length < MAX_PATH then v ++ 0 :: szStreamID.drop (v.length + 1) else env.left

/-- What is passed to CreateOutputPins (`none`: undefined), and where in the command line
    the pointer points that was used for it. -/
structure Selection where
  name : Option WStr
  pointer : Option Nat

/-- The name as the constructor takes it from the command line. -/
def fromCommandLine (commandLine : WStr) (beyond : List WChar) : Selection :=
  match tcsstr switch commandLine with
  | none => ⟨some defaultName, none⟩
  | some (before, _) =>
    let pointer := before.length + 8
    let name := cstring ((commandLine ++ 0 :: beyond).drop pointer)
    ⟨name.map fun n => if n = [] then defaultName else n, some pointer⟩

/-- The constructor. Its memset clears half of the array. -/
def selectName (env : NameEnv) : Selection :=
  let szStreamID := List.replicate (MAX_PATH / 2) 0 ++ env.stack.drop (MAX_PATH / 2)
  match cstring (getEnvironmentVariable env szStreamID) with
  | none => ⟨none, none⟩
  | some [] => fromCommandLine env.commandLine env.beyond
  | some n => ⟨some n, none⟩

/-! What the name should be. -/

def blank (c : WChar) : Bool := c == 32 || c == 9

def quote : WChar := 34

/-- Where a reader of the command line is: at the start of an argument, inside quotes. -/
structure Scan where
  start : Bool
  quoted : Bool
  deriving DecidableEq

def Scan.next (s : Scan) (c : WChar) : Scan :=
  let quoted := s.quoted ^^ (c == quote)
  ⟨blank c && !quoted, quoted⟩

def Scan.new : Scan := ⟨true, false⟩

/-- The argument up to the next blank outside quotes, without its quotes. -/
def argument (quoted : Bool) : WStr → WStr
  | [] => []
  | c :: cs =>
    if c = quote then argument (!quoted) cs
    else if blank c && !quoted then []
    else c :: argument quoted cs

/-- What follows the switch: blanks separate it, or one of the separators. -/
def separated (sep : WChar → Bool) : WStr → WStr
  | [] => []
  | c :: cs =>
    if blank c then argument false (cs.dropWhile blank)
    else if sep c then argument false cs
    else []

def value (sep : WChar → Bool) (s : WStr) : Option WStr :=
  if separated sep s = [] then none else some (separated sep s)

/-- The value of the first '/stream' argument that has one. -/
def switchValue (sep : WChar → Bool) : Scan → WStr → Option WStr
  | _, [] => none
  | s, c :: cs =>
    let here := if s.start && switch.isPrefixOf (c :: cs) then
        value sep ((c :: cs).drop switch.length)
      else none
    here.or (switchValue sep (s.next c) cs)

def expectedFrom (sep : WChar → Bool) (commandLine : WStr) : WStr :=
  (switchValue sep .new commandLine).getD defaultName

def expectedName (sep : WChar → Bool) (env : NameEnv) : WStr :=
  match env.streamID with
  | none => expectedFrom sep env.commandLine
  | some v => if v ≠ [] ∧ v.length < MAX_PATH then v else expectedFrom sep env.commandLine

/-- The name is the expected one, and no pointer passes the end of the command line. -/
structure Selection.Right (commandLine expected : WStr) (s : Selection) : Prop where
  name : s.name = some expected
  inside : ∀ p ∈ s.pointer, p ≤ commandLine.length

/-- No blanks and no quotes. -/
def Plain (v : WStr) : Prop := ∀ c ∈ v, blank c = false ∧ c ≠ quote

/-- The first `/stream` starts an argument, and one separator and a value follow it to
    the end; or there is nothing but one character behind it; or VirtualSink1. -/
def SelectsFrom (sep : WChar → Bool) (commandLine : WStr) : Prop :=
  match tcsstr switch commandLine with
  | none => True
  | some (_, []) => False
  | some (_, [_]) => True
  | some (before, c :: v) =>
    v = defaultName ∨
      ((before.foldl Scan.next .new).start = true ∧ (blank c = true ∨ sep c = true) ∧ Plain v)

/-- The value of the variable fits and is not empty; or its buffer is left empty, and
    the command line will do. -/
def Selects (sep : WChar → Bool) (env : NameEnv) : Prop :=
  match env.streamID with
  | none => SelectsFrom sep env.commandLine
  | some v =>
    if v.length < MAX_PATH then v ≠ [] ∨ SelectsFrom sep env.commandLine
    else match cstring env.left with
      | none => False
      | some [] => SelectsFrom sep env.commandLine
      | some n => n = expectedName sep env

/-! Strings and their terminators. -/

theorem cstring_append {s : WStr} (hs : 0 ∉ s) (rest : List WChar) :
    cstring (s ++ 0 :: rest) = some s := by
  induction s with
  | nil => rfl
  | cons c cs ih =>
    rw [List.mem_cons, not_or] at hs
    rw [List.cons_append, cstring, if_neg (Ne.symm hs.1), ih hs.2]
    rfl

theorem tcsstr_eq {pattern s before rest : WStr}
    (h : tcsstr pattern s = some (before, rest)) : s = before ++ pattern ++ rest := by
  induction s generalizing before with
  | nil =>
    simp only [tcsstr, Option.ite_none_right_eq_some] at h
    obtain ⟨rfl, h⟩ := h
    cases h
    rfl
  | cons c cs ih =>
    rw [tcsstr] at h
    split at h
    · rename_i hpre
      cases h
      exact (List.prefix_iff_eq_append.mp (List.isPrefixOf_iff_prefix.mp hpre)).symm
    · obtain ⟨x, hx, hxs⟩ := Option.map_eq_some_iff.mp h
      cases hxs
      rw [ih hx]
      rfl

/-- Eight characters behind the first place, the name goes on to the end. -/
theorem cstring_behind {before v : WStr} {c : WChar} (h0 : 0 ∉ before ++ switch ++ c :: v)
    (beyond : List WChar) :
    cstring ((before ++ switch ++ c :: v ++ 0 :: beyond).drop (before.length + 8)) = some v := by
  have hv0 : 0 ∉ v := fun hmem => h0 (List.mem_append_right _ (List.mem_cons_of_mem c hmem))
  have hlen : (before ++ switch ++ [c]).length = before.length + 8 := by
    simp [switch, wide]
  calc cstring ((before ++ switch ++ c :: v ++ 0 :: beyond).drop (before.length + 8))
      = cstring ((before ++ switch ++ [c] ++ (v ++ 0 :: beyond)).drop (before.length + 8)) := by
        simp
    _ = cstring (v ++ 0 :: beyond) := by rw [List.drop_left' hlen]
    _ = some v := cstring_append hv0 beyond

/-! The value of an argument. -/

/-- A fixed string is looked through. -/
theorem plain_of_all {v : WStr} (h : (v.all fun c => !blank c && c != quote) = true) :
    Plain v := by
  intro c hc
  simpa using List.all_eq_true.mp h c hc

theorem argument_length (quoted : Bool) (s : WStr) : (argument quoted s).length ≤ s.length := by
  induction s generalizing quoted with
  | nil => exact Nat.le_refl 0
  | cons c cs ih =>
    rw [argument]
    split
    · exact Nat.le_succ_of_le (ih _)
    · split
      · exact Nat.zero_le _
      · exact Nat.succ_le_succ (ih _)

/-- Nothing is left out of what has no blanks and no quotes, and of nothing else. -/
theorem argument_eq_iff {s : WStr} : argument false s = s ↔ Plain s := by
  induction s with
  | nil => exact iff_of_true rfl (fun _ h => by cases h)
  | cons c cs ih =>
    rw [argument, Plain, List.forall_mem_cons]
    by_cases hq : c = quote
    · rw [if_pos hq]
      refine iff_of_false (fun h => ?_) (fun h => h.1.2 hq)
      have hlen := argument_length (!false) cs
      rw [h] at hlen
      exact Nat.not_succ_le_self _ hlen
    · rw [if_neg hq]
      cases hb : blank c with
      | true => simp
      | false =>
        simp only [Bool.false_and, Bool.false_eq_true, if_false, List.cons.injEq, true_and]
        rw [ih]
        exact ⟨fun h => ⟨hq, h⟩, And.right⟩

section
variable {sep : WChar → Bool}

theorem separated_length (c : WChar) (cs : WStr) :
    (separated sep (c :: cs)).length ≤ cs.length := by
  rw [separated]
  split
  · exact Nat.le_trans (argument_length false _) (List.dropWhile_suffix _).length_le
  · split
    · exact argument_length false cs
    · exact Nat.zero_le _

/-- What follows is all that stands behind one separator. -/
theorem separated_eq_iff {c : WChar} {v : WStr} (hv : v ≠ []) :
    separated sep (c :: v) = v ↔ (blank c = true ∨ sep c = true) ∧ Plain v := by
  rw [separated, ← argument_eq_iff]
  cases hb : blank c with
  | true =>
    rw [if_pos rfl]
    refine ⟨fun h => ⟨Or.inl rfl, ?_⟩, fun h => ?_⟩
    · -- no blank was skipped, or the value would be shorter
      have hlen := argument_length false (v.dropWhile blank)
      rw [h] at hlen
      have hsame := (List.dropWhile_suffix blank).eq_of_length_le hlen
      rw [hsame] at h
      exact h
    · have hplain := argument_eq_iff.mp h.2
      cases v with
      | nil => exact absurd rfl hv
      | cons x xs =>
        rw [List.dropWhile_cons, (hplain x List.mem_cons_self).1]
        exact h.2
  | false =>
    rw [if_neg Bool.false_ne_true]
    cases hs : sep c with
    | true => simp
    | false => simpa using Ne.symm hv

theorem value_eq_some {s w : WStr} : value sep s = some w ↔ w ≠ [] ∧ separated sep s = w := by
  rw [value]
  split
  · rename_i h
    refine iff_of_false (fun hw => by cases hw) ?_
    rintro ⟨hne, rfl⟩
    exact hne h
  · rename_i h
    rw [Option.some.injEq]
    exact ⟨fun hw => ⟨hw ▸ h, hw⟩, And.right⟩

theorem value_length {s w : WStr} (h : value sep s = some w) : w.length < s.length := by
  obtain ⟨hne, rfl⟩ := value_eq_some.mp h
  cases s with
  | nil => exact absurd rfl hne
  | cons c cs => exact Nat.lt_succ_of_le (separated_length c cs)

/-- A value is shorter than the command line that it is taken from. -/
theorem switchValue_length {scan : Scan} {s w : WStr} (h : switchValue sep scan s = some w) :
    w.length < s.length := by
  induction s generalizing scan with
  | nil => cases h
  | cons c cs ih =>
    rw [switchValue, Option.or_eq_some_iff] at h
    rcases h with h | ⟨_, h⟩
    · rw [Option.ite_none_right_eq_some] at h
      exact Nat.lt_of_lt_of_le (value_length h.2) (List.drop_suffix _ _).length_le
    · exact Nat.lt_succ_of_lt (ih h)

/-- Where the characters of the switch do not stand, there is no switch. -/
theorem switchValue_of_none {scan : Scan} {s : WStr} (h : tcsstr switch s = none) :
    switchValue sep scan s = none := by
  induction s generalizing scan with
  | nil => rfl
  | cons c cs ih =>
    rw [tcsstr] at h
    split at h
    · cases h
    · rename_i hpre
      rw [switchValue, ih (Option.map_eq_none_iff.mp h), if_neg (by simp [hpre])]
      rfl

/-- The search goes on to the first place where the characters of the switch stand. -/
theorem switchValue_of_some {scan : Scan} {s before rest : WStr}
    (h : tcsstr switch s = some (before, rest)) :
    switchValue sep scan s =
      switchValue sep (before.foldl Scan.next scan) (switch ++ rest) := by
  induction s generalizing before scan with
  | nil => cases h
  | cons c cs ih =>
    rw [tcsstr] at h
    split at h
    · rename_i hpre
      cases h
      rw [← List.prefix_iff_eq_append.mp (List.isPrefixOf_iff_prefix.mp hpre)]
      rfl
    · rename_i hpre
      obtain ⟨x, hx, hxs⟩ := Option.map_eq_some_iff.mp h
      cases hxs
      rw [switchValue, if_neg (by simp [hpre])]
      exact ih hx

/-- Within an argument there is no start of one. -/
theorem switchValue_plain {quoted : Bool} {t rest : WStr} (ht : Plain t) :
    switchValue sep ⟨false, quoted⟩ (t ++ rest) = switchValue sep ⟨false, quoted⟩ rest := by
  induction t with
  | nil => rfl
  | cons c cs ih =>
    obtain ⟨⟨hb, hq⟩, hcs⟩ := List.forall_mem_cons.mp ht
    have hnext : Scan.next ⟨false, quoted⟩ c = ⟨false, quoted⟩ := by
      simp [Scan.next, hb, beq_false_of_ne hq]
    rw [List.cons_append, switchValue, hnext, ih hcs]
    rfl

/-- There is a value behind it, or the search goes on behind it. -/
theorem switchValue_switch (scan : Scan) (rest : WStr) :
    switchValue sep scan (switch ++ rest) =
      (if scan.start then value sep rest else none).or
        (switchValue sep ⟨false, scan.quoted⟩ rest) := by
  have hswitch : switch = 47 :: wide "stream" := by decide
  have hnext : scan.next 47 = ⟨false, scan.quoted⟩ := by
    simp [Scan.next, blank, quote]
  have hplain : Plain (wide "stream") := plain_of_all (by decide)
  have hpre : switch.isPrefixOf (47 :: (wide "stream" ++ rest)) = true :=
    List.isPrefixOf_iff_prefix.mpr ⟨rest, by rw [hswitch]; rfl⟩
  have hdrop : (47 :: (wide "stream" ++ rest)).drop switch.length = rest := by
    rw [← List.cons_append, ← hswitch, List.drop_left]
  rw [hswitch, List.cons_append, switchValue, hnext, switchValue_plain hplain, hpre, hdrop,
    Bool.and_true]

/-- The first place is a switch with all the rest for its value. -/
theorem here_eq_iff {start : Bool} {c : WChar} {v : WStr} (hv : v ≠ []) :
    (if start then value sep (c :: v) else none) = some v ↔
      start = true ∧ (blank c = true ∨ sep c = true) ∧ Plain v := by
  rw [Option.ite_none_right_eq_some, value_eq_some, separated_eq_iff hv]
  simp [hv]

/-- One character behind the switch leaves no room for a value. -/
theorem switchValue_separator (scan : Scan) (c : WChar) :
    switchValue sep scan (switch ++ [c]) = none := by
  have hnone : value sep [c] = none := by
    rw [value, if_pos (List.length_eq_zero_iff.mp (Nat.le_zero.mp (separated_length c [])))]
  rw [switchValue_switch, hnone, ite_self]
  rfl

/-- A value that is taken from a command line ending in the default name is that name. -/
theorem separated_defaultName {c : WChar} (h : separated sep (c :: defaultName) ≠ []) :
    separated sep (c :: defaultName) = defaultName := by
  refine (separated_eq_iff (by decide)).mpr ⟨?_, plain_of_all (by decide)⟩
  by_contra hno
  rw [not_or] at hno
  rw [separated, if_neg hno.1, if_neg hno.2] at h
  exact h rfl

theorem expected_eq_iff (sep : WChar → Bool) {scan : Scan} {c : WChar} {v : WStr} (hv : v ≠ []) :
    (switchValue sep scan (switch ++ c :: v)).getD defaultName = v ↔
      v = defaultName ∨
        (scan.start = true ∧ (blank c = true ∨ sep c = true) ∧ Plain v) := by
  rw [switchValue_switch, ← here_eq_iff hv]
  -- a later switch starts behind `c`
  have hbehind : switchValue sep ⟨false, scan.quoted⟩ (c :: v) =
      switchValue sep (Scan.next ⟨false, scan.quoted⟩ c) v := rfl
  rw [hbehind]
  cases hhere : (if scan.start then value sep (c :: v) else none) with
  | some w =>
    rw [Option.some_or, Option.getD_some, Option.some.injEq]
    refine ⟨Or.inr, fun h => h.elim (fun hdef => ?_) id⟩
    rw [Option.ite_none_right_eq_some, value_eq_some] at hhere
    obtain ⟨_, hne, rfl⟩ := hhere
    rw [hdef] at hne ⊢
    exact separated_defaultName hne
  | none =>
    rw [Option.none_or, or_iff_left (by exact fun h => by cases h)]
    cases hlater : switchValue sep (Scan.next ⟨false, scan.quoted⟩ c) v with
    | none => exact eq_comm
    | some w =>
      rw [Option.getD_some]
      refine iff_of_false (fun h => ?_) (fun hdef => ?_)
      · exact Nat.lt_irrefl _ (h ▸ switchValue_length hlater)
      · rw [hdef, switchValue_of_none (by decide)] at hlater
        cases hlater

/-- **The command line** gives the right name exactly in these cases. -/
theorem fromCommandLine_iff (sep : WChar → Bool) {commandLine : WStr} (h0 : 0 ∉ commandLine) (beyond : List WChar) :
    (fromCommandLine commandLine beyond).Right commandLine (expectedFrom sep commandLine) ↔
      SelectsFrom sep commandLine := by
  unfold fromCommandLine SelectsFrom expectedFrom
  cases hstr : tcsstr switch commandLine with
  | none =>
    rw [switchValue_of_none hstr]
    exact iff_of_true ⟨rfl, fun p hp => by cases hp⟩ trivial
  | some x =>
    obtain ⟨before, rest⟩ := x
    have hcmd := tcsstr_eq hstr
    have hlen : commandLine.length = before.length + 7 + rest.length := by
      rw [hcmd, List.length_append, List.length_append]
      rfl
    rw [switchValue_of_some hstr]
    dsimp only
    cases rest with
    | nil =>
      refine iff_of_false (fun h => ?_) id
      have hinside := h.inside _ rfl
      rw [hlen, List.length_nil] at hinside
      omega
    | cons c v =>
      have hread := cstring_behind (hcmd ▸ h0) beyond
      rw [← hcmd] at hread
      rw [hread, Option.map_some]
      cases v with
      | nil =>
        rw [switchValue_separator]
        refine iff_of_true ⟨rfl, fun p hp => ?_⟩ trivial
        obtain rfl := Option.some.inj hp
        rw [hlen]
        exact Nat.le_refl _
      | cons d ds =>
        rw [if_neg (List.cons_ne_nil d ds)]
        refine Iff.trans ⟨fun h => ?_, fun h => ⟨?_, ?_⟩⟩
          (expected_eq_iff sep (List.cons_ne_nil d ds))
        · exact (Option.some.inj h.name).symm
        · exact congrArg some h.symm
        · intro p hp
          obtain rfl := Option.some.inj hp
          rw [hlen, List.length_cons]
          omega

/-! The constructor. -/

theorem cstring_streamID (env : NameEnv) :
    cstring (getEnvironmentVariable env
      (List.replicate (MAX_PATH / 2) 0 ++ env.stack.drop (MAX_PATH / 2))) =
    match env.streamID with
    | none => some []
    | some v => if v.length < MAX_PATH then some v else cstring env.left := by
  unfold getEnvironmentVariable
  cases hv : env.streamID with
  | none => rfl
  | some v =>
    dsimp only
    split
    · exact cstring_append (env.streamID_noZero v hv) _
    · rfl

theorem right_name {commandLine expected : WStr} {name : Option WStr} :
    Selection.Right commandLine expected ⟨name, none⟩ ↔ name = some expected :=
  ⟨Selection.Right.name, fun h => ⟨h, fun p hp => by cases hp⟩⟩

/-- **The name of the stream** is the right one exactly under `Selects`, whatever
    counts as a separator beside blanks. -/
theorem selected_iff (sep : WChar → Bool) (env : NameEnv) :
    (selectName env).Right env.commandLine (expectedName sep env) ↔ Selects sep env := by
  have hcmd := fromCommandLine_iff sep env.commandLine_noZero env.beyond
  have hbuffer := cstring_streamID env
  unfold selectName Selects
  dsimp only
  rw [hbuffer]
  unfold expectedName
  cases hv : env.streamID with
  | none => exact hcmd
  | some v =>
    dsimp only
    by_cases hfit : v.length < MAX_PATH
    · rw [if_pos hfit, if_pos hfit]
      cases v with
      | nil => simpa using hcmd
      | cons c cs =>
        rw [if_pos ⟨List.cons_ne_nil c cs, hfit⟩]
        exact iff_of_true (right_name.mpr rfl) (Or.inl (List.cons_ne_nil c cs))
    · rw [if_neg hfit, if_neg hfit, if_neg (fun h => hfit h.2)]
      cases hl : cstring env.left with
      | none => exact iff_of_false (fun h => by cases h.name) id
      | some n =>
        cases n with
        | nil => exact hcmd
        | cons c cs => exact right_name.trans Option.some_inj

end

/-- A process without the variable, with nothing but zeros behind its command line. -/
def startedWith (commandLine : WStr) (h : 0 ∉ commandLine) : NameEnv where
  streamID := none
  stack := []
  left := []
  commandLine := commandLine
  beyond := [0]
  streamID_noZero := fun _ hv => by cases hv
  commandLine_noZero := h

/-- The switch at the end of the command line: the pointer is past the terminator. -/
theorem stream_at_the_end :
    (selectName (startedWith (wide "app.exe /stream") (by decide))).pointer = some 16 ∧
      ¬ (selectName (startedWith (wide "app.exe /stream") (by decide))).Right
        (wide "app.exe /stream")
        (expectedName (fun _ => false) (startedWith (wide "app.exe /stream") (by decide))) := by
  have hpointer :
      (selectName (startedWith (wide "app.exe /stream") (by decide))).pointer = some 16 := by
    decide
  exact ⟨hpointer, fun h => absurd (h.inside 16 hpointer) (by decide)⟩

/-- The arguments behind the value are taken for a part of the name. -/
example : (selectName (startedWith (wide "app.exe /stream Cam /min") (by decide))).name =
    some (wide "Cam /min") := by
  decide

end SourceStreamName

end VirtualCaptureStream
