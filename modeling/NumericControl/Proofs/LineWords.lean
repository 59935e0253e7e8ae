import NumericControl.Proofs.Line

/-!
# What the words of a line say

A word with a meaning assigns values to some fields of its block, and to which fields it
does, and which values, depends on the word alone.  So what a word does is told once, by
its assignments, and a word without a meaning is known whatever stands before it.

Of the words of a line that choose the operation, the motion mode, the units of length, or
the target of an axis the last one counts, wherever it stands, and without such a word the
choice of the machine stays.  A block is made of all of its words, so what it asks for can
be read off the line.

## Main definitions

* `Word.gCode?`, `Word.mCode?`, `Word.value?` — the parts of a word that assign something.
* `Word.nextAction?`, `Word.motionMode?`, `Word.units?`, `Word.target?` — what a word says.
* `Word.isSupported`, `Word.changes` — whether a word has a meaning, and what it assigns.
* `Proposal.assign` — the proposal after some assignments.
* `lastOf` — what the last word says that says anything.
* `lineWords` — the words of a line.
* `Proposal.Follows` — a proposal becomes another one through some words.

## Main results

* `Proposal.applied?_eq` — **what a word does**.
* `Session.IsBlock.follows` — **the last word of each group counts**.
-/

namespace NumericControl

/-! ### Words -/

/-- The letter of the words that give the target of an axis. -/
def Axis.letter : Axis → Char
  | .x => 'X'
  | .y => 'Y'
  | .z => 'Z'

/-- The letter of the words that give the centre of an arc along an axis. -/
def Axis.offsetLetter : Axis → Char
  | .x => 'I'
  | .y => 'J'
  | .z => 'K'

/-- The G codes with a meaning. -/
def gCodes : List Int :=
  [0, 1, 2, 3, 4, 17, 18, 19, 20, 21, 28, 30, 40, 49, 53, 61, 80, 90, 91, 92, 93, 94]

/-- The M codes with a meaning. -/
def mCodes : List Int :=
  [0, 1, 2, 3, 4, 5, 6, 7, 8, 9, 30, 48, 49, 60]

/-- The operation that a G code asks for. -/
def NextAction.ofCode? : Int → Option NextAction
  | 0 | 1 | 2 | 3 => some .motion
  | 4 => some .dwell
  | 28 | 30 => some .goHome
  | 92 => some .offsetCoordinates
  | _ => Option.none

/-- The motion mode that a G code sets. -/
def MotionMode.ofCode? : Int → Option MotionMode
  | 0 => some .straightTraverse
  | 1 => some .straightFeed
  | 2 => some .cwArc
  | 3 => some .ccwArc
  | 80 => some .cancel
  | _ => none

/-- The units that a G code selects. -/
def Units.ofCode? : Int → Option Units
  | 20 => some .inches
  | 21 => some .millimeters
  | _ => none

/-- The plane that a G code selects. -/
def Plane.ofCode? : Int → Option Plane
  | 17 => some .xy
  | 18 => some .xz
  | 19 => some .yz
  | _ => none

/-- The distance mode that a G code sets. -/
def DistanceMode.ofCode? : Int → Option DistanceMode
  | 90 => some .absolute
  | 91 => some .incremental
  | _ => none

/-- Whether feed rates are inverse times behind a G code. -/
def inverseFeedRateOfCode? : Int → Option Bool
  | 93 => some true
  | 94 => some false
  | _ => none

/-- How an M code turns the spindle. -/
def SpindleMode.ofCode? : Int → Option SpindleMode
  | 3 => some .cw
  | 4 => some .ccw
  | 5 => some .off
  | _ => none

/-- What an M code asks of the program. -/
def ProgramFlow.ofCode? : Int → Option ProgramFlow
  | 0 | 1 => some .stop
  | 2 | 30 | 60 => some .finish
  | _ => none

/-- The flag that is raised by one code and by no other. -/
def flagOfCode? (flag code : Int) : Option Bool :=
  if code = flag then some true else none

namespace Word

variable {α : Type} [Number α]

/-- The G code of a word. -/
def gCode? (w : Word α) : Option Int :=
  if w.letter = 'G' then some (Number.toInt w.value) else none

/-- The operation that a word asks for. -/
def nextAction? (w : Word α) : Option NextAction :=
  w.gCode?.bind NextAction.ofCode?

/-- The motion mode that a word sets. -/
def motionMode? (w : Word α) : Option MotionMode :=
  w.gCode?.bind MotionMode.ofCode?

/-- The units that a word selects. -/
def units? (w : Word α) : Option Units :=
  w.gCode?.bind Units.ofCode?

omit [Number α] in
/-- The target that a word gives for an axis. -/
def target? (axis : Axis) (w : Word α) : Option α :=
  if w.letter = axis.letter then some w.value else none

/-- The M code of a word. -/
def mCode? (w : Word α) : Option Int :=
  if w.letter = 'M' then some (Number.toInt w.value) else none

omit [Number α] in
/-- The value of a word of a letter. -/
def value? (letter : Char) (w : Word α) : Option α :=
  if w.letter = letter then some w.value else none

/-- Whether a word has a meaning. -/
def isSupported (w : Word α) : Bool :=
  match w.letter with
  | 'G' => gCodes.contains (Number.toInt w.value)
  | 'M' => mCodes.contains (Number.toInt w.value)
  | 'T' => decide (0 ≤ Number.toInt w.value ∧ Number.toInt w.value < 0x100000000)
  | 'F' | 'P' | 'S' | 'X' | 'Y' | 'Z' | 'I' | 'J' | 'K' | 'R' | 'N' => true
  | _ => false

/-- What a word assigns.  A G0 to G3 and a G92 assign two fields, a word that is ignored
none, and any other word one. -/
def changes (w : Word α) : Changes α where
  nextAction := w.nextAction?
  motionMode := w.motionMode?
  target := .ofFn fun axis => w.target? axis
  offset := .ofFn fun axis => w.value? axis.offsetLetter
  radius := w.value? 'R'
  feedRate := w.value? 'F'
  dwellTime := w.value? 'P'
  spindleSpeed := w.value? 'S'
  spindleMode := w.mCode?.bind SpindleMode.ofCode?
  tool := (w.value? 'T').map fun value => UInt32.ofNat (Number.toInt value).toNat
  changeTool := w.mCode?.bind (flagOfCode? 6)
  plane := w.gCode?.bind Plane.ofCode?
  units := w.units?
  distanceMode := w.gCode?.bind DistanceMode.ofCode?
  inverseFeedRate := w.gCode?.bind inverseFeedRateOfCode?
  absoluteOverride := w.gCode?.bind (flagOfCode? 53)
  originOffset := w.gCode?.bind (flagOfCode? 92)
  programFlow := w.mCode?.bind ProgramFlow.ofCode?

theorem gCode?_eq_map (w : Word α) : w.gCode? = (w.value? 'G').map Number.toInt := by
  unfold gCode? value?
  split <;> rfl

theorem mCode?_eq_map (w : Word α) : w.mCode? = (w.value? 'M').map Number.toInt := by
  unfold mCode? value?
  split <;> rfl

/-- A G word assigns through its code. -/
theorem changes_g (value : α) :
    changes ⟨'G', value⟩ =
      { nextAction := NextAction.ofCode? (Number.toInt value)
        motionMode := MotionMode.ofCode? (Number.toInt value)
        plane := Plane.ofCode? (Number.toInt value)
        units := Units.ofCode? (Number.toInt value)
        distanceMode := DistanceMode.ofCode? (Number.toInt value)
        inverseFeedRate := inverseFeedRateOfCode? (Number.toInt value)
        absoluteOverride := flagOfCode? 53 (Number.toInt value)
        originOffset := flagOfCode? 92 (Number.toInt value) } :=
  rfl

/-- An M word assigns through its code. -/
theorem changes_m (value : α) :
    changes ⟨'M', value⟩ =
      { spindleMode := SpindleMode.ofCode? (Number.toInt value)
        changeTool := flagOfCode? 6 (Number.toInt value)
        programFlow := ProgramFlow.ofCode? (Number.toInt value) } :=
  rfl

end Word

/-- What the last word of a list says that says anything. -/
def lastOf {α β : Type} (say : Word α → Option β) (ws : List (Word α)) : Option β :=
  (ws.filterMap say).getLast?

section

variable {α β : Type} (say : Word α → Option β)

@[simp] theorem lastOf_singleton (w : Word α) : lastOf say [w] = say w := by
  cases h : say w <;> simp [lastOf, h]

theorem lastOf_append (ws ws' : List (Word α)) :
    lastOf say (ws ++ ws') = (lastOf say ws').or (lastOf say ws) := by
  rw [lastOf, List.filterMap_append, List.getLast?_append]
  rfl

/-- Words that say nothing leave no last one. -/
theorem lastOf_eq_none {ws : List (Word α)} (h : ∀ w ∈ ws, say w = none) :
    lastOf say ws = none := by
  rw [lastOf, List.filterMap_eq_nil_iff.mpr h]
  rfl

/-- An axis that no word names has no last word. -/
theorem lastOf_target_eq_none {axis : Axis} {ws : List (Word α)}
    (h : ∀ w ∈ ws, w.letter ≠ axis.letter) : lastOf (Word.target? axis) ws = none :=
  lastOf_eq_none _ fun w hw => if_neg (h w hw)

/-- The last word that says anything stands before words that say nothing. -/
theorem exists_append_of_lastOf {ws : List (Word α)} {b : β} (h : lastOf say ws = some b) :
    ∃ before w after, ws = before ++ w :: after ∧ say w = some b ∧
      ∀ w' ∈ after, say w' = none := by
  induction ws with
  | nil => exact absurd h (by simp [lastOf])
  | cons w ws ih =>
    cases hlast : lastOf say ws with
    | some b' =>
      rw [← List.singleton_append, lastOf_append, hlast, Option.some_or] at h
      obtain ⟨before, w', after, rfl, hw', hafter⟩ := ih (hlast.trans h)
      exact ⟨w :: before, w', after, rfl, hw', hafter⟩
    | none =>
      rw [← List.singleton_append, lastOf_append, hlast, Option.none_or, lastOf_singleton] at h
      have hnone : ws.filterMap say = [] := List.getLast?_eq_none_iff.mp hlast
      exact ⟨[], w, ws, rfl, h, List.filterMap_eq_nil_iff.mp hnone⟩

/-- The last word that says anything is one of the words. -/
theorem exists_of_lastOf {ws : List (Word α)} {b : β} (h : lastOf say ws = some b) :
    ∃ w ∈ ws, say w = some b :=
  List.mem_filterMap.mp (List.mem_of_getLast? h)

end

/-! ### Words and proposals -/

/-- The fields that are assigned over others: where there is no assignment the other stays. -/
def Changes.over {α : Type} (c base : Changes α) : Changes α where
  nextAction := c.nextAction.or base.nextAction
  motionMode := c.motionMode.or base.motionMode
  target := .zipWith Option.or c.target base.target
  offset := .zipWith Option.or c.offset base.offset
  radius := c.radius.or base.radius
  feedRate := c.feedRate.or base.feedRate
  dwellTime := c.dwellTime.or base.dwellTime
  spindleSpeed := c.spindleSpeed.or base.spindleSpeed
  spindleMode := c.spindleMode.or base.spindleMode
  tool := c.tool.or base.tool
  changeTool := c.changeTool.or base.changeTool
  plane := c.plane.or base.plane
  units := c.units.or base.units
  distanceMode := c.distanceMode.or base.distanceMode
  inverseFeedRate := c.inverseFeedRate.or base.inverseFeedRate
  absoluteOverride := c.absoluteOverride.or base.absoluteOverride
  originOffset := c.originOffset.or base.originOffset
  programFlow := c.programFlow.or base.programFlow

namespace Proposal

variable {α : Type} {p q r : Proposal α}

/-- The proposal after some assignments. -/
def assign (p : Proposal α) (c : Changes α) : Proposal α where
  nextAction := c.nextAction.getD p.nextAction
  motionMode := c.motionMode.getD p.motionMode
  target := .zipWith Option.getD c.target p.target
  changes := c.over p.changes

/-- No G code is below zero or above ninety-four. -/
theorem applyG?_eq_none {code : Int} (h : code < 0 ∨ 94 < code) (p : Proposal α) :
    p.applyG? code = none := by
  unfold applyG?
  split
  case h_23 => rfl
  all_goals omega

/-- No M code is below zero or above ninety-four. -/
theorem applyM?_eq_none {code : Int} (h : code < 0 ∨ 94 < code) (p : Proposal α) :
    p.applyM? code = none := by
  unfold applyM?
  split
  case h_15 => rfl
  all_goals omega

variable [Number α]

/-- A number within 32 bits stands for its integral part.  Beyond them neither the bound nor the
integral part is a code with a meaning. -/
theorem codeOf_eq_or (value : α) :
    codeOf value = Number.toInt value ∨
      (codeOf value < 0 ∨ 94 < codeOf value) ∧
        (Number.toInt value < 0 ∨ 94 < Number.toInt value) := by
  unfold codeOf
  omega

/-- **The bound of 32 bits makes no difference to a G code.** -/
theorem applyG?_codeOf (p : Proposal α) (value : α) :
    p.applyG? (codeOf value) = p.applyG? (Number.toInt value) := by
  rcases codeOf_eq_or value with hsame | ⟨hcode, hint⟩
  · rw [hsame]
  · rw [applyG?_eq_none hcode, applyG?_eq_none hint]

/-- **The bound of 32 bits makes no difference to an M code.** -/
theorem applyM?_codeOf (p : Proposal α) (value : α) :
    p.applyM? (codeOf value) = p.applyM? (Number.toInt value) := by
  rcases codeOf_eq_or value with hsame | ⟨hcode, hint⟩
  · rw [hsame]
  · rw [applyM?_eq_none hcode, applyM?_eq_none hint]

theorem applyG?_eq (p : Proposal α) (value : α) :
    p.applyG? (Number.toInt value) =
      if gCodes.contains (Number.toInt value) then some (p.assign (Word.changes ⟨'G', value⟩))
      else none := by
  rw [Word.changes_g]
  generalize Number.toInt value = code
  unfold applyG?
  split
  case h_23 =>
    have hno : gCodes.contains code = false := by
      simp only [gCodes, List.contains_cons, List.contains_nil, Bool.or_false, Bool.or_eq_false_iff,
        beq_eq_false_iff_ne]
      and_intros <;> assumption
    rw [hno]
    rfl
  all_goals rfl

theorem applyM?_eq (p : Proposal α) (value : α) :
    p.applyM? (Number.toInt value) =
      if mCodes.contains (Number.toInt value) then some (p.assign (Word.changes ⟨'M', value⟩))
      else none := by
  rw [Word.changes_m]
  generalize Number.toInt value = code
  unfold applyM?
  split
  case h_15 =>
    have hno : mCodes.contains code = false := by
      simp only [mCodes, List.contains_cons, List.contains_nil, Bool.or_false, Bool.or_eq_false_iff,
        beq_eq_false_iff_ne]
      and_intros <;> assumption
    rw [hno]
    rfl
  all_goals rfl

theorem applyT?_eq (p : Proposal α) (value : α) :
    p.applyT? (Number.toInt value) =
      if decide (0 ≤ Number.toInt value ∧ Number.toInt value < 0x100000000) then
        some (p.assign (Word.changes ⟨'T', value⟩))
      else none := by
  unfold applyT?
  by_cases htool : 0 ≤ Number.toInt value ∧ Number.toInt value < 0x100000000
  · rw [if_pos htool, if_pos (decide_eq_true htool)]
    rfl
  · rw [if_neg htool, if_neg (by simpa using htool)]

/-- **What a word does**: a word with a meaning makes its assignments, and another word has no
meaning for any proposal. -/
theorem applied?_eq (p : Proposal α) (w : Word α) :
    p.applied? w = if w.isSupported then some (p.assign w.changes) else none := by
  obtain ⟨letter, value⟩ := w
  unfold applied? Word.isSupported
  dsimp only
  split
  case h_1 => exact (p.applyG?_codeOf value).trans (applyG?_eq p value)
  case h_2 => exact (p.applyM?_codeOf value).trans (applyM?_eq p value)
  case h_3 => exact applyT?_eq p value
  -- what is no letter of a word
  case h_15 => rw [if_neg (by simp [*])]
  all_goals rfl

/-- A word that is applied has a meaning. -/
theorem eq_assign_of_apply {w : Word α} (h : p.apply w = .ok q) :
    w.isSupported = true ∧ q = p.assign w.changes := by
  rw [apply, applied?_eq] at h
  cases hw : w.isSupported with
  | false =>
    rw [hw] at h
    exact absurd h (by simp)
  | true =>
    rw [hw] at h
    exact ⟨rfl, (Except.ok.inj h).symm⟩

/-- Words that are applied are applied one behind another. -/
theorem exists_apply_of_foldlM {w : Word α} {ws : List (Word α)}
    (h : (w :: ws).foldlM apply p = .ok q) :
    ∃ p', p.apply w = .ok p' ∧ ws.foldlM apply p' = .ok q := by
  rw [List.foldlM_cons] at h
  cases hw : p.apply w with
  | error fault =>
    rw [hw] at h
    exact absurd h (by simp [bind, Except.bind])
  | ok p' =>
    rw [hw] at h
    exact ⟨p', rfl, h⟩

/-- What every word keeps is kept by all words together. -/
theorem keeps_foldlM {P : Proposal α → Prop} {ws : List (Word α)}
    (hP : ∀ w ∈ ws, ∀ p, P p → P (p.assign w.changes)) (hp : P p)
    (h : ws.foldlM apply p = .ok q) : P q := by
  induction ws generalizing p with
  | nil =>
    obtain rfl : p = q := Except.ok.inj h
    exact hp
  | cons w ws ih =>
    obtain ⟨hw, hws⟩ := List.forall_mem_cons.mp hP
    obtain ⟨p', happly, h⟩ := exists_apply_of_foldlM h
    obtain ⟨-, rfl⟩ := eq_assign_of_apply happly
    exact ih hws (hw p hp) h

/-- A proposal becomes another one through some words: the last of them that says
anything of the operation, the motion mode, the target of an axis or the units counts. -/
structure Follows (p : Proposal α) (ws : List (Word α)) (q : Proposal α) : Prop where
  nextAction : q.nextAction = (lastOf Word.nextAction? ws).getD p.nextAction
  motionMode : q.motionMode = (lastOf Word.motionMode? ws).getD p.motionMode
  target : ∀ axis, q.target.get axis = (lastOf (Word.target? axis) ws).getD (p.target.get axis)
  units : q.changes.units = (lastOf Word.units? ws).or p.changes.units

theorem Follows.nil (p : Proposal α) : Follows p [] p :=
  ⟨rfl, rfl, fun _ => rfl, rfl⟩

theorem Follows.append {ws ws' : List (Word α)} (h : Follows p ws q) (h' : Follows q ws' r) :
    Follows p (ws ++ ws') r where
  nextAction := by rw [h'.nextAction, h.nextAction, lastOf_append, Option.getD_or]
  motionMode := by rw [h'.motionMode, h.motionMode, lastOf_append, Option.getD_or]
  target axis := by rw [h'.target, h.target, lastOf_append, Option.getD_or]
  units := by rw [h'.units, h.units, lastOf_append, Option.or_assoc]

/-- What a word does to the fields that decide where the machine goes. -/
theorem follows_of_apply {w : Word α} (h : p.apply w = .ok q) : Follows p [w] q := by
  obtain ⟨-, rfl⟩ := eq_assign_of_apply h
  refine ⟨?_, ?_, fun axis => ?_, ?_⟩
  · rw [lastOf_singleton]
    rfl
  · rw [lastOf_singleton]
    rfl
  · rw [lastOf_singleton, assign, PerAxis.get_zipWith, Word.changes, PerAxis.get_ofFn]
  · rw [lastOf_singleton]
    rfl

/-- Of the words of a list the last one of each group counts. -/
theorem follows_of_foldlM {ws : List (Word α)} (h : ws.foldlM apply p = .ok q) :
    Follows p ws q := by
  induction ws generalizing p with
  | nil =>
    obtain rfl : p = q := Except.ok.inj h
    exact .nil p
  | cons w ws ih =>
    obtain ⟨p', hw, h⟩ := exists_apply_of_foldlM h
    exact (follows_of_apply hw).append (ih h)

end Proposal

/-! ### Lines -/

variable {α : Type} [Number α]

namespace WordReader

/-- The words that a reader finds up to its end or to the first fault. -/
def found (r : WordReader) : List (Word α) :=
  (toEnd r).filterMap fun
    | (.word w, _) => some w
    | _ => none

theorem found_of_done {r r' : WordReader} (h : next (α := α) r = (.done, r')) :
    found (α := α) r = [] := by
  rw [found, toEnd_of_done h]
  rfl

theorem found_of_word {r r' : WordReader} {w : Word α} (h : r.next = (.word w, r')) :
    r.found = w :: r'.found := by
  rw [found, toEnd_of_word h]
  rfl

/-- The words of a text without a fault are all found. -/
theorem found_of_words {r : WordReader} {ws : List (Word α)} (h : r.words = .ok ws) :
    r.found = ws := by
  induction ws generalizing r with
  | nil =>
    obtain ⟨r', hnext⟩ := exists_next_of_nil h
    exact found_of_done hnext
  | cons w ws ih =>
    obtain ⟨r', hnext, hr⟩ := exists_next_of_cons h
    rw [found_of_word hnext, ih hr]

end WordReader

/-- The words of a raw line, those of its command up to the first fault of the text. -/
def lineWords (raw : List Char) : List (Word α) :=
  match normalize (α := α) raw with
  | .ok b => (WordReader.ofText b.command).found
  | .error _ => []

/-- **The last word of each group counts** in a line that is a block, and without one the
choice of the machine stays. -/
theorem Session.IsBlock.follows {σ : Type} [Machine σ α] {s : Session σ} {raw : List Char}
    {p : Proposal α} (h : s.IsBlock raw p) :
    Proposal.Follows (.ofMachine (Machine.beginBlock s.machine)) (lineWords raw) p := by
  obtain ⟨b, ws, hn, -, hws, hp⟩ := h
  have hline : lineWords raw = ws := by
    rw [lineWords, hn]
    exact WordReader.found_of_words hws
  rw [hline]
  exact Proposal.follows_of_foldlM hp

end NumericControl
