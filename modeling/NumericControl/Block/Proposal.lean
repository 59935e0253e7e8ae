import NumericControl.Block.Word
import NumericControl.Machine

/-!
# Proposals

The words of a block are gathered into a proposal before anything is asked of the
machine.  A proposal holds what the machine carries from block to block, as the
words leave it, and beside it every field that a word assigned.  It lasts for one
block.

## Main definitions

* `Changes` — the fields assigned by the words of a block.
* `Proposal` — a block as far as it has been read.
* `Proposal.apply` — the proposal after one more word.
* `Proposal.ofCommand` — the proposal of a whole command.
-/

namespace NumericControl

/-- The fields assigned by the words of a block. -/
structure Changes (α : Type) where
  /-- G0 to G4, G28, G30 and G92. -/
  nextAction : Option NextAction := none
  /-- G0 to G3 and G80. -/
  motionMode : Option MotionMode := none
  /-- X, Y and Z. -/
  target : PerAxis (Option α) := .replicate none
  /-- I, J and K. -/
  offset : PerAxis (Option α) := .replicate none
  /-- R. -/
  radius : Option α := none
  /-- F. -/
  feedRate : Option α := none
  /-- P. -/
  dwellTime : Option α := none
  /-- S. -/
  spindleSpeed : Option α := none
  /-- M3, M4 and M5. -/
  spindleMode : Option SpindleMode := none
  /-- T. -/
  tool : Option UInt32 := none
  /-- M6. -/
  changeTool : Option Bool := none
  /-- G17, G18 and G19. -/
  plane : Option Plane := none
  /-- G20 and G21. -/
  units : Option Units := none
  /-- G90 and G91. -/
  distanceMode : Option DistanceMode := none
  /-- G93 and G94. -/
  inverseFeedRate : Option Bool := none
  /-- G53. -/
  absoluteOverride : Option Bool := none
  /-- G92. -/
  originOffset : Option Bool := none
  /-- M0, M1, M2, M30 and M60. -/
  programFlow : Option ProgramFlow := none
  deriving DecidableEq, Repr

namespace Changes

variable {α : Type}

/-- How many fields are assigned; each axis counts by itself. -/
def count (c : Changes α) : Nat :=
  let fields := [c.nextAction.isSome, c.motionMode.isSome, c.radius.isSome, c.feedRate.isSome,
    c.dwellTime.isSome, c.spindleSpeed.isSome, c.spindleMode.isSome, c.tool.isSome,
    c.changeTool.isSome, c.plane.isSome, c.units.isSome, c.distanceMode.isSome,
    c.inverseFeedRate.isSome, c.absoluteOverride.isSome, c.originOffset.isSome,
    c.programFlow.isSome]
  (fields ++ (c.target.toList ++ c.offset.toList).map Option.isSome).count true

end Changes

/-- A block as far as it has been read. -/
structure Proposal (α : Type) where
  /-- The operation asked for, the carried one unless a word sets it. -/
  nextAction : NextAction
  /-- The motion mode, the carried one unless a word sets it. -/
  motionMode : MotionMode
  /-- Where each axis is to go, its position unless a word sets it. -/
  target : PerAxis α
  /-- The fields assigned by words. -/
  changes : Changes α
  deriving DecidableEq, Repr

namespace Proposal

variable {α : Type}

/-- The proposal without any word, from what the machine carries. -/
def ofMachine {σ : Type} [Machine σ α] (m : σ) : Proposal α where
  nextAction := Machine.nextAction m
  motionMode := Machine.motionMode m
  target := .ofFn (Machine.position m)
  changes := {}

/-! ### Assignments -/

/-- The proposal with an operation asked for. -/
def setNextAction (p : Proposal α) (action : NextAction) : Proposal α :=
  { p with nextAction := action, changes := { p.changes with nextAction := some action } }

/-- The proposal with a motion mode, and a motion asked for. -/
def setMotion (p : Proposal α) (mode : MotionMode) : Proposal α :=
  setNextAction
    { p with motionMode := mode, changes := { p.changes with motionMode := some mode } } .motion

/-- The proposal with its motion cancelled; what is asked for stays. -/
def cancelMotion (p : Proposal α) : Proposal α :=
  { p with motionMode := .cancel, changes := { p.changes with motionMode := some .cancel } }

/-- The proposal with a target for one axis. -/
def setTarget (p : Proposal α) (axis : Axis) (value : α) : Proposal α :=
  { p with
    target := p.target.set axis value
    changes := { p.changes with target := p.changes.target.set axis (some value) } }

/-- The proposal with a centre offset for one axis. -/
def setOffset (p : Proposal α) (axis : Axis) (value : α) : Proposal α :=
  { p with changes := { p.changes with offset := p.changes.offset.set axis (some value) } }

/-! ### Words -/

/-- The proposal after a G code, or `none` if the code has no meaning. -/
def applyG? (p : Proposal α) (code : Int) : Option (Proposal α) :=
  match code with
  | 0 => some (p.setMotion .straightTraverse)
  | 1 => some (p.setMotion .straightFeed)
  | 2 => some (p.setMotion .cwArc)
  | 3 => some (p.setMotion .ccwArc)
  | 4 => some (p.setNextAction .dwell)
  | 17 => some { p with changes := { p.changes with plane := some .xy } }
  | 18 => some { p with changes := { p.changes with plane := some .xz } }
  | 19 => some { p with changes := { p.changes with plane := some .yz } }
  | 20 => some { p with changes := { p.changes with units := some .inches } }
  | 21 => some { p with changes := { p.changes with units := some .millimeters } }
  | 28 | 30 => some (p.setNextAction .goHome)
  | 53 => some { p with changes := { p.changes with absoluteOverride := some true } }
  | 80 => some p.cancelMotion
  | 90 => some { p with changes := { p.changes with distanceMode := some .absolute } }
  | 91 => some { p with changes := { p.changes with distanceMode := some .incremental } }
  | 92 =>
    some (setNextAction
      { p with changes := { p.changes with originOffset := some true } } .offsetCoordinates)
  | 93 => some { p with changes := { p.changes with inverseFeedRate := some true } }
  | 94 => some { p with changes := { p.changes with inverseFeedRate := some false } }
  -- cutter compensation off, tool length offset off, exact path
  | 40 | 49 | 61 => some p
  | _ => none

/-- The proposal after an M code, or `none` if the code has no meaning. -/
def applyM? (p : Proposal α) (code : Int) : Option (Proposal α) :=
  match code with
  | 0 | 1 => some { p with changes := { p.changes with programFlow := some .stop } }
  | 2 | 30 | 60 => some { p with changes := { p.changes with programFlow := some .finish } }
  | 3 => some { p with changes := { p.changes with spindleMode := some .cw } }
  | 4 => some { p with changes := { p.changes with spindleMode := some .ccw } }
  | 5 => some { p with changes := { p.changes with spindleMode := some .off } }
  | 6 => some { p with changes := { p.changes with changeTool := some true } }
  -- coolant, overrides
  | 7 | 8 | 9 | 48 | 49 => some p
  | _ => none

/-- The proposal after a tool number, or `none` if no tool can have the number. -/
def applyT? (p : Proposal α) (tool : Int) : Option (Proposal α) :=
  if 0 ≤ tool ∧ tool < 0x100000000 then
    some { p with changes := { p.changes with tool := some (UInt32.ofNat tool.toNat) } }
  else none

variable [Number α]

/-- The code that a number stands for: its integral part, or the nearest integer of 32
bits if the integral part has more. -/
def codeOf (value : α) : Int :=
  max (-0x80000000) (min (Number.toInt value) 0x7FFFFFFF)

/-- The proposal after one more word, or `none` if the word has no meaning.  Codes
and tool numbers are rounded toward zero, so that G92.1 acts as G92. -/
def applied? (p : Proposal α) (w : Word α) : Option (Proposal α) :=
  match w.letter with
  | 'G' => p.applyG? (codeOf w.value)
  | 'M' => p.applyM? (codeOf w.value)
  | 'T' => p.applyT? (Number.toInt w.value)
  | 'F' => some { p with changes := { p.changes with feedRate := some w.value } }
  | 'P' => some { p with changes := { p.changes with dwellTime := some w.value } }
  | 'S' => some { p with changes := { p.changes with spindleSpeed := some w.value } }
  | 'X' => some (p.setTarget .x w.value)
  | 'Y' => some (p.setTarget .y w.value)
  | 'Z' => some (p.setTarget .z w.value)
  | 'I' => some (p.setOffset .x w.value)
  | 'J' => some (p.setOffset .y w.value)
  | 'K' => some (p.setOffset .z w.value)
  | 'R' => some { p with changes := { p.changes with radius := some w.value } }
  | 'N' => some p
  | _ => none

/-- The proposal after one more word.  A word without a meaning is a fault. -/
def apply (p : Proposal α) (w : Word α) : Except (BlockFault α) (Proposal α) :=
  match p.applied? w with
  | some p => .ok p
  | none => .error (.unsupportedWord w.letter w.value)

/-- The proposal after all words that a reader still has to read.  The first fault,
of the text or of a word, ends the reading. -/
def applyAll (p : Proposal α) (r : WordReader) : Except (BlockFault α) (Proposal α) :=
  match _h : WordReader.next (α := α) r with
  | (.done, _) => .ok p
  | (.fault f, _) => .error f
  | (.word w, r') =>
    match p.apply w with
    | .error f => .error f
    | .ok p => applyAll p r'
  termination_by r.rest.length
  decreasing_by
    have hlt := WordReader.length_rest_lt_of_word (r := r) (w := w) (by rw [_h])
    rwa [_h] at hlt

/-- The proposal of a command, from what a machine carries. -/
def ofCommand {σ : Type} [Machine σ α] (command : List Char) (m : σ) :
    Except (BlockFault α) (Proposal α) :=
  applyAll (ofMachine m) (.ofText command)

end Proposal

end NumericControl
