import NumericControl.Modal
import NumericControl.Number

/-!
# The state of the simulated machine

Positions are kept in millimetres from machine zero, whatever units a program
uses; the origin offset of an axis is the machine coordinate of its work zero.

## Main definitions

* `Limits` — what the machine accepts.
* `State` — what the machine keeps from block to block and from run to run.
* `Units.scale` — millimetres in a unit of length.
-/

namespace NumericControl

/-- What the machine accepts. -/
structure Limits (α : Type) where
  /-- The highest feed rate, in millimetres a minute. -/
  maxFeedRate : α
  /-- The highest spindle speed, in turns a minute. -/
  maxSpindleSpeed : α
  /-- The number of the last tool. -/
  toolCount : UInt32
  deriving DecidableEq, Repr

/-- The limits of a machine that is not configured. -/
def Limits.standard {α : Type} [Number α] : Limits α where
  maxFeedRate := Number.ofDecimal (.ofNat 10000)
  maxSpindleSpeed := Number.ofDecimal (.ofNat 24000)
  toolCount := 24

/-- What the machine keeps from block to block and from run to run. -/
structure State (α : Type) where
  /-- The kind of operation carried into the next block. -/
  nextAction : NextAction
  /-- The motion mode of the last move. -/
  motionMode : MotionMode
  /-- Where the axes are, in millimetres from machine zero. -/
  position : PerAxis α
  /-- Where the work zero is, in millimetres from machine zero. -/
  originOffset : PerAxis α
  /-- The active unit of length. -/
  units : Units
  /-- The active distance mode. -/
  distanceMode : DistanceMode
  /-- The active plane. -/
  plane : Plane
  /-- Whether feed rates are inverse times. -/
  inverseFeedRate : Bool
  /-- The feed rate in millimetres a minute, or the inverse time in minutes. -/
  feedRate : α
  /-- The spindle speed in turns a minute. -/
  spindleSpeed : α
  /-- How the spindle turns. -/
  spindleMode : SpindleMode
  /-- The tool selected last. -/
  selectedTool : UInt32
  /-- The tool in the spindle. -/
  activeTool : UInt32
  /-- The time spent in dwells, in seconds. -/
  dwellSeconds : α
  /-- How many moves were made. -/
  motionCount : UInt64
  deriving DecidableEq, Repr

/-- A machine at machine zero that has done nothing. -/
def State.initial {α : Type} [Number α] : State α where
  nextAction := default
  motionMode := default
  position := .replicate Number.zero
  originOffset := .replicate Number.zero
  units := default
  distanceMode := default
  plane := default
  inverseFeedRate := false
  feedRate := Number.zero
  spindleSpeed := Number.zero
  spindleMode := default
  selectedTool := 0
  activeTool := 0
  dwellSeconds := Number.zero
  motionCount := 0

/-- Millimetres in a unit of length. -/
def Units.scale {α : Type} [Number α] : Units → α
  | .inches => Number.ofDecimal ⟨false, 254, -1⟩
  | .millimeters => Number.one

end NumericControl
