import NumericControl.Simulator.State

/-!
# The journal

The simulated machine keeps a journal of the calls it accepted, each with the
values that it stored.  The journal is complete: replayed in order, its entries
turn the state before them into the state after them.

## Main definitions

* `Entry` — an accepted call.
* `Entry.replay` — what an entry does to a state.
-/

namespace NumericControl

/-- An accepted call with the values the machine stored. -/
inductive Entry (α : Type)
  /-- Whether feed rates are inverse times. -/
  | inverseFeedRate (enabled : Bool)
  /-- The feed rate, in the form the state keeps it. -/
  | feedRate (value : α)
  /-- The spindle speed. -/
  | spindleSpeed (value : α)
  /-- The tool selected. -/
  | selectTool (tool : UInt32)
  /-- The tool that is now in the spindle. -/
  | changeTool (tool : UInt32)
  /-- How the spindle turns. -/
  | spindle (mode : SpindleMode)
  /-- A pause. -/
  | dwell (seconds : α)
  /-- The active plane. -/
  | selectPlane (plane : Plane)
  /-- The active unit of length. -/
  | lengthUnits (units : Units)
  /-- The active distance mode. -/
  | distanceMode (mode : DistanceMode)
  /-- A return to machine zero. -/
  | returnToHome
  /-- The work zero, in millimetres. -/
  | originOffsets (offset : PerAxis α)
  /-- A move and its end, in millimetres from machine zero. -/
  | motion (mode : MotionMode) (target : PerAxis α)
  deriving DecidableEq, Repr

/-- What an entry does to a state.  It writes the fields it stands for. -/
def Entry.replay {α : Type} [Number α] (s : State α) : Entry α → State α
  | .inverseFeedRate enabled => { s with inverseFeedRate := enabled }
  | .feedRate value => { s with feedRate := value }
  | .spindleSpeed value => { s with spindleSpeed := value }
  | .selectTool tool => { s with selectedTool := tool }
  | .changeTool tool => { s with activeTool := tool }
  | .spindle mode => { s with spindleMode := mode }
  | .dwell seconds => { s with dwellSeconds := s.dwellSeconds + seconds }
  | .selectPlane plane => { s with plane := plane }
  | .lengthUnits units => { s with units := units }
  | .distanceMode mode => { s with distanceMode := mode }
  | .returnToHome => { s with position := .replicate Number.zero }
  | .originOffsets offset => { s with originOffset := offset }
  | .motion mode target =>
    { s with
      position := target
      nextAction := .motion
      motionMode := mode
      motionCount := s.motionCount + 1 }

end NumericControl
