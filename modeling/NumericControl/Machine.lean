import NumericControl.Fault

/-!
# Machines

The interpreter drives a machine through a small set of calls.  It reads what the
machine carries from block to block, and changes the machine through the calls
alone, each of which the machine may refuse.  Values are handed over in the units
and the coordinates of the block; to convert them is the business of the machine.

## Main definitions

* `Call` — what can be asked of a machine.
* `Machine` — what makes a type of states a machine.
* `Machine.run` — performs calls in order, up to the first that is refused.
* `Dispatch` — steps on a machine, of which a refused call is the last.
-/

namespace NumericControl

/-- What can be asked of a machine. -/
inductive Call (α : Type)
  /-- G93 and G94: whether feed rates are inverse times. -/
  | inverseFeedRate (enabled : Bool)
  /-- The F word. -/
  | feedRate (rate : α)
  /-- The S word. -/
  | spindleSpeed (speed : α)
  /-- The T word. -/
  | selectTool (tool : UInt32)
  /-- M6: the selected tool goes into the spindle. -/
  | changeTool
  /-- M3, M4 and M5. -/
  | spindle (mode : SpindleMode)
  /-- G4. -/
  | dwell (seconds : α)
  /-- G17, G18 and G19. -/
  | plane (plane : Plane)
  /-- G20 and G21. -/
  | units (units : Units)
  /-- G90 and G91. -/
  | distanceMode (mode : DistanceMode)
  /-- G28 and G30. -/
  | home
  /-- G92: the current point is to read back as the given one. -/
  | originOffsets (point : PerAxis α)
  /-- G0. -/
  | traverse (target : PerAxis α)
  /-- G1. -/
  | feed (target : PerAxis α)
  /-- G2 and G3.  A radius other than zero goes before the offset of the centre. -/
  | arc (target offset : PerAxis α) (radius : α) (mode : MotionMode)
  deriving DecidableEq, Repr

/-- What makes a type of states a machine that computes with the numbers `α`. -/
class Machine (σ : Type) (α : outParam Type) where
  /-- The kind of operation carried into the next block. -/
  nextAction : σ → NextAction
  /-- The current motion mode. -/
  motionMode : σ → MotionMode
  /-- Where an axis is, in the active units and coordinates. -/
  position : σ → Axis → α
  /-- The machine at the beginning of a block. -/
  beginBlock : σ → σ
  /-- The machine after a call, and the fault if the call is refused. -/
  perform : σ → Call α → σ × Option (MachineFault α)

namespace Machine

variable {σ α : Type} [Machine σ α]

/-- The machine after a list of calls, performed in order up to the first that is
refused, and the fault of that one. -/
def run (m : σ) : List (Call α) → σ × Option (MachineFault α)
  | [] => (m, none)
  | call :: calls =>
    match perform m call with
    | (m, none) => run m calls
    | (m, some fault) => (m, some fault)

end Machine

/-! ### Steps on a machine -/

/-- Steps on a machine.  A refused call is the last of them, and what was done
before it stays. -/
abbrev Dispatch (σ α : Type) := ExceptT (MachineFault α) (StateM σ)

namespace Dispatch

variable {σ α β : Type} [Machine σ α]

/-- Asks the machine for a call. -/
def call (c : Call α) : Dispatch σ α Unit := ExceptT.mk fun m =>
  match Machine.perform m c with
  | (m, none) => (.ok (), m)
  | (m, some fault) => (.error fault, m)

/-- Asks the machine for a call on a condition. -/
def callWhen (condition : Prop) [Decidable condition] (c : Call α) : Dispatch σ α Unit :=
  if condition then call c else pure ()

/-- Asks the machine for the call that hands over a value, if there is a value. -/
def callWith (make : β → Call α) : Option β → Dispatch σ α Unit
  | some b => call (make b)
  | none => pure ()

/-- The machine after the steps, and the fault of the call that was refused. -/
def runOn (d : Dispatch σ α Unit) (m : σ) : σ × Option (MachineFault α) :=
  match StateT.run (ExceptT.run d) m with
  | (.ok (), m) => (m, none)
  | (.error fault, m) => (m, some fault)

end Dispatch

end NumericControl
