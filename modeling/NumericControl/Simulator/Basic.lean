import NumericControl.Machine
import NumericControl.Number
import NumericControl.Simulator.Journal

/-!
# The simulated machine

The simulated machine performs each call at once on its state.  It converts from
the units and the work coordinates of a block to millimetres from machine zero,
and refuses values beyond its limits.

A block names its targets before it switches the units, and an axis it does not
name is handed over as it read back before the switch.  So the machine keeps those
readings when the units change within a block, and an axis whose target equals its
reading stays where it is.

## Main definitions

* `Simulator` — the machine.
* `Simulator.workPosition` — where an axis is, in active units and work coordinates.
* `Simulator.toMachine` — the machine position of a target.
* `Simulator.checkArc` — what is wrong with an arc.
* `Simulator.perform` — the machine after a call.
-/

namespace NumericControl

/-- The simulated machine. -/
structure Simulator (α : Type) where
  limits : Limits α
  state : State α
  /-- The calls accepted, the oldest first. -/
  journal : Array (Entry α)
  /-- What the axes read before the units were switched in this block. -/
  carried : Option (PerAxis α)
  deriving DecidableEq, Repr

/-- The two coordinates that lie in a plane. -/
def PerAxis.inPlane {α : Type} (v : PerAxis α) : Plane → α × α
  | .xy => (v.x, v.y)
  | .xz => (v.x, v.z)
  | .yz => (v.y, v.z)

namespace Simulator

variable {α : Type}

/-- A machine in a given state, with nothing in its journal. -/
def ofState (limits : Limits α) (state : State α) : Simulator α :=
  ⟨limits, state, #[], none⟩

/-- The machine at the beginning of a block: readings of an earlier block are
forgotten. -/
def beginBlock (s : Simulator α) : Simulator α :=
  { s with carried := none }

/-- Accepts a call: the state becomes the given one, and the journal grows by an
entry. -/
def accept (s : Simulator α) (state : State α) (entry : Entry α) :
    Simulator α × Option (MachineFault α) :=
  ({ s with state := state, journal := s.journal.push entry }, none)

/-- Refuses a call: the machine stays as it is. -/
def refuse (s : Simulator α) (fault : MachineFault α) : Simulator α × Option (MachineFault α) :=
  (s, some fault)

variable [Number α]

/-! ### Coordinates -/

/-- Millimetres in the active unit of length. -/
def scale (s : Simulator α) : α :=
  s.state.units.scale

/-- Where an axis is, in active units and work coordinates. -/
def workPosition (s : Simulator α) (axis : Axis) : α :=
  (s.state.position.get axis - s.state.originOffset.get axis) / s.scale

/-- Whether a target is the reading of an axis before the units were switched in
this block, so that the axis stays where it is. -/
def isCarried (s : Simulator α) (axis : Axis) (value : α) : Bool :=
  match s.carried with
  | none => false
  | some work => Number.eq (work.get axis) value

/-- The machine position of an axis for a target in active units and work
coordinates. -/
def axisToMachine (s : Simulator α) (axis : Axis) (value : α) : α :=
  if s.isCarried axis value then s.state.position.get axis
  else value * s.scale + s.state.originOffset.get axis

/-- The machine position of a target in active units and work coordinates. -/
def toMachine (s : Simulator α) (work : PerAxis α) : PerAxis α :=
  .ofFn fun axis => s.axisToMachine axis (work.get axis)

/-- The work zero for which the current point reads back as the given one. -/
def originFor (s : Simulator α) (work : PerAxis α) : PerAxis α :=
  .ofFn fun axis =>
    s.state.position.get axis
      - (s.axisToMachine axis (work.get axis) - s.state.originOffset.get axis)

/-! ### Limits -/

/-- Whether a value is negative, infinite or undefined. -/
def isUnusable (value : α) : Bool :=
  !Number.isFinite value || Number.lt value Number.zero

/-- The feed rate as the state keeps it: an inverse time as it is, a speed in
millimetres a minute. -/
def storedFeedRate (s : Simulator α) (rate : α) : α :=
  if s.state.inverseFeedRate then rate else rate * s.scale

/-- Whether no move at feed rate is possible because no feed rate is set. -/
def lacksFeedRate (s : Simulator α) : Bool :=
  Number.le s.state.feedRate Number.zero

/-- How far two points of the active plane are apart, in millimetres. -/
def chord (s : Simulator α) (start «end» : PerAxis α) : α :=
  let (a, b) := start.inPlane s.state.plane
  let (a', b') := «end».inPlane s.state.plane
  Number.sqrt ((a' - a) * (a' - a) + (b' - b) * (b' - b))

/-- What is wrong with an arc from the current point to a machine position, if
anything.  Without a radius its centre has to be off the start in the active plane.
With a radius the two ends have to be apart, and no farther than the diameter; a
little more is allowed for ends exactly one diameter apart. -/
def checkArc (s : Simulator α) (target offset : PerAxis α) (radius : α) : Option (ArcFault α) :=
  if Number.eq radius Number.zero then
    let (a, b) := offset.inPlane s.state.plane
    if Number.eq a Number.zero && Number.eq b Number.zero then some .noCenter else none
  else
    let chord := s.chord s.state.position target
    if Number.eq chord Number.zero then some .sameEnds
    else
      let tolerance := Number.ofDecimal ⟨false, 1, -9⟩
      if Number.lt (Number.two * (Number.abs radius * s.scale) + tolerance) chord then
        some (.radiusTooSmall radius chord)
      else none

/-! ### Calls -/

/-- Moves the axes to a machine position. -/
def moveTo (s : Simulator α) (mode : MotionMode) (target : PerAxis α) :
    Simulator α × Option (MachineFault α) :=
  s.accept
    { s.state with
      position := target
      nextAction := .motion
      motionMode := mode
      motionCount := s.state.motionCount + 1 }
    (.motion mode target)

/-- Switches the units.  At the first switch of a block the readings are kept. -/
def useUnits (s : Simulator α) (units : Units) : Simulator α × Option (MachineFault α) :=
  let readings :=
    if units ≠ s.state.units ∧ s.carried.isNone then some (.ofFn s.workPosition) else s.carried
  accept { s with carried := readings } { s.state with units := units } (.lengthUnits units)

/-- The machine after a call, and the fault if the call is refused. -/
def perform (s : Simulator α) : Call α → Simulator α × Option (MachineFault α)
  | .inverseFeedRate enabled =>
    s.accept { s.state with inverseFeedRate := enabled } (.inverseFeedRate enabled)
  | .feedRate rate =>
    let value := s.storedFeedRate rate
    if isUnusable rate then s.refuse (.outOfRange "feed rate" rate)
    else if !s.state.inverseFeedRate && Number.lt s.limits.maxFeedRate value then
      s.refuse (.outOfRange "feed rate" rate)
    else s.accept { s.state with feedRate := value } (.feedRate value)
  | .spindleSpeed speed =>
    if isUnusable speed || Number.lt s.limits.maxSpindleSpeed speed then
      s.refuse (.outOfRange "spindle speed" speed)
    else s.accept { s.state with spindleSpeed := speed } (.spindleSpeed speed)
  | .selectTool tool =>
    if s.limits.toolCount < tool then s.refuse (.toolOutOfRange tool s.limits.toolCount)
    else s.accept { s.state with selectedTool := tool } (.selectTool tool)
  | .changeTool =>
    s.accept { s.state with activeTool := s.state.selectedTool }
      (.changeTool s.state.selectedTool)
  | .spindle mode => s.accept { s.state with spindleMode := mode } (.spindle mode)
  | .dwell seconds =>
    if isUnusable seconds then s.refuse (.outOfRange "dwell time" seconds)
    else
      s.accept { s.state with dwellSeconds := s.state.dwellSeconds + seconds } (.dwell seconds)
  | .plane plane => s.accept { s.state with plane := plane } (.selectPlane plane)
  | .units units => s.useUnits units
  | .distanceMode mode => s.accept { s.state with distanceMode := mode } (.distanceMode mode)
  | .home => s.accept { s.state with position := .replicate Number.zero } .returnToHome
  | .originOffsets point =>
    let offset := s.originFor point
    s.accept { s.state with originOffset := offset } (.originOffsets offset)
  | .traverse target => s.moveTo .straightTraverse (s.toMachine target)
  | .feed target =>
    if s.lacksFeedRate then s.refuse .feedRateNotSet
    else s.moveTo .straightFeed (s.toMachine target)
  | .arc target offset radius mode =>
    if !mode.isArc then s.refuse (.notAnArc mode)
    else if s.lacksFeedRate then s.refuse .feedRateNotSet
    else
      let target := s.toMachine target
      match s.checkArc target offset radius with
      | some fault => s.refuse (.invalidArc fault)
      | none => s.moveTo mode target

instance : Machine (Simulator α) α where
  nextAction s := s.state.nextAction
  motionMode s := s.state.motionMode
  position := workPosition
  beginBlock := beginBlock
  perform := perform

end Simulator

end NumericControl
