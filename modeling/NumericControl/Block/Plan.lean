import NumericControl.Block.Proposal

/-!
# The plan of a block

A proposal becomes a list of calls.  Their order does not depend on the order of
the words: first the feed, the spindle and the tool, then a dwell, then the plane,
the units and the distance mode, and last the one operation the block asks for.

A block is executed step by step: each field is looked at when its turn comes, and
the first call that the machine refuses ends the block.  The plan is the list of the
calls that a machine is asked for if it refuses none.

## Main definitions

* `Proposal.plan` — the calls of a block in order.
* `Proposal.dispatch` — the steps of a block.
* `Proposal.execute` — takes them on a machine.
-/

namespace NumericControl

namespace Proposal

variable {α : Type} [Number α]

/-- The calls that settle the feed, the spindle and the tool. -/
def preparation (c : Changes α) : List (Call α) :=
  (c.inverseFeedRate.map .inverseFeedRate).toList
    ++ (c.feedRate.map .feedRate).toList
    ++ (c.spindleSpeed.map .spindleSpeed).toList
    ++ (c.tool.map .selectTool).toList
    ++ (if c.changeTool = some true then [.changeTool] else [])
    ++ (c.spindleMode.map .spindle).toList

/-- The dwell, if the block asks for one; without a P word it lasts no time. -/
def pause (p : Proposal α) : List (Call α) :=
  if p.nextAction = .dwell then [.dwell (p.changes.dwellTime.getD Number.zero)] else []

/-- The calls that settle the plane, the units and the distance mode. -/
def frame (c : Changes α) : List (Call α) :=
  (c.plane.map .plane).toList
    ++ (c.units.map .units).toList
    ++ (c.distanceMode.map .distanceMode).toList

/-- The move of a motion mode; a cancelled mode has none. -/
def move (p : Proposal α) : List (Call α) :=
  let arc := Call.arc p.target (p.changes.offset.map (·.getD Number.zero))
    (p.changes.radius.getD Number.zero)
  match p.motionMode with
  | .straightTraverse => [.traverse p.target]
  | .straightFeed => [.feed p.target]
  | .cwArc => [arc .cwArc]
  | .ccwArc => [arc .ccwArc]
  | .cancel => []

/-- The homing, the change of the origin or the move that the block asks for. -/
def operation (p : Proposal α) : List (Call α) :=
  match p.nextAction with
  | .goHome => [.home]
  | .offsetCoordinates => [.originOffsets p.target]
  | .motion => p.move
  | .none | .dwell => []

/-- The calls that go before the operation. -/
def settings (p : Proposal α) : List (Call α) :=
  preparation p.changes ++ p.pause ++ frame p.changes

/-- The calls of a block in order. -/
def plan (p : Proposal α) : List (Call α) :=
  p.settings ++ p.operation

/-! ### Execution -/

variable {σ : Type} [Machine σ α]

/-- The step of a motion; a cancelled mode has none. -/
def dispatchMotion (p : Proposal α) : Dispatch σ α Unit :=
  match p.motionMode with
  | .straightTraverse => .call (.traverse p.target)
  | .straightFeed => .call (.feed p.target)
  | .cwArc | .ccwArc =>
    .call (.arc p.target (p.changes.offset.map (·.getD Number.zero))
      (p.changes.radius.getD Number.zero) p.motionMode)
  | .cancel => pure ()

/-- The steps of a block, each of which looks at its own field. -/
def dispatch (p : Proposal α) : Dispatch σ α Unit := do
  .callWith .inverseFeedRate p.changes.inverseFeedRate
  .callWith .feedRate p.changes.feedRate
  .callWith .spindleSpeed p.changes.spindleSpeed
  .callWith .selectTool p.changes.tool
  .callWhen (p.changes.changeTool = some true) .changeTool
  .callWith .spindle p.changes.spindleMode
  .callWhen (p.nextAction = .dwell) (.dwell (p.changes.dwellTime.getD Number.zero))
  .callWith .plane p.changes.plane
  .callWith .units p.changes.units
  .callWith .distanceMode p.changes.distanceMode
  .callWhen (p.nextAction = .goHome) .home
  .callWhen (p.nextAction = .offsetCoordinates) (.originOffsets p.target)
  if p.nextAction = .motion then p.dispatchMotion else pure ()

/-- The machine after the steps of a block, up to the first call that is refused, and
the fault of that one. -/
def execute (p : Proposal α) (m : σ) : σ × Option (MachineFault α) :=
  p.dispatch.runOn m

end Proposal

end NumericControl
