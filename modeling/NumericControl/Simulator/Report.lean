import NumericControl.Simulator.Journal
import NumericControl.Text.Json

/-!
# Reports of state and journal

## Main definitions

* `State.toJson` — a state as a document, its fields in the order of the state.
* `Entry.toJson` — a journal entry as a document, the kind of call first.
-/

namespace NumericControl

namespace Json

/-- The name of a value of a modal group. -/
def named {α : Type} [Enumerated α] (a : α) : Json :=
  .plainText (Enumerated.name a)

/-- A number for each axis. -/
def point (v : PerAxis Binary64) : Json :=
  .list (v.toList.map .number)

end Json

/-- A state as a document. -/
def State.toJson (s : State Binary64) : Json :=
  .object [
    ("next_action", .named s.nextAction),
    ("motion_mode", .named s.motionMode),
    ("position", .point s.position),
    ("origin_offset", .point s.originOffset),
    ("units", .named s.units),
    ("distance_mode", .named s.distanceMode),
    ("plane", .named s.plane),
    ("inverse_feed_rate_mode", .bool s.inverseFeedRate),
    ("feed_rate", .number s.feedRate),
    ("spindle_speed", .number s.spindleSpeed),
    ("spindle_mode", .named s.spindleMode),
    ("selected_tool", .nat s.selectedTool.toNat),
    ("active_tool", .nat s.activeTool.toNat),
    ("dwell_seconds", .number s.dwellSeconds),
    ("motion_count", .nat s.motionCount.toNat)]

/-- A journal entry as a document. -/
def Entry.toJson (entry : Entry Binary64) : Json :=
  let call (name : String) (fields : List (String × Json)) : Json :=
    .object (("call", .plainText name) :: fields)
  match entry with
  | .inverseFeedRate enabled => call "inverse_feed_rate_mode" [("enabled", .bool enabled)]
  | .feedRate value => call "feed_rate" [("value", .number value)]
  | .spindleSpeed value => call "spindle_speed" [("value", .number value)]
  | .selectTool tool => call "select_tool" [("tool", .nat tool.toNat)]
  | .changeTool tool => call "change_tool" [("tool", .nat tool.toNat)]
  | .spindle mode => call "spindle" [("mode", .named mode)]
  | .dwell seconds => call "dwell" [("seconds", .number seconds)]
  | .selectPlane plane => call "select_plane" [("plane", .named plane)]
  | .lengthUnits units => call "length_units" [("units", .named units)]
  | .distanceMode mode => call "distance_mode" [("mode", .named mode)]
  | .returnToHome => call "return_to_home" []
  | .originOffsets offset => call "origin_offsets" [("offset", .point offset)]
  | .motion mode target => call "motion" [("mode", .named mode), ("to", .point target)]

end NumericControl
