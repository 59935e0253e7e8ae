import NumericControl.Modal
import NumericControl.Binary64.Shortest

/-!
# Faults

A block fails for a cause: its text is not a block, one of its words means
nothing, or the machine refuses a call.  A cause is data; its status code and its
message are read off it.

## Main definitions

* `ArcFault`, `MachineFault`, `BlockFault` — the causes.
* `BlockFault.code` — the status code of a cause.
* `BlockFault.message` — its message.
-/

namespace NumericControl

/-! ### Causes -/

/-- Why the words of a block do not describe an arc. -/
inductive ArcFault (α : Type)
  /-- Neither a radius nor a centre in the plane of the arc is given. -/
  | noCenter
  /-- A radius is given, and the arc ends where it starts. -/
  | sameEnds
  /-- The ends are farther apart than twice the radius. -/
  | radiusTooSmall (radius chord : α)
  deriving DecidableEq, Repr

/-- Why a machine refuses a call. -/
inductive MachineFault (α : Type)
  /-- A value lies outside the range the machine accepts. -/
  | outOfRange (what : String) (value : α)
  /-- A move at feed rate without a feed rate. -/
  | feedRateNotSet
  /-- A tool beyond the last one. -/
  | toolOutOfRange (tool max : UInt32)
  /-- An arc that cannot be constructed. -/
  | invalidArc (fault : ArcFault α)
  /-- An arc in a mode that is no arc mode. -/
  | notAnArc (mode : MotionMode)
  deriving DecidableEq, Repr

/-- Why a block is given up. -/
inductive BlockFault (α : Type)
  /-- A word does not begin with a capital letter.  The position counts bytes. -/
  | expectedLetter (found : Char) (position : Nat)
  /-- No number follows a letter.  The position is that of the missing number. -/
  | badNumber (letter : Char) (position : Nat)
  /-- A word with no meaning. -/
  | unsupportedWord (letter : Char) (value : α)
  /-- The block has more characters than it may. -/
  | tooLong (capacity : Nat)
  /-- The machine refuses a call. -/
  | machine (fault : MachineFault α)
  deriving DecidableEq, Repr

/-! ### Status codes -/

/-- The status code of a refused call. -/
def MachineFault.code {α : Type} : MachineFault α → Nat
  | .outOfRange .. => 20
  | .feedRateNotSet => 21
  | .toolOutOfRange .. => 22
  | .invalidArc _ => 23
  | .notAnArc _ => 12

/-- The status code of a block that is given up. -/
def BlockFault.code {α : Type} : BlockFault α → Nat
  | .expectedLetter .. => 10
  | .badNumber .. => 11
  | .unsupportedWord .. => 12
  | .tooLong _ => 13
  | .machine f => f.code

/-! ### Messages -/

/-- The message of an arc that cannot be constructed. -/
def ArcFault.message : ArcFault Binary64 → String
  | .noCenter => "neither radius nor center offset given"
  | .sameEnds => "radius format arc with identical end points"
  | .radiusTooSmall radius chord =>
    "radius " ++ plainNumber.render radius ++ " too small for chord " ++ chord.fixed 4 ++ " mm"

/-- The message of a refused call. -/
def MachineFault.message : MachineFault Binary64 → String
  | .outOfRange what value => what ++ " out of range: " ++ plainNumber.render value
  | .feedRateNotSet => "Feed rate not set"
  | .toolOutOfRange tool max =>
    "Tool " ++ toString tool ++ " out of range (max " ++ toString max ++ ")"
  | .invalidArc f => "Invalid arc: " ++ f.message
  | .notAnArc mode => "Unsupported operation: arc feed in " ++ Enumerated.title mode ++ " mode"

/-- The message of a block that is given up. -/
def BlockFault.message : BlockFault Binary64 → String
  | .expectedLetter found position =>
    "Expected command letter, found '" ++ found.toString ++ "' at position " ++ toString position
  | .badNumber letter position =>
    "Bad number format after '" ++ letter.toString ++ "' at position " ++ toString position
  | .unsupportedWord letter value =>
    "Unsupported statement " ++ letter.toString ++ plainNumber.render value
  | .tooLong capacity => "Block exceeds " ++ toString capacity ++ " characters"
  | .machine f => f.message

end NumericControl
