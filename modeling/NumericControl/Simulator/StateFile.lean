import NumericControl.Binary64.Basic
import NumericControl.Simulator.State

/-!
# The state file

The state of a machine is stored in a file of fixed layout: each field in its own
number of bytes, the least significant byte first, and nothing between the fields.
A number is stored as its word, a value of a modal group as its place in the group.
Bytes behind the record are ignored.

## Main definitions

* `StateRecord` — a state with the version of its layout and the time it was saved.
* `StateRecord.encode`, `StateRecord.decode?` — the bytes of a record, and back.
* `StateRecord.currentVersion` — the version that is written.
-/

namespace NumericControl

/-! ### Fields -/

/-- The least significant bytes of a natural number, the least significant first. -/
def littleEndian : Nat → Nat → List UInt8
  | 0, _ => []
  | width + 1, n => UInt8.ofNat n :: littleEndian width (n / 256)

/-- The natural number that a run of bytes writes, the least significant first. -/
def ofLittleEndian : List UInt8 → Nat
  | [] => 0
  | b :: bytes => b.toNat + 256 * ofLittleEndian bytes

/-- Reads fields one after another off a run of bytes. -/
abbrev FieldReader := StateT (List UInt8) Option

namespace FieldReader

/-- A natural number of a given width. -/
def nat (width : Nat) : FieldReader Nat := fun bytes =>
  if bytes.length < width then none
  else some (ofLittleEndian (bytes.take width), bytes.drop width)

/-- A value of a modal group; an unknown place is refused. -/
def enumerated (α : Type) [Enumerated α] : FieldReader α := do
  match Enumerated.ofIndex? (← nat 4) with
  | some a => return a
  | none => failure

/-- A truth value in one byte, zero or one. -/
def bool : FieldReader Bool := do
  match ← nat 1 with
  | 0 => return false
  | 1 => return true
  | _ => failure

/-- A number. -/
def number : FieldReader Binary64 := do
  return ⟨UInt64.ofNat (← nat 8)⟩

/-- A number for each axis. -/
def point : FieldReader (PerAxis Binary64) := do
  return ⟨← number, ← number, ← number⟩

end FieldReader

/-- The bytes of a value of a modal group. -/
def encodeEnumerated {α : Type} [Enumerated α] (a : α) : List UInt8 :=
  littleEndian 4 (Enumerated.index a)

/-- The bytes of a truth value. -/
def encodeBool (b : Bool) : List UInt8 :=
  [if b then 1 else 0]

/-- The bytes of a number. -/
def encodeNumber (x : Binary64) : List UInt8 :=
  littleEndian 8 x.bits.toNat

/-- The bytes of a number for each axis. -/
def encodePoint (v : PerAxis Binary64) : List UInt8 :=
  v.toList.flatMap encodeNumber

/-! ### Records -/

/-- A state as it is stored. -/
structure StateRecord where
  /-- The version of the layout. -/
  version : UInt32
  state : State Binary64
  /-- When the state was saved, in seconds. -/
  savedAt : UInt64
  deriving DecidableEq, Repr

namespace StateRecord

/-- The version of the layout that is written. -/
def currentVersion : UInt32 := 1

/-- The record of a state saved at a given time. -/
def ofState (state : State Binary64) (savedAt : UInt64) : StateRecord :=
  ⟨currentVersion, state, savedAt⟩

/-- The bytes of a record. -/
def encode (r : StateRecord) : List UInt8 :=
  let s := r.state
  littleEndian 4 r.version.toNat
    ++ encodeEnumerated s.nextAction
    ++ encodeEnumerated s.motionMode
    ++ encodePoint s.position
    ++ encodePoint s.originOffset
    ++ encodeEnumerated s.units
    ++ encodeEnumerated s.distanceMode
    ++ encodeEnumerated s.plane
    ++ encodeBool s.inverseFeedRate
    ++ encodeNumber s.feedRate
    ++ encodeNumber s.spindleSpeed
    ++ encodeEnumerated s.spindleMode
    ++ littleEndian 4 s.selectedTool.toNat
    ++ littleEndian 4 s.activeTool.toNat
    ++ encodeNumber s.dwellSeconds
    ++ littleEndian 8 s.motionCount.toNat
    ++ littleEndian 8 r.savedAt.toNat

/-- Reads a record. -/
def reader : FieldReader StateRecord := do
  let version ← FieldReader.nat 4
  let nextAction ← FieldReader.enumerated NextAction
  let motionMode ← FieldReader.enumerated MotionMode
  let position ← FieldReader.point
  let originOffset ← FieldReader.point
  let units ← FieldReader.enumerated Units
  let distanceMode ← FieldReader.enumerated DistanceMode
  let plane ← FieldReader.enumerated Plane
  let inverseFeedRate ← FieldReader.bool
  let feedRate ← FieldReader.number
  let spindleSpeed ← FieldReader.number
  let spindleMode ← FieldReader.enumerated SpindleMode
  let selectedTool ← FieldReader.nat 4
  let activeTool ← FieldReader.nat 4
  let dwellSeconds ← FieldReader.number
  let motionCount ← FieldReader.nat 8
  let savedAt ← FieldReader.nat 8
  return {
    version := .ofNat version
    state := {
      nextAction, motionMode, position, originOffset, units, distanceMode, plane
      inverseFeedRate, feedRate, spindleSpeed, spindleMode
      selectedTool := .ofNat selectedTool
      activeTool := .ofNat activeTool
      dwellSeconds
      motionCount := .ofNat motionCount }
    savedAt := .ofNat savedAt }

/-- The record at the head of a run of bytes, or `none` if there are too few bytes
or a field has no value. -/
def decode? (bytes : List UInt8) : Option StateRecord :=
  (reader.run bytes).map Prod.fst

end StateRecord

end NumericControl
