import NumericControl.Enumerated

/-!
# Modal groups

A word such as `G18` or `M3` chooses one value of a modal group, and the choice
stays until a later word of the same group replaces it.  This module lists the
groups, the linear axes, and triples indexed by the axes.

## Main definitions

* `Axis`, `PerAxis` — the three linear axes and one value for each of them.
* `MotionMode`, `NextAction`, `Plane`, `Units`, `DistanceMode`, `SpindleMode`,
  `ProgramFlow` — the modal groups.
-/

namespace NumericControl

/-! ### Axes -/

/-- A linear axis. -/
inductive Axis
  | x
  | y
  | z
  deriving DecidableEq, Repr

instance : Enumerated Axis where
  all := [.x, .y, .z]
  name
    | .x => "x"
    | .y => "y"
    | .z => "z"
  mem_all a := by cases a <;> decide
  name_inj a b := by cases a <;> cases b <;> decide

/-- One value for each linear axis. -/
structure PerAxis (α : Type) where
  x : α
  y : α
  z : α
  deriving DecidableEq, Repr

namespace PerAxis

variable {α β γ : Type}

/-- The value of an axis. -/
def get (v : PerAxis α) : Axis → α
  | .x => v.x
  | .y => v.y
  | .z => v.z

/-- The triple whose value on each axis is given by a function. -/
def ofFn (f : Axis → α) : PerAxis α :=
  ⟨f .x, f .y, f .z⟩

/-- The triple with one axis replaced. -/
def set (v : PerAxis α) (axis : Axis) (a : α) : PerAxis α :=
  match axis with
  | .x => { v with x := a }
  | .y => { v with y := a }
  | .z => { v with z := a }

/-- The same value on every axis. -/
def replicate (a : α) : PerAxis α :=
  ⟨a, a, a⟩

/-- A function applied on every axis. -/
def map (f : α → β) (v : PerAxis α) : PerAxis β :=
  ⟨f v.x, f v.y, f v.z⟩

/-- A function of two triples applied axis by axis. -/
def zipWith (f : α → β → γ) (v : PerAxis α) (w : PerAxis β) : PerAxis γ :=
  ⟨f v.x w.x, f v.y w.y, f v.z w.z⟩

/-- The values in the order of the axes. -/
def toList (v : PerAxis α) : List α :=
  [v.x, v.y, v.z]

@[simp] theorem get_ofFn (f : Axis → α) (axis : Axis) : (ofFn f).get axis = f axis := by
  cases axis <;> rfl

@[simp] theorem get_replicate (a : α) (axis : Axis) : (replicate a).get axis = a := by
  cases axis <;> rfl

@[simp] theorem get_map (f : α → β) (v : PerAxis α) (axis : Axis) :
    (v.map f).get axis = f (v.get axis) := by
  cases axis <;> rfl

@[simp] theorem get_zipWith (f : α → β → γ) (v : PerAxis α) (w : PerAxis β) (axis : Axis) :
    (zipWith f v w).get axis = f (v.get axis) (w.get axis) := by
  cases axis <;> rfl

theorem get_set (v : PerAxis α) (axis other : Axis) (a : α) :
    (v.set axis a).get other = if other = axis then a else v.get other := by
  cases axis <;> cases other <;> rfl

/-- Two triples that agree on every axis are equal. -/
theorem ext_get {v w : PerAxis α} (h : ∀ axis, v.get axis = w.get axis) : v = w := by
  cases v
  cases w
  have hx := h .x
  have hy := h .y
  have hz := h .z
  simp only [get] at hx hy hz
  simp [hx, hy, hz]

end PerAxis

/-! ### Motion -/

/-- How the tool moves to its target (G0 to G3), or that motion is cancelled (G80). -/
inductive MotionMode
  /-- G0, a move at rapid rate. -/
  | straightTraverse
  /-- G1, a straight move at feed rate. -/
  | straightFeed
  /-- G2, a clockwise arc. -/
  | cwArc
  /-- G3, a counterclockwise arc. -/
  | ccwArc
  /-- G80, no motion. -/
  | cancel
  deriving DecidableEq, Repr

instance : Inhabited MotionMode := ⟨.straightTraverse⟩

instance : Enumerated MotionMode where
  all := [.straightTraverse, .straightFeed, .cwArc, .ccwArc, .cancel]
  name
    | .straightTraverse => "straight_traverse"
    | .straightFeed => "straight_feed"
    | .cwArc => "cw_arc"
    | .ccwArc => "ccw_arc"
    | .cancel => "cancel"
  mem_all a := by cases a <;> decide
  name_inj a b := by cases a <;> cases b <;> decide

/-- Whether the mode moves on an arc. -/
def MotionMode.isArc : MotionMode → Bool
  | .cwArc | .ccwArc => true
  | _ => false

/-- The kind of operation a block asks for.  It is carried from block to block,
so a block with axis words alone repeats the motion before it. -/
inductive NextAction
  /-- No operation yet. -/
  | none
  /-- A move in the current motion mode. -/
  | motion
  /-- G4, a pause. -/
  | dwell
  /-- G28 and G30, a return to machine zero. -/
  | goHome
  /-- G92, a relabelling of the current point. -/
  | offsetCoordinates
  deriving DecidableEq, Repr

instance : Inhabited NextAction := ⟨.none⟩

instance : Enumerated NextAction where
  all := [.none, .motion, .dwell, .goHome, .offsetCoordinates]
  name
    | .none => "none"
    | .motion => "motion"
    | .dwell => "dwell"
    | .goHome => "go_home"
    | .offsetCoordinates => "offset_coordinates"
  mem_all a := by cases a <;> decide
  name_inj a b := by cases a <;> cases b <;> decide

/-! ### Settings -/

/-- The plane in which arcs lie (G17, G18, G19). -/
inductive Plane
  | xy
  | xz
  | yz
  deriving DecidableEq, Repr

instance : Inhabited Plane := ⟨.xy⟩

instance : Enumerated Plane where
  all := [.xy, .xz, .yz]
  name
    | .xy => "xy"
    | .xz => "xz"
    | .yz => "yz"
  mem_all a := by cases a <;> decide
  name_inj a b := by cases a <;> cases b <;> decide

/-- The unit of length of the words of a block (G20, G21). -/
inductive Units
  | inches
  | millimeters
  deriving DecidableEq, Repr

instance : Inhabited Units := ⟨.millimeters⟩

instance : Enumerated Units where
  all := [.inches, .millimeters]
  name
    | .inches => "inches"
    | .millimeters => "millimeters"
  mem_all a := by cases a <;> decide
  name_inj a b := by cases a <;> cases b <;> decide

/-- Whether distances are absolute or incremental (G90, G91). -/
inductive DistanceMode
  | absolute
  | incremental
  deriving DecidableEq, Repr

instance : Inhabited DistanceMode := ⟨.absolute⟩

instance : Enumerated DistanceMode where
  all := [.absolute, .incremental]
  name
    | .absolute => "absolute"
    | .incremental => "incremental"
  mem_all a := by cases a <;> decide
  name_inj a b := by cases a <;> cases b <;> decide

/-- The turning of the spindle (M3, M4, M5). -/
inductive SpindleMode
  | cw
  | ccw
  | off
  deriving DecidableEq, Repr

instance : Inhabited SpindleMode := ⟨.off⟩

instance : Enumerated SpindleMode where
  all := [.cw, .ccw, .off]
  name
    | .cw => "cw"
    | .ccw => "ccw"
    | .off => "off"
  mem_all a := by cases a <;> decide
  name_inj a b := by cases a <;> cases b <;> decide

/-- What a block asks of the program as a whole: a stop (M0, M1) or its end
(M2, M30, M60). -/
inductive ProgramFlow
  | stop
  | finish
  deriving DecidableEq, Repr

instance : Enumerated ProgramFlow where
  all := [.stop, .finish]
  name
    | .stop => "stop"
    | .finish => "end"
  mem_all a := by cases a <;> decide
  name_inj a b := by cases a <;> cases b <;> decide

end NumericControl
