import NumericControl.Proofs.ExactNumber
import NumericControl.Proofs.UnitsSwitch

/-!
# Named axes in a line that switches the units

An axis that a line names is read in the units that the line selects.  The machine is
handed targets alone, though, and not which of them a word has given; it tells a target
that was carried over from one that was given by its value.  So a value that equals what
the axis read before the switch, in the units of before, leaves the axis where it is.
Zero is the same point in all units, and is no exception.

The machine is read on exact numbers here, so that what is said of a value is not said
of its rounding.

## Main results

* `Simulator.axisToMachine_named` — what a machine makes of a value behind a switch.
* `Session.named_axis_in_new_units` — **where a named axis goes, and what it reads behind a
  change of the origin**.
* `Session.named_axis_always_in_new_units_false` — an axis that is named and stays.
-/

namespace NumericControl

variable {F : Type} [ExactNumber F]

namespace Simulator

/-- **What a machine makes of a value behind a switch of units**: the point with that value in
the new units, unless the value is what the axis read before. -/
theorem axisToMachine_named {m : Simulator F} (hcarried : m.carried = none) {units : Units}
    (hunits : units ≠ m.state.units) (axis : Axis) (value : F) :
    (value ≠ m.workPosition axis ∨ value = 0 →
      (m.switched (some units)).axisToMachine axis value =
        value * units.scale + m.state.originOffset.get axis) ∧
    (value = m.workPosition axis →
      (m.switched (some units)).axisToMachine axis value = m.state.position.get axis) := by
  rw [axisToMachine_switched hcarried hunits]
  by_cases hreads : m.workPosition axis = value
  · rw [if_pos ((Number.eq_iff _ _).mpr hreads)]
    refine ⟨?_, fun _ => rfl⟩
    rintro (hne | rfl)
    · exact absurd hreads.symm hne
    · -- an axis that reads zero is at its work zero, in all units
      rw [(m.workPosition_eq_iff axis 0).mp hreads, zero_mul, zero_mul]
  · rw [if_neg (mt (Number.eq_iff _ _).mp hreads)]
    exact ⟨fun _ => rfl, fun heq => absurd heq.symm hreads⟩

end Simulator

namespace Session

/-- **A named axis is read in the new units**, unless its value is what the axis read before.

Say that a line does not fail, and that its last word for the units selects others than are
active.  If it asks for a move, an axis with a last word of some value ends where that
value is in the new units; if it asks for a change of the origin, the axis then reads the
value.  A value that is not zero and equals what the axis read before the line is no
target: the move leaves the axis where it is, and the change of the origin leaves its work
zero. -/
theorem named_axis_in_new_units (s : Session (Simulator F)) {raw : List Char} {units : Units}
    {axis : Axis} {value : F} {completion : Completion}
    (hunits : lastOf Word.units? (lineWords (α := F) raw) = some units)
    (hswitch : units ≠ s.machine.state.units)
    (hnamed : lastOf (Word.target? axis) (lineWords (α := F) raw) = some value)
    (hok : (s.step raw).2.result = .ok completion) :
    (∀ c, .call c ∈ s.requests raw → c.isMotion = true →
      (value ≠ s.machine.workPosition axis ∨ value = 0 →
        (s.step raw).1.machine.state.position.get axis =
          value * units.scale + s.machine.state.originOffset.get axis) ∧
      (value = s.machine.workPosition axis →
        (s.step raw).1.machine.state.position.get axis = s.machine.state.position.get axis)) ∧
    (∀ point, .call (.originOffsets point) ∈ s.requests raw →
      (s.step raw).1.machine.state.units = units ∧
      (value ≠ s.machine.workPosition axis ∨ value = 0 →
        (s.step raw).1.machine.workPosition axis = value) ∧
      (value = s.machine.workPosition axis →
        (s.step raw).1.machine.state.originOffset.get axis =
          s.machine.state.originOffset.get axis)) := by
  obtain ⟨hgiven, hcarried⟩ := Simulator.axisToMachine_named
    (m := Machine.beginBlock s.machine) rfl hswitch axis value
  constructor
  · intro c hc hmotion
    rw [position_of_move hok hc hmotion, hunits, hnamed]
    exact ⟨hgiven, hcarried⟩
  · intro point hc
    obtain ⟨hposition, hnew, hzero⟩ := state_of_originOffsets hok hc axis
    rw [hunits] at hnew
    rw [hunits, hnamed, Option.getD_some] at hzero
    have hscale : (s.step raw).1.machine.scale = units.scale := congrArg Units.scale hnew
    refine ⟨hnew, fun hvalue => ?_, fun hvalue => ?_⟩
    · rw [Simulator.workPosition_eq_iff, hposition, hscale, hzero, hgiven hvalue]
      change _ = value * units.scale
        + (_ - (value * units.scale + s.machine.state.originOffset.get axis - _))
      ring
    · rw [hzero, hcarried hvalue]
      exact sub_sub_cancel _ _

/-- The session of a new machine at ten millimetres, on exact numbers. -/
def atTen : Session (Simulator ℚ) :=
  (ofMachine (.ofState .standard .initial)).through ["G0 X10".toList]

/-- Behind a move to ten millimetres, one inch is one inch for a move and for a change of the
origin. -/
theorem named_axis_in_new_units_at_ten :
    (atTen.step "G20 X1".toList).1.machine.state.position.get .x =
      1 * Units.inches.scale + atTen.machine.state.originOffset.get .x ∧
    (atTen.step "G20 G92 X1".toList).1.machine.workPosition .x = 1 := by
  have hmetric : Units.inches ≠ atTen.machine.state.units := by decide +kernel
  have hgiven : (1 : ℚ) ≠ atTen.machine.workPosition .x := by decide +kernel
  have hmove : Request.call (.traverse ⟨1, 0, 0⟩) ∈ atTen.requests "G20 X1".toList := by
    decide +kernel
  have hchange : Request.call (.originOffsets ⟨1, 0, 0⟩) ∈ atTen.requests "G20 G92 X1".toList := by
    decide +kernel
  have hmoveUnits : lastOf Word.units? (lineWords (α := ℚ) "G20 X1".toList) = some .inches := by
    decide +kernel
  have hmoveValue : lastOf (Word.target? .x) (lineWords (α := ℚ) "G20 X1".toList) = some 1 := by
    decide +kernel
  have hmoveOk : (atTen.step "G20 X1".toList).2.result = .ok .ok :=
    eq_ok_of_toOption (by decide +kernel)
  have hchangeUnits : lastOf Word.units? (lineWords (α := ℚ) "G20 G92 X1".toList)
      = some .inches := by decide +kernel
  have hchangeValue : lastOf (Word.target? .x) (lineWords (α := ℚ) "G20 G92 X1".toList)
      = some 1 := by decide +kernel
  have hchangeOk : (atTen.step "G20 G92 X1".toList).2.result = .ok .ok :=
    eq_ok_of_toOption (by decide +kernel)
  have hmoved := named_axis_in_new_units atTen hmoveUnits hmetric hmoveValue hmoveOk
  have hchanged := named_axis_in_new_units atTen hchangeUnits hmetric hchangeValue hchangeOk
  exact ⟨(hmoved.1 _ hmove rfl).1 (.inl hgiven), (hchanged.2 _ hchange).2.1 (.inl hgiven)⟩

/-- At ten millimetres a move to ten inches is no move: the value is what the axis read. -/
theorem named_axis_always_in_new_units_false :
    ¬ ∀ (s : Session (Simulator ℚ)) (raw : List Char) (units : Units) (axis : Axis) (value : ℚ),
      lastOf Word.units? (lineWords (α := ℚ) raw) = some units →
      units ≠ s.machine.state.units →
      lastOf (Word.target? axis) (lineWords (α := ℚ) raw) = some value →
      (s.step raw).2.result = .ok .ok →
      (∀ c, .call c ∈ s.requests raw → c.isMotion = true →
        (s.step raw).1.machine.state.position.get axis =
          value * units.scale + s.machine.state.originOffset.get axis) ∧
      (∀ point, .call (.originOffsets point) ∈ s.requests raw →
        (s.step raw).1.machine.workPosition axis = value) := by
  intro h
  have hmove : Request.call (.traverse ⟨10, 0, 0⟩) ∈ atTen.requests "G20 X10".toList := by
    decide +kernel
  have hmoved := (h atTen "G20 X10".toList .inches .x 10 (by decide +kernel) (by decide +kernel)
    (by decide +kernel) (eq_ok_of_toOption (by decide +kernel))).1 _ hmove rfl
  have hstayed : (atTen.step "G20 X10".toList).1.machine.state.position.get .x ≠
      10 * Units.inches.scale + atTen.machine.state.originOffset.get .x := by
    decide +kernel
  exact absurd hmoved hstayed

end Session

end NumericControl
