import NumericControl.Binary64.Arithmetic
import NumericControl.Proofs.Frame

/-!
# A switch of units within a line

The targets of a line are gathered before the machine switches its units, and an axis
that the line does not name is handed over as it read back before.  At the switch the
machine keeps what its axes read, and a target that equals such a reading is no target.

The readings kept are those that the block was made from, since nothing that goes before
the switch changes what an axis reads, and those of earlier lines are forgotten when the
block begins.  So an axis that is not named is recognized, as long as its reading equals
itself.

## Main definitions

* `Session.SwitchesUnits` — the last word for the units selects others than are active.

## Main results

* `Simulator.axisToMachine_switched` — what the machine makes of a target behind a switch.
* `Session.unnamed_axis_stays` — **a switch of units moves no axis that is not named**.
-/

namespace NumericControl

namespace Simulator

variable {α : Type} [Number α] {m m' : Simulator α} {p : Proposal α}

/-- **What a machine makes of a target behind a switch of units**: an axis whose target is
its reading before the switch stays where it is. -/
theorem axisToMachine_switched (hcarried : m.carried = none) {units : Units}
    (hunits : units ≠ m.state.units) (axis : Axis) (value : α) :
    (m.switched (some units)).axisToMachine axis value =
      if Number.eq (m.workPosition axis) value then m.state.position.get axis
      else value * units.scale + m.state.originOffset.get axis := by
  have hreadings : (m.accepted (.units units)).carried = some (.ofFn m.workPosition) := by
    change m.carriedBehind (.units units) = _
    rw [carriedBehind, hcarried, if_pos ⟨hunits, rfl⟩]
  rw [switched, axisToMachine, isCarried, hreadings]
  simp only [PerAxis.get_ofFn]
  rfl

/-- Behind a switch of units the operation of a block leaves an axis whose target is its
reading, unless it is a homing. -/
theorem position_run_operation (hcarried : m.carried = none) {units : Units}
    (hunits : units ≠ m.state.units) (hframe : (m.switched (some units)).SameFrame m')
    {axis : Axis} (htarget : p.target.get axis = m.workPosition axis)
    (hself : Number.eq (m.workPosition axis) (m.workPosition axis) = true)
    (hhome : .home ∉ p.operation) :
    (Machine.run m' p.operation).1.state.position.get axis = m.state.position.get axis := by
  have hstays : m'.state.position = m.state.position := hframe.position
  rcases p.operation_eq_nil_or with hnil | ⟨c, hc⟩
  · rw [hnil]
    exact congrArg (·.get axis) hstays
  · have hplan : c ∈ p.plan := List.mem_append_right _ (by simp [hc])
    rw [hc, Machine.run_singleton]
    cases hfault : (Machine.perform m' c).2 with
    | some fault => rw [fst_perform_of_refused hfault, hstays]
    | none =>
      rw [fst_perform_of_accepted hfault]
      cases hmotion : c.isMotion with
      | false =>
        have hne : c ≠ .home := by
          rintro rfl
          exact hhome (by simp [hc])
        rw [(m'.standsStill_accepted (Call.movesAxes_of_not_isMotion hmotion hne)).position, hstays]
      | true =>
        obtain ⟨target, hc'⟩ := Call.exists_target_of_isMotion hmotion
        rw [m'.position_accepted_of_isMotion hmotion hc', Proposal.target_of_mem_plan hplan hc',
          toMachine, PerAxis.get_ofFn, hframe.axisToMachine, axisToMachine_switched hcarried hunits,
          htarget, if_pos hself]

end Simulator

/-! ### Lines -/

namespace Session

section

variable {α : Type} [Number α] {s : Session (Simulator α)} {raw : List Char} {axis : Axis}

/-- The last word of a line for the units selects others than are active. -/
def SwitchesUnits (s : Session (Simulator α)) (raw : List Char) : Prop :=
  ∃ units, lastOf Word.units? (lineWords (α := α) raw) = some units ∧ units ≠ s.machine.state.units

/-- An axis that a block does not name is handed over as it reads. -/
theorem IsBlock.target_of_unnamed {p : Proposal α} (h : s.IsBlock raw p)
    (hunnamed : ∀ w ∈ lineWords (α := α) raw, w.letter ≠ axis.letter) :
    p.target.get axis = s.machine.workPosition axis := by
  rw [h.follows.target, lastOf_target_eq_none hunnamed]
  exact PerAxis.get_ofFn _ _

/-- A line that switches the units leaves an axis that it does not name, if the reading of
the axis equals itself. -/
theorem position_of_unnamed (hswitch : ∀ p, s.IsBlock raw p → s.SwitchesUnits raw)
    (hunnamed : ∀ w ∈ lineWords (α := α) raw, w.letter ≠ axis.letter)
    (hhome : .call .home ∉ s.requests raw)
    (hself : Number.eq (s.machine.workPosition axis) (s.machine.workPosition axis) = true) :
    (s.step raw).1.machine.state.position.get axis = s.machine.state.position.get axis := by
  by_cases hblock : ∃ p, s.IsBlock raw p
  · obtain ⟨p, hp⟩ := hblock
    obtain ⟨units, hlast, hunits⟩ := hswitch p hp
    rw [machine_of_isBlock hp, performed, Proposal.plan]
    cases hfault : (Machine.run (Machine.beginBlock s.machine) p.settings).2 with
    | some fault =>
      rw [Machine.run_append_of_fault (Prod.ext rfl hfault)]
      have hstays : (Machine.run (Machine.beginBlock s.machine) p.settings).1.state.position
          = s.machine.state.position :=
        (Simulator.standsStill_settings _ p).position
      exact congrArg (·.get axis) hstays
    | none =>
      have hset : Machine.run (Machine.beginBlock s.machine) p.settings = (_, none) :=
        Prod.ext rfl hfault
      have hframe := Simulator.sameFrame_of_settings hset
      rw [hp.units_eq, hlast] at hframe
      rw [Machine.run_append hset]
      -- the readings of earlier lines are forgotten when the block begins
      exact Simulator.position_run_operation (m := Machine.beginBlock s.machine) rfl hunits hframe
        (hp.target_of_unnamed hunnamed) hself
        fun hmem => hhome (mem_requests_of_operation hp hset hmem)
  · -- at most a block has begun, which leaves the state
    rcases (s.exit_requests raw).machine_of_not_isBlock (not_exists.mp hblock) with hm | hm
    · rw [hm]
    · rw [hm]
      rfl

end

/-- **A switch of units moves no axis that is not named.**

Whatever the machine has done before, also if it holds readings of a line that failed: a
line of which the last word for the units selects others than are active, and which does
not name the axis and asks for no homing, leaves the axis where it is, bit for bit,
whatever else the line holds and whether it fails or not.  The units are asked for only if
the line is a block, as no other line reaches the machine.  The axis must read as a number. -/
theorem unnamed_axis_stays {s : Session (Simulator Binary64)} {raw : List Char} {axis : Axis}
    (hswitch : ∀ p, s.IsBlock raw p → s.SwitchesUnits raw)
    (hunnamed : ∀ w ∈ lineWords (α := Binary64) raw, w.letter ≠ axis.letter)
    (hhome : .call .home ∉ s.requests raw)
    (hreads : (s.machine.workPosition axis).isNaN = false) :
    (s.step raw).1.machine.state.position.get axis = s.machine.state.position.get axis := by
  refine position_of_unnamed hswitch hunnamed hhome ?_
  change (s.machine.workPosition axis).eq (s.machine.workPosition axis) = true
  rw [Binary64.eq_self, hreads]
  rfl

/-- Behind a line that failed once it had switched the units, a line that switches them
back and names another axis leaves the first one. -/
theorem unnamed_axis_stays_behind_failure :
    let s := (ofMachine (Simulator.ofState .standard (.initial : State Binary64))).through
      ["G0 X10 Y3".toList, "G20 G1 X1".toList]
    s.machine.carried.isSome = true ∧ s.machine.state.units = .inches ∧
      (s.step "G21 G0 Y2".toList).1.machine.state.position.get .x
        = s.machine.state.position.get .x := by
  intro s
  have hcarried : s.machine.carried.isSome = true := by decide +kernel
  have hinches : s.machine.state.units = .inches := by decide +kernel
  have hlast : lastOf Word.units? (lineWords (α := Binary64) "G21 G0 Y2".toList)
      = some .millimeters := by decide +kernel
  refine ⟨hcarried, hinches, ?_⟩
  exact unnamed_axis_stays (fun _ _ => ⟨.millimeters, hlast, by rw [hinches]; decide⟩)
    (by decide +kernel) (by decide +kernel) (by decide +kernel)

end Session

end NumericControl
