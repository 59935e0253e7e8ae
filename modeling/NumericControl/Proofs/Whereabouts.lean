import NumericControl.Proofs.ExactNumber
import NumericControl.Proofs.UnitsSwitch

/-!
# Where a line leaves the machine

A line moves the axes by its operation alone, which is the last thing that it asks for.  So
a line that fails has not moved them, and neither has one without a homing or a move.  A
move takes each axis that is named to where the axis then reads the value of its last word,
and a change of the origin makes the axis read that value where it stands.  An axis that is
not named is handed over as it reads, and a move leaves it where it is, a change of the
origin leaves its work zero, also if the line switches the units.

The machine is read on exact numbers here: what an axis reads is a quotient, and apart from
rounding the way back from it leads to where the axis is.

## Main results

* `Simulator.axisToMachine_sameUnits`, `Simulator.axisToMachine_workPosition` — what the machine
  makes of a value in the units of before, and of a reading.
* `Session.standsStill_step` — a line that fails, or that asks for nothing that moves an axis.
* `Session.whereabouts_behind_line` — **where the machine is behind a line**.
* `Session.origin_change_relabels` — **a change of the origin relabels the current point and
  does nothing else**.
-/

namespace NumericControl

namespace Simulator

/-! ### Targets -/

section

variable {α : Type} [Number α] {m m' : Simulator α}

/-- Without a change of the units a target is read from the work zero in these units. -/
theorem axisToMachine_sameUnits (hcarried : m.carried = none) {units : Option Units}
    (hunits : (m.switched units).state.units = m.state.units) (axis : Axis) (value : α) :
    (m.switched units).axisToMachine axis value =
      value * m.scale + m.state.originOffset.get axis := by
  have hframe : m.SameFrame (m.switched units) := by
    cases units with
    | none => exact .refl m
    | some u =>
      have hsame : u = m.state.units := hunits
      refine ⟨rfl, rfl, hunits, ?_⟩
      change m.carriedBehind (.units u) = m.carried
      rw [carriedBehind, if_neg (by simp [hsame])]
  rw [hframe.axisToMachine, axisToMachine, isCarried, hcarried]
  rfl

/-- A move is counted once, and leaves the units and the work zero. -/
theorem state_accepted_of_isMotion (m : Simulator α) {c : Call α} (hc : c.isMotion = true) :
    (m.accepted c).state.units = m.state.units ∧
      (m.accepted c).state.originOffset = m.state.originOffset ∧
      (m.accepted c).state.motionCount = m.state.motionCount + 1 := by
  cases c with
  | traverse | feed | arc => exact ⟨rfl, rfl, rfl⟩
  | _ => exact absurd hc (by simp [Call.isMotion])

/-- A block that fails has moved nothing, since only its last call could have. -/
theorem standsStill_of_fault {p : Proposal α} {fault : MachineFault α}
    (h : (Machine.run m p.plan).2 = some fault) : m.StandsStill (Machine.run m p.plan).1 := by
  have hsettings := m.standsStill_settings p
  rw [Proposal.plan] at h ⊢
  cases hset : (Machine.run m p.settings).2 with
  | some fault' =>
    rw [Machine.run_append_of_fault (Prod.ext rfl hset)]
    exact hsettings
  | none =>
    rw [Machine.run_append (Prod.ext rfl hset)] at h ⊢
    rcases p.operation_eq_nil_or with hnil | ⟨c, hc⟩
    · rw [hnil]
      exact hsettings
    · rw [hc, Machine.run_singleton] at h ⊢
      rw [fst_perform_of_refused h]
      exact hsettings

end

variable {F : Type} [ExactNumber F]

/-- **What the machine makes of a reading**: the axis stays, whether the units are switched or
not. -/
theorem axisToMachine_workPosition {m : Simulator F} (hcarried : m.carried = none)
    (units : Option Units) (axis : Axis) :
    (m.switched units).axisToMachine axis (m.workPosition axis) = m.state.position.get axis := by
  by_cases hunits : (m.switched units).state.units = m.state.units
  · rw [axisToMachine_sameUnits hcarried hunits]
    exact ((m.workPosition_eq_iff axis _).mp rfl).symm
  · cases units with
    | none => exact absurd rfl hunits
    | some u =>
      -- the reading is one that the machine keeps
      have hswitch : u ≠ m.state.units := hunits
      rw [axisToMachine_switched hcarried hswitch, if_pos ((Number.eq_iff _ _).mpr rfl)]

end Simulator

namespace Session

/-! ### Lines that do not move the axes -/

section

variable {α : Type} [Number α] {s : Session (Simulator α)} {raw : List Char}

/-- **A line that fails has not moved the axes**, and neither has one without a homing or a
move. -/
theorem standsStill_step
    (h : (∃ fault, (s.step raw).2.result = .error fault) ∨
      ∀ c, .call c ∈ s.requests raw → c.movesAxes = false) :
    s.machine.StandsStill (s.step raw).1.machine := by
  have hbegun : s.machine.StandsStill (Machine.beginBlock s.machine) :=
    s.machine.standsStill_beginBlock
  by_cases hblock : ∃ p, s.IsBlock raw p
  · obtain ⟨p, hp⟩ := hblock
    rw [machine_of_isBlock hp, performed]
    refine hbegun.trans ?_
    rcases h with ⟨fault, hfault⟩ | hcalls
    · rw [result_of_isBlock hp, performed] at hfault
      cases hrun : (Machine.run (Machine.beginBlock s.machine) p.plan).2 with
      | some fault' => exact Simulator.standsStill_of_fault hrun
      | none =>
        rw [hrun] at hfault
        exact absurd hfault (by simp [ended])
    · refine Simulator.standsStill_run fun c hc => hcalls c ?_
      rw [(s.exit_requests raw).requests_of_isBlock hp]
      exact List.mem_cons_of_mem _ (List.mem_map_of_mem hc)
  · rcases (s.exit_requests raw).machine_of_not_isBlock (not_exists.mp hblock) with hm | hm
    · rw [hm]
      exact .refl _
    · rw [hm]
      exact hbegun

/-- A move that is accepted is counted once.  The line ends in the units that it selects, with
the work zero of before. -/
theorem state_of_move {completion : Completion} (hok : (s.step raw).2.result = .ok completion)
    {c : Call α} (hc : .call c ∈ s.requests raw) (hmotion : c.isMotion = true) :
    (s.step raw).1.machine.state.units =
        ((Machine.beginBlock s.machine).switched
          (lastOf Word.units? (lineWords (α := α) raw))).state.units ∧
      (s.step raw).1.machine.state.originOffset = s.machine.state.originOffset ∧
      (s.step raw).1.machine.state.motionCount = s.machine.state.motionCount + 1 := by
  obtain ⟨p, m, hp, -, hset, hstill, hend⟩ :=
    machine_of_operation hok hc (.inl (Call.movesAxes_of_isMotion hmotion))
  have hframe := Simulator.sameFrame_of_settings hset
  rw [hp.units_eq] at hframe
  obtain ⟨hunits, horigin, hcount⟩ := m.state_accepted_of_isMotion hmotion
  rw [hend]
  refine ⟨hunits.trans hframe.units, horigin.trans ?_, hcount.trans ?_⟩
  · exact hframe.originOffset.trans (Simulator.originOffset_switched _ _)
  · exact congrArg (· + 1) hstill.motionCount

end

/-! ### Where a line leaves the machine -/

section

variable {F : Type} [ExactNumber F]

/-- **Where the machine is behind a line** that does not change the units.

If the line fails, or if it asks for neither a homing nor a move, the axes are where they
were and no move is counted.  A homing that is accepted leaves the axes at machine zero, and
is no move.  A move that is accepted is counted once; each axis that the line names then
reads the value of its last word, and each other one is where it was. -/
theorem whereabouts_behind_line (s : Session (Simulator F)) {raw : List Char}
    (hunits : (s.step raw).1.machine.state.units = s.machine.state.units) :
    let m := s.machine
    let m' := (s.step raw).1.machine
    ((∃ fault, (s.step raw).2.result = .error fault) ∨
        (∀ c, .call c ∈ s.requests raw → c.movesAxes = false) →
      m'.state.position = m.state.position ∧ m'.state.motionCount = m.state.motionCount) ∧
    (∀ completion, (s.step raw).2.result = .ok completion → .call .home ∈ s.requests raw →
      m'.state.position = .replicate 0 ∧ m'.state.motionCount = m.state.motionCount) ∧
    (∀ completion c, (s.step raw).2.result = .ok completion → .call c ∈ s.requests raw →
      c.isMotion = true →
      m'.state.motionCount = m.state.motionCount + 1 ∧
      ∀ axis,
        (∀ value, lastOf (Word.target? axis) (lineWords (α := F) raw) = some value →
          m'.workPosition axis = value) ∧
        ((∀ w ∈ lineWords (α := F) raw, w.letter ≠ axis.letter) →
          m'.state.position.get axis = m.state.position.get axis)) := by
  intro m m'
  refine ⟨fun h => ?_, fun completion hok hhome => ?_, fun completion c hok hc hmotion => ?_⟩
  · exact ⟨(standsStill_step h).position, (standsStill_step h).motionCount⟩
  · obtain ⟨-, behind, -, -, -, hstill, hend⟩ := machine_of_operation hok hhome (.inl rfl)
    refine ⟨?_, (congrArg (·.state.motionCount) hend).trans hstill.motionCount⟩
    rw [← Number.zero_eq]
    exact congrArg (·.state.position) hend
  · obtain ⟨hselected, horigin, hcount⟩ := state_of_move hok hc hmotion
    refine ⟨hcount, fun axis => ⟨fun value hvalue => ?_, fun hunnamed => ?_⟩⟩
    · have hscale : m'.scale = m.scale := congrArg Units.scale hunits
      rw [Simulator.workPosition_eq_iff, position_of_move hok hc hmotion, hvalue, hscale, horigin]
      exact Simulator.axisToMachine_sameUnits rfl (hselected.symm.trans hunits) axis value
    · rw [position_of_move hok hc hmotion, lastOf_target_eq_none hunnamed]
      exact Simulator.axisToMachine_workPosition rfl _ axis

/-- The session of a new machine that works in inches, with its work zero four inches before
machine zero. -/
def inInches : Session (Simulator ℚ) :=
  (ofMachine (.ofState .standard .initial)).through ["G20 G0 X1 Y2".toList, "G92 X5".toList]

/-- In inches and off machine zero, a move along one axis ends where the axis reads the word,
and leaves the other one. -/
theorem whereabouts_behind_line_in_inches :
    (inInches.step "X7".toList).1.machine.workPosition .x = 7 ∧
    (inInches.step "X7".toList).1.machine.state.position.get .y =
      inInches.machine.state.position.get .y ∧
    (inInches.step "X7".toList).1.machine.state.motionCount =
      inInches.machine.state.motionCount + 1 := by
  have hunits : (inInches.step "X7".toList).1.machine.state.units =
      inInches.machine.state.units := by decide +kernel
  have hok : (inInches.step "X7".toList).2.result = .ok .ok :=
    eq_ok_of_toOption (by decide +kernel)
  have hmove : Request.call (.traverse ⟨7, 2, 0⟩) ∈ inInches.requests "X7".toList := by
    decide +kernel
  have hvalue : lastOf (Word.target? .x) (lineWords (α := ℚ) "X7".toList) = some 7 := by
    decide +kernel
  have hunnamed : ∀ w ∈ lineWords (α := ℚ) "X7".toList, w.letter ≠ Axis.y.letter := by
    decide +kernel
  obtain ⟨-, -, hmoved⟩ := whereabouts_behind_line inInches hunits
  obtain ⟨hcount, haxes⟩ := hmoved _ _ hok hmove rfl
  exact ⟨(haxes .x).1 7 hvalue, (haxes .y).2 hunnamed, hcount⟩

/-- **A change of the origin relabels the current point and does nothing else.**

A line asks for a change of the origin and does not fail.  Then the axes are where they were,
no move is counted, and the operation and the motion mode that the machine carries are those
of before.  An axis that the line does not name keeps its work zero, also if the line
switches the units; and if it does not, each axis that it names reads the value of its last
word. -/
theorem origin_change_relabels (s : Session (Simulator F)) {raw : List Char}
    {completion : Completion} {point : PerAxis F} (hok : (s.step raw).2.result = .ok completion)
    (hc : .call (.originOffsets point) ∈ s.requests raw) :
    let m := s.machine
    let m' := (s.step raw).1.machine
    (m'.state.position = m.state.position ∧ m'.state.motionCount = m.state.motionCount ∧
      m'.state.nextAction = m.state.nextAction ∧ m'.state.motionMode = m.state.motionMode) ∧
    ∀ axis,
      ((∀ w ∈ lineWords (α := F) raw, w.letter ≠ axis.letter) →
        m'.state.originOffset.get axis = m.state.originOffset.get axis) ∧
      (m'.state.units = m.state.units →
        ∀ value, lastOf (Word.target? axis) (lineWords (α := F) raw) = some value →
          m'.workPosition axis = value) := by
  intro m m'
  have hstill : m.StandsStill m' := by
    obtain ⟨-, behind, -, -, -, hsettings, hend⟩ := machine_of_operation hok hc (.inr rfl)
    change m.StandsStill (s.step raw).1.machine
    rw [hend]
    exact hsettings.trans (behind.standsStill_accepted (c := .originOffsets point) rfl)
  refine ⟨⟨hstill.position, hstill.motionCount, hstill.nextAction, hstill.motionMode⟩, ?_⟩
  intro axis
  obtain ⟨-, hselected, horigin⟩ := state_of_originOffsets hok hc axis
  refine ⟨fun hunnamed => ?_, fun hunits value hvalue => ?_⟩
  · rw [horigin, lastOf_target_eq_none hunnamed]
    have hreading := Simulator.axisToMachine_workPosition (m := Machine.beginBlock m) rfl
      (lastOf Word.units? (lineWords (α := F) raw)) axis
    rw [Option.getD_none, show s.machine.workPosition axis =
      (Machine.beginBlock m).workPosition axis from rfl, hreading]
    exact sub_sub_cancel _ _
  · have hscale : m'.scale = m.scale := congrArg Units.scale hunits
    rw [Simulator.workPosition_eq_iff, hstill.position, hscale, horigin, hvalue, Option.getD_some,
      Simulator.axisToMachine_sameUnits rfl (hselected.symm.trans hunits)]
    change _ = value * m.scale + (_ - (value * m.scale + m.state.originOffset.get axis - _))
    ring

/-- In inches, a point that is relabelled on one axis stays where it is and reads the word, and
the other axis keeps its work zero. -/
theorem origin_change_relabels_in_inches :
    (inInches.step "G92 X1".toList).1.machine.state.position =
      inInches.machine.state.position ∧
    (inInches.step "G92 X1".toList).1.machine.workPosition .x = 1 ∧
    (inInches.step "G92 X1".toList).1.machine.state.originOffset.get .y =
      inInches.machine.state.originOffset.get .y := by
  have hunits : (inInches.step "G92 X1".toList).1.machine.state.units =
      inInches.machine.state.units := by decide +kernel
  have hok : (inInches.step "G92 X1".toList).2.result = .ok .ok :=
    eq_ok_of_toOption (by decide +kernel)
  have hchange : Request.call (.originOffsets ⟨1, 2, 0⟩) ∈ inInches.requests "G92 X1".toList := by
    decide +kernel
  have hvalue : lastOf (Word.target? .x) (lineWords (α := ℚ) "G92 X1".toList) = some 1 := by
    decide +kernel
  have hunnamed : ∀ w ∈ lineWords (α := ℚ) "G92 X1".toList, w.letter ≠ Axis.y.letter := by
    decide +kernel
  obtain ⟨⟨hposition, -⟩, haxes⟩ := origin_change_relabels inInches hok hchange
  exact ⟨hposition, (haxes .x).2 hunits 1 hvalue, (haxes .y).1 hunnamed⟩

end

end Session

end NumericControl
