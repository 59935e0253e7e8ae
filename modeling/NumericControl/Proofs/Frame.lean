import NumericControl.Proofs.Journal
import NumericControl.Proofs.LineWords

/-!
# What a line makes of its targets

What the machine makes of a target is told by its *frame*: the position, the work zero,
the units, and the readings kept at a switch of units.  Of the calls that go before the
operation of a block only such a switch touches the frame.  So the operation finds the
frame of the beginning of the block, behind at most one switch, whatever else the line
asks for.

## Main definitions

* `Simulator.SameFrame` — two machines have the same frame.
* `Simulator.StandsStill` — a machine has not moved from one state to another.
* `Simulator.switched` — the machine behind a switch of units, if there is one.

## Main results

* `Simulator.sameFrame_of_settings` — **what the settings of a block do to the frame**.
* `Session.machine_of_operation`, `Session.machine_of_target` — what a line does whose operation
  is accepted, and what one does that hands over a target.
* `Session.position_of_move`, `Session.state_of_originOffsets` — where a move ends, and what
  a change of the origin does.
-/

namespace NumericControl

/-! ### Calls and the frame -/

namespace Call

variable {α : Type}

/-- Whether a call leaves the frame of the machine alone. -/
def isQuiet : Call α → Bool
  | .units _ | .home | .originOffsets _ | .traverse _ | .feed _ | .arc .. => false
  | _ => true

/-- The target that a call hands over. -/
def target? : Call α → Option (PerAxis α)
  | .originOffsets target | .traverse target | .feed target | .arc target .. => some target
  | _ => none

/-- Whether a call can change where the axes are. -/
def movesAxes : Call α → Bool
  | .home | .traverse _ | .feed _ | .arc .. => true
  | _ => false

variable {c : Call α}

theorem movesAxes_of_not_isMotion (hc : c.isMotion = false) (hhome : c ≠ .home) :
    c.movesAxes = false := by
  cases c with
  | home => exact absurd rfl hhome
  | traverse | feed | arc => exact absurd hc (by simp [isMotion])
  | _ => rfl

theorem movesAxes_of_isMotion (hc : c.isMotion = true) : c.movesAxes = true := by
  cases c with
  | traverse | feed | arc => rfl
  | _ => exact absurd hc (by simp [isMotion])

theorem exists_target_of_isMotion (hc : c.isMotion = true) : ∃ target, c.target? = some target := by
  cases c with
  | traverse | feed | arc => exact ⟨_, rfl⟩
  | _ => exact absurd hc (by simp [isMotion])

end Call

namespace Simulator

variable {α : Type}

/-- Two machines have the same frame, so that they make the same of every target. -/
structure SameFrame (m m' : Simulator α) : Prop where
  position : m'.state.position = m.state.position
  originOffset : m'.state.originOffset = m.state.originOffset
  units : m'.state.units = m.state.units
  carried : m'.carried = m.carried

variable {m m' m'' : Simulator α}

theorem SameFrame.refl (m : Simulator α) : m.SameFrame m :=
  ⟨rfl, rfl, rfl, rfl⟩

theorem SameFrame.trans (h : m.SameFrame m') (h' : m'.SameFrame m'') : m.SameFrame m'' where
  position := h'.position.trans h.position
  originOffset := h'.originOffset.trans h.originOffset
  units := h'.units.trans h.units
  carried := h'.carried.trans h.carried

/-- The machine has not moved from one state to another, and carries the same motion. -/
structure StandsStill (m m' : Simulator α) : Prop where
  position : m'.state.position = m.state.position
  nextAction : m'.state.nextAction = m.state.nextAction
  motionMode : m'.state.motionMode = m.state.motionMode
  motionCount : m'.state.motionCount = m.state.motionCount

theorem StandsStill.refl (m : Simulator α) : m.StandsStill m :=
  ⟨rfl, rfl, rfl, rfl⟩

/-- The beginning of a block changes no field of the state. -/
theorem standsStill_beginBlock (m : Simulator α) : m.StandsStill m.beginBlock :=
  ⟨rfl, rfl, rfl, rfl⟩

theorem StandsStill.trans (h : m.StandsStill m') (h' : m'.StandsStill m'') : m.StandsStill m'' where
  position := h'.position.trans h.position
  nextAction := h'.nextAction.trans h.nextAction
  motionMode := h'.motionMode.trans h.motionMode
  motionCount := h'.motionCount.trans h.motionCount

variable [Number α]

theorem SameFrame.workPosition (h : m.SameFrame m') : m'.workPosition = m.workPosition := by
  funext axis
  rw [Simulator.workPosition, Simulator.workPosition, scale, scale, h.position, h.originOffset,
    h.units]

theorem SameFrame.axisToMachine (h : m.SameFrame m') : m'.axisToMachine = m.axisToMachine := by
  funext axis value
  have hcarried : m'.isCarried axis value = m.isCarried axis value := by
    rw [isCarried, isCarried, h.carried]
  rw [Simulator.axisToMachine, Simulator.axisToMachine, hcarried, scale, scale, h.position,
    h.originOffset, h.units]

theorem sameFrame_accepted (m : Simulator α) {c : Call α} (hc : c.isQuiet = true) :
    m.SameFrame (m.accepted c) := by
  cases c with
  | units | home | originOffsets | traverse | feed | arc => exact absurd hc (by simp [Call.isQuiet])
  | _ => exact ⟨rfl, rfl, rfl, rfl⟩

/-- Calls that leave the frame alone do so together, whether one is refused or not. -/
theorem sameFrame_run {calls : List (Call α)} (hquiet : ∀ c ∈ calls, c.isQuiet = true) :
    m.SameFrame (Machine.run m calls).1 := by
  induction calls generalizing m with
  | nil => exact .refl m
  | cons c calls ih =>
    cases hc : (Machine.perform m c).2 with
    | none =>
      rw [Machine.run_cons_of_accepted calls hc, fst_perform_of_accepted hc]
      exact (m.sameFrame_accepted (hquiet c (by simp))).trans
        (ih fun c' hc' => hquiet c' (by simp [hc']))
    | some fault =>
      rw [Machine.run_cons_of_refused calls hc, fst_perform_of_refused hc]
      exact .refl m

/-- A switch of units keeps the same readings of machines with the same frame. -/
theorem SameFrame.accepted_units (h : m.SameFrame m') (units : Units) :
    (m.accepted (.units units)).SameFrame (m'.accepted (.units units)) where
  position := h.position
  originOffset := h.originOffset
  units := rfl
  carried := by
    change m'.carriedBehind (.units units) = m.carriedBehind (.units units)
    rw [carriedBehind, carriedBehind, h.units, h.carried, h.workPosition]

/-! ### Positions -/

theorem standsStill_accepted (m : Simulator α) {c : Call α} (hc : c.movesAxes = false) :
    m.StandsStill (m.accepted c) := by
  cases c with
  | home | traverse | feed | arc => exact absurd hc (by simp [Call.movesAxes])
  | _ => exact ⟨rfl, rfl, rfl, rfl⟩

theorem position_accepted_of_isMotion (m : Simulator α) {c : Call α} {target : PerAxis α}
    (hc : c.isMotion = true) (htarget : c.target? = some target) :
    (m.accepted c).state.position = m.toMachine target := by
  cases c with
  | traverse | feed | arc =>
    obtain rfl := Option.some.inj htarget
    rfl
  | _ => exact absurd hc (by simp [Call.isMotion])

/-- Calls that move no axis do so together, whether one is refused or not. -/
theorem standsStill_run {calls : List (Call α)}
    (hcalls : ∀ c ∈ Machine.made m calls, c.movesAxes = false) :
    m.StandsStill (Machine.run m calls).1 := by
  induction calls generalizing m with
  | nil => exact .refl m
  | cons c calls ih =>
    cases hc : (Machine.perform m c).2 with
    | none =>
      rw [Machine.made_cons_of_accepted calls hc, fst_perform_of_accepted hc] at hcalls
      rw [Machine.run_cons_of_accepted calls hc, fst_perform_of_accepted hc]
      exact (m.standsStill_accepted (hcalls c (by simp))).trans
        (ih fun c' hc' => hcalls c' (by simp [hc']))
    | some fault =>
      rw [Machine.run_cons_of_refused calls hc, fst_perform_of_refused hc]
      exact .refl m

end Simulator

/-! ### The settings of a block -/

namespace Proposal

variable {α : Type} [Number α] {p : Proposal α} {c : Call α}

/-- The settings that go before a switch of units. -/
def beforeUnits (p : Proposal α) : List (Call α) :=
  preparation p.changes ++ p.pause ++ (p.changes.plane.map .plane).toList

/-- The settings that go behind a switch of units. -/
def afterUnits (p : Proposal α) : List (Call α) :=
  (p.changes.distanceMode.map .distanceMode).toList

theorem settings_eq_append (p : Proposal α) :
    p.settings = p.beforeUnits ++ ((p.changes.units.map .units).toList ++ p.afterUnits) := by
  simp only [settings, frame, beforeUnits, afterUnits, List.append_assoc]

theorem isQuiet_of_mem_beforeUnits (hc : c ∈ p.beforeUnits) : c.isQuiet = true := by
  simp only [beforeUnits, preparation, pause, List.mem_append, Option.mem_toList,
    Option.map_eq_some_iff, List.mem_ite_nil_right, List.mem_singleton] at hc
  rcases hc with
    (((((((⟨_, -, rfl⟩ | ⟨_, -, rfl⟩) | ⟨_, -, rfl⟩) | ⟨_, -, rfl⟩) | ⟨-, rfl⟩) | ⟨_, -, rfl⟩)
      | ⟨-, rfl⟩) | ⟨_, -, rfl⟩) <;> rfl

omit [Number α] in
theorem isQuiet_of_mem_afterUnits (hc : c ∈ p.afterUnits) : c.isQuiet = true := by
  simp only [afterUnits, Option.mem_toList, Option.map_eq_some_iff] at hc
  obtain ⟨_, -, rfl⟩ := hc
  rfl

/-- The settings move no axis and hand over no target. -/
theorem of_mem_settings (hc : c ∈ p.settings) : c.movesAxes = false ∧ c.target? = none := by
  have hquiet (h : c.isQuiet = true) : c.movesAxes = false ∧ c.target? = none := by
    cases c with
    | units | home | originOffsets | traverse | feed | arc => exact absurd h (by simp [Call.isQuiet])
    | _ => exact ⟨rfl, rfl⟩
  rw [settings_eq_append, List.mem_append, List.mem_append] at hc
  rcases hc with hbefore | hunits | hafter
  · exact hquiet (isQuiet_of_mem_beforeUnits hbefore)
  · obtain ⟨units, -, rfl⟩ := Option.map_eq_some_iff.mp (Option.mem_toList.mp hunits)
    exact ⟨rfl, rfl⟩
  · exact hquiet (isQuiet_of_mem_afterUnits hafter)

/-- A block hands over the targets that it was made with. -/
theorem target_of_mem_plan {target : PerAxis α} (hc : c ∈ p.plan)
    (htarget : c.target? = some target) : target = p.target := by
  have hasks := (p.mem_plan_iff c).mp hc
  cases c with
  | originOffsets =>
    obtain rfl := Option.some.inj htarget
    exact hasks.2
  | traverse | feed =>
    obtain rfl := Option.some.inj htarget
    exact hasks.2.2
  | arc =>
    obtain rfl := Option.some.inj htarget
    exact hasks.2.2.2.1
  | _ => exact absurd htarget (by simp [Call.target?])

theorem operation_eq_nil_or (p : Proposal α) :
    p.operation = [] ∨ ∃ c, p.operation = [c] := by
  unfold operation move
  cases p.nextAction <;> cases p.motionMode <;> simp

/-- A call that moves an axis or hands over a target is the operation of its block. -/
theorem operation_of_mem_plan (hc : c ∈ p.plan)
    (hcall : c.movesAxes = true ∨ c.target?.isSome = true) : p.operation = [c] := by
  have hoperation : c ∈ p.operation := by
    rcases List.mem_append.mp hc with hset | hoperation
    · obtain ⟨hmoves, htarget⟩ := of_mem_settings hset
      rw [hmoves, htarget] at hcall
      exact absurd hcall (by simp)
    · exact hoperation
  rcases p.operation_eq_nil_or with hnil | ⟨c', hc'⟩
  · rw [hnil] at hoperation
    exact absurd hoperation (by simp)
  · rw [hc', List.mem_singleton] at hoperation
    rw [hc', hoperation]

end Proposal

/-! ### Settings and the frame -/

namespace Simulator

variable {α : Type} [Number α] {m m' : Simulator α} {p : Proposal α}

/-- The machine behind a switch of units, if there is one. -/
def switched (m : Simulator α) : Option Units → Simulator α
  | some units => m.accepted (.units units)
  | none => m

theorem position_switched (m : Simulator α) (units : Option Units) :
    (m.switched units).state.position = m.state.position := by
  cases units <;> rfl

theorem originOffset_switched (m : Simulator α) (units : Option Units) :
    (m.switched units).state.originOffset = m.state.originOffset := by
  cases units <;> rfl

/-- The settings of a block move nothing, whether one of them is refused or not. -/
theorem standsStill_settings (m : Simulator α) (p : Proposal α) :
    m.StandsStill (Machine.run m p.settings).1 :=
  standsStill_run fun _ hc => (Proposal.of_mem_settings ((Machine.made_isPrefix _ _).subset hc)).1

/-- **What the settings of a block do to the frame**: only the switch of units counts. -/
theorem sameFrame_of_settings (hset : Machine.run m p.settings = (m', none)) :
    (m.switched p.changes.units).SameFrame m' := by
  rw [p.settings_eq_append] at hset
  obtain ⟨m₁, hfirst, hrest⟩ := Machine.exists_run_of_append hset
  have hbefore : m.SameFrame m₁ := by
    rw [← show (Machine.run m p.beforeUnits).1 = m₁ from congrArg Prod.fst hfirst]
    exact sameFrame_run fun _ => Proposal.isQuiet_of_mem_beforeUnits
  have hafter {m₂ : Simulator α} (h : Machine.run m₂ p.afterUnits = (m', none)) :
      m₂.SameFrame m' := by
    rw [← show (Machine.run m₂ p.afterUnits).1 = m' from congrArg Prod.fst h]
    exact sameFrame_run fun _ => Proposal.isQuiet_of_mem_afterUnits
  cases hunits : p.changes.units with
  | none =>
    rw [hunits] at hrest
    exact hbefore.trans (hafter hrest)
  | some units =>
    rw [hunits] at hrest
    change Machine.run _ (.units units :: p.afterUnits) = _ at hrest
    rw [Machine.run_cons_of_accepted _ rfl, fst_perform_of_accepted rfl] at hrest
    exact (hbefore.accepted_units units).trans (hafter hrest)

end Simulator

/-! ### Lines -/

namespace Session

variable {α : Type} [Number α] {s : Session (Simulator α)} {raw : List Char}

/-- A block asks for the units that the last word for them selects. -/
theorem IsBlock.units_eq {p : Proposal α} (h : s.IsBlock raw p) :
    p.changes.units = lastOf Word.units? (lineWords (α := α) raw) := by
  rw [h.follows.units]
  exact Option.or_none

/-- **What a line does whose operation is accepted**: its settings are accepted first and move
nothing, and nothing comes behind the operation. -/
theorem machine_of_operation {completion : Completion}
    (hok : (s.step raw).2.result = .ok completion) {c : Call α} (hc : .call c ∈ s.requests raw)
    (hcall : c.movesAxes = true ∨ c.target?.isSome = true) :
    ∃ p m, s.IsBlock raw p ∧ c ∈ p.plan ∧
      Machine.run (Machine.beginBlock s.machine) p.settings = (m, none) ∧
      s.machine.StandsStill m ∧ (s.step raw).1.machine = m.accepted c := by
  obtain ⟨p, hp, hplan⟩ := isBlock_of_mem_requests hc
  have hend : (s.performed p).2 = none := by
    rw [result_of_isBlock hp] at hok
    cases hfault : (s.performed p).2 with
    | none => rfl
    | some fault =>
      rw [hfault] at hok
      exact absurd hok (by simp [ended])
  have hrun : Machine.run (Machine.beginBlock s.machine) (p.settings ++ [c])
      = ((s.step raw).1.machine, none) := by
    rw [machine_of_isBlock hp, ← hend, ← Proposal.operation_of_mem_plan hplan hcall]
    rfl
  obtain ⟨m, hset, haccepted⟩ := Machine.exists_run_of_append hrun
  rw [Machine.run_singleton] at haccepted
  refine ⟨p, m, hp, hplan, hset, ?_, ?_⟩
  · rw [← show (Machine.run (Machine.beginBlock s.machine) p.settings).1 = m
      from congrArg Prod.fst hset]
    exact s.machine.standsStill_beginBlock.trans (Simulator.standsStill_settings _ p)
  · rw [← Simulator.fst_perform_of_accepted (congrArg Prod.snd haccepted), haccepted]

/-- **What a line does that hands over a target** and does not fail: behind the settings,
which leave the frame to the switch of units, the call is accepted, and the target of each
axis is that of the last word for it, or what the axis reads. -/
theorem machine_of_target {completion : Completion} (hok : (s.step raw).2.result = .ok completion)
    {c : Call α} (hc : .call c ∈ s.requests raw) {target : PerAxis α}
    (htarget : c.target? = some target) :
    ∃ m, ((Machine.beginBlock s.machine).switched
        (lastOf Word.units? (lineWords (α := α) raw))).SameFrame m ∧
      (s.step raw).1.machine = m.accepted c ∧
      ∀ axis, target.get axis =
        (lastOf (Word.target? axis) (lineWords (α := α) raw)).getD (s.machine.workPosition axis) := by
  obtain ⟨p, m, hp, hplan, hset, -, hend⟩ :=
    machine_of_operation hok hc (.inr (by simp [htarget]))
  have hframe := Simulator.sameFrame_of_settings hset
  rw [hp.units_eq] at hframe
  refine ⟨m, hframe, hend, fun axis => ?_⟩
  rw [Proposal.target_of_mem_plan hplan htarget, hp.follows.target]
  exact congrArg _ (PerAxis.get_ofFn _ _)

/-- **Where a move ends** on each axis. -/
theorem position_of_move {completion : Completion} (hok : (s.step raw).2.result = .ok completion)
    {c : Call α} (hc : .call c ∈ s.requests raw) (hmotion : c.isMotion = true) (axis : Axis) :
    (s.step raw).1.machine.state.position.get axis =
      ((Machine.beginBlock s.machine).switched
        (lastOf Word.units? (lineWords (α := α) raw))).axisToMachine axis
        ((lastOf (Word.target? axis) (lineWords (α := α) raw)).getD
          (s.machine.workPosition axis)) := by
  obtain ⟨target, htarget⟩ := Call.exists_target_of_isMotion hmotion
  obtain ⟨m, hframe, hend, hvalue⟩ := machine_of_target hok hc htarget
  rw [hend, m.position_accepted_of_isMotion hmotion htarget, Simulator.toMachine,
    PerAxis.get_ofFn, hvalue, hframe.axisToMachine]

/-- **What a change of the origin does**: the axes stay, and from each axis the new work zero
lies as the old one does from the point that was handed over. -/
theorem state_of_originOffsets {completion : Completion}
    (hok : (s.step raw).2.result = .ok completion) {point : PerAxis α}
    (hc : .call (.originOffsets point) ∈ s.requests raw) (axis : Axis) :
    let m := (Machine.beginBlock s.machine).switched
      (lastOf Word.units? (lineWords (α := α) raw))
    (s.step raw).1.machine.state.position = s.machine.state.position ∧
    (s.step raw).1.machine.state.units = m.state.units ∧
    (s.step raw).1.machine.state.originOffset.get axis =
      s.machine.state.position.get axis -
        (m.axisToMachine axis ((lastOf (Word.target? axis) (lineWords (α := α) raw)).getD
          (s.machine.workPosition axis)) - s.machine.state.originOffset.get axis) := by
  intro m
  obtain ⟨m', hframe, hend, hvalue⟩ := machine_of_target hok hc rfl
  have hposition : m'.state.position = s.machine.state.position :=
    hframe.position.trans (Simulator.position_switched _ _)
  have horigin : m'.state.originOffset = s.machine.state.originOffset :=
    hframe.originOffset.trans (Simulator.originOffset_switched _ _)
  rw [hend]
  refine ⟨hposition, hframe.units, ?_⟩
  change (m'.originFor point).get axis = _
  rw [Simulator.originFor, PerAxis.get_ofFn, hvalue, hposition, horigin, hframe.axisToMachine]

/-- The operation of a block is asked for once its settings are accepted. -/
theorem mem_requests_of_operation {p : Proposal α} (h : s.IsBlock raw p) {m : Simulator α}
    (hset : Machine.run (Machine.beginBlock s.machine) p.settings = (m, none)) {c : Call α}
    (hc : c ∈ p.operation) : .call c ∈ s.requests raw := by
  have hmade : Machine.made m p.operation = p.operation := by
    rcases p.operation_eq_nil_or with hnil | ⟨c', hc'⟩
    · rw [hnil]
      rfl
    · rw [hc', Machine.made_singleton]
  rw [(s.exit_requests raw).requests_of_isBlock h, Proposal.plan, Machine.made_append hset, hmade]
  exact List.mem_cons_of_mem _ (List.mem_map_of_mem (List.mem_append_right _ hc))

end Session

end NumericControl
