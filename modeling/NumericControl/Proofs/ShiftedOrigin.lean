import NumericControl.Proofs.ExactNumber
import NumericControl.Proofs.Lines
import NumericControl.Proofs.LineWords
import NumericControl.Proofs.RunAccount
import NumericControl.Proofs.Transformation

/-!
# Machine zero does not matter

A program tells points from the work zero, and where the work zero lies in the machine is
known to the machine alone.  So a machine that has its axes and its work zero shifted by the
same vector reads the same, refuses the same calls, and runs the same program to the same
end, everything it stores being shifted too.  The one exception is the return to machine
zero, which is a point of the machine and not of the work.

The coordinates are exact here, as a sum of rounded numbers is not shifted by a rounded
vector.

## Main definitions

* `PerAxis.shifted`, `State.shifted`, `Entry.shifted`, `Simulator.shifted` — points and what
  holds points, shifted by a vector.
* `Transformation.shift` — the machine described from another machine zero.

## Main results

* `Simulator.accepted_shifted`, `Simulator.refusal?_shifted` — what a call does behind a shift.
* `Session.step_shifted` — a line does the same behind a shift.
* `Run.shifted_run` — **and so does a program**.
-/

namespace NumericControl

variable {F : Type} [ExactNumber F]

/-! ### Shifts -/

/-- A point shifted by a vector. -/
def PerAxis.shifted (v d : PerAxis F) : PerAxis F :=
  .zipWith (· + ·) v d

@[simp] theorem PerAxis.get_shifted (v d : PerAxis F) (axis : Axis) :
    (v.shifted d).get axis = v.get axis + d.get axis :=
  PerAxis.get_zipWith _ _ _ _

/-- A state with the axes and the work zero shifted. -/
def State.shifted (s : State F) (d : PerAxis F) : State F :=
  { s with position := s.position.shifted d, originOffset := s.originOffset.shifted d }

/-- An entry with the points in it shifted. -/
def Entry.shifted (e : Entry F) (d : PerAxis F) : Entry F :=
  match e with
  | .originOffsets offset => .originOffsets (offset.shifted d)
  | .motion mode target => .motion mode (target.shifted d)
  | e => e

/-- An entry that is no return to machine zero does the same behind a shift. -/
theorem Entry.replay_shifted {e : Entry F} (he : e ≠ .returnToHome) (s : State F) (d : PerAxis F) :
    (e.shifted d).replay (s.shifted d) = (e.replay s).shifted d := by
  cases e with
  | returnToHome => exact absurd rfl he
  | _ => rfl

namespace Simulator

/-- A machine with its axes, its work zero and the points in its journal shifted. -/
def shifted (m : Simulator F) (d : PerAxis F) : Simulator F :=
  { m with state := m.state.shifted d, journal := m.journal.map (Entry.shifted · d) }

variable (m : Simulator F) (d : PerAxis F)

/-! ### One call -/

/-- The axes read as before. -/
theorem workPosition_shifted : (m.shifted d).workPosition = m.workPosition := by
  funext axis
  change ((m.state.position.shifted d).get axis - (m.state.originOffset.shifted d).get axis)
    / m.scale = (m.state.position.get axis - m.state.originOffset.get axis) / m.scale
  rw [PerAxis.get_shifted, PerAxis.get_shifted, add_sub_add_right_eq_sub]

theorem axisToMachine_shifted (axis : Axis) (value : F) :
    (m.shifted d).axisToMachine axis value = m.axisToMachine axis value + d.get axis := by
  have hcarried : (m.shifted d).isCarried axis value = m.isCarried axis value := rfl
  have hscale : (m.shifted d).scale = m.scale := rfl
  rw [axisToMachine, axisToMachine, hcarried, hscale]
  split
  · exact PerAxis.get_shifted _ _ _
  · change value * m.scale + (m.state.originOffset.shifted d).get axis = _
    rw [PerAxis.get_shifted, add_assoc]

theorem toMachine_shifted (target : PerAxis F) :
    (m.shifted d).toMachine target = (m.toMachine target).shifted d := by
  refine PerAxis.ext_get fun axis => ?_
  rw [toMachine, PerAxis.get_ofFn, axisToMachine_shifted, PerAxis.get_shifted, toMachine,
    PerAxis.get_ofFn]

theorem originFor_shifted (point : PerAxis F) :
    (m.shifted d).originFor point = (m.originFor point).shifted d := by
  refine PerAxis.ext_get fun axis => ?_
  rw [originFor, PerAxis.get_ofFn, axisToMachine_shifted, PerAxis.get_shifted, originFor,
    PerAxis.get_ofFn]
  change (m.state.position.shifted d).get axis - (m.axisToMachine axis (point.get axis) + d.get axis
    - (m.state.originOffset.shifted d).get axis) = _
  rw [PerAxis.get_shifted, PerAxis.get_shifted]
  ring

/-- Two points are as far apart as before. -/
theorem chord_shifted (start finish : PerAxis F) :
    (m.shifted d).chord (start.shifted d) (finish.shifted d) = m.chord start finish := by
  have hplane : (m.shifted d).state.plane = m.state.plane := rfl
  unfold chord
  rw [hplane]
  cases m.state.plane <;>
    simp only [PerAxis.inPlane, PerAxis.shifted, PerAxis.zipWith, add_sub_add_right_eq_sub]

theorem checkArc_shifted (target offset : PerAxis F) (radius : F) :
    (m.shifted d).checkArc (target.shifted d) offset radius = m.checkArc target offset radius := by
  have hchord : (m.shifted d).chord (m.shifted d).state.position (target.shifted d) =
      m.chord m.state.position target := m.chord_shifted d _ _
  have hscale : (m.shifted d).scale = m.scale := rfl
  have hplane : (m.shifted d).state.plane = m.state.plane := rfl
  simp only [checkArc, hchord, hscale, hplane]

/-- **A call is refused behind a shift if it is refused before**, with the same fault. -/
theorem refusal?_shifted (c : Call F) : (m.shifted d).refusal? c = m.refusal? c := by
  cases c with
  | arc target offset radius mode =>
    have hlacks : (m.shifted d).lacksFeedRate = m.lacksFeedRate := rfl
    rw [refusal?, refusal?, hlacks, toMachine_shifted, checkArc_shifted]
  | _ => rfl

theorem entryOf_shifted (c : Call F) : (m.shifted d).entryOf c = (m.entryOf c).shifted d := by
  cases c with
  | originOffsets point => exact congrArg Entry.originOffsets (m.originFor_shifted d point)
  | traverse target | feed target | arc target =>
    exact congrArg (Entry.motion _) (m.toMachine_shifted d target)
  | _ => rfl

/-- **What is accepted behind a shift does what it does before**, unless it goes to machine
zero. -/
theorem accepted_shifted {c : Call F} (hc : c ≠ .home) :
    (m.shifted d).accepted c = (m.accepted c).shifted d := by
  have hentry : m.entryOf c ≠ .returnToHome := by
    cases c with
    | home => exact absurd rfl hc
    | _ => simp [entryOf]
  have hcarried : (m.shifted d).carriedBehind c = m.carriedBehind c := by
    cases c with
    | units units =>
      rw [carriedBehind, carriedBehind, workPosition_shifted]
      rfl
    | _ => rfl
  simp only [accepted, entryOf_shifted, hcarried]
  simp only [shifted, Entry.replay_shifted hentry, Array.map_push]

/-- Only a move changes the operation that is carried, and a move is what it changes it to. -/
theorem nextAction_accepted (c : Call F) :
    (m.accepted c).state.nextAction = m.state.nextAction ∨
      (m.accepted c).state.nextAction = .motion := by
  cases c with
  | traverse | feed | arc => exact .inr rfl
  | _ => exact .inl rfl

end Simulator

/-- The machine described from another machine zero. -/
def Transformation.shift (d : PerAxis F) : Transformation F F where
  onMachine m := m.shifted d
  onCall := id
  value := id
  Covers m := m.state.nextAction ≠ .goHome
  Admits c := c ≠ .home
  beginBlock _ := rfl
  refusal {m c} _ _ := by rw [id, Simulator.refusal?_shifted]
  accepted {m _} _ hc := m.accepted_shifted d hc
  covers_beginBlock h := h
  covers_accepted {m c} hm _ := by
    rcases m.nextAction_accepted c with h | h
    · rwa [h]
    · rw [h]
      decide

/-! ### Lines -/

section

variable {σ τ α : Type}

/-- A visit on another machine. -/
def Visit.map (f : σ → τ) (v : Visit σ α) : Visit τ α :=
  ⟨v.lineNumber, v.line, v.session.map f, v.report⟩

/-- A run on another machine. -/
def Run.map (f : σ → τ) (r : Run σ α) : Run τ α :=
  ⟨r.session.map f, r.messages, r.summary⟩

/-- A run does the same on another machine with a line that its session does the same with. -/
theorem Run.step_map [Number α] [Machine σ α] [Machine τ α] {f : σ → τ} {r : Run σ α}
    {line : List Char}
    (h : (r.session.map f).step line =
      ((r.session.step line).1.map f, (r.session.step line).2)) :
    (r.map f).step line = (r.step line).map f := by
  have hsession : (r.map f).session = r.session.map f := rfl
  rw [step_eq, step_eq, hsession, h]
  rfl

end

/-- A word that asks for a return to machine zero is a G28 or a G30. -/
theorem Word.gCode?_of_goHome {w : Word F} (h : w.nextAction? = some .goHome) :
    w.gCode? = some 28 ∨ w.gCode? = some 30 := by
  obtain ⟨code, hcode, haction⟩ := Option.bind_eq_some_iff.mp h
  rw [hcode]
  unfold NextAction.ofCode? at haction
  split at haction
  case h_6 => exact .inl rfl
  case h_7 => exact .inr rfl
  all_goals exact absurd haction (by simp)

namespace Session

variable {s : Session (Simulator F)}

/-- Without a G28 or a G30 a line does not ask for a return to machine zero, unless the machine
carries one. -/
theorem nextAction_ne_goHome {raw : List Char} {p : Proposal F} (hp : s.IsBlock raw p)
    (hnext : s.machine.state.nextAction ≠ .goHome)
    (hwords : ∀ w ∈ lineWords (α := F) raw, w.gCode? ≠ some 28 ∧ w.gCode? ≠ some 30) :
    p.nextAction ≠ .goHome := by
  rw [hp.follows.nextAction]
  cases hlast : lastOf Word.nextAction? (lineWords (α := F) raw) with
  | none => exact hnext
  | some action =>
    obtain ⟨w, hw, hsays⟩ := exists_of_lastOf Word.nextAction? hlast
    rintro rfl
    rcases Word.gCode?_of_goHome hsays with h | h
    · exact (hwords w hw).1 h
    · exact (hwords w hw).2 h

/-- A command says the same behind a shift. -/
theorem proposal_shifted (d : PerAxis F) (command : List Char) :
    (s.map (Simulator.shifted · d)).proposal command = s.proposal command := by
  have hposition : Machine.position (Machine.beginBlock (s.machine.shifted d)) =
      Machine.position (Machine.beginBlock s.machine) :=
    (Machine.beginBlock s.machine).workPosition_shifted d
  have hseed : Proposal.ofMachine (Machine.beginBlock (s.machine.shifted d)) =
      Proposal.ofMachine (Machine.beginBlock s.machine) :=
    congrArg (fun position => Proposal.mk _ _ (.ofFn position) {}) hposition
  exact congrArg (Proposal.applyAll · _) hseed

/-- **A line does the same behind a shift.** -/
theorem step_shifted (d : PerAxis F) {raw : List Char}
    (hnext : s.machine.state.nextAction ≠ .goHome)
    (hwords : ∀ w ∈ lineWords (α := F) raw, w.gCode? ≠ some 28 ∧ w.gCode? ≠ some 30) :
    (s.map (Simulator.shifted · d)).step raw =
        ((s.step raw).1.map (Simulator.shifted · d), (s.step raw).2) ∧
      (s.step raw).1.machine.state.nextAction ≠ .goHome := by
  have hsettle (b : NormalBlock) (hn : normalize (α := F) raw = .ok b) (hb : b.IsCommand) :
      (Transformation.shift d).Matches (s.settle (s.proposal b.command))
          ((s.map (Simulator.shifted · d)).settle (s.proposal b.command)) ∧
        (s.settle (s.proposal b.command)).session.machine.state.nextAction ≠ .goHome := by
    cases hp : s.proposal b.command with
    | error fault => exact Transformation.settle_error (T := .shift d) hnext fault
    | ok p =>
      have hblock : s.IsBlock raw p := (isBlock_iff s p hn).mpr ⟨hb, hp⟩
      have hhome : ∀ c ∈ p.plan, c ≠ .home := by
        rintro c hc rfl
        exact nextAction_ne_goHome hblock hnext hwords ((p.mem_plan_iff _).mp hc)
      exact Transformation.settle (T := .shift d) hnext hhome (List.map_id _).symm rfl
  constructor
  · refine step_map fun b hn hb => ?_
    obtain ⟨hmatches, -⟩ := hsettle b hn hb
    rw [runCommand_eq_settle, runCommand_eq_settle, proposal_shifted, hmatches.session,
      hmatches.result_eq rfl]
    rfl
  · cases hn : normalize (α := F) raw with
    | error fault => rwa [step_of_notNormal hn]
    | ok b =>
      cases he : b.isEmpty with
      | true => rwa [step_of_isEmpty hn he]
      | false =>
        cases hq : b.isQuit with
        | true => rwa [step_of_isQuit hn hq]
        | false =>
          rw [step_of_isCommand hn ⟨he, hq⟩, runCommand_eq_settle]
          exact (hsettle b hn ⟨he, hq⟩).2

/-- The visits of lines behind a shift are those before, on shifted machines. -/
theorem visits_shifted (d : PerAxis F) (number : Nat) {lines : List (List Char)}
    (hnext : s.machine.state.nextAction ≠ .goHome)
    (hwords : ∀ line ∈ lines, ∀ w ∈ lineWords (α := F) line,
      w.gCode? ≠ some 28 ∧ w.gCode? ≠ some 30) :
    (s.map (Simulator.shifted · d)).visits number lines =
      (s.visits number lines).map (Visit.map (Simulator.shifted · d)) := by
  induction lines generalizing s number with
  | nil => rfl
  | cons line lines ih =>
    obtain ⟨hline, hwords⟩ := List.forall_mem_cons.mp hwords
    obtain ⟨hstep, hnext⟩ := step_shifted d hnext hline
    rw [visits, visits, hstep, ih (number + 1) hnext hwords, visit, hstep]
    rfl

end Session

/-! ### Runs -/

namespace Run

/-- A run is another one behind a shift, and a line without a return to machine zero will not
change this. -/
structure ShiftedBy (d : PerAxis F) (r q : Run (Simulator F) F) : Prop where
  eq_map : q = r.map (Simulator.shifted · d)
  nextAction_ne : r.session.machine.state.nextAction ≠ .goHome

/-- One more line does the same behind a shift. -/
theorem ShiftedBy.step {d : PerAxis F} {r q : Run (Simulator F) F} (h : ShiftedBy d r q)
    {line : List Char}
    (hwords : ∀ w ∈ lineWords (α := F) line, w.gCode? ≠ some 28 ∧ w.gCode? ≠ some 30) :
    ShiftedBy d (r.step line) (q.step line) := by
  obtain ⟨rfl, hnext⟩ := h
  obtain ⟨hstep, hstays⟩ := Session.step_shifted d hnext hwords
  exact ⟨step_map hstep, by rwa [session_step]⟩

/-- A run to its end does the same behind a shift. -/
theorem toEnd_shifted (d : PerAxis F) {r : Run (Simulator F) F} {input : List InputLine}
    (hnext : r.session.machine.state.nextAction ≠ .goHome)
    (hwords : ∀ line, .ok line ∈ input → ∀ w ∈ lineWords (α := F) line,
      w.gCode? ≠ some 28 ∧ w.gCode? ≠ some 30) :
    (r.map (Simulator.shifted · d)).toEnd input =
      ((r.toEnd input).1.map (Simulator.shifted · d), (r.toEnd input).2) := by
  have hinput : List.Forall₂ (InputLine.Corresponds fun line line' => line = line' ∧
      ∀ w ∈ lineWords (α := F) line, w.gCode? ≠ some 28 ∧ w.gCode? ≠ some 30) input input :=
    InputLine.corresponds_self fun line hline => ⟨rfl, hwords line hline⟩
  have hstart : ShiftedBy d r (r.map (Simulator.shifted · d)) := ⟨rfl, hnext⟩
  obtain ⟨hrun, hread⟩ := toEnd_inStep
    (fun h hline => hline.1 ▸ ShiftedBy.step h hline.2)
    (fun h => by rw [h.eq_map]; rfl) hstart hinput
  exact Prod.ext hrun.eq_map hread.symm

/-- **A program does the same behind a shift.**

A machine carries no return to machine zero, and a program has no G28 and no G30.  If the
axes, the work zero and the points in the journal are shifted by a vector, the run of the
program has the same summary, with the same faults, and the same messages, what its last line
asked of the program is the same, it ends for the same reason, and its machine is the shifted
one.  So it is with each line: as far as the program can be read, its lines have the same
reports, ask the same of the program, and leave shifted machines. -/
theorem shifted_run (d : PerAxis F) (s : Session (Simulator F)) (program : List UInt8)
    (hnext : s.machine.state.nextAction ≠ .goHome)
    (hwords : ∀ line, .ok line ∈ inputLines program → ∀ w ∈ lineWords (α := F) line,
      w.gCode? ≠ some 28 ∧ w.gCode? ≠ some 30) :
    ofBytes (s.map (Simulator.shifted · d)) program =
        ((ofBytes s program).1.map (Simulator.shifted · d), (ofBytes s program).2) ∧
      ∀ (number : Nat) (lines : List (List Char)), lines.map .ok <+: inputLines program →
        (s.map (Simulator.shifted · d)).visits number lines =
          (s.visits number lines).map (Visit.map (Simulator.shifted · d)) := by
  refine ⟨toEnd_shifted (r := { session := s }) d hnext hwords, fun number lines hlines => ?_⟩
  exact Session.visits_shifted d number hnext fun line hline =>
    hwords line (hlines.subset (List.mem_map_of_mem hline))

/-- A program with an arc, a switch of units behind it and a new work zero, on a machine whose
axes and work zero are off machine zero by the same vector. -/
theorem shifted_run_of_arc :
    let s := Session.ofMachine (Simulator.ofState .standard (.initial : State ℚ))
    let program := encodeUtf8 "F100 G18 G2 X3 Z4 R5\nG20 G92 X1\nG1 X2\nM0\n".toList
    let d : PerAxis ℚ := ⟨10, -20, 30⟩
    (ofBytes (s.map (Simulator.shifted · d)) program).1 =
        (ofBytes s program).1.map (Simulator.shifted · d) ∧
      (ofBytes s program).1.summary.completed = 4 := by
  intro s program d
  have hwords : ∀ line ∈ textLines "F100 G18 G2 X3 Z4 R5\nG20 G92 X1\nG1 X2\nM0\n".toList,
      ∀ w ∈ lineWords (α := ℚ) line, w.gCode? ≠ some 28 ∧ w.gCode? ≠ some 30 := by
    decide +kernel
  have hrun := (shifted_run d s program (by decide) fun line hline => by
    rw [inputLines_encodeUtf8] at hline
    exact hwords line (by simpa using hline)).1
  exact ⟨congrArg Prod.fst hrun, by decide +kernel⟩

end Run

end NumericControl
