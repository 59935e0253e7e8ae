import NumericControl.Binary64.Arithmetic
import NumericControl.Proofs.Journal
import NumericControl.Proofs.LineWords

/-!
# Cancelled motion

A G80 cancels the motion of its block: the block makes no move, whatever axes it names.
But the mode is cancelled in the proposal alone, and no call hands it to the machine.
So the next block starts from the operation and the mode of the last move, and an axis
word in it moves the machine again.  The cancellation lasts only where no move has been
made before, since then there is no motion to carry.

## Main definitions

* `Word.isMove` — a word asks for a move.

## Main results

* `Proposal.motion_of_mem_plan` — what a plan with a move is made from.
* `Session.isMotion_entries_through` — without a word for a move, and without a motion that
  is carried, no line moves the machine.
* `Session.cancel_lasts_for_its_line` — **what a G80 does, and for how long**.
* `Session.cancel_outlasts_its_line_false` — a move behind a G80 that no word asks for.
-/

namespace NumericControl

variable {α : Type} [Number α]

/-- The G codes that ask for a move. -/
def moveCodes : List Int :=
  [0, 1, 2, 3]

/-- Whether a word asks for a move. -/
def Word.isMove (w : Word α) : Bool :=
  match w.gCode? with
  | some code => moveCodes.contains code
  | none => false

theorem Word.nextAction?_ne_motion {w : Word α} (hw : w.isMove = false) :
    w.nextAction? ≠ some .motion := by
  intro haction
  rw [Word.nextAction?] at haction
  rw [Word.isMove] at hw
  cases hcode : w.gCode? with
  | none =>
    rw [hcode] at haction
    exact absurd haction (by simp)
  | some code =>
    rw [hcode, Option.bind_some] at haction
    simp only [hcode] at hw
    unfold NextAction.ofCode? at haction
    split at haction
    -- the four codes of a move
    · exact absurd hw (by decide)
    · exact absurd hw (by decide)
    · exact absurd hw (by decide)
    · exact absurd hw (by decide)
    -- the codes of other operations, and the others
    all_goals exact absurd haction (by simp)

/-- A plan has a move only if a motion is asked for and not cancelled. -/
theorem Proposal.motion_of_mem_plan {p : Proposal α} {c : Call α} (hc : c ∈ p.plan)
    (hmove : c.isMotion = true) : p.nextAction = .motion ∧ p.motionMode ≠ .cancel := by
  have hasks := (p.mem_plan_iff c).mp hc
  cases c with
  | traverse =>
    obtain ⟨haction, hmode, -⟩ := hasks
    exact ⟨haction, by rw [hmode]; decide⟩
  | feed =>
    obtain ⟨haction, hmode, -⟩ := hasks
    exact ⟨haction, by rw [hmode]; decide⟩
  | arc _ _ _ mode =>
    obtain ⟨haction, hmode, harc, -⟩ := hasks
    refine ⟨haction, ?_⟩
    rw [hmode]
    rintro rfl
    exact absurd harc (by decide)
  | _ => exact absurd hmove (by simp [Call.isMotion])

namespace Session

variable {s : Session (Simulator α)} {raw : List Char}

/-! ### Lines without a move -/

/-- A line whose block asks for no motion, or cancels it, adds no move to the journal. -/
theorem isMotion_entries
    (h : ∀ p, s.IsBlock raw p → p.nextAction ≠ .motion ∨ p.motionMode = .cancel) :
    ∀ e ∈ s.entries raw, e.isMotion = false := by
  intro e he
  obtain ⟨m, c, hc, rfl⟩ := exists_call_of_mem_entries he
  obtain ⟨p, hblock, hplan⟩ := isBlock_of_mem_requests hc
  rw [Simulator.isMotion_entryOf]
  cases hmove : c.isMotion with
  | false => rfl
  | true =>
    obtain ⟨haction, hmode⟩ := Proposal.motion_of_mem_plan hplan hmove
    rcases h p hblock with hno | hcancel
    · exact absurd haction hno
    · exact absurd hcancel hmode

/-- A line without a word for a move carries on what the machine carries. -/
theorem isMotion_entries_of_words (haction : s.machine.state.nextAction ≠ .motion)
    (hwords : ∀ w ∈ lineWords (α := α) raw, w.isMove = false) :
    ∀ e ∈ s.entries raw, e.isMotion = false := by
  refine isMotion_entries fun p hblock => .inl ?_
  rw [hblock.follows.nextAction]
  cases hlast : lastOf Word.nextAction? (lineWords (α := α) raw) with
  | none => exact haction
  | some action =>
    obtain ⟨w, hw, hsays⟩ := exists_of_lastOf Word.nextAction? hlast
    rintro rfl
    exact Word.nextAction?_ne_motion (hwords w hw) hsays

/-- **Without a motion that is carried, no line moves the machine until a word asks for a
move.** -/
theorem isMotion_entries_through (haction : s.machine.state.nextAction ≠ .motion)
    {lines : List (List Char)} {later : List Char}
    (hlines : ∀ line ∈ lines ++ [later], ∀ w ∈ lineWords (α := α) line, w.isMove = false) :
    ∀ e ∈ (s.through lines).entries later, e.isMotion = false := by
  -- each line leaves the operation that is carried
  induction lines generalizing s with
  | nil => exact isMotion_entries_of_words haction (hlines later (by simp))
  | cons line lines ih =>
    have hno := isMotion_entries_of_words haction (hlines line (by simp))
    obtain ⟨hnext, -⟩ := (s.writes_entries line).motion_eq hno
    exact ih (s := (s.step line).1) (hnext ▸ haction)
      fun line' hline' => hlines line' (by simp only [List.cons_append, List.mem_cons, hline', or_true])

/-! ### Lines that cancel the motion -/

/-- **A G80 lasts for its line.**

A line of which the last word for a motion mode is a G80 makes no move, and it leaves the
operation and the mode that the machine carries.  So the lines behind it make no move
before a word asks for one, if no motion was carried; and a line that names neither an
operation nor a mode asks for the motion that was carried before the G80. -/
theorem cancel_lasts_for_its_line (s : Session (Simulator α)) {raw : List Char}
    (hcancel : lastOf Word.motionMode? (lineWords (α := α) raw) = some .cancel) :
    (∀ e ∈ s.entries raw, e.isMotion = false) ∧
    (s.step raw).1.machine.state.nextAction = s.machine.state.nextAction ∧
    (s.step raw).1.machine.state.motionMode = s.machine.state.motionMode ∧
    (s.machine.state.nextAction ≠ .motion → ∀ (lines : List (List Char)) (later : List Char),
      (∀ line ∈ lines ++ [later], ∀ w ∈ lineWords (α := α) line, w.isMove = false) →
      ∀ e ∈ ((s.step raw).1.through lines).entries later, e.isMotion = false) ∧
    (∀ next p, (s.step raw).1.IsBlock next p →
      lastOf Word.nextAction? (lineWords (α := α) next) = none →
      lastOf Word.motionMode? (lineWords (α := α) next) = none →
      p.nextAction = s.machine.state.nextAction ∧ p.motionMode = s.machine.state.motionMode) := by
  have hno : ∀ e ∈ s.entries raw, e.isMotion = false := by
    refine isMotion_entries fun p hblock => .inr ?_
    rw [hblock.follows.motionMode, hcancel]
    rfl
  obtain ⟨haction, hmode, -⟩ := (s.writes_entries raw).motion_eq hno
  refine ⟨hno, haction, hmode, fun hcarried lines later hlines => ?_, ?_⟩
  · exact isMotion_entries_through (haction ▸ hcarried) hlines
  · intro next p hblock hnoAction hnoMode
    have hseed := hblock.follows
    constructor
    · rw [hseed.nextAction, hnoAction, ← haction]
      rfl
    · rw [hseed.motionMode, hnoMode, ← hmode]
      rfl

/-- Behind a traverse, a G80 that names an axis makes no move, and the traverse is still
what the machine carries. -/
theorem cancel_lasts_for_its_line_behind_traverse :
    let s := (ofMachine (Simulator.ofState .standard (.initial : State Binary64))).through
      ["G0 X1".toList]
    lastOf Word.motionMode? (lineWords (α := Binary64) "G80 X5".toList) = some .cancel ∧
      (∀ e ∈ s.entries "G80 X5".toList, e.isMotion = false) ∧
      (s.step "G80 X5".toList).1.machine.state.nextAction = .motion ∧
      (s.step "G80 X5".toList).1.machine.state.motionMode = .straightTraverse := by
  intro s
  have hcancel : lastOf Word.motionMode? (lineWords (α := Binary64) "G80 X5".toList)
      = some .cancel := by decide +kernel
  obtain ⟨hno, haction, hmode, -⟩ := cancel_lasts_for_its_line s hcancel
  have hcarried : s.machine.state.nextAction = .motion := by decide +kernel
  have htraverse : s.machine.state.motionMode = .straightTraverse := by decide +kernel
  exact ⟨hcancel, hno, haction.trans hcarried, hmode.trans htraverse⟩

/-- A G80 does not outlast its line: behind a traverse and a G80 an axis word moves the
machine, though no word asks for a move. -/
theorem cancel_outlasts_its_line_false :
    ¬ ∀ (earlier between : List (List Char)) (raw later : List Char),
      let s := (ofMachine (Simulator.ofState .standard (.initial : State Binary64))).through earlier
      (s.step raw).2.result = .ok .ok →
      lastOf Word.motionMode? (lineWords (α := Binary64) raw) = some .cancel →
      (∀ line ∈ between ++ [later], ∀ w ∈ lineWords (α := Binary64) line, w.isMove = false) →
      ∀ e ∈ ((s.step raw).1.through between).entries later, e.isMotion = false := by
  intro h
  have hno := h ["G0 X1".toList] [] "G80".toList "X5".toList
    (eq_ok_of_toOption (by decide +kernel)) (by decide +kernel) (by decide +kernel)
  have hmove : ((((ofMachine (Simulator.ofState .standard (.initial : State Binary64))).through
      ["G0 X1".toList]).step "G80".toList).1.entries "X5".toList).any Entry.isMotion = true := by
    decide +kernel
  obtain ⟨e, he, hmotion⟩ := List.any_eq_true.mp hmove
  exact absurd ((hno e he).symm.trans hmotion) (by decide)

end Session

end NumericControl
