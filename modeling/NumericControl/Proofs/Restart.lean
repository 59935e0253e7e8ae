import NumericControl.Binary64.Arithmetic
import NumericControl.Proofs.Journal
import NumericControl.Proofs.Lines
import NumericControl.Proofs.Simulation
import NumericControl.Proofs.StateStore

/-!
# Restarts are invisible

Between two lines the simulated machine is its state and its journal: what it keeps of a
switch of units is forgotten when the next block begins, and nothing it does depends on
its journal.  So a program may be cut in two behind any line, and the second part run
on a machine that starts from the state that the first part left in a file.

## Main definitions

* `Simulator.withEarlier` — a machine whose journal goes back further.
* `Simulation.earlier` — the machines with the longer and the shorter journal are alike.
* `Run.ofProgram` — the run of a program from a given state.

## Main results

* `Simulator.perform_withEarlier` — a call does not depend on the journal.
* `Run.restart_invisible` — **a program that is cut by a restart does what the whole one
  does**.
-/

namespace NumericControl

/-! ### The journal is written only -/

namespace Simulator

variable {α : Type}

/-- The machine with earlier entries in its journal. -/
def withEarlier (earlier : Array (Entry α)) (s : Simulator α) : Simulator α :=
  { s with journal := earlier ++ s.journal }

variable [Number α] (earlier : Array (Entry α)) (s : Simulator α) (c : Call α)

theorem refusal?_withEarlier : (s.withEarlier earlier).refusal? c = s.refusal? c := by
  cases c <;> rfl

theorem accepted_withEarlier :
    (s.withEarlier earlier).accepted c = (s.accepted c).withEarlier earlier := by
  have hentry : (s.withEarlier earlier).entryOf c = s.entryOf c := by cases c <;> rfl
  have hcarried : (s.withEarlier earlier).carriedBehind c = s.carriedBehind c := by
    cases c <;> rfl
  simp only [accepted, hentry, hcarried]
  simp only [withEarlier, Array.append_push]

/-- **A call does not depend on the journal**, which only grows. -/
theorem perform_withEarlier :
    (s.withEarlier earlier).perform c =
      ((s.perform c).1.withEarlier earlier, (s.perform c).2) := by
  rw [perform_eq, perform_eq, refusal?_withEarlier]
  cases s.refusal? c with
  | none => rw [accepted_withEarlier]
  | some fault => rfl

/-- The limits of a machine stay what they are. -/
theorem limits_perform : (s.perform c).1.limits = s.limits := by
  rw [perform_eq]
  cases s.refusal? c <;> rfl

theorem keeps_limits (limits : Limits α) :
    Machine.Keeps fun s : Simulator α => s.limits = limits where
  beginBlock h := h
  perform c h := (limits_perform _ c).trans h

end Simulator

/-- A machine with earlier entries in its journal is like the one without them. -/
def Simulation.earlier {α : Type} [Number α] (earlier : Array (Entry α)) :
    Simulation (Simulator α) (Simulator α) α where
  Alike m n := m = n.withEarlier earlier
  nextAction := by rintro m n rfl; rfl
  motionMode := by rintro m n rfl; rfl
  position := by rintro m n rfl; rfl
  beginBlock := by rintro m n rfl; rfl
  perform {m n} c := by
    rintro rfl
    change ((n.withEarlier earlier).perform c).1 = (n.perform c).1.withEarlier earlier
    rw [Simulator.perform_withEarlier]
  refusal {m n} c := by
    rintro rfl
    change ((n.withEarlier earlier).perform c).2 = (n.perform c).2
    rw [Simulator.perform_withEarlier]

namespace Simulator

variable {α : Type} [Number α]

/-- A machine that starts from the state of another one is like it, but for its journal,
as soon as a block begins. -/
theorem between_ofState (s : Simulator α) :
    (Simulation.earlier s.journal).Between s (ofState s.limits s.state) := by
  change s.beginBlock = (ofState s.limits s.state).beginBlock.withEarlier s.journal
  simp only [beginBlock, ofState, withEarlier, Array.append_empty]

/-- Machines that are alike once a block begins are so already, but for the readings of
the last block. -/
theorem state_of_between {earlier : Array (Entry α)} {m n : Simulator α}
    (h : (Simulation.earlier earlier).Between m n) :
    m.state = n.state ∧ m.journal = earlier ++ n.journal := by
  have hbegun : m.beginBlock = n.beginBlock.withEarlier earlier := h
  have hstate := congrArg state hbegun
  have hjournal := congrArg journal hbegun
  exact ⟨hstate, hjournal⟩

end Simulator

/-! ### Programs -/

/-- The run of a program on a machine that starts from a given state, and why its input
cannot be read to the end. -/
def Run.ofProgram (limits : Limits Binary64) (state : State Binary64) (program : List Char) :
    Run (Simulator Binary64) Binary64 × Option InputFault :=
  toEnd { session := .ofMachine (.ofState limits state) } (inputLines (encodeUtf8 program))

/-- The whole of a text can be read. -/
theorem Run.toEnd_inputLines_encodeUtf8 {σ α : Type} [Number α] [Machine σ α] (r : Run σ α)
    (text : List Char) : (r.toEnd (inputLines (encodeUtf8 text))).2 = none := by
  rw [inputLines_encodeUtf8]
  exact r.snd_toEnd_map_ok _

/-- The lines of a program in two parts, of which the first is ended. -/
theorem inputLines_encodeUtf8_append {first : List Char} (rest : List Char)
    (hfirst : first = [] ∨ first.getLast? = some '\n') :
    inputLines (encodeUtf8 (first ++ rest)) =
      inputLines (encodeUtf8 first) ++ inputLines (encodeUtf8 rest) := by
  rw [inputLines_encodeUtf8, inputLines_encodeUtf8, inputLines_encodeUtf8, textLines,
    splitLines_append (by decide) rest hfirst, List.map_append]
  rfl

/-- **A restart is invisible.**

A program is cut in two behind a line, and its first part is run without being stopped.
The state of the machine is saved, and loaded again, and the second part is run from it
on a new machine in a new session.  Then all three runs read their programs to the end,
and the run of the whole program ends in the same state as the second part, to the last
bit.  What was delivered, journalled, counted and noted in the two parts makes up what
the whole run has to show. -/
theorem Run.restart_invisible (limits : Limits Binary64) (state : State Binary64)
    {first : List Char} (second : List Char) {t t' : FileTree} {path : List Char} {now : UInt64}
    (hended : first = [] ∨ first.getLast? = some '\n')
    (hstop : (ofProgram limits state first).1.summary.stop = none)
    (hsave : saveState t path (ofProgram limits state first).1.session.machine.state now
      = (t', none)) :
    ∃ loaded a b whole,
      (loadState t' path).map StoredState.state? = .ok (some loaded) ∧
      ofProgram limits state first = (a, none) ∧
      ofProgram limits loaded second = (b, none) ∧
      ofProgram limits state (first ++ second) = (whole, none) ∧
      whole.session.machine.state = b.session.machine.state ∧
      whole.session.machine.journal = a.session.machine.journal ++ b.session.machine.journal ∧
      whole.session.blocks = a.session.blocks + b.session.blocks ∧
      whole.messages = a.messages ++ b.messages ∧
      whole.summary = a.summary.followedBy b.summary := by
  have hread (state : State Binary64) (program : List Char) :
      ofProgram limits state program = ((ofProgram limits state program).1, none) :=
    Prod.ext rfl (toEnd_inputLines_encodeUtf8 _ _)
  generalize ha : (ofProgram limits state first).1 = a at hstop hsave
  have hload := loadState_of_saveState (congrArg Prod.snd hsave)
  rw [hsave] at hload
  -- the whole run goes on where the first part ends
  have hwhole : ofProgram limits state (first ++ second)
      = a.toEnd (inputLines (encodeUtf8 second)) := by
    rw [ofProgram, inputLines_encodeUtf8_append second hended, ← ha]
    rw [← ha] at hstop
    exact toEnd_append _ (toEnd_inputLines_encodeUtf8 _ _) hstop
  -- and there its machine is like a new one with the state that was loaded
  have hlimits : a.session.machine.limits = limits := by
    rw [← ha]
    exact keeps_toEnd (Simulator.keeps_limits limits) rfl _
  have hbetween := a.session.machine.between_ofState
  rw [hlimits] at hbetween
  obtain ⟨hcont, -⟩ := (Simulation.Continues.start hbetween hstop).toEnd
    (inputLines (encodeUtf8 second))
  obtain ⟨hstate, hjournal⟩ := Simulator.state_of_between hcont.between
  refine ⟨a.session.machine.state, a, (ofProgram limits a.session.machine.state second).1,
    (ofProgram limits state (first ++ second)).1, ?_, ?_, hread _ _, hread _ _, ?_⟩
  · rw [hload]
    rfl
  · rw [← ha]
    exact hread _ _
  · rw [hwhole]
    exact ⟨hstate, hjournal, hcont.blocks, hcont.messages, hcont.summary⟩

/-- A feed, a restart, and a move that repeats the feed in the mode and at the rate that
were saved. -/
theorem Run.restart_invisible_behind_feed :
    ∃ t' loaded a b whole,
      saveState (.empty []) "state".toList
        (ofProgram .standard .initial "G1 X1 F100\n".toList).1.session.machine.state 7 = (t', none) ∧
      (loadState t' "state".toList).map StoredState.state? = .ok (some loaded) ∧
      ofProgram .standard .initial "G1 X1 F100\n".toList = (a, none) ∧
      ofProgram .standard loaded "X2".toList = (b, none) ∧
      ofProgram .standard .initial ("G1 X1 F100\n".toList ++ "X2".toList) = (whole, none) ∧
      whole.session.machine.state = b.session.machine.state ∧
      whole.summary = a.summary.followedBy b.summary := by
  have hsave : (saveState (.empty []) "state".toList
      (ofProgram .standard .initial "G1 X1 F100\n".toList).1.session.machine.state 7).2 = none := by
    decide +kernel
  obtain ⟨loaded, a, b, whole, hload, ha, hb, hwhole, hstate, -, -, -, hsummary⟩ :=
    restart_invisible .standard .initial "X2".toList
      (.inr (by decide)) (by decide +kernel) (Prod.ext rfl hsave)
  exact ⟨_, loaded, a, b, whole, Prod.ext rfl hsave, hload, ha, hb, hwhole, hstate, hsummary⟩

end NumericControl
