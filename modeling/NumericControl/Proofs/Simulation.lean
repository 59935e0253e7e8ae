import Mathlib.Data.List.Forall2
import NumericControl.Proofs.Line
import NumericControl.Run

/-!
# Simulations

Two machines that read alike and refuse the same calls cannot be told apart by the
lines that are run on them.  A simulation is a relation that says so of one call, and
here it is carried over blocks, lines and whole runs.

One of two runs may have begun earlier: it is then the run of what came before,
followed by the other.

## Main definitions

* `Machine.Keeps` — a property of machines that no call takes away.
* `InputLine.Corresponds` — lines of two inputs that correspond.
* `Simulation` — a relation of machines that are alike within a block.
* `Simulation.Between` — two machines are alike as soon as a block begins.
* `Summary.followedBy` — what is known of one run after another.
* `Simulation.Continues` — a run is another one with something before it.

## Main results

* `Run.keeps_toEnd` — such a property lasts for a run.
* `Run.toEnd_inStep` — two runs that stay in step do so to their ends.
* `Simulation.step` — a line does the same on two machines.
* `Simulation.Continues.toEnd` — and so does a run.
-/

namespace NumericControl

/-! ### What a machine keeps -/

/-- A property that a machine keeps, whatever it is asked for. -/
structure Machine.Keeps {σ α : Type} [Machine σ α] (P : σ → Prop) : Prop where
  beginBlock : ∀ {m}, P m → P (Machine.beginBlock m)
  perform : ∀ {m} (c : Call α), P m → P (Machine.perform m c).1

namespace Machine.Keeps

variable {σ α : Type} [Machine σ α] {P : σ → Prop} (hP : Machine.Keeps P)

include hP

theorem run {m : σ} (hm : P m) (calls : List (Call α)) : P (Machine.run m calls).1 := by
  induction calls generalizing m with
  | nil => exact hm
  | cons c calls ih =>
    cases h : (Machine.perform m c).2 with
    | none =>
      rw [Machine.run_cons_of_accepted calls h]
      exact ih (hP.perform c hm)
    | some fault =>
      rw [Machine.run_cons_of_refused calls h]
      exact hP.perform c hm

variable [Number α]

theorem step {s : Session σ} (hs : P s.machine) (raw : List Char) :
    P (s.step raw).1.machine := by
  obtain ⟨requests, -, hexit⟩ := s.exit_step raw
  generalize (s.step raw).1 = s' at hexit ⊢
  generalize (s.step raw).2 = report at hexit
  cases hexit with
  | notNormal | empty | quit => exact hs
  | notBlock => exact hP.beginBlock hs
  | refused | executed => exact hP.run (hP.beginBlock hs) _

end Machine.Keeps

/-! ### Steps of a run -/

namespace Run

variable {σ α : Type} [Number α] [Machine σ α]

/-- The summary after a line that comes to a given result and asks for a given flow. -/
def noted (summary : Summary α) (line : List Char) (flow : Option ProgramFlow) :
    Except (BlockFault α) Completion → Summary α
  | .error fault =>
    { summary with
      lines := summary.lines + 1
      failures := summary.failures ++ [⟨summary.lines + 1, line, fault⟩] }
  | .ok .quit =>
    { summary with
      lines := summary.lines + 1
      completed := summary.completed + 1
      stop := some .quit }
  | .ok .ok =>
    { summary with
      lines := summary.lines + 1
      completed := summary.completed + 1
      pauses := if flow = some .stop then summary.pauses + 1 else summary.pauses
      stop := if flow = some .finish then some .programEnd else summary.stop }

/-- A line of a run is a line of its session, which the summary notes. -/
theorem step_eq (r : Run σ α) (line : List Char) :
    r.step line =
      { session := (r.session.step line).1
        messages := r.messages ++ (r.session.step line).2.message.toList
        summary := noted r.summary line (r.session.step line).1.flow
          (r.session.step line).2.result } := by
  rcases h : r.session.step line with ⟨s, message, fault | (_ | _)⟩
  · simp [step, h, noted]
  · rcases hf : s.flow with _ | (_ | _) <;> simp [step, h, noted, hf]
  · simp [step, h, noted]

@[simp] theorem session_step (r : Run σ α) (line : List Char) :
    (r.step line).session = (r.session.step line).1 := by
  rw [step_eq]

/-- A run goes on behind a line that does not stop it. -/
theorem toEnd_cons_of_goesOn {r : Run σ α} {line : List Char} (rest : List InputLine)
    (h : (r.step line).summary.stop = none) :
    r.toEnd (.ok line :: rest) = (r.step line).toEnd rest := by
  rw [toEnd, h]
  rfl

theorem toEnd_cons_of_stops {r : Run σ α} {line : List Char} {stop : Stop}
    (rest : List InputLine) (h : (r.step line).summary.stop = some stop) :
    r.toEnd (.ok line :: rest) = (r.step line, none) := by
  rw [toEnd, h]
  rfl

/-- **A run that is not stopped goes on where its input goes on.** -/
theorem toEnd_append {r : Run σ α} {first : List InputLine} (rest : List InputLine)
    (hread : (r.toEnd first).2 = none) (hstop : (r.toEnd first).1.summary.stop = none) :
    r.toEnd (first ++ rest) = (r.toEnd first).1.toEnd rest := by
  induction first generalizing r with
  | nil => rfl
  | cons input first ih =>
    cases input with
    | error fault => exact absurd hread (by simp [toEnd])
    | ok line =>
      cases h : (r.step line).summary.stop with
      | some stop =>
        -- a run that is stopped here would still be so at its end
        rw [toEnd_cons_of_stops first h] at hstop
        exact absurd (h.symm.trans hstop) (by simp)
      | none =>
        rw [toEnd_cons_of_goesOn first h] at hread hstop ⊢
        rw [List.cons_append, toEnd_cons_of_goesOn _ h]
        exact ih hread hstop

/-- A run that is stopped does not depend on what follows in its input. -/
theorem toEnd_append_of_stopped {r : Run σ α} {first : List InputLine} (rest : List InputLine)
    (hgoesOn : r.summary.stop = none) (hread : (r.toEnd first).2 = none)
    (hstop : (r.toEnd first).1.summary.stop ≠ none) :
    r.toEnd (first ++ rest) = r.toEnd first := by
  induction first generalizing r with
  | nil => exact absurd hgoesOn hstop
  | cons input first ih =>
    cases input with
    | error fault => exact absurd hread (by simp [toEnd])
    | ok line =>
      cases h : (r.step line).summary.stop with
      | some stop => rw [List.cons_append, toEnd_cons_of_stops _ h, toEnd_cons_of_stops _ h]
      | none =>
        rw [toEnd_cons_of_goesOn first h] at hread hstop ⊢
        rw [List.cons_append, toEnd_cons_of_goesOn _ h]
        exact ih h hread hstop

/-- Lines that can be read are read as far as the run goes. -/
theorem snd_toEnd_map_ok (r : Run σ α) (lines : List (List Char)) :
    (r.toEnd (lines.map .ok)).2 = none := by
  induction lines generalizing r with
  | nil => rfl
  | cons line lines ih =>
    rw [List.map_cons]
    cases h : (r.step line).summary.stop with
    | some stop => rw [toEnd_cons_of_stops _ h]
    | none =>
      rw [toEnd_cons_of_goesOn _ h]
      exact ih _

/-- What a machine keeps lasts for a run. -/
theorem keeps_toEnd {P : σ → Prop} (hP : Machine.Keeps P) {r : Run σ α}
    (hr : P r.session.machine) (input : List InputLine) :
    P (r.toEnd input).1.session.machine := by
  induction input generalizing r with
  | nil => exact hr
  | cons input rest ih =>
    cases input with
    | error fault => exact hr
    | ok line =>
      have hline : P (r.step line).session.machine := by
        rw [session_step]
        exact hP.step hr line
      cases h : (r.step line).summary.stop with
      | some stop =>
        rw [toEnd_cons_of_stops rest h]
        exact hline
      | none =>
        rw [toEnd_cons_of_goesOn rest h]
        exact ih hline

end Run

/-! ### Two runs in step -/

/-- Two lines of input correspond: both can be read, and then the lines do, or neither can be,
for the same reason. -/
inductive InputLine.Corresponds (L : List Char → List Char → Prop) : InputLine → InputLine → Prop
  | line {line line' : List Char} : L line line' → Corresponds L (.ok line) (.ok line')
  | fault (fault : InputFault) : Corresponds L (.error fault) (.error fault)

/-- An input corresponds to itself as far as its lines do. -/
theorem InputLine.corresponds_self {L : List Char → List Char → Prop} {input : List InputLine}
    (h : ∀ line, .ok line ∈ input → L line line) :
    List.Forall₂ (InputLine.Corresponds L) input input := by
  refine List.forall₂_same.mpr fun i hi => ?_
  cases i with
  | error fault => exact .fault fault
  | ok line => exact .line (h line hi)

/-- **Two runs that stay in step line by line do so to their ends**: a relation that lines keep,
and for which both runs are stopped or neither is, holds at the ends as well. -/
theorem Run.toEnd_inStep {σ τ α β : Type} [Number α] [Machine σ α] [Number β] [Machine τ β]
    {R : Run σ α → Run τ β → Prop} {L : List Char → List Char → Prop}
    (hstep : ∀ {r q line line'}, R r q → L line line' → R (r.step line) (q.step line'))
    (hstop : ∀ {r q}, R r q → r.summary.stop = q.summary.stop)
    {r : Run σ α} {q : Run τ β} (h : R r q) {input input' : List InputLine}
    (hinput : List.Forall₂ (InputLine.Corresponds L) input input') :
    R (r.toEnd input).1 (q.toEnd input').1 ∧ (r.toEnd input).2 = (q.toEnd input').2 := by
  induction hinput generalizing r q with
  | nil => exact ⟨h, rfl⟩
  | @cons i i' rest rest' hhead _ ih =>
    cases hhead with
    | fault fault => exact ⟨h, rfl⟩
    | @line line line' hline =>
      have hone := hstep h hline
      -- one run stops where the other does
      have hsame := hstop hone
      cases hr : (r.step line).summary.stop with
      | some stop =>
        rw [toEnd_cons_of_stops rest hr, toEnd_cons_of_stops rest' (hsame.symm.trans hr)]
        exact ⟨hone, rfl⟩
      | none =>
        rw [toEnd_cons_of_goesOn rest hr, toEnd_cons_of_goesOn rest' (hsame.symm.trans hr)]
        exact ih hone

/-! ### Machines that are alike -/

/-- A relation of machines that are alike within a block: they read the same, they
refuse the same calls for the same reasons, and they stay alike. -/
structure Simulation (σ τ α : Type) [Machine σ α] [Machine τ α] where
  /-- The relation. -/
  Alike : σ → τ → Prop
  nextAction : ∀ {m n}, Alike m n → Machine.nextAction m = Machine.nextAction n
  motionMode : ∀ {m n}, Alike m n → Machine.motionMode m = Machine.motionMode n
  position : ∀ {m n}, Alike m n → Machine.position m = Machine.position n
  beginBlock : ∀ {m n}, Alike m n → Alike (Machine.beginBlock m) (Machine.beginBlock n)
  perform : ∀ {m n} (c : Call α), Alike m n →
    Alike (Machine.perform m c).1 (Machine.perform n c).1
  refusal : ∀ {m n} (c : Call α), Alike m n →
    (Machine.perform m c).2 = (Machine.perform n c).2

namespace Simulation

variable {σ τ α : Type} [Machine σ α] [Machine τ α] (S : Simulation σ τ α)

/-- Two machines are alike as soon as a block begins. -/
def Between (m : σ) (n : τ) : Prop :=
  S.Alike (Machine.beginBlock m) (Machine.beginBlock n)

variable {S} {m : σ} {n : τ}

theorem between_of_alike (h : S.Alike m n) : S.Between m n :=
  S.beginBlock h

/-! ### Blocks -/

/-- Machines that are alike seed the same proposal. -/
theorem ofMachine_eq (h : S.Alike m n) : Proposal.ofMachine m = Proposal.ofMachine n := by
  rw [Proposal.ofMachine, Proposal.ofMachine, S.nextAction h, S.motionMode h, S.position h]

theorem run (h : S.Alike m n) (calls : List (Call α)) :
    S.Alike (Machine.run m calls).1 (Machine.run n calls).1 ∧
      (Machine.run m calls).2 = (Machine.run n calls).2 := by
  induction calls generalizing m n with
  | nil => exact ⟨h, rfl⟩
  | cons c calls ih =>
    have hc := S.refusal c h
    cases hm : (Machine.perform m c).2 with
    | none =>
      rw [Machine.run_cons_of_accepted calls hm, Machine.run_cons_of_accepted calls (hc ▸ hm)]
      exact ih (S.perform c h)
    | some fault =>
      rw [Machine.run_cons_of_refused calls hm, Machine.run_cons_of_refused calls (hc ▸ hm)]
      exact ⟨S.perform c h, rfl⟩

/-! ### Lines -/

variable [Number α] {s : Session σ} {t : Session τ}

theorem proposal_eq (h : S.Between s.machine t.machine) (command : List Char) :
    s.proposal command = t.proposal command := by
  rw [Session.proposal, Session.proposal, Proposal.ofCommand, Proposal.ofCommand, ofMachine_eq h]

theorem performed (h : S.Between s.machine t.machine) (p : Proposal α) :
    S.Alike (s.performed p).1 (t.performed p).1 ∧ (s.performed p).2 = (t.performed p).2 :=
  run h p.plan

/-- **A line does the same on two machines that are alike between blocks.**  It comes
to the same, it asks the same of the program, and it counts on both or on neither. -/
theorem step (h : S.Between s.machine t.machine) (raw : List Char) :
    S.Between (s.step raw).1.machine (t.step raw).1.machine ∧
      (s.step raw).1.flow = (t.step raw).1.flow ∧
      (∃ more, (s.step raw).1.blocks = s.blocks + more ∧
        (t.step raw).1.blocks = t.blocks + more) ∧
      (s.step raw).2 = (t.step raw).2 := by
  obtain ⟨requests, -, hexit⟩ := s.exit_step raw
  generalize (s.step raw).1 = s' at hexit ⊢
  generalize (s.step raw).2 = report at hexit ⊢
  -- the second session takes the exit that the first one takes
  cases hexit with
  | notNormal hn =>
    rw [Session.step_of_notNormal hn]
    exact ⟨h, rfl, ⟨0, rfl, rfl⟩, rfl⟩
  | empty hn he =>
    rw [Session.step_of_isEmpty hn he]
    exact ⟨h, rfl, ⟨0, rfl, rfl⟩, rfl⟩
  | quit hn hq =>
    rw [Session.step_of_isQuit hn hq]
    exact ⟨h, rfl, ⟨0, rfl, rfl⟩, rfl⟩
  | notBlock hn hb hp =>
    have hpt := (proposal_eq h _).symm.trans hp
    rw [Session.step_of_isCommand hn hb, Session.runCommand_of_fault hpt]
    exact ⟨between_of_alike h, rfl, ⟨0, rfl, rfl⟩, rfl⟩
  | @refused b p fault hn hb hp hr =>
    have hpt := (proposal_eq h _).symm.trans hp
    obtain ⟨halike, hfault⟩ := performed h p
    rw [Session.step_of_isCommand hn hb,
      Session.runCommand_of_refused hpt (hfault.symm.trans hr)]
    exact ⟨between_of_alike halike, rfl, ⟨0, rfl, rfl⟩, rfl⟩
  | @executed b p hn hb hp hr =>
    have hpt := (proposal_eq h _).symm.trans hp
    obtain ⟨halike, hfault⟩ := performed h p
    rw [Session.step_of_isCommand hn hb,
      Session.runCommand_of_performed hpt (hfault.symm.trans hr)]
    exact ⟨between_of_alike halike, rfl, ⟨1, rfl, rfl⟩, rfl⟩

end Simulation

/-! ### Runs, one after another -/

/-- A failure as it is counted behind a number of lines. -/
def Failure.behind {α : Type} (lines : Nat) (f : Failure α) : Failure α :=
  { f with lineNumber := lines + f.lineNumber }

/-- What is known of a run and of another one that goes on behind it. -/
def Summary.followedBy {α : Type} (a b : Summary α) : Summary α where
  lines := a.lines + b.lines
  completed := a.completed + b.completed
  pauses := a.pauses + b.pauses
  failures := a.failures ++ b.failures.map (Failure.behind a.lines)
  stop := b.stop

/-- A line is noted behind an earlier run as it is noted by itself. -/
theorem Run.noted_followedBy {α : Type} (a b : Summary α) (line : List Char)
    (flow : Option ProgramFlow) (result : Except (BlockFault α) Completion) :
    noted (a.followedBy b) line flow result = a.followedBy (noted b line flow result) := by
  rcases result with fault | (_ | _)
  · simp [noted, Summary.followedBy, Failure.behind, Nat.add_assoc]
  · simp only [noted, Summary.followedBy]
    split <;> simp [Nat.add_assoc]
  · simp [noted, Summary.followedBy, Nat.add_assoc]

namespace Simulation

variable {σ τ α : Type} [Machine σ α] [Machine τ α] (S : Simulation σ τ α)

/-- A run is another one with a first run before it. -/
structure Continues (first r : Run σ α) (q : Run τ α) : Prop where
  between : S.Between r.session.machine q.session.machine
  blocks : r.session.blocks = first.session.blocks + q.session.blocks
  messages : r.messages = first.messages ++ q.messages
  summary : r.summary = first.summary.followedBy q.summary

namespace Continues

variable {S} {first r : Run σ α} {q : Run τ α}

/-- A run continues where it stands on a machine that is alike, begun anew. -/
theorem start {n : τ} (h : S.Between first.session.machine n)
    (hstop : first.summary.stop = none) :
    S.Continues first first { session := .ofMachine n } where
  between := h
  blocks := rfl
  messages := (List.append_nil _).symm
  summary := by
    simp only [Summary.followedBy, Nat.add_zero, List.map_nil, List.append_nil, ← hstop]

variable [Number α]

theorem step (h : S.Continues first r q) (line : List Char) :
    S.Continues first (r.step line) (q.step line) := by
  obtain ⟨hbetween, hflow, ⟨more, hr, hq⟩, hreport⟩ := Simulation.step h.between line
  rw [Run.step_eq, Run.step_eq]
  refine ⟨hbetween, ?_, ?_, ?_⟩
  · rw [hr, hq, h.blocks, Nat.add_assoc]
  · rw [hreport, h.messages, List.append_assoc]
  · rw [hreport, hflow, h.summary, Run.noted_followedBy]

/-- **A run that continues another one does so to its end.** -/
theorem toEnd (h : S.Continues first r q) (input : List InputLine) :
    S.Continues first (r.toEnd input).1 (q.toEnd input).1 ∧
      (r.toEnd input).2 = (q.toEnd input).2 := by
  refine Run.toEnd_inStep (R := S.Continues first) (L := Eq) ?_ ?_ h
    (InputLine.corresponds_self fun _ _ => rfl)
  · rintro r q line _ h rfl
    exact h.step line
  · intro r q h
    rw [h.summary, Summary.followedBy]

end Continues

end Simulation

end NumericControl
