import Mathlib.Data.List.Forall2
import NumericControl.Proofs.ShiftedOrigin

/-!
# The distance mode is recorded only

Whether distances are absolute or incremental is kept in the state of the machine, and saved
with it, but nothing that the machine or the interpreter does depends on it: points are read as
absolute behind a G91 too.  Two machines that differ in the distance mode alone read the same
and refuse the same calls, and what they accept leaves them to differ in it alone, or not even
in that: a call that sets the distance mode sets the same one on both.

Such machines are asked for the same, as are any two that cannot be told apart.  So the distance
mode behind some lines is the last one that they asked for, or the one before them if they asked
for none, and everything else behind them is what it would be in the other mode.

## Main definitions

* `Simulator.withDistanceMode` — a machine in another distance mode.
* `Simulation.distanceMode` — machines that differ in the distance mode alone are alike.
* `Simulation.traced` — machines with a record are alike if the records agree.
* `Session.requestsOf` — what some lines ask of the machine.
* `Request.modeBehind` — the distance mode behind a request.

## Main results

* `Simulator.perform_withDistanceMode` — what a call does in another distance mode.
* `Simulation.requests_eq` — machines that are alike are asked for the same.
* `Session.step_withDistanceMode` — what a line does in another distance mode.
* `Run.distance_mode_recorded_only` — **so it is with a program**.
-/

namespace NumericControl

variable {α : Type}

/-! ### One call -/

/-- The distance mode behind a request. -/
def Request.modeBehind (mode : DistanceMode) : Request α → DistanceMode
  | .call (.distanceMode mode) => mode
  | _ => mode

namespace Simulator

/-- The machine in another distance mode. -/
def withDistanceMode (mode : DistanceMode) (m : Simulator α) : Simulator α :=
  { m with state := { m.state with distanceMode := mode } }

variable [Number α] (mode : DistanceMode) (m : Simulator α) (c : Call α)

theorem refusal?_withDistanceMode : (m.withDistanceMode mode).refusal? c = m.refusal? c := by
  cases c <;> rfl

/-- What is accepted writes the same in another distance mode, and leaves the mode unless it
sets it. -/
theorem accepted_withDistanceMode :
    (m.withDistanceMode mode).accepted c =
      (m.accepted c).withDistanceMode (Request.modeBehind mode (.call c)) := by
  cases c <;> rfl

/-- **What a call does in another distance mode.** -/
theorem perform_withDistanceMode :
    (m.withDistanceMode mode).perform c =
      ((m.perform c).1.withDistanceMode (Request.modeBehind mode (.call c)), (m.perform c).2) := by
  rw [perform_eq, perform_eq, refusal?_withDistanceMode]
  cases h : m.refusal? c with
  | none => rw [accepted_withDistanceMode]
  | some fault =>
    -- what sets the mode is not refused
    cases c with
    | distanceMode => exact absurd h (by simp [refusal?])
    | _ => rfl

/-- What requests do in another distance mode, one after another. -/
theorem respondAll_withDistanceMode (requests : List (Request α)) :
    Machine.respondAll (m.withDistanceMode mode) requests =
      (Machine.respondAll m requests).withDistanceMode
        (requests.foldl Request.modeBehind mode) := by
  induction requests generalizing m mode with
  | nil => rfl
  | cons request requests ih =>
    have hone : Machine.respond (m.withDistanceMode mode) request =
        (Machine.respond m request).withDistanceMode (Request.modeBehind mode request) := by
      cases request with
      | beginBlock => rfl
      | call c => exact congrArg Prod.fst (m.perform_withDistanceMode mode c)
    change Machine.respondAll (Machine.respond _ request) requests = _
    rw [hone, ih]
    rfl

end Simulator

/-- Once a mode was set, it does not matter which one it was before. -/
theorem foldl_modeBehind_of_mem {requests : List (Request α)} {set : DistanceMode}
    (h : .call (.distanceMode set) ∈ requests) (mode mode' : DistanceMode) :
    requests.foldl Request.modeBehind mode = requests.foldl Request.modeBehind mode' := by
  induction requests generalizing mode mode' with
  | nil => exact absurd h (by simp)
  | cons request requests ih =>
    obtain rfl | h := List.mem_cons.mp h
    · rfl
    · exact ih h _ _

/-! ### Machines that are alike are asked for the same -/

namespace Simulation

variable {σ τ : Type} [Machine σ α] [Machine τ α]

/-- Machines with a record are alike if the machines are and the records agree. -/
def traced (S : Simulation σ τ α) : Simulation (Traced σ α) (Traced τ α) α where
  Alike m n := S.Alike m.machine n.machine ∧ m.requests = n.requests
  nextAction h := S.nextAction h.1
  motionMode h := S.motionMode h.1
  position h := S.position h.1
  beginBlock h := ⟨S.beginBlock h.1, congrArg (· ++ [.beginBlock]) h.2⟩
  perform c h := ⟨S.perform c h.1, congrArg (· ++ [.call c]) h.2⟩
  refusal c h := S.refusal c h.1

/-- **Machines that are alike are asked for the same.** -/
theorem requests_eq [Number α] {S : Simulation σ τ α} {s : Session σ} {t : Session τ}
    (h : S.Alike s.machine t.machine) (raw : List Char) : s.requests raw = t.requests raw := by
  have hbegun : S.traced.Between (s.withRecord []).machine (t.withRecord []).machine :=
    between_of_alike ⟨h, rfl⟩
  -- the next block adds the same request to both records
  exact List.append_cancel_right (S.traced.step hbegun raw).1.2

/-- Machines that differ in the distance mode alone are alike. -/
def distanceMode [Number α] : Simulation (Simulator α) (Simulator α) α where
  Alike m n := ∃ mode, n = m.withDistanceMode mode
  nextAction := by rintro m n ⟨mode, rfl⟩; rfl
  motionMode := by rintro m n ⟨mode, rfl⟩; rfl
  position := by rintro m n ⟨mode, rfl⟩; rfl
  beginBlock := by rintro m n ⟨mode, rfl⟩; exact ⟨mode, rfl⟩
  perform {m n} c := by
    rintro ⟨mode, rfl⟩
    have hperform := m.perform_withDistanceMode mode c
    exact ⟨_, (congrArg Prod.fst hperform :)⟩
  refusal {m n} c := by
    rintro ⟨mode, rfl⟩
    have hperform := m.perform_withDistanceMode mode c
    exact (congrArg Prod.snd hperform.symm :)

end Simulation

/-! ### Lines -/

namespace Session

/-- What some lines ask of the machine, one after another. -/
def requestsOf {σ : Type} [Number α] [Machine σ α] (s : Session σ) :
    List (List Char) → List (Request α)
  | [] => []
  | line :: lines => s.requests line ++ (s.step line).1.requestsOf lines

variable [Number α] (s : Session (Simulator α)) (mode : DistanceMode)

/-- The session in another distance mode. -/
abbrev withDistanceMode : Session (Simulator α) :=
  s.map (Simulator.withDistanceMode mode)

/-- **What a line does in another distance mode**: it comes to the same, and what it leaves
differs in the distance mode alone. -/
theorem step_withDistanceMode (raw : List Char) :
    (s.withDistanceMode mode).step raw =
      ((s.step raw).1.withDistanceMode ((s.requests raw).foldl Request.modeBehind mode),
        (s.step raw).2) := by
  have halike : Simulation.distanceMode.Alike s.machine (s.withDistanceMode mode).machine :=
    ⟨mode, rfl⟩
  obtain ⟨-, hflow, ⟨more, hblocks, hblocks'⟩, hreport⟩ :=
    Simulation.step (Simulation.between_of_alike halike) raw
  have hmachine := (s.withDistanceMode mode).machine_eq_respondAll raw
  rw [← Simulation.requests_eq halike raw] at hmachine
  change _ = Machine.respondAll (s.machine.withDistanceMode mode) _ at hmachine
  rw [Simulator.respondAll_withDistanceMode, ← machine_eq_respondAll] at hmachine
  have hcount := hblocks'.trans hblocks.symm
  generalize (s.withDistanceMode mode).step raw = behind at hmachine hflow hcount hreport
  obtain ⟨⟨machine, flow, blocks⟩, report⟩ := behind
  obtain rfl : machine = _ := hmachine
  obtain rfl : (s.step raw).1.flow = flow := hflow
  obtain rfl : blocks = (s.step raw).1.blocks := hcount
  obtain rfl : (s.step raw).2 = report := hreport
  rfl

/-- Lines ask for the same in another distance mode. -/
theorem requestsOf_withDistanceMode (lines : List (List Char)) :
    (s.withDistanceMode mode).requestsOf lines = s.requestsOf lines := by
  induction lines generalizing s mode with
  | nil => rfl
  | cons line lines ih =>
    have halike : Simulation.distanceMode.Alike s.machine (s.withDistanceMode mode).machine :=
      ⟨mode, rfl⟩
    rw [requestsOf, requestsOf, ← Simulation.requests_eq halike, step_withDistanceMode, ih]

/-- What lines do in another distance mode, one after another. -/
theorem through_withDistanceMode (lines : List (List Char)) :
    (s.withDistanceMode mode).through lines =
      (s.through lines).withDistanceMode ((s.requestsOf lines).foldl Request.modeBehind mode) := by
  induction lines generalizing s mode with
  | nil => rfl
  | cons line lines ih =>
    change ((s.withDistanceMode mode).step line).1.through lines = _
    rw [step_withDistanceMode, ih, requestsOf, List.foldl_append]
    rfl

/-- Behind lines that set the distance mode nothing is left of the one before them. -/
theorem through_withDistanceMode_of_mem {lines : List (List Char)} {set : DistanceMode}
    (h : .call (.distanceMode set) ∈ s.requestsOf lines) :
    (s.withDistanceMode mode).through lines = s.through lines := by
  have hself : s.withDistanceMode s.machine.state.distanceMode = s := rfl
  have hown := s.through_withDistanceMode s.machine.state.distanceMode lines
  rw [hself] at hown
  rw [through_withDistanceMode, foldl_modeBehind_of_mem h mode s.machine.state.distanceMode, ← hown]

/-- The visits of lines in another distance mode. -/
theorem visits_withDistanceMode (number : Nat) (lines : List (List Char)) :
    List.Forall₂ (fun v v' => ∃ mode, v' = v.map (Simulator.withDistanceMode mode))
      (s.visits number lines) ((s.withDistanceMode mode).visits number lines) := by
  induction lines generalizing s mode number with
  | nil => exact .nil
  | cons line lines ih =>
    rw [visits, visits, visit, visit, step_withDistanceMode]
    exact .cons ⟨_, rfl⟩ (ih _ _ _)

end Session

/-! ### Runs -/

namespace Run

variable [Number α]

/-- A run does the same with a line in another distance mode. -/
theorem step_withDistanceMode (r : Run (Simulator α) α) (mode : DistanceMode)
    (line : List Char) :
    (r.map (Simulator.withDistanceMode mode)).step line =
      (r.step line).map (Simulator.withDistanceMode
        ((r.session.requests line).foldl Request.modeBehind mode)) := by
  have hsession : (r.map (Simulator.withDistanceMode mode)).session =
      r.session.withDistanceMode mode := rfl
  rw [step_eq, step_eq, hsession, Session.step_withDistanceMode]
  rfl

/-- **A run to its end does the same in another distance mode.** -/
theorem toEnd_withDistanceMode (r : Run (Simulator α) α) (mode : DistanceMode)
    (input : List InputLine) :
    ∃ mode', (r.map (Simulator.withDistanceMode mode)).toEnd input =
      ((r.toEnd input).1.map (Simulator.withDistanceMode mode'), (r.toEnd input).2) := by
  have hstep {r q : Run (Simulator α) α} {line line' : List Char}
      (h : ∃ mode, q = r.map (Simulator.withDistanceMode mode)) (hline : line = line') :
      ∃ mode, q.step line' = (r.step line).map (Simulator.withDistanceMode mode) := by
    obtain ⟨mode, rfl⟩ := h
    subst hline
    exact ⟨_, r.step_withDistanceMode mode line⟩
  have hstop {r q : Run (Simulator α) α}
      (h : ∃ mode, q = r.map (Simulator.withDistanceMode mode)) :
      r.summary.stop = q.summary.stop := by
    obtain ⟨mode, rfl⟩ := h
    rfl
  have hinput : List.Forall₂ (InputLine.Corresponds Eq) input input :=
    InputLine.corresponds_self fun _ _ => rfl
  obtain ⟨⟨mode', hrun⟩, hread⟩ := toEnd_inStep hstep hstop ⟨mode, rfl⟩ hinput
  exact ⟨mode', Prod.ext hrun hread.symm⟩

/-- Lines at the head of an input are told by their number. -/
theorem lines_eq_of_isPrefix {input : List InputLine} {lines lines' : List (List Char)}
    (h : lines.map .ok <+: input) (h' : lines'.map .ok <+: input)
    (hlength : lines'.length = lines.length) : lines' = lines := by
  have hsame : lines'.map .ok = lines.map (Except.ok (ε := InputFault)) := by
    rw [List.prefix_iff_eq_take.mp h, List.prefix_iff_eq_take.mp h', List.length_map,
      List.length_map, hlength]
  exact List.map_injective_iff.mpr (fun _ _ => Except.ok.inj) hsame

/-- **The distance mode is recorded only.**

A program is run on two machines that differ in the distance mode alone.  Line by line it comes
to the same, the machine is asked for the same, and what the lines leave differs in the distance
mode alone: the same flow, journal and count of blocks, and the same in every other part of the
state.  Behind lines of which one had the machine set a distance mode, nothing differs at all.
So the two runs go through the same lines, deliver the same messages and have the same summary;
their machines differ in the distance mode alone, and if one of these lines set it, in nothing. -/
theorem distance_mode_recorded_only (s : Session (Simulator α)) (mode : DistanceMode)
    (program : List UInt8) :
    (∀ number lines,
      List.Forall₂ (fun v v' => ∃ mode, v' = v.map (Simulator.withDistanceMode mode))
        (s.visits number lines) ((s.withDistanceMode mode).visits number lines)) ∧
    (∀ lines, (s.withDistanceMode mode).requestsOf lines = s.requestsOf lines) ∧
    (∀ lines set, .call (.distanceMode set) ∈ s.requestsOf lines →
      (s.withDistanceMode mode).through lines = s.through lines) ∧
    ∃ lines : List (List Char), lines.map .ok <+: inputLines program ∧
      Accounts s lines (ofBytes s program).1 ∧
      (∃ mode', ofBytes (s.withDistanceMode mode) program =
        ((ofBytes s program).1.map (Simulator.withDistanceMode mode'), (ofBytes s program).2)) ∧
      ∀ set, .call (.distanceMode set) ∈ s.requestsOf lines →
        ofBytes (s.withDistanceMode mode) program = ofBytes s program := by
  refine ⟨s.visits_withDistanceMode mode, s.requestsOf_withDistanceMode mode,
    fun lines set => s.through_withDistanceMode_of_mem mode, ?_⟩
  obtain ⟨mode', hrun⟩ := toEnd_withDistanceMode { session := s } mode (inputLines program)
  change ofBytes (s.withDistanceMode mode) program = _ at hrun
  obtain ⟨lines, hprefix, haccounts, -⟩ := (Accounts.nil s).toEnd rfl (inputLines program)
  obtain ⟨lines', hprefix', haccounts', -⟩ :=
    (Accounts.nil (s.withDistanceMode mode)).toEnd rfl (inputLines program)
  change Accounts _ lines' (ofBytes (s.withDistanceMode mode) program).1 at haccounts'
  change Accounts _ lines (ofBytes s program).1 at haccounts
  refine ⟨lines, hprefix, haccounts, ⟨mode', hrun⟩, fun set hset => ?_⟩
  -- both runs go through the same lines, and so they end in the same session
  rw [hrun] at haccounts'
  obtain rfl : lines' = lines :=
    lines_eq_of_isPrefix hprefix hprefix' (haccounts'.count.symm.trans haccounts.count)
  have hsession := haccounts'.session
  rw [s.through_withDistanceMode_of_mem mode hset, ← haccounts.session] at hsession
  refine hrun.trans (Prod.ext ?_ rfl)
  exact congrArg (Run.mk · (ofBytes s program).1.messages (ofBytes s program).1.summary) hsession

/-- Behind a G91, too, the second move goes to the same point as the first. -/
example :
    let s := Session.ofMachine (Simulator.ofState .standard (.initial : State ℚ))
    let state := (ofBytes s (encodeUtf8 "G91 G0 X1\nX1\n".toList)).1.session.machine.state
    state.motionCount = 2 ∧ state.distanceMode = .incremental ∧ state.position.x = 1 := by
  decide +kernel

end Run

end NumericControl
