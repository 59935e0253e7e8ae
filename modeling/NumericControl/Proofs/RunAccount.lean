import NumericControl.Binary64.Arithmetic
import NumericControl.Proofs.Journal
import NumericControl.Proofs.Simulation

/-!
# What a run accounts for

A run goes through the lines of its program in order, and what it knows at its end is what
these lines came to: it leaves out no line before the one that stops it, it looks at none
behind that one, and it counts each of those between exactly once.

The lines that were processed are told by themselves, as a list of visits, and everything
in the summary is a count or a part of this list.  Only the last visit can be a stop.

## Main definitions

* `Visit`, `Session.visits` — a line that was processed, with what it came to, and those of
  some lines one after another.
* `Visit.failure?`, `Visit.pauses`, `Visit.stop?` — what a visit means to a run.
* `Run.ofBytes` — the run of a program in a session.
* `Run.Accounts` — a run knows what some lines came to.

## Main results

* `Run.Accounts.step`, `Run.Accounts.toEnd` — one more line, and all lines up to a stop.
* `Run.accounts_for_lines` — **a run accounts for its lines up to the first stop**.
-/

namespace NumericControl

/-! ### Visits -/

/-- A line that was processed. -/
structure Visit (σ α : Type) where
  /-- The number of the line, counted from one. -/
  lineNumber : Nat
  /-- The raw line. -/
  line : List Char
  /-- The session behind the line. -/
  session : Session σ
  /-- What the line came to. -/
  report : LineReport α

namespace Visit

variable {σ α : Type}

/-- Whether the line did not fail. -/
def succeeds (v : Visit σ α) : Bool :=
  v.report.result.isOk

/-- The failure that is noted for the line, if it failed. -/
def failure? (v : Visit σ α) : Option (Failure α) :=
  match v.report.result with
  | .ok _ => none
  | .error fault => some ⟨v.lineNumber, v.line, fault⟩

/-- Whether the line did not fail, and asked for a stop of the program. -/
def pauses (v : Visit σ α) : Bool :=
  v.succeeds && v.session.flow == some .stop

/-- Why the run ends with the line: it did not fail, and it asked to leave the interpreter
or for the end of the program. -/
def stop? (v : Visit σ α) : Option Stop :=
  match v.report.result with
  | .ok .quit => some .quit
  | .ok .ok => if v.session.flow = some .finish then some .programEnd else none
  | .error _ => none

/-- Each visit is a success or a failure. -/
theorem countP_succeeds_add_length (vs : List (Visit σ α)) :
    vs.countP succeeds + (vs.filterMap failure?).length = vs.length := by
  induction vs with
  | nil => rfl
  | cons v vs ih =>
    cases h : v.report.result with
    | ok completion =>
      have hs : v.succeeds = true := by simp [succeeds, h, Except.isOk, Except.toBool]
      have hf : v.failure? = none := by simp [failure?, h]
      rw [List.countP_cons_of_pos hs, List.filterMap_cons_none hf, List.length_cons, ← ih]
      omega
    | error fault =>
      have hs : v.succeeds ≠ true := by simp [succeeds, h, Except.isOk, Except.toBool]
      have hf : v.failure? = some ⟨v.lineNumber, v.line, fault⟩ := by simp [failure?, h]
      rw [List.countP_cons_of_neg hs, List.filterMap_cons_some hf, List.length_cons,
        List.length_cons, ← ih]
      omega

/-- A line that failed ends no run, whatever it asks of the program. -/
theorem stop?_of_not_succeeds {v : Visit σ α} (h : v.succeeds = false) : v.stop? = none := by
  cases hresult : v.report.result with
  | ok completion => exact absurd h (by simp [succeeds, hresult, Except.isOk, Except.toBool])
  | error fault => rw [stop?, hresult]

end Visit

namespace Session

variable {σ α : Type} [Number α] [Machine σ α]

/-- The visit of a line of a given number. -/
def visit (s : Session σ) (number : Nat) (line : List Char) : Visit σ α :=
  ⟨number, line, (s.step line).1, (s.step line).2⟩

/-- The visits of some lines, of which the first has a given number. -/
def visits (s : Session σ) (number : Nat) : List (List Char) → List (Visit σ α)
  | [] => []
  | line :: lines => s.visit number line :: (s.step line).1.visits (number + 1) lines

@[simp] theorem length_visits (s : Session σ) (number : Nat) (lines : List (List Char)) :
    (s.visits number lines).length = lines.length := by
  induction lines generalizing s number with
  | nil => rfl
  | cons line lines ih => rw [visits, List.length_cons, List.length_cons, ih]

/-- The visit of one more line. -/
theorem visits_concat (s : Session σ) (number : Nat) (lines : List (List Char))
    (line : List Char) :
    s.visits number (lines ++ [line]) =
      s.visits number lines ++ [(s.through lines).visit (number + lines.length) line] := by
  induction lines generalizing s number with
  | nil => rfl
  | cons first lines ih =>
    have hnumber : number + 1 + lines.length = number + (first :: lines).length := by
      rw [List.length_cons]
      omega
    rw [List.cons_append, visits, visits, ih, hnumber, List.cons_append]
    rfl

theorem through_concat (s : Session σ) (lines : List (List Char)) (line : List Char) :
    s.through (lines ++ [line]) = ((s.through lines).step line).1 := by
  rw [through, List.foldl_append]
  rfl

/-- A line that asks to leave the interpreter asks nothing of the program. -/
theorem flow_of_quit {s : Session σ} {line : List Char}
    (h : (s.step line).2.result = .ok .quit) : (s.step line).1.flow = none := by
  obtain ⟨requests, -, hexit⟩ := s.exit_step line
  generalize (s.step line).1 = s' at hexit ⊢
  generalize (s.step line).2 = report at hexit h
  cases hexit with
  | notNormal | empty | quit | notBlock | refused => rfl
  | executed => exact absurd h (by simp)

end Session

/-! ### The account of a run -/

theorem filterMap_concat {β γ : Type} (f : β → Option γ) (l : List β) (b : β) :
    (l ++ [b]).filterMap f = l.filterMap f ++ (f b).toList := by
  rw [List.filterMap_append]
  rfl

namespace Run

variable {σ α : Type}

variable [Number α] [Machine σ α]

/-- What a run knows behind a line is told by the visit of the line. -/
theorem step_visit (r : Run σ α) (line : List Char) :
    let v := r.session.visit (r.summary.lines + 1) line
    r.step line =
      { session := v.session
        messages := r.messages ++ v.report.message.toList
        summary :=
          { lines := r.summary.lines + 1
            completed := r.summary.completed + if v.succeeds then 1 else 0
            pauses := r.summary.pauses + if v.pauses then 1 else 0
            failures := r.summary.failures ++ v.failure?.toList
            stop := v.stop?.or r.summary.stop } } := by
  intro v
  have hquit : v.report.result = .ok .quit → v.session.flow = none := Session.flow_of_quit
  have hstep : r.step line =
      { session := v.session
        messages := r.messages ++ v.report.message.toList
        summary := noted r.summary v.line v.session.flow v.report.result } := r.step_eq line
  have hnumber : v.lineNumber = r.summary.lines + 1 := rfl
  rw [hstep]
  clear_value v
  congr 1
  rcases h : v.report.result with fault | (_ | _)
  · simp [noted, h, Visit.succeeds, Visit.pauses, Visit.failure?, Visit.stop?, Except.isOk,
      Except.toBool, hnumber]
  · rcases hflow : v.session.flow with _ | (_ | _) <;>
      simp [noted, h, hflow, Visit.succeeds, Visit.pauses, Visit.failure?, Visit.stop?,
        Except.isOk, Except.toBool]
  · simp [noted, h, hquit h, Visit.succeeds, Visit.pauses, Visit.failure?, Visit.stop?,
      Except.isOk, Except.toBool]

/-- The run of a program in a session, and why its input cannot be read to the end. -/
def ofBytes (s : Session σ) (program : List UInt8) : Run σ α × Option InputFault :=
  toEnd { session := s } (inputLines program)

/-- A run knows what some lines came to, one after another, and no line before the last
of them is a stop. -/
structure Accounts (s : Session σ) (lines : List (List Char)) (r : Run σ α) : Prop where
  session : r.session = s.through lines
  messages : r.messages = (s.visits 1 lines).filterMap (·.report.message)
  count : r.summary.lines = lines.length
  completed : r.summary.completed = (s.visits 1 lines).countP Visit.succeeds
  pauses : r.summary.pauses = (s.visits 1 lines).countP Visit.pauses
  failures : r.summary.failures = (s.visits 1 lines).filterMap Visit.failure?
  stop : r.summary.stop = (s.visits 1 lines).getLast?.bind Visit.stop?
  goesOn : ∀ v ∈ (s.visits 1 lines).dropLast, v.stop? = none

namespace Accounts

variable {s : Session σ} {lines : List (List Char)} {r : Run σ α}

theorem nil (s : Session σ) : Accounts s [] { session := s } where
  session := rfl
  messages := rfl
  count := rfl
  completed := rfl
  pauses := rfl
  failures := rfl
  stop := rfl
  goesOn v hv := absurd hv (by simp [Session.visits])

/-- Every line that was read succeeded or failed. -/
theorem lines_eq (h : Accounts s lines r) :
    r.summary.lines = r.summary.completed + r.summary.failures.length := by
  rw [h.count, h.completed, h.failures, Visit.countP_succeeds_add_length, Session.length_visits]

/-- In a run that goes on, no line was a stop. -/
theorem stop?_eq_none (h : Accounts s lines r) (hstop : r.summary.stop = none) :
    ∀ v ∈ s.visits 1 lines, v.stop? = none := by
  have hlast := h.stop.symm.trans hstop
  have hgoesOn := h.goesOn
  rcases List.eq_nil_or_concat (s.visits 1 lines) with hvs | ⟨earlier, last, hvs⟩
  · simp [hvs]
  · rw [hvs, List.concat_eq_append] at hlast hgoesOn ⊢
    rw [List.getLast?_concat, Option.bind_some] at hlast
    rw [List.dropLast_concat] at hgoesOn
    intro v hv
    rcases List.mem_append.mp hv with hv | hv
    · exact hgoesOn v hv
    · rw [List.mem_singleton.mp hv]
      exact hlast

/-- **One more line is accounted for**, if none before it was a stop. -/
theorem step (h : Accounts s lines r) (hstop : r.summary.stop = none) (line : List Char) :
    Accounts s (lines ++ [line]) (r.step line) := by
  have hvisits : s.visits 1 (lines ++ [line]) =
      s.visits 1 lines ++ [r.session.visit (r.summary.lines + 1) line] := by
    rw [Session.visits_concat, h.session, h.count, Nat.add_comm]
  rw [step_visit]
  constructor
  case session =>
    rw [Session.through_concat, ← h.session]
    rfl
  case messages => rw [hvisits, filterMap_concat, ← h.messages]
  case count => rw [List.length_append, h.count, List.length_singleton]
  case completed => rw [hvisits, List.countP_append, List.countP_singleton, h.completed]
  case pauses => rw [hvisits, List.countP_append, List.countP_singleton, h.pauses]
  case failures => rw [hvisits, filterMap_concat, h.failures]
  case stop =>
    rw [hvisits, List.getLast?_concat, Option.bind_some, hstop]
    exact Option.or_none
  case goesOn =>
    rw [hvisits, List.dropLast_concat]
    exact h.stop?_eq_none hstop

/-- **All lines up to the first stop are accounted for**, as far as they can be read. -/
theorem toEnd (h : Accounts s lines r) (hstop : r.summary.stop = none) (input : List InputLine) :
    ∃ more : List (List Char), more.map .ok <+: input ∧
      Accounts s (lines ++ more) (r.toEnd input).1 ∧
      ((r.toEnd input).2 = none → (r.toEnd input).1.summary.stop = none →
        more.map .ok = input) := by
  induction input generalizing lines r with
  | nil => exact ⟨[], List.prefix_rfl, by rwa [List.append_nil], fun _ _ => rfl⟩
  | cons input rest ih =>
    cases input with
    | error fault =>
      exact ⟨[], List.nil_prefix, by rwa [List.append_nil],
        fun hread => absurd hread (by simp [Run.toEnd])⟩
    | ok line =>
      have hline := h.step hstop line
      cases hstep : (r.step line).summary.stop with
      | some stop =>
        rw [toEnd_cons_of_stops rest hstep]
        refine ⟨[line], by simp, hline, fun _ hgoesOn => ?_⟩
        exact absurd (hstep.symm.trans hgoesOn) (by simp)
      | none =>
        rw [toEnd_cons_of_goesOn rest hstep]
        obtain ⟨more, hprefix, haccounts, hall⟩ := ih hline hstep
        refine ⟨line :: more, ?_, ?_, fun hread hgoesOn => ?_⟩
        · exact (List.prefix_cons_inj _).mpr hprefix
        · rwa [← List.append_cons lines line more] at haccounts
        · rw [List.map_cons, hall hread hgoesOn]

end Accounts

/-- **A run accounts for its lines up to the first stop.**

A program is run, and as far as it is run it can be read.  Then the run went through as many
lines of the program as it counts, from the first one on, and through no other: its session
and its messages are those behind these lines.  Each of them was a success or is noted as a
failure, with its number and its text, in order; the pauses are counted; and the run was
stopped exactly if the last of them is a stop, which no line before it is.  A run that was
not stopped went through all lines of its program, and so did one whose last line failed,
whatever that line asked of the program. -/
theorem accounts_for_lines (s : Session σ) (program : List UInt8) {r : Run σ α}
    (hrun : ofBytes s program = (r, none)) :
    ∃ lines : List (List Char),
      lines.map .ok = (inputLines program).take r.summary.lines ∧
      Accounts s lines r ∧
      r.summary.lines = r.summary.completed + r.summary.failures.length ∧
      (r.summary.stop = none → lines.map .ok = inputLines program) ∧
      (∀ last, (s.visits 1 lines).getLast? = some last → last.succeeds = false →
        lines.map .ok = inputLines program) := by
  obtain ⟨lines, hprefix, haccounts, hall⟩ := (Accounts.nil s).toEnd rfl (inputLines program)
  rw [List.nil_append] at haccounts
  change Accounts s lines (ofBytes s program).1 at haccounts
  change (ofBytes s program).2 = none → (ofBytes s program).1.summary.stop = none → _ at hall
  rw [hrun] at haccounts hall
  refine ⟨lines, ?_, haccounts, haccounts.lines_eq, hall rfl, fun last hlast hfailed => ?_⟩
  · rw [haccounts.count, List.prefix_iff_eq_take.mp hprefix, List.length_map]
  · refine hall rfl ?_
    rw [haccounts.stop, hlast, Option.bind_some, Visit.stop?_of_not_succeeds hfailed]

/-- A pause, a line that fails though it asks for the end of the program, and the end; the
byte behind it is no text, and is not read. -/
theorem accounts_for_lines_before_end :
    let s := Session.ofMachine (Simulator.ofState .standard (.initial : State Binary64))
    let program := encodeUtf8 "M0\nG500 M30\nM2\nG0 X5\n".toList ++ [0xFF]
    ∃ r lines, ofBytes s program = (r, none) ∧
      lines.map .ok = (inputLines program).take 3 ∧ Accounts s lines r ∧
      3 = r.summary.completed + r.summary.failures.length ∧
      r.summary.stop = some .programEnd := by
  intro s program
  have hread : (ofBytes s program).2 = none := by decide +kernel
  have hcount : (ofBytes s program).1.summary.lines = 3 := by decide +kernel
  have hstop : (ofBytes s program).1.summary.stop = some .programEnd := by decide +kernel
  obtain ⟨lines, hlines, haccounts, hsum, -⟩ := accounts_for_lines s program (Prod.ext rfl hread)
  rw [hcount] at hlines hsum
  exact ⟨_, lines, Prod.ext rfl hread, hlines, haccounts, hsum, hstop⟩

end Run

end NumericControl
