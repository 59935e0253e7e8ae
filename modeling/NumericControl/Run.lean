import NumericControl.Session
import NumericControl.Text.Lines

/-!
# Runs

A run feeds a program to a session one line at a time.  A line that fails is noted
and the run goes on.  It ends with the input, at a line that asks to leave the
interpreter, at a program end, or at a line that cannot be read.

## Main definitions

* `Stop`, `Failure`, `Summary` — what is known at the end of a run.
* `Run`, `Run.step` — a run so far, and one more line.
* `Run.toEnd` — a whole run.
-/

namespace NumericControl

/-- Why a run ends before its input. -/
inductive Stop
  /-- A line asks to leave the interpreter. -/
  | quit
  /-- M2, M30 or M60. -/
  | programEnd
  deriving DecidableEq, Repr

instance : Enumerated Stop where
  all := [.quit, .programEnd]
  name
    | .quit => "quit"
    | .programEnd => "program_end"
  mem_all a := by cases a <;> decide
  name_inj a b := by cases a <;> cases b <;> decide

/-- A line that failed. -/
structure Failure (α : Type) where
  /-- The number of the line, counted from one. -/
  lineNumber : Nat
  /-- The raw line. -/
  line : List Char
  fault : BlockFault α
  deriving DecidableEq, Repr

/-- What is known of a run. -/
structure Summary (α : Type) where
  /-- How many lines were read. -/
  lines : Nat := 0
  /-- How many of them did not fail. -/
  completed : Nat := 0
  /-- How many of them asked for a stop (M0, M1). -/
  pauses : Nat := 0
  /-- The lines that failed, in order. -/
  failures : List (Failure α) := []
  /-- Why the run ended before its input. -/
  stop : Option Stop := none
  deriving DecidableEq, Repr

/-- Whether no line failed. -/
def Summary.isClean {α : Type} (s : Summary α) : Bool :=
  s.failures.isEmpty

/-- A run so far. -/
structure Run (σ α : Type) where
  session : Session σ
  /-- The messages delivered, in order. -/
  messages : List (List Char) := []
  summary : Summary α := {}

namespace Run

variable {σ α : Type} [Number α] [Machine σ α]

/-- The run after one more line. -/
def step (r : Run σ α) (line : List Char) : Run σ α :=
  let (session, report) := r.session.step line
  let summary := { r.summary with lines := r.summary.lines + 1 }
  let messages := r.messages ++ report.message.toList
  match report.result with
  | .error fault =>
    let failure := ⟨summary.lines, line, fault⟩
    ⟨session, messages, { summary with failures := summary.failures ++ [failure] }⟩
  | .ok .quit =>
    ⟨session, messages, { summary with completed := summary.completed + 1, stop := some .quit }⟩
  | .ok .ok =>
    let summary := { summary with completed := summary.completed + 1 }
    match session.flow with
    | some .finish => ⟨session, messages, { summary with stop := some .programEnd }⟩
    | some .stop => ⟨session, messages, { summary with pauses := summary.pauses + 1 }⟩
    | none => ⟨session, messages, summary⟩

/-- The run after the lines of an input, up to the first that stops it or cannot be
read, and why the latter cannot be read. -/
def toEnd (r : Run σ α) : List InputLine → Run σ α × Option InputFault
  | [] => (r, none)
  | .error fault :: _ => (r, some fault)
  | .ok line :: rest =>
    let r := r.step line
    if r.summary.stop.isSome then (r, none) else r.toEnd rest

end Run

end NumericControl
