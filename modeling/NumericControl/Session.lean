import NumericControl.Block.Normal
import NumericControl.Block.Plan

/-!
# Sessions

A session interprets raw lines one after another on one machine.  The message of a
line is delivered as soon as the line is in normal form, also if its command then
fails.  A command that is no block leaves the machine as it was at the beginning
of the block; a refused call leaves what the calls before it did.

## Main definitions

* `Session` — a machine with what is known of the lines so far.
* `Completion`, `LineReport` — what a line comes to.
* `Session.step` — the session after one more line.
-/

namespace NumericControl

/-- How a line that does not fail ends. -/
inductive Completion
  /-- The block was executed, or there was nothing to execute. -/
  | ok
  /-- The line asks to leave the interpreter. -/
  | quit
  deriving DecidableEq, Repr

/-- The status code of a line that does not fail. -/
def Completion.code : Completion → Nat
  | .ok => 0
  | .quit => 1

/-- A machine with what is known of the lines so far. -/
structure Session (σ : Type) where
  machine : σ
  /-- What the last line asked of the program, if that line was executed. -/
  flow : Option ProgramFlow
  /-- How many blocks were executed. -/
  blocks : Nat

/-- What a line comes to. -/
structure LineReport (α : Type) where
  /-- The message delivered. -/
  message : Option (List Char)
  /-- How the line ends. -/
  result : Except (BlockFault α) Completion

namespace Session

variable {σ α : Type}

/-- A session that has not seen a line. -/
def ofMachine (m : σ) : Session σ :=
  ⟨m, none, 0⟩

variable [Number α] [Machine σ α]

/-- The session after the block of a command, and how the block ends. -/
def runCommand (s : Session σ) (command : List Char) :
    Session σ × Except (BlockFault α) Completion :=
  let m := Machine.beginBlock s.machine
  match Proposal.ofCommand command m with
  | .error fault => ({ s with machine := m, flow := none }, .error fault)
  | .ok proposal =>
    match proposal.execute m with
    | (m, some fault) => ({ s with machine := m, flow := none }, .error (.machine fault))
    | (m, none) => (⟨m, proposal.changes.programFlow, s.blocks + 1⟩, .ok .ok)

/-- The session after one more line, and what the line comes to. -/
def step (s : Session σ) (raw : List Char) : Session σ × LineReport α :=
  match normalize raw with
  | .error fault => ({ s with flow := none }, ⟨none, .error fault⟩)
  | .ok block =>
    if block.isEmpty then ({ s with flow := none }, ⟨block.message, .ok .ok⟩)
    else if block.isQuit then ({ s with flow := none }, ⟨block.message, .ok .quit⟩)
    else
      let (s, result) := s.runCommand block.command
      (s, ⟨block.message, result⟩)

end Session

end NumericControl
