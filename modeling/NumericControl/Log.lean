import NumericControl.Run
import NumericControl.Settings
import NumericControl.Simulator.Basic
import NumericControl.Simulator.StateStore
import NumericControl.Text.Escaped
import NumericControl.Text.Json

/-!
# The log

The log tells what happens in a run.  It is read off the same definitions that say
what happens, and nothing depends on it: a line has the events of its words and of
its calls, a run the events of its lines.

## Main definitions

* `Event` — an event with its level and where it comes from.
* `Event.line`, `Event.toJson` — the two forms of the log.
* `Log.ofLine`, `Log.ofRun` — the events of a line and of a run.
* `Log.ofLoad`, `Log.ofSave` — the events of the state file.
* `Log.shown` — the events from a level on.
-/

namespace NumericControl

/-- Where an event comes from. -/
inductive EventSource
  | program
  | runner
  | machine
  | state
  | interpreter
  | block
  | execute
  deriving DecidableEq, Repr

/-- The name of a source in the log. -/
def EventSource.path : EventSource → String
  | .program => "ngc_sim"
  | .runner => "ngc_sim::runner"
  | .machine => "ngc_sim::machine"
  | .state => "ngc_sim::state"
  | .interpreter => "ngc_interp::interpreter"
  | .block => "ngc_interp::block"
  | .execute => "ngc_interp::execute"

/-- Something that happens in a run. -/
structure Event where
  level : LogLevel
  source : EventSource
  text : String
  deriving DecidableEq, Repr

/-- An event as a line of text. -/
def Event.line (e : Event) : String :=
  e.level.label ++ " " ++ e.source.path ++ ": " ++ e.text

/-- An event as a document. -/
def Event.toJson (e : Event) : Json :=
  .object [
    ("level", .plainText e.level.label),
    ("fields", .object [("message", .text e.text)]),
    ("target", .plainText e.source.path)]

namespace Log

/-! ### Blocks -/

/-- The events of reading words into a proposal. -/
def ofWords (p : Proposal Binary64) (r : WordReader) : List Event :=
  let rejected (f : BlockFault Binary64) : Event :=
    ⟨.debug, .block, "Block rejected: " ++ f.message⟩
  match _h : WordReader.next (α := Binary64) r with
  | (.done, _) => [⟨.debug, .block, "Block parsed"⟩]
  | (.fault f, _) => [rejected f]
  | (.word w, r') =>
    ⟨.trace, .block, "statement"⟩ ::
      match p.apply w with
      | .error f => [rejected f]
      | .ok p => ofWords p r'
  termination_by r.rest.length
  decreasing_by
    have hlt := WordReader.length_rest_lt_of_word (r := r) (w := w) (by rw [_h])
    rwa [_h] at hlt

/-- The point whose axes a call converts to machine positions, if it does. -/
def convertedPoint? (s : Simulator Binary64) : Call Binary64 → Option (PerAxis Binary64)
  | .originOffsets point => some point
  | .traverse target => some target
  | .feed target => if s.lacksFeedRate then none else some target
  | .arc target _ _ mode => if !mode.isArc || s.lacksFeedRate then none else some target
  | _ => none

/-- The events of a call: each axis that stays where it is, and whether the call is
accepted. -/
def ofCall (s : Simulator Binary64) (call : Call Binary64) : List Event :=
  let carried :=
    match convertedPoint? s call with
    | none => []
    | some point =>
      (Enumerated.all : List Axis).filterMap fun axis =>
        if s.isCarried axis (point.get axis) then
          some ⟨.debug, .machine, "carried axis keeps position"⟩
        else none
  let decision : Event :=
    match (s.perform call).2 with
    | none => ⟨.debug, .machine, "canon"⟩
    | some f => ⟨.warn, .machine, "Canonical call rejected: " ++ f.message⟩
  carried ++ [decision]

/-- The events of calls up to the first that is refused. -/
def ofCalls (s : Simulator Binary64) : List (Call Binary64) → List Event
  | [] => []
  | call :: calls =>
    ofCall s call ++
      match s.perform call with
      | (s, none) => ofCalls s calls
      | (_, some _) => []

/-- The events of the calls of a block.  A motion is announced before it is made. -/
def ofExecution (p : Proposal Binary64) (s : Simulator Binary64) : List Event :=
  ofCalls s p.settings ++
    match Machine.run s p.settings with
    | (_, some _) => []
    | (s, none) =>
      (if p.nextAction = .motion then [⟨.trace, .execute, "motion"⟩] else []) ++
        ofCalls s p.operation

/-! ### Lines -/

/-- The events of a line on a machine. -/
def ofLine (s : Simulator Binary64) (raw : List Char) : List Event :=
  match normalize (α := Binary64) raw with
  | .error _ => []
  | .ok block =>
    if block.isEmpty then []
    else if block.isQuit then [⟨.debug, .interpreter, "Quit sentinel received"⟩]
    else
      let s := s.beginBlock
      ofWords (.ofMachine s) (.ofText block.command) ++
        match Proposal.ofCommand block.command s with
        | .error _ => []
        | .ok p => ofExecution p s

/-- The event of how a line ends, for the line of a given number. -/
def ofResult (number : Nat) (raw : List Char) (flow : Option ProgramFlow) :
    Except (BlockFault Binary64) Completion → List Event
  | .error f =>
    [⟨.error, .runner, "status " ++ toString f.code ++ ": " ++ f.message ++ " in block \""
      ++ String.ofList raw ++ "\""⟩]
  | .ok .quit => [⟨.info, .runner, "Quit requested at line " ++ toString number⟩]
  | .ok .ok =>
    match flow with
    | some .finish => [⟨.info, .runner, "Program end at line " ++ toString number⟩]
    | some .stop => [⟨.info, .runner, "Program paused at line " ++ toString number⟩]
    | none => []

/-- The events of the lines of an input, up to the first that stops the run or cannot
be read. -/
def ofRun (r : Run (Simulator Binary64) Binary64) : List InputLine → List Event
  | [] => []
  | .error _ :: _ => []
  | .ok raw :: rest =>
    let (session, report) := r.session.step raw
    let next := r.step raw
    ofLine r.session.machine raw
      ++ ofResult next.summary.lines raw session.flow report.result
      ++ if next.summary.stop.isSome then [] else ofRun next rest

/-! ### The state file -/

/-- The events of loading the state from a path. -/
def ofLoad (path : List Char) (loaded : Except StateFault StoredState) : List Event :=
  ⟨.debug, .state, "Loading machine state from " ++ quotePath path⟩ ::
    match loaded with
    | .error _ => []
    | .ok .missing => [⟨.debug, .state, "State file does not exist, starting fresh"⟩]
    | .ok (.otherVersion version) =>
      [⟨.warn, .state, "State file version " ++ toString version ++ " differs from current "
        ++ toString StateRecord.currentVersion ++ ", starting fresh"⟩]
    | .ok (.stored record) =>
      [⟨.info, .state, "Loaded machine state from " ++ quotePath path ++ " (saved at "
        ++ toString record.savedAt ++ ")"⟩]

/-- The events of saving the state at a path. -/
def ofSave (path : List Char) (fault : Option StateFault) : List Event :=
  ⟨.debug, .state, "Saving machine state to " ++ quotePath path⟩ ::
    match fault with
    | some _ => []
    | none => [⟨.info, .state, "Saved machine state to " ++ quotePath path⟩]

/-! ### The program -/

/-- The event of starting under a name. -/
def started (serviceName : List Char) : Event :=
  ⟨.info, .program, "NGC simulator v0.1.0 starting (" ++ String.ofList serviceName ++ ")"⟩

/-- The event of opening the input. -/
def opened : Option (List Char) → Event
  | some path => ⟨.info, .program, "Running program " ++ quotePath path⟩
  | none => ⟨.info, .program, "Reading blocks from stdin (Q to quit)"⟩

/-- The event of a run that comes to its end. -/
def completed (s : Summary Binary64) : Event :=
  let stop :=
    match s.stop with
    | some stop => "Some(" ++ Enumerated.title stop ++ ")"
    | none => "None"
  ⟨.info, .program, "Run complete: " ++ toString s.lines ++ " lines, " ++ toString s.completed
    ++ " completed, " ++ toString s.failures.length ++ " failed, " ++ toString s.pauses
    ++ " pauses, stop=" ++ stop⟩

/-- The event of giving up. -/
def failed (message : String) : Event :=
  ⟨.error, .program, "Simulator failed: " ++ message⟩

/-- The events from a level on. -/
def shown (level : LogLevel) (events : List Event) : List Event :=
  events.filter fun e => Enumerated.index level ≤ Enumerated.index e.level

end Log

end NumericControl
