import NumericControl.CommandLine
import NumericControl.Log
import NumericControl.Simulator.Report

/-!
# The simulator program

The program reads its settings, restores the state of the machine, runs the lines of
a program on it, and saves the state at the end of a run that could be read to its
end.  Whatever stops it before leaves the files as they are.

All it does is a function of its arguments, the files, its standard input and the
time of saving.

## Main definitions

* `SettingsLoadFault`, `loadSettings` — the settings that a file gives.
* `Options.loadSettings`, `Options.statePath?` — what a command line works with.
* `Outcome` — how the program ends, what it prints and what it leaves.
* `launch` — the program.
-/

namespace NumericControl

/-! ### Settings -/

/-- Why a file gives no settings. -/
inductive SettingsLoadFault
  /-- There is no such file. -/
  | notFound (path : List Char)
  /-- The file cannot be read, or gives no settings. -/
  | unreadable
  /-- The settings are wrong. -/
  | invalid (fault : SettingsFault)
  deriving DecidableEq, Repr

/-- The message of a file that gives no settings. -/
def SettingsLoadFault.message : SettingsLoadFault → String
  | .notFound path => "config file " ++ quotePath path ++ " does not exist"
  | .unreadable => "cannot parse config"
  | .invalid fault => fault.message

/-- The settings that the bytes of a file give. -/
def Settings.ofBytes (bytes : List UInt8) : Except SettingsLoadFault Settings :=
  match (decodeUtf8? bytes).bind Settings.ofText? with
  | none => .error .unreadable
  | some settings =>
    match settings.check with
    | some fault => .error (.invalid fault)
    | none => .ok settings

/-- The settings that the file at a path gives. -/
def loadSettings (t : FileTree) (path : List Char) : Except SettingsLoadFault Settings :=
  match t.read path with
  | .error .notFound => .error (.notFound path)
  | .error _ => .error .unreadable
  | .ok bytes => Settings.ofBytes bytes

/-- The settings of a command line: those of its file, or else the standard ones. -/
def Options.loadSettings (o : Options) (t : FileTree) : Except SettingsLoadFault Settings :=
  match o.settings with
  | none => .ok .standard
  | some path => NumericControl.loadSettings t path

/-- The path of the state file.  The command line comes before the settings. -/
def Options.statePath? (o : Options) (settings : Settings) : Option (List Char) :=
  o.stateFile <|> settings.machine.stateFile

/-! ### The program -/

/-- How the program ends, what it prints and what it leaves. -/
structure Outcome where
  /-- The exit status. -/
  exit : Nat
  /-- What is printed. -/
  output : String := ""
  /-- Why the program gives up. -/
  fatal : Option String := none
  /-- The files afterwards. -/
  tree : FileTree
  /-- The events logged, whatever their level. -/
  log : List Event := []
  /-- The level from which on events are shown. -/
  logLevel : LogLevel := default

/-- The line in which the program says who it is. -/
def versionLine : String := "ngc_sim 0.1.0\n"

/-- What the program prints when it is asked for help. -/
def usage : String :=
  "Interpret RS274/NGC blocks against a simulated canonical machine\n\n" ++
    "Usage: ngc_sim [OPTIONS] [FILE]\n"

/-- What is printed for lines. -/
def printLines (lines : List String) : String :=
  String.join (lines.map (· ++ "\n"))

/-- The lines of the input, from the program file or from standard input.  A
directory can be opened, but not read. -/
def openInput (t : FileTree) (program : Option (List Char)) (stdin : List UInt8) :
    Except PathFault (List InputLine) :=
  match program with
  | none => .ok (inputLines stdin)
  | some path =>
    match t.entry path with
    | .error fault => .error fault
    | .ok .directory => .ok [.error .isDirectory]
    | .ok (.file bytes) => .ok (inputLines bytes)

/-- The run of the program on a machine in a given state, with the log so far. -/
def simulate (options : Options) (settings : Settings) (t : FileTree) (stdin : List UInt8)
    (now : UInt64) (statePath : Option (List Char)) (state : Option (State Binary64))
    (log : List Event) : Outcome :=
  let log := log ++ [Log.opened options.program]
  let giveUp (message output : String) (t : FileTree) (log : List Event) : Outcome :=
    { exit := 2, output, fatal := some message, tree := t, log := log ++ [Log.failed message] }
  match openInput t options.program stdin with
  | .error fault => giveUp fault.message "" t log
  | .ok lines =>
    let machine := Simulator.ofState settings.machine.limits (state.getD .initial)
    let start : Run (Simulator Binary64) Binary64 := { session := .ofMachine machine }
    let (r, fault) := start.toEnd lines
    let log := log ++ Log.ofRun start lines
    let messages := printLines (r.messages.map String.ofList)
    match fault with
    | some fault => giveUp fault.message messages t log
    | none =>
      let log := log ++ [Log.completed r.summary]
      let machine := r.session.machine
      let journal :=
        if options.journal then
          printLines (machine.journal.toList.map fun entry => entry.toJson.compact)
        else ""
      let (t, saveFault) :=
        match statePath with
        | some path => saveState t path machine.state now
        | none => (t, none)
      let log := log ++ (statePath.map (Log.ofSave · saveFault)).getD []
      match saveFault with
      | some fault => giveUp fault.message (messages ++ journal) t log
      | none =>
        let dump := if options.dumpState then machine.state.toJson.pretty ++ "\n" else ""
        { exit := if r.summary.isClean then 0 else 1
          output := messages ++ journal ++ dump
          tree := t
          log }

/-- The program with options and settings. -/
def runWith (options : Options) (settings : Settings) (t : FileTree) (stdin : List UInt8)
    (now : UInt64) : Outcome :=
  let log := [Log.started settings.shared.serviceName]
  match options.statePath? settings with
  | none => simulate options settings t stdin now none none log
  | some path =>
    let loaded := loadState t path
    let log := log ++ Log.ofLoad path loaded
    match loaded with
    | .error fault =>
      { exit := 2
        fatal := some fault.message
        tree := t
        log := log ++ [Log.failed fault.message] }
    | .ok stored => simulate options settings t stdin now (some path) stored.state? log

/-- The program, on the files of a tree. -/
def launch (arguments : List (List Char)) (t : FileTree) (stdin : List UInt8) (now : UInt64) :
    Outcome :=
  match Invocation.ofArguments arguments with
  | .misuse => { exit := 2, tree := t }
  | .showVersion => { exit := 0, output := versionLine, tree := t }
  | .showHelp => { exit := 0, output := usage, tree := t }
  | .run options =>
    match options.loadSettings t with
    | .error fault => { exit := 2, fatal := some fault.message, tree := t }
    | .ok settings =>
      if options.printSettings then { exit := 0, output := settings.toText, tree := t }
      else
        { runWith options settings t stdin now with
          logLevel := if options.verbose then .debug else settings.shared.logLevel }

/-- The events that the program logs. -/
def Outcome.shownLog (o : Outcome) : List Event :=
  Log.shown o.logLevel o.log

/-- What the program prints beside its output: the log, and at the end why it gives
up. -/
def Outcome.complaints (o : Outcome) (jsonLog : Bool) : String :=
  let logLine (e : Event) : String := if jsonLog then e.toJson.compact else e.line
  printLines (o.shownLog.map logLine ++ (o.fatal.map ("ngc_sim: " ++ ·)).toList)

end NumericControl
