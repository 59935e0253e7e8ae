/-!
# The command line

Arguments are read from left to right.  An option has a long name, and some a letter
too; letters may be joined, and a value may follow its option as the next argument
or be attached to it.  Two dashes alone end the options.  The first thing that is
wrong decides, and so does a request for the version or for help.

## Main definitions

* `Options` — what the command line asks for.
* `Invocation`, `Invocation.ofArguments` — a command line that has been read.
-/

namespace NumericControl

/-- What the command line asks for. -/
structure Options where
  /-- The program file; without one the program is read from standard input. -/
  program : Option (List Char) := none
  /-- The settings file. -/
  settings : Option (List Char) := none
  /-- The state file, in place of the one in the settings. -/
  stateFile : Option (List Char) := none
  /-- Whether the final state is printed. -/
  dumpState : Bool := false
  /-- Whether the journal is printed. -/
  journal : Bool := false
  /-- Whether the settings are printed, and nothing else is done. -/
  printSettings : Bool := false
  /-- Whether more is logged than the settings say. -/
  verbose : Bool := false
  /-- Whether the log is written as JSON. -/
  jsonLog : Bool := false
  deriving DecidableEq, Repr

/-- A command line that has been read. -/
inductive Invocation
  | run (options : Options)
  | showVersion
  | showHelp
  /-- The command line is not understood. -/
  | misuse
  deriving DecidableEq, Repr

namespace CommandLine

/-- An option that stands for itself. -/
inductive Switch
  | dumpState
  | journal
  | printSettings
  | verbose
  | jsonLog

/-- An option that a value belongs to. -/
inductive Setting
  | settings
  | stateFile

/-- What an option is. -/
inductive OptionKind
  | switch (s : Switch)
  | setting (s : Setting)
  | version
  | help

/-- The option of a long name. -/
def longOption? (name : String) : Option OptionKind :=
  match name with
  | "config" => some (.setting .settings)
  | "state-file" => some (.setting .stateFile)
  | "dump-state" => some (.switch .dumpState)
  | "journal" => some (.switch .journal)
  | "print-config" => some (.switch .printSettings)
  | "verbose" => some (.switch .verbose)
  | "json" => some (.switch .jsonLog)
  | "version" => some .version
  | "help" => some .help
  | _ => none

/-- The option of a letter. -/
def letterOption? (c : Char) : Option OptionKind :=
  match c with
  | 'c' => some (.setting .settings)
  | 'v' => some (.switch .verbose)
  | 'V' => some .version
  | 'h' => some .help
  | _ => none

/-- Turns a switch on, unless it is on already. -/
def turnOn? (o : Options) : Switch → Option Options
  | .dumpState => if o.dumpState then none else some { o with dumpState := true }
  | .journal => if o.journal then none else some { o with journal := true }
  | .printSettings => if o.printSettings then none else some { o with printSettings := true }
  | .verbose => if o.verbose then none else some { o with verbose := true }
  | .jsonLog => if o.jsonLog then none else some { o with jsonLog := true }

/-- Sets a value, unless it is set already or the value is empty. -/
def assign? (o : Options) (s : Setting) (value : List Char) : Option Options :=
  if value.isEmpty then none
  else match s with
    | .settings => if o.settings.isSome then none else some { o with settings := some value }
    | .stateFile => if o.stateFile.isSome then none else some { o with stateFile := some value }

/-- Sets the program, unless it is set already or empty. -/
def setProgram? (o : Options) (path : List Char) : Option Options :=
  if path.isEmpty || o.program.isSome then none else some { o with program := some path }

/-- Where a reading of arguments stands. -/
inductive Progress
  /-- An argument has been read. -/
  | options (o : Options)
  /-- An option waits for its value. -/
  | awaiting (o : Options) (s : Setting)
  /-- The reading is decided. -/
  | decided (i : Invocation)

/-- Goes on with options, or has failed. -/
def Progress.ofOptions? : Option Options → Progress
  | some o => .options o
  | none => .decided .misuse

/-- Reads letters joined to one argument.  What follows the letter of an option with
a value is the value, with or without an equals sign before it. -/
def readLetters (o : Options) : List Char → Progress
  | [] => .options o
  | c :: rest =>
    match letterOption? c with
    | none => .decided .misuse
    | some .version => .decided .showVersion
    | some .help => .decided .showHelp
    | some (.switch s) =>
      match turnOn? o s with
      | some o => readLetters o rest
      | none => .decided .misuse
    | some (.setting s) =>
      match rest with
      | [] => .awaiting o s
      | '=' :: value => .ofOptions? (assign? o s value)
      | value => .ofOptions? (assign? o s value)

/-- Reads a long option, with its value if one is attached by an equals sign. -/
def readLong (o : Options) (argument : List Char) : Progress :=
  let name := argument.takeWhile (· ≠ '=')
  let attached := (argument.dropWhile (· ≠ '=')).tail?
  match longOption? (String.ofList name), attached with
  | some .version, none => .decided .showVersion
  | some .help, none => .decided .showHelp
  | some (.switch s), none => .ofOptions? (turnOn? o s)
  | some (.setting s), none => .awaiting o s
  | some (.setting s), some value => .ofOptions? (assign? o s value)
  | _, _ => .decided .misuse

/-- Reads the arguments behind two dashes, of which there may be one. -/
def readOperands (o : Options) : List (List Char) → Invocation
  | [] => .run o
  | path :: rest =>
    match setProgram? o path with
    | some o => readOperands o rest
    | none => .misuse

/-- Reads arguments from a given point on.  An option that waits for its value takes
the next argument, unless that is an option itself. -/
def readFrom : Progress → List (List Char) → Invocation
  | .decided i, _ => i
  | .options o, [] => .run o
  | .awaiting .., [] => .misuse
  | .options o, argument :: rest =>
    match argument with
    | ['-', '-'] => readOperands o rest
    | '-' :: '-' :: long => readFrom (readLong o long) rest
    | '-' :: c :: letters => readFrom (readLetters o (c :: letters)) rest
    | path => readFrom (.ofOptions? (setProgram? o path)) rest
  | .awaiting o s, argument :: rest =>
    match argument with
    | '-' :: _ :: _ => .misuse
    | value => readFrom (.ofOptions? (assign? o s value)) rest

end CommandLine

/-- A command line that has been read. -/
def Invocation.ofArguments (arguments : List (List Char)) : Invocation :=
  CommandLine.readFrom (.options {}) arguments

end NumericControl
