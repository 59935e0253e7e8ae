import NumericControl.Binary64.Arithmetic
import NumericControl.Binary64.Shortest
import NumericControl.Enumerated
import NumericControl.Simulator.State
import NumericControl.Text.Blank
import NumericControl.Toml.Document

/-!
# Settings

The simulator reads its settings from a TOML document with two tables.  `shared`
says how much is logged and under which name, `machine` what the machine accepts
and where its state is kept.  Settings are read first and judged afterwards.

A table may also be given as a list of its values in order.

## Main definitions

* `LogLevel`, `SharedSettings`, `MachineSettings`, `Settings` — the settings.
* `Settings.ofText?` — the settings that a text gives.
* `Settings.check` — what is wrong with them.
* `Settings.toText` — the settings as a document.
-/

namespace NumericControl

/-- How much is logged, the most first. -/
inductive LogLevel
  | trace
  | debug
  | info
  | warn
  | error
  deriving DecidableEq, Repr

instance : Inhabited LogLevel := ⟨.info⟩

instance : Enumerated LogLevel where
  all := [.trace, .debug, .info, .warn, .error]
  name
    | .trace => "trace"
    | .debug => "debug"
    | .info => "info"
    | .warn => "warn"
    | .error => "error"
  mem_all a := by cases a <;> decide
  name_inj a b := by cases a <;> cases b <;> decide

/-- The name of a level in the log. -/
def LogLevel.label (level : LogLevel) : String :=
  (Enumerated.name level).toUpper

/-- The `shared` table. -/
structure SharedSettings where
  logLevel : LogLevel
  serviceName : List Char
  deriving DecidableEq, Repr

/-- The `machine` table. -/
structure MachineSettings where
  limits : Limits Binary64
  /-- Where the state is kept from run to run. -/
  stateFile : Option (List Char)
  deriving DecidableEq, Repr

/-- The settings of the simulator. -/
structure Settings where
  shared : SharedSettings
  machine : MachineSettings
  deriving DecidableEq, Repr

/-- The settings where no file gives any. -/
def Settings.standard : Settings where
  shared := ⟨default, "ngc-sim".toList⟩
  machine := ⟨.standard, none⟩

/-! ### Reading -/

namespace Settings

open Toml (Value Entries)

/-- A number.  A whole number is accepted if it fits into 64 bits, with a sign or
without. -/
def number? : Value → Option Binary64
  | .float x => some x
  | .integer n =>
    if -0x8000000000000000 ≤ n ∧ n < 0x10000000000000000 then
      some (.ofDecimal ⟨n < 0, n.natAbs, 0⟩)
    else none
  | _ => none

/-- A natural number of 32 bits. -/
def count? : Value → Option UInt32
  | .integer n => if 0 ≤ n ∧ n < 0x100000000 then some (.ofNat n.toNat) else none
  | _ => none

/-- A text. -/
def text? : Value → Option (List Char)
  | .string s => some s
  | _ => none

/-- A level by its name.  The name may also be the one key of a table, with nothing
in it. -/
def level? : Value → Option LogLevel
  | .string s => Enumerated.ofName? (String.ofList s)
  | .table _ [(key, .table _ [])] | .table _ [(key, .array [])] =>
    Enumerated.ofName? (String.ofList key)
  | _ => none

/-- Reads a value that may be missing. -/
def orDefault {α : Type} (fallback : α) (read : Value → Option α) : Option Value → Option α
  | none => some fallback
  | some v => read v

/-- The values of the given keys of a table, or of a list in that order. -/
def fields? (keys : List String) : Value → Option (List (Option Value))
  | .table _ entries => some (keys.map fun key => Entries.find? entries key.toList)
  | .array items | .tables items => some ((List.range keys.length).map fun i => items[i]?)
  | _ => none

/-- Whether the values of the other keys of a table can be known.  They are ignored, but
looked at; the values of a list behind those that have a key are not. -/
def othersAreReadable (keys : List String) : Value → Bool
  | .table _ entries =>
    Toml.entriesAreReadable (entries.filter fun entry => !keys.contains (String.ofList entry.1))
  | _ => true

/-- The keys of the `shared` table. -/
def sharedKeys : List String :=
  ["log_level", "service_name"]

/-- The `shared` table.  Its service name has to be given; keys that it does not
know are ignored. -/
def shared? (v : Value) : Option SharedSettings := do
  if !othersAreReadable sharedKeys v then none
  match ← fields? sharedKeys v with
  | [level, some name] => return ⟨← orDefault default level? level, ← text? name⟩
  | _ => none

/-- The keys of the `machine` table. -/
def machineKeys : List String :=
  ["max_feed_rate", "max_spindle_speed", "tool_count", "state_file"]

/-- Whether a value has no keys but the given ones. -/
def hasOnly (keys : List String) : Value → Bool
  | .table _ entries => entries.all fun entry => keys.contains (String.ofList entry.1)
  | _ => true

/-- The `machine` table, in which every key may be missing and no other may stand. -/
def machine? (v : Value) : Option MachineSettings := do
  if !hasOnly machineKeys v then none
  match ← fields? machineKeys v with
  | [feed, spindle, tools, file] =>
    let standard : Limits Binary64 := .standard
    return {
      limits := {
        maxFeedRate := ← orDefault standard.maxFeedRate number? feed
        maxSpindleSpeed := ← orDefault standard.maxSpindleSpeed number? spindle
        toolCount := ← orDefault standard.toolCount count? tools }
      stateFile := ← orDefault none (fun v => some <$> text? v) file }
  | _ => none

/-- The settings that a text gives.  Without a `machine` table its values are the
standard ones.  Other tables and keys are ignored. -/
def ofText? (s : List Char) : Option Settings := do
  let entries ← Toml.parse s
  if !othersAreReadable ["shared", "machine"] (.table .header entries) then none
  let shared ← shared? (← entries.find? "shared".toList)
  let machine ← orDefault standard.machine machine? (entries.find? "machine".toList)
  return ⟨shared, machine⟩

end Settings

/-! ### Judging -/

/-- What is wrong with settings. -/
inductive SettingsFault
  /-- The service name is blank. -/
  | blankServiceName
  /-- A limit is not a positive finite number. -/
  | badLimit (key : String) (value : Binary64)
  deriving DecidableEq, Repr

/-- The message of settings that are wrong. -/
def SettingsFault.message : SettingsFault → String
  | .blankServiceName => "invalid config: shared.service_name is blank"
  | .badLimit key value =>
    "invalid config: " ++ key ++ " must be > 0, got " ++ plainNumber.render value

/-- Whether a limit is a positive finite number. -/
def isUsableLimit (x : Binary64) : Bool :=
  x.isFinite && !Number.le x Number.zero

/-- What is wrong with the `shared` table. -/
def SharedSettings.check (s : SharedSettings) : Option SettingsFault :=
  if s.serviceName.all isBlank then some .blankServiceName else none

/-- What is wrong with limits. -/
def Limits.check (l : Limits Binary64) : Option SettingsFault :=
  if !isUsableLimit l.maxFeedRate then some (.badLimit "max_feed_rate" l.maxFeedRate)
  else if !isUsableLimit l.maxSpindleSpeed then
    some (.badLimit "max_spindle_speed" l.maxSpindleSpeed)
  else none

/-- What is wrong with settings; the `shared` table comes first. -/
def Settings.check (s : Settings) : Option SettingsFault :=
  s.shared.check <|> s.machine.limits.check

/-! ### Writing -/

/-- Numbers in settings: positional, a whole number with `.0`. -/
def settingsNumber : NumberStyle :=
  { plainNumber with wholePoint := true }

/-- The settings as a document. -/
def Settings.toText (s : Settings) : String :=
  let limits := s.machine.limits
  let quoted (t : List Char) : String := String.ofList (Toml.quote t)
  let stateFile :=
    match s.machine.stateFile with
    | some path => "state_file = " ++ quoted path ++ "\n"
    | none => ""
  "[shared]\n"
    ++ "log_level = " ++ quoted (Enumerated.name s.shared.logLevel).toList ++ "\n"
    ++ "service_name = " ++ quoted s.shared.serviceName ++ "\n"
    ++ "\n[machine]\n"
    ++ "max_feed_rate = " ++ settingsNumber.render limits.maxFeedRate ++ "\n"
    ++ "max_spindle_speed = " ++ settingsNumber.render limits.maxSpindleSpeed ++ "\n"
    ++ "tool_count = " ++ toString limits.toolCount ++ "\n"
    ++ stateFile

end NumericControl
