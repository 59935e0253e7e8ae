import NumericControl.Launch
import Std.Time.DateTime.Timestamp

/-!
# The executable

The program is run on the part of the file system that its arguments and settings
name.  That part is read beforehand, and what the run changed in it is written
afterwards.
-/

namespace NumericControl

/-- What stands at a path of the file system. -/
def lookUp (path : List Char) : IO (Option FileEntry) := do
  try
    return some (.file (← IO.FS.readBinFile (String.ofList path)).toList)
  catch
    | .noFileOrDirectory .. => return none
    | .inappropriateType .. => return some .directory
    | other => throw other

/-- The paths that lead to a path, from the shortest on. -/
def pathsAlong (path : List Char) : List (List Char) :=
  let names := path.splitOn '/'
  (List.range names.length).map fun i => ['/'].intercalate (names.take (i + 1))

/-- A tree with what stands along a path of the file system. -/
def scan (t : FileTree) (path : List Char) : IO FileTree :=
  (pathsAlong path).foldlM
    (fun t path => do
      match t.walk path with
      | .error _ => return t
      | .ok place =>
        if (t.find? place).isSome then return t
        match ← lookUp path with
        | some entry => return t.put place entry
        | none => return t)
    t

/-- Brings the file system up to date along a path of a tree. -/
def store (before after : FileTree) (path : List Char) : IO Unit :=
  (pathsAlong path).forM fun path => do
    match after.walk path with
    | .error _ => return ()
    | .ok place =>
      match after.find? place with
      | none => return ()
      | some entry =>
        if before.find? place ≠ some entry then
          match entry with
          | .directory => IO.FS.createDir (String.ofList path)
          | .file bytes => IO.FS.writeBinFile (String.ofList path) ⟨bytes.toArray⟩

/-- All that is left of a stream. -/
partial def readRest (stream : IO.FS.Stream) (read : ByteArray) : IO (List UInt8) := do
  let chunk ← stream.read 65536
  if chunk.isEmpty then return read.toList else readRest stream (read ++ chunk)

/-- The path of the state file of a command line, on the files of a tree. -/
def statePath (options : Options) (t : FileTree) : List Char :=
  ((options.loadSettings t).toOption.bind options.statePath?).getD []

/-- The place of the working directory. -/
def workingPlace : IO Place := do
  return ((← IO.currentDir).toString.toList.splitOn '/').filter (!FileTree.isHere ·)

/-- The tree and the standard input of a command line. -/
def surroundings : Invocation → IO (FileTree × List UInt8)
  | .misuse | .showVersion | .showHelp => return (.empty [], [])
  | .run options => do
    let t ← scan (.empty (← workingPlace)) (options.settings.getD [])
    if options.printSettings then return (t, [])
    let t ← scan t (options.program.getD [])
    let t ← scan t (statePath options t)
    let stdin ← if options.program.isNone then readRest (← IO.getStdin) .empty else pure []
    return (t, stdin)

/-- Runs a command line and returns its exit status. -/
def runCommandLine (arguments : List (List Char)) : IO UInt32 := do
  let invocation := Invocation.ofArguments arguments
  let (before, stdin) ← surroundings invocation
  let now ← Std.Time.Timestamp.now
  let outcome := launch arguments before stdin (.ofInt now.toSecondsSinceUnixEpoch.val)
  if let .run options := invocation then
    IO.eprint (outcome.complaints options.jsonLog)
    store before outcome.tree (statePath options before)
  else if invocation = .misuse then IO.eprint usage
  IO.print outcome.output
  return .ofNat outcome.exit

end NumericControl

/-- Runs the simulator on its command line. -/
def main (arguments : List String) : IO UInt32 :=
  NumericControl.runCommandLine (arguments.map String.toList)
