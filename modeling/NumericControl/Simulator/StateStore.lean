import NumericControl.FileTree
import NumericControl.Simulator.StateFile

/-!
# Keeping the state

The state is kept from run to run in one file of a tree.  A file that is not there
and a file of another version both mean that the machine starts afresh; a file that
holds no record is a fault.

## Main definitions

* `StateFault` — what can go wrong with the state file.
* `StoredState`, `loadState` — what a state file holds.
* `saveState`, `deleteState` — the tree after the file is written or removed.
-/

namespace NumericControl

/-- What can go wrong with the state file. -/
inductive StateFault
  /-- The directory of the file cannot be made. -/
  | noDirectory
  /-- The file cannot be written. -/
  | notCreated
  /-- The file holds no record. -/
  | notDecoded
  /-- The file cannot be removed. -/
  | notDeleted
  deriving DecidableEq, Repr

/-- The message of a fault of the state file. -/
def StateFault.message : StateFault → String
  | .noDirectory => "State persistence error: Failed to create directory"
  | .notCreated => "State persistence error: Failed to create state file"
  | .notDecoded => "State persistence error: Failed to deserialize state"
  | .notDeleted => "State persistence error: Failed to delete state file"

/-- What a state file holds. -/
inductive StoredState
  /-- There is no file. -/
  | missing
  /-- A record of another version. -/
  | otherVersion (version : UInt32)
  /-- A record of the current version. -/
  | stored (record : StateRecord)
  deriving DecidableEq, Repr

/-- The state to start from, if there is one. -/
def StoredState.state? : StoredState → Option (State Binary64)
  | .stored record => some record.state
  | .missing | .otherVersion _ => none

/-- What the bytes of a state file hold.  The whole record is read before its version
is looked at. -/
def StoredState.ofBytes? (bytes : List UInt8) : Option StoredState := do
  let record ← StateRecord.decode? bytes
  if record.version = StateRecord.currentVersion then some (.stored record)
  else some (.otherVersion record.version)

/-- What the state file at a path holds. -/
def loadState (t : FileTree) (path : List Char) : Except StateFault StoredState :=
  match t.entry path with
  | .error _ => .ok .missing
  | .ok .directory => .error .notDecoded
  | .ok (.file bytes) =>
    match StoredState.ofBytes? bytes with
    | some stored => .ok stored
    | none => .error .notDecoded

/-- The tree with a state saved at a path at a given time, and what went wrong.  The
directories that the file needs are made first. -/
def saveState (t : FileTree) (path : List Char) (state : State Binary64) (now : UInt64) :
    FileTree × Option StateFault :=
  match t.createDirectories path with
  | (t, some _) => (t, some .noDirectory)
  | (t, none) =>
    match t.write path (StateRecord.ofState state now).encode with
    | .ok t => (t, none)
    | .error _ => (t, some .notCreated)

/-- The tree without the state file at a path.  A file that is not there is no fault. -/
def deleteState (t : FileTree) (path : List Char) : Except StateFault FileTree :=
  if !t.exists? path then .ok t
  else match t.remove path with
    | .ok t => .ok t
    | .error _ => .error .notDeleted

end NumericControl
