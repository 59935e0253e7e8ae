import NumericControl.Text.Lines

/-!
# Trees of files

The simulator reads and writes a few files.  What it can know of them is a tree: at
each place there is a file with its bytes, a directory with its entries, or nothing.
A path is followed from the working directory, or from the root if it begins with a
slash.

## Main definitions

* `FileNode` — a file or a directory, with what is below it.
* `FileTree` — the root and the working directory.
* `FileTree.walk` — the place that a path leads to.
* `FileTree.entry`, `FileTree.read` — what stands at a path.
* `FileTree.createDirectories`, `write`, `remove` — changes.

## Main results

* `FileTree.find?_put` — what is put at a place is found there.
-/

namespace NumericControl

/-- The names that lead from the root to a place. -/
abbrev Place := List (List Char)

/-- What may stand at a place, without what is below it. -/
inductive FileEntry
  | file (content : List UInt8)
  | directory
  deriving DecidableEq, Repr

/-- A file with its bytes, or a directory with its entries by their names. -/
inductive FileNode
  | file (content : List UInt8)
  | directory (entries : List (List Char × FileNode))

namespace FileNode

/-- A node without what is below it. -/
def entry : FileNode → FileEntry
  | .file content => .file content
  | .directory _ => .directory

/-- The node of an entry, with nothing below it. -/
def ofEntry : FileEntry → FileNode
  | .file content => .file content
  | .directory => .directory []

/-- The entries of a directory.  A file has none. -/
def entries : FileNode → List (List Char × FileNode)
  | .file _ => []
  | .directory entries => entries

/-- The node at a place below a node. -/
def find? (node : FileNode) : Place → Option FileNode
  | [] => some node
  | name :: place => (node.entries.lookup name).bind fun child => child.find? place

/-- A node with another one put at a place below it.  The directories that lead there
are made. -/
def put (node : FileNode) (place : Place) (new : FileNode) : FileNode :=
  match place with
  | [] => new
  | name :: place =>
    let child := (node.entries.lookup name).getD (.directory [])
    .directory ((name, child.put place new) :: node.entries.filter (·.1 ≠ name))

/-- A node without what stands at a place below it.  The node itself stays. -/
def erase (node : FileNode) : Place → FileNode
  | [] => node
  | name :: place =>
    match node.entries.lookup name with
    | none => node
    | some child =>
      let others := node.entries.filter (·.1 ≠ name)
      .directory (if place = [] then others else (name, child.erase place) :: others)

theorem find?_put (node : FileNode) (place : Place) (new : FileNode) :
    (node.put place new).find? place = some new := by
  induction place generalizing node with
  | nil => rfl
  | cons name place ih => simp [put, find?, entries, ih]

end FileNode

/-- Why a path leads to nothing. -/
inductive PathFault
  /-- There is nothing. -/
  | notFound
  /-- The path goes on behind a file. -/
  | notDirectory
  /-- There is a directory where a file is wanted. -/
  | isDirectory
  /-- The path, or a name on it, is longer than it can be. -/
  | nameTooLong
  /-- The path holds the character that ends paths. -/
  | holdsNul
  deriving DecidableEq, Repr

/-- The message of a path that leads to nothing. -/
def PathFault.message : PathFault → String
  | .notFound => "No such file or directory (os error 2)"
  | .notDirectory => "Not a directory (os error 20)"
  | .isDirectory => "Is a directory (os error 21)"
  | .nameTooLong => "File name too long (os error 36)"
  | .holdsNul => "file name contained an unexpected NUL byte"

/-- The files and directories from the root on, and the place of the working
directory. -/
structure FileTree where
  root : FileNode
  workingPlace : Place

namespace FileTree

/-- The tree that holds nothing but the working directory. -/
def empty (workingPlace : Place) : FileTree :=
  ⟨.put (.directory []) workingPlace (.directory []), workingPlace⟩

/-- What stands at a place. -/
def find? (t : FileTree) (place : Place) : Option FileEntry :=
  (t.root.find? place).map FileNode.entry

/-- The tree with an entry at a place. -/
def put (t : FileTree) (place : Place) (entry : FileEntry) : FileTree :=
  { t with root := t.root.put place (.ofEntry entry) }

/-- The tree without the entry at a place. -/
def erase (t : FileTree) (place : Place) : FileTree :=
  { t with root := t.root.erase place }

theorem find?_put (t : FileTree) (place : Place) (entry : FileEntry) :
    (t.put place entry).find? place = some entry := by
  cases entry <;> simp [find?, put, FileNode.find?_put, FileNode.ofEntry, FileNode.entry]

/-! ### Paths -/

/-- Whether a name stays where it is.  An empty name stands between two slashes. -/
def isHere (name : List Char) : Bool :=
  name = [] || name = ['.']

/-- Whether a name has more bytes than a name can have. -/
def isTooLong (name : List Char) : Bool :=
  255 < byteLength name

/-- What is wrong with the text of a path, wherever it leads.  A path has fewer than
4096 bytes. -/
def textFault? (path : List Char) : Option PathFault :=
  if path.contains '\x00' then some .holdsNul
  else if 4096 ≤ byteLength path then some .nameTooLong
  else none

/-- Where a path starts, and the names along it. -/
def steps (t : FileTree) (path : List Char) : Place × List (List Char) :=
  match path with
  | '/' :: rest => ([], rest.splitOn '/')
  | path => (t.workingPlace, path.splitOn '/')

/-- One step from a place, which has to be a directory.  Above the root is the
root. -/
def follow (t : FileTree) (place : Place) (name : List Char) : Except PathFault Place :=
  match t.find? place with
  | none => .error .notFound
  | some (.file _) => .error .notDirectory
  | some .directory =>
    if isHere name then .ok place
    else if name = ['.', '.'] then .ok place.dropLast
    else if isTooLong name then .error .nameTooLong
    else .ok (place ++ [name])

/-- The place that a path leads to.  There may be nothing, but what it passes through
has to be directories.  The empty path leads nowhere. -/
def walk (t : FileTree) (path : List Char) : Except PathFault Place :=
  match textFault? path with
  | some fault => .error fault
  | none =>
    if path = [] then .error .notFound
    else
      let (start, names) := t.steps path
      names.foldlM t.follow start

/-- What stands at a path. -/
def entry (t : FileTree) (path : List Char) : Except PathFault FileEntry := do
  match t.find? (← t.walk path) with
  | some e => .ok e
  | none => .error .notFound

/-- Whether something stands at a path. -/
def exists? (t : FileTree) (path : List Char) : Bool :=
  (t.entry path).toOption.isSome

/-- The bytes of the file at a path. -/
def read (t : FileTree) (path : List Char) : Except PathFault (List UInt8) := do
  match ← t.entry path with
  | .file content => .ok content
  | .directory => .error .isDirectory

/-! ### Changes -/

/-- A path without its last name, or `none` if it has no name.  Names that stay where
they are do not count at its end. -/
def parent? (path : List Char) : Option (List Char) :=
  match (path.splitOn '/').reverse.dropWhile isHere with
  | [] => none
  | _ :: names => some (['/'].intercalate (names.dropWhile isHere).reverse)

/-- The tree with all directories along some names, and the place they lead to.  The
directories made before a fault stay. -/
def makeDirectories (t : FileTree) (place : Place) :
    List (List Char) → FileTree × Except PathFault Place
  | [] => (t, .ok place)
  | name :: names =>
    if isHere name then t.makeDirectories place names
    else if name = ['.', '.'] then t.makeDirectories place.dropLast names
    else if isTooLong name then (t, .error .nameTooLong)
    else
      let next := place ++ [name]
      match t.find? next with
      | some .directory => t.makeDirectories next names
      | some (.file _) => (t, .error .notDirectory)
      | none => (t.put next .directory).makeDirectories next names

/-- The tree with the directories that the last name of a path needs.  If the path to
them is faulty as a text, none is made. -/
def createDirectories (t : FileTree) (path : List Char) : FileTree × Option PathFault :=
  match parent? path with
  | none => (t, none)
  | some parent =>
    match textFault? parent with
    | some fault => (t, some fault)
    | none =>
      let (start, names) := t.steps parent
      match t.makeDirectories start names with
      | (t, .ok _) => (t, none)
      | (t, .error fault) => (t, some fault)

/-- The tree with a file at a path.  The directory it is in has to exist. -/
def write (t : FileTree) (path : List Char) (content : List UInt8) : Except PathFault FileTree := do
  let place ← t.walk path
  if t.find? place = some .directory then .error .isDirectory
  else .ok (t.put place (.file content))

/-- The tree without the file at a path. -/
def remove (t : FileTree) (path : List Char) : Except PathFault FileTree := do
  let place ← t.walk path
  match t.find? place with
  | some (.file _) => .ok (t.erase place)
  | some .directory => .error .isDirectory
  | none => .error .notFound

end FileTree

end NumericControl
