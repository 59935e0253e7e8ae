import NumericControl.Toml.Quoted
import NumericControl.Toml.Scalar

/-!
# TOML documents

A document is a sequence of statements, one a line: a header that names the table
the following lines belong to, or a key with its value.  A key or header may pass
through tables, separated by dots, and creates those that do not exist.

Keys may have parts, and arrays and tables between braces may be nested, up to a
limit.  The functions that read values are also bounded by a number that the length of
the text cannot exhaust, so that bound is never met.

## Main definitions

* `Toml.value` — takes a value.
* `Toml.Value.update` — changes a table inside a table.
* `Toml.Statement`, `Toml.Builder` — statements, and what they build.
* `Toml.parse` — the table of a whole document.
-/

namespace NumericControl.Toml

/-! ### Keys -/

/-- Whether a character may stand in a key without quotes. -/
def isKeyChar (c : Char) : Bool :=
  c.isAlphanum || c = '_' || c = '-'

/-- Takes one part of a key. -/
def simpleKey : Reads (List Char) := do
  match ← Reads.peek with
  | some '\x22' | some '\x27' => lineString
  | _ =>
    let key ← Reads.run isKeyChar
    if key.isEmpty then failure else return key

/-- How many parts a key may have, and how deep arrays and tables between braces may be
nested. -/
def nestingLimit : Nat := 80

/-- Takes the parts of a key behind the first, fewer than so many. -/
def keyTail : Nat → Reads (List (List Char))
  | 0 => failure
  | bound + 1 => do
    Reads.blanks
    if (← Reads.peek) = some '.' then
      Reads.char '.'
      Reads.blanks
      let key ← simpleKey
      return key :: (← keyTail bound)
    else return []

/-- Takes a key: all parts but the last, and the last. -/
def key : Reads (List (List Char) × List Char) := do
  Reads.blanks
  let first ← simpleKey
  let others ← keyTail nestingLimit
  match (first :: others).getLast? with
  | some last => return ((first :: others).dropLast, last)
  | none => failure

/-! ### Tables within tables -/

/-- The table reached from a table along a path, changed.  Tables that do not exist
are created; of tables written one by one the last is meant.  A table between braces
is complete.  A dotted key passes only through tables that no header names. -/
def Value.update (isDotted : Bool) (change : Origin → Entries → Option Value) :
    List (List Char) → Origin → Entries → Option Value
  | [], origin, entries => change origin entries
  | key :: path, origin, entries => do
    let child ← match entries.find? key with
      | none => update isDotted change path (if isDotted then .dotted else .implied) []
      | some (.table childOrigin children) =>
        if childOrigin = .inline ∨ (isDotted ∧ childOrigin = .header) then none
        else update isDotted change path childOrigin children
      | some (.tables items) =>
        match items.getLast? with
        | some (.table childOrigin children) => do
          let last ← update isDotted change path childOrigin children
          some (.tables (items.dropLast ++ [last]))
        | _ => none
      | some _ => none
    some (.table origin (entries.put key child))

/-- A table with a value under a dotted key.  A key is given once, and a table that a
header names is not added to by dotted keys, nor the other way round. -/
def Value.assign (path : List (List Char)) (key : List Char) (value : Value)
    (origin : Origin) (entries : Entries) : Option Value :=
  let change (origin : Origin) (entries : Entries) : Option Value :=
    if (origin == .dotted) = path.isEmpty then none
    else if (entries.find? key).isSome then none
    else some (.table origin (entries.put key value))
  Value.update true change path origin entries

/-! ### Values -/

/-- Leaves out blanks, line ends and comments. -/
def skipGaps (inComment : Bool) : List Char → Option (List Char)
  | [] => some []
  | '\r' :: '\n' :: rest => skipGaps false rest
  | c :: rest =>
    if c = '\n' then skipGaps false rest
    else if inComment then if isPrintable c then skipGaps true rest else none
    else if c = ' ' || c = '\t' then skipGaps false rest
    else if c = '#' then skipGaps true rest
    else some (c :: rest)

/-- Takes blanks, line ends and comments. -/
def gaps : Reads Unit := .from? fun s => (skipGaps false s).map fun rest => ((), rest)

mutual

/-- Takes a value in which so many further levels may be opened. -/
def value : Nat → Nat → Reads Value
  | _, 0 => failure
  | levels, bound + 1 => do
    match ← Reads.peek, levels with
    | some '\x22', _ | some '\x27', _ => Value.string <$> string
    | some '[', levels + 1 =>
      Reads.char '['
      Value.array <$> arrayItems levels bound
    | some '\x7b', levels + 1 =>
      Reads.char '\x7b'
      inlineEntries levels bound []
    | _, _ => scalar

/-- Takes the rest of an array, up to its closing bracket. -/
def arrayItems : Nat → Nat → Reads (List Value)
  | _, 0 => failure
  | levels, bound + 1 => do
    gaps
    if (← Reads.peek) = some ']' then
      Reads.char ']'
      return []
    else
      let item ← value levels bound
      gaps
      match ← Reads.peek with
      | some ',' =>
        Reads.char ','
        return item :: (← arrayItems levels bound)
      | _ =>
        Reads.char ']'
        return [item]

/-- Takes the rest of a table between braces, up to its closing brace.  It may go over
several lines. -/
def inlineEntries : Nat → Nat → Entries → Reads Value
  | _, 0, _ => failure
  | levels, bound + 1, entries => do
    gaps
    if (← Reads.peek) = some '\x7d' then
      Reads.char '\x7d'
      return .table .inline entries
    else
      let (path, last) ← key
      gaps
      Reads.char '='
      gaps
      let v ← value levels bound
      match ← StateT.lift (Value.assign path last v .inline entries) with
      | .table _ entries =>
        gaps
        match ← Reads.peek with
        | some ',' =>
          Reads.char ','
          inlineEntries levels bound entries
        | _ =>
          Reads.char '\x7d'
          return .table .inline entries
      | _ => failure

end

/-! ### Statements -/

/-- A line of a document that says something. -/
inductive Statement
  /-- The following lines belong to a table. -/
  | header (path : List (List Char)) (last : List Char)
  /-- The following lines belong to a new table of those written one by one. -/
  | tablesHeader (path : List (List Char)) (last : List Char)
  /-- A key has a value. -/
  | assign (path : List (List Char)) (last : List Char) (value : Value)

/-- Takes a header in single or double brackets. -/
def header : Reads Statement := do
  Reads.char '['
  if (← Reads.peek) = some '[' then
    Reads.char '['
    let (path, last) ← key
    Reads.char ']'
    Reads.char ']'
    return .tablesHeader path last
  else
    let (path, last) ← key
    Reads.char ']'
    return .header path last

/-- Takes a key and its value. -/
def assignment : Reads Statement := do
  let (path, last) ← key
  Reads.char '='
  Reads.blanks
  return .assign path last (← value nestingLimit (2 * (← get).length + 2))

/-- Takes what may stand at the end of a line, and the line end unless the text ends. -/
def lineEnd : Reads Unit := do
  Reads.blanks
  if (← Reads.peek) = some '#' then
    let _ ← Reads.run isPrintable
  match ← get with
  | [] => return
  | '\r' :: '\n' :: rest => set rest
  | c :: rest => if c = '\n' then set rest else failure

/-- Takes one line, which may say nothing. -/
def line : Reads (Option Statement) := do
  Reads.blanks
  let statement ← match ← Reads.peek with
    | none | some '#' | some '\n' | some '\r' => pure none
    | some '[' => some <$> header
    | some _ => some <$> assignment
  lineEnd
  return statement

/-- Takes the lines of a document, at most so many. -/
def lines : Nat → Reads (List Statement)
  | 0 => return []
  | bound + 1 => do
    if (← get).isEmpty then return []
    else
      let statement ← line
      return statement.toList ++ (← lines bound)

/-! ### Building -/

/-- What the statements so far have built. -/
structure Builder where
  /-- The document. -/
  entries : Entries
  /-- The path of the table that lines belong to. -/
  current : List (List Char)

namespace Builder

/-- The builder with the document changed at a path. -/
def change (b : Builder) (path : List (List Char)) (f : Origin → Entries → Option Value) :
    Option Builder := do
  match ← Value.update false f path .header b.entries with
  | .table _ entries => some { b with entries := entries }
  | _ => none

/-- The builder after one more statement. -/
def push (b : Builder) : Statement → Option Builder
  | .assign path last v => b.change b.current (Value.assign path last v)
  | .header path last => do
    let b ← b.change path fun origin entries =>
      match entries.find? last with
      | none => some (.table origin (entries.put last (.table .header [])))
      | some (.table .implied children) =>
        some (.table origin (entries.put last (.table .header children)))
      | some _ => none
    some { b with current := path ++ [last] }
  | .tablesHeader path last => do
    let b ← b.change path fun origin entries =>
      match entries.find? last with
      | none => some (.table origin (entries.put last (.tables [.table .header []])))
      | some (.tables items) =>
        some (.table origin (entries.put last (.tables (items ++ [.table .header []]))))
      | some _ => none
    some { b with current := path ++ [last] }

end Builder

/-- The entries of a document.  A byte-order mark at its head is left out. -/
def parse (s : List Char) : Option Entries := do
  let s := if s.head? = some '\ufeff' then s.tail else s
  let (statements, _) ← lines (s.length + 1) s
  let b ← statements.foldlM Builder.push ⟨[], []⟩
  some b.entries

end NumericControl.Toml
