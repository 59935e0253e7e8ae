import NumericControl.Binary64.Basic

/-!
# TOML values

A settings file is a TOML document, which is a table of values.  A table remembers
how it came to be, because a table may be added to only by the kind of statement
that created it.

## Main definitions

* `Toml.Value`, `Toml.Origin` — values, and how a table came to be.
* `Toml.Value.isReadable` — whether every number in a value can be known.
* `Toml.Reads` — what takes a value off the head of a text.
-/

namespace NumericControl.Toml

/-- How a table came to be. -/
inductive Origin
  /-- A header names it, or it is the document. -/
  | header
  /-- A header names a table inside it. -/
  | implied
  /-- A dotted key passes through it. -/
  | dotted
  /-- It is written between braces, and so complete. -/
  | inline
  deriving DecidableEq, Repr

/-- A value.  The entries of a table keep their order. -/
inductive Value
  | string (s : List Char)
  | integer (n : Int)
  | float (x : Binary64)
  /-- What is written as numbers are, but is too large to be known, or no number.  Only
  where it is looked at it is a fault. -/
  | unreadable
  | boolean (b : Bool)
  /-- A date, a time or both; only that it is well formed is known. -/
  | datetime
  | array (items : List Value)
  /-- Tables written one by one under a header in double brackets. -/
  | tables (items : List Value)
  | table (origin : Origin) (entries : List (List Char × Value))

/-- The entries of a table. -/
abbrev Entries := List (List Char × Value)

/-- The value of a key. -/
def Entries.find? (entries : Entries) (key : List Char) : Option Value :=
  entries.lookup key

/-- The entries with the value of a key replaced, or added at the end. -/
def Entries.put (key : List Char) (value : Value) : Entries → Entries
  | [] => [(key, value)]
  | entry :: entries =>
    if entry.1 = key then (key, value) :: entries else entry :: put key value entries

mutual

/-- Whether every number in a value can be known. -/
def Value.isReadable : Value → Bool
  | .unreadable => false
  | .array items | .tables items => areReadable items
  | .table _ entries => entriesAreReadable entries
  | _ => true

/-- Whether every number in some values can be known. -/
def areReadable : List Value → Bool
  | [] => true
  | value :: values => value.isReadable && areReadable values

/-- Whether every number in the entries of a table can be known. -/
def entriesAreReadable : Entries → Bool
  | [] => true
  | (_, value) :: entries => value.isReadable && entriesAreReadable entries

end

/-- What takes a value off the head of a text, or fails. -/
abbrev Reads := StateT (List Char) Option

namespace Reads

/-- The next character, which stays. -/
def peek : Reads (Option Char) := do
  return (← get).head?

/-- Takes a given character. -/
def char (c : Char) : Reads Unit := fun s =>
  match s with
  | [] => none
  | a :: rest => if a = c then some ((), rest) else none

/-- Takes the longest run of characters of a class. -/
def run (p : Char → Bool) : Reads (List Char) := fun s =>
  some (s.takeWhile p, s.dropWhile p)

/-- Takes blanks and tabs. -/
def blanks : Reads Unit := do
  let _ ← run fun c => c = ' ' || c = '\t'

/-- Takes what a function on texts takes. -/
def from? {α : Type} (f : List Char → Option (α × List Char)) : Reads α := f

end Reads

/-- Whether a character may stand in a comment or between quotes: a tab, or no
control character. -/
def isPrintable (c : Char) : Bool :=
  c = '\t' || 0x20 ≤ c.toNat && c.toNat ≠ 0x7F

/-- The value of a digit in a base up to sixteen. -/
def digit? (base : Nat) (c : Char) : Option Nat :=
  let n :=
    if c.isDigit then c.toNat - 0x30
    else if 'a' ≤ c ∧ c ≤ 'f' then c.toNat - 0x61 + 10
    else if 'A' ≤ c ∧ c ≤ 'F' then c.toNat - 0x41 + 10
    else base
  if n < base then some n else none

/-- The number that a run of digits writes in a base up to sixteen. -/
def ofDigits? (base : Nat) (ds : List Char) : Option Nat :=
  ds.foldlM (fun n d => (base * n + ·) <$> digit? base d) 0

end NumericControl.Toml
