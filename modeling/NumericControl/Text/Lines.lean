/-!
# Lines of a text

A program is a sequence of bytes.  It is cut into lines at the line feeds; a
carriage return right before a line feed belongs to the line end, and the last line
needs no end.  Each line is then read as UTF-8 by itself, so that a line that is
not UTF-8 does not affect the lines before it.

The cut is defined for bytes and for characters alike.

## Main definitions

* `splitLines` — the lines of a sequence.
* `decodeUtf8?` — the characters that a run of bytes encodes.
* `encodeUtf8`, `byteLength` — the bytes that encode a text, and how many there are.
* `InputFault`, `InputLine` — a line of input, or why there is none.
* `inputLines` — the lines of a sequence of bytes.
-/

namespace NumericControl

/-- The lines of a sequence, without their ends. -/
def splitLines {α : Type} [DecidableEq α] (cr lf : α) : List α → List (List α)
  | [] => []
  | [a] => if a = lf then [[]] else [[a]]
  | a :: b :: rest =>
    if a = lf then [] :: splitLines cr lf (b :: rest)
    else if a = cr ∧ b = lf then [] :: splitLines cr lf rest
    else match splitLines cr lf (b :: rest) with
      | [] => [[a]]
      | line :: lines => (a :: line) :: lines

/-- The lines of a text. -/
def textLines (s : List Char) : List (List Char) :=
  splitLines '\r' '\n' s

/-- The characters that a run of bytes encodes, if it is UTF-8. -/
def decodeUtf8? (bytes : List UInt8) : Option (List Char) :=
  (String.fromUTF8? ⟨bytes.toArray⟩).map String.toList

/-- The bytes that encode a text. -/
def encodeUtf8 (s : List Char) : List UInt8 :=
  s.flatMap String.utf8EncodeChar

/-- How many bytes a text takes up. -/
def byteLength (s : List Char) : Nat :=
  (encodeUtf8 s).length

/-- Why there is no further line of input. -/
inductive InputFault
  /-- The line is not UTF-8. -/
  | notUtf8
  /-- What is to be read is a directory. -/
  | isDirectory
  deriving DecidableEq, Repr

/-- The message of an input that fails. -/
def InputFault.message : InputFault → String
  | .notUtf8 => "I/O error: stream did not contain valid UTF-8"
  | .isDirectory => "I/O error: Is a directory (os error 21)"

/-- A line of input, or why there is none. -/
abbrev InputLine := Except InputFault (List Char)

/-- A run of bytes as a line of input. -/
def InputLine.ofBytes (bytes : List UInt8) : InputLine :=
  match decodeUtf8? bytes with
  | some line => .ok line
  | none => .error .notUtf8

/-- The lines of a sequence of bytes. -/
def inputLines (bytes : List UInt8) : List InputLine :=
  (splitLines 13 10 bytes).map InputLine.ofBytes

end NumericControl
