import NumericControl.Fault
import NumericControl.Text.Blank

/-!
# The normal form of a line

A raw line holds a command and, behind the first opening parenthesis, a comment.
The command is put into normal form: letters become capitals, and blanks, control
characters, characters beyond ASCII and some punctuation are dropped.  A command
that begins with a slash is deleted, and with it the whole line.  A comment that
begins with `MSG` holds a message to the operator.

## Main definitions

* `Role`, `Char.role` — what a character does in a command.
* `NormalBlock` — a command in normal form and a message.
* `normalize` — the normal form of a raw line.
* `message?` — the message of a comment.
-/

namespace NumericControl

/-- The most characters a command may have. -/
def blockCapacity : Nat := 255

/-- What a character does in a command. -/
inductive Role
  /-- It stays in the command. -/
  | kept
  /-- It is left out. -/
  | dropped
  /-- It ends the command, and a comment follows. -/
  | comment
  deriving DecidableEq, Repr

/-- The punctuation that is left out of a command. -/
def droppedPunctuation : List Char :=
  ['!', '$', '%', ',', ';', ':', '?', '@', '^', '_', '~', '\x60', '\x27', '\x22']

/-- What a character does in a command.  Only ASCII characters stay. -/
def roleOf (c : Char) : Role :=
  if c = '(' then .comment
  else if c.toNat ≤ 0x20 || 0x7F ≤ c.toNat || droppedPunctuation.contains c then .dropped
  else .kept

/-- A line in normal form. -/
structure NormalBlock where
  /-- The command, in capitals. -/
  command : List Char
  /-- The message of a comment that begins with `MSG`. -/
  message : Option (List Char)
  deriving DecidableEq, Repr

namespace NormalBlock

/-- The normal form of a line that holds nothing. -/
def empty : NormalBlock :=
  ⟨[], none⟩

/-- Whether there is no command. -/
def isEmpty (b : NormalBlock) : Bool :=
  b.command.isEmpty

/-- Whether the command asks to leave the interpreter. -/
def isQuit (b : NormalBlock) : Bool :=
  b.command == ['Q']

end NormalBlock

/-- The message of a comment: what follows the letters `MSG`, in either case, up to
a closing parenthesis or the end of the line, without the blanks at its head. -/
def message? (comment : List Char) : Option (List Char) :=
  if (comment.take 3).map Char.toUpper = ['M', 'S', 'G'] then
    some (trimBlankLeft ((comment.drop 3).takeWhile (· != ')')))
  else none

/-- The normal form of the rest of a line, behind a command that has `room` free
places and is `begun` once a character of it was kept. -/
def normalizeFrom {α : Type} (room : Nat) (begun : Bool) :
    List Char → Except (BlockFault α) NormalBlock
  | [] => .ok .empty
  | c :: rest =>
    let c := c.toUpper
    match roleOf c with
    | .comment => .ok ⟨[], message? rest⟩
    | .dropped => normalizeFrom room begun rest
    | .kept =>
      if c = '/' && !begun then .ok .empty
      else match room with
        | 0 => .error (.tooLong blockCapacity)
        | room + 1 => do
          let b ← normalizeFrom room true rest
          return { b with command := c :: b.command }

/-- The normal form of a raw line. -/
def normalize {α : Type} (raw : List Char) : Except (BlockFault α) NormalBlock :=
  normalizeFrom blockCapacity false raw

end NumericControl
