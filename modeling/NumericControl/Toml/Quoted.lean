import NumericControl.Toml.Basic

/-!
# TOML strings

A string stands between double quotes, where a backslash introduces an escape, or
between single quotes, where nothing does.  Three quotes on either side let it go
over several lines.

## Main definitions

* `Toml.string` — takes a string in any of the four forms.
* `Toml.quote` — a string in the form that needs the fewest escapes.
-/

namespace NumericControl.Toml

/-! ### Reading -/

/-- The character whose code point a run of hexadecimal digits writes. -/
def charOfHex? (ds : List Char) : Option Char := do
  let n ← ofDigits? 16 ds
  if h : n.isValidChar then some (Char.ofNatAux n h) else none

/-- The character that a backslash and a letter write. -/
def escaped? : Char → Option Char
  | 'b' => some '\x08'
  | 't' => some '\t'
  | 'n' => some '\n'
  | 'f' => some '\x0c'
  | 'r' => some '\r'
  | 'e' => some '\x1b'
  | '\x22' => some '\x22'
  | '\\' => some '\\'
  | _ => none

/-- Puts a character before what was read. -/
def consFirst (c : Option Char) (r : Option (List Char × List Char)) :
    Option (List Char × List Char) := do
  let c ← c
  let (s, rest) ← r
  return (c :: s, rest)

/-- What follows an opening double quote, up to the closing one. -/
def basicBody : List Char → Option (List Char × List Char)
  | [] => none
  | '\x22' :: rest => some ([], rest)
  | '\\' :: 'x' :: a :: b :: rest => consFirst (charOfHex? [a, b]) (basicBody rest)
  | '\\' :: 'u' :: a :: b :: c :: d :: rest => consFirst (charOfHex? [a, b, c, d]) (basicBody rest)
  | '\\' :: 'U' :: a :: b :: c :: d :: e :: f :: g :: h :: rest =>
    consFirst (charOfHex? [a, b, c, d, e, f, g, h]) (basicBody rest)
  | '\\' :: c :: rest => consFirst (escaped? c) (basicBody rest)
  | c :: rest => if isPrintable c then consFirst (some c) (basicBody rest) else none

/-- What follows an opening single quote, up to the closing one. -/
def literalBody : List Char → Option (List Char × List Char)
  | [] => none
  | '\x27' :: rest => some ([], rest)
  | c :: rest => if isPrintable c then consFirst (some c) (literalBody rest) else none

/-- Where a reading of a string over several lines stands. -/
inductive LineState
  /-- In the text. -/
  | text
  /-- Behind a backslash that has to end its line. -/
  | lineEnd
  /-- Behind a line that a backslash ended, where blanks and line ends are left out. -/
  | margin

/-- What follows three opening double quotes, up to three closing ones.  One or two
quotes right before those belong to the string. -/
def basicLinesBody : LineState → List Char → Option (List Char × List Char)
  | _, [] => none
  | .lineEnd, '\r' :: '\n' :: rest => basicLinesBody .margin rest
  | .lineEnd, c :: rest =>
    if c = '\n' then basicLinesBody .margin rest
    else if c = ' ' || c = '\t' then basicLinesBody .lineEnd rest
    else none
  | _, '\x22' :: '\x22' :: '\x22' :: rest =>
    match rest with
    | '\x22' :: '\x22' :: rest => some (['\x22', '\x22'], rest)
    | '\x22' :: rest => some (['\x22'], rest)
    | rest => some ([], rest)
  | _, '\\' :: 'x' :: a :: b :: rest =>
    consFirst (charOfHex? [a, b]) (basicLinesBody .text rest)
  | _, '\\' :: 'u' :: a :: b :: c :: d :: rest =>
    consFirst (charOfHex? [a, b, c, d]) (basicLinesBody .text rest)
  | _, '\\' :: 'U' :: a :: b :: c :: d :: e :: f :: g :: h :: rest =>
    consFirst (charOfHex? [a, b, c, d, e, f, g, h]) (basicLinesBody .text rest)
  | _, '\\' :: c :: rest =>
    if c = ' ' || c = '\t' then basicLinesBody .lineEnd rest
    else if c = '\n' then basicLinesBody .margin rest
    else if c = '\r' then basicLinesBody .lineEnd (c :: rest)
    else consFirst (escaped? c) (basicLinesBody .text rest)
  | .margin, '\r' :: '\n' :: rest => basicLinesBody .margin rest
  | .text, '\r' :: '\n' :: rest =>
    consFirst (some '\r') (consFirst (some '\n') (basicLinesBody .text rest))
  | .margin, c :: rest =>
    if c = '\n' || c = ' ' || c = '\t' then basicLinesBody .margin rest
    else if isPrintable c then consFirst (some c) (basicLinesBody .text rest)
    else none
  | .text, c :: rest =>
    if c = '\n' || isPrintable c then consFirst (some c) (basicLinesBody .text rest) else none

/-- What follows three opening single quotes, up to three closing ones.  One or two
quotes right before those belong to the string. -/
def literalLinesBody : List Char → Option (List Char × List Char)
  | [] => none
  | '\x27' :: '\x27' :: '\x27' :: rest =>
    match rest with
    | '\x27' :: '\x27' :: rest => some (['\x27', '\x27'], rest)
    | '\x27' :: rest => some (['\x27'], rest)
    | rest => some ([], rest)
  | '\r' :: '\n' :: rest =>
    consFirst (some '\r') (consFirst (some '\n') (literalLinesBody rest))
  | c :: rest =>
    if c = '\n' || isPrintable c then consFirst (some c) (literalLinesBody rest) else none

/-- A text without the line end at its head. -/
def dropLineEnd : List Char → List Char
  | '\r' :: '\n' :: s => s
  | '\n' :: s => s
  | s => s

/-- Takes a string that stays on its line. -/
def lineString : Reads (List Char) := .from? fun s =>
  match s with
  | '\x22' :: rest => basicBody rest
  | '\x27' :: rest => literalBody rest
  | _ => none

/-- Takes a string.  A line end right behind three opening quotes is left out. -/
def string : Reads (List Char) := .from? fun s =>
  match s with
  | '\x22' :: '\x22' :: '\x22' :: rest => basicLinesBody .text (dropLineEnd rest)
  | '\x27' :: '\x27' :: '\x27' :: rest => literalLinesBody (dropLineEnd rest)
  | s => lineString s

/-! ### Writing -/

/-- The length of the longest run of a character in a text. -/
def longestRun (c : Char) (s : List Char) : Nat :=
  let step (best : Nat × Nat) (a : Char) : Nat × Nat :=
    if a = c then (max best.1 (best.2 + 1), best.2 + 1) else (best.1, 0)
  (s.foldl step (0, 0)).1

/-- Whether a character can be written only as an escape. -/
def needsEscape (c : Char) : Bool :=
  !isPrintable c && c ≠ '\n'

/-- The escape of a code point in four hexadecimal digits. -/
def hexEscape (n : Nat) : List Char :=
  let ds := (Nat.toDigits 16 n).map Char.toUpper
  '\\' :: 'u' :: (List.replicate (4 - ds.length) '0' ++ ds)

/-- A character between double quotes.  `overLines` says that the string goes over
several lines, where a line feed stands for itself. -/
def escape (overLines : Bool) (c : Char) : List Char :=
  match c with
  | '\x08' => ['\\', 'b']
  | '\t' => ['\\', 't']
  | '\n' => if overLines then ['\n'] else ['\\', 'n']
  | '\x0c' => ['\\', 'f']
  | '\r' => ['\\', 'r']
  | '\\' => ['\\', '\\']
  | c => if needsEscape c then hexEscape c.toNat else [c]

/-- A text between double quotes over several lines, where a third quote in a row is
escaped.  `quotes` counts the quotes right before. -/
def escapeLines (quotes : Nat) : List Char → List Char
  | [] => []
  | c :: s =>
    if c = '\x22' then
      if 2 ≤ quotes then '\\' :: '\x22' :: escapeLines 0 s else '\x22' :: escapeLines (quotes + 1) s
    else escape true c ++ escapeLines 0 s

/-- A text between double quotes on one line. -/
def escapeLine (s : List Char) : List Char :=
  s.flatMap fun c => if c = '\x22' then ['\\', '\x22'] else escape false c

/-- A string as it is written: between double quotes if that takes no escape, else
between single quotes if that is possible, else over several lines, and with escapes
where nothing else is left. -/
def quote (s : List Char) : List Char :=
  let controls := s.any needsEscape
  let overLines := s.contains '\n'
  let backslash := s.contains '\\'
  let double := longestRun '\x22' s
  let single := longestRun '\x27' s
  let margin := if overLines then ['\n'] else []
  let triple (c : Char) : List Char := List.replicate 3 c
  if !controls && !backslash && double = 0 && !overLines then
    '\x22' :: (escapeLine s ++ ['\x22'])
  else if !controls && single = 0 && !overLines then '\x27' :: (s ++ ['\x27'])
  else if !controls && !backslash && double ≤ 2 then
    triple '\x22' ++ margin ++ escapeLines 0 s ++ triple '\x22'
  else if !controls && single ≤ 2 then triple '\x27' ++ margin ++ s ++ triple '\x27'
  else if overLines then triple '\x22' ++ margin ++ escapeLines 0 s ++ triple '\x22'
  else '\x22' :: (escapeLine s ++ ['\x22'])

end NumericControl.Toml
