import NumericControl.Toml.Basic

/-!
# TOML numbers, dates and truth values

What stands without quotes is one run of characters, in which a blank may stand once,
as between a date and its time.  The run is then read as a whole.

Of a number only its form is tested when it is read.  A number in the right form may
still be too large, or hold no digits, or other letters than digits; then it has no
value that could be known.

## Main definitions

* `Toml.scalar` — takes a value that stands without quotes.
* `Toml.scalarOf?` — the value that such a run of characters writes.
* `Toml.integer?`, `Toml.decimal?` — the values of numbers.
* `Toml.isDatetime` — the form of dates and times.
-/

namespace NumericControl.Toml

/-! ### The form of numbers -/

/-- Whether a character may stand in a number as a digit or between digits. -/
def isDigitOrGap (c : Char) : Bool :=
  c.isDigit || c = '_'

/-- Whether each underscore in a text stands between two digits, where `afterDigit` says
whether one stands before the text. -/
def isGroupedFrom (isDigit : Char → Bool) (afterDigit : Bool) : List Char → Bool
  | [] => true
  | '_' :: c :: s => afterDigit && isDigit c && isGroupedFrom isDigit true s
  | c :: s => c ≠ '_' && isGroupedFrom isDigit (isDigit c) s

/-- Whether each underscore in a number stands between two digits.  What stands first, as
a sign does, counts as a digit, but no underscore does. -/
def isGrouped (isDigit : Char → Bool) : List Char → Bool
  | [] => true
  | c :: s => c ≠ '_' && isGroupedFrom isDigit true s

/-- A decimal without its sign: what stands before its point, behind it and behind the
mark of its exponent.  Where there is no point or no mark, a zero stands for what is
missing. -/
def decimalParts (s : List Char) : List Char × List Char × List Char :=
  let isMark (c : Char) : Bool := c = 'e' || c = 'E'
  let mantissa := s.takeWhile (!isMark ·)
  (mantissa.takeWhile (· ≠ '.'),
    if mantissa.contains '.' then (mantissa.dropWhile (· ≠ '.')).tail else ['0'],
    if s.any isMark then (s.dropWhile (!isMark ·)).tail else ['0'])

/-- Whether a text is in the form of a decimal without its sign.  It does not begin with
a zero, unless that is all before the point. -/
def isDecimal (s : List Char) : Bool :=
  let isRun (ds : List Char) : Bool := ds.all isDigitOrGap && ds.any Char.isDigit
  let (whole, fraction, exponent) := decimalParts s
  isRun whole && isRun fraction && isRun (Decimal.takeSign exponent).2
    && !(whole.head? = some '0' && 1 < whole.countP Char.isDigit)

/-! ### The value of numbers -/

/-- The value of a whole number in a base up to sixteen, with a sign or without.  It has
to fit into 128 bits. -/
def integer? (base : Nat) (s : List Char) : Option Int := do
  let (negative, ds) := Decimal.takeSign (s.filter (· ≠ '_'))
  if ds = [] then none
  let n : Int ← Int.ofNat <$> ofDigits? base ds
  let n := if negative then -n else n
  if -0x80000000000000000000000000000000 ≤ n ∧ n < 0x100000000000000000000000000000000 then some n
  else none

/-- The value of a decimal, with a sign or without.  It has to be finite.  The exponent is
bounded, since beyond the bounds it no longer affects the nearest number. -/
def decimal? (s : List Char) : Option Binary64 :=
  let (negative, unsigned) := Decimal.takeSign (s.filter (· ≠ '_'))
  let (whole, fraction, exponent) := decimalParts unsigned
  let digits := whole ++ fraction
  let (below, ds) := Decimal.takeSign exponent
  let exponent : Int := if below then -(Decimal.ofDigits ds) else Decimal.ofDigits ds
  let bounded := max (-((digits.length : Int) + 400)) (min 400 (exponent - fraction.length))
  let x := Binary64.ofDecimal ⟨negative, Decimal.ofDigits digits, bounded⟩
  if x.isFinite then some x else none

/-- An integer that may have no value. -/
def Value.ofInteger? (n : Option Int) : Value :=
  (n.map Value.integer).getD .unreadable

/-- A floating-point number that may have no value. -/
def Value.ofFloat? (x : Option Binary64) : Value :=
  (x.map Value.float).getD .unreadable

/-! ### Dates and times -/

/-- Exactly so many digits at the head of a text, as a number. -/
def digits? (count : Nat) (s : List Char) : Option (Nat × List Char) :=
  let ds := s.take count
  if ds.length = count ∧ ds.all Char.isDigit then some (Decimal.ofDigits ds, s.drop count)
  else none

/-- A given character at the head of a text. -/
def expect? (c : Char) (s : List Char) : Option (List Char) :=
  match s with
  | [] => none
  | a :: rest => if a = c then some rest else none

/-- The days of a month. -/
def daysInMonth (year month : Nat) : Nat :=
  if month = 2 then
    if year % 4 = 0 ∧ (year % 100 ≠ 0 ∨ year % 400 = 0) then 29 else 28
  else if month = 4 ∨ month = 6 ∨ month = 9 ∨ month = 11 then 30
  else 31

/-- Takes a date off the head of a text. -/
def takeDate? (s : List Char) : Option (List Char) := do
  let (year, s) ← digits? 4 s
  let (month, s) ← digits? 2 (← expect? '-' s)
  let (day, s) ← digits? 2 (← expect? '-' s)
  if 1 ≤ month ∧ month ≤ 12 ∧ 1 ≤ day ∧ day ≤ daysInMonth year month then some s else none

/-- Takes hours and minutes off the head of a text. -/
def takeMinutes? (s : List Char) : Option (List Char) := do
  let (hour, s) ← digits? 2 s
  let (minute, s) ← digits? 2 (← expect? ':' s)
  if hour ≤ 23 ∧ minute ≤ 59 then some s else none

/-- Takes the fraction of a second off the head of a text, if there is one. -/
def takeSecondFraction? (s : List Char) : Option (List Char) :=
  match s with
  | '.' :: s =>
    if (s.takeWhile Char.isDigit).isEmpty then none else some (s.dropWhile Char.isDigit)
  | s => some s

/-- Takes a time of day off the head of a text, with seconds or without.  A minute may
have a leap second. -/
def takeTime? (s : List Char) : Option (List Char) := do
  match ← takeMinutes? s with
  | ':' :: s =>
    let (second, s) ← digits? 2 s
    if 60 < second then none else takeSecondFraction? s
  | s => some s

/-- Whether a text is the offset of a time from universal time, or empty. -/
def isOffset (s : List Char) : Bool :=
  match s with
  | [] => true
  | ['Z'] | ['z'] => true
  | '+' :: s | '-' :: s => takeMinutes? s == some []
  | _ => false

/-- Whether a text is a date, a time, or a date and a time with or without an
offset. -/
def isDatetime (s : List Char) : Bool :=
  match takeDate? s with
  | none => takeTime? s == some []
  | some [] => true
  | some (c :: s) =>
    (c = 'T' || c = 't' || c = ' ') && (takeTime? s).any isOffset

/-! ### Scalars -/

/-- The whole number that digits write in a base other than ten. -/
def basedInteger? (base : Nat) (ds : List Char) : Option Value :=
  if ds.all (fun c => c = '_' || (digit? base c).isSome) && isGrouped (digit? 16 · |>.isSome) ds then
    some (.ofInteger? (integer? base ds))
  else none

/-- The number, date or time that a run of characters writes.  What follows the first
digits tells which of them it is.  A whole number may hold any characters behind its first
underscore, but with others than digits it has no value. -/
def numberOf? (s : List Char) : Option Value :=
  let body := (Decimal.takeSign s).2
  let rest := body.dropWhile Char.isDigit
  if !body.head?.any isDigitOrGap then none
  else if rest.head? = some '-' || rest.head? = some ':' then
    if isDatetime s then some .datetime else none
  else if rest.contains ' ' then none
  else if rest.any fun c => c = '.' || c = 'e' || c = 'E' then
    if isDecimal body && isGrouped Char.isDigit s then some (.ofFloat? (decimal? s)) else none
  else if rest.isEmpty || rest.head? = some '_' then
    if (body = ['0'] || body.head? ≠ some '0') && isGrouped (digit? 16 · |>.isSome) s then
      some (.ofInteger? (integer? 10 s))
    else none
  else none

/-- The value that a run of characters without quotes writes. -/
def scalarOf? (s : List Char) : Option Value :=
  let (negative, body) := Decimal.takeSign s
  if s = ['t', 'r', 'u', 'e'] then some (.boolean true)
  else if s = ['f', 'a', 'l', 's', 'e'] then some (.boolean false)
  else if body = ['i', 'n', 'f'] then some (.float (.infinity negative))
  else if body = ['n', 'a', 'n'] then
    some (.float (.ofParts negative (Binary64.infinityWord + Binary64.exponentBit / 2)))
  else match s with
    | '0' :: 'x' :: ds => basedInteger? 16 ds
    | '0' :: 'o' :: ds => basedInteger? 8 ds
    | '0' :: 'b' :: ds => basedInteger? 2 ds
    | s => numberOf? s

/-- The characters that end a value without quotes. -/
def scalarEnds : List Char :=
  ['=', ',', '[', ']', '\x7b', '\x7d', ' ', '\t', '#', '\r', '\n']

/-- Whether a character may stand in a value without quotes. -/
def isScalarChar (c : Char) : Bool :=
  !scalarEnds.contains c

/-- Whether a value without quotes may go on with a character behind blanks. -/
def mayGoOnWith (c : Char) : Bool :=
  isScalarChar c && c ≠ '.' && c ≠ '\x22' && c ≠ '\x27'

/-- Takes a value that stands without quotes.  It may go on once behind blanks. -/
def scalar : Reads Value := do
  let first ← Reads.run isScalarChar
  let behind ← get
  let gap ← Reads.run fun c => c = ' ' || c = '\t'
  if !gap.isEmpty && (← Reads.peek).any mayGoOnWith then
    let second ← Reads.run isScalarChar
    StateT.lift (scalarOf? (first ++ gap ++ second))
  else
    set behind
    StateT.lift (scalarOf? first)

end NumericControl.Toml
