/-!
# Decimal numerals

The numbers of a block are signed decimals without an exponent: an optional
sign, digits, and an optional point with further digits.  A numeral is kept as
its digits and a power of ten, which loses nothing, and becomes a machine number
only where a machine needs one.

## Main definitions

* `Decimal` — a sign, digits and a power of ten.
* `Decimal.ofDigits` — the natural number that a run of digits writes.
* `Decimal.read?` — the longest numeral at the head of a text, and what follows it.

## Main results

* `Decimal.length_lt_of_read?` — a numeral takes up at least one character.
-/

namespace NumericControl

/-- The number `± digits · 10 ^ exponent`.  Zero keeps its sign. -/
structure Decimal where
  negative : Bool
  digits : Nat
  exponent : Int
  deriving DecidableEq, Repr

namespace Decimal

/-- The decimal of a natural number. -/
def ofNat (n : Nat) : Decimal :=
  ⟨false, n, 0⟩

/-- The natural number that a run of digits writes. -/
def ofDigits (ds : List Char) : Nat :=
  ds.foldl (fun n c => 10 * n + (c.toNat - '0'.toNat)) 0

/-- Takes an optional sign off the head of a text. -/
def takeSign : List Char → Bool × List Char
  | '-' :: s => (true, s)
  | '+' :: s => (false, s)
  | s => (false, s)

/-- Takes the fraction off the head of a text: a point and the digits behind it.
A point without digits is taken too. -/
def takeFraction : List Char → List Char × List Char
  | '.' :: s => (s.takeWhile Char.isDigit, s.dropWhile Char.isDigit)
  | s => ([], s)

/-- The longest numeral at the head of a text together with what follows it, or
`none` if no numeral stands there.  A numeral has at least one digit, before or
after its point. -/
def read? (s : List Char) : Option (Decimal × List Char) :=
  let (negative, unsigned) := takeSign s
  let whole := unsigned.takeWhile Char.isDigit
  let (fraction, rest) := takeFraction (unsigned.dropWhile Char.isDigit)
  if whole ++ fraction = [] then none
  else some (⟨negative, ofDigits (whole ++ fraction), -(fraction.length : Int)⟩, rest)

/-! ### What is consumed -/

theorem length_takeSign_le (s : List Char) : (takeSign s).2.length ≤ s.length := by
  unfold takeSign
  split <;> simp

theorem length_takeWhile_add_dropWhile (p : Char → Bool) (s : List Char) :
    (s.takeWhile p).length + (s.dropWhile p).length = s.length := by
  rw [← List.length_append, List.takeWhile_append_dropWhile]

theorem length_takeFraction_le (s : List Char) :
    (takeFraction s).1.length + (takeFraction s).2.length ≤ s.length := by
  unfold takeFraction
  split
  · rename_i t
    have h := length_takeWhile_add_dropWhile Char.isDigit t
    simp only [List.length_cons]
    omega
  · simp

/-- A numeral takes up at least one character of the text it is read from. -/
theorem length_lt_of_read? {s rest : List Char} {d : Decimal} (h : read? s = some (d, rest)) :
    rest.length < s.length := by
  have hs := length_takeSign_le s
  have hw := length_takeWhile_add_dropWhile Char.isDigit (takeSign s).2
  have hf := length_takeFraction_le ((takeSign s).2.dropWhile Char.isDigit)
  simp only [read?] at h
  split at h
  · exact absurd h (by simp)
  · rename_i nonempty
    simp only [Option.some.injEq, Prod.mk.injEq] at h
    rw [List.append_eq_nil_iff, ← List.length_eq_zero_iff, ← List.length_eq_zero_iff] at nonempty
    rw [← h.2]
    omega

end Decimal

end NumericControl
