import NumericControl.Binary64.Basic
import NumericControl.Decimal.Layout

/-!
# The text of a floating-point number

A number is written with the fewest decimal digits that read back to the same
word; of the decimals of that length the nearest is taken.  The search is the
rule itself: for one, two, … digits it asks whether one of the two decimals next
to the value on that grid reads back.

## Main definitions

* `Binary64.shortest` — the fewest digits that read back.
* `NumberStyle`, `NumberStyle.render` — the choices of a written form, and the form.
* `Binary64.fixed` — the text with a set number of places.
-/

namespace NumericControl

/-- Which of two equally near decimals of the same length is taken. -/
inductive DecimalTie
  /-- The one whose last digit is even. -/
  | toEven
  /-- The one farther from zero. -/
  | away
  deriving DecidableEq, Repr

namespace Binary64

/-- For a positive number of units, the least `k` such that the value is below
`10 ^ k`. -/
def decimalPoint (units : Nat) : Int :=
  if one ≤ units then decimalLength (units / one)
  else 1 - decimalLength ((one + units - 1) / units - 1)

/-- The nearest decimal that is a multiple of `10 ^ exponent` and reads back to
`x`, if one of the two multiples next to the value does. -/
def readingBack? (tie : DecimalTie) (x : Binary64) (exponent : Int) : Option Decimal :=
  let num := x.units * Nat.pow 10 (-exponent).toNat
  let den := one * Nat.pow 10 exponent.toNat
  let below : Decimal := ⟨x.negative, num / den, exponent⟩
  let above : Decimal := ⟨x.negative, num / den + 1, exponent⟩
  match decide (ofDecimal below = x), decide (ofDecimal above = x) with
  | false, false => none
  | true, false => some below
  | false, true => some above
  | true, true =>
    let r := num % den
    if 2 * r < den then some below
    else if den < 2 * r then some above
    else match tie with
      | .away => some above
      | .toEven => some (if below.digits % 2 = 0 then below else above)

/-- The decimal that is exactly the value. -/
def exactDecimal (x : Binary64) : Decimal :=
  ⟨x.negative, x.units * Nat.pow 5 1074, -1074⟩

/-- The decimal with the fewest digits that reads back to a finite word. -/
def shortest (tie : DecimalTie) (x : Binary64) : Decimal :=
  if x.isZero then ⟨x.negative, 0, 0⟩
  else
    let point := decimalPoint x.units
    let grids := (List.range 17).map fun n => point - (n + 1 : Nat)
    ((grids.findSome? (readingBack? tie x)).getD x.exactDecimal).stripZeros

/-- The text with a set number of places; the value is rounded exactly, a tie
going to the even digit. -/
def fixed (places : Nat) (x : Binary64) : String :=
  let sign := if x.negative then ['-'] else []
  if x.isNaN then "NaN"
  else if x.isInfinite then String.ofList (sign ++ "inf".toList)
  else
    let scaled := x.units * Nat.pow 10 places
    let d : Decimal := ⟨x.negative, roundHalfEven scaled one, -(places : Int)⟩
    String.ofList (sign ++ d.positional)

end Binary64

/-- The choices of a written form of numbers. -/
structure NumberStyle where
  /-- Which of two equally near decimals is taken. -/
  tie : DecimalTie
  /-- Whether a whole number written positionally ends in `.0`. -/
  wholePoint : Bool
  /-- Whether a leading digit of a given exponent is written positionally. -/
  isPositional : Int → Bool
  /-- The text of a NaN. -/
  nan : String
  /-- The text of positive infinity. -/
  infinity : String
  /-- The text of negative infinity. -/
  negativeInfinity : String

/-- The text of a number in a given style. -/
def NumberStyle.render (style : NumberStyle) (x : Binary64) : String :=
  if x.isNaN then style.nan
  else if x.isInfinite then
    if x.negative then style.negativeInfinity else style.infinity
  else
    let d := x.shortest style.tie
    let body :=
      if style.isPositional d.leadingExponent then
        d.positional ++ if style.wholePoint && 0 ≤ d.exponent then ['.', '0'] else []
      else d.scientific
    String.ofList ((if x.negative then ['-'] else []) ++ body)

/-- Numbers in messages: positional whatever their size, and a whole number
without a point. -/
def plainNumber : NumberStyle where
  tie := .away
  wholePoint := false
  isPositional _ := true
  nan := "NaN"
  infinity := "inf"
  negativeInfinity := "-inf"

end NumericControl
