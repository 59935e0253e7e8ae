import NumericControl.Decimal.Basic

/-!
# Writing decimals

A decimal is written positionally, with as many zeros as its exponent asks for,
or with an exponent.  The sign is written by the caller, since it also belongs to
values that have no digits.

## Main definitions

* `Decimal.positional` — the digits with their point, and no exponent.
* `Decimal.scientific` — one digit, a point, the others and an exponent.
-/

namespace NumericControl

/-- How many decimal digits a natural number has. -/
def decimalLength (n : Nat) : Nat :=
  (Nat.toDigits 10 n).length

namespace Decimal

/-- Moves the zeros at the end of the digits into the exponent. -/
def stripZeros (d : Decimal) : Decimal :=
  if _h : d.digits ≠ 0 ∧ d.digits % 10 = 0 then
    stripZeros { d with digits := d.digits / 10, exponent := d.exponent + 1 }
  else d
  termination_by d.digits
  decreasing_by omega

/-- The exponent of the leading digit. -/
def leadingExponent (d : Decimal) : Int :=
  d.exponent + decimalLength d.digits - 1

/-- The digits with a point where the exponent puts it, without a sign.  A whole
number has no point. -/
def positional (d : Decimal) : List Char :=
  let ds := Nat.toDigits 10 d.digits
  if 0 ≤ d.exponent then ds ++ List.replicate d.exponent.toNat '0'
  else
    let places := (-d.exponent).toNat
    if places < ds.length then
      ds.take (ds.length - places) ++ '.' :: ds.drop (ds.length - places)
    else '0' :: '.' :: (List.replicate (places - ds.length) '0' ++ ds)

/-- The leading digit, a point and the others if there are any, and the exponent
with its sign. -/
def scientific (d : Decimal) : List Char :=
  let e := d.leadingExponent
  let mantissa :=
    match Nat.toDigits 10 d.digits with
    | lead :: others@(_ :: _) => lead :: '.' :: others
    | ds => ds
  mantissa ++ 'e' :: (if 0 ≤ e then '+' else '-') :: Nat.toDigits 10 e.natAbs

end Decimal

end NumericControl
