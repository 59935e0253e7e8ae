import NumericControl.Decimal.Basic

/-!
# Binary floating-point numbers of 64 bits

A number of the machine is a word of 64 bits: a sign, eleven exponent bits and
fifty-two fraction bits.  It is kept as that word, so a value that is saved and
restored is the same bit for bit, a NaN with its payload included, and equality
of words is decidable.

The finite values all are whole multiples of `2 ^ (-1074)`, the least positive
one.  Counting in this *unit* turns the order of the values into the order of
integers, and each operation into an exact operation on integers followed by one
rounding.  Rounding is to nearest, a tie going to the even neighbour.

## Main definitions

* `Binary64` — the words.
* `Binary64.units`, `Binary64.scaled` — the absolute value, and the value, counted
  in units.
* `roundHalfEven` — a quotient of naturals rounded to the nearest natural.
* `Binary64.ofRatio` — the word nearest to a quotient of units.
* `Binary64.ofDecimal` — the word nearest to a decimal.

## Main results

* `Binary64.isNaN_ofRatio` — rounding never yields a NaN.
* `Binary64.negative_ofRatio`, `Binary64.units_ofRatio_zero` — it keeps the sign, and a zero.
-/

namespace NumericControl

/-- The quotient of two naturals rounded to the nearest natural, a tie going to
the even one. -/
def roundHalfEven (num den : Nat) : Nat :=
  let q := num / den
  let r := num % den
  if 2 * r < den then q
  else if den < 2 * r then q + 1
  else q + q % 2

/-- A floating-point number, kept as its word. -/
structure Binary64 where
  bits : UInt64
  deriving DecidableEq, Repr

namespace Binary64

/-! ### The parts of a word -/

/-- The weight of the sign bit. -/
abbrev signBit : Nat := 0x8000000000000000

/-- The weight of the lowest exponent bit, below which are the fraction bits. -/
abbrev exponentBit : Nat := 0x10000000000000

/-- The word of positive infinity, above which the words without sign are NaNs. -/
abbrev infinityWord : Nat := 2047 * exponentBit

/-- Whether the sign bit is set. -/
def negative (x : Binary64) : Bool :=
  signBit ≤ x.bits.toNat

/-- The word without its sign bit. -/
def magnitude (x : Binary64) : Nat :=
  x.bits.toNat % signBit

/-- The word of a given sign and magnitude. -/
def ofParts (negative : Bool) (magnitude : Nat) : Binary64 :=
  ⟨UInt64.ofNat (magnitude + if negative then signBit else 0)⟩

/-- Whether the word is not a number. -/
def isNaN (x : Binary64) : Bool :=
  infinityWord < x.magnitude

/-- Whether the word is an infinity. -/
def isInfinite (x : Binary64) : Bool :=
  x.magnitude == infinityWord

/-- Whether the word is neither an infinity nor a NaN. -/
def isFinite (x : Binary64) : Bool :=
  x.magnitude < infinityWord

/-- Whether the word is a zero, of either sign. -/
def isZero (x : Binary64) : Bool :=
  x.magnitude == 0

/-- The zero of a given sign. -/
def zero (negative : Bool) : Binary64 :=
  ofParts negative 0

/-- The infinity of a given sign. -/
def infinity (negative : Bool) : Binary64 :=
  ofParts negative infinityWord

/-! ### Values -/

/-- How many units make one. -/
def one : Nat := Nat.pow 2 1074

/-- The absolute value in units.  An infinity counts as the next value that the
exponent bits could express, and so lies above every finite one. -/
def units (x : Binary64) : Nat :=
  let exponent := x.magnitude / exponentBit
  let fraction := x.magnitude % exponentBit
  if exponent = 0 then fraction else (exponentBit + fraction) * Nat.pow 2 (exponent - 1)

/-- The value in units. -/
def scaled (x : Binary64) : Int :=
  if x.negative then -(x.units : Int) else x.units

/-- The magnitude nearest to `num / den` units.  The fraction bits of a word and
its exponent bits follow one another, so a mantissa `m` of `53` bits at the
exponent `e` has the magnitude `e · 2 ^ 52 + m`, also where rounding carries `m`
to `2 ^ 53`.  Beyond the largest finite magnitude lies infinity. -/
def nearestMagnitude (num den : Nat) : Nat :=
  let e := (num / den).log2 - 52
  min (e * exponentBit + roundHalfEven num (den * Nat.pow 2 e)) infinityWord

/-- The word of a given sign nearest to `num / den` units. -/
def ofRatio (negative : Bool) (num den : Nat) : Binary64 :=
  ofParts negative (nearestMagnitude num den)

/-- The word nearest to a decimal. -/
def ofDecimal (d : Decimal) : Binary64 :=
  ofRatio d.negative (d.digits * Nat.pow 10 d.exponent.toNat * one)
    (Nat.pow 10 (-d.exponent).toNat)

/-! ### Words and parts -/

theorem nearestMagnitude_le (num den : Nat) : nearestMagnitude num den ≤ infinityWord :=
  Nat.min_le_right ..

theorem toNat_bits_ofParts {negative : Bool} {magnitude : Nat} (h : magnitude < signBit) :
    (ofParts negative magnitude).bits.toNat = magnitude + if negative then signBit else 0 := by
  simp only [ofParts, UInt64.toNat_ofNat', signBit] at h ⊢
  apply Nat.mod_eq_of_lt
  split <;> omega

theorem magnitude_ofParts {negative : Bool} {magnitude : Nat} (h : magnitude < signBit) :
    (ofParts negative magnitude).magnitude = magnitude := by
  simp only [Binary64.magnitude, toNat_bits_ofParts h]
  simp only [signBit] at h ⊢
  split <;> omega

theorem negative_ofParts {negative : Bool} {magnitude : Nat} (h : magnitude < signBit) :
    (ofParts negative magnitude).negative = negative := by
  simp only [Binary64.negative, toNat_bits_ofParts h]
  simp only [signBit] at h ⊢
  cases negative <;> simp
  omega

theorem nearestMagnitude_lt_signBit (num den : Nat) : nearestMagnitude num den < signBit := by
  have h := nearestMagnitude_le num den
  simp only [signBit, infinityWord, exponentBit] at h ⊢
  omega

theorem magnitude_ofRatio (negative : Bool) (num den : Nat) :
    (ofRatio negative num den).magnitude = nearestMagnitude num den :=
  magnitude_ofParts (nearestMagnitude_lt_signBit num den)

@[simp] theorem negative_ofRatio (negative : Bool) (num den : Nat) :
    (ofRatio negative num den).negative = negative :=
  negative_ofParts (nearestMagnitude_lt_signBit num den)

/-- Rounding never yields a NaN. -/
@[simp] theorem isNaN_ofRatio (negative : Bool) (num den : Nat) :
    (ofRatio negative num den).isNaN = false := by
  simpa [isNaN, magnitude_ofRatio] using nearestMagnitude_le num den

theorem nearestMagnitude_zero (den : Nat) : nearestMagnitude 0 den = 0 := by
  simp [nearestMagnitude, roundHalfEven]

/-- Rounding leaves nothing of a zero but its sign. -/
@[simp] theorem units_ofRatio_zero (negative : Bool) (den : Nat) :
    (ofRatio negative 0 den).units = 0 := by
  simp [units, magnitude_ofRatio, nearestMagnitude_zero]

/-- A value is at least zero if its word has no sign, or is that of a zero. -/
theorem scaled_nonneg_iff {x : Binary64} : 0 ≤ x.scaled ↔ x.negative = false ∨ x.units = 0 := by
  rw [scaled]
  cases x.negative <;> simp

end Binary64

end NumericControl
