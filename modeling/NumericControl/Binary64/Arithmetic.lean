import NumericControl.Binary64.Basic
import NumericControl.Number

/-!
# Floating-point arithmetic

Each operation takes the exact result, counted in units, and rounds it once.  The
special words follow the usual rules.  A NaN operand passes through with its
payload, the first operand before the second; an operation without a meaning,
such as the difference of two infinities, yields one fixed NaN.

## Main definitions

* `Binary64.add`, `sub`, `mul`, `div`, `sqrt`, `abs`, `trunc`, `toInt` — the
  operations.
* `Binary64.lt`, `Binary64.eq` — the order, in which a NaN has no place and the
  two zeros are one.

## Main results

* `Binary64.eq_self` — only a NaN differs from itself.
* `Binary64.isNaN_mul`, `Binary64.scaled_mul_nonneg` — finite factors have a product, and it is
  at least zero if they are.
* `Binary64.le_of_not_lt` — two words that are no NaN can be compared.
-/

namespace NumericControl

/-- The largest natural whose square is at most `n`, found two bits at a time. -/
def floorSqrt (n : Nat) : Nat :=
  if n < 2 then n
  else
    let r := 2 * floorSqrt (n / 4)
    if (r + 1) * (r + 1) ≤ n then r + 1 else r
  termination_by n
  decreasing_by omega

namespace Binary64

/-! ### Special words -/

/-- A NaN as an operation hands it on: the same payload, marked as quiet. -/
def quiet (x : Binary64) : Binary64 :=
  ⟨x.bits ||| 0x0008000000000000⟩

/-- The NaN of an operation without a meaning. -/
def invalid : Binary64 :=
  ⟨0xFFF8000000000000⟩

/-- The result of an operation on two words, where a NaN operand passes through. -/
def passingNaN (x y result : Binary64) : Binary64 :=
  if x.isNaN then x.quiet else if y.isNaN then y.quiet else result

/-- The word of the opposite sign. -/
def neg (x : Binary64) : Binary64 :=
  ofParts (!x.negative) x.magnitude

/-- The word without its sign. -/
def abs (x : Binary64) : Binary64 :=
  ofParts false x.magnitude

/-! ### Operations -/

/-- The sum of two words, neither of them a NaN.  An exact zero is negative only
if both words are. -/
def sum (x y : Binary64) : Binary64 :=
  if x.isInfinite then
    if y.isInfinite && x.negative != y.negative then invalid else x
  else if y.isInfinite then y
  else
    let s := x.scaled + y.scaled
    if s = 0 then zero (x.negative && y.negative)
    else ofRatio (s < 0) s.natAbs 1

/-- Addition. -/
def add (x y : Binary64) : Binary64 :=
  passingNaN x y (sum x y)

/-- Subtraction. -/
def sub (x y : Binary64) : Binary64 :=
  passingNaN x y (sum x y.neg)

/-- Multiplication. -/
def mul (x y : Binary64) : Binary64 :=
  let sign := x.negative != y.negative
  passingNaN x y <|
    if x.isInfinite || y.isInfinite then
      if x.isZero || y.isZero then invalid else infinity sign
    else ofRatio sign (x.units * y.units) one

/-- Division. -/
def div (x y : Binary64) : Binary64 :=
  let sign := x.negative != y.negative
  passingNaN x y <|
    if x.isInfinite then
      if y.isInfinite then invalid else infinity sign
    else if y.isInfinite then zero sign
    else if y.isZero then
      if x.isZero then invalid else infinity sign
    else ofRatio sign (x.units * one) y.units

/-- The square root.  Its exact value is compared through twice the floor of the
root, plus one where the root is not exact; rounding needs no more, because a
root has far more than the bits of a mantissa. -/
def sqrt (x : Binary64) : Binary64 :=
  if x.isNaN then x.quiet
  else if x.isZero then x
  else if x.negative then invalid
  else if x.isInfinite then x
  else
    let n := x.units * one
    let r := floorSqrt n
    ofRatio false (2 * r + if r * r = n then 0 else 1) 2

/-- The integral part as a word; its sign stays, also that of a zero. -/
def trunc (x : Binary64) : Binary64 :=
  if x.isNaN then x.quiet
  else if x.isInfinite then x
  else ofRatio x.negative (x.units / one * one) 1

/-- The integral part as an integer.  A NaN counts as zero, and an infinity as
`2 ^ 1024`, which lies beyond every finite value. -/
def toInt (x : Binary64) : Int :=
  if x.isNaN then 0
  else if x.negative then -((x.units / one : Nat) : Int)
  else (x.units / one : Nat)

/-! ### Order -/

/-- Whether one word is below another as a value. -/
def lt (x y : Binary64) : Bool :=
  !x.isNaN && !y.isNaN && decide (x.scaled < y.scaled)

/-- Whether two words are equal as values. -/
def eq (x y : Binary64) : Bool :=
  !x.isNaN && !y.isNaN && decide (x.scaled = y.scaled)

instance : Number Binary64 where
  add := add
  sub := sub
  mul := mul
  div := div
  ofDecimal := ofDecimal
  sqrt := sqrt
  abs := abs
  trunc := trunc
  toInt := toInt
  lt := lt
  eq := eq
  isFinite := isFinite

instance : Inhabited Binary64 := ⟨zero false⟩

/-- Only a NaN differs from itself. -/
@[simp] theorem eq_self (x : Binary64) : x.eq x = !x.isNaN := by
  simp [eq]

/-! ### Words that are no NaN -/

variable {x y : Binary64}

theorem isNaN_of_isFinite (h : x.isFinite = true) : x.isNaN = false := by
  simp only [isFinite, isNaN, decide_eq_true_eq, decide_eq_false_iff_not] at h ⊢
  omega

theorem isInfinite_of_isFinite (h : x.isFinite = true) : x.isInfinite = false := by
  simp only [isFinite, isInfinite, decide_eq_true_eq, beq_eq_false_iff_ne] at h ⊢
  omega

theorem mul_eq_ofRatio (hx : x.isFinite = true) (hy : y.isFinite = true) :
    x.mul y = ofRatio (x.negative != y.negative) (x.units * y.units) one := by
  simp [mul, passingNaN, isNaN_of_isFinite, isInfinite_of_isFinite, hx, hy]

/-- A product of finite words may be infinite, but it is no NaN. -/
theorem isNaN_mul (hx : x.isFinite = true) (hy : y.isFinite = true) :
    (x.mul y).isNaN = false := by
  rw [mul_eq_ofRatio hx hy, isNaN_ofRatio]

/-- Factors of at least zero have a product of at least zero, also where one of them is a
zero with a sign. -/
theorem scaled_mul_nonneg (hx : x.isFinite = true) (hy : y.isFinite = true)
    (hx' : 0 ≤ x.scaled) (hy' : 0 ≤ y.scaled) : 0 ≤ (x.mul y).scaled := by
  rw [mul_eq_ofRatio hx hy, scaled_nonneg_iff, negative_ofRatio]
  rcases scaled_nonneg_iff.mp hx' with hxsign | hxzero
  · rcases scaled_nonneg_iff.mp hy' with hysign | hyzero
    · exact .inl (by rw [hxsign, hysign]; rfl)
    · exact .inr (by rw [hyzero, Nat.mul_zero, units_ofRatio_zero])
  · exact .inr (by rw [hxzero, Nat.zero_mul, units_ofRatio_zero])

/-- Words that are no NaN are ordered as their values are. -/
theorem le_iff (hx : x.isNaN = false) (hy : y.isNaN = false) :
    Number.le x y = true ↔ x.scaled ≤ y.scaled := by
  change (x.lt y || x.eq y) = true ↔ _
  simp only [lt, eq, hx, hy, Bool.not_false, Bool.true_and, Bool.or_eq_true, decide_eq_true_eq]
  omega

/-- Of two words that are no NaN one is at most the other. -/
theorem le_of_not_lt (hx : x.isNaN = false) (hy : y.isNaN = false) (h : y.lt x = false) :
    Number.le x y = true := by
  have hscaled : ¬ y.scaled < x.scaled := by simpa [lt, hx, hy] using h
  exact (le_iff hx hy).mpr (by omega)

/-- A word that is at most another one, and not the other way round, is below it. -/
theorem lt_of_le_of_not_le (h : Number.le x y = true) (h' : Number.le y x = false) :
    Number.lt x y = true := by
  change (x.lt y || x.eq y) = true at h
  change (y.lt x || y.eq x) = false at h'
  change x.lt y = true
  simp only [lt, eq, Bool.or_eq_true, Bool.and_eq_true, Bool.not_eq_true', decide_eq_true_eq] at h ⊢
  simp only [lt, eq, Bool.or_eq_false_iff, Bool.and_eq_false_iff, Bool.not_eq_false',
    decide_eq_false_iff_not] at h'
  grind

end Binary64

end NumericControl
