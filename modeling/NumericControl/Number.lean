import NumericControl.Decimal.Basic

/-!
# Number systems of a machine

The interpreter and the machine compute with numbers through the few operations
listed here, and nothing they do depends on how the numbers are represented.  A
program is run on floating-point words; the same definitions read on an exact
number system say what the machine does apart from rounding.

Comparisons are functions to `Bool` because a number system may hold values, such
as NaN, that are neither below, nor equal to, nor above another.

## Main definitions

* `Number` — what the interpreter and the machine ask of their numbers.
* `Number.le` — at most, as below or equal.
-/

namespace NumericControl

/-- The operations on numbers that the interpreter and the machine use. -/
class Number (α : Type) extends Add α, Sub α, Mul α, Div α where
  /-- The number a decimal stands for, or the nearest one. -/
  ofDecimal : Decimal → α
  /-- The square root. -/
  sqrt : α → α
  /-- The absolute value. -/
  abs : α → α
  /-- The integral part, rounded toward zero, as a number. -/
  trunc : α → α
  /-- The integral part, rounded toward zero, as an integer. -/
  toInt : α → Int
  /-- Whether one number is below another. -/
  lt : α → α → Bool
  /-- Whether two numbers are equal. -/
  eq : α → α → Bool
  /-- Whether a number is neither infinite nor undefined. -/
  isFinite : α → Bool

namespace Number

variable {α : Type} [Number α]

/-- Whether one number is at most another. -/
def le (a b : α) : Bool :=
  lt a b || eq a b

/-- The number zero. -/
def zero : α :=
  ofDecimal (.ofNat 0)

/-- The number one. -/
def one : α :=
  ofDecimal (.ofNat 1)

/-- The number two. -/
def two : α :=
  ofDecimal (.ofNat 2)

/-- The part of a number behind its point. -/
def fraction (a : α) : α :=
  a - trunc a

end Number

end NumericControl
