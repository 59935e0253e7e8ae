import Mathlib.Algebra.Order.Floor.Ring
import Mathlib.Data.Rat.Floor
import Mathlib.Data.Rat.Sqrt
import Mathlib.Tactic.NormNum
import NumericControl.Simulator.Basic

/-!
# Exact numbers

The machine computes with sums, products and quotients of decimals.  In an ordered field
none of them is rounded, and the machine read on such a field is the machine apart from
rounding.  Roots of squares are exact too; what the root of any other number is does not
matter, and is left open, so that the rational numbers are among the fields.

## Main definitions

* `Decimal.toRat` — the rational number that a decimal stands for.
* `ExactNumber` — the ordered fields that a machine can compute with.

## Main results

* `Simulator.workPosition_eq_iff` — **an axis reads as a value exactly if it is where the
  value is in millimetres**.
-/

namespace NumericControl

/-- The rational number that a decimal stands for. -/
def Decimal.toRat (d : Decimal) : ℚ :=
  let magnitude := (d.digits : ℚ) * 10 ^ d.exponent
  if d.negative then -magnitude else magnitude

@[simp] theorem Decimal.toRat_ofNat (n : ℕ) : (Decimal.ofNat n).toRat = n := by
  simp [toRat, ofNat]

/-- Numbers without rounding: an ordered field with a root that is exact for squares. -/
class ExactNumber (F : Type) extends Field F, LinearOrder F, IsStrictOrderedRing F,
    FloorRing F where
  /-- The square root. -/
  root : F → F
  root_mul_self (a : F) : root (a * a) = |a|

variable {F : Type} [ExactNumber F]

/-- The integral part, rounded toward zero. -/
def ExactNumber.integralPart (a : F) : ℤ :=
  if 0 ≤ a then ⌊a⌋ else ⌈a⌉

instance : Number F where
  ofDecimal d := (d.toRat : F)
  sqrt := ExactNumber.root
  abs a := |a|
  trunc a := (ExactNumber.integralPart a : F)
  toInt := ExactNumber.integralPart
  lt a b := decide (a < b)
  eq a b := decide (a = b)
  isFinite _ := true

instance : ExactNumber ℚ where
  root := Rat.sqrt
  root_mul_self := Rat.sqrt_eq

namespace Number

@[simp] theorem eq_iff (a b : F) : Number.eq a b = true ↔ a = b :=
  decide_eq_true_iff

theorem ofDecimal_eq (d : Decimal) : (Number.ofDecimal d : F) = (d.toRat : F) :=
  rfl

@[simp] theorem zero_eq : (Number.zero : F) = 0 := by
  rw [Number.zero, ofDecimal_eq, Decimal.toRat_ofNat]
  norm_num

@[simp] theorem one_eq : (Number.one : F) = 1 := by
  rw [Number.one, ofDecimal_eq, Decimal.toRat_ofNat]
  norm_num

end Number

/-! ### Coordinates -/

/-- A unit of length is longer than zero. -/
theorem Units.scale_pos (units : Units) : 0 < (units.scale : F) := by
  cases units with
  | inches =>
    have hvalue : Decimal.toRat ⟨false, 254, -1⟩ = 127 / 5 := by norm_num [Decimal.toRat]
    rw [Units.scale, Number.ofDecimal_eq, hvalue]
    norm_num
  | millimeters =>
    rw [Units.scale, Number.one_eq]
    exact one_pos

theorem Units.scale_ne_zero (units : Units) : (units.scale : F) ≠ 0 :=
  (scale_pos units).ne'

namespace Simulator

/-- **An axis reads as a value exactly if it is where the value is** in millimetres. -/
theorem workPosition_eq_iff (m : Simulator F) (axis : Axis) (value : F) :
    m.workPosition axis = value ↔
      m.state.position.get axis = value * m.scale + m.state.originOffset.get axis := by
  have hscale : m.scale ≠ 0 := Units.scale_ne_zero m.state.units
  rw [workPosition, div_eq_iff hscale, sub_eq_iff_eq_add]

end Simulator

end NumericControl
