import NumericControl.Binary64.Arithmetic
import NumericControl.Proofs.ExactNumber

/-!
# What a floating-point word stands for

A finite word stands for a rational number, its units over the units of one.  Its integral part
as a word is read is the integral part of this number, so a number that is read off a word is
read off exactly.  The other way round a decimal becomes a word by rounding, and this comes to an
end at the infinities: a decimal below half of the first power of two beyond all finite words is
rounded to a finite word, and one from that power on to an infinity.

## Main definitions

* `Binary64.toRat` — the rational number that a finite word stands for.

## Main results

* `ExactNumber.integralPart_nonneg_iff`, `ExactNumber.integralPart_lt_iff` — the bounds of an
  integral part.
* `Binary64.toInt_eq_integralPart` — **the integral part of a word is that of its number**.
* `Binary64.isFinite_ofDecimal`, `Binary64.ofDecimal_eq_infinity` — which decimals are rounded to
  a finite word, and which are not.
-/

namespace NumericControl

/-! ### Integral parts -/

namespace ExactNumber

variable {F : Type} [ExactNumber F]

theorem integralPart_of_nonneg {a : F} (h : 0 ≤ a) : integralPart a = ⌊a⌋ :=
  if_pos h

/-- The sign of a number makes no difference to where it is cut off. -/
theorem integralPart_neg (a : F) : integralPart (-a) = -integralPart a := by
  rcases lt_trichotomy a 0 with h | rfl | h
  · rw [integralPart_of_nonneg (neg_nonneg.mpr h.le), integralPart, if_neg h.not_ge, Int.floor_neg]
  · simp [integralPart]
  · rw [integralPart_of_nonneg h.le, integralPart, if_neg (neg_neg_of_pos h).not_ge, Int.ceil_neg]

/-- Above minus one nothing is left of a negative number. -/
theorem integralPart_nonneg_iff {a : F} : 0 ≤ integralPart a ↔ -1 < a := by
  rcases le_or_gt 0 a with h | h
  · have hfloor : 0 ≤ ⌊a⌋ := Int.floor_nonneg.mpr h
    rw [integralPart_of_nonneg h]
    exact ⟨fun _ => neg_one_lt_zero.trans_le h, fun _ => hfloor⟩
  · rw [integralPart, if_neg h.not_ge, ← Int.sub_one_lt_iff, Int.lt_ceil]
    norm_num

/-- An integral part is below a positive integer exactly if its number is. -/
theorem integralPart_lt_iff {a : F} {n : ℤ} (hn : 0 < n) : integralPart a < n ↔ a < n := by
  rcases le_or_gt 0 a with h | h
  · rw [integralPart_of_nonneg h, Int.floor_lt]
  · have hpos : (0 : F) < n := Int.cast_pos.mpr hn
    have hceil : ⌈a⌉ ≤ 0 := Int.ceil_le.mpr (by simpa using h.le)
    rw [integralPart, if_neg h.not_ge]
    exact ⟨fun _ => h.trans hpos, fun _ => hceil.trans_lt hn⟩

end ExactNumber

/-! ### Rounding a quotient -/

/-- A quotient below a natural is rounded to at most this natural. -/
theorem roundHalfEven_le {num den bound : ℕ} (h : num < bound * den) :
    roundHalfEven num den ≤ bound := by
  have hquotient : num / den < bound := Nat.div_lt_of_lt_mul (by rwa [Nat.mul_comm])
  unfold roundHalfEven
  dsimp only
  split
  · omega
  · split <;> omega

/-- A quotient of at least a natural is rounded to at least this natural. -/
theorem le_roundHalfEven {num den bound : ℕ} (hden : 0 < den) (h : bound * den ≤ num) :
    bound ≤ roundHalfEven num den := by
  have hquotient : bound ≤ num / den := (Nat.le_div_iff_mul_le hden).mpr h
  unfold roundHalfEven
  dsimp only
  split
  · omega
  · split <;> omega

namespace Binary64

/-- Of a quotient below `2 ^ 2097` units the nearest magnitude is finite. -/
theorem nearestMagnitude_lt {num den width : ℕ} (hwidth : width ≤ 2097) (hden : 0 < den)
    (h : num < 2 ^ width * den) : nearestMagnitude num den < infinityWord := by
  have hquotient : num / den < 2 ^ width := Nat.div_lt_of_lt_mul (by rwa [Nat.mul_comm])
  have hlog : (num / den).log2 < 2097 := by
    rcases Nat.eq_zero_or_pos (num / den) with hzero | hpos
    · rw [hzero]
      decide
    · exact ((Nat.log2_lt hpos.ne').mpr hquotient).trans_le hwidth
  -- the mantissa has at most fifty-three bits
  have hmantissa : roundHalfEven num (den * 2 ^ ((num / den).log2 - 52)) ≤ 2 ^ 53 := by
    refine roundHalfEven_le ?_
    have hbits : num / den < 2 ^ (53 + ((num / den).log2 - 52)) :=
      Nat.lt_log2_self.trans_le (Nat.pow_le_pow_right (by decide) (by omega))
    calc num < 2 ^ (53 + ((num / den).log2 - 52)) * den := (Nat.div_lt_iff_lt_mul hden).mp hbits
      _ = 2 ^ 53 * (den * 2 ^ ((num / den).log2 - 52)) := by ring
  have hbelow : ((num / den).log2 - 52) * exponentBit
      + roundHalfEven num (den * 2 ^ ((num / den).log2 - 52)) < infinityWord := by
    simp only [exponentBit, infinityWord]
    omega
  exact (Nat.min_le_left _ _).trans_lt hbelow

/-- Of a quotient from `2 ^ 2098` units on the nearest magnitude is infinite. -/
theorem nearestMagnitude_eq_infinityWord {num den width : ℕ} (hwidth : 2098 ≤ width)
    (hden : 0 < den) (h : 2 ^ width * den ≤ num) : nearestMagnitude num den = infinityWord := by
  have hquotient : 2 ^ width ≤ num / den := (Nat.le_div_iff_mul_le hden).mpr h
  have hne : num / den ≠ 0 := (Nat.two_pow_pos width |>.trans_le hquotient).ne'
  have hlog : 2098 ≤ (num / den).log2 := hwidth.trans ((Nat.le_log2 hne).mpr hquotient)
  -- the mantissa has at least fifty-two bits behind its first
  have hmantissa : 2 ^ 52 ≤ roundHalfEven num (den * 2 ^ ((num / den).log2 - 52)) := by
    refine le_roundHalfEven (Nat.mul_pos hden (Nat.two_pow_pos _)) ?_
    have hbits : 2 ^ (52 + ((num / den).log2 - 52)) ≤ num / den := by
      rw [Nat.add_sub_cancel' (by omega)]
      exact Nat.log2_self_le hne
    calc 2 ^ 52 * (den * 2 ^ ((num / den).log2 - 52))
        = 2 ^ (52 + ((num / den).log2 - 52)) * den := by ring
      _ ≤ num := (Nat.le_div_iff_mul_le hden).mp hbits
  have habove : infinityWord ≤ ((num / den).log2 - 52) * exponentBit
      + roundHalfEven num (den * 2 ^ ((num / den).log2 - 52)) := by
    simp only [exponentBit, infinityWord]
    omega
  exact Nat.min_eq_right habove

/-! ### Values -/

theorem one_eq : one = 2 ^ 1074 := by
  decide +kernel

theorem one_pos : 0 < one := by
  decide +kernel

/-- The rational number that a finite word stands for. -/
def toRat (x : Binary64) : ℚ :=
  x.scaled / one

theorem toRat_eq (x : Binary64) :
    x.toRat = if x.negative then -((x.units : ℚ) / one) else (x.units : ℚ) / one := by
  rw [toRat, scaled]
  split <;> push_cast
  · exact neg_div _ _
  · rfl

/-- **The integral part of a finite word is that of the number it stands for.** -/
theorem toInt_eq_integralPart {x : Binary64} (h : x.isFinite = true) :
    x.toInt = ExactNumber.integralPart x.toRat := by
  have hunits : ExactNumber.integralPart ((x.units : ℚ) / one) = (x.units / one : ℕ) := by
    rw [ExactNumber.integralPart_of_nonneg (by positivity)]
    exact_mod_cast Rat.floor_natCast_div_natCast x.units one
  rw [toInt, isNaN_of_isFinite h, toRat_eq]
  cases x.negative with
  | true =>
    simp only [Bool.false_eq_true, if_false, if_true]
    rw [ExactNumber.integralPart_neg, hunits]
  | false =>
    simp only [Bool.false_eq_true, if_false]
    rw [hunits]

end Binary64

/-! ### Decimals -/

/-- The absolute value of a decimal is a quotient of naturals. -/
theorem Decimal.abs_toRat_mul (d : Decimal) :
    |d.toRat| * (10 ^ (-d.exponent).toNat : ℕ) = (d.digits * 10 ^ d.exponent.toNat : ℕ) := by
  have hpower : (10 : ℚ) ^ d.exponent * 10 ^ (-d.exponent).toNat = 10 ^ d.exponent.toNat := by
    have hten : (10 : ℚ) ≠ 0 := by norm_num
    rw [← zpow_natCast, ← zpow_natCast, ← zpow_add₀ hten]
    congr 1
    omega
  have habs : |d.toRat| = d.digits * (10 : ℚ) ^ d.exponent := by
    have hnonneg : 0 ≤ (d.digits : ℚ) * 10 ^ d.exponent :=
      mul_nonneg (Nat.cast_nonneg _) (zpow_nonneg (by norm_num) _)
    unfold toRat
    split
    · rw [abs_neg, abs_of_nonneg hnonneg]
    · exact abs_of_nonneg hnonneg
  rw [habs]
  push_cast
  rw [mul_assoc, hpower]

namespace Binary64

/-- **A decimal below `2 ^ 1023` is rounded to a finite word.** -/
theorem isFinite_ofDecimal {d : Decimal} (h : |d.toRat| < 2 ^ 1023) :
    (ofDecimal d).isFinite = true := by
  have hden : 0 < 10 ^ (-d.exponent).toNat := Nat.pow_pos (by decide)
  have hnum : d.digits * 10 ^ d.exponent.toNat < 2 ^ 1023 * 10 ^ (-d.exponent).toNat := by
    have hcast := mul_lt_mul_of_pos_right h (Nat.cast_pos (α := ℚ) |>.mpr hden)
    rw [Decimal.abs_toRat_mul] at hcast
    exact_mod_cast hcast
  have hunits : d.digits * 10 ^ d.exponent.toNat * one <
      2 ^ (1023 + 1074) * 10 ^ (-d.exponent).toNat := by
    rw [pow_add, ← one_eq, Nat.mul_right_comm (2 ^ _)]
    exact Nat.mul_lt_mul_of_pos_right hnum one_pos
  have hfinite := nearestMagnitude_lt (by decide) hden hunits
  rw [isFinite, ofDecimal, magnitude_ofRatio]
  exact decide_eq_true hfinite

/-- **A decimal from `2 ^ 1024` on is rounded to an infinity.** -/
theorem ofDecimal_eq_infinity {d : Decimal} (h : 2 ^ 1024 ≤ |d.toRat|) :
    ofDecimal d = infinity d.negative := by
  have hden : 0 < 10 ^ (-d.exponent).toNat := Nat.pow_pos (by decide)
  have hnum : 2 ^ 1024 * 10 ^ (-d.exponent).toNat ≤ d.digits * 10 ^ d.exponent.toNat := by
    have hcast := mul_le_mul_of_nonneg_right h (Nat.cast_nonneg (α := ℚ) (10 ^ (-d.exponent).toNat))
    rw [Decimal.abs_toRat_mul] at hcast
    exact_mod_cast hcast
  have hunits : 2 ^ (1024 + 1074) * 10 ^ (-d.exponent).toNat ≤
      d.digits * 10 ^ d.exponent.toNat * one := by
    rw [pow_add, ← one_eq, Nat.mul_right_comm (2 ^ _)]
    exact Nat.mul_le_mul_right one hnum
  exact congrArg (ofParts d.negative) (nearestMagnitude_eq_infinityWord (by decide) hden hunits)

end Binary64

end NumericControl
