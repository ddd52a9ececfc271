import Mathlib
import Tangent.Decimal.Rounded

/-!
# Decimals as rationals

What decimals and their whole digits stand for, and the whole number nearest to a quotient, in
rational arithmetic.
-/

namespace Tangent

/-- A power is the quotient of two powers with natural exponents. -/
theorem zpow_eq_div {base : ℚ} (nonzero : base ≠ 0) (exponent : Int) :
    base ^ exponent = base ^ exponent.toNat / base ^ (-exponent).toNat := by
  rw [← zpow_natCast, ← zpow_natCast, ← zpow_sub₀ nonzero, Int.toNat_sub_toNat_neg]

namespace Decimal

/-- Whether a whole number is nearest to a quotient, and even if it is so only as one of two. -/
structure IsRounded (quotient : ℚ) (whole : Nat) : Prop where
  lower : whole - 1 / 2 ≤ quotient
  upper : quotient ≤ whole + 1 / 2
  even : quotient = whole - 1 / 2 ∨ quotient = whole + 1 / 2 → whole % 2 = 0

/-- What is at least a whole number is rounded to no lesser one. -/
theorem IsRounded.le {quotient : ℚ} {whole bound : Nat} (rounded : IsRounded quotient whole)
    (order : bound ≤ quotient) : bound ≤ whole := by
  have reach : (bound : ℚ) < (whole + 1 : Nat) := by
    push_cast
    linarith [rounded.upper]
  exact Nat.le_of_lt_succ (Nat.cast_lt.1 reach)

/-- What is below a whole number is rounded to no greater one. -/
theorem IsRounded.ge {quotient : ℚ} {whole bound : Nat} (rounded : IsRounded quotient whole)
    (order : quotient < bound) : whole ≤ bound := by
  have reach : (whole : ℚ) < (bound + 1 : Nat) := by
    push_cast
    linarith [rounded.lower]
  exact Nat.le_of_lt_succ (Nat.cast_lt.1 reach)

/-- What lies in the middle of two whole numbers is rounded to the even one. -/
theorem nearest_even {numerator denominator : Nat} (divisor : 0 < denominator)
    (middle : 2 * numerator = denominator * (2 * nearest numerator denominator + 1) ∨
      denominator * (2 * nearest numerator denominator) = 2 * numerator + denominator) :
    nearest numerator denominator % 2 = 0 := by
  have division := Nat.div_add_mod numerator denominator
  have remainder := Nat.mod_lt numerator divisor
  simp only [nearest] at middle ⊢
  split at middle
  · next below =>
    rw [if_pos below]
    simp only [Nat.mul_add, Nat.mul_left_comm denominator] at middle
    omega
  · next notBelow =>
    rw [if_neg notBelow]
    split at middle
    · next above =>
      rw [if_pos above]
      simp only [Nat.mul_add, Nat.mul_left_comm denominator] at middle
      omega
    · next notAbove =>
      rw [if_neg notAbove]
      omega

/-- The whole number that is chosen for a quotient is nearest to it. -/
theorem isRounded_nearest (numerator : Nat) {denominator : Nat} (divisor : 0 < denominator) :
    IsRounded (numerator / denominator) (nearest numerator denominator) := by
  have positive : (0 : ℚ) < denominator := Nat.cast_pos.2 divisor
  obtain ⟨below, above⟩ := nearest_spec numerator divisor
  have even := @nearest_even numerator denominator divisor
  generalize nearest numerator denominator = whole at *
  refine ⟨?_, ?_, fun middle => even ?_⟩
  · have above : (denominator : ℚ) * (2 * whole) ≤ 2 * numerator + denominator := by
      exact_mod_cast above
    rw [le_div_iff₀ positive]
    linarith
  · have below : 2 * (numerator : ℚ) ≤ denominator * (2 * whole + 1) := by exact_mod_cast below
    rw [div_le_iff₀ positive]
    linarith
  · rcases middle with lower | upper
    · right
      rw [div_eq_iff positive.ne'] at lower
      have same : (denominator : ℚ) * (2 * whole) = 2 * numerator + denominator := by linarith
      exact_mod_cast same
    · left
      rw [div_eq_iff positive.ne'] at upper
      have same : 2 * (numerator : ℚ) = denominator * (2 * whole + 1) := by linarith
      exact_mod_cast same

/-- The rational that a decimal stands for. -/
def toRat (decimal : Decimal) : ℚ :=
  decimal.digits * 10 ^ decimal.exponent

theorem toRat_nonneg (decimal : Decimal) : 0 ≤ decimal.toRat :=
  mul_nonneg (Nat.cast_nonneg _) (zpow_pos (by norm_num) _).le

/-- A decimal lies below the power of ten behind its leading digit. -/
theorem toRat_lt (decimal : Decimal) :
    decimal.toRat < 10 ^ ((digitCount decimal.digits : Int) + decimal.exponent) := by
  have below : (decimal.digits : ℚ) < 10 ^ digitCount decimal.digits := by
    exact_mod_cast digitCount_le_iff.1 (Nat.le_refl (digitCount decimal.digits))
  rw [toRat, zpow_add₀ (by norm_num), zpow_natCast]
  exact mul_lt_mul_of_pos_right below (zpow_pos (by norm_num) _)

/-- A decimal is at least the power of ten of its leading digit. -/
theorem le_toRat {decimal : Decimal} (positive : 0 < decimal.digits) :
    10 ^ ((digitCount decimal.digits : Int) + decimal.exponent - 1) ≤ decimal.toRat := by
  obtain ⟨counted, leading⟩ := tenTo_digitCount_pred_le positive
  have above : (10 : ℚ) ^ (digitCount decimal.digits - 1) ≤ decimal.digits := by
    exact_mod_cast leading
  rw [toRat, add_sub_right_comm, zpow_add₀ (by norm_num), ← Nat.cast_pred counted, zpow_natCast]
  exact mul_le_mul_of_nonneg_right above (zpow_pos (by norm_num) _).le

/-- A positive quotient is at least the power of ten of its order. -/
theorem order_le {numerator denominator : Nat} (positive : 0 < numerator)
    (divisor : 0 < denominator) :
    (10 : ℚ) ^ order numerator denominator ≤ numerator / denominator := by
  have reached := (order_spec positive divisor).1
  rw [zpow_eq_div (by norm_num), div_le_div_iff₀ (by positivity) (Nat.cast_pos.2 divisor),
    mul_comm, ← Nat.cast_ofNat, ← Nat.cast_pow, ← Nat.cast_pow, ← Nat.cast_mul, ← Nat.cast_mul]
  exact Nat.cast_le.2 reached

/-- Zeros moved from the digits into the exponent leave the number. -/
theorem toRat_reduced (decimal : Decimal) : decimal.reduced.toRat = decimal.toRat := by
  rw [reduced]
  split
  · next zero => simp [toRat, zero]
  · obtain ⟨dropped, digits, exponent⟩ :=
      dropZeros_spec (digitCount decimal.digits) decimal
    generalize dropZeros (digitCount decimal.digits) decimal = fewest at *
    rw [toRat, toRat, exponent, ← digits, Nat.cast_mul, add_comm, zpow_add₀ (by norm_num),
      zpow_natCast, ← mul_assoc, tenTo, Nat.pow_eq, Nat.cast_pow, Nat.cast_ofNat]

end Decimal

end Tangent
