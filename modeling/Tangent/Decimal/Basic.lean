/-!
# Decimals

A decimal is a whole number of units of a power of ten. This module also says how many digits a
number has and which power of ten leads a quotient.
-/

namespace Tangent

/-- The nonnegative number `digits · 10 ^ exponent`. -/
structure Decimal where
  digits : Nat
  exponent : Int
  deriving DecidableEq, Repr

namespace Decimal

/-- A power of ten. -/
def tenTo (exponent : Nat) : Nat :=
  Nat.pow 10 exponent

theorem tenTo_zero : tenTo 0 = 1 := rfl

theorem tenTo_succ (exponent : Nat) : tenTo (exponent + 1) = tenTo exponent * 10 := rfl

theorem tenTo_pos (exponent : Nat) : 0 < tenTo exponent :=
  Nat.pow_pos (by decide)

/-- The decimal digits of a number, most significant first. -/
def digitText (number : Nat) : List Char :=
  Nat.toDigits 10 number

/-- How many decimal digits a number has; zero has none. -/
def digitCount (number : Nat) : Nat :=
  if number = 0 then 0 else (digitText number).length

/-- A number has at most as many digits as the first power of ten above it has zeros. -/
theorem digitCount_le_iff {number count : Nat} :
    digitCount number ≤ count ↔ number < tenTo count := by
  unfold digitCount
  split
  · next zero => exact iff_of_true (Nat.zero_le count) (zero ▸ Nat.pow_pos (by decide))
  · next positive =>
    cases count with
    | zero =>
      have length := @Nat.length_toDigits_pos 10 number
      exact iff_of_false (Nat.not_le_of_lt length) fun less => positive (Nat.lt_one_iff.1 less)
    | succ count =>
      exact Nat.length_toDigits_le_iff (by decide) (Nat.succ_pos count)

/-- A positive number is at least the power of ten that leads it. -/
theorem tenTo_digitCount_pred_le {number : Nat} (positive : 0 < number) :
    0 < digitCount number ∧ tenTo (digitCount number - 1) ≤ number := by
  have counted : 0 < digitCount number := by
    rcases Nat.eq_zero_or_pos (digitCount number) with none | counted
    · have below := digitCount_le_iff.1 (Nat.le_of_eq none)
      rw [tenTo_zero] at below
      omega
    · exact counted
  refine ⟨counted, Nat.le_of_not_lt fun less => ?_⟩
  have := digitCount_le_iff.2 less
  omega

/-- The exponent of the leading digit of a positive quotient: the greatest `e` for which
`10 ^ e` is at most the quotient. -/
def order (numerator denominator : Nat) : Int :=
  if denominator ≤ numerator then (digitCount (numerator / denominator) : Int) - 1
  else -(digitCount ((denominator - 1) / numerator) : Int)

/-- A positive quotient is at least the power of ten of its order and below the next one. -/
theorem order_spec {numerator denominator : Nat} (positive : 0 < numerator)
    (divisor : 0 < denominator) :
    denominator * tenTo (order numerator denominator).toNat ≤
        numerator * tenTo (-order numerator denominator).toNat ∧
      numerator * tenTo (-(order numerator denominator + 1)).toNat <
        denominator * tenTo (order numerator denominator + 1).toNat := by
  unfold order
  split
  · next atLeastOne =>
    have leading := tenTo_digitCount_pred_le (Nat.div_pos atLeastOne divisor)
    have reach := digitCount_le_iff.1 (Nat.le_refl (digitCount (numerator / denominator)))
    generalize digitCount (numerator / denominator) = count at leading reach
    rw [show ((count : Int) - 1).toNat = count - 1 by omega,
      show (-((count : Int) - 1)).toNat = 0 by omega,
      show ((count : Int) - 1 + 1).toNat = count by omega,
      show (-((count : Int) - 1 + 1)).toNat = 0 by omega, tenTo_zero, Nat.mul_one]
    exact ⟨Nat.le_trans (Nat.mul_le_mul_left denominator leading.2)
        (Nat.mul_div_le numerator denominator),
      Nat.lt_of_lt_of_le (Nat.lt_mul_div_succ numerator divisor)
        (Nat.mul_le_mul_left denominator reach)⟩
  · next belowOne =>
    have steps : 0 < (denominator - 1) / numerator := Nat.div_pos (by omega) positive
    have leading := tenTo_digitCount_pred_le steps
    have reach := digitCount_le_iff.1 (Nat.le_refl (digitCount ((denominator - 1) / numerator)))
    have below := Nat.mul_div_le (denominator - 1) numerator
    have above := Nat.lt_mul_div_succ (denominator - 1) positive
    generalize digitCount ((denominator - 1) / numerator) = count at leading reach
    rw [show (-(count : Int)).toNat = 0 by omega, show (-(-(count : Int))).toNat = count by omega,
      show (-(count : Int) + 1).toNat = 0 by omega,
      show (-(-(count : Int) + 1)).toNat = count - 1 by omega, tenTo_zero, Nat.mul_one]
    have exceeds := Nat.mul_le_mul_left numerator reach
    have stays := Nat.mul_le_mul_left numerator leading.2
    simp only [Nat.succ_eq_add_one] at exceeds
    omega

/-- Moves trailing zeros of the digits into the exponent, at most `count` of them. -/
def dropZeros : Nat → Decimal → Decimal
  | 0, decimal => decimal
  | count + 1, decimal =>
    if decimal.digits % 10 = 0 then dropZeros count ⟨decimal.digits / 10, decimal.exponent + 1⟩
    else decimal

/-- Dropped zeros are made up for by the exponent. -/
theorem dropZeros_spec (count : Nat) (decimal : Decimal) :
    ∃ dropped : Nat, (dropZeros count decimal).digits * tenTo dropped = decimal.digits ∧
      (dropZeros count decimal).exponent = decimal.exponent + dropped := by
  induction count generalizing decimal with
  | zero => exact ⟨0, Nat.mul_one decimal.digits, (Int.add_zero decimal.exponent).symm⟩
  | succ count inductionHypothesis =>
    unfold dropZeros
    split
    · next divisible =>
      obtain ⟨dropped, digits, exponent⟩ :=
        inductionHypothesis ⟨decimal.digits / 10, decimal.exponent + 1⟩
      refine ⟨dropped + 1, ?_, ?_⟩
      · rw [tenTo_succ, ← Nat.mul_assoc, digits]
        exact Nat.div_mul_cancel (Nat.dvd_of_mod_eq_zero divisible)
      · simp only [exponent]
        omega
    · exact ⟨0, Nat.mul_one decimal.digits, (Int.add_zero decimal.exponent).symm⟩

/-- The same number with the fewest digits; zero gets exponent zero. -/
def reduced (decimal : Decimal) : Decimal :=
  if decimal.digits = 0 then ⟨0, 0⟩ else dropZeros (digitCount decimal.digits) decimal

end Decimal

end Tangent
