import Tangent.Decimal.Style

/-!
# Rounded decimals

Quotients rounded to a whole number, to a number of places behind the point, and to a number of
significant digits. The nearest candidate wins and a half goes to the even neighbour.
-/

namespace Tangent.Decimal

/-- The whole number nearest to a quotient; a half goes to the even neighbour. -/
def nearest (numerator denominator : Nat) : Nat :=
  let floor := numerator / denominator
  let twice := 2 * (numerator % denominator)
  if twice < denominator then floor
  else if denominator < twice then floor + 1
  else floor + floor % 2

/-- Rounding moves a quotient by at most a half. -/
theorem nearest_spec (numerator : Nat) {denominator : Nat} (divisor : 0 < denominator) :
    2 * numerator ≤ denominator * (2 * nearest numerator denominator + 1) ∧
      denominator * (2 * nearest numerator denominator) ≤ 2 * numerator + denominator := by
  have division := Nat.div_add_mod numerator denominator
  have remainder := Nat.mod_lt numerator divisor
  simp only [nearest]
  split
  · simp only [Nat.mul_add, Nat.mul_left_comm denominator]
    omega
  · split
    · simp only [Nat.mul_add, Nat.mul_left_comm denominator]
      omega
    · rcases Nat.mod_two_eq_zero_or_one (numerator / denominator) with even | odd <;>
        simp only [*, Nat.mul_add, Nat.mul_left_comm denominator] <;>
        omega

/-- A quotient with a fixed number of places behind the point. -/
def fixed (places numerator denominator : Nat) : List Char :=
  let digits := padded (places + 1) (digitText (nearest (numerator * tenTo places) denominator))
  let whole := digits.take (digits.length - places)
  if places = 0 then whole else whole ++ '.' :: digits.drop (digits.length - places)

/-- A quotient rounded to at most the given number of significant digits. -/
def significant (precision numerator denominator : Nat) : Decimal :=
  if numerator = 0 then ⟨0, 0⟩
  else
    let exponent := order numerator denominator - precision + 1
    let digits := nearest (numerator * tenTo (-exponent).toNat)
      (denominator * tenTo exponent.toNat)
    reduced ⟨digits, exponent⟩

end Tangent.Decimal
