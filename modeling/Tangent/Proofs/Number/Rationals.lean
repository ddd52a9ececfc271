import Mathlib.Data.Rat.Floor
import Tangent.Number

/-!
# Rational numbers in places

The rational numbers as numbers that points and cells are placed with. Nothing is rounded among
them, and no quotient is too large.
-/

namespace Tangent

instance : Scalar ℚ where
  quotient numerator denominator := numerator / denominator
  extended := .finite

namespace Scalar

@[simp]
theorem quotient_rat (numerator denominator : Int) :
    (quotient numerator denominator : ℚ) = numerator / denominator := rfl

@[simp]
theorem extended_rat (value : ℚ) : extended value = .finite value := rfl

@[simp]
theorem ofInt_rat (number : Int) : (ofInt number : ℚ) = number := by
  rw [ofInt, quotient_rat, Int.cast_one, div_one]

/-- Only a divisor of zero is refused. -/
theorem divide?_rat (numerator : Int) {denominator : Int} (divisor : denominator ≠ 0) :
    (divide? numerator denominator : Except Indivisible ℚ) = .ok (numerator / denominator) := by
  rw [divide?, if_neg divisor]
  rfl

@[simp]
theorem ceil?_rat (value : ℚ) : ceil? value = .ok ⌈value⌉ := by
  have same : value.ceil = ⌈value⌉ :=
    eq_of_forall_ge_iff fun bound => Rat.ceil_le_iff.trans Int.ceil_le.symm
  exact congrArg Except.ok same

@[simp]
theorem floor?_rat (value : ℚ) : floor? value = .ok ⌊value⌋ := rfl

end Scalar

end Tangent
