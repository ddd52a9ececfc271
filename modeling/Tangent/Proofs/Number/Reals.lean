import Tangent.Proofs.Calculus.RealValue
import Tangent.Proofs.Number.Laws

/-!
# Real numbers in formulas

The real numbers as numbers that formulas are computed in. All of them are finite and each equals
itself alone, so that what simplification relies on are identities of algebra.
-/

namespace Tangent

noncomputable instance : Arithmetic ℝ where
  ofDecimal decimal := decimal.digits * 10 ^ decimal.exponent
  power := BinaryOperator.pow.onReals
  apply := Elementary.onReals
  isFinite _ := true

namespace Arithmetic

@[simp]
theorem ofNat_real (number : Nat) : (ofNat number : ℝ) = number := by
  show (number : ℝ) * 10 ^ (0 : ℤ) = number
  rw [zpow_zero, mul_one]

@[simp]
theorem power_real (base exponent : ℝ) : power base exponent = base ^ exponent := rfl

@[simp]
theorem isFinite_real (value : ℝ) : isFinite value = true := rfl

@[simp]
theorem beq_real_iff {u v : ℝ} : (u == v) = true ↔ u = v :=
  beq_iff_eq

instance : Lawful ℝ where
  beq_refl _ := by simp
  beq_symm _ equal := beq_real_iff.2 (beq_real_iff.1 equal).symm
  beq_trans _ first second :=
    beq_real_iff.2 ((beq_real_iff.1 first).trans (beq_real_iff.1 second))
  isFinite_of_beq _ _ := rfl
  add_zero _ := by simp
  zero_add _ := by simp
  sub_zero _ := by simp
  zero_sub _ := by simp
  mul_one _ := by simp
  one_mul _ := by simp
  mul_zero _ := by simp
  zero_mul _ := by simp
  div_one _ := by simp
  power_one _ := by simp
  power_zero _ := by simp
  neg_neg _ := by simp
  isFinite_neg _ := rfl
  neg_congr _ equal := by simp_all
  combine_congr operator _ _ _ _ _ _ left right _ := by simp_all
  apply_congr function _ _ _ equal _ := by simp_all
  logarithm_congr _ _ left right _ := by simp_all

end Arithmetic

end Tangent
