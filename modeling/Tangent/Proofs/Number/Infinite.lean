import Tangent.Proofs.Number.Binary64

/-!
# Beyond the finite machine numbers

Where the first operand of a sum, a difference or a negation is infinite or undefined, no second
operand leads back to the finite numbers: nothing is rounded there, and nothing is packed otherwise
than it is.
-/

namespace Tangent.Binary64

open Float.Model Float.Model.UnpackedFloat

section Kinds

variable {left : UnpackedFloat} (spec : Format) (right : UnpackedFloat)

theorem isFinite_add_eq_false (beyond : left.isFinite = false) :
    (left.add spec right).isFinite = false := by
  cases left with
  | notANumber => rfl
  | infinity sign =>
    cases right with
    | infinity other =>
      rw [UnpackedFloat.add]
      split <;> rfl
    | notANumber | zero other | finite other mantissa exponent positive => rfl
  | zero sign | finite sign mantissa exponent positive => cases beyond

theorem isFinite_sub_eq_false (beyond : left.isFinite = false) :
    (left.sub spec right).isFinite = false := by
  cases left with
  | notANumber => rfl
  | infinity sign =>
    cases right with
    | infinity other =>
      rw [UnpackedFloat.sub]
      split <;> rfl
    | notANumber | zero other | finite other mantissa exponent positive => rfl
  | zero sign | finite sign mantissa exponent positive => cases beyond

theorem isFinite_neg_eq_false (beyond : left.isFinite = false) : left.neg.isFinite = false := by
  cases left with
  | notANumber | infinity sign => rfl
  | zero sign | finite sign mantissa exponent positive => cases beyond

end Kinds

/-- Infinite and undefined numbers are packed as they are. -/
theorem isFinite_of_packed {number : UnpackedFloat}
    (finite : (Float.ofModel (.pack number)).isFinite = true) : number.isFinite = true := by
  cases number with
  | notANumber => cases finite
  | infinity sign => cases sign <;> cases finite
  | zero sign | finite sign mantissa exponent positive => rfl

instance : Arithmetic.ReflectsFinite Float where
  isFinite_of_add {u v} finite := by
    have unpacked := isFinite_of_packed finite
    by_contra beyond
    rw [isFinite_add_eq_false _ _ (Bool.eq_false_iff.2 beyond)] at unpacked
    cases unpacked
  isFinite_of_sub {u v} finite := by
    have unpacked := isFinite_of_packed finite
    by_contra beyond
    rw [isFinite_sub_eq_false _ _ (Bool.eq_false_iff.2 beyond)] at unpacked
    cases unpacked
  isFinite_of_neg {u} finite := by
    have unpacked := isFinite_of_packed finite
    by_contra beyond
    rw [isFinite_neg_eq_false (Bool.eq_false_iff.2 beyond)] at unpacked
    cases unpacked

end Tangent.Binary64
