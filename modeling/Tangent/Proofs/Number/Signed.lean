import Mathlib.Algebra.Order.Ring.Rat
import Mathlib.Data.Rat.Lemmas
import Mathlib.Tactic.NormNum
import Tangent.Proofs.Number.Laws

/-!
# Rational numbers with a sign

Rational numbers that carry a sign, so that there are two zeros, and one more value that is not
finite. The zeros equal each other and the other value does not even equal itself, as with machine
numbers. So what simplification relies on holds of numbers for which it says more than identities
of algebra.
-/

namespace Tangent

/-- A rational number with a sign, or the result of an operation that has none. -/
inductive SignedRational where
  | finite (value : ℚ) (negative : Bool)
  | undefined
  deriving DecidableEq

namespace SignedRational

/-- A number with its own sign, and a zero with the given one. -/
def signed (value : ℚ) (zeroSign : Bool) : SignedRational :=
  finite value (if value = 0 then zeroSign else decide (value < 0))

/-- Equality apart from the sign. -/
def equals : SignedRational → SignedRational → Bool
  | finite left _, finite right _ => left = right
  | _, _ => false

/-- An operation on the values of two numbers and on their signs. -/
def lift (onValues : ℚ → ℚ → ℚ) (onSigns : Bool → Bool → Bool) :
    SignedRational → SignedRational → SignedRational
  | finite left leftSign, finite right rightSign =>
    signed (onValues left right) (onSigns leftSign rightSign)
  | _, _ => undefined

def negate : SignedRational → SignedRational
  | finite value negative => signed (-value) (!negative)
  | undefined => undefined

def divide : SignedRational → SignedRational → SignedRational
  | left, finite right rightSign =>
    if right = 0 then undefined else lift (· / ·) xor left (finite right rightSign)
  | _, undefined => undefined

/-- Whole powers, where they have a value. -/
def power : SignedRational → SignedRational → SignedRational
  | finite base _, finite exponent _ =>
    if exponent.den = 1 ∧ (base ≠ 0 ∨ 0 ≤ exponent) then signed (base ^ exponent.num) false
    else undefined
  | _, _ => undefined

/-- The one function of formulas that always has a rational value. -/
def apply : Elementary → SignedRational → SignedRational
  | .abs, finite value _ => signed |value| false
  | _, _ => undefined

instance : Arithmetic SignedRational where
  beq := equals
  neg := negate
  add := lift (· + ·) and
  sub := lift (· - ·) fun left right => left && !right
  mul := lift (· * ·) xor
  div := divide
  ofDecimal decimal := signed (decimal.digits * 10 ^ decimal.exponent) false
  power := power
  apply := apply
  isFinite number := match number with
    | finite _ _ => true
    | undefined => false

end SignedRational

namespace Arithmetic

open SignedRational

variable {sign other : Bool} {u v : SignedRational}

/-- Whole numbers of rules stand for themselves. -/
theorem ofNat_eq_finite (number : Nat) : (ofNat number : SignedRational) = finite number false := by
  have positive : ¬(number : ℚ) < 0 := not_lt.2 (Nat.cast_nonneg number)
  change signed (number * 10 ^ (0 : Int)) false = finite number false
  simp [signed, positive]

/-- A quotient has the exact value where its divisor is not zero. -/
theorem finite_div_finite {left right : ℚ} (nonzero : right ≠ 0) :
    finite left sign / finite right other = signed (left / right) (xor sign other) :=
  if_neg nonzero

/-- A whole power has the exact value where there is one. -/
theorem power_finite {base exponent : ℚ} (whole : exponent.den = 1)
    (hasValue : base ≠ 0 ∨ 0 ≤ exponent) :
    power (finite base sign) (finite exponent other) = signed (base ^ exponent.num) false :=
  if_pos ⟨whole, hasValue⟩

/-- Numbers that are equal are finite and have one value. -/
theorem exists_of_beq (equal : (u == v) = true) :
    ∃ value sign other, u = finite value sign ∧ v = finite value other := by
  cases u with
  | undefined => cases equal
  | finite left sign =>
    cases v with
    | undefined => cases equal
    | finite right other =>
      obtain rfl : left = right := of_decide_eq_true equal
      exact ⟨left, sign, other, rfl, rfl⟩

/-- Numbers of one value are equal, whatever their signs are. -/
theorem beq_of_eq {left right : ℚ} (same : left = right) :
    (finite left sign == finite right other) = true :=
  decide_eq_true same

theorem exists_of_isFinite (isFinite : isFinite u = true) :
    ∃ value sign, u = finite value sign := by
  cases u with
  | undefined => cases isFinite
  | finite value sign => exact ⟨value, sign, rfl⟩

/-- A finite number equals itself. -/
theorem beq_self (isFinite : isFinite u = true) : (u == u) = true := by
  obtain ⟨value, sign, rfl⟩ := exists_of_isFinite isFinite
  exact beq_of_eq rfl

instance : Lawful SignedRational where
  beq_refl := beq_self
  beq_symm _ equal := by
    obtain ⟨value, sign, other, rfl, rfl⟩ := exists_of_beq equal
    exact beq_of_eq rfl
  beq_trans _ first second := by
    obtain ⟨value, sign, other, rfl, rfl⟩ := exists_of_beq first
    obtain ⟨_, _, _, same, rfl⟩ := exists_of_beq second
    cases same
    exact beq_of_eq rfl
  isFinite_of_beq _ equal := by
    obtain ⟨value, sign, other, rfl, rfl⟩ := exists_of_beq equal
    rfl
  add_zero finite := by
    obtain ⟨value, sign, rfl⟩ := exists_of_isFinite finite
    exact beq_of_eq (by simp)
  zero_add finite := by
    obtain ⟨value, sign, rfl⟩ := exists_of_isFinite finite
    exact beq_of_eq (by simp)
  sub_zero finite := by
    obtain ⟨value, sign, rfl⟩ := exists_of_isFinite finite
    exact beq_of_eq (by simp)
  zero_sub finite := by
    obtain ⟨value, sign, rfl⟩ := exists_of_isFinite finite
    exact beq_of_eq (by simp)
  mul_one finite := by
    obtain ⟨value, sign, rfl⟩ := exists_of_isFinite finite
    exact beq_of_eq (by simp)
  one_mul finite := by
    obtain ⟨value, sign, rfl⟩ := exists_of_isFinite finite
    exact beq_of_eq (by simp)
  mul_zero finite := by
    obtain ⟨value, sign, rfl⟩ := exists_of_isFinite finite
    exact beq_of_eq (by simp)
  zero_mul finite := by
    obtain ⟨value, sign, rfl⟩ := exists_of_isFinite finite
    exact beq_of_eq (by simp)
  div_one finite := by
    obtain ⟨value, sign, rfl⟩ := exists_of_isFinite finite
    rw [ofNat_eq_finite, finite_div_finite (by simp)]
    exact beq_of_eq (by simp)
  power_one finite := by
    obtain ⟨value, sign, rfl⟩ := exists_of_isFinite finite
    rw [ofNat_eq_finite, power_finite (by simp) (.inr (by simp))]
    exact beq_of_eq (by simp)
  power_zero finite := by
    obtain ⟨value, sign, rfl⟩ := exists_of_isFinite finite
    rw [ofNat_eq_finite, power_finite (by simp) (.inr (by simp))]
    exact beq_of_eq (by simp)
  neg_neg finite := by
    obtain ⟨value, sign, rfl⟩ := exists_of_isFinite finite
    exact beq_of_eq (by simp)
  isFinite_neg finite := by
    obtain ⟨value, sign, rfl⟩ := exists_of_isFinite finite
    rfl
  neg_congr _ equal := by
    obtain ⟨value, sign, other, rfl, rfl⟩ := exists_of_beq equal
    exact beq_of_eq rfl
  combine_congr operator _ _ _ _ _ _ left right finite := by
    obtain ⟨value, sign, other, rfl, rfl⟩ := exists_of_beq left
    obtain ⟨divisor, _, _, rfl, rfl⟩ := exists_of_beq right
    cases operator with
    | div =>
      rcases eq_or_ne divisor 0 with rfl | nonzero
      · cases finite
      · change (_ / _ == _ / _) = true
        rw [finite_div_finite nonzero, finite_div_finite nonzero]
        exact beq_of_eq rfl
    -- Powers do not depend on signs at all, so both results are the same number.
    | pow => exact beq_self finite
    | _ => exact beq_of_eq rfl
  apply_congr function _ _ _ equal finite := by
    obtain ⟨value, sign, other, rfl, rfl⟩ := exists_of_beq equal
    cases function with
    | abs => exact beq_of_eq rfl
    | _ => cases finite
  logarithm_congr _ _ _ _ finite := by cases finite

end Arithmetic

end Tangent
