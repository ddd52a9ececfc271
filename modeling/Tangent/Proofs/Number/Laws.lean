import Tangent.Expr.Evaluation
import Tangent.Proofs.Decimal.Reading

/-!
# Laws of numbers

The operations on numbers carry no laws of their own. The laws below are what reading and writing
rely on, which machine numbers have, and what simplification relies on: an equality that may
identify zeros of different sign, neutral elements, and operations that respect that equality.
-/

namespace Tangent

variable {ν : Type}

namespace Number

variable [Number ν]

theorem isUndefined_iff {value : ν} :
    isUndefined value = true ↔ Scalar.extended value = .undefined :=
  beq_iff_eq

/-- A number without its sign. -/
def magnitude (value : ν) : ν :=
  if isNegative value then -value else value

/-- Whether the literal of a finite number reads back as its size. -/
def ReadsBack (value : ν) : Prop :=
  (Scalar.extended value).isFinite = true →
    Arithmetic.ofDecimal ((shortest value).spelled literalStyle) = magnitude value

instance [DecidableEq ν] (value : ν) : Decidable (ReadsBack value) :=
  inferInstanceAs (Decidable (_ → _))

/-- The number that is read from the literal of a number. -/
def literal (value : ν) : ν :=
  match Scalar.extended value with
  | .infinite _ => Arithmetic.ofDecimal ⟨1, 999⟩
  | _ => Arithmetic.ofDecimal ((shortest value).spelled literalStyle)

/-- What is relied on in numbers beside that: a decimal stands for a number without a sign,
overflow gives the infinity, an undefined number has no sign, and the whole numbers of the rules of
calculus stand for themselves. -/
class Lawful (ν : Type) [Number ν] : Prop where
  isNegative_ofDecimal (decimal : Decimal) : isNegative (Arithmetic.ofDecimal decimal : ν) = false
  extended_ofDecimal (decimal : Decimal) :
    Scalar.extended (Arithmetic.ofDecimal decimal : ν) ≠ .undefined
  ofDecimal_overflow (value : ν) (negative : Bool)
    (infinite : Scalar.extended value = .infinite negative) :
    Arithmetic.ofDecimal ⟨1, 999⟩ = magnitude value
  isNegative_undefined (value : ν) (undefined : Scalar.extended value = .undefined) :
    isNegative value = false
  extended_ofNat (number : Nat) (small : number ≤ 2) :
    Scalar.extended (Arithmetic.ofNat number : ν) = .finite number

/-- What is relied on where folding asks whether a number is finite, and where signs are taken off
and put back: finite are the numbers that stand for rationals, an infinity is written with its own
sign, and two changes of its sign leave a finite number as it was. -/
class Coherent (ν : Type) [Number ν] : Prop where
  isFinite_eq (value : ν) : Arithmetic.isFinite value = (Scalar.extended value).isFinite
  isNegative_infinite (value : ν) (negative : Bool)
    (infinite : Scalar.extended value = .infinite negative) : isNegative value = negative
  neg_neg (value : ν) (finite : Arithmetic.isFinite value = true) : - -value = value

/-- What is finite stands for something. -/
theorem isUndefined_eq_false [Coherent ν] {value : ν} (finite : Arithmetic.isFinite value = true) :
    isUndefined value = false := by
  rw [Coherent.isFinite_eq] at finite
  refine Bool.eq_false_iff.2 fun undefined => ?_
  rw [isUndefined_iff.1 undefined] at finite
  cases finite

/-- The whole numbers of the rules of calculus are finite. -/
theorem isFinite_ofNat [Lawful ν] [Coherent ν] {number : Nat} (small : number ≤ 2) :
    Arithmetic.isFinite (Arithmetic.ofNat number : ν) = true := by
  rw [Coherent.isFinite_eq, Lawful.extended_ofNat number small]
  rfl

/-- A literal that reads back stands for the size of its number. -/
theorem literal_eq_magnitude [Lawful ν] {value : ν} (reads : ReadsBack value)
    (defined : isUndefined value = false) : literal value = magnitude value := by
  unfold literal
  split
  · next negative infinite => exact Lawful.ofDecimal_overflow value negative infinite
  · next noInfinity =>
    refine reads ?_
    cases stands : Scalar.extended value with
    | finite size => rfl
    | infinite negative => exact absurd stands (noInfinity negative)
    | undefined =>
      rw [isUndefined_iff.2 stands] at defined
      cases defined

/-- The number of a decimal stands for something. -/
theorem isUndefined_ofDecimal [Lawful ν] (decimal : Decimal) :
    isUndefined (Arithmetic.ofDecimal decimal : ν) = false :=
  Bool.eq_false_iff.2 fun undefined =>
    Lawful.extended_ofDecimal decimal (isUndefined_iff.1 undefined)

end Number

namespace Arithmetic

/-- The logarithm of a number to a base. -/
def logarithm [Arithmetic ν] (argument base : ν) : ν :=
  combine .div (apply .log argument) (apply .log base)

/-- What keeps folding among finite numbers: zero and one are finite, and so is the negation of what
is finite. -/
class KeepsFinite (ν : Type) [Arithmetic ν] : Prop where
  isFinite_neg {u : ν} : isFinite u = true → isFinite (-u) = true
  isFinite_ofNat {number : Nat} : number ≤ 1 → isFinite (ofNat number : ν) = true

/-- What a finite result tells of operands: a sum, a difference or a negation is finite only where
its first operand is. -/
class ReflectsFinite (ν : Type) [Arithmetic ν] : Prop where
  isFinite_of_add {u v : ν} : isFinite (u + v) = true → isFinite u = true
  isFinite_of_sub {u v : ν} : isFinite (u - v) = true → isFinite u = true
  isFinite_of_neg {u : ν} : isFinite (-u) = true → isFinite u = true

/-- What simplification relies on. All of it is about finite numbers: `==` is an equality among them
that holds them apart from the others, and an operation may do anything where its result is none of
them. -/
class Lawful (ν : Type) [Arithmetic ν] : Prop where
  beq_refl {u : ν} : isFinite u = true → (u == u) = true
  beq_symm {u v : ν} : isFinite u = true → (u == v) = true → (v == u) = true
  beq_trans {u v w : ν} : isFinite u = true → (u == v) = true → (v == w) = true → (u == w) = true
  isFinite_of_beq {u v : ν} : isFinite u = true → (u == v) = true → isFinite v = true
  add_zero {u : ν} : isFinite u = true → (u + ofNat 0 == u) = true
  zero_add {u : ν} : isFinite u = true → (ofNat 0 + u == u) = true
  sub_zero {u : ν} : isFinite u = true → (u - ofNat 0 == u) = true
  zero_sub {u : ν} : isFinite u = true → (ofNat 0 - u == -u) = true
  mul_one {u : ν} : isFinite u = true → (u * ofNat 1 == u) = true
  one_mul {u : ν} : isFinite u = true → (ofNat 1 * u == u) = true
  mul_zero {u : ν} : isFinite u = true → (u * ofNat 0 == ofNat 0) = true
  zero_mul {u : ν} : isFinite u = true → (ofNat 0 * u == ofNat 0) = true
  div_one {u : ν} : isFinite u = true → (u / ofNat 1 == u) = true
  power_one {u : ν} : isFinite u = true → (power u (ofNat 1) == u) = true
  power_zero {u : ν} : isFinite u = true → (power u (ofNat 0) == ofNat 1) = true
  neg_neg {u : ν} : isFinite u = true → (- -u == u) = true
  isFinite_neg {u : ν} : isFinite u = true → isFinite (-u) = true
  /-- Equal finite numbers have equal negations. -/
  neg_congr {u v : ν} : isFinite u = true → (u == v) = true → (-u == -v) = true
  /-- Operations on equal finite numbers have equal results, if one of them is finite. -/
  combine_congr (operator : BinaryOperator) {u v u' v' : ν} :
    isFinite u = true → isFinite v = true → (u == u') = true → (v == v') = true →
      isFinite (combine operator u v) = true →
        (combine operator u v == combine operator u' v') = true
  apply_congr (function : Elementary) {u u' : ν} : isFinite u = true → (u == u') = true →
    isFinite (apply function u) = true → (apply function u == apply function u') = true
  /-- A logarithm to a base is one operation, whose parts need not be finite. -/
  logarithm_congr {u v u' v' : ν} :
    isFinite u = true → isFinite v = true → (u == u') = true → (v == v') = true →
      isFinite (logarithm u v) = true → (logarithm u v == logarithm u' v') = true

/-- Whether a number equals zero. -/
def IsZero [Arithmetic ν] (u : ν) : Prop :=
  (u == ofNat 0) = true

/-- Whether a number equals zero or not even itself. -/
def Vanishes [Arithmetic ν] (u : ν) : Prop :=
  IsZero u ∨ (u == u) = false

/-- What is relied on where zeros are computed with. An operation that brings a zero to zero among
the finite numbers may have an undefined result beyond them, but never another number. -/
class KeepsZero (ν : Type) [Arithmetic ν] : Prop where
  isFinite_ofNat {number : Nat} : number ≤ 2 → isFinite (ofNat number : ν) = true
  beq_refl {u : ν} : isFinite u = true → (u == u) = true
  isFinite_of_isZero {u : ν} : IsZero u → isFinite u = true
  isZero_neg {u : ν} : IsZero u → IsZero (-u)
  isZero_add {u v : ν} : IsZero u → IsZero v → IsZero (u + v)
  isZero_sub {u v : ν} : IsZero u → IsZero v → IsZero (u - v)
  isZero_mul_left {u v : ν} : IsZero u → isFinite v = true → IsZero (u * v)
  isZero_mul_right {u v : ν} : isFinite u = true → IsZero v → IsZero (u * v)
  isZero_div {u v : ν} : IsZero u → ¬Vanishes v → IsZero (u / v)
  vanishes_neg {u : ν} : Vanishes u → Vanishes (-u)
  vanishes_add {u v : ν} : Vanishes u → Vanishes v → Vanishes (u + v)
  vanishes_sub {u v : ν} : Vanishes u → Vanishes v → Vanishes (u - v)
  vanishes_mul_left {u v : ν} : Vanishes u → Vanishes (u * v)
  vanishes_mul_right {u v : ν} : Vanishes v → Vanishes (u * v)
  vanishes_div {u v : ν} : Vanishes u → Vanishes (u / v)

end Arithmetic

end Tangent
