import Mathlib.Analysis.SpecialFunctions.Pow.Real
import Mathlib.Analysis.SpecialFunctions.Trigonometric.Arctan
import Mathlib.Data.Sign.Basic
import Tangent.Proofs.Expr.Evaluation

/-!
# Real values

Trees interpreted over the real numbers: constants as the numbers they stand for, operations and
functions as those of the reals. Over the reals a tree of accepted calls always has a value, so
that its values along one variable are a function of a real number.
-/

namespace Tangent

/-- What an operation means for real numbers. -/
noncomputable def BinaryOperator.onReals : BinaryOperator → ℝ → ℝ → ℝ
  | add => (· + ·)
  | sub => (· - ·)
  | mul => (· * ·)
  | div => (· / ·)
  | pow => (· ^ ·)

/-- What a function means for real numbers. -/
noncomputable def Elementary.onReals : Elementary → ℝ → ℝ
  | sin => Real.sin
  | cos => Real.cos
  | tan => Real.tan
  | exp => Real.exp
  | log => Real.log
  | sqrt => Real.sqrt
  | abs => fun x => |x|
  | sign => fun x => (SignType.sign x : ℝ)
  | asin => Real.arcsin
  | acos => Real.arccos
  | atan => Real.arctan
  | sinh => Real.sinh
  | cosh => Real.cosh
  | tanh => Real.tanh

/-- The real number that a number stands for, zero where that is none. -/
def Extended.toReal : Extended → ℝ
  | finite value => value
  | _ => 0

/-- The operations of the real numbers. -/
noncomputable def Interpretation.real {ν : Type} [Scalar ν] : Interpretation ν ℝ where
  constant value := (Scalar.extended value).toReal
  negate := (- ·)
  combine operator left right := .ok (operator.onReals left right)
  apply := Elementary.onReals

namespace Expr

variable {ν : Type} [Scalar ν]

/-- The value of a tree over the reals, zero where it has none. -/
noncomputable def realValue (assignment : String → ℝ) (tree : Expr ν) : ℝ :=
  match tree.evaluateIn .real fun name => some (assignment name) with
  | .ok value => value
  | .error _ => 0

variable {assignment : String → ℝ} {tree operand left right argument base : Expr ν}

/-- A tree of accepted calls has a real value. -/
theorem evaluateIn_real (accepted : tree.CallsAccepted) (assignment : String → ℝ) :
    tree.evaluateIn .real (fun name => some (assignment name)) =
      .ok (tree.realValue assignment) := by
  have some : ∃ value, tree.evaluateIn .real (fun name => some (assignment name)) = .ok value :=
    exists_evaluateIn (fun _ _ _ => ⟨_, rfl⟩) (fun _ _ => ⟨_, rfl⟩) accepted
  obtain ⟨value, known⟩ := some
  rw [realValue, known]

theorem realValue_of_eq {value : ℝ}
    (known : tree.evaluateIn .real (fun name => some (assignment name)) = .ok value) :
    tree.realValue assignment = value := by
  rw [realValue, known]

@[simp]
theorem realValue_const (value : ν) :
    (const value).realValue assignment = (Scalar.extended value).toReal := rfl

@[simp]
theorem realValue_var (name : String) :
    (var name : Expr ν).realValue assignment = assignment name := rfl

theorem realValue_neg (accepted : operand.CallsAccepted) :
    (neg operand).realValue assignment = -operand.realValue assignment :=
  realValue_of_eq (evaluateIn_neg (evaluateIn_real accepted assignment))

theorem realValue_binary (operator : BinaryOperator) (leftAccepted : left.CallsAccepted)
    (rightAccepted : right.CallsAccepted) :
    (binary operator left right).realValue assignment =
      operator.onReals (left.realValue assignment) (right.realValue assignment) :=
  realValue_of_eq (evaluateIn_binary (evaluateIn_real leftAccepted assignment)
    (evaluateIn_real rightAccepted assignment))

theorem realValue_call_one {name : String} {function : Elementary}
    (registered : Elementary.ofName? name = some function) (accepted : argument.CallsAccepted) :
    (call name [argument]).realValue assignment =
      function.onReals (argument.realValue assignment) :=
  realValue_of_eq (evaluateIn_call_one registered (evaluateIn_real accepted assignment))

theorem realValue_call_two {name : String} (registered : Elementary.ofName? name = some .log)
    (argumentAccepted : argument.CallsAccepted) (baseAccepted : base.CallsAccepted) :
    (call name [argument, base]).realValue assignment =
      Real.log (argument.realValue assignment) / Real.log (base.realValue assignment) :=
  realValue_of_eq (evaluateIn_call_two registered (evaluateIn_real argumentAccepted assignment)
    (evaluateIn_real baseAccepted assignment))

/-- The values of a tree along a variable, the others being assigned. -/
noncomputable def along (name : String) (assignment : String → ℝ) (tree : Expr ν) (point : ℝ) : ℝ :=
  tree.realValue (Function.update assignment name point)

section Along

variable {name : String} {point : ℝ}

theorem along_neg (accepted : operand.CallsAccepted) :
    (neg operand).along name assignment point = -operand.along name assignment point :=
  realValue_neg accepted

theorem along_binary (operator : BinaryOperator) (leftAccepted : left.CallsAccepted)
    (rightAccepted : right.CallsAccepted) :
    (binary operator left right).along name assignment point =
      operator.onReals (left.along name assignment point) (right.along name assignment point) :=
  realValue_binary operator leftAccepted rightAccepted

end Along

/-- A tree has the same value everywhere along a variable that does not occur in it. -/
theorem along_eq_of_not_mem {name : String} (absent : name ∉ tree.names)
    (assignment : String → ℝ) (first second : ℝ) :
    tree.along name assignment first = tree.along name assignment second := by
  rw [along, along, realValue, realValue, evaluateIn_congr]
  intro other inside
  have different : other ≠ name := by
    rintro rfl
    exact absent inside
  rw [Function.update_of_ne different, Function.update_of_ne different]

end Expr

end Tangent
