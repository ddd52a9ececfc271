import Tangent.Expr.Derivative
import Tangent.Proofs.Expr.Subtrees

/-!
# Rules of derivatives

Which rule the derivative of each shape of tree is found by, given the derivatives of the parts,
and that the rules call functions only in ways that are accepted.
-/

namespace Tangent.Expr

variable {ν : Type}

@[simp]
theorem dependsOn_eq_false_iff {name : String} {tree : Expr ν} :
    tree.dependsOn name = false ↔ name ∉ tree.names := by
  rw [← Bool.not_eq_true, dependsOn_iff]

@[simp]
theorem callsAccepted_apply {function : Elementary} {argument : Expr ν} :
    (apply function argument).CallsAccepted ↔ argument.CallsAccepted := by
  simp [apply, callsAccepted_call_iff, Elementary.ofName?_eq_some_iff]

variable [Arithmetic ν] {name : String}

@[simp]
theorem callsAccepted_whole (number : Nat) : (whole number : Expr ν).CallsAccepted :=
  callsAccepted_const _

theorem callsAccepted_functionRule (function : Elementary) {argument rate : Expr ν}
    (accepted : argument.CallsAccepted) (rateAccepted : rate.CallsAccepted) :
    (functionRule function argument rate).CallsAccepted := by
  cases function <;> simp [functionRule, oneMinusSquare, accepted, rateAccepted]

/-- An operation is differentiated by its rule. The exponent of a fixed power is not
differentiated, but its rule does not use that derivative. -/
theorem derivative_binary {left right leftRate rightRate : Expr ν} (operator : BinaryOperator)
    (leftKnown : left.derivative name = .ok leftRate)
    (rightKnown : right.derivative name = .ok rightRate) :
    (binary operator left right).derivative name =
      .ok (operationRule name operator left right leftRate rightRate) := by
  rw [derivative, leftKnown]
  by_cases exempt : operator = .pow ∧ name ∉ right.names
  · obtain ⟨rfl, absent⟩ := exempt
    have fixed : (!right.dependsOn name) = true := by simpa using absent
    simp only [operationRule, powerRule, fixed, if_true]
    rfl
  · have asked : ¬(operator = .pow && !right.dependsOn name) = true := by
      simpa using exempt
    simp only [asked, rightKnown]
    rfl

/-- A call with one argument is differentiated by the rule of its function. -/
theorem derivative_call_one {called : String} {function : Elementary} {argument rate : Expr ν}
    (registered : Elementary.ofName? called = some function)
    (known : argument.derivative name = .ok rate) :
    (call called [argument]).derivative name = .ok (functionRule function argument rate) := by
  rw [derivative, registered]
  cases function with
  | sign => rfl
  | _ =>
    simp only [derivatives, known]
    rfl

/-- A logarithm to a base is differentiated by the rule of quotients. -/
theorem derivative_call_two {called : String} {argument base argumentRate baseRate : Expr ν}
    (registered : Elementary.ofName? called = some .log)
    (argumentKnown : argument.derivative name = .ok argumentRate)
    (baseKnown : base.derivative name = .ok baseRate) :
    (call called [argument, base]).derivative name =
      .ok (quotientRule (apply .log argument) (apply .log base)
        (functionRule .log argument argumentRate) (functionRule .log base baseRate)) := by
  rw [derivative, registered]
  simp only [derivatives, argumentKnown, baseKnown]
  rfl

end Tangent.Expr
