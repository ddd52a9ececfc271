import Tangent.Expr.Basic
import Tangent.Number

/-!
# Derivatives

The derivative of a tree with respect to a variable, by the rules of calculus applied node by
node. Nothing is simplified, so the result shows which rules were used. Every other variable
counts as a constant.
-/

namespace Tangent

/-- Why a tree has no derivative: it calls something no rule is known for, or a function with a
number of arguments that its rule is not about. -/
inductive DerivativeFault where
  | noRule (name : String)
  | wrongArgumentCount (count : Nat)
  deriving DecidableEq, Repr

namespace Expr

variable {ν : Type} [Arithmetic ν]

/-- A small whole number as a tree. -/
def whole (number : Nat) : Expr ν :=
  const (Arithmetic.ofNat number)

/-- A call of an elementary function with one argument. -/
def apply (function : Elementary) (argument : Expr ν) : Expr ν :=
  call function.name [argument]

/-- The rule of a quotient, from both parts and their derivatives. -/
def quotientRule (left right leftRate rightRate : Expr ν) : Expr ν :=
  binary .div (binary .sub (binary .mul leftRate right) (binary .mul left rightRate))
    (binary .pow right (whole 2))

/-- The rule of a power, chosen by where the variable occurs: `c u ^ (c - 1) u'` if only in the
base, `c ^ v log c v'` if only in the exponent, and the general rule if in both. -/
def powerRule (name : String) (base exponent baseRate exponentRate : Expr ν) : Expr ν :=
  if !exponent.dependsOn name then
    binary .mul
      (binary .mul exponent (binary .pow base (binary .sub exponent (whole 1)))) baseRate
  else if !base.dependsOn name then
    binary .mul (binary .mul (binary .pow base exponent) (apply .log base)) exponentRate
  else
    binary .mul (binary .pow base exponent)
      (binary .add (binary .mul exponentRate (apply .log base))
        (binary .div (binary .mul exponent baseRate) base))

/-- The rule of a binary operation, from both operands and their derivatives. -/
def operationRule (name : String) (operator : BinaryOperator)
    (left right leftRate rightRate : Expr ν) : Expr ν :=
  match operator with
  | .add => binary .add leftRate rightRate
  | .sub => binary .sub leftRate rightRate
  | .mul => binary .add (binary .mul leftRate right) (binary .mul left rightRate)
  | .div => quotientRule left right leftRate rightRate
  | .pow => powerRule name left right leftRate rightRate

/-- One minus a square, as it occurs under the roots of inverse functions. -/
def oneMinusSquare (argument : Expr ν) : Expr ν :=
  binary .sub (whole 1) (binary .pow argument (whole 2))

/-- The rule of a function of one argument, with the chain rule. -/
def functionRule (function : Elementary) (argument rate : Expr ν) : Expr ν :=
  match function with
  | .sin => binary .mul (apply .cos argument) rate
  | .cos => binary .mul (neg (apply .sin argument)) rate
  | .tan => binary .div rate (binary .pow (apply .cos argument) (whole 2))
  | .exp => binary .mul (apply .exp argument) rate
  | .log => binary .div rate argument
  | .sqrt => binary .div rate (binary .mul (whole 2) (apply .sqrt argument))
  | .abs => binary .mul (apply .sign argument) rate
  | .sign => whole 0
  | .asin => binary .div rate (apply .sqrt (oneMinusSquare argument))
  | .acos => neg (binary .div rate (apply .sqrt (oneMinusSquare argument)))
  | .atan => binary .div rate (binary .add (whole 1) (binary .pow argument (whole 2)))
  | .sinh => binary .mul (apply .cosh argument) rate
  | .cosh => binary .mul (apply .sinh argument) rate
  | .tanh => binary .div rate (binary .pow (apply .cosh argument) (whole 2))

/-- The rule of a call. The logarithm to a base is differentiated as the quotient of two
logarithms. -/
def callRule (function : Elementary) (arguments rates : List (Expr ν)) :
    Except DerivativeFault (Expr ν) :=
  match function, arguments, rates with
  | _, [argument], [rate] => .ok (functionRule function argument rate)
  | .log, [argument, base], [argumentRate, baseRate] =>
    .ok (quotientRule (apply .log argument) (apply .log base)
      (functionRule .log argument argumentRate) (functionRule .log base baseRate))
  | _, _, _ => .error (.wrongArgumentCount arguments.length)

mutual

/-- The derivative of a tree with respect to a variable. An exponent without the variable is not
differentiated, because its rule does not ask for that. -/
def derivative (name : String) : Expr ν → Except DerivativeFault (Expr ν)
  | const _ => .ok (whole 0)
  | var other => .ok (if other = name then whole 1 else whole 0)
  | neg operand => do return neg (← derivative name operand)
  | binary operator left right => do
    let leftRate ← derivative name left
    let exempt := operator = .pow && !right.dependsOn name
    let rightRate ← if exempt then .ok (whole 0) else derivative name right
    return operationRule name operator left right leftRate rightRate
  | call called arguments =>
    match Elementary.ofName? called with
    | none => .error (.noRule called)
    | some .sign => .ok (whole 0)
    | some function =>
      if function.accepts arguments.length then do
        callRule function arguments (← derivatives name arguments)
      else .error (.wrongArgumentCount arguments.length)

/-- The derivatives of some trees. -/
def derivatives (name : String) : List (Expr ν) → Except DerivativeFault (List (Expr ν))
  | [] => .ok []
  | tree :: rest => do
    let rate ← derivative name tree
    let rates ← derivatives name rest
    return rate :: rates

end

end Expr

end Tangent
