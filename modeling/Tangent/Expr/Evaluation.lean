import Tangent.Expr.Basic
import Tangent.Number

/-!
# Evaluation

One walk over a tree evaluates it under any interpretation of its constants and operations:
single numbers here, series of numbers in `Tangent.Series`, or other domains. Operands are visited
from left to right and a function is looked up before its arguments, so the first offender in that
order is the one reported. An operation between two values may fail, as it does on series of
different lengths.
-/

namespace Tangent

/-- Why a tree has no value. -/
inductive EvaluationFault where
  | unboundVariable (name : String)
  | unknownFunction (name : String)
  | wrongArgumentCount (function : Elementary) (count : Nat)
  /-- The operands of an operation are series that do not fit together. -/
  | unequalLengths (left right : Nat)
  deriving DecidableEq, Repr

/-- What constants and operations mean in a domain. -/
structure Interpretation (ν α : Type) where
  constant : ν → α
  negate : α → α
  combine : BinaryOperator → α → α → Except EvaluationFault α
  apply : Elementary → α → α

/-- The values of variables, where they have one. -/
abbrev Bindings (α : Type) := String → Option α

namespace Bindings

/-- No variable has a value. -/
def empty {α : Type} : Bindings α := fun _ => none

/-- One variable has a value. -/
def single {α : Type} (name : String) (value : α) : Bindings α :=
  fun asked => if asked = name then some value else none

end Bindings

/-- The value of an operation between two numbers. -/
def Arithmetic.combine {ν : Type} [Arithmetic ν] : BinaryOperator → ν → ν → ν
  | .add => (· + ·)
  | .sub => (· - ·)
  | .mul => (· * ·)
  | .div => (· / ·)
  | .pow => Arithmetic.power

namespace Interpretation

variable {ν α : Type}

/-- The value of a call. The logarithm to a base is the quotient of two logarithms. -/
def call (meaning : Interpretation ν α) (function : Elementary) (arguments : List α) :
    Except EvaluationFault α :=
  match function, arguments with
  | _, [argument] => .ok (meaning.apply function argument)
  | .log, [argument, base] =>
    meaning.combine .div (meaning.apply .log argument) (meaning.apply .log base)
  | _, _ => .error (.wrongArgumentCount function arguments.length)

/-- Where operations between two values never fail, a call has a value when its function takes that
many arguments, and only then. -/
theorem call_eq_ok_iff {meaning : Interpretation ν α} {function : Elementary} {arguments : List α}
    (total : ∀ operator left right, ∃ value, meaning.combine operator left right = .ok value) :
    (∃ value, meaning.call function arguments = .ok value) ↔
      function.accepts arguments.length = true := by
  rcases arguments with _ | ⟨argument, _ | ⟨base, _ | ⟨third, rest⟩⟩⟩ <;>
    cases function <;>
    simp [call, Elementary.accepts, Elementary.leastArguments, Elementary.mostArguments, total]

/-- Operations on single numbers. -/
def numeric [Arithmetic ν] : Interpretation ν ν where
  constant := id
  negate := (- ·)
  combine operator left right := .ok (Arithmetic.combine operator left right)
  apply := Arithmetic.apply

end Interpretation

namespace Expr

variable {ν α : Type}

mutual

/-- The value of a tree. -/
def evaluateIn (meaning : Interpretation ν α) (bindings : Bindings α) :
    Expr ν → Except EvaluationFault α
  | const value => .ok (meaning.constant value)
  | var name =>
    match bindings name with
    | some value => .ok value
    | none => .error (.unboundVariable name)
  | neg operand => do return meaning.negate (← evaluateIn meaning bindings operand)
  | binary operator left right => do
    let leftValue ← evaluateIn meaning bindings left
    let rightValue ← evaluateIn meaning bindings right
    meaning.combine operator leftValue rightValue
  | call name arguments =>
    match Elementary.ofName? name with
    | none => .error (.unknownFunction name)
    | some function => do
      let values ← evaluateAllIn meaning bindings arguments
      meaning.call function values

/-- The values of some trees. -/
def evaluateAllIn (meaning : Interpretation ν α) (bindings : Bindings α) :
    List (Expr ν) → Except EvaluationFault (List α)
  | [] => .ok []
  | tree :: rest => do
    let value ← evaluateIn meaning bindings tree
    let values ← evaluateAllIn meaning bindings rest
    return value :: values

end

/-- The value of a tree as a single number. -/
def evaluate [Arithmetic ν] (bindings : Bindings ν) (tree : Expr ν) : Except EvaluationFault ν :=
  tree.evaluateIn Interpretation.numeric bindings

end Expr

end Tangent
