import Tangent.Expr.Evaluation

/-!
# Series

Evaluation at many points in one walk. A value is a single number or a series of numbers;
operations act entry by entry, and a single number or a series of one entry is stretched to the
length of the other operand. Series of other lengths do not fit together.
-/

namespace Tangent

/-- A single number or one number for each point. -/
inductive Series (ν : Type) where
  | single (value : ν)
  | many (values : List ν)
  deriving Repr

namespace Series

variable {ν : Type}

/-- Applies an operation to every entry. -/
def map (operation : ν → ν) : Series ν → Series ν
  | single value => single (operation value)
  | many values => many (values.map operation)

/-- Applies an operation to entries at the same place. -/
def zip (operation : ν → ν → ν) : Series ν → Series ν → Except EvaluationFault (Series ν)
  | single left, single right => .ok (single (operation left right))
  | single left, many rights => .ok (many (rights.map (operation left)))
  | many lefts, single right => .ok (many (lefts.map (operation · right)))
  | many [left], many rights => .ok (many (rights.map (operation left)))
  | many lefts, many [right] => .ok (many (lefts.map (operation · right)))
  | many lefts, many rights =>
    if lefts.length = rights.length then .ok (many (List.zipWith operation lefts rights))
    else .error (.unequalLengths lefts.length rights.length)

/-- The entries over a number of points; a single number and a series of one entry are the same
at all of them. -/
def entries (length : Nat) : Series ν → List ν
  | single value => List.replicate length value
  | many [value] => List.replicate length value
  | many values => values

end Series

/-- Operations entry by entry. -/
def Interpretation.entrywise {ν : Type} [Arithmetic ν] : Interpretation ν (Series ν) where
  constant := .single
  negate := .map (- ·)
  combine operator := Series.zip (Arithmetic.combine operator)
  apply function := .map (Arithmetic.apply function)

/-- The value of a tree when variables stand for single numbers or series. -/
def Expr.evaluateSeries {ν : Type} [Arithmetic ν] (bindings : Bindings (Series ν))
    (tree : Expr ν) : Except EvaluationFault (Series ν) :=
  tree.evaluateIn Interpretation.entrywise bindings

end Tangent
