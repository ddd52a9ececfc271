import Tangent.Expr.Evaluation

/-!
# Simplification

A pass rebuilds a tree from the leaves up: operations on constants are computed where the result
is finite, and operands that change nothing are dropped. Passes are repeated until one leaves the
tree as it was, or until a limit on their number is reached.
-/

namespace Tangent

namespace Expr

variable {ν : Type} [Arithmetic ν]

/-- Whether a tree is the constant of a small whole number, of either sign if it is zero. -/
def isWhole (number : Nat) (tree : Expr ν) : Bool :=
  tree.isConstantOf (Arithmetic.ofNat number)

/-- A tree whose operands are all constants, replaced by its value where that is finite. -/
def folded (tree : Expr ν) : Except EvaluationFault (Expr ν) := do
  let value ← tree.evaluate Bindings.empty
  return if Arithmetic.isFinite value then const value else tree

/-- A negation without a second one below it. -/
def negated : Expr ν → Expr ν
  | neg operand => operand
  | operand => neg operand

/-- A binary operation without an operand that changes nothing. -/
def withoutNeutral (operator : BinaryOperator) (left right : Expr ν) : Expr ν :=
  match operator with
  | .add =>
    if right.isWhole 0 then left else if left.isWhole 0 then right else binary .add left right
  | .sub =>
    if right.isWhole 0 then left else if left.isWhole 0 then neg right
    else binary .sub left right
  | .mul =>
    if left.isWhole 0 || right.isWhole 0 then const (Arithmetic.ofNat 0)
    else if right.isWhole 1 then left else if left.isWhole 1 then right
    else binary .mul left right
  | .div => if right.isWhole 1 then left else binary .div left right
  | .pow =>
    if right.isWhole 0 then const (Arithmetic.ofNat 1) else if right.isWhole 1 then left
    else binary .pow left right

mutual

/-- One pass over a tree. -/
def pass : Expr ν → Except EvaluationFault (Expr ν)
  | const value => .ok (const value)
  | var name => .ok (var name)
  | neg operand => do
    let operand ← pass operand
    if operand.isConstant then folded (neg operand) else return negated operand
  | binary operator left right => do
    let left ← pass left
    let right ← pass right
    if left.isConstant && right.isConstant then folded (binary operator left right)
    else return withoutNeutral operator left right
  | call name arguments => do
    let arguments ← passAll arguments
    if arguments.all isConstant then folded (call name arguments) else return call name arguments

/-- One pass over some trees. -/
def passAll : List (Expr ν) → Except EvaluationFault (List (Expr ν))
  | [] => .ok []
  | tree :: rest => do
    let tree ← pass tree
    let rest ← passAll rest
    return tree :: rest

end

/-- Whether a constant is left as it was. Undefined numbers, which equal not even themselves, are
not told apart. -/
def sameConstant (before after : ν) : Bool :=
  before == after || (!(before == before) && !(after == after))

/-- Whether a pass changed nothing. -/
def unchanged (before after : Expr ν) : Bool :=
  alike sameConstant before after

/-- A simplified tree, and whether the last pass left it as it was. -/
structure Simplified (ν : Type) where
  tree : Expr ν
  settled : Bool

/-- Simplifies a tree by at most the given number of passes. -/
def simplify : Nat → Expr ν → Except EvaluationFault (Simplified ν)
  | 0, tree => .ok ⟨tree, false⟩
  | passes + 1, tree => do
    let next ← pass tree
    if unchanged next tree then return ⟨next, true⟩ else simplify passes next

/-- What is reported when the limit on passes stopped the simplifier. -/
def Simplified.warning? (limit : Int) (simplified : Simplified ν) : Option String :=
  if simplified.settled then none
  else
    some ("Simplifier stopped after " ++ toString limit ++ " passes (" ++
      toString simplified.tree.count ++ " nodes, depth " ++ toString simplified.tree.depth ++
      " left)")

end Expr

end Tangent
