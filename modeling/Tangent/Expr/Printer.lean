import Tangent.Expr.Basic
import Tangent.Number

/-!
# Written formulas

Trees as formula text. Parentheses stand where the grammar needs them to read the text back as
the same tree; beside that only around an operand of a negation that begins with a sign of its
own.
-/

namespace Tangent

/-- How strongly the outermost construct of a text binds, from loosest to tightest. -/
inductive Precedence where
  | sum | product | negation | power | atom
  deriving DecidableEq, Repr

namespace Precedence

/-- The rank of a precedence; a tighter one has a higher rank. -/
def rank : Precedence → Nat
  | sum => 1
  | product => 2
  | negation => 3
  | power => 4
  | atom => 5

end Precedence

namespace BinaryOperator

/-- How strongly an operation binds. -/
def precedence : BinaryOperator → Precedence
  | add | sub => .sum
  | mul | div => .product
  | pow => .power

/-- The loosest left operand that needs no parentheses. -/
def leftPrecedence : BinaryOperator → Precedence
  | add | sub => .sum
  | mul | div => .product
  | pow => .atom

/-- The loosest right operand that needs no parentheses. -/
def rightPrecedence : BinaryOperator → Precedence
  | add | sub => .product
  | mul | div => .negation
  | pow => .negation

end BinaryOperator

namespace Expr

variable {ν : Type} [Number ν]

/-- How strongly the outermost construct of a written tree binds. A constant with a sign reads
back as a negation. -/
def precedence : Expr ν → Precedence
  | const value => if Number.isNegative value then .negation else .atom
  | var _ => .atom
  | neg _ => .negation
  | binary operator _ _ => operator.precedence
  | call _ _ => .atom

/-- A constant as formula text. An infinity is a literal too large to be finite, and an undefined
number a quotient of zeros. -/
def constantText (value : ν) : List Char :=
  let size := match Scalar.extended value with
    | .undefined => "(0 / 0)".toList
    | .infinite _ => "1e999".toList
    | .finite _ => Decimal.write Number.literalStyle (Number.shortest value)
  if Number.isNegative value then '-' :: size else size

/-- A text in parentheses. -/
def parenthesized (text : List Char) : List Char :=
  '(' :: text ++ [')']

/-- A text in parentheses if it binds more loosely than required. -/
def guarded (required actual : Precedence) (text : List Char) : List Char :=
  if actual.rank < required.rank then parenthesized text else text

/-- A negation of a written operand. -/
def negationText (operand : List Char) : List Char :=
  '-' :: if operand.head? = some '-' then parenthesized operand else operand

/-- An operation between written operands. -/
def operationText (operator : BinaryOperator) (left right : List Char) : List Char :=
  left ++ [' ', operator.symbol, ' '] ++ right

mutual

/-- The tree as formula text. -/
def characters : Expr ν → List Char
  | const value => constantText value
  | var name => name.toList
  | neg operand => negationText (guarded .negation operand.precedence operand.characters)
  | binary operator left right =>
    operationText operator
      (guarded operator.leftPrecedence left.precedence left.characters)
      (guarded operator.rightPrecedence right.precedence right.characters)
  | call name arguments => name.toList ++ parenthesized (argumentText arguments)

/-- Written arguments with commas between them. -/
def argumentText : List (Expr ν) → List Char
  | [] => []
  | [argument] => argument.characters
  | argument :: rest => argument.characters ++ [',', ' '] ++ argumentText rest

end

/-- The tree as formula text. -/
def text (tree : Expr ν) : String :=
  String.ofList tree.characters

end Expr

end Tangent
