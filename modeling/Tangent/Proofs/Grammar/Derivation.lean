import Tangent.Expr.Parser
import Tangent.Expr.Printer

/-!
# Derivations

The grammar of formulas as a relation, apart from any reader: which symbols derive which tree. A
derivation also counts how many of its factors lie inside each other, since a dialect limits that
and nothing else about the shape of a formula.
-/

namespace Tangent

/-- The sign of an operation as the text of an operator. -/
def BinaryOperator.sign (operator : BinaryOperator) : String :=
  String.singleton operator.symbol

/-- Every operation has a sign. -/
theorem BinaryOperator.sign_ne_empty (operator : BinaryOperator) : operator.sign ≠ "" := by
  cases operator <;> decide

/-- The phrases of formulas, from the loosest to the tightest, and the arguments of a call. -/
inductive Category where
  | sum | product | factor | power | primary | arguments
  deriving DecidableEq, Repr

/-- What a phrase stands for: a tree, or a tree for each argument. -/
abbrev Category.Meaning (ν : Type) : Category → Type
  | arguments => List (Expr ν)
  | sum | product | factor | power | primary => Expr ν

/-- The symbols of a phrase derive its meaning, with so many factors inside each other. Sums and
products group to the left; a power takes a whole factor as its exponent and so groups to the
right. A name alone is not the name of a function, and is a constant if the dialect has one of
that name; no phrase has an opening parenthesis behind it, so that a name in front of one is always
the name of a call. -/
inductive Derives {ν : Type} (dialect : Dialect ν) :
    (category : Category) → List (Symbol ν) → category.Meaning ν → Nat → Prop where
  | number (value : ν) : Derives dialect .primary [.number value] (.const value) 0
  | constant {name : String} {value : ν} (unregistered : Elementary.ofName? name = none)
      (known : dialect.constant? name = some value) :
      Derives dialect .primary [.identifier name] (.const value) 0
  | free {name : String} (unregistered : Elementary.ofName? name = none)
      (unknown : dialect.constant? name = none) :
      Derives dialect .primary [.identifier name] (.var name) 0
  | group {word : List (Symbol ν)} {tree : Expr ν} {nesting : Nat} (opening closing : String)
      (inner : Derives dialect .sum word tree nesting) :
      Derives dialect .primary (.leftParen opening :: word ++ [.rightParen closing]) tree nesting
  | call {name : String} {function : Elementary} {word : List (Symbol ν)}
      {trees : List (Expr ν)} {nesting : Nat} (opening closing : String)
      (registered : Elementary.ofName? name = some function)
      (accepted : function.accepts trees.length = true)
      (inner : Derives dialect .arguments word trees nesting) :
      Derives dialect .primary
        (.identifier name :: .leftParen opening :: word ++ [.rightParen closing])
        (.call name trees) nesting
  | last {word : List (Symbol ν)} {tree : Expr ν} {nesting : Nat}
      (only : Derives dialect .sum word tree nesting) :
      Derives dialect .arguments word [tree] nesting
  | separated {first others : List (Symbol ν)} {tree : Expr ν} {trees : List (Expr ν)}
      {firstNesting otherNesting : Nat} (comma : String)
      (head : Derives dialect .sum first tree firstNesting)
      (tail : Derives dialect .arguments others trees otherNesting) :
      Derives dialect .arguments (first ++ .comma comma :: others) (tree :: trees)
        (max firstNesting otherNesting)
  | unraised {word : List (Symbol ν)} {tree : Expr ν} {nesting : Nat}
      (base : Derives dialect .primary word tree nesting) :
      Derives dialect .power word tree nesting
  | raised {left right : List (Symbol ν)} {base exponent : Expr ν} {leftNesting rightNesting : Nat}
      (below : Derives dialect .primary left base leftNesting)
      (above : Derives dialect .factor right exponent rightNesting) :
      Derives dialect .power (left ++ .operator "^" :: right)
        (.binary .pow base exponent) (max leftNesting rightNesting)
  | unsigned {word : List (Symbol ν)} {tree : Expr ν} {nesting : Nat}
      (inner : Derives dialect .power word tree nesting) :
      Derives dialect .factor word tree (nesting + 1)
  | negated {word : List (Symbol ν)} {tree : Expr ν} {nesting : Nat}
      (inner : Derives dialect .factor word tree nesting) :
      Derives dialect .factor (.operator "-" :: word) (.neg tree) (nesting + 1)
  | lone {word : List (Symbol ν)} {tree : Expr ν} {nesting : Nat}
      (only : Derives dialect .factor word tree nesting) :
      Derives dialect .product word tree nesting
  | multiplied {operator : BinaryOperator} {left right : List (Symbol ν)}
      {leftTree rightTree : Expr ν} {leftNesting rightNesting : Nat}
      (strength : operator.precedence = .product)
      (before : Derives dialect .product left leftTree leftNesting)
      (after : Derives dialect .factor right rightTree rightNesting) :
      Derives dialect .product (left ++ .operator operator.sign :: right)
        (.binary operator leftTree rightTree) (max leftNesting rightNesting)
  | single {word : List (Symbol ν)} {tree : Expr ν} {nesting : Nat}
      (only : Derives dialect .product word tree nesting) :
      Derives dialect .sum word tree nesting
  | added {operator : BinaryOperator} {left right : List (Symbol ν)}
      {leftTree rightTree : Expr ν} {leftNesting rightNesting : Nat}
      (strength : operator.precedence = .sum)
      (before : Derives dialect .sum left leftTree leftNesting)
      (after : Derives dialect .product right rightTree rightNesting) :
      Derives dialect .sum (left ++ .operator operator.sign :: right)
        (.binary operator leftTree rightTree) (max leftNesting rightNesting)

namespace Derives

variable {ν : Type} {dialect : Dialect ν} {category : Category} {word : List (Symbol ν)}
  {meaning : category.Meaning ν} {nesting : Nat}

/-- The end of the input is no part of a phrase, and no operator in it is without a text. -/
theorem ordinary (derivation : Derives dialect category word meaning nesting) :
    ∀ symbol ∈ word, symbol ≠ .endOfInput ∧ symbol ≠ .operator "" := by
  induction derivation <;> simp_all [or_imp, forall_and, BinaryOperator.sign_ne_empty]

/-- Every phrase but those inside a factor has a factor of its own. -/
theorem nesting_pos (derivation : Derives dialect category word meaning nesting)
    (loose : category = .sum ∨ category = .product ∨ category = .factor) : 0 < nesting := by
  induction derivation <;> grind

/-- An operand without a sign starts with something else than an operator. -/
theorem head_not_operator (derivation : Derives dialect category word meaning nesting)
    (tight : category = .power ∨ category = .primary) :
    ∃ first others, word = first :: others ∧ ∀ sign, first ≠ .operator sign := by
  induction derivation with
  | unraised _ inductionHypothesis => exact inductionHypothesis (.inr rfl)
  | raised _ _ inductionHypothesis _ =>
    obtain ⟨first, others, rfl, ordinary⟩ := inductionHypothesis (.inr rfl)
    exact ⟨first, _, rfl, ordinary⟩
  | _ => simp_all

end Derives

end Tangent
