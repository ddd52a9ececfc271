import Tangent.Proofs.Grammar.Derivation
import Tangent.Proofs.Grammar.Soundness

/-!
# Shapes of phrases

The grammar of formulas without the limits of a dialect: which symbols form a phrase, whatever the
number of arguments of its calls and the nesting of its factors. From left to right such symbols are
followed by an outlook, which knows what may come next and which parentheses are open. An outlook
has no precedence, and still it tells exactly: symbols form a sum if and only if they leave nothing
open, and they can be continued to a sum if and only if they have an outlook at all.
-/

namespace Tangent

variable {ν : Type}

/-- The symbols of a phrase, whatever they mean. A name of a function stands in front of a
parenthesis, and every other name stands alone. -/
inductive Shaped : Category → List (Symbol ν) → Prop where
  | number (value : ν) : Shaped .primary [.number value]
  | name {name : String} (unregistered : Elementary.ofName? name = none) :
      Shaped .primary [.identifier name]
  | group {word : List (Symbol ν)} (opening closing : String) (inner : Shaped .sum word) :
      Shaped .primary (.leftParen opening :: word ++ [.rightParen closing])
  | call {name : String} {function : Elementary} {word : List (Symbol ν)}
      (opening closing : String) (registered : Elementary.ofName? name = some function)
      (inner : Shaped .arguments word) :
      Shaped .primary (.identifier name :: .leftParen opening :: word ++ [.rightParen closing])
  | last {word : List (Symbol ν)} (only : Shaped .sum word) : Shaped .arguments word
  | separated {first others : List (Symbol ν)} (comma : String) (head : Shaped .sum first)
      (tail : Shaped .arguments others) : Shaped .arguments (first ++ .comma comma :: others)
  | unraised {word : List (Symbol ν)} (base : Shaped .primary word) : Shaped .power word
  | raised {left right : List (Symbol ν)} (below : Shaped .primary left)
      (above : Shaped .factor right) : Shaped .power (left ++ .operator "^" :: right)
  | unsigned {word : List (Symbol ν)} (inner : Shaped .power word) : Shaped .factor word
  | negated {word : List (Symbol ν)} (inner : Shaped .factor word) :
      Shaped .factor (.operator "-" :: word)
  | lone {word : List (Symbol ν)} (only : Shaped .factor word) : Shaped .product word
  | multiplied {operator : BinaryOperator} {left right : List (Symbol ν)}
      (strength : operator.precedence = .product) (before : Shaped .product left)
      (after : Shaped .factor right) : Shaped .product (left ++ .operator operator.sign :: right)
  | single {word : List (Symbol ν)} (only : Shaped .product word) : Shaped .sum word
  | added {operator : BinaryOperator} {left right : List (Symbol ν)}
      (strength : operator.precedence = .sum) (before : Shaped .sum left)
      (after : Shaped .product right) : Shaped .sum (left ++ .operator operator.sign :: right)

/-- What a dialect derives has a shape. -/
theorem Derives.shaped {dialect : Dialect ν} {category : Category} {word : List (Symbol ν)}
    {meaning : category.Meaning ν} {nesting : Nat}
    (derivation : Derives dialect category word meaning nesting) : Shaped category word := by
  induction derivation with
  | number value => exact .number value
  | constant unregistered _ => exact .name unregistered
  | free unregistered _ => exact .name unregistered
  | group opening closing _ inner => exact .group opening closing inner
  | call opening closing registered _ _ inner => exact .call opening closing registered inner
  | last _ only => exact .last only
  | separated comma _ _ head tail => exact .separated comma head tail
  | unraised _ base => exact .unraised base
  | raised _ _ below above => exact .raised below above
  | unsigned _ inner => exact .unsigned inner
  | negated _ inner => exact .negated inner
  | lone _ only => exact .lone only
  | multiplied strength _ _ before after => exact .multiplied strength before after
  | single _ only => exact .single only
  | added strength _ _ before after => exact .added strength before after

namespace Shaped

variable {word left right : List (Symbol ν)}

/-- A primary is a factor. -/
theorem factor (primary : Shaped .primary word) : Shaped .factor word :=
  .unsigned (.unraised primary)

/-- A power of a factor is a factor: a sign in front stays in front, and an exponent takes the
further one into its own. -/
theorem factor_raised (before : Shaped .factor left) (after : Shaped .factor right) :
    Shaped .factor (left ++ .operator "^" :: right) := by
  have extended {category : Category} {word : List (Symbol ν)} (shaped : Shaped category word) :
      (category = .power → Shaped .power (word ++ .operator "^" :: right)) ∧
        (category = .factor → Shaped .factor (word ++ .operator "^" :: right)) := by
    induction shaped with
    | unraised base => exact ⟨fun _ => .raised base after, nofun⟩
    | raised below _ _ aboveHypothesis =>
      refine ⟨fun _ => ?_, nofun⟩
      rw [List.append_assoc, List.cons_append]
      exact .raised below (aboveHypothesis.2 rfl)
    | unsigned _ innerHypothesis => exact ⟨nofun, fun _ => .unsigned (innerHypothesis.1 rfl)⟩
    | negated _ innerHypothesis => exact ⟨nofun, fun _ => .negated (innerHypothesis.2 rfl)⟩
    | _ => exact ⟨nofun, nofun⟩
  exact (extended before).2 rfl

/-- A power of a product is a product: its last factor is raised. -/
theorem product_raised (before : Shaped .product left) (after : Shaped .factor right) :
    Shaped .product (left ++ .operator "^" :: right) := by
  cases before with
  | lone only => exact .lone (only.factor_raised after)
  | multiplied strength first last =>
    rw [List.append_assoc, List.cons_append]
    exact .multiplied strength first (last.factor_raised after)

/-- Any operation between a sum and a factor is a sum: it takes the last product or the last factor
of the sum as its left operand. -/
theorem operated (operator : BinaryOperator) (before : Shaped .sum left)
    (after : Shaped .factor right) : Shaped .sum (left ++ .operator operator.sign :: right) := by
  cases strength : operator.precedence with
  | sum => exact .added strength before (.lone after)
  | product =>
    cases before with
    | single only => exact .single (.multiplied strength only after)
    | added other first last =>
      rw [List.append_assoc, List.cons_append]
      exact .added other first (.multiplied strength last after)
  | power =>
    obtain rfl : operator = .pow := by cases operator <;> first | rfl | cases strength
    cases before with
    | single only => exact .single (only.product_raised after)
    | added other first last =>
      rw [List.append_assoc, List.cons_append]
      exact .added other first (last.product_raised after)
  | _ => cases operator <;> cases strength

end Shaped

end Tangent
