import Mathlib.Order.Basic
import Tangent.Proofs.Grammar.Derivation

/-!
# The extent of formulas

A phrase takes so many symbols, and nests so many factors. One tree has phrases of many extents,
since parentheses may stand around any part of it. The least extent of a tree is that of the phrase
in which only those parts have parentheses that bind more loosely than their place allows, and no
phrase that derives the tree takes less. This is an induction on derivations: each rule of the
grammar costs at least what the least extent grows by from the category below to the one above.
-/

namespace Tangent

/-- How many symbols a phrase has, and how many of its factors lie inside each other. -/
structure Extent where
  symbols : Nat
  nesting : Nat
  deriving DecidableEq, Repr

namespace Extent

/-- One extent is within another if neither its symbols nor its factors are more. -/
instance : Preorder Extent where
  le first second := first.symbols ≤ second.symbols ∧ first.nesting ≤ second.nesting
  le_refl _ := ⟨Nat.le_refl _, Nat.le_refl _⟩
  le_trans _ _ _ below above := ⟨Nat.le_trans below.1 above.1, Nat.le_trans below.2 above.2⟩

@[simp]
theorem le_iff {first second : Extent} :
    first ≤ second ↔ first.symbols ≤ second.symbols ∧ first.nesting ≤ second.nesting :=
  Iff.rfl

/-- The extent of a lone operand. -/
def single : Extent :=
  ⟨1, 0⟩

/-- With parentheses around it. -/
def enclosed (extent : Extent) : Extent :=
  ⟨extent.symbols + 2, extent.nesting⟩

/-- As a factor of its own. -/
def deepened (extent : Extent) : Extent :=
  ⟨extent.symbols, extent.nesting + 1⟩

/-- With a sign in front, which makes a factor of it. -/
def signed (extent : Extent) : Extent :=
  ⟨extent.symbols + 1, extent.nesting + 1⟩

/-- Two operands and the sign between them. -/
def joined (left right : Extent) : Extent :=
  ⟨left.symbols + 1 + right.symbols, max left.nesting right.nesting⟩

/-- In parentheses, behind the name of a function. -/
def called (extent : Extent) : Extent :=
  ⟨extent.symbols + 3, extent.nesting⟩

/-- Where a looser phrase may stand: a power becomes a factor where no power is required. -/
def loosened (required actual : Precedence) (extent : Extent) : Extent :=
  if required.rank ≤ Precedence.negation.rank ∧ Precedence.negation.rank < actual.rank then
    extent.deepened
  else extent

/-- Where a precedence is required, in parentheses if the phrase binds more loosely. -/
def guarded (required actual : Precedence) (extent : Extent) : Extent :=
  if actual.rank < required.rank then
    (extent.loosened .sum actual).enclosed.loosened required .atom
  else extent.loosened required actual

/-- Behind a minus, in parentheses if the phrase has a minus of its own or binds more loosely. -/
def negated (actual : Precedence) (extent : Extent) : Extent :=
  if actual = .negation then extent.enclosed.deepened.signed
  else (extent.guarded .negation actual).signed

theorem joined_le {left right left' right' : Extent} (before : left ≤ left')
    (after : right ≤ right') : joined left right ≤ joined left' right' := by
  simp only [le_iff, joined] at *
  omega

/-- What adds as much to every extent keeps the order. -/
theorem grown_le {extent other : Extent} (below : extent ≤ other) (symbols nesting : Nat) :
    (⟨extent.symbols + symbols, extent.nesting + nesting⟩ : Extent) ≤
      ⟨other.symbols + symbols, other.nesting + nesting⟩ :=
  ⟨Nat.add_le_add_right below.1 symbols, Nat.add_le_add_right below.2 nesting⟩

theorem signed_le {extent other : Extent} (below : extent ≤ other) :
    extent.signed ≤ other.signed :=
  grown_le below 1 1

theorem deepened_le {extent other : Extent} (below : extent ≤ other) :
    extent.deepened ≤ other.deepened :=
  grown_le below 0 1

theorem enclosed_le {extent other : Extent} (below : extent ≤ other) :
    extent.enclosed ≤ other.enclosed :=
  grown_le below 2 0

theorem called_le {extent other : Extent} (below : extent ≤ other) :
    extent.called ≤ other.called :=
  grown_le below 3 0

end Extent

variable {ν : Type}

namespace Expr

/-- How strongly the root of a tree binds. Every constant is an operand by itself, as a name can
stand for any number. -/
def strength : Expr ν → Precedence
  | const _ => .atom
  | var _ => .atom
  | neg _ => .negation
  | binary operator _ _ => operator.precedence
  | call _ _ => .atom

mutual

/-- The extent of a tree with parentheses only where a part of it binds more loosely than its place
requires. -/
def least : Expr ν → Extent
  | const _ => .single
  | var _ => .single
  | neg operand => (operand.least.guarded .negation operand.strength).signed
  | binary operator left right =>
    (left.least.guarded operator.leftPrecedence left.strength).joined
      (right.least.guarded operator.rightPrecedence right.strength)
  | call _ arguments => (leastOfAll arguments).called

/-- The least extent of arguments with commas between them. -/
def leastOfAll : List (Expr ν) → Extent
  | [] => ⟨0, 0⟩
  | [argument] => argument.least.guarded .sum argument.strength
  | argument :: rest => (argument.least.guarded .sum argument.strength).joined (leastOfAll rest)

end

/-- The least extent of a tree where a precedence is required. -/
def leastAt (required : Precedence) (tree : Expr ν) : Extent :=
  tree.least.guarded required tree.strength

/-- A looser requirement costs no more, if it is one for a factor where the other is. -/
theorem leastAt_le_leastAt {required tighter : Precedence} (ordered : required.rank ≤ tighter.rank)
    (alike : tighter.rank ≤ Precedence.negation.rank ∨ Precedence.negation.rank < required.rank)
    (tree : Expr ν) : tree.leastAt required ≤ tree.leastAt tighter := by
  cases required <;> cases tighter <;> simp [Precedence.rank] at ordered alike <;>
    cases strong : tree.strength <;>
      simp [leastAt, strong, Extent.guarded, Extent.loosened, Extent.deepened, Extent.enclosed,
        Precedence.rank]

/-- A factor costs no more than making one of a power. -/
theorem leastAt_negation_le (tree : Expr ν) :
    tree.leastAt .negation ≤ (tree.leastAt .power).deepened := by
  cases strong : tree.strength <;>
    simp [leastAt, strong, Extent.guarded, Extent.loosened, Extent.deepened, Extent.enclosed,
      Precedence.rank]

/-- An operand costs no more than putting a sum in parentheses. -/
theorem leastAt_atom_le (tree : Expr ν) : tree.leastAt .atom ≤ (tree.leastAt .sum).enclosed := by
  cases strong : tree.strength <;>
    simp [leastAt, strong, Extent.guarded, Extent.loosened, Extent.deepened, Extent.enclosed,
      Precedence.rank]

/-- An argument more costs at most a comma beside its own extent. -/
theorem leastOfAll_cons_le (argument : Expr ν) (rest : List (Expr ν)) :
    leastOfAll (argument :: rest) ≤ (argument.leastAt .sum).joined (leastOfAll rest) := by
  cases rest with
  | nil =>
    simp only [leastOfAll, leastAt, Extent.joined, Extent.le_iff]
    omega
  | cons next others => exact le_refl _

end Expr

/-- The least extent of a meaning as a phrase of a category. -/
def Category.least : (category : Category) → category.Meaning ν → Extent
  | arguments, trees => Expr.leastOfAll trees
  | sum, tree => tree.leastAt .sum
  | product, tree => tree.leastAt .product
  | factor, tree => tree.leastAt .negation
  | power, tree => tree.leastAt .power
  | primary, tree => tree.leastAt .atom

open Tangent.Expr

/-- No phrase takes less than the least extent of the tree it derives. -/
theorem Derives.least_le {dialect : Dialect ν} {category : Category} {word : List (Symbol ν)}
    {meaning : category.Meaning ν} {nesting : Nat}
    (derivation : Derives dialect category word meaning nesting) :
    category.least meaning ≤ ⟨word.length, nesting⟩ := by
  have between {left right : List (Symbol ν)} {symbol : Symbol ν} {first second : Extent}
      {leftNesting rightNesting : Nat} (before : first ≤ ⟨left.length, leftNesting⟩)
      (after : second ≤ ⟨right.length, rightNesting⟩) :
      first.joined second ≤ ⟨(left ++ symbol :: right).length, max leftNesting rightNesting⟩ := by
    have joined := Extent.joined_le before after
    simp only [Extent.joined, Extent.le_iff, List.length_append, List.length_cons] at joined ⊢
    omega
  induction derivation with
  | number value => exact le_refl _
  | constant unregistered known => exact le_refl _
  | free unregistered unknown => exact le_refl _
  | @group word tree nesting opening closing _ inner =>
    have enclosed : Category.primary.least tree ≤ Extent.enclosed ⟨word.length, nesting⟩ :=
      le_trans tree.leastAt_atom_le (Extent.enclosed_le inner)
    simpa [Extent.enclosed] using enclosed
  | @call name function word trees nesting opening closing _ _ _ inner =>
    have called : Category.primary.least (.call name trees) ≤
        Extent.called ⟨word.length, nesting⟩ := Extent.called_le inner
    simpa [Extent.called] using called
  | last _ only => exact only
  | separated comma _ _ head tail => exact le_trans (leastOfAll_cons_le _ _) (between head tail)
  | unraised _ base => exact le_trans (leastAt_le_leastAt (by decide) (by decide) _) base
  | raised _ _ below above => exact between below above
  | unsigned _ inner => exact le_trans (leastAt_negation_le _) (Extent.deepened_le inner)
  | negated _ inner => exact Extent.signed_le inner
  | lone _ only => exact le_trans (leastAt_le_leastAt (by decide) (by decide) _) only
  | @multiplied operator _ _ _ _ _ _ strength _ _ before after =>
    cases operator with
    | mul | div => exact between before after
    | _ => cases strength
  | single _ only => exact le_trans (leastAt_le_leastAt (by decide) (by decide) _) only
  | @added operator _ _ _ _ _ _ strength _ _ before after =>
    cases operator with
    | add | sub => exact between before after
    | _ => cases strength

end Tangent
