import Tangent.Proofs.Expr.Subtrees
import Tangent.Proofs.Grammar.Extent
import Tangent.Proofs.Number.Laws
import Tangent.Proofs.Token.Spelling

/-!
# Written formulas are derived

The text of a tree spells a phrase of the grammar, and the phrase derives the tree again but for
its constants: a sign becomes a negation, and an undefined number the quotient of zeros it is
written as. The invariant of the induction ties the printer's precedences to the categories of the
grammar. A tree is a phrase of the category that its precedence stands for, so it is one of every
looser category, and parentheses make it one of every category. The extent of the phrase follows
the tree along the same lines.
-/

namespace Tangent

variable {ν : Type}

/-- Whether a name can be the name of a variable. -/
def Dialect.isVariable (dialect : Dialect ν) (name : String) : Bool :=
  Token.isName name && (Elementary.ofName? name).isNone && (dialect.constant? name).isNone

namespace Expr

/-- Whether the root of a tree is fit to be read: a variable has the name of one, and a call is
accepted. -/
def hasReadableRoot (dialect : Dialect ν) : Expr ν → Bool
  | var name => dialect.isVariable name
  | call name arguments => (call name arguments).hasAcceptedRoot
  | _ => true

/-- Every variable of a tree has the name of one, and every call is accepted. The constants may be
any numbers. -/
def WellFormed (dialect : Dialect ν) (tree : Expr ν) : Prop :=
  tree.Throughout fun part => part.hasReadableRoot dialect = true

instance (dialect : Dialect ν) (tree : Expr ν) : Decidable (tree.WellFormed dialect) :=
  inferInstanceAs (Decidable (∀ part ∈ tree.subtrees, part.hasReadableRoot dialect = true))

variable [Number ν]

/-- A constant as it reads back, from a size for each number: its sign as a negation, and an
undefined number as a quotient of zeros. -/
def resizedConstant (size : ν → ν) (value : ν) : Expr ν :=
  if Number.isUndefined value then
    binary .div (const (Arithmetic.ofNat 0)) (const (Arithmetic.ofNat 0))
  else if Number.isNegative value then neg (const (size value))
  else const (size value)

mutual

/-- A tree as it reads back, from a size for each number: as it is, but for the constants that no
literal stands for. -/
def resized (size : ν → ν) : Expr ν → Expr ν
  | const value => resizedConstant size value
  | var name => var name
  | neg operand => neg (operand.resized size)
  | binary operator left right => binary operator (left.resized size) (right.resized size)
  | call name arguments => call name (resizedAll size arguments)

/-- Trees as they read back, from a size for each number. -/
def resizedAll (size : ν → ν) : List (Expr ν) → List (Expr ν)
  | [] => []
  | tree :: rest => tree.resized size :: resizedAll size rest

end

/-- A tree as it reads back with the sizes that numbers have. -/
def spelled (tree : Expr ν) : Expr ν :=
  tree.resized Number.magnitude

theorem resizedAll_eq_map (size : ν → ν) (trees : List (Expr ν)) :
    resizedAll size trees = trees.map (resized size) := by
  induction trees with
  | nil => rfl
  | cons tree rest inductionHypothesis => simp [resizedAll, inductionHypothesis]

/-- A constant is spelled with the negation of a number where it has a sign. -/
theorem spelled_const (value : ν) :
    (const value).spelled =
      if Number.isUndefined value then
        binary .div (const (Arithmetic.ofNat 0)) (const (Arithmetic.ofNat 0))
      else if Number.isNegative value then neg (const (-value))
      else const value := by
  cases negative : Number.isNegative value <;>
    simp [spelled, resized, resizedConstant, Number.magnitude, negative]

theorem spelled_neg (operand : Expr ν) : (neg operand).spelled = neg operand.spelled :=
  rfl

theorem spelled_binary (operator : BinaryOperator) (left right : Expr ν) :
    (binary operator left right).spelled = binary operator left.spelled right.spelled :=
  rfl

theorem spelled_call (name : String) (arguments : List (Expr ν)) :
    (call name arguments).spelled = call name (arguments.map spelled) := by
  rw [spelled, resized, resizedAll_eq_map]
  rfl

/-- With the sizes that numbers have, a tree reads back as it is spelled. -/
theorem resized_eq_spelled {size : ν → ν} {tree : Expr ν}
    (agrees : ∀ value, const value ∈ tree.subtrees → Number.isUndefined value = false →
      size value = Number.magnitude value) : tree.resized size = tree.spelled := by
  induction tree with
  | const value =>
    have same := agrees value (mem_subtrees_self _)
    cases undefined : Number.isUndefined value <;>
      simp_all [spelled, resized, resizedConstant]
  | var name => rfl
  | neg operand inductionHypothesis =>
    rw [resized, spelled_neg, inductionHypothesis fun value inside => agrees value (by
      simp [subtrees, inside])]
  | binary operator left right leftHypothesis rightHypothesis =>
    rw [resized, spelled_binary,
      leftHypothesis fun value inside => agrees value (by simp [subtrees, inside]),
      rightHypothesis fun value inside => agrees value (by simp [subtrees, inside])]
  | call name arguments inductionHypothesis =>
    rw [resized, spelled_call, resizedAll_eq_map]
    congr 1
    refine List.map_congr_left fun argument present => ?_
    refine inductionHypothesis argument present fun value inside => agrees value ?_
    simp only [subtrees, subtreesOfAll_eq_flatMap]
    exact List.mem_cons_of_mem _ (List.mem_flatMap.2 ⟨argument, present, inside⟩)

/-- The extent of a constant as it is written. -/
def constantExtent (value : ν) : Extent :=
  if Number.isUndefined value then
    (Extent.single.deepened.joined Extent.single.deepened).enclosed
  else if Number.isNegative value then Extent.single.deepened.signed
  else .single

mutual

/-- The extent of a tree as it is written. -/
def extent : Expr ν → Extent
  | const value => constantExtent value
  | var _ => .single
  | neg operand => operand.extent.negated operand.precedence
  | binary operator left right =>
    (left.extent.guarded operator.leftPrecedence left.precedence).joined
      (right.extent.guarded operator.rightPrecedence right.precedence)
  | call _ arguments => (extentOfAll arguments).called

/-- The extent of arguments as they are written. -/
def extentOfAll : List (Expr ν) → Extent
  | [] => ⟨0, 0⟩
  | [argument] => argument.extent.guarded .sum argument.precedence
  | argument :: rest =>
    (argument.extent.guarded .sum argument.precedence).joined (extentOfAll rest)

end

end Expr

/-- The symbols derive the tree as a phrase of the category that a precedence stands for. -/
def DerivesAt (dialect : Dialect ν) :
    Precedence → List (Symbol ν) → Expr ν → (nesting : Nat) → Prop
  | .sum => Derives dialect .sum
  | .product => Derives dialect .product
  | .negation => Derives dialect .factor
  | .power => Derives dialect .power
  | .atom => Derives dialect .primary

open Tangent.Expr Token

variable [Number ν] {dialect : Dialect ν}

/-- Parentheses are tokens by themselves. -/
theorem Token.Spells.parenthesized {text : List Char} {word : List (Symbol ν)}
    (spells : Spells text word) :
    Spells (Expr.parenthesized text) (.leftParen "(" :: word ++ [.rightParen ")"]) :=
  .cons rfl (spells.append (.cons (by decide) []) (.cons rfl .nil))

/-- A text spells a phrase of some extent that derives a tree with a precedence. -/
def Written (dialect : Dialect ν) (precedence : Precedence) (text : List Char) (tree : Expr ν)
    (extent : Extent) : Prop :=
  ∃ word, word.length = extent.symbols ∧ Spells text word ∧
    DerivesAt dialect precedence word tree extent.nesting

/-- A text spells arguments of some extent that derive trees. -/
def WrittenArguments (dialect : Dialect ν) (text : List Char) (trees : List (Expr ν))
    (extent : Extent) : Prop :=
  ∃ word, word.length = extent.symbols ∧ Spells text word ∧
    Derives dialect .arguments word trees extent.nesting

namespace Written

variable {text more : List Char} {tree other : Expr ν} {required actual : Precedence}
  {extent further : Extent}

theorem unraised (written : Written dialect .atom text tree extent) :
    Written dialect .power text tree extent := by
  obtain ⟨word, length, spells, derived⟩ := written
  exact ⟨word, length, spells, Derives.unraised derived⟩

theorem unsigned (written : Written dialect .power text tree extent) :
    Written dialect .negation text tree extent.deepened := by
  obtain ⟨word, length, spells, derived⟩ := written
  exact ⟨word, length, spells, Derives.unsigned derived⟩

theorem lone (written : Written dialect .negation text tree extent) :
    Written dialect .product text tree extent := by
  obtain ⟨word, length, spells, derived⟩ := written
  exact ⟨word, length, spells, Derives.lone derived⟩

theorem single (written : Written dialect .product text tree extent) :
    Written dialect .sum text tree extent := by
  obtain ⟨word, length, spells, derived⟩ := written
  exact ⟨word, length, spells, Derives.single derived⟩

/-- What is written with a precedence is written with every looser one. -/
theorem loosen (written : Written dialect actual text tree extent)
    (looser : required.rank ≤ actual.rank) :
    Written dialect required text tree (extent.loosened required actual) := by
  have fromNegation {extent : Extent} (factor : Written dialect .negation text tree extent)
      (looser : required.rank ≤ Precedence.negation.rank) :
      Written dialect required text tree extent := by
    cases required with
    | sum => exact factor.lone.single
    | product => exact factor.lone
    | negation => exact factor
    | _ => exact absurd looser (by decide)
  have fromPower (power : Written dialect .power text tree extent)
      (looser : required.rank ≤ Precedence.power.rank) :
      Written dialect required text tree (extent.loosened required .power) := by
    cases required with
    | power => exact power
    | atom => exact absurd looser (by decide)
    | _ => exact fromNegation power.unsigned (by decide)
  cases actual with
  | sum =>
    cases required with
    | sum => exact written
    | _ => exact absurd looser (by decide)
  | product =>
    cases required with
    | sum => exact written.single
    | product => exact written
    | _ => exact absurd looser (by decide)
  | negation =>
    rw [Extent.loosened, if_neg fun both => absurd both.2 (by decide)]
    exact fromNegation written looser
  | power => exact fromPower written looser
  | atom =>
    cases required with
    | atom => exact written
    | _ => exact fromPower written.unraised (by decide)

/-- Parentheses make an operand of a written sum. -/
theorem parenthesized (written : Written dialect .sum text tree extent) :
    Written dialect .atom (parenthesized text) tree extent.enclosed := by
  obtain ⟨word, length, spells, derived⟩ := written
  refine ⟨_, ?_, spells.parenthesized, Derives.group "(" ")" derived⟩
  simp [Extent.enclosed, length]

/-- Parentheses make of a text what is required anywhere. -/
theorem wrapped (written : Written dialect actual text tree extent) :
    Written dialect required (Expr.parenthesized text) tree
      ((extent.loosened .sum actual).enclosed.loosened required .atom) := by
  have sum : Written dialect .sum text tree (extent.loosened .sum actual) :=
    written.loosen (by cases actual <;> decide)
  exact sum.parenthesized.loosen (by cases required <;> decide)

/-- A guarded text may stand where its precedence is required. -/
theorem guarded (written : Written dialect actual text tree extent) :
    Written dialect required (guarded required actual text) tree
      (extent.guarded required actual) := by
  unfold Expr.guarded Extent.guarded
  split
  · exact written.wrapped
  · next tight => exact written.loosen (Nat.le_of_not_lt tight)

/-- Everything written is a sum. -/
theorem asSum (written : Written dialect actual text tree extent) :
    Written dialect .sum text tree (extent.guarded .sum actual) := by
  have loosest : Precedence.sum.rank ≤ actual.rank := by cases actual <;> decide
  rw [Extent.guarded, if_neg (Nat.not_lt.2 loosest)]
  exact written.loosen loosest

/-- A negated factor is written with a minus. -/
theorem minus (written : Written dialect .negation text tree extent) :
    Written dialect .negation ('-' :: text) (neg tree) extent.signed := by
  obtain ⟨word, length, spells, derived⟩ := written
  exact ⟨.operator "-" :: word, by simp [Extent.signed, length], .cons rfl spells,
    .negated derived⟩

/-- What binds more strongly than a negation does not start with a minus. -/
theorem head_ne_minus (written : Written dialect actual text tree extent)
    (tight : Precedence.negation.rank < actual.rank) : text.head? ≠ some '-' := by
  obtain ⟨word, _, spells, derived⟩ := written
  obtain ⟨first, others, rfl, noOperator⟩ :
      ∃ first others, word = first :: others ∧ ∀ sign, first ≠ .operator sign := by
    cases actual with
    | power => exact Derives.head_not_operator derived (.inl rfl)
    | atom => exact Derives.head_not_operator derived (.inr rfl)
    | _ => exact absurd tight (by decide)
  intro minus
  obtain ⟨rest, rfl⟩ := List.head?_eq_some_iff.1 minus
  obtain ⟨_, same⟩ : ∃ behind, first :: others = .operator "-" :: behind :=
    Spells.head_eq rfl spells (List.cons_ne_nil first others)
  exact noOperator "-" (List.cons.inj same).1

/-- A negation is written with its operand in parentheses, if that is a negation itself or binds
more loosely. -/
theorem negation (written : Written dialect actual text tree extent)
    (signed : actual = .negation → text.head? = some '-') :
    Written dialect .negation (negationText (Expr.guarded .negation actual text)) (neg tree)
      (extent.negated actual) := by
  by_cases negated : actual = .negation
  · subst negated
    have enclosed : Written dialect .negation ('-' :: Expr.parenthesized text) (neg tree)
        extent.enclosed.deepened.signed := written.wrapped.minus
    simpa [negationText, Expr.guarded, Extent.negated, signed rfl] using enclosed
  · have guarded : Written dialect .negation (Expr.guarded .negation actual text) tree
        (extent.guarded .negation actual) := written.guarded
    have unsigned : (Expr.guarded .negation actual text).head? ≠ some '-' := by
      unfold Expr.guarded
      split
      · exact fun minus => absurd (Option.some.inj minus) (by decide)
      · next tight =>
        refine written.head_ne_minus ?_
        cases actual <;> simp_all [Precedence.rank]
    simpa [negationText, Extent.negated, unsigned, negated] using guarded.minus

/-- An operation is written between its operands, each with the precedence that the operation
requires there. -/
theorem operation (operator : BinaryOperator)
    (left : Written dialect operator.leftPrecedence text tree extent)
    (right : Written dialect operator.rightPrecedence more other further) :
    Written dialect operator.precedence (operationText operator text more)
      (binary operator tree other) (extent.joined further) := by
  obtain ⟨leftWord, leftLength, leftSpells, leftDerived⟩ := left
  obtain ⟨rightWord, rightLength, rightSpells, rightDerived⟩ := right
  have sign : singleSymbol? (ν := ν) operator.symbol = some (.operator operator.sign) := by
    cases operator <;> rfl
  refine ⟨leftWord ++ .operator operator.sign :: rightWord, ?_, ?_, ?_⟩
  · simp only [Extent.joined, List.length_append, List.length_cons]
    omega
  · rw [operationText, List.append_assoc]
    exact leftSpells.append (.cons (by decide) _) (.blank (.cons sign (.blank rightSpells)))
  · cases operator with
    | add | sub => exact .added rfl leftDerived rightDerived
    | mul | div => exact .multiplied rfl leftDerived rightDerived
    | pow => exact .raised leftDerived rightDerived

/-- A variable is written as its name. -/
theorem free {name : String} (allowed : dialect.isVariable name = true) :
    Written dialect .atom name.toList (var name) .single := by
  simp only [Dialect.isVariable, Bool.and_eq_true, Option.isNone_iff_eq_none] at allowed
  obtain ⟨⟨named, unregistered⟩, unknown⟩ := allowed
  exact ⟨[.identifier name], rfl, .name named, .free unregistered unknown⟩

/-- A number is written as a literal. -/
theorem literal {value : Decimal} (starts : ∃ c rest, text = c :: rest ∧ c.isDigit = true)
    (read : ∀ rest, Numeral.Ends rest →
      Numeral.scan? (text ++ rest) = some ⟨value, text.length⟩) :
    Written dialect .atom text (const (Arithmetic.ofDecimal value)) .single :=
  ⟨[.number (Arithmetic.ofDecimal value)], rfl, .numeral starts read, .number _⟩

/-- A call is written with its arguments in parentheses. -/
theorem call {name : String} {function : Elementary} {trees : List (Expr ν)}
    (registered : Elementary.ofName? name = some function)
    (accepted : function.accepts trees.length = true)
    (written : WrittenArguments dialect text trees extent) :
    Written dialect .atom (name.toList ++ Expr.parenthesized text) (Expr.call name trees)
      extent.called := by
  obtain ⟨word, length, spells, derived⟩ := written
  have named : isName name = true := by
    rw [← Elementary.ofName?_eq_some_iff.1 registered]
    cases function <;> decide
  have opens : Apart (Expr.parenthesized text) := .cons (by decide) (text ++ [')'])
  refine ⟨_, ?_, (Spells.name named).append opens spells.parenthesized,
    Derives.call "(" ")" registered accepted derived⟩
  simp [Extent.called, length]

end Written

namespace WrittenArguments

variable {text more : List Char} {tree : Expr ν} {trees : List (Expr ν)} {extent further : Extent}

theorem last (written : Written dialect .sum text tree extent) :
    WrittenArguments dialect text [tree] extent := by
  obtain ⟨word, length, spells, derived⟩ := written
  exact ⟨word, length, spells, .last derived⟩

theorem separated (head : Written dialect .sum text tree extent)
    (tail : WrittenArguments dialect more trees further) :
    WrittenArguments dialect (text ++ [',', ' '] ++ more) (tree :: trees)
      (extent.joined further) := by
  obtain ⟨first, firstLength, firstSpells, firstDerived⟩ := head
  obtain ⟨others, otherLength, othersSpell, othersDerived⟩ := tail
  refine ⟨first ++ .comma "," :: others, ?_, ?_, .separated "," firstDerived othersDerived⟩
  · simp only [Extent.joined, List.length_append, List.length_cons]
    omega
  · rw [List.append_assoc]
    exact firstSpells.append (.cons (by decide) _) (.cons rfl (.blank othersSpell))

end WrittenArguments

namespace Written

/-- A size is written with the sign of a number as a constant or as the negation of one. -/
theorem signed {value size : ν} {text : List Char}
    (written : Written dialect .atom text (const size) .single) :
    Written dialect (const value).precedence
      (if Number.isNegative value then '-' :: text else text)
      (if Number.isNegative value then neg (const size) else const size)
      (if Number.isNegative value then Extent.single.deepened.signed else .single) := by
  simp only [precedence]
  split
  · exact (written.loosen (by decide)).minus
  · exact written

/-- A quotient of zeros is written in parentheses. -/
theorem quotientOfZeros :
    Written dialect .atom "(0 / 0)".toList
      (binary .div (const (Arithmetic.ofNat 0)) (const (Arithmetic.ofNat 0)) : Expr ν)
      (Extent.single.deepened.joined Extent.single.deepened).enclosed := by
  have zero : Written dialect .atom ['0'] (const (Arithmetic.ofNat 0) : Expr ν) .single := by
    refine .literal ⟨'0', [], rfl, rfl⟩ fun rest ends => ?_
    exact Decimal.scan?_positional (List.cons_ne_nil '0' []) (List.all_eq_true.1 rfl) (by simp)
      .whole ends
  have quotient : Written dialect .product (operationText .div ['0'] ['0'])
      (binary .div (const (Arithmetic.ofNat 0)) (const (Arithmetic.ofNat 0)) : Expr ν)
      (Extent.single.deepened.joined Extent.single.deepened) :=
    .operation .div (zero.loosen (by decide)) (zero.loosen (by decide))
  exact quotient.single.parenthesized

/-- A constant is written with its precedence. -/
theorem constant [Number.Lawful ν] (value : ν) :
    Written dialect (const value).precedence (constantText value)
      (resizedConstant Number.literal value) (constantExtent value) := by
  cases stands : Scalar.extended value with
  | undefined =>
    have unsigned := Number.Lawful.isNegative_undefined value stands
    simp only [precedence, constantText, resizedConstant, constantExtent,
      Number.isUndefined_iff.2 stands, stands, unsigned]
    exact quotientOfZeros
  | infinite negative =>
    have literal : Written dialect .atom "1e999".toList (const (Number.literal value)) .single := by
      rw [Number.literal, stands]
      exact .literal ⟨'1', _, rfl, rfl⟩ fun rest ends => Decimal.denotes_overflow.scan?_append ends
    have defined : ¬Number.isUndefined value = true := by
      rw [Number.isUndefined_iff, stands]
      exact Extended.noConfusion
    simp only [constantText, resizedConstant, constantExtent, if_neg defined, stands]
    exact literal.signed
  | finite size =>
    have literal : Written dialect .atom
        (Decimal.write Number.literalStyle (Number.shortest value))
        (const (Number.literal value)) .single := by
      rw [Number.literal, stands]
      exact .literal (Decimal.write_starts _ _) fun rest ends => Decimal.scan?_write rfl _ ends
    have defined : ¬Number.isUndefined value = true := by
      rw [Number.isUndefined_iff, stands]
      exact Extended.noConfusion
    simp only [constantText, resizedConstant, constantExtent, if_neg defined, stands]
    exact literal.signed

end Written

/-- Written arguments derive their trees if each of them does. -/
theorem WrittenArguments.of_forall {trees : List (Expr ν)} (some : trees ≠ [])
    (written : ∀ tree ∈ trees, Written dialect tree.precedence tree.characters
      (tree.resized Number.literal) tree.extent) :
    WrittenArguments dialect (argumentText trees) (trees.map (resized Number.literal))
      (extentOfAll trees) := by
  induction trees with
  | nil => exact absurd rfl some
  | cons tree rest inductionHypothesis =>
    have first := (written tree List.mem_cons_self).asSum
    cases rest with
    | nil => exact .last first
    | cons next others =>
      exact .separated first (inductionHypothesis (List.cons_ne_nil next others)
        fun tree present => written tree (List.mem_cons_of_mem _ present))

/-- A tree that is written as a negation is written with a minus first. -/
theorem Expr.head_eq_minus {tree : Expr ν} (negated : tree.precedence = .negation) :
    tree.characters.head? = some '-' := by
  cases tree with
  | const value =>
    have negative : Number.isNegative value = true := by
      by_contra positive
      simp [precedence, positive] at negated
    simp [characters, constantText, negative]
  | neg operand => rfl
  | binary operator left right => cases operator <;> cases negated
  | var name | call name arguments => cases negated

/-- A well formed tree is written as a phrase that derives it as it reads back. -/
theorem Expr.written [Number.Lawful ν] {tree : Expr ν} (wellFormed : tree.WellFormed dialect) :
    Written dialect tree.precedence tree.characters (tree.resized Number.literal) tree.extent := by
  induction tree with
  | const value => exact .constant value
  | var name => exact .free (throughout_var.1 wellFormed)
  | neg operand inductionHypothesis =>
    have operandWritten := inductionHypothesis (throughout_neg.1 wellFormed).2
    exact operandWritten.negation head_eq_minus
  | binary operator left right leftHypothesis rightHypothesis =>
    obtain ⟨_, leftFormed, rightFormed⟩ := throughout_binary.1 wellFormed
    exact .operation operator (leftHypothesis leftFormed).guarded
      (rightHypothesis rightFormed).guarded
  | call name arguments inductionHypothesis =>
    obtain ⟨root, argumentsFormed⟩ := throughout_call.1 wellFormed
    obtain ⟨function, registered, accepted⟩ := (Option.any_eq_true _ _).1 root
    have some : arguments ≠ [] := by
      rintro rfl
      cases function <;> cases accepted
    have argumentsWritten := WrittenArguments.of_forall some fun argument present =>
      inductionHypothesis argument present (argumentsFormed argument present)
    rw [resized, resizedAll_eq_map]
    exact .call registered (by rwa [List.length_map]) argumentsWritten

end Tangent
