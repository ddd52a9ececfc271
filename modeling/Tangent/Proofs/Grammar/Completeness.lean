import Tangent.Proofs.Grammar.Soundness

/-!
# What is derivable is read

A reader finds a derivable phrase at the front of a token list when nothing behind the phrase could
continue it, and its levels cover the nesting of the derivation; with fewer levels it fails. Since
a reader has one answer, a phrase has one meaning and one nesting.

A chain of operations is read from left to right, while derivations group to the left. The invariant
for sums and products therefore stops in the middle of the list: having read a derived phrase, the
reader is where the chain goes on with the tree of that phrase on its left.
-/

namespace Tangent

variable {ν : Type} {dialect : Dialect ν}

/-- A computation under a limit on nesting: within the limit it comes to the same as another one,
and beyond the limit it fails. -/
structure Limited {ε α : Type} (levels nesting : Nat) (result target : Except ε α) : Prop where
  within : nesting ≤ levels → result = target
  beyond : levels < nesting → ∃ fault, result = .error fault

namespace Limited

variable {ε α β : Type} {levels nesting : Nat}

theorem refl (result : Except ε α) : Limited levels 0 result result :=
  ⟨fun _ => rfl, fun less => absurd less (Nat.not_lt_zero levels)⟩

theorem trans {further : Nat} {result middle target : Except ε α}
    (first : Limited levels nesting result middle) (second : Limited levels further middle target) :
    Limited levels (max nesting further) result target where
  within bounded := by
    rw [first.within (by omega), second.within (by omega)]
  beyond exceeded := by
    by_cases fits : nesting ≤ levels
    · rw [first.within fits]
      exact second.beyond (by omega)
    · exact first.beyond (by omega)

/-- What comes after a first step starts from the value of that step. -/
theorem bind {value : α} {first : Except ε α} (next : α → Except ε β)
    (limited : Limited levels nesting first (.ok value)) :
    Limited levels nesting (first >>= next) (next value) where
  within bounded := by
    rw [limited.within bounded]
    rfl
  beyond exceeded := by
    obtain ⟨fault, failed⟩ := limited.beyond exceeded
    exact ⟨fault, by rw [failed]; rfl⟩

theorem succ {result target : Except ε α} (limited : Limited levels nesting result target) :
    Limited (levels + 1) (nesting + 1) result target :=
  ⟨fun bounded => limited.within (Nat.le_of_succ_le_succ bounded),
    fun exceeded => limited.beyond (Nat.lt_of_succ_lt_succ exceeded)⟩

/-- A second step without nesting of its own adds nothing. -/
theorem trans_eq {result middle target : Except ε α}
    (first : Limited levels nesting result middle) (same : middle = target) :
    Limited levels nesting result target :=
  same ▸ first

end Limited

/-- Nothing at the front of a list belongs to a number or a name in front of it. -/
structure EndsName (rest : List (Token ν)) : Prop where
  spelled : Token.Spelled rest
  noOpening : ∀ opening position tail, rest ≠ ⟨.leftParen opening, position⟩ :: tail

/-- Nothing at the front of a list belongs to an operand in front of it. -/
structure EndsOperand (rest : List (Token ν)) : Prop extends EndsName rest where
  noPower : Expr.operatorAt? (Expr.lone? "^") rest = none

/-- Nothing at the front of a list belongs to a product in front of it. -/
structure EndsProduct (rest : List (Token ν)) : Prop extends EndsOperand rest where
  noFactor : Expr.operatorAt? Expr.multiplicative? rest = none

/-- Nothing at the front of a list belongs to a sum in front of it. -/
structure EndsSum (rest : List (Token ν)) : Prop extends EndsProduct rest where
  noSummand : Expr.operatorAt? Expr.additive? rest = none

/-- Nothing at the front of a list belongs to arguments in front of it. -/
structure EndsArguments (rest : List (Token ν)) : Prop extends EndsSum rest where
  noComma : ∀ comma position tail, rest ≠ ⟨.comma comma, position⟩ :: tail

namespace Expr

/-- No operator is found in front of a list that starts with another token. -/
theorem operatorAt?_eq_none {α : Type} (choice : String → Option α) {token : Token ν}
    {rest : List (Token ν)} (noOperator : ∀ sign, token.symbol ≠ .operator sign) :
    operatorAt? choice (token :: rest) = none := by
  obtain ⟨symbol, position⟩ := token
  cases symbol with
  | operator sign => exact absurd rfl (noOperator sign)
  | _ => rfl

end Expr

open Tangent.Expr

/-- A token that is no operator, no opening parenthesis and no comma ends arguments, and with them
every phrase. -/
theorem EndsArguments.of_head {token : Token ν} {rest : List (Token ν)}
    (spelled : Token.Spelled (token :: rest))
    (noOperator : ∀ sign, token.symbol ≠ .operator sign)
    (noOpening : ∀ sign, token.symbol ≠ .leftParen sign)
    (noComma : ∀ sign, token.symbol ≠ .comma sign) : EndsArguments (token :: rest) where
  spelled := spelled
  noOpening := by
    rintro opening position tail same
    cases same
    exact noOpening opening rfl
  noPower := operatorAt?_eq_none _ noOperator
  noFactor := operatorAt?_eq_none _ noOperator
  noSummand := operatorAt?_eq_none _ noOperator
  noComma := by
    rintro comma position tail same
    cases same
    exact noComma comma rfl

/-- A comma ends a sum. -/
theorem EndsSum.of_comma {comma : String} {position : Int} {rest : List (Token ν)}
    (spelled : Token.Spelled rest) : EndsSum (⟨.comma comma, position⟩ :: rest) :=
  ⟨⟨⟨⟨spelled.cons (by simp), by simp⟩, rfl⟩, rfl⟩, rfl⟩

/-- An operator that is no power ends an operand. -/
theorem EndsOperand.of_operator {operator : BinaryOperator} {position : Int}
    {rest : List (Token ν)} (loose : operator.precedence ≠ .power)
    (spelled : Token.Spelled rest) :
    EndsOperand (⟨.operator operator.sign, position⟩ :: rest) where
  spelled := spelled.cons (by simpa using operator.sign_ne_empty)
  noOpening := by simp
  noPower := by
    cases operator with
    | pow => exact absurd rfl loose
    | _ => rfl

/-- An operator of sums ends a product. -/
theorem EndsProduct.of_operator {operator : BinaryOperator} {position : Int}
    {rest : List (Token ν)} (loosest : operator.precedence = .sum)
    (spelled : Token.Spelled rest) :
    EndsProduct (⟨.operator operator.sign, position⟩ :: rest) where
  toEndsOperand := .of_operator (by rw [loosest]; decide) spelled
  noFactor := by cases operator <;> first | rfl | cases loosest

/-- Tokens that spell a word with a symbol inside have a token of that symbol between those that
spell the parts around it. -/
theorem exists_of_map_symbol_eq {front : List (Token ν)} {left right : List (Symbol ν)}
    {middle : Symbol ν} (spells : front.map Token.symbol = left ++ middle :: right) :
    ∃ before position after, front = before ++ ⟨middle, position⟩ :: after ∧
      before.map Token.symbol = left ∧ after.map Token.symbol = right := by
  obtain ⟨before, others, rfl, beforeSpells, othersSpell⟩ := List.map_eq_append_iff.1 spells
  obtain ⟨⟨symbol, position⟩, after, rfl, rfl, afterSpells⟩ := List.map_eq_cons_iff.1 othersSpell
  exact ⟨before, position, after, rfl, beforeSpells, afterSpells⟩

/-- The tokens of a derived phrase are spelled, with whatever spelled tokens are behind them. -/
theorem Derives.spelled {category : Category} {meaning : category.Meaning ν} {nesting : Nat}
    {front rest : List (Token ν)}
    (derivation : Derives dialect category (front.map Token.symbol) meaning nesting)
    (restSpelled : Token.Spelled rest) : Token.Spelled (front ++ rest) := by
  intro token present
  rcases List.mem_append.1 present with inFront | inRest
  · exact (derivation.ordinary _ (List.mem_map_of_mem inFront)).2
  · exact restSpelled token inRest

section Chains

variable {choice : String → Option BinaryOperator} {operand : Phrase ν (Expr ν)} {levels : Nat}
  {part : List (Symbol ν) → Expr ν → Nat → Prop}

/-- A sound reader leaves no more than it was given. -/
theorem Phrase.Sound.length_le {α : Type} {language : List (Symbol ν) → α → Nat → Prop}
    {phrase : Phrase ν α} (sound : Phrase.Sound language levels phrase) {value : α}
    {tokens rest : List (Token ν)} (spelled : Token.Spelled tokens)
    (read : phrase tokens = .ok (value, rest)) :
    Token.Spelled rest ∧ rest.length ≤ tokens.length := by
  obtain ⟨front, _, rfl, _⟩ := sound spelled read
  exact ⟨spelled.of_append, by simp⟩

/-- Where no operator of a chain follows, the chain ends. -/
theorem chain_eq_ok (bound : Nat) (left : Expr ν) {tokens : List (Token ν)}
    (noOperator : operatorAt? choice tokens = none) :
    chain choice operand bound left tokens = .ok (left, tokens) := by
  cases bound with
  | zero => rfl
  | succ bound => simp [chain, noOperator]

/-- A chain behind an operator reads an operand and goes on. -/
theorem chain_operator {sign : String} {operator : BinaryOperator}
    (chosen : choice sign = some operator) (bound : Nat) (left : Expr ν) (position : Int)
    (tokens : List (Token ν)) :
    chain choice operand (bound + 1) left (⟨.operator sign, position⟩ :: tokens) =
      operand tokens >>= fun read =>
        chain choice operand bound (binary operator left read.1) read.2 := by
  simp [chain, operatorAt?, chosen]

/-- All bounds that cover a token list let a chain read equally far. -/
theorem chain_bound (operandSound : Phrase.Sound part levels operand) {first second : Nat}
    {left : Expr ν} {tokens : List (Token ν)} (spelled : Token.Spelled tokens)
    (firstEnough : tokens.length ≤ first) (secondEnough : tokens.length ≤ second) :
    chain choice operand first left tokens = chain choice operand second left tokens := by
  induction first generalizing second left tokens with
  | zero =>
    obtain rfl := List.length_eq_zero_iff.1 (Nat.le_zero.1 firstEnough)
    rw [chain_eq_ok _ _ rfl, chain_eq_ok _ _ rfl]
  | succ first inductionHypothesis =>
    cases found : operatorAt? choice tokens with
    | none => rw [chain_eq_ok _ _ found, chain_eq_ok _ _ found]
    | some step =>
      obtain ⟨sign, position, rfl, chosen⟩ := operatorAt?_eq_some_iff.1 found
      cases second with
      | zero => simp at secondEnough
      | succ second =>
        rw [chain_operator chosen, chain_operator chosen]
        cases read : operand step.2 with
        | error fault => rfl
        | ok middle =>
          obtain ⟨restSpelled, shorter⟩ := operandSound.length_le spelled.of_cons read
          simp only [List.length_cons] at firstEnough secondEnough
          exact inductionHypothesis restSpelled (by omega) (by omega)

/-- Having read what is on the left of an operator, a reader that joins to the left goes on with
the operand behind it. -/
theorem leftAssociative_extend (operandSound : Phrase.Sound part levels operand)
    {tokens tail rest : List (Token ν)} {left right : Expr ν} {sign : String}
    {operator : BinaryOperator} {position : Int} {leftNesting rightNesting : Nat}
    (chosen : choice sign = some operator) (spelled : Token.Spelled rest)
    (shorter : rest.length ≤ tail.length)
    (before : Limited levels leftNesting (leftAssociative choice operand tokens)
      (chain choice operand (tail.length + 1) left (⟨.operator sign, position⟩ :: tail)))
    (after : Limited levels rightNesting (operand tail) (.ok (right, rest))) :
    Limited levels (max leftNesting rightNesting) (leftAssociative choice operand tokens)
      (chain choice operand rest.length (binary operator left right) rest) := by
  rw [chain_operator chosen] at before
  exact before.trans ((after.bind _).trans_eq
    (chain_bound operandSound spelled shorter (Nat.le_refl rest.length)))

end Chains

section Arguments

variable {reader : Phrase ν (Expr ν)} {levels : Nat}

/-- All bounds that cover a token list let the same arguments be read. -/
theorem moreArguments_bound {argument : Phrase ν (Expr ν)}
    (argumentSound : Phrase.Sound (Derives dialect .sum) levels argument) {first second : Nat}
    {tokens : List (Token ν)} (spelled : Token.Spelled tokens)
    (firstEnough : tokens.length ≤ first) (secondEnough : tokens.length ≤ second) :
    moreArguments argument first tokens = moreArguments argument second tokens := by
  induction first generalizing second tokens with
  | zero =>
    obtain rfl := List.length_eq_zero_iff.1 (Nat.le_zero.1 firstEnough)
    cases second <;> rfl
  | succ first inductionHypothesis =>
    cases second with
    | zero =>
      obtain rfl := List.length_eq_zero_iff.1 (Nat.le_zero.1 secondEnough)
      rfl
    | succ second =>
      rcases tokens with _ | ⟨⟨symbol, position⟩, tail⟩
      · rfl
      · cases symbol with
        | comma sign =>
          simp only [moreArguments]
          cases read : argument tail with
          | error fault => rfl
          | ok middle =>
            obtain ⟨restSpelled, shorter⟩ := argumentSound.length_le spelled.of_cons read
            simp only [List.length_cons] at firstEnough secondEnough
            have same : moreArguments argument first middle.2 =
                moreArguments argument second middle.2 :=
              inductionHypothesis restSpelled (by omega) (by omega)
            simp only [bind, Except.bind, same]
        | _ => rfl

/-- Behind a comma the remaining arguments are read as arguments of their own. -/
theorem moreArguments_comma
    (factorSound : Phrase.Sound (Derives dialect .factor) levels reader) {comma : String}
    {position : Int} {tokens : List (Token ν)} (spelled : Token.Spelled tokens) :
    moreArguments (sum reader) (tokens.length + 1) (⟨.comma comma, position⟩ :: tokens) =
      arguments reader tokens := by
  simp only [moreArguments, arguments]
  cases read : sum reader tokens with
  | error fault => rfl
  | ok middle =>
    obtain ⟨restSpelled, shorter⟩ := (sum_sound factorSound).length_le spelled read
    have same := moreArguments_bound (sum_sound factorSound) restSpelled shorter
      (Nat.le_refl middle.2.length)
    simp only [bind, Except.bind, same]

end Arguments

namespace Expr

/-- The reader of each kind of phrase. -/
def phrase (dialect : Dialect ν) (levels : Nat) :
    (category : Category) → Phrase ν (category.Meaning ν)
  | .sum => sum (factor dialect levels)
  | .product => leftAssociative multiplicative? (factor dialect levels)
  | .factor => factor dialect levels
  | .power => power dialect (factor dialect levels)
  | .primary => primary dialect (factor dialect levels)
  | .arguments => arguments (factor dialect levels)

/-- How a reader goes on behind a derived phrase: sums and products may still grow. -/
def continued (dialect : Dialect ν) (levels : Nat) : (category : Category) →
    category.Meaning ν → List (Token ν) →
      Except (ParseFault ν) (category.Meaning ν × List (Token ν))
  | .sum, tree, rest =>
    chain additive? (leftAssociative multiplicative? (factor dialect levels)) rest.length tree rest
  | .product, tree, rest =>
    chain multiplicative? (factor dialect levels) rest.length tree rest
  | .factor, tree, rest | .power, tree, rest | .primary, tree, rest => .ok (tree, rest)
  | .arguments, trees, rest => .ok (trees, rest)

/-- What must not stand behind a phrase for its reader to go on from there. -/
def Follows : Category → List (Token ν) → Prop
  | .sum => EndsProduct
  | .product | .factor | .power => EndsOperand
  | .primary => EndsName
  | .arguments => EndsArguments

/-- Reading a word, wherever it stands, gives its meaning within the limit on its nesting. -/
def Reads (dialect : Dialect ν) (category : Category) (word : List (Symbol ν))
    (meaning : category.Meaning ν) (nesting : Nat) : Prop :=
  ∀ (levels : Nat) ⦃front rest⦄, front.map Token.symbol = word → Follows category rest →
    Limited levels nesting (phrase dialect levels category (front ++ rest))
      (continued dialect levels category meaning rest)

/-- A name that no opening parenthesis follows is read alone. -/
theorem primary_name (reader : Phrase ν (Expr ν)) (name : String) (position : Int)
    {rest : List (Token ν)}
    (noOpening : ∀ opening place tail, rest ≠ ⟨.leftParen opening, place⟩ :: tail) :
    primary dialect reader (⟨.identifier name, position⟩ :: rest) = loneName dialect name rest := by
  rcases rest with _ | ⟨⟨symbol, place⟩, tail⟩
  · rfl
  · cases symbol with
    | leftParen opening => exact absurd rfl (noOpening opening place tail)
    | _ => rfl

/-- A list in front of which no minus stands is read as a power. -/
theorem factor_succ_eq_power (levels : Nat) {tokens : List (Token ν)}
    (noMinus : operatorAt? (lone? "-") tokens = none) :
    factor dialect (levels + 1) tokens = power dialect (factor dialect levels) tokens := by
  simp [factor, noMinus]

end Expr

section Reading

variable {word others : List (Symbol ν)} {tree other : Expr ν} {trees : List (Expr ν)}
  {nesting further levels : Nat} {front rest : List (Token ν)}

/-- A product that nothing continues is read as a whole. -/
theorem Expr.Reads.product (reads : Reads dialect .product word tree nesting) (levels : Nat)
    (spells : front.map Token.symbol = word) (ends : EndsProduct rest) :
    Limited levels nesting (leftAssociative multiplicative? (factor dialect levels) (front ++ rest))
      (.ok (tree, rest)) :=
  (reads levels spells ends.toEndsOperand).trans_eq (chain_eq_ok _ _ ends.noFactor)

/-- A sum that nothing continues is read as a whole. -/
theorem Expr.Reads.sum (reads : Reads dialect .sum word tree nesting) (levels : Nat)
    (spells : front.map Token.symbol = word) (ends : EndsSum rest) :
    Limited levels nesting (Expr.sum (factor dialect levels) (front ++ rest)) (.ok (tree, rest)) :=
  (reads levels spells ends.toEndsProduct).trans_eq (chain_eq_ok _ _ ends.noSummand)

/-- A closing parenthesis ends arguments. -/
theorem EndsArguments.of_closing (closing : String) (position : Int)
    (spelled : Token.Spelled rest) : EndsArguments (⟨.rightParen closing, position⟩ :: rest) :=
  .of_head (spelled.cons (by simp)) (by simp) (by simp) (by simp)

/-- A number or a name that is read alone is read within every limit. -/
theorem reads_of_eq {symbol : Symbol ν} {tree : Expr ν}
    (read : ∀ levels position rest, EndsName rest →
      primary dialect (factor dialect levels) (⟨symbol, position⟩ :: rest) = .ok (tree, rest)) :
    Reads dialect .primary [symbol] tree 0 := by
  intro levels front rest spells follows
  obtain ⟨⟨_, position⟩, others, rfl, rfl, none⟩ := List.map_eq_cons_iff.1 spells
  obtain rfl := List.map_eq_nil_iff.1 none
  exact (Limited.refl _).trans_eq (read levels position rest follows)

/-- A sum in parentheses is read. -/
theorem reads_group (opening closing : String) (inner : Reads dialect .sum word tree nesting) :
    Reads dialect .primary (.leftParen opening :: word ++ [.rightParen closing]) tree nesting := by
  intro levels front rest spells follows
  obtain ⟨before, place, none, rfl, beforeSpells, noneSpells⟩ := exists_of_map_symbol_eq spells
  obtain ⟨⟨_, position⟩, inside, rfl, rfl, insideSpells⟩ := List.map_eq_cons_iff.1 beforeSpells
  obtain rfl := List.map_eq_nil_iff.1 noneSpells
  have read := inner.sum levels insideSpells
    (EndsArguments.of_closing closing place follows.spelled).toEndsSum
  rw [List.append_assoc, List.cons_append]
  exact (read.bind _).trans_eq rfl

/-- A call of a function with as many arguments as it takes is read. -/
theorem reads_call (opening closing : String) {name : String} {function : Elementary}
    (registered : Elementary.ofName? name = some function)
    (accepted : function.accepts trees.length = true)
    (inner : Reads dialect .arguments word trees nesting) :
    Reads dialect .primary
      (.identifier name :: .leftParen opening :: word ++ [.rightParen closing])
      (.call name trees) nesting := by
  intro levels front rest spells follows
  obtain ⟨before, place, none, rfl, beforeSpells, noneSpells⟩ := exists_of_map_symbol_eq spells
  obtain ⟨⟨_, position⟩, behind, rfl, rfl, behindSpells⟩ := List.map_eq_cons_iff.1 beforeSpells
  obtain ⟨⟨_, _⟩, inside, rfl, rfl, insideSpells⟩ := List.map_eq_cons_iff.1 behindSpells
  obtain rfl := List.map_eq_nil_iff.1 noneSpells
  have read := inner levels insideSpells
    (EndsArguments.of_closing closing place follows.spelled)
  rw [List.append_assoc, List.cons_append, List.cons_append]
  change Limited levels nesting (application (factor dialect levels) name position _) _
  simp only [application, registered]
  refine (read.bind _).trans_eq ?_
  simp [continued, closed, accepted, bind, Except.bind, pure, Except.pure]

/-- Arguments are read by their first sum and what follows it. -/
theorem arguments_bind {levels : Nat} {tokens after : List (Token ν)}
    (read : Limited levels nesting (sum (factor dialect levels) tokens) (.ok (tree, after))) :
    Limited levels nesting (arguments (factor dialect levels) tokens)
      (moreArguments (sum (factor dialect levels)) after.length after >>= fun others =>
        .ok (tree :: others.1, others.2)) :=
  (read.bind _).trans_eq rfl

/-- A single argument is read. -/
theorem reads_last (only : Reads dialect .sum word tree nesting) :
    Reads dialect .arguments word [tree] nesting := by
  intro levels front rest spells follows
  refine (arguments_bind (only.sum levels spells follows.toEndsSum)).trans_eq ?_
  have ended : moreArguments (sum (factor dialect levels)) rest.length rest = .ok ([], rest) := by
    rcases rest with _ | ⟨⟨symbol, position⟩, tail⟩
    · rfl
    · cases symbol with
      | comma comma => exact absurd rfl (follows.noComma comma position tail)
      | _ => rfl
  rw [ended]
  rfl

/-- An argument in front of others is read with them. -/
theorem reads_separated (comma : String) (head : Reads dialect .sum word tree nesting)
    (tail : Reads dialect .arguments others trees further)
    (derivation : Derives dialect .arguments others trees further) :
    Reads dialect .arguments (word ++ .comma comma :: others) (tree :: trees)
      (max nesting further) := by
  intro levels front rest spells follows
  obtain ⟨before, position, after, rfl, beforeSpells, rfl⟩ := exists_of_map_symbol_eq spells
  have spelled : Token.Spelled (after ++ rest) := derivation.spelled follows.spelled
  have ends : EndsSum (⟨.comma comma, position⟩ :: (after ++ rest)) := .of_comma spelled
  have first := arguments_bind (head.sum levels beforeSpells ends)
  rw [List.length_cons, moreArguments_comma (factor_sound levels) spelled] at first
  rw [List.append_assoc, List.cons_append]
  exact first.trans (((tail levels rfl follows).bind _).trans_eq rfl)

/-- A power is read by its base and what follows it. -/
theorem power_bind {tokens after : List (Token ν)}
    (read : Limited levels nesting (primary dialect (factor dialect levels) tokens)
      (.ok (tree, after))) :
    Limited levels nesting (power dialect (factor dialect levels) tokens)
      (match operatorAt? (lone? "^") after with
      | some (_, rest) => factor dialect levels rest >>= fun exponent =>
        .ok (binary .pow tree exponent.1, exponent.2)
      | none => .ok (tree, after)) :=
  (read.bind _).trans_eq rfl

/-- An operand without a power is read as one. -/
theorem reads_unraised (base : Reads dialect .primary word tree nesting) :
    Reads dialect .power word tree nesting := by
  intro levels front rest spells follows
  refine (power_bind (base levels spells follows.toEndsName)).trans_eq ?_
  rw [follows.noPower]
  rfl

/-- A power is read with its exponent. -/
theorem reads_raised (below : Reads dialect .primary word tree nesting)
    (above : Reads dialect .factor others other further)
    (derivation : Derives dialect .factor others other further) :
    Reads dialect .power (word ++ .operator "^" :: others) (.binary .pow tree other)
      (max nesting further) := by
  intro levels front rest spells follows
  obtain ⟨before, position, after, rfl, beforeSpells, rfl⟩ := exists_of_map_symbol_eq spells
  rw [List.append_assoc, List.cons_append]
  have ends : EndsName (⟨.operator "^", position⟩ :: (after ++ rest)) :=
    ⟨(derivation.spelled follows.spelled).cons (by simp), by simp⟩
  refine (power_bind (below levels beforeSpells ends)).trans ?_
  exact ((above levels rfl follows).bind _).trans_eq rfl

/-- A factor without a sign is read, one level further out. -/
theorem reads_unsigned (inner : Reads dialect .power word tree nesting)
    (derivation : Derives dialect .power word tree nesting) :
    Reads dialect .factor word tree (nesting + 1) := by
  intro levels front rest spells follows
  obtain ⟨first, others, rfl, noOperator⟩ := derivation.head_not_operator (.inl rfl)
  obtain ⟨token, after, rfl, rfl, afterSpells⟩ := List.map_eq_cons_iff.1 spells
  have noMinus : operatorAt? (lone? "-") (token :: after ++ rest) = none :=
    operatorAt?_eq_none _ noOperator
  cases levels with
  | zero => exact ⟨fun exceeds => absurd exceeds (by simp), fun _ => ⟨_, rfl⟩⟩
  | succ levels =>
    change Limited (levels + 1) (nesting + 1) (factor dialect (levels + 1) _) _
    rw [factor_succ_eq_power levels noMinus]
    exact (inner levels spells follows).succ

/-- A negated factor is read, one level further out. -/
theorem reads_negated (inner : Reads dialect .factor word tree nesting) :
    Reads dialect .factor (.operator "-" :: word) (.neg tree) (nesting + 1) := by
  intro levels front rest spells follows
  obtain ⟨⟨_, position⟩, after, rfl, rfl, afterSpells⟩ := List.map_eq_cons_iff.1 spells
  cases levels with
  | zero => exact ⟨fun exceeds => absurd exceeds (by simp), fun _ => ⟨_, rfl⟩⟩
  | succ levels =>
    exact (((inner levels afterSpells follows).bind _).trans_eq rfl).succ

/-- A product is read up to its last operand. -/
theorem reads_multiplied {operator : BinaryOperator} (strength : operator.precedence = .product)
    (before : Reads dialect .product word tree nesting)
    (after : Reads dialect .factor others other further)
    (derivation : Derives dialect .factor others other further) :
    Reads dialect .product (word ++ .operator operator.sign :: others) (.binary operator tree other)
      (max nesting further) := by
  intro levels front rest spells follows
  obtain ⟨left, position, right, rfl, leftSpells, rfl⟩ := exists_of_map_symbol_eq spells
  have chosen := multiplicative?_eq_some_iff.2 ⟨strength, rfl⟩
  have ends : EndsOperand (⟨.operator operator.sign, position⟩ :: (right ++ rest)) :=
    .of_operator (by rw [strength]; decide) (derivation.spelled follows.spelled)
  rw [List.append_assoc, List.cons_append]
  exact leftAssociative_extend (factor_sound levels) chosen follows.spelled (by simp)
    (before levels leftSpells ends) (after levels rfl follows)

/-- A sum is read up to its last operand. -/
theorem reads_added {operator : BinaryOperator} (strength : operator.precedence = .sum)
    (before : Reads dialect .sum word tree nesting)
    (after : Reads dialect .product others other further)
    (derivation : Derives dialect .product others other further) :
    Reads dialect .sum (word ++ .operator operator.sign :: others) (.binary operator tree other)
      (max nesting further) := by
  intro levels front rest spells follows
  obtain ⟨left, position, right, rfl, leftSpells, rfl⟩ := exists_of_map_symbol_eq spells
  have chosen := additive?_eq_some_iff.2 ⟨strength, rfl⟩
  have ends : EndsProduct (⟨.operator operator.sign, position⟩ :: (right ++ rest)) :=
    .of_operator strength (derivation.spelled follows.spelled)
  rw [List.append_assoc, List.cons_append]
  exact leftAssociative_extend (product_sound (factor_sound levels)) chosen follows.spelled
    (by simp) (before levels leftSpells ends) (after.product levels rfl follows)

/-- What is derivable is read. -/
theorem Derives.reads {category : Category} {meaning : category.Meaning ν}
    (derivation : Derives dialect category word meaning nesting) :
    Reads dialect category word meaning nesting := by
  induction derivation with
  | number value => exact reads_of_eq fun _ _ _ _ => rfl
  | @constant name value unregistered known =>
    refine reads_of_eq fun levels position rest follows => ?_
    rw [primary_name _ name position follows.noOpening]
    simp [loneName, unregistered, known]
  | @free name unregistered unknown =>
    refine reads_of_eq fun levels position rest follows => ?_
    rw [primary_name _ name position follows.noOpening]
    simp [loneName, unregistered, unknown]
  | group opening closing _ inner => exact reads_group opening closing inner
  | call opening closing registered accepted _ inner =>
    exact reads_call opening closing registered accepted inner
  | last _ only => exact reads_last only
  | separated comma _ derivation head tail => exact reads_separated comma head tail derivation
  | unraised _ base => exact reads_unraised base
  | raised _ derivation below above => exact reads_raised below above derivation
  | unsigned derivation inner => exact reads_unsigned inner derivation
  | negated _ inner => exact reads_negated inner
  | lone _ only =>
    intro levels front rest spells follows
    exact ((only levels spells follows).bind _).trans_eq rfl
  | multiplied strength _ derivation before after =>
    exact reads_multiplied strength before after derivation
  | single _ only =>
    intro levels front rest spells follows
    exact ((only.product levels spells follows).bind _).trans_eq rfl
  | added strength _ derivation before after =>
    exact reads_added strength before after derivation

end Reading

/-- The end of a list ends every phrase. -/
theorem EndsArguments.nil : EndsArguments ([] : List (Token ν)) where
  spelled := nofun
  noOpening := by simp
  noPower := rfl
  noFactor := rfl
  noSummand := rfl
  noComma := by simp

/-- A sum has one meaning and one nesting. -/
theorem Derives.unique {word : List (Symbol ν)} {tree other : Expr ν} {nesting further : Nat}
    (first : Derives dialect .sum word tree nesting)
    (second : Derives dialect .sum word other further) : tree = other ∧ nesting = further := by
  let tokens : List (Token ν) := word.map (⟨·, 0⟩)
  have spells : tokens.map Token.symbol = word := by simp [tokens, Function.comp_def]
  have firstRead (levels : Nat) := first.reads.sum levels spells
    EndsArguments.nil.toEndsSum
  have secondRead (levels : Nat) := second.reads.sum levels spells
    EndsArguments.nil.toEndsSum
  constructor
  · have firstTree := (firstRead (max nesting further)).within (Nat.le_max_left _ _)
    have secondTree := (secondRead (max nesting further)).within (Nat.le_max_right _ _)
    exact congrArg Prod.fst (Except.ok.inj (firstTree.symm.trans secondTree))
  · apply Nat.le_antisymm
    · apply Nat.le_of_not_lt
      intro less
      obtain ⟨fault, failed⟩ := (firstRead further).beyond less
      rw [(secondRead further).within (Nat.le_refl _)] at failed
      cases failed
    · apply Nat.le_of_not_lt
      intro less
      obtain ⟨fault, failed⟩ := (secondRead nesting).beyond less
      rw [(firstRead nesting).within (Nat.le_refl _)] at failed
      cases failed

end Tangent
