import Tangent.Proofs.Grammar.Derivation
import Tangent.Proofs.Result

/-!
# What the parser reads is derivable

Each reader takes a phrase of its own kind off the front of a token list, and nests no more factors
inside each other than it has levels. An operator without a text is excluded: the grammar has no
such sign, while the parser takes it for a minus and for a power.
-/

namespace Tangent

variable {ν : Type} {dialect : Dialect ν}

/-- No operator of a token list is without a text. -/
def Token.Spelled (tokens : List (Token ν)) : Prop :=
  ∀ token ∈ tokens, token.symbol ≠ .operator ""

theorem Token.Spelled.of_append {front rest : List (Token ν)}
    (spelled : Token.Spelled (front ++ rest)) : Token.Spelled rest :=
  fun token present => spelled token (List.mem_append_right front present)

theorem Token.Spelled.cons {token : Token ν} {rest : List (Token ν)}
    (written : token.symbol ≠ .operator "") (spelled : Token.Spelled rest) :
    Token.Spelled (token :: rest) :=
  List.forall_mem_cons.2 ⟨written, spelled⟩

theorem Token.Spelled.of_cons {token : Token ν} {rest : List (Token ν)}
    (spelled : Token.Spelled (token :: rest)) : Token.Spelled rest :=
  fun other present => spelled other (List.mem_cons_of_mem token present)

/-- Whatever a reader accepts is in a language, with a nesting within its levels. -/
def Phrase.Sound {α : Type} (language : List (Symbol ν) → α → Nat → Prop) (levels : Nat)
    (phrase : Phrase ν α) : Prop :=
  ∀ ⦃tokens : List (Token ν)⦄ ⦃value : α⦄ ⦃rest : List (Token ν)⦄, Token.Spelled tokens →
    phrase tokens = .ok (value, rest) →
      ∃ front nesting, tokens = front ++ rest ∧ nesting ≤ levels ∧
        language (front.map Token.symbol) value nesting

namespace Expr

/-- The operations of sums are those that bind like a sum. -/
theorem additive?_eq_some_iff {sign : String} {operator : BinaryOperator} :
    additive? sign = some operator ↔ operator.precedence = .sum ∧ sign = operator.sign := by
  constructor
  · intro chosen
    unfold additive? at chosen
    split at chosen <;> cases chosen <;> exact ⟨rfl, rfl⟩
  · rintro ⟨strength, rfl⟩
    cases operator <;> first | rfl | cases strength

/-- The operations of products are those that bind like a product. -/
theorem multiplicative?_eq_some_iff {sign : String} {operator : BinaryOperator} :
    multiplicative? sign = some operator ↔
      operator.precedence = .product ∧ sign = operator.sign := by
  constructor
  · intro chosen
    unfold multiplicative? at chosen
    split at chosen <;> cases chosen <;> exact ⟨rfl, rfl⟩
  · rintro ⟨strength, rfl⟩
    cases operator <;> first | rfl | cases strength

/-- An operator is found where the list starts with one that the choice accepts. -/
theorem operatorAt?_eq_some_iff {α : Type} {choice : String → Option α}
    {tokens rest : List (Token ν)} {chosen : α} :
    operatorAt? choice tokens = some (chosen, rest) ↔
      ∃ sign position, tokens = ⟨.operator sign, position⟩ :: rest ∧ choice sign = some chosen := by
  constructor
  · intro found
    unfold operatorAt? at found
    split at found
    · next sign position tail =>
      obtain ⟨accepted, choiceAccepts, same⟩ := Option.map_eq_some_iff.1 found
      cases same
      exact ⟨sign, position, rfl, choiceAccepts⟩
    · cases found
  · rintro ⟨sign, position, rfl, accepted⟩
    simp [operatorAt?, accepted]

/-- A spelled operator that passes for a lone sign is that sign. -/
theorem operatorAt?_lone {sign : String} {tokens rest : List (Token ν)}
    (spelled : Token.Spelled tokens) (found : operatorAt? (lone? sign) tokens = some ((), rest)) :
    ∃ position, tokens = ⟨.operator sign, position⟩ :: rest := by
  obtain ⟨text, position, rfl, accepted⟩ := operatorAt?_eq_some_iff.1 found
  have written : text ≠ "" := fun blank => spelled _ List.mem_cons_self (by rw [blank])
  simp only [lone?] at accepted
  split at accepted
  · next either =>
    rcases either with rfl | blank
    · exact ⟨position, rfl⟩
    · exact absurd blank written
  · cases accepted

section Chains

variable {choice : String → Option BinaryOperator} {operand : Phrase ν (Expr ν)} {levels : Nat}
  {whole part : List (Symbol ν) → Expr ν → Nat → Prop}

/-- A chain extends what is on its left by one operation after the other. -/
theorem chain_sound (operandSound : Phrase.Sound part levels operand)
    (extend : ∀ {sign operator left right leftTree rightTree leftNesting rightNesting},
      choice sign = some operator → whole left leftTree leftNesting →
        part right rightTree rightNesting →
          whole (left ++ .operator sign :: right) (.binary operator leftTree rightTree)
            (max leftNesting rightNesting))
    {bound : Nat} {left tree : Expr ν} {tokens rest : List (Token ν)} {word : List (Symbol ν)}
    {nesting : Nat} (spelled : Token.Spelled tokens) (derived : whole word left nesting)
    (within : nesting ≤ levels) (read : chain choice operand bound left tokens = .ok (tree, rest)) :
    ∃ front nesting, tokens = front ++ rest ∧ nesting ≤ levels ∧
      whole (word ++ front.map Token.symbol) tree nesting := by
  induction bound generalizing left tokens word nesting with
  | zero =>
    cases read
    exact ⟨[], nesting, rfl, within, by simpa using derived⟩
  | succ bound inductionHypothesis =>
    unfold chain at read
    split at read
    · next operator afterSign found =>
      obtain ⟨sign, position, rfl, chosen⟩ := operatorAt?_eq_some_iff.1 found
      obtain ⟨⟨right, afterOperand⟩, operandRead, chained⟩ := exists_of_bind_eq_ok read
      obtain ⟨front, rightNesting, rfl, rightWithin, rightDerived⟩ :=
        operandSound spelled.of_cons operandRead
      obtain ⟨others, total, rfl, totalWithin, totalDerived⟩ :=
        inductionHypothesis spelled.of_cons.of_append (extend chosen derived rightDerived)
          (Nat.max_le.2 ⟨within, rightWithin⟩) chained
      refine ⟨⟨.operator sign, position⟩ :: front ++ others, total, by simp, totalWithin, ?_⟩
      simpa using totalDerived
    · cases read
      exact ⟨[], nesting, rfl, within, by simpa using derived⟩

/-- Operands that are joined to the left form the language that joining to the left makes. -/
theorem leftAssociative_sound (operandSound : Phrase.Sound part levels operand)
    (start : ∀ {word tree nesting}, part word tree nesting → whole word tree nesting)
    (extend : ∀ {sign operator left right leftTree rightTree leftNesting rightNesting},
      choice sign = some operator → whole left leftTree leftNesting →
        part right rightTree rightNesting →
          whole (left ++ .operator sign :: right) (.binary operator leftTree rightTree)
            (max leftNesting rightNesting)) :
    Phrase.Sound whole levels (leftAssociative choice operand) := by
  intro tokens tree rest spelled read
  obtain ⟨⟨first, afterFirst⟩, firstRead, chained⟩ := exists_of_bind_eq_ok read
  obtain ⟨front, nesting, rfl, within, derived⟩ := operandSound spelled firstRead
  obtain ⟨others, total, rfl, totalWithin, totalDerived⟩ :=
    chain_sound operandSound extend spelled.of_append (start derived) within chained
  exact ⟨front ++ others, total, by simp, totalWithin, by simpa using totalDerived⟩

end Chains

section Levels

variable {reader : Phrase ν (Expr ν)} {levels : Nat}

/-- Products of factors are products. -/
theorem product_sound (factorSound : Phrase.Sound (Derives dialect .factor) levels reader) :
    Phrase.Sound (Derives dialect .product) levels (leftAssociative multiplicative? reader) := by
  apply leftAssociative_sound factorSound .lone
  intro sign operator left right leftTree rightTree leftNesting rightNesting chosen before after
  obtain ⟨strength, rfl⟩ := multiplicative?_eq_some_iff.1 chosen
  exact .multiplied strength before after

/-- Sums of products of factors are sums. -/
theorem sum_sound (factorSound : Phrase.Sound (Derives dialect .factor) levels reader) :
    Phrase.Sound (Derives dialect .sum) levels (sum reader) := by
  apply leftAssociative_sound (product_sound factorSound) .single
  intro sign operator left right leftTree rightTree leftNesting rightNesting chosen before after
  obtain ⟨strength, rfl⟩ := additive?_eq_some_iff.1 chosen
  exact .added strength before after

/-- The arguments behind the first one extend it to an argument list. -/
theorem moreArguments_sound {argument : Phrase ν (Expr ν)}
    (argumentSound : Phrase.Sound (Derives dialect .sum) levels argument)
    {bound : Nat} {first : Expr ν} {others : List (Expr ν)} {tokens rest : List (Token ν)}
    {word : List (Symbol ν)} {nesting : Nat} (spelled : Token.Spelled tokens)
    (derived : Derives dialect .sum word first nesting) (within : nesting ≤ levels)
    (read : moreArguments argument bound tokens = .ok (others, rest)) :
    ∃ front nesting, tokens = front ++ rest ∧ nesting ≤ levels ∧
      Derives dialect .arguments (word ++ front.map Token.symbol) (first :: others) nesting := by
  induction bound generalizing first others tokens word nesting with
  | zero =>
    cases read
    exact ⟨[], nesting, rfl, within, by simpa using .last derived⟩
  | succ bound inductionHypothesis =>
    unfold moreArguments at read
    split at read
    · next comma position afterComma sameBound =>
      cases sameBound
      obtain ⟨⟨next, afterNext⟩, nextRead, continued⟩ := exists_of_bind_eq_ok read
      obtain ⟨⟨later, afterLater⟩, laterRead, returned⟩ := exists_of_bind_eq_ok continued
      cases returned
      obtain ⟨front, nextNesting, rfl, nextWithin, nextDerived⟩ :=
        argumentSound spelled.of_cons nextRead
      obtain ⟨remaining, total, rfl, totalWithin, totalDerived⟩ :=
        inductionHypothesis spelled.of_cons.of_append nextDerived nextWithin laterRead
      refine ⟨⟨.comma comma, position⟩ :: front ++ remaining, max nesting total, by simp,
        Nat.max_le.2 ⟨within, totalWithin⟩, ?_⟩
      simpa using Derives.separated comma derived totalDerived
    · cases read
      exact ⟨[], nesting, rfl, within, by simpa using .last derived⟩

/-- The arguments of a call are arguments. -/
theorem arguments_sound (factorSound : Phrase.Sound (Derives dialect .factor) levels reader) :
    Phrase.Sound (Derives dialect .arguments) levels (arguments reader) := by
  intro tokens trees rest spelled read
  obtain ⟨⟨first, afterFirst⟩, firstRead, continued⟩ := exists_of_bind_eq_ok read
  obtain ⟨⟨others, afterOthers⟩, othersRead, returned⟩ := exists_of_bind_eq_ok continued
  cases returned
  obtain ⟨front, nesting, rfl, within, derived⟩ := sum_sound factorSound spelled firstRead
  obtain ⟨remaining, total, rfl, totalWithin, totalDerived⟩ :=
    moreArguments_sound (sum_sound factorSound) spelled.of_append derived within othersRead
  exact ⟨front ++ remaining, total, by simp, totalWithin, by simpa using totalDerived⟩

/-- What is closed was followed by a closing parenthesis. -/
theorem closed_eq_ok {expectation : Expectation} {tokens rest : List (Token ν)}
    (read : closed expectation tokens = .ok rest) :
    ∃ sign position, tokens = ⟨.rightParen sign, position⟩ :: rest := by
  unfold closed at read
  split at read
  · next sign position tail =>
    cases read
    exact ⟨sign, position, rfl⟩
  · cases read

/-- A name that is read alone is a constant or a variable of the dialect. -/
theorem loneName_eq_ok {name : String} {tokens rest : List (Token ν)} {tree : Expr ν}
    (read : loneName dialect name tokens = .ok (tree, rest)) :
    rest = tokens ∧ Derives dialect .primary [.identifier name] tree 0 := by
  unfold loneName at read
  split at read
  · cases read
  · next unregistered =>
    rw [Option.not_isSome_iff_eq_none] at unregistered
    split at read
    · next value known =>
      cases read
      exact ⟨rfl, .constant unregistered known⟩
    · next unknown =>
      cases read
      exact ⟨rfl, .free unregistered unknown⟩

/-- A call that is read behind its opening parenthesis is a call. -/
theorem application_eq_ok (factorSound : Phrase.Sound (Derives dialect .factor) levels reader)
    {name : String} (opening : String) {position : Int} {tokens rest : List (Token ν)}
    {tree : Expr ν} (spelled : Token.Spelled tokens)
    (read : application reader name position tokens = .ok (tree, rest)) :
    ∃ front nesting, tokens = front ++ rest ∧ nesting ≤ levels ∧
      Derives dialect .primary
        (.identifier name :: .leftParen opening :: front.map Token.symbol) tree nesting := by
  unfold application at read
  split at read
  · cases read
  · next function registered =>
    obtain ⟨⟨trees, afterTrees⟩, treesRead, continued⟩ := exists_of_bind_eq_ok read
    obtain ⟨afterClosing, closedRead, counted⟩ := exists_of_bind_eq_ok continued
    obtain ⟨front, nesting, rfl, within, derived⟩ := arguments_sound factorSound spelled treesRead
    obtain ⟨sign, place, rfl⟩ := closed_eq_ok closedRead
    split at counted
    · next accepted =>
      cases counted
      refine ⟨front ++ [⟨.rightParen sign, place⟩], nesting, by simp, within, ?_⟩
      simpa using Derives.call opening sign registered accepted derived
    · cases counted

/-- Operands without a sign and without a power are primaries. -/
theorem primary_sound (factorSound : Phrase.Sound (Derives dialect .factor) levels reader) :
    Phrase.Sound (Derives dialect .primary) levels (primary dialect reader) := by
  intro tokens tree rest spelled read
  unfold primary at read
  split at read
  · next value position tail =>
    cases read
    exact ⟨[⟨.number value, position⟩], 0, rfl, Nat.zero_le levels, .number value⟩
  · next name position opening openingPosition tail =>
    obtain ⟨front, nesting, rfl, within, derived⟩ :=
      application_eq_ok factorSound opening spelled.of_cons.of_cons read
    exact ⟨⟨.identifier name, position⟩ :: ⟨.leftParen opening, openingPosition⟩ :: front, nesting,
      rfl, within, derived⟩
  · next name position tail _ =>
    obtain ⟨rfl, derived⟩ := loneName_eq_ok read
    exact ⟨[⟨.identifier name, position⟩], 0, rfl, Nat.zero_le levels, derived⟩
  · next opening position tail =>
    obtain ⟨⟨inner, afterInner⟩, innerRead, continued⟩ := exists_of_bind_eq_ok read
    obtain ⟨afterClosing, closedRead, returned⟩ := exists_of_bind_eq_ok continued
    cases returned
    obtain ⟨front, nesting, rfl, within, derived⟩ :=
      sum_sound factorSound spelled.of_cons innerRead
    obtain ⟨closing, place, rfl⟩ := closed_eq_ok closedRead
    refine ⟨⟨.leftParen opening, position⟩ :: front ++ [⟨.rightParen closing, place⟩], nesting,
      by simp, within, ?_⟩
    simpa using Derives.group opening closing derived
  · cases read

/-- Operands without a sign are powers. -/
theorem power_sound (factorSound : Phrase.Sound (Derives dialect .factor) levels reader) :
    Phrase.Sound (Derives dialect .power) levels (power dialect reader) := by
  intro tokens tree rest spelled read
  obtain ⟨⟨base, afterBase⟩, baseRead, continued⟩ := exists_of_bind_eq_ok read
  obtain ⟨front, nesting, rfl, within, derived⟩ := primary_sound factorSound spelled baseRead
  dsimp only at continued
  split at continued
  · next afterSign found =>
    obtain ⟨position, rfl⟩ := operatorAt?_lone spelled.of_append found
    obtain ⟨⟨exponent, afterExponent⟩, exponentRead, returned⟩ := exists_of_bind_eq_ok continued
    cases returned
    obtain ⟨others, exponentNesting, rfl, exponentWithin, exponentDerived⟩ :=
      factorSound spelled.of_append.of_cons exponentRead
    refine ⟨front ++ ⟨.operator "^", position⟩ :: others, max nesting exponentNesting, by simp,
      Nat.max_le.2 ⟨within, exponentWithin⟩, ?_⟩
    simpa using Derives.raised derived exponentDerived
  · cases continued
    exact ⟨front, nesting, rfl, within, .unraised derived⟩

end Levels

/-- A reader of factors reads factors, and nests no more of them than it has levels. -/
theorem factor_sound (levels : Nat) :
    Phrase.Sound (Derives dialect .factor) levels (factor dialect levels) := by
  induction levels with
  | zero =>
    intro tokens tree rest spelled read
    cases read
  | succ levels inductionHypothesis =>
    intro tokens tree rest spelled read
    unfold factor at read
    split at read
    · next afterSign found =>
      obtain ⟨position, rfl⟩ := operatorAt?_lone spelled found
      obtain ⟨⟨operand, afterOperand⟩, operandRead, returned⟩ := exists_of_bind_eq_ok read
      cases returned
      obtain ⟨front, nesting, rfl, within, derived⟩ :=
        inductionHypothesis spelled.of_cons operandRead
      exact ⟨⟨.operator "-", position⟩ :: front, nesting + 1, rfl, Nat.succ_le_succ within,
        .negated derived⟩
    · obtain ⟨front, nesting, rfl, within, derived⟩ :=
        power_sound inductionHypothesis spelled read
      exact ⟨front, nesting + 1, rfl, Nat.succ_le_succ within, .unsigned derived⟩

end Expr

end Tangent
