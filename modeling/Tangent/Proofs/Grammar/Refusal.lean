import Tangent.Fault.Basic
import Tangent.Number.Binary64
import Tangent.Proofs.Grammar.Progress
import Tangent.Proofs.Token.Lexed

/-!
# The first token without a place

The parser works by levels of precedence, and progress does not know them. Still both stop at the
same token: whatever the parser takes has its place, and whatever it refuses has none. A fault about
the order or the nesting of the tokens blames the refused token itself, and a fault about a function
the name in front of the parenthesis at which it is noticed. Where the order is at fault, the tokens
in front of the refused one can be continued to a formula, and together with it they cannot.

A reader of operands leaves no operator behind that it could have taken, so that only what ends an
operand is left to the readers around it. This is the invariant that the lemmas about sums, products
and arguments carry. The levels that a reader of factors has left are those between the factors it
lies in and the limit.
-/

namespace Tangent

open Tangent.Expr

variable {ν : Type} [Number ν] {dialect : Dialect ν}

/-- Lexed tokens in front of a single end of the input. -/
inductive Token.Terminated : List (Token ν) → Prop where
  | finish (position : Int) : Terminated [⟨.endOfInput, position⟩]
  | cons {token : Token ν} {rest : List (Token ν)} (lexed : token.symbol.Lexed)
      (terminated : Terminated rest) : Terminated (token :: rest)

namespace Token.Terminated

variable {token : Token ν} {tokens rest : List (Token ν)}

/-- The tokens of a text are lexed in front of a single end. -/
theorem of_tokenize {text : String} (lexed : Token.tokenize text = .ok tokens) :
    Token.Terminated tokens := by
  obtain ⟨front, place, rfl, frontLexed⟩ := Token.scan_lexed lexed
  clear lexed
  induction front with
  | nil => exact .finish place
  | cons token front inductionHypothesis =>
    obtain ⟨tokenLexed, othersLexed⟩ := List.forall_mem_cons.1 frontLexed
    exact .cons tokenLexed (inductionHypothesis othersLexed)

/-- Behind anything but the end there are more tokens. -/
theorem of_cons (terminated : Token.Terminated (token :: rest))
    (noEnd : token.symbol ≠ .endOfInput) : Token.Terminated rest := by
  cases terminated with
  | finish position => exact absurd rfl noEnd
  | cons _ terminated => exact terminated

/-- An operator has the sign of an operation. -/
theorem sign_of_operator (terminated : Token.Terminated (token :: rest)) {sign : String}
    (isOperator : token.symbol = .operator sign) :
    ∃ operator : BinaryOperator, sign = operator.sign := by
  cases terminated with
  | finish position => cases isOperator
  | cons lexed _ =>
    rw [isOperator] at lexed
    exact lexed

/-- The last token is the end of the input. -/
theorem isTerminated (terminated : Token.Terminated tokens) : isTerminated tokens = true := by
  induction terminated with
  | finish position => rfl
  | @cons token rest lexed terminated inductionHypothesis =>
    cases terminated <;> exact inductionHypothesis

/-- There is a token. -/
theorem exists_cons (terminated : Token.Terminated tokens) :
    ∃ token rest, tokens = token :: rest := by
  cases terminated with
  | finish position => exact ⟨_, [], rfl⟩
  | cons _ _ => exact ⟨_, _, rfl⟩

/-- No operator is without a text. -/
theorem spelled (terminated : Token.Terminated tokens) : Token.Spelled tokens := by
  induction terminated with
  | finish position => simp [Token.Spelled]
  | cons lexed terminated inductionHypothesis =>
    refine inductionHypothesis.cons fun blank => ?_
    obtain ⟨operator, same⟩ := (Token.Terminated.cons lexed terminated).sign_of_operator blank
    exact operator.sign_ne_empty same.symm

end Token.Terminated

/-- What the parser names as due when it refuses a symbol behind an outlook. Behind a formula it
tells a parenthesis that closes nothing from everything else. -/
inductive Outlook.Expects : Outlook → Symbol ν → Expectation → Prop where
  | operand (brackets : List Bracket) (symbol : Symbol ν) :
      Expects ⟨.operand, brackets⟩ symbol .expression
  | opening (brackets : List Bracket) (symbol : Symbol ν) (name : String) :
      Expects ⟨.opening, brackets⟩ symbol (.opening name)
  | closing (brackets : List Bracket) (symbol : Symbol ν) :
      Expects ⟨.operator, .group :: brackets⟩ symbol .closing
  | separator (brackets : List Bracket) (symbol : Symbol ν) :
      Expects ⟨.operator, .call :: brackets⟩ symbol .separator
  | finish (sign : String) : Expects .complete (.rightParen sign) .finish
  | continuation {symbol : Symbol ν} (noClosing : ∀ sign, symbol ≠ .rightParen sign) :
      Expects .complete symbol .continuation

/-- No place for a symbol behind an outlook, where something else is due. The end of the input has a
place behind a formula only. -/
structure Outlook.Refuses (outlook : Outlook) (expectation : Expectation) (symbol : Symbol ν) :
    Prop where
  noNext : outlook.after? symbol = none
  noEnd : symbol = .endOfInput → outlook ≠ .complete
  expects : outlook.Expects symbol expectation

/-- A fault about the order of the tokens. -/
def ParseFault.IsSyntactic (fault : ParseFault ν) : Prop :=
  fault.kind? = some .unexpectedToken ∨ fault.kind? = some .unbalancedParenthesis

/-- The most factors that may lie inside each other. -/
def Dialect.mostFactors (dialect : Dialect ν) : Nat :=
  dialect.maxNesting.toNat

/-- What a fault blames, behind what has been read: the first token that has no place, or the name
of the function that this token is noticed at. -/
inductive ParseFault.Blames (dialect : Dialect ν) (before : Progress) (tokens : List (Token ν)) :
    ParseFault ν → Prop where
  /-- The token is not due. -/
  | misplaced {taken rest : List (Token ν)} {token : Token ν} {reached : Progress}
      {expectation : Expectation} (same : tokens = taken ++ token :: rest)
      (read : before.afterAll? dialect.mostFactors taken = some reached)
      (fits : reached.Fits dialect.mostFactors)
      (refuses : reached.outlook.Refuses expectation token.symbol) :
      Blames dialect before tokens (.unexpected expectation token.symbol token.position)
  /-- The operand that is due would lie too deep. -/
  | tooDeep {taken rest : List (Token ν)} {token : Token ν} {factors : Nat}
      {enclosures : List Enclosure} (same : tokens = taken ++ token :: rest)
      (read : before.afterAll? dialect.mostFactors taken = some ⟨.operand, factors, enclosures⟩)
      (deep : dialect.mostFactors < factors) :
      Blames dialect before tokens
        (.unexpected (.nesting dialect.maxNesting) token.symbol token.position)
  /-- A parenthesis follows a name, where an operand is due, that is not the name of a function. -/
  | unknownFunction {taken rest : List (Token ν)} {name opening : String} {position place : Int}
      {factors : Nat} {enclosures : List Enclosure}
      (same : tokens = taken ++ ⟨.identifier name, position⟩ :: ⟨.leftParen opening, place⟩ :: rest)
      (read : before.afterAll? dialect.mostFactors taken = some ⟨.operand, factors, enclosures⟩)
      (fits : factors ≤ dialect.mostFactors) (unregistered : Elementary.ofName? name = none) :
      Blames dialect before tokens (.unknownFunction name position)
  /-- A parenthesis closes a call with a wrong number of arguments. -/
  | wrongArgumentCount {taken rest : List (Token ν)} {closing : String} {place position : Int}
      {function : Elementary} {count factors outer : Nat} {enclosures : List Enclosure}
      (same : tokens = taken ++ ⟨.rightParen closing, place⟩ :: rest)
      (read : before.afterAll? dialect.mostFactors taken =
        some ⟨.operator, factors, .call function position count outer :: enclosures⟩)
      (refused : function.accepts count = false) :
      Blames dialect before tokens (.wrongArgumentCount function count position)

namespace ParseFault.Blames

omit [Number ν]

variable {fault : ParseFault ν} {before middle : Progress} {tokens rest : List (Token ν)}

/-- Tokens in front that have their places change nothing. -/
theorem append {front : List (Token ν)}
    (reached : before.afterAll? dialect.mostFactors front = some middle)
    (blames : fault.Blames dialect middle rest) : fault.Blames dialect before (front ++ rest) := by
  have further {taken : List (Token ν)} {later : Progress}
      (read : middle.afterAll? dialect.mostFactors taken = some later) :
      before.afterAll? dialect.mostFactors (front ++ taken) = some later := by
    simp [reached, read]
  cases blames with
  | misplaced same read fits refuses =>
    subst same
    exact .misplaced (List.append_assoc _ _ _).symm (further read) fits refuses
  | tooDeep same read deep =>
    subst same
    exact .tooDeep (List.append_assoc _ _ _).symm (further read) deep
  | unknownFunction same read fits unregistered =>
    subst same
    exact .unknownFunction (List.append_assoc _ _ _).symm (further read) fits unregistered
  | wrongArgumentCount same read refused =>
    subst same
    exact .wrongArgumentCount (List.append_assoc _ _ _).symm (further read) refused

/-- A first token that is not due is blamed. -/
theorem of_head {token : Token ν} {expectation : Expectation}
    (fits : before.Fits dialect.mostFactors)
    (refuses : before.outlook.Refuses expectation token.symbol) :
    (ParseFault.unexpected expectation token.symbol token.position).Blames dialect before
      (token :: rest) :=
  .misplaced (List.nil_append _).symm rfl fits refuses

/-- A token that was found is one of the tokens. -/
theorem mem_of_unexpected {expectation : Expectation} {found : Symbol ν} {position : Int}
    (blames : (ParseFault.unexpected expectation found position).Blames dialect before tokens) :
    ⟨found, position⟩ ∈ tokens := by
  cases blames with
  | misplaced same => simp [same]
  | tooDeep same => simp [same]

/-- A name that is no function is that of one of the tokens. -/
theorem mem_of_unknownFunction {name : String} {position : Int}
    (blames : (ParseFault.unknownFunction name position).Blames dialect before tokens) :
    ⟨.identifier name, position⟩ ∈ tokens := by
  cases blames with
  | unknownFunction same => simp [same]

/-- The name of a function with a wrong number of arguments is that of one of the tokens. -/
theorem mem_of_wrongArgumentCount {function : Elementary} {count : Nat} {position : Int}
    (blames :
      (ParseFault.wrongArgumentCount function count position).Blames dialect .start tokens) :
    ⟨.identifier function.name, position⟩ ∈ tokens := by
  cases blames with
  | wrongArgumentCount same read refused =>
    rcases Progress.calls_of_afterAll? read (.inr ⟨_, _, List.mem_cons_self⟩) with atStart | taken
    · obtain ⟨_, _, inside⟩ := Progress.calls_operand_iff.1 atStart
      cases inside
    · simp [same, taken]

/-- A fault about the order of the tokens blames the first one that may not come next. -/
theorem exists_of_isSyntactic (blames : fault.Blames dialect before tokens)
    (syntactic : fault.IsSyntactic) :
    ∃ taken token rest outlook expectation, tokens = taken ++ token :: rest ∧
      before.outlook.afterAll? (taken.map Token.symbol) = some outlook ∧
      outlook.Refuses expectation token.symbol ∧
      fault = .unexpected expectation token.symbol token.position := by
  cases blames with
  | misplaced same read fits refuses =>
    exact ⟨_, _, _, _, _, same, Progress.outlook_afterAll? read, refuses, rfl⟩
  | _ => simp [IsSyntactic, kind?] at syntactic

end ParseFault.Blames

/-- A result of reading tokens. What is read has its place and leads to a progress that suits the
value, what is left has a property, and a fault blames the first token without a place. -/
inductive Traced {α : Type} (dialect : Dialect ν) (before : Progress) (after : α → Progress → Prop)
    (left : List (Token ν) → Prop) (tokens : List (Token ν)) :
    Except (ParseFault ν) (α × List (Token ν)) → Prop where
  | ok {front rest : List (Token ν)} {reached : Progress} (value : α)
      (same : tokens = front ++ rest)
      (read : before.afterAll? dialect.mostFactors front = some reached)
      (suits : after value reached) (terminated : Token.Terminated rest) (holds : left rest) :
      Traced dialect before after left tokens (.ok (value, rest))
  | error {fault : ParseFault ν} (blames : fault.Blames dialect before tokens) :
      Traced dialect before after left tokens (.error fault)

namespace Traced

variable {α β : Type} {before middle : Progress} {after : α → Progress → Prop}
  {final : β → Progress → Prop} {left later : List (Token ν) → Prop} {tokens rest : List (Token ν)}

/-- What reads nothing leaves the progress as it is. -/
theorem pure (value : α) (suits : after value before) (terminated : Token.Terminated tokens)
    (holds : left tokens) : Traced dialect before after left tokens (.ok (value, tokens)) :=
  .ok value (List.nil_append tokens).symm rfl suits terminated holds

/-- Tokens in front that have their places change nothing. -/
theorem append {front : List (Token ν)} {result : Except (ParseFault ν) (α × List (Token ν))}
    (reached : before.afterAll? dialect.mostFactors front = some middle)
    (traced : Traced dialect middle after left rest result) :
    Traced dialect before after left (front ++ rest) result := by
  cases traced with
  | ok value same read suits terminated holds =>
    subst same
    exact .ok value (List.append_assoc _ _ _).symm (by simp [reached, read]) suits terminated holds
  | error blames => exact .error (blames.append reached)

/-- A token in front that has its place changes nothing. -/
theorem cons {token : Token ν} {result : Except (ParseFault ν) (α × List (Token ν))}
    (next : before.after? dialect.mostFactors token = some middle)
    (traced : Traced dialect middle after left rest result) :
    Traced dialect before after left (token :: rest) result := by
  have reached : before.afterAll? dialect.mostFactors [token] = some middle := by simp [next]
  exact traced.append reached

/-- A second step reads on where the first one stopped, with no more tokens than before. -/
theorem bind {first : Except (ParseFault ν) (α × List (Token ν))}
    {next : α × List (Token ν) → Except (ParseFault ν) (β × List (Token ν))}
    (traced : Traced dialect before after left tokens first)
    (nextTraced : ∀ value reached rest, after value reached → rest.length ≤ tokens.length →
      Token.Terminated rest → left rest →
      Traced dialect reached final later rest (next (value, rest))) :
    Traced dialect before final later tokens (first >>= next) := by
  cases traced with
  | ok value same read suits terminated holds =>
    subst same
    exact (nextTraced value _ _ suits (by simp) terminated holds).append read
  | error blames => exact .error blames

/-- The first token is refused where it is not due. -/
theorem refuse (expectation : Expectation) (terminated : Token.Terminated tokens)
    (fits : before.Fits dialect.mostFactors)
    (refuses : ∀ token rest, tokens = token :: rest →
      before.outlook.Refuses expectation token.symbol) :
    Traced dialect before after left tokens
      (Expr.refuse expectation tokens : Except _ (α × List (Token ν))) := by
  obtain ⟨token, rest, rfl⟩ := terminated.exists_cons
  exact .error (.of_head fits (refuses token rest rfl))

end Traced

/-- An operand has been read between open parentheses. -/
def BehindOperand {α : Type} (enclosures : List Enclosure) (_ : α) (progress : Progress) : Prop :=
  ∃ factors, progress = ⟨.operator, factors, enclosures⟩

/-- A reader of phrases that stand for an operand, with so many factors inside each other and
between open parentheses. -/
def Phrase.Guided {α : Type} (dialect : Dialect ν) (factors : Nat) (enclosures : List Enclosure)
    (left : List (Token ν) → Prop) (phrase : Phrase ν α) : Prop :=
  ∀ ⦃tokens : List (Token ν)⦄, Token.Terminated tokens →
    Traced dialect ⟨.operand, factors, enclosures⟩ (BehindOperand enclosures) left tokens
      (phrase tokens)

/-- No operator of a choice is in front of a list. -/
def Free {α : Type} (choice : String → Option α) (tokens : List (Token ν)) : Prop :=
  operatorAt? choice tokens = none

/-- Nothing that could continue a sum is in front of a list. -/
def FreeOfOperators (tokens : List (Token ν)) : Prop :=
  (Free (lone? "^") tokens ∧ Free multiplicative? tokens) ∧ Free additive? tokens

/-- Where no operation continues a sum, no operator is in front. -/
theorem FreeOfOperators.ne_operator {token : Token ν} {rest : List (Token ν)}
    (free : FreeOfOperators (token :: rest)) (terminated : Token.Terminated (token :: rest))
    (sign : String) : token.symbol ≠ .operator sign := by
  intro isOperator
  obtain ⟨operator, rfl⟩ := terminated.sign_of_operator isOperator
  obtain ⟨symbol, position⟩ := token
  subst isOperator
  obtain ⟨⟨noPower, noFactor⟩, noSummand⟩ := free
  cases operator with
  | add => exact Option.some_ne_none _ noSummand
  | sub => exact Option.some_ne_none _ noSummand
  | mul => exact Option.some_ne_none _ noFactor
  | div => exact Option.some_ne_none _ noFactor
  | pow => exact Option.some_ne_none _ noPower

/-- Behind an operand that nothing continues, a symbol has a place only if it closes or separates
what is open, or ends the formula. -/
theorem Outlook.refuses_behind_operand {token : Token ν} {rest : List (Token ν)}
    {brackets : List Bracket} {expectation : Expectation}
    (expects : Outlook.Expects ⟨.operator, brackets⟩ token.symbol expectation)
    (terminated : Token.Terminated (token :: rest)) (free : FreeOfOperators (token :: rest))
    (noClosing : brackets = [] ∨ ∀ sign, token.symbol ≠ .rightParen sign)
    (noComma : brackets.head? = some .call → ∀ sign, token.symbol ≠ .comma sign)
    (noEnd : token.symbol = .endOfInput → brackets ≠ []) :
    Outlook.Refuses ⟨.operator, brackets⟩ expectation token.symbol where
  noNext := by
    cases symbol : token.symbol with
    | operator sign => exact absurd symbol (free.ne_operator terminated sign)
    | rightParen sign =>
      rcases noClosing with rfl | noClosing
      · rfl
      · exact absurd symbol (noClosing sign)
    | comma sign =>
      match brackets, noComma with
      | [], _ => rfl
      | .group :: brackets, _ => rfl
      | .call :: brackets, noComma => exact absurd symbol (noComma rfl sign)
    | _ => cases brackets <;> rfl
  noEnd isEnd complete := noEnd isEnd (congrArg Outlook.brackets complete)
  expects := expects

/-- The lexer can read what completes a formula. -/
theorem Outlook.completion_lexed (outlook : Outlook) :
    ∀ symbol ∈ (outlook.completion : List (Symbol ν)), symbol.Lexed := by
  have name : Token.isName "x" = true := by decide
  obtain ⟨awaited, brackets⟩ := outlook
  cases awaited <;>
    simp +contextual [Outlook.completion, Outlook.filling, Symbol.Lexed, name, or_imp]

namespace Expr

/-- Where no operand is due, none lies too deep. -/
theorem fits_operator {limit factors : Nat} {enclosures : List Enclosure} :
    Progress.Fits limit ⟨.operator, factors, enclosures⟩ := nofun

section Chains

variable {choice : String → Option BinaryOperator} {operand : Phrase ν (Expr ν)}
  {enclosures : List Enclosure} {left : List (Token ν) → Prop}

/-- A chain that has bounds enough reads every operator of its choice. -/
theorem chain_traced
    (operandGuided : operand.Guided dialect (Progress.sumFactors enclosures) enclosures left)
    (chosen : ∀ {sign operator}, choice sign = some operator →
      sign = operator.sign ∧ operator ≠ .pow)
    {bound factors : Nat} (first : Expr ν) {tokens : List (Token ν)}
    (enough : tokens.length ≤ bound) (terminated : Token.Terminated tokens) (holds : left tokens) :
    Traced dialect ⟨.operator, factors, enclosures⟩ (BehindOperand enclosures)
      (fun rest => left rest ∧ Free choice rest) tokens
      (chain choice operand bound first tokens) := by
  induction bound generalizing first tokens factors with
  | zero =>
    obtain ⟨token, rest, rfl⟩ := terminated.exists_cons
    exact absurd enough (Nat.not_succ_le_zero _)
  | succ bound inductionHypothesis =>
    unfold chain
    split
    · next operator afterSign found =>
      obtain ⟨sign, position, rfl, isChosen⟩ := operatorAt?_eq_some_iff.1 found
      obtain ⟨rfl, joins⟩ := chosen isChosen
      refine Traced.cons (Progress.after?_sign joins) ?_
      refine (operandGuided (terminated.of_cons nofun)).bind ?_
      rintro right _ rest ⟨factors, rfl⟩ shorter restTerminated restHolds
      exact inductionHypothesis _ (by simp at enough; omega) restTerminated restHolds
    · next free => exact .pure first ⟨factors, rfl⟩ terminated ⟨holds, free⟩

/-- Operands that are joined by operators stand for an operand. -/
theorem leftAssociative_guided
    (operandGuided : operand.Guided dialect (Progress.sumFactors enclosures) enclosures left)
    (chosen : ∀ {sign operator}, choice sign = some operator →
      sign = operator.sign ∧ operator ≠ .pow) :
    (leftAssociative choice operand).Guided dialect (Progress.sumFactors enclosures) enclosures
      fun rest => left rest ∧ Free choice rest := by
  intro tokens terminated
  refine (operandGuided terminated).bind ?_
  rintro first _ rest ⟨factors, rfl⟩ _ restTerminated holds
  exact chain_traced operandGuided chosen first (Nat.le_refl _) restTerminated holds

end Chains

section Levels

variable {reader : Phrase ν (Expr ν)} {factors : Nat} {enclosures : List Enclosure}

/-- A sum leaves no operator behind. -/
theorem sum_guided (factorGuided : reader.Guided dialect factors enclosures (Free (lone? "^")))
    (placed : Progress.sumFactors enclosures = factors) :
    (sum reader).Guided dialect factors enclosures FreeOfOperators := by
  subst placed
  refine leftAssociative_guided (leftAssociative_guided factorGuided ?_) ?_
  · intro sign operator known
    obtain ⟨strength, same⟩ := multiplicative?_eq_some_iff.1 known
    exact ⟨same, by rintro rfl; cases strength⟩
  · intro sign operator known
    obtain ⟨strength, same⟩ := additive?_eq_some_iff.1 known
    exact ⟨same, by rintro rfl; cases strength⟩

/-- No comma and no operator is in front of a list. -/
def EndsArgumentList (tokens : List (Token ν)) : Prop :=
  FreeOfOperators tokens ∧ ∀ sign position rest, tokens ≠ ⟨.comma sign, position⟩ :: rest

/-- Further arguments are read up to the last comma, and counted. -/
theorem moreArguments_traced {function : Elementary} {place : Int} {count outer : Nat}
    (factorGuided : ∀ enclosures, reader.Guided dialect (outer + 1) enclosures (Free (lone? "^")))
    {bound : Nat} {tokens : List (Token ν)} (enough : tokens.length ≤ bound)
    (terminated : Token.Terminated tokens) (free : FreeOfOperators tokens) :
    Traced dialect ⟨.operator, factors, .call function place count outer :: enclosures⟩
      (fun others => BehindOperand
        (.call function place (count + others.length) outer :: enclosures) others)
      EndsArgumentList tokens (moreArguments (sum reader) bound tokens) := by
  induction bound generalizing tokens factors count with
  | zero =>
    obtain ⟨token, rest, rfl⟩ := terminated.exists_cons
    exact absurd enough (Nat.not_succ_le_zero _)
  | succ bound inductionHypothesis =>
    unfold moreArguments
    split
    · next comma position afterComma sameBound =>
      cases sameBound
      refine Traced.cons (Progress.after?_comma function place count outer comma) ?_
      refine (sum_guided (factorGuided _) rfl (terminated.of_cons nofun)).bind ?_
      rintro next _ rest ⟨factors, rfl⟩ shorter restTerminated restFree
      refine (inductionHypothesis (by simp at enough; omega) restTerminated restFree).bind ?_
      rintro others _ rest ⟨factors, rfl⟩ _ othersTerminated ends
      refine .pure _ ⟨factors, ?_⟩ othersTerminated ends
      rw [List.length_cons, Nat.add_right_comm, Nat.add_assoc]
    · next noComma =>
      refine .pure [] ⟨factors, rfl⟩ terminated ⟨free, ?_⟩
      rintro sign position rest rfl
      exact noComma _ _ _ _ rfl rfl

/-- Arguments are read up to the last comma, and counted. -/
theorem arguments_traced {function : Elementary} {place : Int} {outer : Nat}
    (factorGuided : ∀ enclosures, reader.Guided dialect (outer + 1) enclosures (Free (lone? "^")))
    {tokens : List (Token ν)} (terminated : Token.Terminated tokens) :
    Traced dialect ⟨.operand, outer + 1, .call function place 1 outer :: enclosures⟩
      (fun trees => BehindOperand (.call function place trees.length outer :: enclosures) trees)
      EndsArgumentList tokens (arguments reader tokens) := by
  refine (sum_guided (factorGuided _) rfl terminated).bind ?_
  rintro first _ rest ⟨factors, rfl⟩ _ restTerminated free
  refine (moreArguments_traced factorGuided (Nat.le_refl _) restTerminated free).bind ?_
  rintro others _ rest ⟨factors, rfl⟩ _ othersTerminated ends
  refine .pure _ ⟨factors, ?_⟩ othersTerminated ends
  rw [List.length_cons, Nat.add_comm]

/-- Behind an operand that nothing continues only a closing parenthesis has a place, and inside a
call also a comma. -/
theorem closed_traced {α : Type} {after : α → Progress → Prop} {left : List (Token ν) → Prop}
    {next : List (Token ν) → Except (ParseFault ν) (α × List (Token ν))} {enclosure : Enclosure}
    {expectation : Expectation}
    (expects : ∀ symbol : Symbol ν,
      Outlook.Expects ⟨.operator, (enclosure :: enclosures).map Enclosure.bracket⟩ symbol
        expectation)
    {tokens : List (Token ν)} (terminated : Token.Terminated tokens) (free : FreeOfOperators tokens)
    (noComma : enclosure.bracket = .call →
      ∀ sign position rest, tokens ≠ ⟨.comma sign, position⟩ :: rest)
    (nextTraced : ∀ sign position rest, Token.Terminated rest →
      Traced dialect ⟨.operator, factors, enclosure :: enclosures⟩ after left
        (⟨.rightParen sign, position⟩ :: rest) (next rest)) :
    Traced dialect ⟨.operator, factors, enclosure :: enclosures⟩ after left tokens
      (closed expectation tokens >>= next) := by
  unfold closed
  split
  · next sign position rest => exact nextTraced sign position rest (terminated.of_cons nofun)
  · next noClosing =>
    refine Traced.refuse expectation terminated fits_operator ?_
    rintro ⟨symbol, position⟩ rest rfl
    refine Outlook.refuses_behind_operand (expects symbol) terminated free (.inr ?_) ?_
      fun _ => nofun
    · rintro sign rfl
      exact noClosing sign position rest rfl
    · rintro isCall sign rfl
      exact noComma (Option.some.inj isCall) sign position rest rfl

/-- A name in front of a parenthesis is read as a call, if it is the name of a function that accepts
the arguments. -/
theorem application_traced (fits : factors ≤ dialect.mostFactors)
    (factorGuided : ∀ enclosures, reader.Guided dialect (factors + 1) enclosures (Free (lone? "^")))
    (name opening : String) (position place : Int) {rest : List (Token ν)}
    (terminated : Token.Terminated
      (⟨.identifier name, position⟩ :: ⟨.leftParen opening, place⟩ :: rest)) :
    Traced dialect ⟨.operand, factors, enclosures⟩
      (fun _ progress => progress = ⟨.operator, factors, enclosures⟩) (fun _ => True)
      (⟨.identifier name, position⟩ :: ⟨.leftParen opening, place⟩ :: rest)
      (application reader name position rest) := by
  have restTerminated := (terminated.of_cons nofun).of_cons nofun
  unfold application
  split
  · next unregistered =>
    exact .error (.unknownFunction (List.nil_append _).symm rfl fits unregistered)
  · next function registered =>
    refine Traced.cons (Progress.after?_registered fits registered) ?_
    refine Traced.cons (Progress.after?_call function position opening) ?_
    refine (arguments_traced factorGuided restTerminated).bind ?_
    rintro trees _ afterTrees ⟨inner, rfl⟩ - treesTerminated ⟨free, noComma⟩
    refine closed_traced (.separator _) treesTerminated free (fun _ => noComma) ?_
    intro closing closingPlace behind behindTerminated
    split
    · next accepted =>
      have closes : (Enclosure.call function position trees.length factors).mayClose = true :=
        accepted
      exact Traced.cons (Progress.after?_closing closes closing)
        (.pure _ rfl behindTerminated trivial)
    · next refused =>
      exact .error (.wrongArgumentCount (List.nil_append _).symm rfl (by simpa using refused))

/-- A name that no parenthesis follows is read alone. -/
theorem loneName_traced (fits : factors ≤ dialect.mostFactors) (name : String) (position : Int)
    {rest : List (Token ν)} (terminated : Token.Terminated (⟨.identifier name, position⟩ :: rest))
    (noOpening : ∀ sign place behind, rest ≠ ⟨.leftParen sign, place⟩ :: behind) :
    Traced dialect ⟨.operand, factors, enclosures⟩
      (fun _ progress => progress = ⟨.operator, factors, enclosures⟩) (fun _ => True)
      (⟨.identifier name, position⟩ :: rest) (loneName dialect name rest) := by
  have restTerminated := terminated.of_cons nofun
  unfold loneName
  split
  · next isRegistered =>
    obtain ⟨function, registered⟩ := Option.isSome_iff_exists.1 isRegistered
    refine Traced.cons (Progress.after?_registered fits registered) ?_
    refine .refuse _ restTerminated nofun ?_
    rintro ⟨symbol, place⟩ behind rfl
    refine ⟨?_, fun _ => nofun, .opening _ symbol name⟩
    cases symbol with
    | leftParen sign => exact absurd rfl (noOpening sign place behind)
    | _ => rfl
  · next isUnregistered =>
    have unregistered := Option.not_isSome_iff_eq_none.1 isUnregistered
    refine Traced.cons (Progress.after?_unregistered fits unregistered) ?_
    split <;> exact .pure _ rfl restTerminated trivial

/-- An operand without a sign in front is read where no sign is. -/
theorem primary_traced (fits : factors ≤ dialect.mostFactors)
    (factorGuided : ∀ enclosures, reader.Guided dialect (factors + 1) enclosures (Free (lone? "^")))
    {tokens : List (Token ν)} (terminated : Token.Terminated tokens)
    (noSign : Free (lone? "-") tokens) :
    Traced dialect ⟨.operand, factors, enclosures⟩
      (fun _ progress => progress = ⟨.operator, factors, enclosures⟩) (fun _ => True) tokens
      (primary dialect reader tokens) := by
  unfold primary
  split
  · next value position rest =>
    exact Traced.cons (Progress.after?_number fits value)
      (.pure _ rfl (terminated.of_cons nofun) trivial)
  · next name position opening place rest =>
    exact application_traced fits factorGuided name opening position place terminated
  · next name position rest noOpening =>
    exact loneName_traced fits name position terminated noOpening
  · next opening position rest =>
    refine Traced.cons (Progress.after?_group fits opening) ?_
    have inGroup := sum_guided (factorGuided (.group factors :: enclosures)) rfl
    refine (inGroup (terminated.of_cons nofun)).bind ?_
    rintro inner _ behind ⟨last, rfl⟩ _ behindTerminated free
    refine closed_traced (.closing _) behindTerminated free nofun ?_
    intro closing closingPlace behind behindTerminated
    exact Traced.cons (Progress.after?_closing rfl closing) (.pure _ rfl behindTerminated trivial)
  · next noNumber noCall noName noGroup =>
    refine Traced.refuse .expression terminated (fun _ => fits) ?_
    rintro ⟨symbol, position⟩ rest rfl
    refine ⟨?_, fun _ => nofun, .operand _ symbol⟩
    cases symbol with
    | number value => exact absurd rfl (noNumber value position rest)
    | identifier name => exact absurd rfl (noName name position rest)
    | leftParen opening => exact absurd rfl (noGroup opening position rest)
    | operator sign =>
      refine if_neg ?_
      rintro rfl
      exact Option.some_ne_none _ noSign
    | _ => rfl

/-- An operand without a sign in front takes a power behind it. -/
theorem power_traced (fits : factors ≤ dialect.mostFactors)
    (factorGuided : ∀ enclosures, reader.Guided dialect (factors + 1) enclosures (Free (lone? "^")))
    {tokens : List (Token ν)} (terminated : Token.Terminated tokens)
    (noSign : Free (lone? "-") tokens) :
    Traced dialect ⟨.operand, factors, enclosures⟩ (BehindOperand enclosures) (Free (lone? "^"))
      tokens (power dialect reader tokens) := by
  refine (primary_traced fits factorGuided terminated noSign).bind ?_
  rintro base _ rest rfl - restTerminated -
  dsimp only
  split
  · next afterSign found =>
    obtain ⟨position, rfl⟩ := operatorAt?_lone restTerminated.spelled found
    refine Traced.cons Progress.after?_power ?_
    refine (factorGuided enclosures (restTerminated.of_cons nofun)).bind ?_
    rintro exponent _ behind ⟨last, rfl⟩ _ behindTerminated noPower
    exact .pure _ ⟨last, rfl⟩ behindTerminated noPower
  · next noPower => exact .pure _ ⟨factors, rfl⟩ restTerminated noPower

end Levels

/-- A factor stands for an operand and leaves no power behind. With the factors that it lies in it
uses the levels up to the limit. -/
theorem factor_guided (levels : Nat) {factors : Nat} (enclosures : List Enclosure)
    (used : factors + levels = dialect.mostFactors + 1) :
    (factor dialect levels).Guided dialect factors enclosures (Free (lone? "^")) := by
  induction levels generalizing factors enclosures with
  | zero =>
    intro tokens terminated
    obtain ⟨token, rest, rfl⟩ := terminated.exists_cons
    exact .error (.tooDeep (List.nil_append _).symm rfl (by omega))
  | succ levels inductionHypothesis =>
    intro tokens terminated
    have fits : factors ≤ dialect.mostFactors := by omega
    have deeper (enclosures : List Enclosure) :
        (factor dialect levels).Guided dialect (factors + 1) enclosures (Free (lone? "^")) :=
      inductionHypothesis enclosures (by omega)
    unfold factor
    split
    · next afterSign found =>
      obtain ⟨position, rfl⟩ := operatorAt?_lone terminated.spelled found
      refine Traced.cons (Progress.after?_minus fits) ?_
      refine (deeper enclosures (terminated.of_cons nofun)).bind ?_
      rintro operand _ behind ⟨last, rfl⟩ _ behindTerminated noPower
      exact .pure _ ⟨last, rfl⟩ behindTerminated noPower
    · next noSign => exact power_traced fits deeper terminated noSign

/-- Behind a whole formula only the end of the input has a place. -/
theorem blames_of_finished {factors : Nat} {tokens : List (Token ν)} {fault : ParseFault ν}
    (terminated : Token.Terminated tokens) (free : FreeOfOperators tokens)
    (refused : finished tokens = .error fault) :
    fault.Blames dialect ⟨.operator, factors, []⟩ tokens := by
  unfold finished at refused
  split at refused
  · cases refused
  · next sign position rest =>
    cases refused
    exact .of_head fits_operator
      (Outlook.refuses_behind_operand (.finish sign) terminated free (.inl rfl) nofun nofun)
  · next noEnd noClosing =>
    obtain ⟨⟨symbol, position⟩, rest, rfl⟩ := terminated.exists_cons
    cases refused
    have other (sign : String) : symbol ≠ .rightParen sign := by
      rintro rfl
      exact noClosing sign position rest rfl
    refine .of_head fits_operator
      (Outlook.refuses_behind_operand (.continuation other) terminated free (.inl rfl) nofun ?_)
    rintro rfl
    exact absurd rfl (noEnd position rest)

/-- A list of lexed tokens is refused at the first one without a place. -/
theorem blames_of_parse {tokens : List (Token ν)} {fault : ParseFault ν}
    (terminated : Token.Terminated tokens) (refused : parse dialect tokens = .error fault) :
    fault.Blames dialect .start tokens := by
  rw [parse, if_pos terminated.isTerminated] at refused
  have factorGuided : (factor dialect dialect.mostFactors).Guided dialect
      (Progress.sumFactors []) [] (Free (lone? "^")) :=
    factor_guided _ [] (Nat.add_comm _ _)
  have traced := sum_guided factorGuided rfl terminated
  unfold Dialect.mostFactors at traced
  rcases bind_eq_error refused with sumRefused | ⟨⟨tree, rest⟩, sumRead, continued⟩
  · rw [sumRefused] at traced
    cases traced with
    | error blames => exact blames
  · rw [sumRead] at traced
    cases traced with
    | ok _ same read suits restTerminated free =>
      obtain ⟨factors, rfl⟩ := suits
      subst same
      rcases bind_eq_error continued with finishRefused | ⟨_, _, returned⟩
      · exact (blames_of_finished restTerminated free finishRefused).append read
      · cases returned

/-- A fault about the order of the tokens blames the first one that may not come next. -/
theorem parse_misplaced {tokens : List (Token ν)} {fault : ParseFault ν}
    (terminated : Token.Terminated tokens) (refused : parse dialect tokens = .error fault)
    (syntactic : fault.IsSyntactic) :
    ∃ taken token rest outlook expectation, tokens = taken ++ token :: rest ∧
      Outlook.start.afterAll? (taken.map Token.symbol) = some outlook ∧
      outlook.Refuses expectation token.symbol ∧
      fault = .unexpected expectation token.symbol token.position :=
  (blames_of_parse terminated refused).exists_of_isSyntactic syntactic

/-- The parser refuses a text at the first token with which it can no longer be continued to a
formula. In front of that token it still can, with symbols that the lexer could have read; and if
that token is the end of the input, what stands in front of it is no formula. -/
theorem parse_refuses_first_misfit (dialect : Dialect ν) {text : String} {tokens : List (Token ν)}
    {fault : ParseFault ν} (lexed : Token.tokenize text = .ok tokens)
    (refused : parse dialect tokens = .error fault) (syntactic : fault.IsSyntactic) :
    ∃ (count : Nat) (token : Token ν) (expectation : Expectation),
      tokens[count]? = some token ∧
      fault = .unexpected expectation token.symbol token.position ∧
      (∃ rest, (∀ symbol ∈ rest, symbol.Lexed) ∧
        Shaped .sum ((tokens.take count).map Token.symbol ++ rest)) ∧
      (∀ rest, ¬ Shaped .sum ((tokens.take (count + 1)).map Token.symbol ++ rest)) ∧
      (token.symbol = .endOfInput → ¬ Shaped .sum ((tokens.take count).map Token.symbol)) := by
  obtain ⟨taken, token, rest, outlook, expectation, rfl, reached, refuses, same⟩ :=
    parse_misplaced (.of_tokenize lexed) refused syntactic
  refine ⟨taken.length, token, expectation, by simp, same, ?_, ?_, ?_⟩
  · rw [List.take_left]
    exact ⟨outlook.completion, outlook.completion_lexed, Outlook.shaped_append_completion reached⟩
  · intro others shaped
    rw [List.take_length_add_append, List.map_append] at shaped
    obtain ⟨later, laterReached⟩ := Outlook.exists_shaped_append_iff.1 ⟨others, shaped⟩
    simp [reached, refuses.noNext] at laterReached
  · intro isEnd shaped
    rw [List.take_left, Outlook.shaped_sum_iff, reached] at shaped
    exact refuses.noEnd isEnd (Option.some.inj shaped)

/-- A comma has no place in a group, though the group stands in a call. -/
theorem parse_refuses_comma_in_group :
    let text := "x*log(x,(x,x))"
    let tokens : List (Token Float) := [⟨.identifier "x", 0⟩, ⟨.operator "*", 1⟩,
      ⟨.identifier "log", 2⟩, ⟨.leftParen "(", 5⟩, ⟨.identifier "x", 6⟩, ⟨.comma ",", 7⟩,
      ⟨.leftParen "(", 8⟩, ⟨.identifier "x", 9⟩, ⟨.comma ",", 10⟩, ⟨.identifier "x", 11⟩,
      ⟨.rightParen ")", 12⟩, ⟨.rightParen ")", 13⟩, ⟨.endOfInput, 14⟩]
    let fault : ParseFault Float := .unexpected .closing (.comma ",") 10
    Token.tokenize text = .ok tokens ∧ parse .standard tokens = .error fault ∧
      fault.IsSyntactic ∧ ∃ (count : Nat) (token : Token Float) (expectation : Expectation),
        tokens[count]? = some token ∧
        fault = .unexpected expectation token.symbol token.position ∧
        (∃ rest, (∀ symbol ∈ rest, symbol.Lexed) ∧
          Shaped .sum ((tokens.take count).map Token.symbol ++ rest)) ∧
        (∀ rest, ¬ Shaped .sum ((tokens.take (count + 1)).map Token.symbol ++ rest)) ∧
        (token.symbol = .endOfInput → ¬ Shaped .sum ((tokens.take count).map Token.symbol)) := by
  intro text tokens fault
  have lexed : Token.tokenize text = .ok tokens := by
    simp only [text]
    rfl
  have refused : parse .standard tokens = .error fault := rfl
  have syntactic : fault.IsSyntactic := .inl rfl
  exact ⟨lexed, refused, syntactic, parse_refuses_first_misfit .standard lexed refused syntactic⟩

end Expr

end Tangent
