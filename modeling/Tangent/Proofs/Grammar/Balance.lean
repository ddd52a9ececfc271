import Tangent.Proofs.Grammar.Refusal

/-!
# Unbalanced parentheses

The parser calls a parenthesis unbalanced from the token it stands at and from what it was reading
alone. That agrees with the shape of everything in front of the token: a closing parenthesis is
unbalanced behind a complete formula, and the end of the input where closing parentheses are all
that a complete formula lacks. What was due at the token decides both, because an outlook tells
what was due.
-/

namespace Tangent

open Tangent.Expr

variable {ν : Type}

namespace Outlook

variable {outlook : Outlook} {word : List (Symbol ν)}

/-- Behind an operand that is due, closing parentheses cannot stand. -/
theorem after?_closing_eq_some_iff {closing : String} {later : Outlook} :
    outlook.after? (.rightParen closing : Symbol ν) = some later ↔
      ∃ bracket, outlook = ⟨.operator, bracket :: later.brackets⟩ ∧ later.awaited = .operator := by
  constructor
  · intro next
    match outlook, next with
    | ⟨.operator, bracket :: brackets⟩, rfl => exact ⟨bracket, rfl, rfl⟩
  · rintro ⟨bracket, rfl, awaited⟩
    rw [after?_closing, ← awaited]

/-- Some closing parentheses complete a formula exactly where an operand is read and a parenthesis
is open. -/
theorem exists_shaped_closed_iff (reached : start.afterAll? word = some outlook) :
    (∃ closings > 0,
        Shaped .sum (word ++ List.replicate closings (.rightParen ")" : Symbol ν))) ↔
      outlook.awaited = .operator ∧ outlook.brackets ≠ [] := by
  simp only [shaped_sum_iff, afterAll?_append, reached, Option.bind_some]
  constructor
  · rintro ⟨closings, positive, completed⟩
    obtain ⟨further, rfl⟩ := Nat.exists_eq_succ_of_ne_zero (Nat.ne_of_gt positive)
    rw [List.replicate_succ, afterAll?_cons] at completed
    obtain ⟨later, next, _⟩ := Option.bind_eq_some_iff.1 completed
    obtain ⟨bracket, rfl, _⟩ := after?_closing_eq_some_iff.1 next
    exact ⟨rfl, nofun⟩
  · rintro ⟨awaited, opened⟩
    obtain ⟨_, brackets⟩ := outlook
    subst awaited
    exact ⟨brackets.length, List.length_pos_iff.2 opened, afterAll?_replicate brackets⟩

/-- What is due decides whether a refused symbol is called an unbalanced parenthesis. -/
theorem Expects.kind?_eq_unbalanced_iff {symbol : Symbol ν} {expectation : Expectation}
    (expects : outlook.Expects symbol expectation) (position : Int) :
    (ParseFault.unexpected expectation symbol position).kind? = some .unbalancedParenthesis ↔
      (∃ closing, symbol = .rightParen closing) ∧ outlook = complete ∨
        symbol = .endOfInput ∧ outlook.awaited = .operator ∧ outlook.brackets ≠ [] := by
  cases expects with
  | operand brackets => simp [ParseFault.kind?, complete]
  | opening brackets => simp [ParseFault.kind?, complete]
  | closing brackets => cases symbol <;> simp [ParseFault.kind?, complete]
  | separator brackets => cases symbol <;> simp [ParseFault.kind?, complete]
  | finish closing => simp [ParseFault.kind?]
  | continuation noClosing => simp [ParseFault.kind?, complete, noClosing]

end Outlook

variable [Number ν]

namespace Expr

/-- A fault about the order of the tokens of a text blames one of them, and that is called an
unbalanced parenthesis exactly in two cases: it is a closing parenthesis behind a complete formula,
or it is the end of the input and one closing parenthesis or more would complete the formula. -/
theorem parse_unbalanced_iff (dialect : Dialect ν) {text : String} {tokens : List (Token ν)}
    {fault : ParseFault ν} (lexed : Token.tokenize text = .ok tokens)
    (refused : parse dialect tokens = .error fault) (syntactic : fault.IsSyntactic) :
    ∃ (count : Nat) (token : Token ν) (expectation : Expectation),
      tokens[count]? = some token ∧
      fault = .unexpected expectation token.symbol token.position ∧
      (∀ (index : Nat) (other : Token ν), tokens[index]? = some other →
        other.position = token.position → index = count) ∧
      (fault.kind? = some .unbalancedParenthesis ↔
        (∃ closing, token.symbol = .rightParen closing) ∧
            Shaped .sum ((tokens.take count).map Token.symbol) ∨
          token.symbol = .endOfInput ∧
            ∃ closings > 0, Shaped .sum ((tokens.take count).map Token.symbol ++
              List.replicate closings (.rightParen ")"))) := by
  obtain ⟨taken, token, rest, outlook, expectation, rfl, reached, refuses, same⟩ :=
    parse_misplaced (.of_tokenize lexed) refused syntactic
  have found : (taken ++ token :: rest)[taken.length]? = some token := by simp
  refine ⟨taken.length, token, expectation, found, same, ?_, ?_⟩
  · intro index other otherFound samePlace
    exact Token.index_eq_of_position_eq lexed otherFound found samePlace
  · rw [List.take_left, Outlook.shaped_sum_iff, Outlook.exists_shaped_closed_iff reached, reached,
      Option.some_inj, same]
    exact refuses.expects.kind?_eq_unbalanced_iff token.position

/-- Three parentheses of two kinds are left open, and three closing ones complete the formula. -/
theorem parse_unbalanced_behind_open_call :
    let text := "2*(x^log(x,(-3"
    let tokens : List (Token Float) := [⟨.number 2, 0⟩, ⟨.operator "*", 1⟩, ⟨.leftParen "(", 2⟩,
      ⟨.identifier "x", 3⟩, ⟨.operator "^", 4⟩, ⟨.identifier "log", 5⟩, ⟨.leftParen "(", 8⟩,
      ⟨.identifier "x", 9⟩, ⟨.comma ",", 10⟩, ⟨.leftParen "(", 11⟩, ⟨.operator "-", 12⟩,
      ⟨.number 3, 13⟩, ⟨.endOfInput, 14⟩]
    let fault : ParseFault Float := .unexpected .closing .endOfInput 14
    Token.tokenize text = .ok tokens ∧ parse .standard tokens = .error fault ∧
      fault.IsSyntactic ∧ ∃ (count : Nat) (token : Token Float) (expectation : Expectation),
        tokens[count]? = some token ∧
        fault = .unexpected expectation token.symbol token.position ∧
        (∀ (index : Nat) (other : Token Float), tokens[index]? = some other →
          other.position = token.position → index = count) ∧
        (fault.kind? = some .unbalancedParenthesis ↔
          (∃ closing, token.symbol = .rightParen closing) ∧
              Shaped .sum ((tokens.take count).map Token.symbol) ∨
            token.symbol = .endOfInput ∧
              ∃ closings > 0, Shaped .sum ((tokens.take count).map Token.symbol ++
                List.replicate closings (.rightParen ")"))) := by
  intro text tokens fault
  have lexed : Token.tokenize text = .ok tokens := by
    simp only [text]
    rfl
  have refused : parse .standard tokens = .error fault := rfl
  have syntactic : fault.IsSyntactic := .inr rfl
  exact ⟨lexed, refused, syntactic, parse_unbalanced_iff .standard lexed refused syntactic⟩

end Expr

end Tangent
