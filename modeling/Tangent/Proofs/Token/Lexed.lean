import Tangent.Proofs.Token.Lexemes

/-!
# Lexed symbols

What the lexer can make of a text: numbers that decimals stand for, names, and the signs of the
grammar, in front of a single end of the input.
-/

namespace Tangent

variable {ν : Type} [Number ν]

/-- Whether the lexer can produce a symbol in front of the end of the input. -/
def Symbol.Lexed : Symbol ν → Prop
  | number value => ∃ decimal, value = Arithmetic.ofDecimal decimal
  | identifier name => Token.isName name = true
  | operator sign => ∃ operator : BinaryOperator, sign = operator.sign
  | leftParen sign => sign = "("
  | rightParen sign => sign = ")"
  | comma sign => sign = ","
  | endOfInput => False

namespace Token

/-- The symbols of lexemes are lexed. -/
theorem Lexeme.lexed {text : List Char} {symbol : Symbol ν} (isLexeme : Lexeme text symbol) :
    symbol.Lexed := by
  cases isLexeme with
  | number denotes => exact ⟨_, rfl⟩
  | name named => exact named
  | operator operator => exact ⟨operator, rfl⟩
  | opening | closing | comma => rfl

/-- The tokens of a text are lexed, up to the end of the input behind them. -/
theorem scan_lexed {position taken : Nat} {text : List Char} {tokens : List (Token ν)}
    (scanned : scan position taken text = .ok tokens) :
    ∃ front place, tokens = front ++ [⟨.endOfInput, place⟩] ∧
      ∀ token ∈ front, token.symbol.Lexed := by
  induction text generalizing position taken tokens with
  | nil =>
    cases taken <;> cases scanned <;> exact ⟨[], position, rfl, nofun⟩
  | cons c rest inductionHypothesis =>
    cases taken with
    | succ taken => exact inductionHypothesis scanned
    | zero =>
      rw [scan] at scanned
      split at scanned
      · exact inductionHypothesis scanned
      · split at scanned
        · next symbol length found =>
          obtain ⟨others, othersScanned, same⟩ := exists_of_bind_eq_ok scanned
          cases same
          obtain ⟨front, place, rfl, lexed⟩ := inductionHypothesis othersScanned
          refine ⟨⟨symbol, position⟩ :: front, place, rfl, ?_⟩
          exact List.forall_mem_cons.2 ⟨(lexeme_of_lexeme? found).lexed, lexed⟩
        · cases scanned

/-- Tokens stand behind each other, and none in front of where the text starts. -/
theorem scan_ascending {position taken : Nat} {text : List Char} {tokens : List (Token ν)}
    (scanned : scan position taken text = .ok tokens) :
    (∀ token ∈ tokens, (position : Int) ≤ token.position) ∧
      tokens.Pairwise fun first second => first.position < second.position := by
  induction text generalizing position taken tokens with
  | nil => cases taken <;> cases scanned <;> simp
  | cons c rest inductionHypothesis =>
    have later {taken : Nat} {others : List (Token ν)}
        (othersScanned : scan (position + 1) taken rest = .ok others) :
        (∀ token ∈ others, (position : Int) < token.position) ∧
          others.Pairwise fun first second => first.position < second.position := by
      obtain ⟨behind, ascending⟩ := inductionHypothesis othersScanned
      exact ⟨fun token present => by have := behind token present; omega, ascending⟩
    have skipped {taken : Nat} (same : scan (position + 1) taken rest = .ok tokens) :
        (∀ token ∈ tokens, (position : Int) ≤ token.position) ∧
          tokens.Pairwise fun first second => first.position < second.position := by
      obtain ⟨behind, ascending⟩ := later same
      exact ⟨fun token present => Int.le_of_lt (behind token present), ascending⟩
    cases taken with
    | succ taken => exact skipped scanned
    | zero =>
      rw [scan] at scanned
      split at scanned
      · exact skipped scanned
      · split at scanned
        · next symbol length found =>
          obtain ⟨others, othersScanned, same⟩ := exists_of_bind_eq_ok scanned
          cases same
          obtain ⟨behind, ascending⟩ := later othersScanned
          refine ⟨List.forall_mem_cons.2 ⟨Int.le_refl _, fun token present => ?_⟩,
            List.pairwise_cons.2 ⟨behind, ascending⟩⟩
          exact Int.le_of_lt (behind token present)
        · cases scanned

/-- No two tokens of a text stand at the same place. -/
theorem index_eq_of_position_eq {text : String} {tokens : List (Token ν)}
    (lexed : tokenize text = .ok tokens) {first second : Nat} {token other : Token ν}
    (firstFound : tokens[first]? = some token) (secondFound : tokens[second]? = some other)
    (same : token.position = other.position) : first = second := by
  have ascending := List.pairwise_iff_getElem.1 (scan_ascending lexed).2
  obtain ⟨firstInside, rfl⟩ := List.getElem?_eq_some_iff.1 firstFound
  obtain ⟨secondInside, rfl⟩ := List.getElem?_eq_some_iff.1 secondFound
  apply Nat.le_antisymm
  · apply Nat.le_of_not_lt
    intro less
    exact absurd same.symm (Int.ne_of_lt (ascending second first secondInside firstInside less))
  · apply Nat.le_of_not_lt
    intro less
    exact absurd same (Int.ne_of_lt (ascending first second firstInside secondInside less))

end Token

end Tangent
