import Tangent.Proofs.Grammar.Paired

/-!
# Where the parser refuses

The parser copies the positions of tokens into its faults and never looks at them. So moving all
tokens moves the faults and changes nothing else.
-/

namespace Tangent

variable {ν : Type} {dialect : Dialect ν} {tokens : List (Token ν)}

namespace ParseFault

/-- The same fault at another place. -/
def moved (move : Int → Int) : ParseFault ν → ParseFault ν
  | unexpected expectation found position => unexpected expectation found (move position)
  | unknownFunction name position => unknownFunction name (move position)
  | wrongArgumentCount function count position => wrongArgumentCount function count (move position)
  | unterminated => unterminated

end ParseFault

namespace Expr

theorem isTerminated_moved (move : Int → Int) :
    isTerminated (tokens.map (Token.moved move)) = isTerminated tokens := by
  rw [isTerminated, isTerminated, List.getLast?_map]
  rcases tokens.getLast? with _ | ⟨symbol, position⟩
  · rfl
  · cases symbol <;> rfl

/-- Runs with the same limit are paired where they have no level left. -/
theorem refusal_paired {pairing : Pairing ν} (limits : ∀ limit, pairing.IsLimit limit)
    (most : Nat) : pairing.Phrases most (factor dialect 0) (factor dialect 0) :=
  fun _ _ paired _ => refuse_paired paired fun limit _ => limits limit

/-- Moving the tokens moves the faults and changes nothing else. -/
theorem parse_moved (move : Int → Int) (tokens : List (Token ν)) :
    parse dialect (tokens.map (Token.moved move)) =
      (parse dialect tokens).mapError (ParseFault.moved move) := by
  cases terminated : isTerminated tokens with
  | false =>
    rw [parse, parse, isTerminated_moved, terminated]
    rfl
  | true =>
    let pairing : Pairing ν :=
      ⟨fun _ position position' => position' = move position, fun _ => True, fun _ => False⟩
    have paired : pairing.Tokens tokens (tokens.map (Token.moved move)) :=
      .of_moved move terminated fun _ _ => rfl
    have outcomes := parse_paired (rfl : dialect.constants = dialect.constants) paired
      (Nat.add_zero _).symm (.inr (refusal_paired fun _ => trivial))
    generalize parse dialect (tokens.map (Token.moved move)) = result at outcomes ⊢
    generalize parse dialect tokens = first at outcomes ⊢
    cases outcomes with
    | ok same =>
      rw [same]
      rfl
    | error paired =>
      cases paired with
      | unexpected _ places | unknownFunction places | wrongArgumentCount places =>
        rw [places]
        rfl
    | excused excuse => exact excuse.elim

end Expr

end Tangent
