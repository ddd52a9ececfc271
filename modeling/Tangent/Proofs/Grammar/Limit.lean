import Tangent.Fault.Basic
import Tangent.Number.Binary64
import Tangent.Proofs.Grammar.Paired

/-!
# The limit on nesting

Formulas are refused for their nesting under small limits. Apart from that the limit changes
nothing: raising it gives the same tree or the same fault, once the nesting is no longer refused. A
level takes a token at least, so as many levels as there are tokens are always enough.
-/

namespace Tangent

variable {ν : Type}

/-- What runs under different limits have in common: the positions, and no limit. -/
def Pairing.underLimits (ν : Type) (IsExcuse : ParseFault ν → Prop) : Pairing ν where
  Places _ position position' := position = position'
  IsLimit _ := False
  IsExcuse := IsExcuse

/-- Faults that name no limit are no faults about the nesting. -/
theorem Pairing.Faults.of_underLimits {IsExcuse : ParseFault ν → Prop} {fault fault' : ParseFault ν}
    (paired : (underLimits ν IsExcuse).Faults fault fault') :
    fault = fault' ∧ fault.kind? ≠ some .tooDeep := by
  cases paired with
  | @unexpected expectation found position _ limited places =>
    refine ⟨congrArg _ places, ?_⟩
    cases expectation with
    | nesting limit => exact (limited limit rfl).elim
    | closing | separator => cases found <;> exact nofun
    | _ => exact nofun
  | unknownFunction places => exact ⟨congrArg _ places, nofun⟩
  | wrongArgumentCount places => exact ⟨congrArg _ places, nofun⟩

namespace Expr

variable {dialect : Dialect ν} {tokens : List (Token ν)} {limit larger : Int}

/-- A larger limit gives the same, unless the smaller one refuses the nesting. -/
theorem parse_eq_of_limit_le (le : limit ≤ larger)
    (shallow : ∀ fault, parse { dialect with maxNesting := limit } tokens = .error fault →
      fault.kind? ≠ some .tooDeep) :
    parse { dialect with maxNesting := limit } tokens =
      parse { dialect with maxNesting := larger } tokens := by
  cases terminated : isTerminated tokens with
  | false => simp [parse, terminated]
  | true =>
    let pairing := Pairing.underLimits ν fun fault => fault.kind? = some .tooDeep
    have paired : pairing.Tokens tokens tokens := .refl terminated fun _ _ => rfl
    have constants : ({ dialect with maxNesting := larger } : Dialect ν).constants =
        ({ dialect with maxNesting := limit } : Dialect ν).constants := rfl
    have levels : larger.toNat = limit.toNat + (larger.toNat - limit.toNat) := by omega
    have atLimit (most : Nat) : pairing.Phrases most (factor { dialect with maxNesting := limit } 0)
        (factor { dialect with maxNesting := larger } (larger.toNat - limit.toNat)) := by
      intro rest rest' paired _
      cases paired <;> exact .excused rfl _
    have outcomes : pairing.Outcomes Eq (parse { dialect with maxNesting := limit } tokens)
        (parse { dialect with maxNesting := larger } tokens) :=
      parse_paired constants paired levels (.inr atLimit)
    generalize parse { dialect with maxNesting := larger } tokens = result at outcomes ⊢
    generalize parse { dialect with maxNesting := limit } tokens = first at outcomes shallow ⊢
    cases outcomes with
    | ok same => rw [same]
    | error paired => rw [paired.of_underLimits.1]
    | excused excuse => exact absurd excuse (shallow _ rfl)

/-- As many levels as there are tokens are enough. -/
theorem parse_shallow (enough : tokens.length ≤ dialect.maxNesting.toNat) {fault : ParseFault ν}
    (refused : parse dialect tokens = .error fault) : fault.kind? ≠ some .tooDeep := by
  cases terminated : isTerminated tokens with
  | false =>
    rw [parse, terminated] at refused
    cases refused
    intro isDeep
    cases isDeep
  | true =>
    let pairing := Pairing.underLimits ν fun _ => False
    have paired : pairing.Tokens tokens tokens := .refl terminated fun _ _ => rfl
    have outcomes := parse_paired rfl paired (Nat.add_zero _).symm (.inl enough)
    rw [refused] at outcomes
    cases outcomes with
    | error paired => exact paired.of_underLimits.2
    | excused excuse => exact excuse.elim

/-- The limit on nesting turns outcomes into refusals of the nesting, and does nothing else. Of two
limits the smaller one refuses the nesting, or both give the same tree or the same fault; and no
limit refuses the nesting that is at least the number of tokens. -/
theorem parse_under_limits (dialect : Dialect ν) (tokens : List (Token ν)) :
    (∀ limit larger : Int, limit ≤ larger →
      (∃ fault, parse { dialect with maxNesting := limit } tokens = .error fault ∧
        fault.kind? = some .tooDeep) ∨
      parse { dialect with maxNesting := limit } tokens =
        parse { dialect with maxNesting := larger } tokens) ∧
    ∀ limit : Int, tokens.length ≤ limit → ∀ fault,
      parse { dialect with maxNesting := limit } tokens = .error fault →
        fault.kind? ≠ some .tooDeep := by
  constructor
  · intro limit larger le
    by_cases deep : ∃ fault, parse { dialect with maxNesting := limit } tokens = .error fault ∧
        fault.kind? = some .tooDeep
    · exact .inl deep
    · exact .inr (parse_eq_of_limit_le le fun fault refused isDeep =>
        deep ⟨fault, refused, isDeep⟩)
  · intro limit enough fault refused
    have levels : tokens.length ≤ limit.toNat := by omega
    exact parse_shallow levels refused

/-- An open group behind a minus is refused for its nesting under two levels, and from three levels
on for the parenthesis that is missing. -/
theorem parse_under_limits_of_open_group :
    let tokens : List (Token Float) := [⟨.operator "-", 0⟩, ⟨.leftParen "(", 1⟩,
      ⟨.identifier "x", 2⟩, ⟨.endOfInput, 3⟩]
    let outcome (limit : Int) := parse ({ Dialect.standard with maxNesting := limit }) tokens
    outcome 2 = .error (.unexpected (.nesting 2) (.identifier "x") 2) ∧
      outcome 3 = .error (.unexpected .closing .endOfInput 3) ∧
      (∀ larger, 3 ≤ larger → outcome larger = outcome 3) ∧
      ∀ limit, 4 ≤ limit → ∀ fault, outcome limit = .error fault →
        fault.kind? ≠ some .tooDeep := by
  intro tokens outcome
  have atThree : outcome 3 = .error (.unexpected .closing .endOfInput 3) := rfl
  obtain ⟨monotone, enough⟩ := parse_under_limits (Dialect.standard : Dialect Float) tokens
  refine ⟨rfl, atThree, fun larger le => ?_, enough⟩
  rcases monotone 3 larger le with ⟨fault, refused, isDeep⟩ | same
  · cases atThree.symm.trans refused
    cases isDeep
  · exact same.symm

end Expr

end Tangent
