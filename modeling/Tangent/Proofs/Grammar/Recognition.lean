import Tangent.Proofs.Grammar.Completeness

/-!
# The parser accepts its grammar

A token list is accepted exactly when the symbols in front of its first end of input derive a tree
as a sum, by a derivation that nests no more factors than the dialect allows. The tree is the one
that is derived, and there is only one.
-/

namespace Tangent

variable {ν : Type} {dialect : Dialect ν}

/-- Whether a symbol marks the end of the input. -/
def Symbol.isEnd : Symbol ν → Bool
  | endOfInput => true
  | _ => false

/-- The symbols in front of the first end of the input. -/
def Token.formula (tokens : List (Token ν)) : List (Symbol ν) :=
  (tokens.map Token.symbol).takeWhile fun symbol => !symbol.isEnd

namespace Expr

open Token

/-- A list that is closed with the end of the input is terminated. -/
theorem isTerminated_append (front : List (Token ν)) (position : Int) :
    isTerminated (front ++ [⟨.endOfInput, position⟩]) = true := by
  simp [isTerminated]

/-- What is finished is at the end of the input. -/
theorem finished_eq_ok {tokens : List (Token ν)} (accepted : finished tokens = .ok ()) :
    ∃ position rest, tokens = ⟨.endOfInput, position⟩ :: rest := by
  unfold finished at accepted
  split at accepted
  · next position rest => exact ⟨position, rest, rfl⟩
  · cases accepted
  · cases accepted

/-- A list with an end of input is the formula in front of it, the end, and what is behind. -/
theorem exists_formula_append {front : List (Token ν)} (position : Int) :
    ∃ before place after,
      front ++ [⟨.endOfInput, position⟩] = before ++ ⟨.endOfInput, place⟩ :: after ∧
      before.map Token.symbol = formula (front ++ [⟨.endOfInput, position⟩]) := by
  induction front with
  | nil => exact ⟨[], position, [], rfl, rfl⟩
  | cons token front inductionHypothesis =>
    obtain ⟨symbol, place⟩ := token
    obtain ⟨before, other, after, same, spells⟩ := inductionHypothesis
    cases symbol with
    | endOfInput => exact ⟨[], place, front ++ [⟨.endOfInput, position⟩], rfl, rfl⟩
    | _ =>
      refine ⟨⟨_, place⟩ :: before, other, after, by rw [List.cons_append, same]; rfl, ?_⟩
      rw [List.map_cons, spells]
      rfl

/-- The formula of a list is what stands in front of an end of input that follows no other. -/
theorem formula_append {before : List (Token ν)} {place : Int} {after : List (Token ν)}
    (noEnd : Symbol.endOfInput ∉ before.map Token.symbol) :
    formula (before ++ ⟨.endOfInput, place⟩ :: after) = before.map Token.symbol := by
  have all : ∀ symbol ∈ before.map Token.symbol, (!symbol.isEnd) = true := by
    intro symbol present
    cases symbol with
    | endOfInput => exact absurd present noEnd
    | _ => rfl
  rw [formula, List.map_append, List.takeWhile_append_of_pos all]
  simp [Symbol.isEnd]

/-- A terminated list is parsed by reading a sum up to the end of the input. -/
theorem parse_eq_ok_iff {tokens : List (Token ν)} {tree : Expr ν}
    (terminated : isTerminated tokens = true) :
    parse dialect tokens = .ok tree ↔
      ∃ rest, sum (factor dialect dialect.maxNesting.toNat) tokens = .ok (tree, rest) ∧
        finished rest = .ok () := by
  simp only [parse, terminated, if_true]
  constructor
  · intro parsed
    obtain ⟨⟨read, rest⟩, sumRead, continued⟩ := exists_of_bind_eq_ok parsed
    obtain ⟨_, ended, returned⟩ := exists_of_bind_eq_ok continued
    cases returned
    exact ⟨rest, sumRead, ended⟩
  · rintro ⟨rest, sumRead, ended⟩
    rw [sumRead]
    change (finished rest >>= fun _ => pure tree) = _
    rw [ended]
    rfl

section Lists

variable {front : List (Token ν)} {position : Int} {tree : Expr ν}

/-- Behind spelled tokens the end of the input is spelled. -/
theorem spelled_append (spelled : Spelled front) (position : Int) :
    Spelled (front ++ [⟨.endOfInput, position⟩]) := by
  intro token present
  rcases List.mem_append.1 present with inFront | last
  · exact spelled token inFront
  · rw [List.mem_singleton.1 last]
    simp

/-- What the parser accepts is a sum of the grammar, nested within the limit. -/
theorem exists_derives_of_parse (spelled : Spelled front)
    (parsed : parse dialect (front ++ [⟨.endOfInput, position⟩]) = .ok tree) :
    ∃ nesting : Nat, nesting ≤ dialect.maxNesting ∧
      Derives dialect .sum (formula (front ++ [⟨.endOfInput, position⟩])) tree nesting := by
  obtain ⟨rest, read, ended⟩ := (parse_eq_ok_iff (isTerminated_append front position)).1 parsed
  obtain ⟨place, after, rfl⟩ := finished_eq_ok ended
  obtain ⟨before, nesting, same, within, derived⟩ :=
    sum_sound (factor_sound dialect.maxNesting.toNat) (spelled_append spelled position) read
  have positive := derived.nesting_pos (.inl rfl)
  refine ⟨nesting, by omega, ?_⟩
  rwa [same, formula_append fun present => (derived.ordinary _ present).1 rfl]

/-- A sum of the grammar that is nested within the limit is accepted. -/
theorem parse_eq_ok_of_derives (spelled : Spelled front) {nesting : Nat}
    (within : nesting ≤ dialect.maxNesting)
    (derived : Derives dialect .sum (formula (front ++ [⟨.endOfInput, position⟩])) tree nesting) :
    parse dialect (front ++ [⟨.endOfInput, position⟩]) = .ok tree := by
  have allSpelled := spelled_append spelled position
  rw [parse_eq_ok_iff (isTerminated_append front position)]
  obtain ⟨before, place, after, same, spells⟩ := exists_formula_append position
  rw [same] at allSpelled ⊢
  have ends : EndsArguments (⟨.endOfInput, place⟩ :: after) :=
    .of_head allSpelled.of_append (by simp) (by simp) (by simp)
  have read := derived.reads.sum dialect.maxNesting.toNat spells ends.toEndsSum
  exact ⟨⟨.endOfInput, place⟩ :: after, read.within (by omega), rfl⟩

end Lists

/-- The parser accepts exactly the sums of the grammar that are nested within the limit, and gives
the only tree that such a sum derives. -/
theorem parse_eq_ok_iff_derives (dialect : Dialect ν) (front : List (Token ν)) (position : Int)
    (spelled : Spelled front) :
    (∀ tree, parse dialect (front ++ [⟨.endOfInput, position⟩]) = .ok tree ↔
      ∃ nesting : Nat, nesting ≤ dialect.maxNesting ∧
        Derives dialect .sum (formula (front ++ [⟨.endOfInput, position⟩])) tree nesting) ∧
    ∀ {tree other nesting further},
      Derives dialect .sum (formula (front ++ [⟨.endOfInput, position⟩])) tree nesting →
        Derives dialect .sum (formula (front ++ [⟨.endOfInput, position⟩])) other further →
          tree = other ∧ nesting = further := by
  refine ⟨fun tree => ?_, Derives.unique⟩
  constructor
  · exact exists_derives_of_parse spelled
  · rintro ⟨nesting, within, derived⟩
    exact parse_eq_ok_of_derives spelled within derived

/-- A negation binds looser than a power and tighter than a product, and takes a level of its own
beside those of base and exponent. -/
theorem derives_negated_power :
    let dialect : Dialect Float := ⟨3, [("e", 3)]⟩
    let front : List (Token Float) := [⟨.operator "-", 0⟩, ⟨.identifier "x", 1⟩, ⟨.operator "^", 2⟩,
      ⟨.identifier "e", 3⟩, ⟨.operator "*", 4⟩, ⟨.identifier "log", 5⟩, ⟨.leftParen "(", 8⟩,
      ⟨.identifier "x", 9⟩, ⟨.comma ",", 10⟩, ⟨.number 2, 11⟩, ⟨.rightParen ")", 12⟩]
    let tree : Expr Float := binary .mul (neg (binary .pow (var "x") (const 3)))
      (call "log" [var "x", const 2])
    Spelled front ∧ ∃ nesting : Nat, nesting ≤ dialect.maxNesting ∧
      Derives dialect .sum (formula (front ++ [⟨.endOfInput, 13⟩])) tree nesting ∧
      ∀ other further, Derives dialect .sum (formula (front ++ [⟨.endOfInput, 13⟩])) other further →
        tree = other ∧ nesting = further := by
  intro dialect front tree
  have spelled : Spelled front := by simp [front, Spelled]
  have parsed : parse dialect (front ++ [⟨.endOfInput, 13⟩]) = .ok tree := rfl
  obtain ⟨accepts, unique⟩ := parse_eq_ok_iff_derives dialect front 13 spelled
  obtain ⟨nesting, within, derived⟩ := (accepts tree).1 parsed
  exact ⟨spelled, nesting, within, derived, fun _ _ again => unique derived again⟩

end Expr

end Tangent
