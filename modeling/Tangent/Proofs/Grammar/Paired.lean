import Tangent.Expr.Parser
import Tangent.Proofs.Result

/-!
# Two runs of the parser

The parser decides by the symbols of its tokens alone. It copies their positions into its faults,
and asks how many levels are left only where it opens one. So two runs on tokens of the same
symbols, of which the second has as many levels at least, stay side by side: they read the same
trees up to the same token, and there they refuse the same symbol for the same reason, until the
first one has no level left.

A pairing says what the two runs have in common. The lemmas below follow the readers one by one, so
that everything that compares two runs, or a run with itself, is an instance of the last of them.
-/

namespace Tangent

variable {ν α β γ δ : Type}

/-- A token of the same symbol at another place. -/
def Token.moved (move : Int → Int) (token : Token ν) : Token ν :=
  ⟨token.symbol, move token.position⟩

/-- What two runs of the parser have in common. -/
structure Pairing (ν : Type) where
  /-- Whether a symbol may have these positions in the first and the second run. -/
  Places : Symbol ν → Int → Int → Prop
  /-- Whether both runs may refuse a level under this limit. -/
  IsLimit : Int → Prop
  /-- Whether nothing is said of the second run once the first one stops with a fault. -/
  IsExcuse : ParseFault ν → Prop

namespace Pairing

variable (pairing : Pairing ν)

/-- Two token lists with the same symbols in places of the pairing, and with the end of the input as
the last of them. -/
inductive Tokens : List (Token ν) → List (Token ν) → Prop where
  | finish {position position' : Int} (places : pairing.Places .endOfInput position position') :
      Tokens [⟨.endOfInput, position⟩] [⟨.endOfInput, position'⟩]
  | cons {symbol : Symbol ν} {position position' : Int} {rest rest' : List (Token ν)}
      (places : pairing.Places symbol position position') (others : Tokens rest rest') :
      Tokens (⟨symbol, position⟩ :: rest) (⟨symbol, position'⟩ :: rest')

/-- The same fault in places of the pairing. -/
inductive Faults : ParseFault ν → ParseFault ν → Prop where
  | unexpected {expectation : Expectation} {found : Symbol ν} {position position' : Int}
      (limited : ∀ limit, expectation = .nesting limit → pairing.IsLimit limit)
      (places : pairing.Places found position position') :
      Faults (.unexpected expectation found position) (.unexpected expectation found position')
  | unknownFunction {name : String} {position position' : Int}
      (places : pairing.Places (.identifier name) position position') :
      Faults (.unknownFunction name position) (.unknownFunction name position')
  | wrongArgumentCount {function : Elementary} {count : Nat} {position position' : Int}
      (places : pairing.Places (.identifier function.name) position position') :
      Faults (.wrongArgumentCount function count position)
        (.wrongArgumentCount function count position')

/-- Two results that are related values or paired faults, unless the first one is an excuse. -/
inductive Outcomes (related : α → β → Prop) :
    Except (ParseFault ν) α → Except (ParseFault ν) β → Prop where
  | ok {value : α} {value' : β} (holds : related value value') :
      Outcomes related (.ok value) (.ok value')
  | error {fault fault' : ParseFault ν} (paired : pairing.Faults fault fault') :
      Outcomes related (.error fault) (.error fault')
  | excused {fault : ParseFault ν} (excuse : pairing.IsExcuse fault)
      (result : Except (ParseFault ν) β) : Outcomes related (.error fault) result

/-- The same value in front of paired tokens, of which there are at most so many. -/
inductive Reads (most : Nat) : α × List (Token ν) → α × List (Token ν) → Prop where
  | intro {rest rest' : List (Token ν)} (value : α) (paired : pairing.Tokens rest rest')
      (within : rest.length ≤ most) : Reads most (value, rest) (value, rest')

/-- Two readers with paired results on paired tokens, as long as there are at most so many. -/
def Phrases (most : Nat) (phrase phrase' : Phrase ν α) : Prop :=
  ∀ ⦃tokens tokens' : List (Token ν)⦄, pairing.Tokens tokens tokens' → tokens.length ≤ most →
    pairing.Outcomes (pairing.Reads tokens.length) (phrase tokens) (phrase' tokens')

variable {pairing}

section Tokens

variable {tokens tokens' : List (Token ν)}

theorem Tokens.length_eq (paired : pairing.Tokens tokens tokens') :
    tokens.length = tokens'.length := by
  induction paired with
  | finish places => rfl
  | cons places others inductionHypothesis => simp [inductionHypothesis]

theorem Tokens.length_pos (paired : pairing.Tokens tokens tokens') : 0 < tokens.length := by
  cases paired <;> exact Nat.zero_lt_succ _

/-- Paired lists have the end of the input as their last token. -/
theorem Tokens.isTerminated (paired : pairing.Tokens tokens tokens') :
    Expr.isTerminated tokens = true ∧ Expr.isTerminated tokens' = true := by
  induction paired with
  | finish places => exact ⟨rfl, rfl⟩
  | cons places others inductionHypothesis =>
    cases others with
    | finish places => exact ⟨rfl, rfl⟩
    | cons places others => simpa [Expr.isTerminated] using inductionHypothesis

/-- A list with the end of the input as its last token is paired with itself, the positions moved
within the pairing. -/
theorem Tokens.of_moved (move : Int → Int) (terminated : Expr.isTerminated tokens = true)
    (places : ∀ token ∈ tokens,
      pairing.Places token.symbol token.position (move token.position)) :
    pairing.Tokens tokens (tokens.map (Token.moved move)) := by
  induction tokens with
  | nil => cases terminated
  | cons token rest inductionHypothesis =>
    obtain ⟨symbol, position⟩ := token
    obtain ⟨first, others⟩ := List.forall_mem_cons.1 places
    cases rest with
    | nil =>
      cases symbol with
      | endOfInput => exact .finish first
      | _ => cases terminated
    | cons next behind =>
      exact .cons first (inductionHypothesis (by simpa [Expr.isTerminated] using terminated) others)

/-- A list with the end of the input as its last token is paired with itself. -/
theorem Tokens.refl (terminated : Expr.isTerminated tokens = true)
    (places : ∀ token ∈ tokens, pairing.Places token.symbol token.position token.position) :
    pairing.Tokens tokens tokens := by
  have paired := Tokens.of_moved id terminated places
  rwa [show Token.moved id = (id : Token ν → Token ν) from rfl, List.map_id] at paired

end Tokens

section Outcomes

variable {related : α → β → Prop}

/-- Steps with paired results are paired in sequence. -/
theorem Outcomes.bind {relatedLater : γ → δ → Prop} {first : Except (ParseFault ν) α}
    {first' : Except (ParseFault ν) β} {next : α → Except (ParseFault ν) γ}
    {next' : β → Except (ParseFault ν) δ} (results : pairing.Outcomes related first first')
    (later : ∀ value value', related value value' →
      pairing.Outcomes relatedLater (next value) (next' value')) :
    pairing.Outcomes relatedLater (first >>= next) (first' >>= next') := by
  cases results with
  | ok holds => exact later _ _ holds
  | error paired => exact .error paired
  | excused excuse => exact .excused excuse _

/-- Related values may be related in a weaker way. -/
theorem Outcomes.imp {weaker : α → β → Prop} {first : Except (ParseFault ν) α}
    {first' : Except (ParseFault ν) β} (results : pairing.Outcomes related first first')
    (implies : ∀ value value', related value value' → weaker value value') :
    pairing.Outcomes weaker first first' := by
  cases results with
  | ok holds => exact .ok (implies _ _ holds)
  | error paired => exact .error paired
  | excused excuse => exact .excused excuse _

end Outcomes

/-- More tokens may be left. -/
theorem Reads.mono {most more : Nat} {read read' : α × List (Token ν)}
    (reads : pairing.Reads most read read') (le : most ≤ more) : pairing.Reads more read read' := by
  cases reads with
  | intro value paired within => exact .intro value paired (Nat.le_trans within le)

/-- A reader behind tokens that were taken leaves no more of them. -/
theorem Phrases.apply {most length : Nat} {phrase phrase' : Phrase ν α}
    (phrases : pairing.Phrases most phrase phrase') {rest rest' : List (Token ν)}
    (paired : pairing.Tokens rest rest') (within : rest.length ≤ most)
    (fewer : rest.length ≤ length) :
    pairing.Outcomes (pairing.Reads length) (phrase rest) (phrase' rest') :=
  (phrases paired within).imp fun _ _ reads => reads.mono fewer

/-- Readers are paired in sequence with what reads on where they stop. -/
theorem Phrases.bind {most length : Nat} {phrase phrase' : Phrase ν α}
    (phrases : pairing.Phrases most phrase phrase') {rest rest' : List (Token ν)}
    (paired : pairing.Tokens rest rest') (within : rest.length ≤ most)
    {next next' : α × List (Token ν) → Except (ParseFault ν) (β × List (Token ν))}
    (later : ∀ value behind behind', pairing.Tokens behind behind' →
      behind.length ≤ rest.length →
        pairing.Outcomes (pairing.Reads length) (next (value, behind)) (next' (value, behind'))) :
    pairing.Outcomes (pairing.Reads length) (phrase rest >>= next) (phrase' rest' >>= next') :=
  (phrases paired within).bind fun _ _ reads => by
    cases reads with
    | intro value paired fewer => exact later value _ _ paired fewer

end Pairing

open Pairing

namespace Expr

variable {pairing : Pairing ν} {dialect dialect' : Dialect ν} {most : Nat}

/-- Where no level is refused, paired tokens are refused in places of the pairing. -/
theorem refuse_paired {related : α → β → Prop} {expectation : Expectation}
    {tokens tokens' : List (Token ν)} (paired : pairing.Tokens tokens tokens')
    (limited : ∀ limit, expectation = .nesting limit → pairing.IsLimit limit) :
    pairing.Outcomes related (refuse expectation tokens) (refuse expectation tokens') := by
  cases paired with
  | finish places => exact .error (.unexpected limited places)
  | cons places others => exact .error (.unexpected limited places)

/-- An operator in front of one of two paired lists is in front of the other. -/
theorem operatorAt?_paired (choice : String → Option γ) {tokens tokens' : List (Token ν)}
    (paired : pairing.Tokens tokens tokens') :
    operatorAt? choice tokens = none ∧ operatorAt? choice tokens' = none ∨
      ∃ chosen rest rest', operatorAt? choice tokens = some (chosen, rest) ∧
        operatorAt? choice tokens' = some (chosen, rest') ∧ pairing.Tokens rest rest' ∧
        rest.length < tokens.length := by
  cases paired with
  | finish places => exact .inl ⟨rfl, rfl⟩
  | @cons symbol _ _ rest rest' places others =>
    cases symbol with
    | operator sign =>
      cases accepted : choice sign with
      | none => exact .inl ⟨by simp [operatorAt?, accepted], by simp [operatorAt?, accepted]⟩
      | some chosen =>
        exact .inr ⟨chosen, rest, rest', by simp [operatorAt?, accepted],
          by simp [operatorAt?, accepted], others, Nat.lt_succ_self _⟩
    | _ => exact .inl ⟨rfl, rfl⟩

section Chains

variable {choice : String → Option BinaryOperator} {operand operand' : Phrase ν (Expr ν)}

theorem chain_paired (operands : pairing.Phrases most operand operand') (bound : Nat)
    (left : Expr ν) :
    pairing.Phrases most (chain choice operand bound left) (chain choice operand' bound left) := by
  induction bound generalizing left with
  | zero => exact fun tokens tokens' paired _ => .ok (.intro left paired (Nat.le_refl _))
  | succ bound inductionHypothesis =>
    intro tokens tokens' paired within
    rw [chain, chain]
    rcases operatorAt?_paired choice paired with
      ⟨absent, absent'⟩ | ⟨operator, rest, rest', found, found', behind, fewer⟩
    · rw [absent, absent']
      exact .ok (.intro left paired (Nat.le_refl _))
    · rw [found, found']
      refine operands.bind behind (by omega) fun right later later' laterPaired shorter => ?_
      exact (inductionHypothesis _).apply laterPaired (by omega) (by omega)

theorem leftAssociative_paired (operands : pairing.Phrases most operand operand') :
    pairing.Phrases most (leftAssociative choice operand) (leftAssociative choice operand') := by
  intro tokens tokens' paired within
  refine operands.bind paired within fun first rest rest' restPaired fewer => ?_
  dsimp only
  rw [restPaired.length_eq]
  exact (chain_paired operands _ first).apply restPaired (by omega) fewer

end Chains

section Levels

variable {reader reader' : Phrase ν (Expr ν)}

theorem sum_paired (readers : pairing.Phrases most reader reader') :
    pairing.Phrases most (sum reader) (sum reader') :=
  leftAssociative_paired (leftAssociative_paired readers)

theorem moreArguments_paired (arguments : pairing.Phrases most reader reader') (bound : Nat) :
    pairing.Phrases most (moreArguments reader bound) (moreArguments reader' bound) := by
  induction bound with
  | zero => exact fun tokens tokens' paired _ => .ok (.intro [] paired (Nat.le_refl _))
  | succ bound inductionHypothesis =>
    intro tokens tokens' paired within
    cases paired with
    | finish places => exact .ok (.intro [] (.finish places) (Nat.le_refl _))
    | @cons symbol _ _ rest rest' places others =>
      cases symbol with
      | comma sign =>
        rw [List.length_cons] at within
        rw [moreArguments, moreArguments]
        refine arguments.bind others (by omega) fun next behind behind' behindPaired fewer => ?_
        refine inductionHypothesis.bind behindPaired (by omega)
          fun trees later later' laterPaired shorter => ?_
        exact .ok (.intro _ laterPaired (by rw [List.length_cons]; omega))
      | _ => exact .ok (.intro [] (.cons places others) (Nat.le_refl _))

theorem arguments_paired (readers : pairing.Phrases most reader reader') :
    pairing.Phrases most (arguments reader) (arguments reader') := by
  intro tokens tokens' paired within
  refine (sum_paired readers).bind paired within fun first rest rest' restPaired fewer => ?_
  dsimp only
  rw [restPaired.length_eq]
  refine (moreArguments_paired (sum_paired readers) _).bind restPaired (by omega)
    fun others later later' laterPaired shorter => ?_
  exact .ok (.intro _ laterPaired (Nat.le_trans shorter fewer))

/-- A closing parenthesis is in front of both of two paired lists, or of neither. -/
theorem closed_paired (expectation : Expectation)
    (limited : ∀ limit, expectation = .nesting limit → pairing.IsLimit limit)
    {tokens tokens' : List (Token ν)} (paired : pairing.Tokens tokens tokens') :
    pairing.Outcomes
      (fun rest rest' => pairing.Tokens rest rest' ∧ rest.length ≤ tokens.length)
      (closed expectation tokens) (closed expectation tokens') := by
  cases paired with
  | finish places => exact refuse_paired (.finish places) limited
  | @cons symbol _ _ _ _ places others =>
    cases symbol with
    | rightParen sign => exact .ok ⟨others, Nat.le_succ _⟩
    | _ => exact refuse_paired (.cons places others) limited

theorem application_paired (readers : pairing.Phrases most reader reader') (name : String)
    {position position' : Int}
    (places : pairing.Places (.identifier name) position position') :
    pairing.Phrases most (application reader name position)
      (application reader' name position') := by
  intro tokens tokens' paired within
  unfold application
  cases registered : Elementary.ofName? name with
  | none => exact .error (.unknownFunction places)
  | some function =>
    obtain rfl := Elementary.ofName?_eq_some_iff.1 registered
    refine (arguments_paired readers).bind paired within
      fun trees rest rest' restPaired fewer => ?_
    refine (closed_paired .separator nofun restPaired).bind
      fun behind behind' ⟨behindPaired, shorter⟩ => ?_
    split
    · exact .ok (.intro _ behindPaired (by omega))
    · exact .error (.wrongArgumentCount places)

theorem loneName_paired (constants : dialect'.constants = dialect.constants) (name : String) :
    pairing.Phrases most (loneName dialect name) (loneName dialect' name) := by
  intro tokens tokens' paired _
  have same : dialect'.constant? name = dialect.constant? name := by
    rw [Dialect.constant?, Dialect.constant?, constants]
  rw [loneName, loneName, same]
  split
  · refine refuse_paired paired fun limit isLimit => ?_
    cases isLimit
  · split <;> exact .ok (.intro _ paired (Nat.le_refl _))

/-- The readers of factors inside see a token less. -/
theorem primary_paired (constants : dialect'.constants = dialect.constants)
    (readers : pairing.Phrases most reader reader') :
    pairing.Phrases (most + 1) (primary dialect reader) (primary dialect' reader') := by
  intro tokens tokens' paired within
  cases paired with
  | finish places => exact refuse_paired (.finish places) nofun
  | @cons symbol position position' rest rest' places others =>
    rw [List.length_cons] at within ⊢
    have lone (name : String) : pairing.Phrases most (loneName dialect name)
        (loneName dialect' name) := loneName_paired constants name
    have alone (name : String) := (lone name).apply others (by omega) (Nat.le_succ _)
    cases symbol with
    | number value => exact .ok (.intro _ others (Nat.le_succ _))
    | identifier name =>
      cases others with
      | finish behind => exact alone name
      | @cons symbol _ _ rest rest' behind others =>
        cases symbol with
        | leftParen sign =>
          rw [List.length_cons] at within
          exact (application_paired readers name places).apply others (by omega)
            (Nat.le_succ_of_le (Nat.le_succ _))
        | _ => exact alone name
    | leftParen sign =>
      refine (sum_paired readers).bind others (by omega) fun inner rest rest' paired fewer => ?_
      refine (closed_paired .closing nofun paired).bind
        fun behind behind' ⟨behindPaired, shorter⟩ => ?_
      exact .ok (.intro _ behindPaired (by omega))
    | _ => exact refuse_paired (.cons places others) nofun

theorem power_paired (constants : dialect'.constants = dialect.constants)
    (readers : pairing.Phrases most reader reader') :
    pairing.Phrases (most + 1) (power dialect reader) (power dialect' reader') := by
  intro tokens tokens' paired within
  refine (primary_paired constants readers).bind paired within
    fun base rest rest' restPaired fewer => ?_
  dsimp only
  rcases operatorAt?_paired (lone? "^") restPaired with
    ⟨absent, absent'⟩ | ⟨_, behind, behind', found, found', behindPaired, shorter⟩
  · rw [absent, absent']
    exact .ok (.intro base restPaired fewer)
  · rw [found, found']
    refine readers.bind behindPaired (by omega)
      fun exponent later later' laterPaired shorterStill => ?_
    have within : later.length ≤ tokens.length := by omega
    exact .ok (.intro _ laterPaired within)

end Levels

/-- A level more takes a token more. -/
theorem factor_succ_paired (constants : dialect'.constants = dialect.constants)
    {levels levels' : Nat}
    (inner : pairing.Phrases most (factor dialect levels) (factor dialect' levels')) :
    pairing.Phrases (most + 1) (factor dialect (levels + 1)) (factor dialect' (levels' + 1)) := by
  intro tokens tokens' paired within
  rw [factor, factor]
  rcases operatorAt?_paired (lone? "-") paired with
    ⟨absent, absent'⟩ | ⟨_, rest, rest', found, found', restPaired, fewer⟩
  · rw [absent, absent']
    exact power_paired constants inner paired within
  · rw [found, found']
    refine inner.bind restPaired (by omega) fun operand later later' laterPaired shorter => ?_
    exact .ok (.intro _ laterPaired (by omega))

/-- Factors are paired, if the second run has as many levels at least, and if the first one never
runs out of them or is paired where it does. -/
theorem factor_paired (constants : dialect'.constants = dialect.constants) {levels extra : Nat}
    (atLimit : most ≤ levels ∨ ∀ most, pairing.Phrases most (factor dialect 0)
      (factor dialect' extra)) :
    pairing.Phrases most (factor dialect levels) (factor dialect' (levels + extra)) := by
  induction levels generalizing most with
  | zero =>
    rcases atLimit with enough | refused
    · intro tokens tokens' paired within
      have := paired.length_pos
      omega
    · rw [Nat.zero_add]
      exact refused most
  | succ levels inductionHypothesis =>
    cases most with
    | zero =>
      intro tokens tokens' paired within
      have := paired.length_pos
      omega
    | succ most =>
      rw [Nat.add_right_comm]
      exact factor_succ_paired constants
        (inductionHypothesis (atLimit.imp_left Nat.le_of_succ_le_succ))

theorem finished_paired {tokens tokens' : List (Token ν)} (paired : pairing.Tokens tokens tokens') :
    pairing.Outcomes Eq (finished tokens) (finished tokens') := by
  cases paired with
  | finish places => exact .ok rfl
  | @cons symbol _ _ _ _ places others =>
    cases symbol with
    | endOfInput => exact .ok rfl
    | _ => exact refuse_paired (.cons places others) nofun

/-- Two runs of the parser on paired tokens give the same tree or paired faults, if the second one
has as many levels at least, and if the first one has a level for each token or is paired where it
has none left. -/
theorem parse_paired (constants : dialect'.constants = dialect.constants)
    {tokens tokens' : List (Token ν)} (paired : pairing.Tokens tokens tokens') {extra : Nat}
    (levels : dialect'.maxNesting.toNat = dialect.maxNesting.toNat + extra)
    (atLimit : tokens.length ≤ dialect.maxNesting.toNat ∨
      ∀ most, pairing.Phrases most (factor dialect 0) (factor dialect' extra)) :
    pairing.Outcomes Eq (parse dialect tokens) (parse dialect' tokens') := by
  obtain ⟨terminated, terminated'⟩ := paired.isTerminated
  rw [parse, parse, if_pos terminated, if_pos terminated', levels]
  refine (sum_paired (factor_paired constants atLimit) paired (Nat.le_refl _)).bind ?_
  rintro _ _ ⟨tree, restPaired, _⟩
  exact (finished_paired restPaired).bind fun _ _ _ => .ok rfl

end Expr

end Tangent
