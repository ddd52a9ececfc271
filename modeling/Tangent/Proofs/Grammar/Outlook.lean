import Tangent.Proofs.Grammar.Shape

/-!
# Outlooks

What is known between two symbols of a formula that is read from left to right: what may come next,
and which parentheses are open. This needs no precedence. It still tells exactly which symbols form
a sum, those that leave no parenthesis open and no operand missing, and which can be continued to a
sum, those that have an outlook at all.
-/

namespace Tangent

variable {ν : Type}

/-- The operation of a sign. -/
def BinaryOperator.ofSign? : String → Option BinaryOperator
  | "+" => some .add
  | "-" => some .sub
  | "*" => some .mul
  | "/" => some .div
  | "^" => some .pow
  | _ => none

/-- The operation of a sign is the one that has it. -/
theorem BinaryOperator.ofSign?_eq_some_iff {sign : String} {operator : BinaryOperator} :
    ofSign? sign = some operator ↔ sign = operator.sign := by
  constructor
  · intro known
    unfold ofSign? at known
    split at known <;> cases known <;> rfl
  · rintro rfl
    cases operator <;> rfl

/-- An open parenthesis. -/
inductive Bracket where
  /-- It stands for an operand. -/
  | group
  /-- It holds the arguments of a call. -/
  | call
  deriving DecidableEq, Repr

/-- What may come next in a formula. -/
inductive Awaited where
  | operand
  /-- The parenthesis behind the name of a function. -/
  | opening
  | operator
  deriving DecidableEq, Repr

/-- What may come next, and the open parentheses from the innermost outwards. -/
structure Outlook where
  awaited : Awaited
  brackets : List Bracket
  deriving DecidableEq, Repr

namespace Outlook

/-- The outlook in front of a formula. -/
def start : Outlook := ⟨.operand, []⟩

/-- The outlook behind a formula. -/
def complete : Outlook := ⟨.operator, []⟩

/-- The outlook behind one more symbol, if the symbol may come next. -/
def after? : Outlook → Symbol ν → Option Outlook
  | ⟨.operand, brackets⟩, .number _ => some ⟨.operator, brackets⟩
  | ⟨.operand, brackets⟩, .identifier name =>
    if (Elementary.ofName? name).isSome then some ⟨.opening, brackets⟩
    else some ⟨.operator, brackets⟩
  | ⟨.operand, brackets⟩, .leftParen _ => some ⟨.operand, .group :: brackets⟩
  | ⟨.operand, brackets⟩, .operator sign => if sign = "-" then some ⟨.operand, brackets⟩ else none
  | ⟨.opening, brackets⟩, .leftParen _ => some ⟨.operand, .call :: brackets⟩
  | ⟨.operator, brackets⟩, .operator sign =>
    (BinaryOperator.ofSign? sign).map fun _ => ⟨.operand, brackets⟩
  | ⟨.operator, _ :: brackets⟩, .rightParen _ => some ⟨.operator, brackets⟩
  | ⟨.operator, .call :: brackets⟩, .comma _ => some ⟨.operand, .call :: brackets⟩
  | _, _ => none

/-- The outlook behind some more symbols, if each may come next in its turn. -/
def afterAll? (outlook : Outlook) (word : List (Symbol ν)) : Option Outlook :=
  word.foldlM after? outlook

variable {outlook middle later : Outlook} {left right word : List (Symbol ν)}
  {brackets : List Bracket}

@[simp]
theorem afterAll?_nil : outlook.afterAll? ([] : List (Symbol ν)) = some outlook := rfl

@[simp]
theorem afterAll?_cons {symbol : Symbol ν} :
    outlook.afterAll? (symbol :: word) = (outlook.after? symbol).bind (·.afterAll? word) := rfl

@[simp]
theorem afterAll?_append :
    outlook.afterAll? (left ++ right) = (outlook.afterAll? left).bind (·.afterAll? right) := by
  simp [afterAll?, List.foldlM_append]

/-- The name of a function is followed by its parenthesis. -/
theorem after?_registered {name : String} (registered : (Elementary.ofName? name).isSome = true) :
    after? ⟨.operand, brackets⟩ (.identifier name : Symbol ν) = some ⟨.opening, brackets⟩ := by
  simp [after?, registered]

/-- Any other name is an operand. -/
theorem after?_unregistered {name : String}
    (unregistered : ¬ (Elementary.ofName? name).isSome = true) :
    after? ⟨.operand, brackets⟩ (.identifier name : Symbol ν) = some ⟨.operator, brackets⟩ := by
  simp [after?, unregistered]

@[simp]
theorem after?_group (opening : String) :
    after? ⟨.operand, brackets⟩ (.leftParen opening : Symbol ν) =
      some ⟨.operand, .group :: brackets⟩ := rfl

@[simp]
theorem after?_call (opening : String) :
    after? ⟨.opening, brackets⟩ (.leftParen opening : Symbol ν) =
      some ⟨.operand, .call :: brackets⟩ := rfl

@[simp]
theorem after?_minus :
    after? ⟨.operand, brackets⟩ (.operator "-" : Symbol ν) = some ⟨.operand, brackets⟩ := rfl

@[simp]
theorem after?_closing {bracket : Bracket} (closing : String) :
    after? ⟨.operator, bracket :: brackets⟩ (.rightParen closing : Symbol ν) =
      some ⟨.operator, brackets⟩ := rfl

@[simp]
theorem after?_comma (comma : String) :
    after? ⟨.operator, .call :: brackets⟩ (.comma comma : Symbol ν) =
      some ⟨.operand, .call :: brackets⟩ := rfl

/-- Any operation may follow an operand, and an operand must follow it. -/
@[simp]
theorem after?_sign (operator : BinaryOperator) :
    after? ⟨.operator, brackets⟩ (.operator operator.sign : Symbol ν) =
      some ⟨.operand, brackets⟩ := by
  simp [after?, BinaryOperator.ofSign?_eq_some_iff.2 rfl]

/-- What may precede a formula may precede its start. -/
theorem exists_afterAll?_of_append (reached : outlook.afterAll? (left ++ right) = some later) :
    ∃ middle, outlook.afterAll? left = some middle ∧ middle.afterAll? right = some later := by
  rw [afterAll?_append] at reached
  exact Option.bind_eq_some_iff.1 reached

end Outlook

open Outlook

/-- A phrase takes the place of an operand, among the arguments of a call if it is a list of
arguments. -/
theorem Shaped.afterAll? {category : Category} {word : List (Symbol ν)}
    (shaped : Shaped category word) {brackets : List Bracket}
    (inside : category = .arguments → ∃ outer, brackets = .call :: outer) :
    Outlook.afterAll? ⟨.operand, brackets⟩ word = some ⟨.operator, brackets⟩ := by
  induction shaped generalizing brackets with
  | number value => rfl
  | name unregistered => simp [after?_unregistered, unregistered]
  | group opening closing _ inner => simp [inner nofun]
  | call opening closing registered _ inner =>
    simp [after?_registered, registered, inner fun _ => ⟨brackets, rfl⟩]
  | last _ only => exact only nofun
  | separated comma _ _ head tail =>
    obtain ⟨outer, rfl⟩ := inside rfl
    simp [head nofun, tail fun _ => ⟨outer, rfl⟩]
  | unraised _ base => exact base nofun
  | raised _ _ below above =>
    have sign : "^" = BinaryOperator.pow.sign := rfl
    simp [below nofun, sign, above nofun]
  | unsigned _ inner => exact inner nofun
  | negated _ inner => simp [inner nofun]
  | lone _ only => exact only nofun
  | multiplied _ _ _ before after => simp [before nofun, after nofun]
  | single _ only => exact only nofun
  | added _ _ _ before after => simp [before nofun, after nofun]

/-- Symbols behind which any factor completes a sum. -/
def Hangs (front : List (Symbol ν)) : Prop :=
  ∀ word, Shaped .factor word → Shaped .sum (front ++ word)

namespace Hangs

variable {front word : List (Symbol ν)}

theorem nil : Hangs ([] : List (Symbol ν)) :=
  fun _ factor => .single (.lone factor)

/-- A minus sign in front of an operand belongs to it. -/
theorem minus (hangs : Hangs front) : Hangs (front ++ [.operator "-"]) := by
  intro word factor
  simpa using hangs _ (.negated factor)

/-- An operation behind a sum is to be completed by a factor. -/
theorem of_sum (shaped : Shaped .sum word) (operator : BinaryOperator) :
    Hangs (word ++ [.operator operator.sign]) := by
  intro other factor
  simpa using shaped.operated operator factor

end Hangs

/-- Symbols up to the start of the innermost open sum, by the parentheses that are open there. In
front of a parenthesis stands what hangs, and behind that of a call may stand further arguments. -/
inductive Opened : List Bracket → List (Symbol ν) → Prop where
  | nothing : Opened [] []
  | group {brackets : List Bracket} {outer front : List (Symbol ν)} (opening : String)
      (opened : Opened brackets outer) (hangs : Hangs front) :
      Opened (.group :: brackets) (outer ++ front ++ [.leftParen opening])
  | call {brackets : List Bracket} {outer front earlier : List (Symbol ν)} {name : String}
      {function : Elementary} (opening : String) (opened : Opened brackets outer)
      (hangs : Hangs front) (registered : Elementary.ofName? name = some function)
      (listed : ∀ others, Shaped .arguments others → Shaped .arguments (earlier ++ others)) :
      Opened (.call :: brackets)
        (outer ++ front ++ .identifier name :: .leftParen opening :: earlier)

/-- What symbols are made of that have an outlook. -/
inductive Stands : Outlook → List (Symbol ν) → Prop where
  | operand {brackets : List Bracket} {outer front : List (Symbol ν)}
      (opened : Opened brackets outer) (hangs : Hangs front) :
      Stands ⟨.operand, brackets⟩ (outer ++ front)
  | opening {brackets : List Bracket} {outer front : List (Symbol ν)} {name : String}
      {function : Elementary} (opened : Opened brackets outer) (hangs : Hangs front)
      (registered : Elementary.ofName? name = some function) :
      Stands ⟨.opening, brackets⟩ (outer ++ front ++ [.identifier name])
  | operator {brackets : List Bracket} {outer inner : List (Symbol ν)}
      (opened : Opened brackets outer) (shaped : Shaped .sum inner) :
      Stands ⟨.operator, brackets⟩ (outer ++ inner)

namespace Stands

variable {outlook later : Outlook} {brackets : List Bracket} {outer front word : List (Symbol ν)}
  {symbol : Symbol ν}

/-- A primary in the place of an operand awaits an operator. -/
theorem of_primary {primary : List (Symbol ν)} (opened : Opened brackets outer)
    (hangs : Hangs front) (shaped : Shaped .primary primary) :
    Stands ⟨.operator, brackets⟩ (outer ++ front ++ primary) := by
  rw [List.append_assoc]
  exact .operator opened (hangs primary shaped.factor)

/-- Behind an open sum a parenthesis may close, and the sum becomes part of a primary. -/
theorem close {bracket : Bracket} {inner : List (Symbol ν)} (closing : String)
    (opened : Opened (bracket :: brackets) outer) (shaped : Shaped .sum inner) :
    Stands ⟨.operator, brackets⟩ (outer ++ inner ++ [.rightParen closing]) := by
  cases opened with
  | group opening opened hangs =>
    simpa using of_primary opened hangs (.group opening closing shaped)
  | call opening opened hangs registered listed =>
    have arguments := listed inner (.last shaped)
    simpa using of_primary opened hangs (.call opening closing registered arguments)

/-- Behind an argument a comma may stand, and an argument behind the comma. -/
theorem separate {inner : List (Symbol ν)} (comma : String)
    (opened : Opened (.call :: brackets) outer) (shaped : Shaped .sum inner) :
    Stands ⟨.operand, .call :: brackets⟩ (outer ++ inner ++ [.comma comma]) := by
  cases opened with
  | @call _ _ _ earlier _ _ opening opened hangs registered listed =>
    have longer (others : List (Symbol ν)) (arguments : Shaped .arguments others) :
        Shaped .arguments (earlier ++ inner ++ [.comma comma] ++ others) := by
      simpa using listed _ (.separated comma shaped arguments)
    simpa using Stands.operand (.call opening opened hangs registered longer) Hangs.nil

/-- A symbol that may come next leaves symbols that have the outlook behind it. -/
theorem step (stands : Stands outlook word) (next : outlook.after? symbol = some later) :
    Stands later (word ++ [symbol]) := by
  cases stands with
  | operand opened hangs =>
    cases symbol with
    | number value =>
      cases next
      exact of_primary opened hangs (.number value)
    | identifier name =>
      cases registered : Elementary.ofName? name with
      | none =>
        simp only [after?, registered] at next
        cases next
        exact of_primary opened hangs (.name registered)
      | some function =>
        simp only [after?, registered] at next
        cases next
        exact .opening opened hangs registered
    | leftParen opening =>
      cases next
      simpa using Stands.operand (.group opening opened hangs) Hangs.nil
    | operator sign =>
      obtain ⟨rfl, same⟩ := Option.ite_none_right_eq_some.1 next
      cases same
      simpa using Stands.operand opened hangs.minus
    | _ => cases next
  | opening opened hangs registered =>
    cases symbol with
    | leftParen opening =>
      cases next
      have first (others : List (Symbol ν)) (arguments : Shaped .arguments others) :
          Shaped .arguments ([] ++ others) := arguments
      simpa using Stands.operand (.call opening opened hangs registered first) Hangs.nil
    | _ => cases next
  | @operator brackets outer inner opened shaped =>
    cases symbol with
    | operator sign =>
      obtain ⟨operator, known, same⟩ := Option.map_eq_some_iff.1 next
      cases same
      rw [BinaryOperator.ofSign?_eq_some_iff.1 known, List.append_assoc]
      exact .operand opened (.of_sum shaped operator)
    | rightParen closing =>
      cases brackets with
      | nil => cases next
      | cons bracket brackets =>
        cases next
        exact close closing opened shaped
    | comma comma =>
      match brackets, next with
      | .call :: brackets, next =>
        cases next
        exact separate comma opened shaped
    | _ => cases brackets <;> cases next

/-- Symbols that may come next in their turn leave symbols that have the outlook behind them. -/
theorem run {further : List (Symbol ν)} (stands : Stands outlook word)
    (reached : outlook.afterAll? further = some later) : Stands later (word ++ further) := by
  induction further generalizing outlook word with
  | nil =>
    cases reached
    simpa using stands
  | cons symbol further inductionHypothesis =>
    obtain ⟨middle, next, remaining⟩ := Option.bind_eq_some_iff.1 reached
    simpa using inductionHypothesis (stands.step next) remaining

/-- In front of a formula stands nothing. -/
theorem start : Stands start ([] : List (Symbol ν)) :=
  .operand .nothing .nil

end Stands

namespace Outlook

variable {outlook : Outlook} {word : List (Symbol ν)}

/-- Symbols form a sum exactly when they leave no parenthesis open and no operand missing. -/
theorem shaped_sum_iff : Shaped .sum word ↔ start.afterAll? word = some complete := by
  constructor
  · exact fun shaped => shaped.afterAll? nofun
  · intro reached
    have stands := Stands.start.run reached
    cases stands with
    | operator opened shaped =>
      cases opened with
      | nothing => exact shaped

/-- What stands for a missing operand or a missing pair of parentheses. -/
def filling : Awaited → List (Symbol ν)
  | .operand => [.identifier "x"]
  | .opening => [.leftParen "(", .identifier "x", .rightParen ")"]
  | .operator => []

/-- Symbols that complete a formula. -/
def completion (outlook : Outlook) : List (Symbol ν) :=
  filling outlook.awaited ++ List.replicate outlook.brackets.length (.rightParen ")")

/-- Closing parentheses close what is open. -/
theorem afterAll?_replicate (brackets : List Bracket) :
    afterAll? ⟨.operator, brackets⟩
      (List.replicate brackets.length (.rightParen ")" : Symbol ν)) = some complete := by
  induction brackets with
  | nil => rfl
  | cons bracket brackets inductionHypothesis => exact inductionHypothesis

/-- A completion may come next in its turn, and it completes the formula. -/
theorem afterAll?_completion (outlook : Outlook) :
    outlook.afterAll? (outlook.completion : List (Symbol ν)) = some complete := by
  obtain ⟨awaited, brackets⟩ := outlook
  cases awaited <;> exact afterAll?_replicate brackets

/-- Symbols that have an outlook are continued to a sum by its completion. -/
theorem shaped_append_completion (reached : start.afterAll? word = some outlook) :
    Shaped .sum (word ++ outlook.completion) := by
  rw [shaped_sum_iff, afterAll?_append, reached]
  exact outlook.afterAll?_completion

/-- Symbols can be continued to a sum exactly when they have an outlook. -/
theorem exists_shaped_append_iff :
    (∃ rest, Shaped .sum (word ++ rest)) ↔ ∃ outlook, start.afterAll? word = some outlook := by
  constructor
  · rintro ⟨rest, shaped⟩
    obtain ⟨middle, reached, _⟩ := exists_afterAll?_of_append (shaped_sum_iff.1 shaped)
    exact ⟨middle, reached⟩
  · rintro ⟨outlook, reached⟩
    exact ⟨outlook.completion, shaped_append_completion reached⟩

end Outlook

end Tangent
