import Tangent.Proofs.Grammar.Outlook

/-!
# Progress

How far a formula has been read from left to right, with all that a fault of the parser may be
about: what is due, how many factors lie inside each other there, and of each open parenthesis how
many lay around it and, if it holds the arguments of a call, of which function and how many. A token
has its place if it is due, if no factor of it lies too deep, and if no call is closed with a wrong
number of arguments. So the first token without a place is settled by the tokens alone. An outlook
is progress without its numbers.
-/

namespace Tangent

variable {ν : Type}

/-- What is due in a formula. -/
inductive Due where
  | operand
  /-- The parenthesis behind the name of a function, which stands at a position. -/
  | opening (function : Elementary) (position : Int)
  | operator
  deriving DecidableEq, Repr

/-- An open parenthesis, with the number of factors that lie inside each other where it stands. -/
inductive Enclosure where
  | group (factors : Nat)
  /-- It holds the arguments of a function, whose name stands at a position: so many with the one
  that is being read. -/
  | call (function : Elementary) (position : Int) (count factors : Nat)
  deriving DecidableEq, Repr

namespace Enclosure

/-- How many factors lie inside each other where a parenthesis stands. -/
def factors : Enclosure → Nat
  | group factors => factors
  | call _ _ _ factors => factors

/-- Whether a parenthesis may be closed: the function of a call accepts so many arguments. -/
def mayClose : Enclosure → Bool
  | group _ => true
  | call function _ count _ => function.accepts count

/-- An open parenthesis without numbers. -/
def bracket : Enclosure → Bracket
  | group _ => .group
  | call _ _ _ _ => .call

end Enclosure

/-- How far a formula has been read. -/
structure Progress where
  due : Due
  /-- How many factors lie inside each other, counting that of the operand which is due or was read
  last. -/
  factors : Nat
  /-- The open parentheses, from the innermost outwards. -/
  enclosures : List Enclosure
  deriving DecidableEq, Repr

namespace Progress

/-- How many factors lie inside each other in a sum between open parentheses. -/
def sumFactors : List Enclosure → Nat
  | [] => 1
  | enclosure :: _ => enclosure.factors + 1

/-- In front of a formula. -/
def start : Progress := ⟨.operand, sumFactors [], []⟩

/-- Whether what is due does not lie too deep. -/
def Fits (limit : Nat) (progress : Progress) : Prop :=
  progress.due = .operand → progress.factors ≤ limit

/-- The progress with an operand that starts with a token, where one is due. -/
def inOperand? (factors : Nat) (enclosures : List Enclosure) : Token ν → Option Progress
  | ⟨.number _, _⟩ => some ⟨.operator, factors, enclosures⟩
  | ⟨.identifier name, position⟩ =>
    match Elementary.ofName? name with
    | some function => some ⟨.opening function position, factors, enclosures⟩
    | none => some ⟨.operator, factors, enclosures⟩
  | ⟨.leftParen _, _⟩ => some ⟨.operand, factors + 1, .group factors :: enclosures⟩
  | ⟨.operator sign, _⟩ => if sign = "-" then some ⟨.operand, factors + 1, enclosures⟩ else none
  | _ => none

/-- The progress with a token behind an operand. Only a power belongs to the factor in front of
it. -/
def behindOperand? (factors : Nat) : List Enclosure → Token ν → Option Progress
  | enclosures, ⟨.operator sign, _⟩ =>
    (BinaryOperator.ofSign? sign).map fun operator =>
      ⟨.operand, if operator = .pow then factors + 1 else sumFactors enclosures, enclosures⟩
  | enclosure :: enclosures, ⟨.rightParen _, _⟩ =>
    if enclosure.mayClose then some ⟨.operator, enclosure.factors, enclosures⟩ else none
  | .call function position count outer :: enclosures, ⟨.comma _, _⟩ =>
    some ⟨.operand, outer + 1, .call function position (count + 1) outer :: enclosures⟩
  | _, _ => none

/-- The progress with one more token, if the token has its place. -/
def after? (limit : Nat) : Progress → Token ν → Option Progress
  | ⟨.operand, factors, enclosures⟩, token =>
    if factors ≤ limit then inOperand? factors enclosures token else none
  | ⟨.opening function position, factors, enclosures⟩, ⟨.leftParen _, _⟩ =>
    some ⟨.operand, factors + 1, .call function position 1 factors :: enclosures⟩
  | ⟨.operator, factors, enclosures⟩, token => behindOperand? factors enclosures token
  | _, _ => none

/-- The progress with some more tokens, if each has its place in its turn. -/
def afterAll? (limit : Nat) (progress : Progress) (tokens : List (Token ν)) : Option Progress :=
  tokens.foldlM (after? limit) progress

variable {limit factors : Nat} {enclosures : List Enclosure} {progress middle later : Progress}
  {token : Token ν} {tokens left right : List (Token ν)} {position : Int}

@[simp]
theorem afterAll?_nil : progress.afterAll? limit ([] : List (Token ν)) = some progress := rfl

@[simp]
theorem afterAll?_cons :
    progress.afterAll? limit (token :: tokens) =
      (progress.after? limit token).bind (·.afterAll? limit tokens) := rfl

@[simp]
theorem afterAll?_append :
    progress.afterAll? limit (left ++ right) =
      (progress.afterAll? limit left).bind (·.afterAll? limit right) := by
  simp [afterAll?, List.foldlM_append]

section Steps

/-- A number is an operand. -/
theorem after?_number (fits : factors ≤ limit) (value : ν) :
    after? limit ⟨.operand, factors, enclosures⟩ ⟨.number value, position⟩ =
      some ⟨.operator, factors, enclosures⟩ := by
  rw [after?, if_pos fits, inOperand?]

/-- The name of a function is followed by its parenthesis. -/
theorem after?_registered (fits : factors ≤ limit) {name : String} {function : Elementary}
    (registered : Elementary.ofName? name = some function) :
    after? limit ⟨.operand, factors, enclosures⟩ (⟨.identifier name, position⟩ : Token ν) =
      some ⟨.opening function position, factors, enclosures⟩ := by
  rw [after?, if_pos fits, inOperand?, registered]

/-- Any other name is an operand. -/
theorem after?_unregistered (fits : factors ≤ limit) {name : String}
    (unregistered : Elementary.ofName? name = none) :
    after? limit ⟨.operand, factors, enclosures⟩ (⟨.identifier name, position⟩ : Token ν) =
      some ⟨.operator, factors, enclosures⟩ := by
  rw [after?, if_pos fits, inOperand?, unregistered]

/-- A group may take the place of an operand. -/
theorem after?_group (fits : factors ≤ limit) (opening : String) :
    after? limit ⟨.operand, factors, enclosures⟩ (⟨.leftParen opening, position⟩ : Token ν) =
      some ⟨.operand, factors + 1, .group factors :: enclosures⟩ := by
  rw [after?, if_pos fits, inOperand?]

/-- A minus sign may stand in front of an operand. -/
theorem after?_minus (fits : factors ≤ limit) :
    after? limit ⟨.operand, factors, enclosures⟩ (⟨.operator "-", position⟩ : Token ν) =
      some ⟨.operand, factors + 1, enclosures⟩ := by
  rw [after?, if_pos fits, inOperand?, if_pos rfl]

/-- The parenthesis behind the name of a function holds a first argument. -/
theorem after?_call (function : Elementary) (place : Int) (opening : String) :
    after? limit ⟨.opening function place, factors, enclosures⟩
        (⟨.leftParen opening, position⟩ : Token ν) =
      some ⟨.operand, factors + 1, .call function place 1 factors :: enclosures⟩ := rfl

/-- Behind an operation of sums and products an operand of the sum follows. -/
theorem after?_sign {operator : BinaryOperator} (joins : operator ≠ .pow) :
    after? limit ⟨.operator, factors, enclosures⟩ (⟨.operator operator.sign, position⟩ : Token ν) =
      some ⟨.operand, sumFactors enclosures, enclosures⟩ := by
  rw [after?, behindOperand?, BinaryOperator.ofSign?_eq_some_iff.2 rfl, Option.map_some,
    if_neg joins]

/-- The exponent of a power lies inside its factor. -/
theorem after?_power :
    after? limit ⟨.operator, factors, enclosures⟩ (⟨.operator "^", position⟩ : Token ν) =
      some ⟨.operand, factors + 1, enclosures⟩ := rfl

/-- A parenthesis that may be closed is part of the factor it stands in. -/
theorem after?_closing {enclosure : Enclosure} (closes : enclosure.mayClose = true)
    (closing : String) :
    after? limit ⟨.operator, factors, enclosure :: enclosures⟩
        (⟨.rightParen closing, position⟩ : Token ν) =
      some ⟨.operator, enclosure.factors, enclosures⟩ := by
  rw [after?, behindOperand?, if_pos closes]

/-- Behind a comma another argument is read. -/
theorem after?_comma (function : Elementary) (place : Int) (count outer : Nat) (comma : String) :
    after? limit ⟨.operator, factors, .call function place count outer :: enclosures⟩
        (⟨.comma comma, position⟩ : Token ν) =
      some ⟨.operand, outer + 1, .call function place (count + 1) outer :: enclosures⟩ := rfl

end Steps

/-- Progress without its numbers. -/
def outlook (progress : Progress) : Outlook where
  awaited := match progress.due with
    | .operand => .operand
    | .opening _ _ => .opening
    | .operator => .operator
  brackets := progress.enclosures.map Enclosure.bracket

/-- A token that starts an operand may do so. -/
theorem outlook_inOperand? (next : inOperand? factors enclosures token = some later) :
    (outlook ⟨.operand, factors, enclosures⟩).after? token.symbol = some later.outlook := by
  obtain ⟨symbol, position⟩ := token
  cases symbol with
  | identifier name =>
    cases registered : Elementary.ofName? name <;>
      simp only [inOperand?, registered, Option.some_inj] at next <;> subst next <;>
      simp [outlook, Outlook.after?, registered]
  | operator sign =>
    obtain ⟨rfl, same⟩ := Option.ite_none_right_eq_some.1 next
    cases same
    rfl
  | number value | leftParen opening =>
    cases next
    rfl
  | _ => cases next

/-- A token that has its place behind an operand may stand there. -/
theorem outlook_behindOperand? (next : behindOperand? factors enclosures token = some later) :
    (outlook ⟨.operator, factors, enclosures⟩).after? token.symbol = some later.outlook := by
  obtain ⟨symbol, position⟩ := token
  cases symbol with
  | operator sign =>
    obtain ⟨operator, known, same⟩ := Option.map_eq_some_iff.1 next
    cases same
    simp [outlook, Outlook.after?, known]
  | rightParen closing =>
    cases enclosures with
    | nil => cases next
    | cons enclosure enclosures =>
      obtain ⟨_, same⟩ := Option.ite_none_right_eq_some.1 next
      cases same
      rfl
  | comma comma =>
    cases enclosures with
    | nil => cases next
    | cons enclosure enclosures =>
      cases enclosure with
      | group factors => cases next
      | call function place count outer =>
        cases next
        rfl
  | _ => cases enclosures <;> cases next

/-- A token that has its place may come next. -/
theorem outlook_after? (next : progress.after? limit token = some later) :
    progress.outlook.after? token.symbol = some later.outlook := by
  obtain ⟨due, factors, enclosures⟩ := progress
  cases due with
  | operand =>
    obtain ⟨_, next⟩ := Option.ite_none_right_eq_some.1 next
    exact outlook_inOperand? next
  | opening function place =>
    obtain ⟨symbol, position⟩ := token
    cases symbol with
    | leftParen opening =>
      cases next
      rfl
    | _ => cases next
  | operator => exact outlook_behindOperand? next

/-- Tokens that have their places may come next in their turn. -/
theorem outlook_afterAll? (reached : progress.afterAll? limit tokens = some later) :
    progress.outlook.afterAll? (tokens.map Token.symbol) = some later.outlook := by
  induction tokens generalizing progress with
  | nil =>
    cases reached
    rfl
  | cons token tokens inductionHypothesis =>
    obtain ⟨middle, next, remaining⟩ := Option.bind_eq_some_iff.1 reached
    rw [List.map_cons, Outlook.afterAll?_cons, outlook_after? next]
    exact inductionHypothesis remaining

section Calls

variable {function : Elementary} {place : Int}

/-- Whether the name of a function, which stands at a position, is waiting for its parenthesis or
for the end of its arguments. -/
def Calls (progress : Progress) (function : Elementary) (position : Int) : Prop :=
  progress.due = .opening function position ∨
    ∃ count factors, Enclosure.call function position count factors ∈ progress.enclosures

@[simp]
theorem calls_operand_iff :
    Calls ⟨.operand, factors, enclosures⟩ function place ↔
      ∃ count outer, Enclosure.call function place count outer ∈ enclosures := by
  simp [Calls]

@[simp]
theorem calls_operator_iff :
    Calls ⟨.operator, factors, enclosures⟩ function place ↔
      ∃ count outer, Enclosure.call function place count outer ∈ enclosures := by
  simp [Calls]

/-- Where an operand starts, only a name that is the token itself begins to wait. -/
theorem calls_of_inOperand? (next : inOperand? factors enclosures token = some later)
    (calls : later.Calls function place) :
    Calls ⟨.operand, factors, enclosures⟩ function place ∨
      token = ⟨.identifier function.name, place⟩ := by
  obtain ⟨symbol, position⟩ := token
  cases symbol with
  | identifier name =>
    cases registered : Elementary.ofName? name with
    | none =>
      simp only [inOperand?, registered, Option.some_inj] at next
      subst next
      exact .inl (calls_operand_iff.2 (calls_operator_iff.1 calls))
    | some other =>
      simp only [inOperand?, registered, Option.some_inj] at next
      subst next
      obtain rfl := Elementary.ofName?_eq_some_iff.1 registered
      rcases calls with same | inside
      · cases same
        exact .inr rfl
      · exact .inl (.inr inside)
  | operator sign =>
    obtain ⟨_, same⟩ := Option.ite_none_right_eq_some.1 next
    cases same
    exact .inl calls
  | _ => cases next <;> simpa using calls

/-- Behind an operand no name begins to wait. -/
theorem calls_of_behindOperand? (next : behindOperand? factors enclosures token = some later)
    (calls : later.Calls function place) :
    Calls ⟨.operator, factors, enclosures⟩ function place := by
  obtain ⟨symbol, position⟩ := token
  cases symbol with
  | operator sign =>
    obtain ⟨_, _, same⟩ := Option.map_eq_some_iff.1 next
    cases same
    simpa using calls
  | rightParen closing =>
    cases enclosures with
    | nil => cases next
    | cons enclosure enclosures =>
      obtain ⟨_, same⟩ := Option.ite_none_right_eq_some.1 next
      cases same
      obtain ⟨count, outer, inside⟩ := calls_operator_iff.1 calls
      exact calls_operator_iff.2 ⟨count, outer, List.mem_cons_of_mem _ inside⟩
  | comma comma =>
    match enclosures, next with
    | .call other otherPlace count outer :: enclosures, next =>
      cases next
      obtain ⟨_, _, inside⟩ := calls_operand_iff.1 calls
      rcases List.mem_cons.1 inside with same | inside
      · cases same
        exact calls_operator_iff.2 ⟨count, outer, List.mem_cons_self⟩
      · exact calls_operator_iff.2 ⟨_, _, List.mem_cons_of_mem _ inside⟩
  | _ => cases enclosures <;> cases next

/-- A name that is waiting was so before, or is the token itself. -/
theorem calls_of_after? (next : progress.after? limit token = some later)
    (calls : later.Calls function place) :
    progress.Calls function place ∨ token = ⟨.identifier function.name, place⟩ := by
  obtain ⟨due, factors, enclosures⟩ := progress
  cases due with
  | operand =>
    obtain ⟨_, next⟩ := Option.ite_none_right_eq_some.1 next
    exact calls_of_inOperand? next calls
  | opening other otherPlace =>
    obtain ⟨symbol, position⟩ := token
    cases symbol with
    | leftParen opening =>
      cases next
      obtain ⟨count, outer, inside⟩ := calls_operand_iff.1 calls
      rcases List.mem_cons.1 inside with same | inside
      · cases same
        exact .inl (.inl rfl)
      · exact .inl (.inr ⟨count, outer, inside⟩)
    | _ => cases next
  | operator => exact .inl (calls_of_behindOperand? next calls)

/-- A name that is waiting behind some tokens was so in front of them, or is one of them. -/
theorem calls_of_afterAll? (reached : progress.afterAll? limit tokens = some later)
    (calls : later.Calls function place) :
    progress.Calls function place ∨ ⟨.identifier function.name, place⟩ ∈ tokens := by
  induction tokens generalizing progress with
  | nil =>
    cases reached
    exact .inl calls
  | cons token tokens inductionHypothesis =>
    obtain ⟨middle, next, remaining⟩ := Option.bind_eq_some_iff.1 reached
    rcases inductionHypothesis remaining with before | inside
    · rcases calls_of_after? next before with earlier | rfl
      · exact .inl earlier
      · exact .inr List.mem_cons_self
    · exact .inr (List.mem_cons_of_mem _ inside)

end Calls

end Progress

end Tangent
