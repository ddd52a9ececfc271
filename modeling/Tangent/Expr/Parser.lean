import Tangent.Expr.Basic
import Tangent.Expr.Dialect
import Tangent.Token.Basic

/-!
# The parser

Reads a tree off a token list by the grammar

    sum     := product (("+" | "-") product)*
    product := factor (("*" | "/") factor)*
    factor  := "-" factor | power
    power   := primary ("^" factor)?
    primary := number | name | name "(" sum ("," sum)* ")" | "(" sum ")"

where a name in front of a parenthesis is an elementary function, and a name alone is not: it is a
constant if the dialect has one of that name, and else a variable. A limit, also part of the
dialect, bounds how many factors may lie inside each other. The reader recurses on the levels that
are left under this limit, so it stops on every input; everything of a factor is read with a reader
for the factors inside it.
-/

namespace Tangent

/-- What the parser could have gone on with. -/
inductive Expectation where
  /-- The first token of an operand. -/
  | expression
  /-- Anything that may follow a complete formula. -/
  | continuation
  /-- The end, where a parenthesis closes that was not opened. -/
  | finish
  /-- The parenthesis that closes an opened one. -/
  | closing
  /-- What may follow an argument. -/
  | separator
  /-- The parenthesis behind the name of a function. -/
  | opening (name : String)
  /-- An operand that is not nested too deeply. -/
  | nesting (limit : Int)
  deriving DecidableEq, Repr

/-- Why a token list is no formula. -/
inductive ParseFault (ν : Type) where
  | unexpected (expectation : Expectation) (found : Symbol ν) (position : Int)
  | unknownFunction (name : String) (position : Int)
  | wrongArgumentCount (function : Elementary) (count : Nat) (position : Int)
  /-- The list does not end with the end of the input. -/
  | unterminated
  deriving DecidableEq, Repr

/-- Reads something off the front of a token list and returns what follows it. -/
abbrev Phrase (ν α : Type) := List (Token ν) → Except (ParseFault ν) (α × List (Token ν))

namespace Expr

variable {ν : Type}

/-- Refuses the first token of a list. -/
def refuse {α : Type} (expectation : Expectation) (tokens : List (Token ν)) :
    Except (ParseFault ν) α :=
  let token := tokens.headD ⟨.endOfInput, 0⟩
  .error (.unexpected expectation token.symbol token.position)

/-- Reads an operator that a choice accepts. -/
def operatorAt? {α : Type} (choice : String → Option α) :
    List (Token ν) → Option (α × List (Token ν))
  | ⟨.operator sign, _⟩ :: rest => (choice sign).map (·, rest)
  | _ => none

/-- The operations of sums. -/
def additive? : String → Option BinaryOperator
  | "+" => some .add
  | "-" => some .sub
  | _ => none

/-- The operations of products. -/
def multiplicative? : String → Option BinaryOperator
  | "*" => some .mul
  | "/" => some .div
  | _ => none

/-- The sign of a negation or a power. An operator without a text passes for either. -/
def lone? (sign text : String) : Option Unit :=
  if text = sign ∨ text = "" then some () else none

/-- Continues an operation to the left with further operands. The first argument bounds their
number; as many as there are tokens is always enough. -/
def chain (choice : String → Option BinaryOperator) (operand : Phrase ν (Expr ν)) :
    Nat → Expr ν → Phrase ν (Expr ν)
  | 0, left, tokens => .ok (left, tokens)
  | bound + 1, left, tokens =>
    match operatorAt? choice tokens with
    | some (operator, rest) => do
      let (right, rest) ← operand rest
      chain choice operand bound (binary operator left right) rest
    | none => .ok (left, tokens)

/-- Operands joined by operations that associate to the left. -/
def leftAssociative (choice : String → Option BinaryOperator) (operand : Phrase ν (Expr ν)) :
    Phrase ν (Expr ν) := fun tokens => do
  let (first, rest) ← operand tokens
  chain choice operand rest.length first rest

/-- A sum of products of factors. -/
def sum (factor : Phrase ν (Expr ν)) : Phrase ν (Expr ν) :=
  leftAssociative additive? (leftAssociative multiplicative? factor)

/-- The parenthesis that ends something. -/
def closed (expectation : Expectation) : List (Token ν) → Except (ParseFault ν) (List (Token ν))
  | ⟨.rightParen _, _⟩ :: rest => .ok rest
  | tokens => refuse expectation tokens

/-- The arguments behind the first one, each after a comma. The first argument bounds their
number; as many as there are tokens is always enough. -/
def moreArguments (argument : Phrase ν (Expr ν)) : Nat → Phrase ν (List (Expr ν))
  | bound + 1, ⟨.comma _, _⟩ :: rest => do
    let (next, rest) ← argument rest
    let (others, rest) ← moreArguments argument bound rest
    return (next :: others, rest)
  | _, tokens => .ok ([], tokens)

/-- The arguments of a call, at least one. -/
def arguments (factor : Phrase ν (Expr ν)) : Phrase ν (List (Expr ν)) := fun tokens => do
  let (first, rest) ← sum factor tokens
  let (others, rest) ← moreArguments (sum factor) rest.length rest
  return (first :: others, rest)

/-- The call of a name, from behind its opening parenthesis on. -/
def application (factor : Phrase ν (Expr ν)) (name : String) (position : Int) :
    Phrase ν (Expr ν) := fun tokens =>
  match Elementary.ofName? name with
  | none => .error (.unknownFunction name position)
  | some function => do
    let (arguments, rest) ← arguments factor tokens
    let rest ← closed .separator rest
    if function.accepts arguments.length then return (call name arguments, rest)
    else .error (.wrongArgumentCount function arguments.length position)

/-- A name that no parenthesis follows. -/
def loneName (dialect : Dialect ν) (name : String) : Phrase ν (Expr ν) := fun rest =>
  if (Elementary.ofName? name).isSome then refuse (.opening name) rest
  else
    match dialect.constant? name with
    | some value => .ok (const value, rest)
    | none => .ok (var name, rest)

/-- An operand without a sign in front and without a power. -/
def primary (dialect : Dialect ν) (factor : Phrase ν (Expr ν)) : Phrase ν (Expr ν)
  | ⟨.number value, _⟩ :: rest => .ok (const value, rest)
  | ⟨.identifier name, position⟩ :: ⟨.leftParen _, _⟩ :: rest =>
    application factor name position rest
  | ⟨.identifier name, _⟩ :: rest => loneName dialect name rest
  | ⟨.leftParen _, _⟩ :: rest => do
    let (inner, rest) ← sum factor rest
    let rest ← closed .closing rest
    return (inner, rest)
  | tokens => refuse .expression tokens

/-- An operand without a sign in front, with its power if it has one. -/
def power (dialect : Dialect ν) (factor : Phrase ν (Expr ν)) : Phrase ν (Expr ν) :=
  fun tokens => do
    let (base, rest) ← primary dialect factor tokens
    match operatorAt? (lone? "^") rest with
    | some (_, rest) => do
      let (exponent, rest) ← factor rest
      return (binary .pow base exponent, rest)
    | none => return (base, rest)

/-- A factor, with the number of levels of factors that may still be opened. -/
def factor (dialect : Dialect ν) : (levels : Nat) → Phrase ν (Expr ν)
  | 0, tokens => refuse (.nesting dialect.maxNesting) tokens
  | levels + 1, tokens =>
    match operatorAt? (lone? "-") tokens with
    | some (_, rest) => do
      let (operand, rest) ← factor dialect levels rest
      return (neg operand, rest)
    | none => power dialect (factor dialect levels) tokens

/-- Accepts the end of the input behind a formula. -/
def finished : List (Token ν) → Except (ParseFault ν) Unit
  | ⟨.endOfInput, _⟩ :: _ => .ok ()
  | ⟨.rightParen sign, position⟩ :: rest => refuse .finish (⟨.rightParen sign, position⟩ :: rest)
  | tokens => refuse .continuation tokens

/-- Whether a token list ends with the end of the input. -/
def isTerminated (tokens : List (Token ν)) : Bool :=
  match tokens.getLast? with
  | some ⟨.endOfInput, _⟩ => true
  | _ => false

/-- The tree of a token list under the rules of a dialect. -/
def parse (dialect : Dialect ν) (tokens : List (Token ν)) :
    Except (ParseFault ν) (Expr ν) :=
  if isTerminated tokens then do
    let (tree, rest) ← sum (factor dialect dialect.maxNesting.toNat) tokens
    finished rest
    return tree
  else .error .unterminated

end Expr

end Tangent
