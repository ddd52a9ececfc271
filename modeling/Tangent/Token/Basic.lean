import Tangent.Number

/-!
# Tokens

The lexical units of formula text, each with the place of its first character. A token list ends
with the token that marks the end of the input.
-/

namespace Tangent

/-- What a token stands for. Signs keep the text they were written as; a parenthesis or a comma is
one whatever that text is. -/
inductive Symbol (ν : Type) where
  | number (value : ν)
  | identifier (name : String)
  | operator (sign : String)
  | leftParen (sign : String)
  | rightParen (sign : String)
  | comma (sign : String)
  | endOfInput
  deriving DecidableEq, Repr

/-- A symbol and its place: in a text, the number of characters before it. -/
structure Token (ν : Type) where
  symbol : Symbol ν
  position : Int
  deriving DecidableEq, Repr

namespace Symbol

variable {ν : Type} [Number ν]

/-- The text of a symbol. A number is written in full, whatever its spelling was. -/
def text : Symbol ν → String
  | number value => Number.fullText value
  | identifier name => name
  | operator sign => sign
  | leftParen sign => sign
  | rightParen sign => sign
  | comma sign => sign
  | endOfInput => ""

/-- A symbol as it is named in messages. -/
def description : Symbol ν → String
  | endOfInput => "end of input"
  | symbol => "'" ++ symbol.text ++ "'"

end Symbol

end Tangent
