import Tangent.Token.Basic

/-!
# The lexer

Splits formula text into tokens. Blanks separate tokens and are skipped. A numeral or an
identifier reaches as far as it can; operators, parentheses and commas are single characters. The
first character that starts none of these is an error.
-/

namespace Tangent

open Text

/-- A character that starts no token. -/
structure UnrecognizedCharacter where
  character : Char
  position : Nat
  deriving DecidableEq, Repr

namespace Token

variable {ν : Type} [Number ν]

/-- The characters that start an identifier. -/
def startsName (c : Char) : Bool :=
  c.isAlpha || c = '_'

/-- The characters that continue an identifier. -/
def continuesName (c : Char) : Bool :=
  startsName c || c.isDigit

/-- The symbol of a character that is a token by itself. -/
def singleSymbol? (c : Char) : Option (Symbol ν) :=
  if c = '+' ∨ c = '-' ∨ c = '*' ∨ c = '/' ∨ c = '^' then some (.operator (String.singleton c))
  else if c = '(' then some (.leftParen "(")
  else if c = ')' then some (.rightParen ")")
  else if c = ',' then some (.comma ",")
  else none

/-- The symbol at the front of a text and how many characters it takes. -/
def lexeme? (text : List Char) : Option (Symbol ν × Nat) :=
  match Numeral.scan? text with
  | some numeral => some (.number (Arithmetic.ofDecimal numeral.value), numeral.length)
  | none =>
    match text with
    | [] => none
    | c :: _ =>
      if startsName c then
        let name := text.takeWhile continuesName
        some (.identifier (String.ofList name), name.length)
      else (singleSymbol? c).map (·, 1)

/-- A lexeme has a character and lies inside its text. -/
theorem lexeme?_length {text : List Char} {symbol : Symbol ν} {length : Nat}
    (found : lexeme? text = some (symbol, length)) : 0 < length ∧ length ≤ text.length := by
  unfold lexeme? at found
  split at found
  · next numeral scanned =>
    cases found
    exact Numeral.scan?_length scanned
  · cases text with
    | nil => contradiction
    | cons c rest =>
      dsimp only at found
      split at found
      · next starts =>
        cases found
        have name := (List.takeWhile_sublist continuesName (l := c :: rest)).length_le
        refine ⟨?_, name⟩
        simp [continuesName, starts]
      · obtain ⟨single, _, same⟩ := Option.map_eq_some_iff.1 found
        cases same
        simp

/-- The tokens of a text that starts at the given position, after as many characters as still
belong to the token before. -/
def scan (position : Nat) : (taken : Nat) → List Char →
    Except UnrecognizedCharacter (List (Token ν))
  | _, [] => .ok [⟨.endOfInput, position⟩]
  | taken + 1, _ :: rest => scan (position + 1) taken rest
  | 0, c :: rest =>
    if isBlank c then scan (position + 1) 0 rest
    else
      match lexeme? (c :: rest) with
      | some (symbol, length) => do
        let tokens ← scan (position + 1) (length - 1) rest
        return ⟨symbol, position⟩ :: tokens
      | none => .error ⟨c, position⟩

/-- The tokens of a text, with the end of the input as the last one. -/
def tokenize (text : String) : Except UnrecognizedCharacter (List (Token ν)) :=
  scan 0 0 text.toList

end Token

end Tangent
