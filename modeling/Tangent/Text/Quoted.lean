import Tangent.Decimal.Style
import Tangent.Text.Printable

/-!
# Quoted text

Texts as they are shown between quotes. A text is put between single quotes, or between double ones
if only single ones occur in it; the quote used, backslashes and characters that would not show are
escaped.
-/

namespace Tangent.Text

/-- The quote that is put around a text. -/
def quoteFor (text : List Char) : Char :=
  if text.contains '\'' && !text.contains '"' then '"' else '\''

/-- The escape of a character by its code point: a letter that tells how many hexadecimal digits
follow, and the digits. -/
def codeEscape (c : Char) : List Char :=
  let digits := Nat.toDigits 16 c.toNat
  if c.toNat < 0x100 then '\\' :: 'x' :: Decimal.padded 2 digits
  else if c.toNat < 0x10000 then '\\' :: 'u' :: Decimal.padded 4 digits
  else '\\' :: 'U' :: Decimal.padded 8 digits

/-- A character between quotes. -/
def quotedCharacter (quote c : Char) : List Char :=
  if c = quote ∨ c = '\\' then ['\\', c]
  else if c = '\n' then ['\\', 'n']
  else if c = '\r' then ['\\', 'r']
  else if c = '\t' then ['\\', 't']
  else if isPrintable c then [c]
  else codeEscape c

/-- A text between quotes. -/
def quotedText (text : String) : String :=
  let quote := quoteFor text.toList
  String.ofList (quote :: text.toList.flatMap (quotedCharacter quote) ++ [quote])

end Tangent.Text
