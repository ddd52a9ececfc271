import Tangent.Decimal.Basic
import Tangent.Text.Blank
import Tangent.Text.DecimalDigit

/-!
# Numerals

The written forms of numbers. An unsigned numeral has digits, at most one point among or beside
them, and an optional exponent; it is read off the front of a text as far as it reaches. A number
entered on its own may also carry a sign, be an infinity or no number at all, and have single
low lines between its digits.
-/

namespace Tangent

open Text

/-- How many characters the sign at the front of a text takes, if there is one. -/
def signLength : List Char → Nat
  | '-' :: _ => 1
  | '+' :: _ => 1
  | _ => 0

theorem signLength_le (text : List Char) : signLength text ≤ text.length := by
  unfold signLength
  split <;> simp

/-- Whether a text starts with a minus. -/
def startsNegative (text : List Char) : Bool :=
  text.head? = some '-'

/-- A size with its sign. -/
def signedInt (negative : Bool) (size : Nat) : Int :=
  if negative then -size else size

/-- An unsigned numeral at the front of a text: the number it stands for and its length. -/
structure Numeral where
  value : Decimal
  length : Nat

namespace Numeral

/-- The exponent part at the front of a text, with its length. A mark without digits behind it is
no exponent part. -/
def exponentPart : List Char → Int × Nat
  | [] => (0, 0)
  | mark :: rest =>
    let digits := (rest.drop (signLength rest)).takeWhile isDecimalDigit
    if (mark = 'e' ∨ mark = 'E') ∧ digits ≠ [] then
      (signedInt (startsNegative rest) (digitsValue digits),
        1 + signLength rest + digits.length)
    else (0, 0)

/-- An exponent part lies inside its text. -/
theorem exponentPart_length_le (text : List Char) : (exponentPart text).2 ≤ text.length := by
  cases text with
  | nil => exact Nat.le_refl 0
  | cons mark rest =>
    have sign := signLength_le rest
    have digits := (List.takeWhile_sublist isDecimalDigit
      (l := rest.drop (signLength rest))).length_le
    simp only [List.length_drop] at digits
    simp only [exponentPart, List.length_cons]
    split
    · dsimp only
      omega
    · exact Nat.zero_le _

/-- The digits behind a point at the front of a text, if there is one, and how many characters the
point takes. -/
def fractionPart : List Char → List Char × Nat
  | '.' :: rest => (rest.takeWhile isDecimalDigit, 1)
  | _ => ([], 0)

/-- A fraction lies inside its text. -/
theorem fractionPart_length_le (text : List Char) :
    (fractionPart text).2 + (fractionPart text).1.length ≤ text.length := by
  unfold fractionPart
  split
  · next rest =>
    have digits := (List.takeWhile_sublist isDecimalDigit (l := rest)).length_le
    simp only [List.length_cons]
    omega
  · exact Nat.zero_le _

/-- The longest numeral at the front of a text, if one starts there. -/
def scan? (text : List Char) : Option Numeral :=
  let whole := text.takeWhile isDecimalDigit
  let (fraction, pointLength) := fractionPart (text.drop whole.length)
  if whole.isEmpty && fraction.isEmpty then none
  else
    let mantissaLength := whole.length + pointLength + fraction.length
    let (exponent, exponentLength) := exponentPart (text.drop mantissaLength)
    some ⟨⟨digitsValue (whole ++ fraction), exponent - fraction.length⟩,
      mantissaLength + exponentLength⟩

/-- A numeral has a character and lies inside its text. -/
theorem scan?_length {text : List Char} {numeral : Numeral} (found : scan? text = some numeral) :
    0 < numeral.length ∧ numeral.length ≤ text.length := by
  have whole := (List.takeWhile_sublist isDecimalDigit (l := text)).length_le
  have fraction := fractionPart_length_le (text.drop (text.takeWhile isDecimalDigit).length)
  simp only [scan?] at found
  split at found
  · contradiction
  · next nonempty =>
    have exponent := exponentPart_length_le (text.drop
      ((text.takeWhile isDecimalDigit).length +
        (fractionPart (text.drop (text.takeWhile isDecimalDigit).length)).2 +
        (fractionPart (text.drop (text.takeWhile isDecimalDigit).length)).1.length))
    cases found
    simp only [List.length_drop, Bool.and_eq_true, List.isEmpty_iff, ← List.length_eq_zero_iff]
      at whole fraction exponent nonempty ⊢
    omega

end Numeral

/-- What a number entered on its own stands for. -/
inductive NumberEntry where
  | finite (negative : Bool) (magnitude : Decimal)
  | infinite (negative : Bool)
  | undefined
  deriving DecidableEq, Repr

namespace NumberEntry

/-- The blanks that may stand around an entered number; the record separators may not. -/
def isMargin (c : Char) : Bool :=
  isBlank c && !(0x1C ≤ c.toNat && c.toNat ≤ 0x1F)

/-- Whether every low line stands between two digits. The first argument tells whether a digit
precedes the text. -/
def hasGoodGrouping : Bool → List Char → Bool
  | _, [] => true
  | afterDigit, '_' :: rest =>
    afterDigit && (rest.head?.any isDecimalDigit) && hasGoodGrouping false rest
  | _, c :: rest => hasGoodGrouping (isDecimalDigit c) rest

/-- The text without its grouping, if that is in order. -/
def ungrouped? (text : List Char) : Option (List Char) :=
  if hasGoodGrouping false text then some (text.filter (· ≠ '_')) else none

/-- The number a text stands for when it is entered on its own. -/
def read? (text : String) : Option NumberEntry := do
  let entered ← ungrouped? (trim isMargin text.toList)
  let negative := startsNegative entered
  let body := entered.drop (signLength entered)
  let word := String.ofList (body.map Char.toLower)
  if word = "inf" ∨ word = "infinity" then return .infinite negative
  if word = "nan" then return .undefined
  let numeral ← Numeral.scan? body
  if numeral.length = body.length then return .finite negative numeral.value else none

/-- The most digits an entered whole number may have. -/
def mostWholeDigits : Nat := 4300

/-- The whole number a text stands for when it is entered on its own: a sign and digits. -/
def readWhole? (text : String) : Option Int := do
  let entered ← ungrouped? (trim isMargin text.toList)
  let digits := entered.drop (signLength entered)
  if digits.isEmpty || !digits.all isDecimalDigit || mostWholeDigits < digits.length then none
  else return signedInt (startsNegative entered) (digitsValue digits)

end NumberEntry

end Tangent
