import Tangent.Decimal.Basic

/-!
# Written decimals

A style says from which sizes on a decimal is written with an exponent, and what follows the
digits of a whole number.
-/

namespace Tangent.Decimal

/-- How decimals are written. -/
structure Style where
  /-- The least exponent of a leading digit that is written without an exponent part. -/
  leastPositional : Int
  /-- The exponent of a leading digit from which on an exponent part is written. -/
  scientificFrom : Int
  /-- What follows the digits of a whole number. -/
  wholeEnding : List Char
  /-- The fewest digits of an exponent part. -/
  exponentWidth : Nat

/-- A run of zeros. -/
def zeros (count : Nat) : List Char :=
  List.replicate count '0'

/-- Digits filled up with zeros on the left to a least width. -/
def padded (width : Nat) (digits : List Char) : List Char :=
  zeros (width - digits.length) ++ digits

theorem length_padded (width : Nat) (digits : List Char) :
    (padded width digits).length = max width digits.length := by
  simp only [padded, zeros, List.length_append, List.length_replicate]
  omega

/-- An exponent part: a sign, always written, and the exponent's digits. -/
def exponentText (width : Nat) (exponent : Int) : List Char :=
  let sign := if exponent < 0 then '-' else '+'
  'e' :: sign :: padded width (digitText exponent.natAbs)

/-- Digits with a point behind the first one, if more follow. -/
def mantissa : List Char → List Char
  | first :: second :: rest => first :: '.' :: second :: rest
  | digits => digits

/-- The decimal as text. The digits are taken as they stand, so a reduced decimal is written
without trailing zeros behind the point. -/
def write (style : Style) (decimal : Decimal) : List Char :=
  let digits := digitText decimal.digits
  let pointAt := (digits.length : Int) + decimal.exponent
  let leading := pointAt - 1
  if leading < style.leastPositional ∨ style.scientificFrom ≤ leading then
    mantissa digits ++ exponentText style.exponentWidth leading
  else if 0 ≤ decimal.exponent then
    digits ++ zeros decimal.exponent.toNat ++ style.wholeEnding
  else if 0 < pointAt then
    digits.take pointAt.toNat ++ '.' :: digits.drop pointAt.toNat
  else
    '0' :: '.' :: (zeros (-pointAt).toNat ++ digits)

end Tangent.Decimal
