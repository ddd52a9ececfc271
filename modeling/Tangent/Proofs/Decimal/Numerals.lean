import Tangent.Decimal.Numeral

/-!
# The language of numerals

A numeral is made of digits of any script, with at most one point among or beside them, and of an
exponent part or none. Here that is a relation between a text and the decimal it stands for, apart
from any reader. The scanner looks ahead for a point and for a mark, and may find that neither goes
on with a digit; yet what it reads off the front of a text is a numeral, no numeral there is longer,
and what stands behind it has no part in the decimal.
-/

namespace Tangent.Numeral

open Text

/-- Digits are taken up to the first character that is none. -/
theorem takeWhile_isDecimalDigit_append {digits rest : List Char}
    (all : ∀ c ∈ digits, isDecimalDigit c = true)
    (noDigit : ∀ c ∈ rest.head?, isDecimalDigit c = false) :
    (digits ++ rest).takeWhile isDecimalDigit = digits := by
  rw [List.takeWhile_append_of_pos all]
  cases rest with
  | nil => simp
  | cons c tail => simp [noDigit c rfl]

/-- What stands behind the digits of a numeral: a point with more digits, or neither. -/
inductive Pointed : (point fraction : List Char) → Prop where
  | whole : Pointed [] []
  | point (fraction : List Char) : Pointed ['.'] fraction

/-- The sign of an exponent, or none. -/
def IsSign (sign : List Char) : Prop :=
  sign = [] ∨ sign = ['+'] ∨ sign = ['-']

/-- An exponent part and the exponent it stands for. A numeral may be without one. -/
inductive Raised : List Char → Int → Prop where
  | none : Raised [] 0
  | marked {mark : Char} {sign digits : List Char} (isMark : mark = 'e' ∨ mark = 'E')
      (isSign : IsSign sign) (nonempty : digits ≠ [])
      (all : ∀ c ∈ digits, isDecimalDigit c = true) :
      Raised (mark :: (sign ++ digits)) (signedInt (startsNegative sign) (digitsValue digits))

/-- A numeral and the decimal it stands for. -/
inductive Denotes : List Char → Decimal → Prop where
  | parts {whole point fraction power : List Char} {exponent : Int}
      (nonempty : whole ++ fraction ≠ []) (wholeAll : ∀ c ∈ whole, isDecimalDigit c = true)
      (fractionAll : ∀ c ∈ fraction, isDecimalDigit c = true) (pointed : Pointed point fraction)
      (raised : Raised power exponent) :
      Denotes (whole ++ point ++ fraction ++ power)
        ⟨digitsValue (whole ++ fraction), exponent - fraction.length⟩

/-- What follows a numeral goes on with none of its parts. -/
structure Ends (rest : List Char) : Prop where
  noDigit : ∀ c ∈ rest.head?, isDecimalDigit c = false
  noPoint : ∀ c ∈ rest.head?, c ≠ '.'
  noMark : ∀ c ∈ rest.head?, c ≠ 'e' ∧ c ≠ 'E'

theorem Ends.nil : Ends [] :=
  ⟨nofun, nofun, nofun⟩

section Exponents

variable {mark : Char} {sign digits : List Char}

/-- A sign is told from the digits behind it. -/
theorem IsSign.append (isSign : IsSign sign) (nonempty : digits ≠ [])
    (all : ∀ c ∈ digits, isDecimalDigit c = true) (rest : List Char) :
    signLength (sign ++ digits ++ rest) = sign.length ∧
      startsNegative (sign ++ digits ++ rest) = startsNegative sign := by
  rcases isSign with rfl | rfl | rfl
  · obtain ⟨first, others, rfl⟩ := List.exists_cons_of_ne_nil nonempty
    have digit := all first List.mem_cons_self
    have noMinus : first ≠ '-' := by rintro rfl; exact absurd digit (by decide)
    have noPlus : first ≠ '+' := by rintro rfl; exact absurd digit (by decide)
    simp [signLength, startsNegative, noMinus, noPlus]
  · exact ⟨rfl, rfl⟩
  · exact ⟨rfl, rfl⟩

/-- Every text starts with a sign or none. -/
theorem exists_sign (text : List Char) :
    ∃ sign rest, text = sign ++ rest ∧ IsSign sign ∧ signLength text = sign.length ∧
      startsNegative text = startsNegative sign := by
  unfold signLength
  split
  · next rest => exact ⟨['-'], rest, rfl, .inr (.inr rfl), rfl, rfl⟩
  · next rest => exact ⟨['+'], rest, rfl, .inr (.inl rfl), rfl, rfl⟩
  · next noMinus _ =>
    refine ⟨[], text, rfl, .inl rfl, rfl, ?_⟩
    rw [startsNegative, startsNegative, decide_eq_decide]
    refine iff_of_false (fun first => ?_) nofun
    obtain ⟨rest, rfl⟩ := List.head?_eq_some_iff.1 first
    exact noMinus rest rfl

/-- An exponent part goes on with whatever digits follow. -/
theorem exponentPart_marked (isMark : mark = 'e' ∨ mark = 'E') (isSign : IsSign sign)
    (nonempty : digits ≠ []) (all : ∀ c ∈ digits, isDecimalDigit c = true) (rest : List Char) :
    exponentPart (mark :: (sign ++ digits) ++ rest) =
      (signedInt (startsNegative sign) (digitsValue (digits ++ rest.takeWhile isDecimalDigit)),
        1 + sign.length + (digits ++ rest.takeWhile isDecimalDigit).length) := by
  obtain ⟨length, negative⟩ := isSign.append nonempty all rest
  have taken : ((sign ++ digits ++ rest).drop sign.length).takeWhile isDecimalDigit =
      digits ++ rest.takeWhile isDecimalDigit := by
    rw [List.append_assoc, List.drop_left, List.takeWhile_append_of_pos all]
  rw [List.cons_append, exponentPart, length, negative, taken]
  simp [isMark, nonempty]

/-- What is read as an exponent part is one. -/
theorem raised_exponentPart (text : List Char) :
    Raised (text.take (exponentPart text).2) (exponentPart text).1 := by
  cases text with
  | nil => exact .none
  | cons mark rest =>
    obtain ⟨sign, behind, rfl, isSign, length, negative⟩ := exists_sign rest
    simp only [exponentPart, length, negative, List.drop_left]
    split
    · next found =>
      have taken : (mark :: (sign ++ behind)).take
          (1 + sign.length + (behind.takeWhile isDecimalDigit).length) =
            mark :: (sign ++ behind.takeWhile isDecimalDigit) := by
        rw [Nat.add_assoc, Nat.add_comm, List.take_succ_cons, List.take_length_add_append,
          ← List.prefix_iff_eq_take.1 (List.takeWhile_prefix _)]
      rw [taken]
      exact .marked found.1 isSign found.2 (List.all_eq_true.1 List.all_takeWhile)
    · exact .none

/-- Where a numeral ends, there is no exponent part. -/
theorem Ends.exponentPart_eq {rest : List Char} (ends : Ends rest) :
    exponentPart rest = (0, 0) := by
  rcases rest with _ | ⟨c, tail⟩
  · rfl
  · have noMark := ends.noMark c rfl
    simp [exponentPart, noMark]

variable {power rest : List Char} {exponent : Int}

/-- An exponent part starts with its mark. -/
theorem Raised.head (raised : Raised power exponent) :
    ∀ c ∈ power.head?, isDecimalDigit c = false ∧ c ≠ '.' := by
  cases raised with
  | none => nofun
  | marked isMark isSign nonempty all =>
    intro c first
    obtain rfl := Option.some.inj first
    rcases isMark with rfl | rfl <;> decide

/-- An exponent part goes on with neither digits nor a point, where it ends. -/
theorem Raised.head_append (raised : Raised power exponent) (ends : Ends rest) :
    ∀ c ∈ (power ++ rest).head?, isDecimalDigit c = false ∧ c ≠ '.' := by
  cases power with
  | nil => exact fun c first => ⟨ends.noDigit c first, ends.noPoint c first⟩
  | cons mark others => exact raised.head

/-- An exponent part is read as a whole, where it ends. -/
theorem Raised.exponentPart_append (raised : Raised power exponent) (ends : Ends rest) :
    exponentPart (power ++ rest) = (exponent, power.length) := by
  cases raised with
  | none => exact ends.exponentPart_eq
  | marked isMark isSign nonempty all =>
    have stops := takeWhile_isDecimalDigit_append all ends.noDigit
    rw [List.takeWhile_append_of_pos all] at stops
    rw [exponentPart_marked isMark isSign nonempty all rest, stops, List.length_cons,
      List.length_append, Nat.add_assoc, Nat.add_comm 1]

end Exponents

section Mantissas

variable {whole point fraction tail : List Char}

/-- A text is scanned by its parts, up to a tail that goes on with none of them. -/
theorem scan?_parts (wholeAll : ∀ c ∈ whole, isDecimalDigit c = true)
    (fractionAll : ∀ c ∈ fraction, isDecimalDigit c = true) (pointed : Pointed point fraction)
    (noDigit : ∀ c ∈ tail.head?, isDecimalDigit c = false)
    (noPoint : point = [] → ∀ c ∈ tail.head?, c ≠ '.') :
    scan? (whole ++ point ++ fraction ++ tail) =
      if whole ++ fraction = [] then none else
        some ⟨⟨digitsValue (whole ++ fraction), (exponentPart tail).1 - fraction.length⟩,
          (whole ++ point ++ fraction).length + (exponentPart tail).2⟩ := by
  cases pointed with
  | whole =>
    have digits := takeWhile_isDecimalDigit_append wholeAll noDigit
    have none : fractionPart tail = ([], 0) := by
      rcases tail with _ | ⟨c, rest⟩
      · rfl
      · exact fractionPart.eq_2 _ fun other same => noPoint rfl c rfl (by cases same; rfl)
    simp [scan?, digits, none]
  | point =>
    have digits : (whole ++ '.' :: (fraction ++ tail)).takeWhile isDecimalDigit = whole := by
      refine takeWhile_isDecimalDigit_append wholeAll fun c first => ?_
      obtain rfl : '.' = c := by simpa using first
      decide
    have fractionDigits := takeWhile_isDecimalDigit_append fractionAll noDigit
    have length : (whole ++ ['.'] ++ fraction).length = whole.length + 1 + fraction.length := by
      rw [List.length_append, List.length_append, List.length_singleton]
    have behind : (whole ++ '.' :: (fraction ++ tail)).drop (whole.length + 1 + fraction.length) =
        tail := by
      rw [← length, show whole ++ '.' :: (fraction ++ tail) = whole ++ ['.'] ++ fraction ++ tail by
        simp, List.drop_left]
    rw [length]
    simp [scan?, digits, fractionPart, fractionDigits, behind]

/-- Every text starts with digits, a point with digits or neither, and goes on with none of them. -/
theorem exists_parts (text : List Char) :
    ∃ whole point fraction tail, text = whole ++ point ++ fraction ++ tail ∧
      (∀ c ∈ whole, isDecimalDigit c = true) ∧ (∀ c ∈ fraction, isDecimalDigit c = true) ∧
      Pointed point fraction ∧ (∀ c ∈ tail.head?, isDecimalDigit c = false) ∧
      (point = [] → ∀ c ∈ tail.head?, c ≠ '.') := by
  have split (text : List Char) : ∃ digits tail, text = digits ++ tail ∧
      (∀ c ∈ digits, isDecimalDigit c = true) ∧ ∀ c ∈ tail.head?, isDecimalDigit c = false :=
    ⟨_, _, List.takeWhile_append_dropWhile.symm, List.all_eq_true.1 List.all_takeWhile,
      dropWhile_stays⟩
  obtain ⟨whole, rest, rfl, wholeAll, noDigit⟩ := split text
  by_cases pointed : ∃ behind, rest = '.' :: behind
  · obtain ⟨behind, rfl⟩ := pointed
    obtain ⟨fraction, tail, rfl, fractionAll, noDigitBehind⟩ := split behind
    exact ⟨whole, ['.'], fraction, tail, by simp, wholeAll, fractionAll, .point fraction,
      noDigitBehind, nofun⟩
  · refine ⟨whole, [], [], rest, by simp, wholeAll, nofun, .whole, noDigit, ?_⟩
    rintro - c first rfl
    exact pointed ((List.head?_eq_some_iff.1 first).imp fun _ same => same)

/-- What the scanner finds is a numeral, and it stands for its decimal. -/
theorem denotes_of_scan? {text : List Char} {numeral : Numeral}
    (found : scan? text = some numeral) :
    Denotes (text.take numeral.length) numeral.value := by
  obtain ⟨whole, point, fraction, tail, rfl, wholeAll, fractionAll, pointed, noDigit, noPoint⟩ :=
    exists_parts text
  rw [scan?_parts wholeAll fractionAll pointed noDigit noPoint] at found
  split at found
  · cases found
  · next nonempty =>
    cases found
    rw [List.take_length_add_append]
    exact .parts nonempty wholeAll fractionAll pointed (raised_exponentPart tail)

/-- A numeral is scanned as a whole where it ends, as the decimal it stands for. -/
theorem Denotes.scan?_append {text rest : List Char} {value : Decimal}
    (denotes : Denotes text value) (ends : Ends rest) :
    scan? (text ++ rest) = some ⟨value, text.length⟩ := by
  cases denotes with
  | parts nonempty wholeAll fractionAll pointed raised =>
    have head := raised.head_append ends
    have read := scan?_parts wholeAll fractionAll pointed (fun c first => (head c first).1)
      fun _ c first => (head c first).2
    rw [List.append_assoc, read, if_neg nonempty, raised.exponentPart_append ends,
      ← List.length_append]

/-- A text that is a numeral is scanned as a whole. -/
theorem Denotes.scan?_eq {text : List Char} {value : Decimal} (denotes : Denotes text value) :
    scan? text = some ⟨value, text.length⟩ := by
  simpa using denotes.scan?_append .nil

/-- A mantissa is read to its end at least, whatever follows. -/
theorem exists_scan?_mantissa (nonempty : whole ++ fraction ≠ [])
    (wholeAll : ∀ c ∈ whole, isDecimalDigit c = true)
    (fractionAll : ∀ c ∈ fraction, isDecimalDigit c = true) (pointed : Pointed point fraction)
    (rest : List Char) :
    ∃ numeral, scan? (whole ++ point ++ fraction ++ rest) = some numeral ∧
      (whole ++ point ++ fraction).length ≤ numeral.length := by
  cases pointed with
  | whole =>
    have digits : (whole ++ rest).takeWhile isDecimalDigit =
        whole ++ rest.takeWhile isDecimalDigit := List.takeWhile_append_of_pos wholeAll
    rw [List.append_nil] at nonempty
    simp only [List.append_nil, scan?, digits]
    rw [if_neg (by simp [nonempty])]
    refine ⟨_, rfl, ?_⟩
    simp only [List.length_append]
    omega
  | point =>
    have digits : (whole ++ '.' :: (fraction ++ rest)).takeWhile isDecimalDigit = whole := by
      refine takeWhile_isDecimalDigit_append wholeAll fun c first => ?_
      obtain rfl := Option.some.inj first
      decide
    have more : (fraction ++ rest).takeWhile isDecimalDigit =
        fraction ++ rest.takeWhile isDecimalDigit := List.takeWhile_append_of_pos fractionAll
    have text : whole ++ ['.'] ++ fraction ++ rest = whole ++ '.' :: (fraction ++ rest) := by simp
    have some : ¬(whole.isEmpty && (fraction ++ rest.takeWhile isDecimalDigit).isEmpty) = true := by
      rw [Bool.and_eq_true, List.isEmpty_iff, List.isEmpty_iff, List.append_eq_nil_iff]
      rintro ⟨noWhole, noFraction, _⟩
      exact nonempty (by rw [noWhole, noFraction]; rfl)
    simp only [text, scan?, digits, List.drop_left, fractionPart, more]
    rw [if_neg some]
    refine ⟨_, rfl, ?_⟩
    simp only [List.length_append, List.length_singleton]
    omega

/-- Where a numeral stands at the front of a text, the scanner finds one that is as long at
least. -/
theorem exists_scan?_of_denotes {front : List Char} {value : Decimal}
    (denotes : Denotes front value) (rest : List Char) :
    ∃ numeral, scan? (front ++ rest) = some numeral ∧ front.length ≤ numeral.length := by
  cases denotes with
  | @parts whole point fraction power exponent nonempty wholeAll fractionAll pointed raised =>
    cases raised with
    | none =>
      rw [List.append_nil]
      exact exists_scan?_mantissa nonempty wholeAll fractionAll pointed rest
    | @marked mark sign digits isMark isSign some all =>
      have head : ∀ c ∈ (mark :: (sign ++ digits) ++ rest).head?,
          isDecimalDigit c = false ∧ c ≠ '.' := (Raised.marked isMark isSign some all).head
      have read := scan?_parts wholeAll fractionAll pointed (fun c first => (head c first).1)
        fun _ c first => (head c first).2
      rw [List.append_assoc, read, if_neg nonempty,
        exponentPart_marked isMark isSign some all rest]
      refine ⟨_, rfl, ?_⟩
      simp only [List.length_append, List.length_cons]
      omega

/-- A numeral starts with a digit or a point. -/
theorem Denotes.head {text : List Char} {value : Decimal} (denotes : Denotes text value) :
    ∃ c rest, text = c :: rest ∧ (isDecimalDigit c = true ∨ c = '.') := by
  cases denotes with
  | @parts whole point fraction power exponent nonempty wholeAll fractionAll pointed raised =>
    cases whole with
    | cons c others => exact ⟨c, _, rfl, .inl (wholeAll c List.mem_cons_self)⟩
    | nil =>
      cases pointed with
      | whole => exact absurd rfl nonempty
      | point => exact ⟨'.', _, rfl, .inr rfl⟩

end Mantissas

end Tangent.Numeral
