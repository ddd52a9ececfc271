import Tangent.Proofs.Decimal.Numerals
import Tangent.Token.Lexer

/-!
# Written decimals are read back

A written decimal is a single numeral: read off the front of any text that goes on with something
apart, it takes all of its characters and no more. It gives the same digits and exponent again,
but for a whole number, whose zeros have become digits.
-/

namespace Tangent

namespace Text

/-- The digits of the basic script are the characters from zero to nine. -/
theorem isDigit_iff {c : Char} : c.isDigit = true ↔ 48 ≤ c.toNat ∧ c.toNat ≤ 57 := by
  simp [Char.isDigit, UInt32.le_iff_toNat_le]

/-- A digit of the basic script stands for its distance from zero. -/
theorem digitValue?_of_isDigit {c : Char} (digit : c.isDigit = true) :
    digitValue? c = some (c.toNat - '0'.toNat) := by
  simp [digitValue?, zeroDigits, isDigit_iff.1 digit]

/-- A digit of the basic script is a decimal digit. -/
theorem isDecimalDigit_of_isDigit {c : Char} (digit : c.isDigit = true) :
    isDecimalDigit c = true := by
  simp [isDecimalDigit, digitValue?_of_isDigit digit]

/-- Among the basic characters there are no other digits than those of the basic script. -/
theorem isDigit_of_isDecimalDigit {c : Char} (basic : c.toNat < 128)
    (digit : isDecimalDigit c = true) : c.isDigit = true := by
  have others : ∀ first ∈ zeroDigits, first = 48 ∨ 128 ≤ first := by decide
  simp only [isDecimalDigit, digitValue?, Option.isSome_map, List.find?_isSome, Bool.and_eq_true,
    decide_eq_true_eq] at digit
  obtain ⟨first, listed, atLeast, atMost⟩ := digit
  rw [isDigit_iff]
  rcases others first listed with rfl | above <;> omega

/-- The value of basic digits is the number they spell. -/
theorem digitsValue_eq_ofDigitChars {digits : List Char}
    (basic : ∀ c ∈ digits, c.isDigit = true) :
    digitsValue digits = Nat.ofDigitChars 10 digits 0 := by
  have agree (start : Nat) :
      digits.foldl (fun value digit => 10 * value + (digitValue? digit).getD 0) start =
        Nat.ofDigitChars 10 digits start := by
    induction digits generalizing start with
    | nil => rfl
    | cons digit rest inductionHypothesis =>
      rw [List.foldl_cons, digitValue?_of_isDigit (basic digit List.mem_cons_self),
        inductionHypothesis fun c present => basic c (List.mem_cons_of_mem digit present),
        Nat.ofDigitChars_cons]
      rfl
  exact agree 0

end Text

namespace Decimal

open Text

/-- Written digits are digits of the basic script. -/
theorem isDigit_of_mem_digitText {number : Nat} {c : Char} (present : c ∈ digitText number) :
    c.isDigit = true :=
  Nat.isDigit_of_mem_toDigits (by decide) (by decide) present

/-- Zeros are digits of the basic script. -/
theorem isDigit_of_mem_zeros {count : Nat} {c : Char} (present : c ∈ zeros count) :
    c.isDigit = true := by
  rw [List.eq_of_mem_replicate present]
  rfl

/-- The digits of a number stand for it. -/
theorem digitsValue_digitText (number : Nat) : digitsValue (digitText number) = number := by
  rw [digitsValue_eq_ofDigitChars fun _ => isDigit_of_mem_digitText]
  exact Nat.ofDigitChars_ten_toDigits

/-- Zeros in front of digits do not count. -/
theorem digitsValue_zeros_append (count number : Nat) :
    digitsValue (zeros count ++ digitText number) = number := by
  have basic : ∀ c ∈ zeros count ++ digitText number, c.isDigit = true := by
    intro c present
    rcases List.mem_append.1 present with zero | digit
    · exact isDigit_of_mem_zeros zero
    · exact isDigit_of_mem_digitText digit
  rw [digitsValue_eq_ofDigitChars basic, Nat.ofDigitChars_append, zeros,
    Nat.ofDigitChars_replicate_zero, Nat.mul_zero]
  exact Nat.ofDigitChars_ten_toDigits

/-- A zero behind digits counts as a factor of ten. -/
theorem digitsValue_append_zeros (count number : Nat) :
    digitsValue (digitText number ++ zeros count) = number * tenTo count := by
  have basic : ∀ c ∈ digitText number ++ zeros count, c.isDigit = true := by
    intro c present
    rcases List.mem_append.1 present with digit | zero
    · exact isDigit_of_mem_digitText digit
    · exact isDigit_of_mem_zeros zero
  rw [digitsValue_eq_ofDigitChars basic, Nat.ofDigitChars_append, zeros,
    Nat.ofDigitChars_replicate_zero, digitText, Nat.ofDigitChars_ten_toDigits, Nat.mul_comm]
  rfl

end Decimal

namespace Decimal

open Text Numeral

/-- The decimal that a written one spells: a whole number that is written without an exponent has
its zeros as digits. -/
def spelled (style : Style) (decimal : Decimal) : Decimal :=
  let leading := (digitText decimal.digits).length + decimal.exponent - 1
  if style.leastPositional ≤ leading ∧ leading < style.scientificFrom ∧ 0 ≤ decimal.exponent then
    ⟨decimal.digits * tenTo decimal.exponent.toNat, 0⟩
  else decimal

/-- A written exponent is an exponent part. -/
theorem raised_exponentText (width : Nat) (exponent : Int) :
    Raised (exponentText width exponent) exponent := by
  have all : ∀ c ∈ padded width (digitText exponent.natAbs), isDecimalDigit c = true := by
    intro c present
    rcases List.mem_append.1 present with zero | digit
    · exact isDecimalDigit_of_isDigit (isDigit_of_mem_zeros zero)
    · exact isDecimalDigit_of_isDigit (isDigit_of_mem_digitText digit)
  have nonempty : padded width (digitText exponent.natAbs) ≠ [] :=
    List.append_ne_nil_of_right_ne_nil _ Nat.toDigits_ne_nil
  have value : digitsValue (padded width (digitText exponent.natAbs)) = exponent.natAbs :=
    digitsValue_zeros_append _ _
  by_cases negative : exponent < 0
  · have signed : signedInt true exponent.natAbs = exponent := by
      rw [signedInt, if_pos rfl]
      omega
    have raised := Raised.marked (.inl rfl) (.inr (.inr rfl)) nonempty all
    rw [value, show startsNegative ['-'] = true from rfl, signed] at raised
    rw [exponentText, if_pos negative]
    exact raised
  · have signed : signedInt false exponent.natAbs = exponent := by
      rw [signedInt, if_neg Bool.false_ne_true]
      omega
    have raised := Raised.marked (.inl rfl) (.inr (.inl rfl)) nonempty all
    rw [value, show startsNegative ['+'] = false from rfl, signed] at raised
    rw [exponentText, if_neg negative]
    exact raised

/-- The literal that stands for infinity is a single numeral. -/
theorem denotes_overflow : Denotes "1e999".toList ⟨1, 999⟩ := by
  have one : ∀ c ∈ ['1'], isDecimalDigit c = true := List.all_eq_true.1 rfl
  have nines : ∀ c ∈ ['9', '9', '9'], isDecimalDigit c = true := List.all_eq_true.1 rfl
  have raised : Raised ['e', '9', '9', '9'] 999 :=
    .marked (.inl rfl) (.inl rfl) (List.cons_ne_nil '9' ['9', '9']) nines
  have none : ∀ c ∈ ([] : List Char), isDecimalDigit c = true := nofun
  exact .parts (List.cons_ne_nil '1' []) one none .whole raised

section Parts

variable {whole point fraction rest : List Char}

/-- Digits with an exponent are read up to its end. -/
theorem scan?_scientific (nonempty : whole ≠ []) (wholeBasic : ∀ c ∈ whole, c.isDigit = true)
    (fractionBasic : ∀ c ∈ fraction, c.isDigit = true) (pointed : Pointed point fraction)
    (width : Nat) (exponent : Int) (ends : Numeral.Ends rest) :
    scan? (whole ++ point ++ fraction ++ exponentText width exponent ++ rest) =
      some ⟨⟨digitsValue (whole ++ fraction), exponent - fraction.length⟩,
        (whole ++ point ++ fraction ++ exponentText width exponent).length⟩ :=
  (Denotes.parts (List.append_ne_nil_of_left_ne_nil nonempty _)
    (fun c present => isDecimalDigit_of_isDigit (wholeBasic c present))
    (fun c present => isDecimalDigit_of_isDigit (fractionBasic c present)) pointed
    (raised_exponentText width exponent)).scan?_append ends

/-- Digits without an exponent are read up to their end. -/
theorem scan?_positional (nonempty : whole ≠ []) (wholeBasic : ∀ c ∈ whole, c.isDigit = true)
    (fractionBasic : ∀ c ∈ fraction, c.isDigit = true) (pointed : Pointed point fraction)
    (ends : Numeral.Ends rest) :
    scan? (whole ++ point ++ fraction ++ rest) =
      some ⟨⟨digitsValue (whole ++ fraction), -fraction.length⟩,
        (whole ++ point ++ fraction).length⟩ := by
  have denotes := Denotes.parts (List.append_ne_nil_of_left_ne_nil nonempty _)
    (fun c present => isDecimalDigit_of_isDigit (wholeBasic c present))
    (fun c present => isDecimalDigit_of_isDigit (fractionBasic c present)) pointed .none
  simpa using denotes.scan?_append ends

/-- Digits are read back from a mantissa with an exponent. -/
theorem scan?_mantissa {digits : List Char} (nonempty : digits ≠ [])
    (basic : ∀ c ∈ digits, c.isDigit = true) (width : Nat) (exponent : Int)
    (ends : Numeral.Ends rest) :
    scan? (mantissa digits ++ exponentText width (digits.length + exponent - 1) ++ rest) =
      some ⟨⟨digitsValue digits, exponent⟩,
        (mantissa digits ++ exponentText width (digits.length + exponent - 1)).length⟩ := by
  rcases digits with _ | ⟨first, _ | ⟨second, others⟩⟩
  · exact absurd rfl nonempty
  · have read := scan?_scientific nonempty basic (by simp) .whole width
      (([first].length : Int) + exponent - 1) ends
    simp only [List.append_nil] at read
    have moved : ([first].length : Int) + exponent - 1 - ([] : List Char).length = exponent := by
      simp only [List.length_cons, List.length_nil]
      omega
    rwa [moved] at read
  · have read := scan?_scientific (List.cons_ne_nil first [])
      (fun c present => basic c (by simp_all))
      (fun c present => basic c (List.mem_cons_of_mem first present)) (.point (second :: others))
      width (((first :: second :: others).length : Int) + exponent - 1) ends
    have moved : ((first :: second :: others).length : Int) + exponent - 1 -
        (second :: others).length = exponent := by
      simp only [List.length_cons]
      omega
    rwa [moved] at read

/-- Digits are read back from both sides of a point among them. -/
theorem scan?_inside {digits : List Char} (basic : ∀ c ∈ digits, c.isDigit = true) {exponent : Int}
    (fractional : exponent < 0) (inside : 0 < (digits.length : Int) + exponent)
    (ends : Numeral.Ends rest) :
    let pointAt := ((digits.length : Int) + exponent).toNat
    scan? (digits.take pointAt ++ '.' :: digits.drop pointAt ++ rest) =
      some ⟨⟨digitsValue digits, exponent⟩,
        (digits.take pointAt ++ '.' :: digits.drop pointAt).length⟩ := by
  intro pointAt
  have nonempty : digits.take pointAt ≠ [] := by
    rw [Ne, List.take_eq_nil_iff, ← List.length_eq_zero_iff]
    omega
  have read := scan?_positional nonempty (fun c present => basic c (List.mem_of_mem_take present))
    (fun c present => basic c (List.mem_of_mem_drop present)) (.point (digits.drop pointAt)) ends
  have places : -((digits.drop pointAt).length : Int) = exponent := by
    rw [List.length_drop]
    omega
  rw [List.take_append_drop, places] at read
  simpa using read

/-- Digits are read back from behind a point and zeros. -/
theorem scan?_below {digits : List Char} (basic : ∀ c ∈ digits, c.isDigit = true) {exponent : Int}
    (below : (digits.length : Int) + exponent ≤ 0) (ends : Numeral.Ends rest) :
    let gap := (-((digits.length : Int) + exponent)).toNat
    scan? ('0' :: '.' :: (zeros gap ++ digits) ++ rest) =
      some ⟨⟨digitsValue (zeros (gap + 1) ++ digits), exponent⟩,
        ('0' :: '.' :: (zeros gap ++ digits)).length⟩ := by
  intro gap
  have read := scan?_positional (List.cons_ne_nil '0' []) (by simp)
    (List.forall_mem_append.2 ⟨fun c => isDigit_of_mem_zeros, basic⟩)
    (.point (zeros gap ++ digits)) ends
  have places : -((zeros gap ++ digits).length : Int) = exponent := by
    rw [List.length_append, zeros, List.length_replicate]
    omega
  rwa [places] at read

end Parts

/-- A written decimal is read back as a whole. -/
theorem scan?_write {style : Style} (bare : style.wholeEnding = []) (decimal : Decimal)
    {rest : List Char} (ends : Numeral.Ends rest) :
    scan? (write style decimal ++ rest) =
      some ⟨decimal.spelled style, (write style decimal).length⟩ := by
  have basic : ∀ c ∈ digitText decimal.digits, c.isDigit = true :=
    fun c => isDigit_of_mem_digitText
  have nonempty : digitText decimal.digits ≠ [] := Nat.toDigits_ne_nil
  have value := digitsValue_digitText decimal.digits
  have zerosBehind := digitsValue_append_zeros decimal.exponent.toNat decimal.digits
  have zerosInFront (count : Nat) := digitsValue_zeros_append count decimal.digits
  simp only [write, spelled]
  generalize digitText decimal.digits = digits at *
  by_cases scientific : (digits.length : Int) + decimal.exponent - 1 < style.leastPositional ∨
      style.scientificFrom ≤ (digits.length : Int) + decimal.exponent - 1
  · rw [if_pos scientific, if_neg (by omega)]
    have read := scan?_mantissa nonempty basic style.exponentWidth decimal.exponent ends
    rwa [value] at read
  · rw [if_neg scientific]
    by_cases whole : 0 ≤ decimal.exponent
    · rw [if_pos whole, if_pos (by omega), bare, List.append_nil, ← zerosBehind]
      have all : ∀ c ∈ digits ++ zeros decimal.exponent.toNat, c.isDigit = true :=
        List.forall_mem_append.2 ⟨basic, fun c => isDigit_of_mem_zeros⟩
      have read := scan?_positional (List.append_ne_nil_of_left_ne_nil nonempty _) all (by simp)
        .whole ends
      simpa only [List.append_nil, List.length_nil, Int.natCast_zero, Int.neg_zero] using read
    · have kept : ¬(style.leastPositional ≤ (digits.length : Int) + decimal.exponent - 1 ∧
          (digits.length : Int) + decimal.exponent - 1 < style.scientificFrom ∧
            0 ≤ decimal.exponent) := fun all => whole all.2.2
      rw [if_neg whole, if_neg kept]
      by_cases inside : 0 < (digits.length : Int) + decimal.exponent
      · rw [if_pos inside]
        have read := scan?_inside basic (Int.not_le.1 whole) inside ends
        simpa only [value] using read
      · rw [if_neg inside]
        have read := scan?_below basic (Int.not_lt.1 inside) ends
        simpa only [zerosInFront] using read

/-- A written decimal starts with a digit. -/
theorem write_starts (style : Style) (decimal : Decimal) :
    ∃ first rest, write style decimal = first :: rest ∧ first.isDigit = true := by
  have basic : ∀ c ∈ digitText decimal.digits, c.isDigit = true :=
    fun c => isDigit_of_mem_digitText
  have nonempty : digitText decimal.digits ≠ [] := Nat.toDigits_ne_nil
  simp only [write]
  generalize digitText decimal.digits = digits at *
  obtain ⟨first, others, rfl⟩ := List.exists_cons_of_ne_nil nonempty
  have digit : first.isDigit = true := basic first List.mem_cons_self
  split
  · cases others with
    | nil => exact ⟨first, _, rfl, digit⟩
    | cons => exact ⟨first, _, rfl, digit⟩
  · split
    · exact ⟨first, _, rfl, digit⟩
    · split
      · next inside =>
        cases place : (((first :: others).length : Int) + decimal.exponent).toNat with
        | zero => omega
        | succ count => exact ⟨first, _, rfl, digit⟩
      · exact ⟨'0', _, rfl, rfl⟩

end Decimal

end Tangent
