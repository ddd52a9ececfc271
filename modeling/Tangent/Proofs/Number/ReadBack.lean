import Tangent.Proofs.Decimal.Entry
import Tangent.Proofs.Decimal.Shortest
import Tangent.Proofs.Number.Order

/-!
# Machine numbers are read back

The interval of a machine number holds the sizes that are rounded to it, and it is wide enough for
its shortest decimal to lie inside. So a number that is written with its shortest decimal is read
back as itself.
-/

namespace Tangent

namespace Binary64

variable {value : Float}

/-- Whole numbers over the denominator of an interval are quarters of the last place. -/
theorem quarters (count : Nat) (exponent : Int) :
    ((count * (powerOfTwo (exponent - 2)).1 : Nat) : ℚ) / (powerOfTwo (exponent - 2)).2 =
      count / 4 * 2 ^ exponent := by
  rw [Nat.cast_mul, mul_div_assoc, powerOfTwo_div, zpow_sub₀ two_ne_zero]
  norm_num
  ring

/-- An interval ends in the middle between its number and the next one. -/
theorem interval_upper (value : Float) :
    ((interval value).upper : ℚ) / (interval value).denominator = middle (sizeBits value) := by
  have ends := quarters (4 * significandOf (sizeBits value) + 2) (lastPlace (sizeBits value))
  simp only [interval, size_eq]
  rw [ends, middle, sizeOf]
  push_cast
  ring

/-- An interval starts in the middle between its number and the one before. -/
theorem interval_lower (nonzero : 0 < sizeBits value) :
    ((interval value).lower : ℚ) / (interval value).denominator = middle (sizeBits value - 1) := by
  have positive := significandOf_pos nonzero
  rw [middle_pred nonzero, lastPlace_pred nonzero]
  simp only [interval, size_eq]
  split
  · rw [quarters, sizeOf, Nat.cast_sub (by omega), zpow_sub_one₀ two_ne_zero]
    push_cast
    ring
  · rw [quarters, sizeOf, Nat.cast_sub (by omega)]
    push_cast
    ring

/-- Whether the ends of an interval belong to it depends on its number. -/
theorem interval_closed (value : Float) :
    (interval value).closed = true ↔ sizeBits value % 2 = 0 := by
  rw [← significandOf_mod_two]
  simp only [interval, size_eq]
  exact beq_iff_eq

/-- What lies in the interval of a number is rounded to it. -/
theorem rounds_of_contains {size : ℚ} (finite : sizeBits value < infinityBits)
    (nonzero : 0 < sizeBits value) (contains : (interval value).Contains size) :
    Rounds size (sizeBits value) := by
  rw [Decimal.Interval.Contains, interval_lower nonzero, interval_upper] at contains
  have rounds : Rounds size (min (sizeBits value) infinityBits) := by
    split at contains
    · next closed =>
      have even := (interval_closed value).1 closed
      refine rounds_of_not_exceeds (fun below next => ?_) ?_
      · rw [next, Nat.add_sub_cancel] at contains
        exact contains.1.lt_or_eq.imp_right fun same => ⟨same, by omega⟩
      · rintro (beyond | ⟨_, odd⟩)
        · exact contains.2.not_gt beyond
        · omega
    · refine rounds_of_not_exceeds (fun below next => ?_) ?_
      · rw [next, Nat.add_sub_cancel] at contains
        exact .inl contains.1
      · rintro (beyond | ⟨same, _⟩)
        · exact contains.2.not_gt beyond
        · exact contains.2.ne' same
  rwa [Nat.min_eq_left finite.le] at rounds

/-- The shortest decimal of a number lies in its interval. -/
theorem contains_shortest (nonzero : 0 < sizeBits value) :
    (interval value).Contains (interval value).shortest.toRat := by
  have positive := significandOf_pos nonzero
  have bounded := significandOf_lt (sizeBits value)
  have scale : 0 < (powerOfTwo (lastPlace (sizeBits value) - 2)).1 := Nat.pow_pos two_pos
  refine Decimal.Interval.contains_shortest ?_ ?_ ?_ ?_
  · simp only [interval]
    exact Nat.pow_pos two_pos
  · simp only [interval, size_eq]
    refine Nat.mul_lt_mul_of_pos_right ?_ scale
    split <;> omega
  · simp only [interval, size_eq]
    exact Nat.mul_lt_mul_of_pos_right (by omega) scale
  · have places : Decimal.tenTo (Decimal.Interval.mostDigits - 1) = 10 ^ 16 := rfl
    simp only [interval, size_eq, places, show leastNormal = 2 ^ 52 from rfl]
    rw [Nat.mul_right_comm, ← Nat.add_mul, Nat.mul_right_comm]
    refine Nat.mul_lt_mul_of_pos_right ?_ scale
    split <;> omega

/-- The shortest decimal of a finite number is rounded to its size. -/
theorem rounds_shortest (finite : sizeBits value < infinityBits) :
    Rounds (shortest value).toRat (sizeBits value) := by
  rcases Nat.eq_zero_or_pos (sizeBits value) with zero | nonzero
  · have none : (size value).significand = 0 := by
      rw [size_eq, zero]
      rfl
    have rounds := rounds_sizeOf finite.le
    rw [zero, sizeOf_zero] at rounds
    rwa [shortest, if_pos none, Decimal.toRat, Nat.cast_zero, zero_mul, zero]
  · have some : (size value).significand ≠ 0 := by
      rw [size_eq]
      exact (significandOf_pos nonzero).ne'
    rw [shortest, if_neg some]
    exact rounds_of_contains finite nonzero (contains_shortest nonzero)

/-- A decimal that is rounded to the size of a number is read as the number without its sign. -/
theorem ofDecimal_eq_magnitude {decimal : Decimal}
    (rounds : Rounds decimal.toRat (sizeBits value)) :
    ofDecimal decimal = Number.magnitude value := by
  have read := rounds_ofDecimal decimal
  obtain ⟨bits, sign⟩ := unsigned_of_le read.bounded
  obtain ⟨kept, unsigned⟩ := sign_magnitude rounds.bounded
  refine eq_of_sizeBits ?_ (sign.trans unsigned.symm)
  rw [bits, kept]
  exact read.unique rounds

end Binary64

namespace Number

open Binary64

/-- The literal of a machine number is read back. -/
theorem readsBack (value : Float) : ReadsBack value := by
  intro finite
  refine ofDecimal_eq_magnitude ?_
  rw [Decimal.toRat_spelled]
  exact rounds_shortest (lt_of_isFinite finite)

/-- A size with the sign of a number in front is entered as a finite number with that sign. -/
theorem read?_signed {value : Float} {text : List Char} {written : Decimal}
    (bounded : sizeBits value ≤ infinityBits) (denotes : Numeral.Denotes text written) :
    NumberEntry.read? (signed value (String.ofList text)) =
      some (.finite (signBit value) written) := by
  rw [signed, isNegative_eq bounded]
  cases signBit value
  · have unsigned : Numeral.IsSign [] := .inl rfl
    have read := NumberEntry.read?_append unsigned denotes
    rwa [List.nil_append, show startsNegative [] = false from rfl] at read
  · have minus : Numeral.IsSign ['-'] := .inr (.inr rfl)
    have read := NumberEntry.read?_append minus denotes
    rwa [String.ofList_append, show startsNegative ['-'] = true from rfl] at read

/-- A machine number is read back from its full text. -/
theorem read?_fullText (value : Float) : read? (fullText value) = some value := by
  rw [fullText]
  split
  · next undefined =>
    rw [eq_of_undefined undefined]
    decide +kernel
  · next infinite =>
    rcases eq_of_infinite infinite with rfl | rfl
    · decide +kernel
    · decide +kernel
  · next finite =>
    have below : sizeBits value < infinityBits := lt_of_isFinite (congrArg Extended.isFinite finite)
    have ending : fullStyle.wholeEnding = [] ∨ fullStyle.wholeEnding = ['.', '0'] := .inr rfl
    obtain ⟨written, denotes, same⟩ := Decimal.denotes_write ending (shortest value)
    have rounds : Rounds written.toRat (sizeBits value) := by
      rw [same]
      exact rounds_shortest below
    have whole := sign_magnitude_eq below.le
    rw [← ofDecimal_eq_magnitude rounds] at whole
    rw [read?, read?_signed below.le denotes]
    exact congrArg some whole

end Number

end Tangent
