import Tangent.Proofs.Number.Nearest
import Tangent.Proofs.Number.Negation

/-!
# The order of machine numbers

A machine number is a sign and the pattern of a size. Rounding leaves the sign of a rational alone,
so it keeps the order of all rationals, up to the infinities that the greatest ones are rounded to.
-/

namespace Tangent.Binary64

/-- The pattern of a number without its sign. -/
def sizeBits (value : Float) : Nat :=
  value.toBits.toNat % 2 ^ 63

/-- A rational with the sign of a number. -/
def withSign (negative : Bool) (size : ℚ) : ℚ :=
  if negative then -size else size

/-- The exponent field of a number is part of its pattern without the sign. -/
theorem exponentField_eq (value : Float) : exponentField value = sizeBits value / 2 ^ 52 := by
  change value.toBits.toNat / 2 ^ 52 % 2 ^ 11 = value.toBits.toNat % 2 ^ 63 / 2 ^ 52
  omega

/-- The fraction of a number is part of its pattern without the sign. -/
theorem fraction_eq (value : Float) :
    value.toBits.toNat % leastNormal = sizeBits value % 2 ^ 52 := by
  change value.toBits.toNat % 2 ^ 52 = value.toBits.toNat % 2 ^ 63 % 2 ^ 52
  omega

/-- The significand and the exponent of a number are those of its pattern without the sign. -/
theorem size_eq (value : Float) :
    size value = ⟨significandOf (sizeBits value), lastPlace (sizeBits value)⟩ := by
  simp only [size, exponentField_eq, fraction_eq, significandOf, lastPlace]
  split
  · next subnormal =>
    rw [subnormal, show sizeBits value % 2 ^ 52 = sizeBits value by omega]
    rfl
  · next normal =>
    rw [show leastNormal = 2 ^ 52 from rfl, Size.mk.injEq]
    exact ⟨rfl, by omega⟩

/-- A number whose pattern lies below that of the infinity is finite. -/
theorem extended_of_lt {value : Float} (below : sizeBits value < infinityBits) :
    extended value = .finite (withSign (signBit value) (sizeOf (sizeBits value))) := by
  have field : ¬exponentField value = 2047 := by
    rw [exponentField_eq]
    rw [infinityBits] at below
    omega
  rw [extended, if_neg field, size_eq]
  simp only [withSign, sizeOf, Rat.mkRat_eq_div, ← powerOfTwo_div]
  split <;> simp [mul_div_assoc, neg_div]

/-- A number with the pattern of the infinity is infinite. -/
theorem extended_of_eq {value : Float} (same : sizeBits value = infinityBits) :
    extended value = .infinite (signBit value) := by
  rw [infinityBits] at same
  have field : exponentField value = 2047 := by
    rw [exponentField_eq]
    omega
  have fraction : value.toBits.toNat % leastNormal = 0 := by
    rw [fraction_eq]
    omega
  rw [extended, if_pos field, if_pos fraction]

/-- Numbers with other patterns are undefined. -/
theorem sizeBits_le_of_extended {value : Float} (defined : extended value ≠ .undefined) :
    sizeBits value ≤ infinityBits := by
  by_contra above
  have bounded : sizeBits value < 2 ^ 63 := Nat.mod_lt _ (by decide)
  rw [infinityBits] at above
  have field : exponentField value = 2047 := by
    rw [exponentField_eq]
    omega
  have fraction : ¬value.toBits.toNat % leastNormal = 0 := by
    rw [fraction_eq]
    omega
  rw [extended, if_pos field, if_neg fraction] at defined
  exact defined rfl

/-- The pattern of a finite number lies below that of the infinity. -/
theorem lt_of_isFinite {value : Float} (finite : (extended value).isFinite = true) :
    sizeBits value < infinityBits := by
  refine (sizeBits_le_of_extended fun undefined => ?_).lt_of_ne fun same => ?_
  · rw [undefined] at finite
    cases finite
  · rw [extended_of_eq same] at finite
    cases finite

/-- A number without a sign has its whole pattern as that of its size. -/
theorem unsigned_of_le {value : Float} (bounded : value.toBits.toNat ≤ infinityBits) :
    sizeBits value = value.toBits.toNat ∧ signBit value = false :=
  ⟨Nat.mod_eq_of_lt (bounded.trans_lt (by decide)), signBit_eq_false bounded⟩

/-- Negation changes the sign of a number and leaves the pattern of its size. -/
theorem sign_neg {value : Float} (bounded : sizeBits value ≤ infinityBits) :
    sizeBits (-value) = sizeBits value ∧ signBit (-value) = !signBit value := by
  rcases bounded.lt_or_eq with below | same
  · have finite : value.isFinite = true := by
      rw [isFinite_eq_extended, extended_of_lt below]
      rfl
    have flips : (-value).toBits.toNat = value.toBits.toNat ^^^ 2 ^ 63 := by
      have bits := congrArg BitVec.toNat (toBits_neg finite)
      rwa [flipped, BitVec.toNat_xor] at bits
    constructor
    · rw [sizeBits, flips, Nat.xor_mod_two_pow, Nat.mod_self, Nat.xor_zero, ← sizeBits]
    · have top : value.toBits.toNat / 2 ^ 63 = 0 ∨ value.toBits.toNat / 2 ^ 63 = 1 := by
        have width := value.toBits.toNat_lt
        omega
      rw [signBit, signBit, flips, show twoTo 63 = 2 ^ 63 from rfl, Nat.xor_div_two_pow]
      rcases top with clear | set
      · rw [clear]
        rfl
      · rw [set]
        rfl
  · rcases eq_of_infinite (extended_of_eq same) with rfl | rfl
    · exact ⟨rfl, rfl⟩
    · exact ⟨rfl, rfl⟩

section Signs

variable {value other : Float}

/-- A number is told by its sign and the pattern of its size. -/
theorem eq_of_sizeBits (bits : sizeBits value = sizeBits other)
    (sign : signBit value = signBit other) : value = other := by
  have whole (number : Float) :
      number.toBits.toNat = (signBit number).toNat * 2 ^ 63 + sizeBits number := by
    have width := number.toBits.toNat_lt
    have top : number.toBits.toNat / 2 ^ 63 = 0 ∨ number.toBits.toNat / 2 ^ 63 = 1 := by omega
    rw [signBit, show twoTo 63 = 2 ^ 63 from rfl, sizeBits]
    rcases top with clear | set
    · rw [clear]
      change _ = 0 * 2 ^ 63 + _
      omega
    · rw [set]
      change _ = 1 * 2 ^ 63 + _
      omega
  apply Float.toBits_inj.1
  apply UInt64.toNat_inj.1
  rw [whole, whole, bits, sign]

/-- Numbers that stand for something have a sign if their sign bit is set. -/
theorem isNegative_eq (bounded : sizeBits value ≤ infinityBits) :
    Number.isNegative value = signBit value := by
  rcases bounded.lt_or_eq with below | same
  · have finite : value.isFinite = true := by
      rw [isFinite_eq_extended, extended_of_lt below]
      rfl
    have number : value.isNaN = false := by
      change (numberOf value.toBits.toBitVec).isFinite = true at finite
      change (numberOf value.toBits.toBitVec).isNaN = false
      cases number : numberOf value.toBits.toBitVec with
      | notANumber | infinity =>
        rw [number] at finite
        cases finite
      | zero | finite => rfl
    change (signBit value && !value.isNaN) = signBit value
    rw [number, Bool.not_false, Bool.and_true]
  · rcases eq_of_infinite (extended_of_eq same) with rfl | rfl
    · rfl
    · rfl

/-- A number without its sign keeps the pattern of its size. -/
theorem sign_magnitude (bounded : sizeBits value ≤ infinityBits) :
    sizeBits (Number.magnitude value) = sizeBits value ∧
      signBit (Number.magnitude value) = false := by
  obtain ⟨bits, sign⟩ := sign_neg bounded
  rw [Number.magnitude, isNegative_eq bounded]
  cases signed : signBit value
  · exact ⟨rfl, signed⟩
  · rw [if_pos rfl, sign, signed]
    exact ⟨bits, rfl⟩

/-- A number is itself again with its sign in front of its size. -/
theorem sign_magnitude_eq (bounded : sizeBits value ≤ infinityBits) :
    (if signBit value then -Number.magnitude value else Number.magnitude value) = value := by
  obtain ⟨bits, sign⟩ := sign_magnitude bounded
  obtain ⟨negatedBits, negatedSign⟩ := sign_neg (bits.trans_le bounded)
  split
  · next signed =>
    refine eq_of_sizeBits (negatedBits.trans bits) ?_
    rw [negatedSign, sign, signed]
    rfl
  · next unsigned =>
    refine eq_of_sizeBits bits ?_
    rw [sign, Bool.eq_false_iff.2 unsigned]

end Signs

section Comparison

variable {value other : Float}

/-- The greater size makes the greater number if that has no sign. -/
theorem lessEqual_of_sizeBits_le (order : sizeBits value ≤ sizeBits other)
    (bounded : sizeBits other ≤ infinityBits) (unsigned : signBit other = false) :
    (extended value).lessEqual (extended other) = true := by
  rcases bounded.lt_or_eq with below | same
  · have sizes := sizeOf_strictMono.monotone order
    have size := sizeOf_nonneg (sizeBits value)
    rw [extended_of_lt (order.trans_lt below), extended_of_lt below, unsigned]
    refine decide_eq_true ?_
    cases signBit value
    · exact sizes
    · exact (neg_nonpos.2 size).trans (size.trans sizes)
  · rw [extended_of_eq same, unsigned]
    rcases (order.trans bounded).lt_or_eq with finite | infinite
    · rw [extended_of_lt finite]
      rfl
    · rw [extended_of_eq infinite]
      exact Bool.or_true _

/-- The greater size makes the lesser number if that has a sign. -/
theorem lessEqual_of_le_sizeBits (order : sizeBits other ≤ sizeBits value)
    (bounded : sizeBits value ≤ infinityBits) (signed : signBit value = true) :
    (extended value).lessEqual (extended other) = true := by
  rcases bounded.lt_or_eq with below | same
  · have sizes := sizeOf_strictMono.monotone order
    have size := sizeOf_nonneg (sizeBits other)
    rw [extended_of_lt (order.trans_lt below), extended_of_lt below, signed]
    refine decide_eq_true ?_
    cases signBit other
    · exact (neg_nonpos.2 (size.trans sizes)).trans size
    · exact neg_le_neg sizes
  · rw [extended_of_eq same, signed]
    rcases (order.trans bounded).lt_or_eq with finite | infinite
    · rw [extended_of_lt finite]
      rfl
    · rw [extended_of_eq infinite]
      rfl

end Comparison

/-- Whether a machine number is the one that a rational is rounded to. A zero may have either
sign. -/
structure IsRounding (value : Float) (exact : ℚ) : Prop where
  size : Rounds |exact| (sizeBits value)
  positive : 0 < exact → signBit value = false
  negative : exact < 0 → signBit value = true

namespace IsRounding

variable {value other : Float} {exact greater : ℚ}

/-- The negated number is nearest to the negated rational. -/
theorem neg (nearest : IsRounding value exact) : IsRounding (-value) (-exact) := by
  obtain ⟨bits, sign⟩ := sign_neg nearest.size.bounded
  refine ⟨?_, fun positive => ?_, fun negative => ?_⟩
  · rw [abs_neg, bits]
    exact nearest.size
  · rw [sign, nearest.negative (neg_pos.1 positive)]
    rfl
  · rw [sign, nearest.positive (neg_lt_zero.1 negative)]
    rfl

/-- What a rational is rounded to is not undefined. -/
theorem defined (nearest : IsRounding value exact) : extended value ≠ .undefined := by
  rcases nearest.size.bounded.lt_or_eq with below | same
  · rw [extended_of_lt below]
    exact Extended.noConfusion
  · rw [extended_of_eq same]
    exact Extended.noConfusion

/-- What a finite number stands for is rounded to the number itself. -/
theorem of_extended (finite : extended value = .finite exact) : IsRounding value exact := by
  have below : sizeBits value < infinityBits := lt_of_isFinite (finite ▸ rfl)
  rw [extended_of_lt below, Extended.finite.injEq] at finite
  subst finite
  have size := sizeOf_nonneg (sizeBits value)
  cases sign : signBit value
  · refine ⟨?_, fun _ => sign, fun negative => absurd negative size.not_gt⟩
    rw [withSign, if_neg Bool.false_ne_true, abs_of_nonneg size]
    exact rounds_sizeOf below.le
  · refine ⟨?_, fun positive => absurd positive ?_, fun _ => sign⟩
    · rw [withSign, if_pos rfl, abs_neg, abs_of_nonneg size]
      exact rounds_sizeOf below.le
    · rw [withSign, if_pos rfl, neg_pos]
      exact size.not_gt

/-- A size is rounded to a number without a sign. -/
theorem of_rounds (size : 0 ≤ exact) (rounds : Rounds exact value.toBits.toNat) :
    IsRounding value exact := by
  obtain ⟨bits, sign⟩ := unsigned_of_le rounds.bounded
  refine ⟨?_, fun _ => sign, fun negative => absurd negative size.not_gt⟩
  rwa [abs_of_nonneg size, bits]

/-- A number without a sign is nearest to no negative rational. -/
theorem nonneg (nearest : IsRounding value exact) (unsigned : signBit value = false) :
    0 ≤ exact := by
  refine not_lt.1 fun negative => ?_
  rw [nearest.negative negative] at unsigned
  cases unsigned

/-- A number with a sign is nearest to no positive rational. -/
theorem nonpos (nearest : IsRounding value exact) (signed : signBit value = true) :
    exact ≤ 0 := by
  refine not_lt.1 fun positive => ?_
  rw [nearest.positive positive] at signed
  cases signed

/-- Zero is rounded to zero. -/
theorem sizeBits_eq_zero (nearest : IsRounding value 0) : sizeBits value = 0 := by
  have rounds := nearest.size
  rw [abs_zero, ← sizeOf_zero] at rounds
  exact rounds.unique (rounds_sizeOf (Nat.zero_le _))

/-- Rounding keeps the order of rationals. -/
theorem lessEqual (nearest : IsRounding value exact) (nearestGreater : IsRounding other greater)
    (order : exact ≤ greater) : (extended value).lessEqual (extended other) = true := by
  have bounded := nearest.size.bounded
  have boundedGreater := nearestGreater.size.bounded
  cases sign : signBit value <;> cases signGreater : signBit other
  case false.false =>
    have sizes : |exact| ≤ |greater| := by
      rwa [abs_of_nonneg (nearest.nonneg sign), abs_of_nonneg (nearestGreater.nonneg signGreater)]
    exact lessEqual_of_sizeBits_le (nearest.size.mono nearestGreater.size sizes) boundedGreater
      signGreater
  case false.true =>
    -- Only zero lies between the two.
    have zero : exact = 0 := le_antisymm (order.trans (nearestGreater.nonpos signGreater))
      (nearest.nonneg sign)
    have zeroGreater : greater = 0 := le_antisymm (nearestGreater.nonpos signGreater)
      ((nearest.nonneg sign).trans order)
    subst zero zeroGreater
    have none : sizeBits value = 0 := nearest.sizeBits_eq_zero
    have noneGreater : sizeBits other = 0 := nearestGreater.sizeBits_eq_zero
    rw [extended_of_lt (none ▸ by decide), extended_of_lt (noneGreater ▸ by decide), sign,
      signGreater, none, noneGreater, sizeOf_zero]
    rfl
  case true.false =>
    rcases le_total (sizeBits value) (sizeBits other) with sizes | sizes
    · exact lessEqual_of_sizeBits_le sizes boundedGreater signGreater
    · exact lessEqual_of_le_sizeBits sizes bounded sign
  case true.true =>
    have sizes : |greater| ≤ |exact| := by
      rw [abs_of_nonpos (nearest.nonpos sign), abs_of_nonpos (nearestGreater.nonpos signGreater)]
      exact neg_le_neg order
    exact lessEqual_of_le_sizeBits (nearestGreater.size.mono nearest.size sizes) bounded sign

/-- Whether a rational is rounded to the infinity. -/
theorem eq_infinite_iff (nearest : IsRounding value exact) :
    extended value = .infinite false ↔ leastOverflow ≤ exact := by
  have large := nearest.size.eq_infinityBits_iff
  constructor
  · intro infinite
    rcases nearest.size.bounded.lt_or_eq with below | same
    · rw [extended_of_lt below] at infinite
      cases infinite
    · rw [extended_of_eq same, Extended.infinite.injEq] at infinite
      rw [abs_of_nonneg (nearest.nonneg infinite)] at large
      exact large.1 same
  · intro reached
    have positive : 0 < exact := leastOverflow_pos.trans_le reached
    rw [abs_of_pos positive] at large
    rw [extended_of_eq (large.2 reached), nearest.positive positive]

end IsRounding

/-- The quotient of two whole numbers is computed by rounding. -/
theorem isRounding_quotient (numerator : Int) {denominator : Int} (nonzero : denominator ≠ 0) :
    IsRounding (quotient numerator denominator) (numerator / denominator) := by
  have rounds := rounds_nearest numerator.natAbs (Int.natAbs_pos.2 nonzero)
  have size : (0 : ℚ) ≤ (numerator.natAbs : ℚ) / denominator.natAbs := by positivity
  have nearest := IsRounding.of_rounds size rounds
  rw [Nat.cast_natAbs, Nat.cast_natAbs] at nearest
  rw [quotient]
  rcases lt_or_ge numerator 0 with belowZero | atLeastZero <;>
    rcases denominator.lt_or_gt_of_ne nonzero with negative | positive
  · rw [abs_of_neg belowZero, abs_of_neg negative, Int.cast_neg, Int.cast_neg, neg_div_neg_eq]
      at nearest
    simpa [belowZero, negative] using nearest
  · rw [abs_of_neg belowZero, abs_of_pos positive, Int.cast_neg, neg_div] at nearest
    simpa [belowZero, positive.not_gt] using nearest.neg
  · rw [abs_of_nonneg atLeastZero, abs_of_neg negative, Int.cast_neg, div_neg] at nearest
    simpa [atLeastZero.not_gt, negative] using nearest.neg
  · rw [abs_of_nonneg atLeastZero, abs_of_pos positive] at nearest
    simpa [atLeastZero.not_gt, positive.not_gt] using nearest

/-- A decimal is read by rounding. -/
theorem isRounding_ofDecimal (decimal : Decimal) : IsRounding (ofDecimal decimal) decimal.toRat :=
  .of_rounds decimal.toRat_nonneg (rounds_ofDecimal decimal)

/-- Whether a machine number is what is computed in place of an exact one. -/
def Approximates (value : Float) : Extended → Prop
  | .finite exact => IsRounding value exact
  | .infinite negative => extended value = .infinite negative
  | .undefined => extended value = .undefined

namespace Approximates

variable {value other : Float} {exact greater : Extended}

/-- A machine number is computed in place of what it stands for. -/
theorem refl (value : Float) : Approximates value (extended value) := by
  cases stands : extended value with
  | finite exact => exact .of_extended stands
  | infinite negative => exact stands
  | undefined => exact stands

/-- The order of exact numbers is kept by those that are computed in their place. -/
theorem lessEqual (approximates : Approximates value exact)
    (approximatesGreater : Approximates other greater) (order : exact.lessEqual greater = true) :
    (extended value).lessEqual (extended other) = true := by
  match exact, greater, approximates, approximatesGreater with
  | .finite _, .finite _, nearest, nearestGreater =>
    exact IsRounding.lessEqual nearest nearestGreater (of_decide_eq_true order)
  | .finite _, .infinite false, nearest, infinite =>
    rw [infinite]
    cases stands : extended value with
    | finite => rfl
    | infinite negative => exact Bool.or_true negative
    | undefined => exact absurd stands (IsRounding.defined nearest)
  | .infinite true, .finite _, infinite, nearest =>
    rw [infinite]
    cases stands : extended other with
    | finite => rfl
    | infinite => rfl
    | undefined => exact absurd stands (IsRounding.defined nearest)
  | .infinite _, .infinite _, infinite, infiniteGreater =>
    rw [infinite, infiniteGreater]
    exact order

/-- Which exact numbers the infinity is computed for. -/
theorem eq_infinite_iff (approximates : Approximates value exact) :
    extended value = .infinite false ↔
      (Extended.finite leastOverflow).lessEqual exact = true := by
  match exact, approximates with
  | .finite _, nearest => exact (IsRounding.eq_infinite_iff nearest).trans decide_eq_true_iff.symm
  | .infinite false, infinite => exact iff_of_true infinite rfl
  | .infinite true, infinite =>
    rw [infinite]
    exact iff_of_false (by decide) Bool.false_ne_true
  | .undefined, undefined =>
    rw [undefined]
    exact iff_of_false Extended.noConfusion Bool.false_ne_true

end Approximates

end Tangent.Binary64
