import Mathlib
import Tangent.Number.Binary64
import Tangent.Proofs.Number.Laws

/-!
# Bit patterns

A number keeps the pattern it is made of if that is at most the pattern of the infinity, which is so
of every number that a decimal is read as. Such numbers have no sign and are not undefined.
-/

namespace Tangent.Binary64

open Float.Model Float.Model.UnpackedFloat

section Patterns

variable (bits : BitVec 64)

/-- The fraction of a pattern. -/
abbrev fractionOf : BitVec 52 := unpackMantissa (show BitVec Format.binary64.numBits from bits)

/-- The exponent field of a pattern. -/
abbrev fieldOf : BitVec 11 := unpackExponent (show BitVec Format.binary64.numBits from bits)

theorem toNat_fractionOf : (fractionOf bits).toNat = bits.toNat % 2 ^ 52 := by
  simp [unpackMantissa]

theorem toNat_fieldOf : (fieldOf bits).toNat = bits.toNat / 2 ^ 52 % 2 ^ 11 := by
  simp [unpackExponent, Nat.shiftRight_eq_div_pow]

end Patterns

/-- A pattern up to that of the infinity is valid. -/
theorem valid_of_le {bits : BitVec 64} (bounded : bits.toNat ≤ infinityBits) :
    Format.binary64.Valid bits where
  eq_packedNaN allOnes some := by
    refine absurd (BitVec.eq_of_toNat_eq ?_) some
    have full : (fieldOf bits).toNat = 2047 := congrArg BitVec.toNat allOnes
    rw [toNat_fieldOf] at full
    have none : bits.toNat % 2 ^ 52 = 0 := by
      simp only [infinityBits] at bounded
      omega
    rw [← toNat_fractionOf] at none
    exact none

/-- A number that is made of a pattern up to that of the infinity keeps it. -/
theorem toBits_ofBits {bits : Nat} (bounded : bits ≤ infinityBits) :
    (Float.ofBits bits.toUInt64).toBits.toNat = bits := by
  have small : bits < 2 ^ 64 := Nat.lt_of_le_of_lt bounded (by decide)
  have kept : bits.toUInt64.toBitVec.toNat = bits := Nat.mod_eq_of_lt small
  have packed := pack_unpack_of_valid (valid_of_le (kept.symm ▸ bounded))
  change (UnpackedFloat.pack Format.binary64 (UnpackedFloat.unpack Format.binary64 _)).toNat = bits
  rw [packed, kept]

/-- The number nearest to a quotient has no sign and is not undefined. -/
theorem toBits_nearest_le (numerator denominator : Nat) :
    (nearest numerator denominator).toBits.toNat ≤ infinityBits := by
  rw [nearest]
  split
  · decide
  · rw [toBits_ofBits (Nat.min_le_right _ _)]
    exact Nat.min_le_right _ _

/-- The number nearest to a decimal has no sign and is not undefined. -/
theorem toBits_ofDecimal_le (decimal : Decimal) :
    (ofDecimal decimal).toBits.toNat ≤ infinityBits := by
  rw [ofDecimal]
  split
  · decide
  · split
    · exact Nat.le_of_eq (toBits_ofBits (Nat.le_refl infinityBits))
    · exact toBits_nearest_le _ _

/-- The sign bit of a pattern up to that of the infinity is clear. -/
theorem signBit_eq_false {value : Float} (bounded : value.toBits.toNat ≤ infinityBits) :
    signBit value = false := by
  rw [signBit, beq_eq_false_iff_ne, show twoTo 63 = 2 ^ 63 from rfl]
  rw [infinityBits] at bounded
  omega

/-- The parts of the pattern of an infinite number. -/
theorem parts_of_infinite {value : Float} {negative : Bool}
    (infinite : extended value = .infinite negative) :
    value.toBits.toNat / 2 ^ 52 % 2 ^ 11 = 2047 ∧ value.toBits.toNat % 2 ^ 52 = 0 := by
  rw [extended] at infinite
  split at infinite
  · next full =>
    split at infinite
    · next none => exact ⟨full, none⟩
    · cases infinite
  · cases infinite

/-- The parts of the pattern of an undefined number. -/
theorem parts_of_undefined {value : Float} (undefined : extended value = .undefined) :
    value.toBits.toNat / 2 ^ 52 % 2 ^ 11 = 2047 ∧ value.toBits.toNat % 2 ^ 52 ≠ 0 := by
  rw [extended] at undefined
  split at undefined
  · next full =>
    split at undefined
    · cases undefined
    · next some => exact ⟨full, some⟩
  · cases undefined

/-- There is one infinite number of each sign. -/
theorem eq_of_infinite {value : Float} {negative : Bool}
    (infinite : extended value = .infinite negative) :
    value = Float.ofBits 0x7FF0000000000000 ∨ value = Float.ofBits 0xFFF0000000000000 := by
  have parts := parts_of_infinite infinite
  have bounded := value.toBits.toNat_lt
  have either : value.toBits.toNat = 0x7FF0000000000000 ∨
      value.toBits.toNat = 0xFFF0000000000000 := by
    omega
  rcases either with positive | negative
  · exact .inl (Float.toBits_inj.1 (UInt64.toNat_inj.1 positive))
  · exact .inr (Float.toBits_inj.1 (UInt64.toNat_inj.1 negative))

/-- There is one undefined number. -/
theorem eq_of_undefined {value : Float} (undefined : extended value = .undefined) :
    value = Float.ofBits 0x7FF8000000000000 := by
  obtain ⟨full, some⟩ := parts_of_undefined undefined
  have allOnes : fieldOf value.toBits.toBitVec = -1#11 := by
    apply BitVec.eq_of_toNat_eq
    rw [toNat_fieldOf]
    exact full
  have fractional : fractionOf value.toBits.toBitVec ≠ 0#52 := by
    intro none
    rw [← UInt64.toNat_toBitVec, ← toNat_fractionOf, none] at some
    exact some rfl
  have canonical := value.toModel.valid.eq_packedNaN allOnes fractional
  exact Float.toBits_inj.1 (UInt64.eq_of_toBitVec_eq canonical)

end Tangent.Binary64

namespace Tangent

open Binary64

instance : Number.Lawful Float where
  isNegative_ofDecimal decimal := by
    have clear := signBit_eq_false (toBits_ofDecimal_le decimal)
    change (signBit (ofDecimal decimal) && _) = false
    rw [clear, Bool.false_and]
  extended_ofDecimal decimal undefined := by
    obtain ⟨full, some⟩ := parts_of_undefined undefined
    have bounded := toBits_ofDecimal_le decimal
    rw [infinityBits] at bounded
    change (ofDecimal decimal).toBits.toNat / _ % _ = _ at full
    change (ofDecimal decimal).toBits.toNat % _ ≠ _ at some
    omega
  ofDecimal_overflow value negative infinite := by
    rcases eq_of_infinite infinite with rfl | rfl
    · rfl
    · rfl
  isNegative_undefined value undefined := by
    rw [eq_of_undefined undefined]
    rfl
  extended_ofNat := by decide +kernel

end Tangent
