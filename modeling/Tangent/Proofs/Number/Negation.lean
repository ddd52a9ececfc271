import Tangent.Proofs.Number.Binary64

/-!
# Signs of bit patterns

The sign of a machine number is one bit of its pattern, and no other bit changes when a finite
number is negated. Hence a finite number is itself again after two negations, and it stays finite.
-/

namespace Tangent.Binary64

open Float.Model Float.Model.UnpackedFloat

section Signs

variable (bits : BitVec 64)

/-- The sign of a pattern. -/
abbrev signOf : Sign := Sign.ofBitVec (unpackSign (show BitVec Format.binary64.numBits from bits))

/-- The number of a pattern. -/
abbrev numberOf : UnpackedFloat := UnpackedFloat.unpack Format.binary64 bits

/-- A pattern stands for a finite number if its exponent field is not the greatest one. -/
theorem isFinite_numberOf : (numberOf bits).isFinite = !decide (fieldOf bits = -1#11) := by
  rw [numberOf, UnpackedFloat.unpack]
  split
  · next full =>
    have full : fieldOf bits = -1#11 := full
    rw [decide_eq_true full]
    split <;> rfl
  · next other =>
    have other : ¬fieldOf bits = -1#11 := other
    rw [decide_eq_false other]
    split
    · split <;> rfl
    · rfl

/-- The pattern with the other sign. -/
def flipped : BitVec 64 :=
  bits ^^^ 0x8000000000000000#64

theorem flipped_flipped : flipped (flipped bits) = bits := by
  rw [flipped, flipped, BitVec.xor_assoc, BitVec.xor_self, BitVec.xor_zero]

theorem fieldOf_flipped : fieldOf (flipped bits) = fieldOf bits := by
  simp [unpackExponent, flipped, BitVec.extractLsb, BitVec.extractLsb'_xor]

theorem fractionOf_flipped : fractionOf (flipped bits) = fractionOf bits := by
  simp [unpackMantissa, flipped, BitVec.extractLsb, BitVec.extractLsb'_xor]

theorem signOf_flipped : signOf (flipped bits) = -signOf bits := by
  have other (sign : BitVec 1) : Sign.ofBitVec (sign ^^^ 1#1) = -Sign.ofBitVec sign := by
    obtain rfl | rfl := (by decide : ∀ sign : BitVec 1, sign = 0#1 ∨ sign = 1#1) sign <;> rfl
  rw [signOf, signOf, ← other]
  simp [unpackSign, flipped, BitVec.extractLsb, BitVec.extractLsb'_xor]

/-- The pattern with the other sign stands for the negated number. -/
theorem numberOf_flipped : numberOf (flipped bits) = (numberOf bits).neg := by
  have field := fieldOf_flipped bits
  have fraction := fractionOf_flipped bits
  have sign := signOf_flipped bits
  unfold fieldOf at field
  unfold fractionOf at fraction
  unfold signOf at sign
  rw [numberOf, numberOf, UnpackedFloat.unpack, UnpackedFloat.unpack]
  simp only [field, fraction, sign]
  split
  · split <;> rfl
  · split
    · split <;> rfl
    · rfl

end Signs

/-- Numbers are finite that stand for rationals. -/
theorem isFinite_eq_extended (value : Float) : value.isFinite = (extended value).isFinite := by
  have field : fieldOf value.toBits.toBitVec = -1#11 ↔ exponentField value = 2047 := by
    rw [← BitVec.toNat_inj, toNat_fieldOf]
    rfl
  change (numberOf value.toBits.toBitVec).isFinite = _
  rw [isFinite_numberOf, extended]
  split
  · next full =>
    rw [decide_eq_true (field.2 full)]
    split <;> rfl
  · next other =>
    rw [decide_eq_false (mt field.1 other)]
    rfl

/-- Negation of a finite number flips the sign of its pattern. -/
theorem toBits_neg {value : Float} (finite : value.isFinite = true) :
    (-value).toBits.toBitVec = flipped value.toBits.toBitVec := by
  change (numberOf value.toBits.toBitVec).isFinite = true at finite
  rw [isFinite_numberOf, ← fieldOf_flipped, Bool.not_eq_true', decide_eq_false_iff_not] at finite
  change UnpackedFloat.pack Format.binary64 (numberOf value.toBits.toBitVec).neg = _
  rw [← numberOf_flipped]
  exact pack_unpack_of_valid ⟨fun full => absurd full finite⟩

theorem isFinite_neg {value : Float} (finite : value.isFinite = true) :
    (-value).isFinite = true := by
  change (numberOf (-value).toBits.toBitVec).isFinite = true
  rw [toBits_neg finite, isFinite_numberOf, fieldOf_flipped, ← isFinite_numberOf]
  exact finite

/-- The sign of a finite number is back after two changes. -/
theorem neg_neg {value : Float} (finite : value.isFinite = true) : - -value = value := by
  apply Float.toBits_inj.1
  apply UInt64.eq_of_toBitVec_eq
  rw [toBits_neg (isFinite_neg finite), toBits_neg finite, flipped_flipped]

end Tangent.Binary64

namespace Tangent

open Binary64

instance : Number.Coherent Float where
  isFinite_eq := isFinite_eq_extended
  isNegative_infinite value negative infinite := by
    rcases eq_of_infinite infinite with rfl | rfl
    · cases infinite
      rfl
    · cases infinite
      rfl
  neg_neg _ finite := neg_neg finite

instance : Arithmetic.KeepsFinite Float where
  isFinite_neg := Binary64.isFinite_neg
  isFinite_ofNat small := Number.isFinite_ofNat (Nat.le_succ_of_le small)

end Tangent
