import Tangent.Proofs.Number.Negation

/-!
# Zeros of machine numbers

A zero among the operands of a machine operation is not rounded. The result is a zero or undefined,
as the kind of the other operand decides, so that each law is read off a table of kinds.
-/

namespace Tangent.Binary64

open Float.Model Float.Model.UnpackedFloat Arithmetic

/-- Whether an unpacked number is a zero of either sign. -/
def IsZeroKind (number : UnpackedFloat) : Prop :=
  ∃ sign, number = .zero sign

/-- Whether an unpacked number is a zero or undefined. -/
def IsNullKind (number : UnpackedFloat) : Prop :=
  IsZeroKind number ∨ number = .notANumber

section Kinds

variable {left right : UnpackedFloat} (spec : Format)

theorem isZeroKind_neg (zero : IsZeroKind left) : IsZeroKind left.neg := by
  obtain ⟨sign, rfl⟩ := zero
  exact ⟨-sign, rfl⟩

theorem isZeroKind_add (leftZero : IsZeroKind left) (rightZero : IsZeroKind right) :
    IsZeroKind (left.add spec right) := by
  obtain ⟨sign, rfl⟩ := leftZero
  obtain ⟨other, rfl⟩ := rightZero
  rw [UnpackedFloat.add]
  split <;> exact ⟨_, rfl⟩

theorem isZeroKind_sub (leftZero : IsZeroKind left) (rightZero : IsZeroKind right) :
    IsZeroKind (left.sub spec right) := by
  obtain ⟨sign, rfl⟩ := leftZero
  obtain ⟨other, rfl⟩ := rightZero
  rw [UnpackedFloat.sub]
  split <;> exact ⟨_, rfl⟩

theorem isZeroKind_mul_left (zero : IsZeroKind left) (finite : right.isFinite = true) :
    IsZeroKind (left.mul spec right) := by
  obtain ⟨sign, rfl⟩ := zero
  cases right with
  | zero other | finite other mantissa exponent positive => exact ⟨_, rfl⟩
  | infinity other | notANumber => cases finite

theorem isZeroKind_mul_right (finite : left.isFinite = true) (zero : IsZeroKind right) :
    IsZeroKind (left.mul spec right) := by
  obtain ⟨sign, rfl⟩ := zero
  cases left with
  | zero other | finite other mantissa exponent positive => exact ⟨_, rfl⟩
  | infinity other | notANumber => cases finite

theorem isZeroKind_div (zero : IsZeroKind left) (nonzero : ¬IsNullKind right) :
    IsZeroKind (left.div spec right) := by
  obtain ⟨sign, rfl⟩ := zero
  cases right with
  | infinity other | finite other mantissa exponent positive => exact ⟨_, rfl⟩
  | zero other => exact absurd (.inl ⟨other, rfl⟩) nonzero
  | notANumber => exact absurd (.inr rfl) nonzero

theorem isNullKind_neg (null : IsNullKind left) : IsNullKind left.neg := by
  obtain zero | rfl := null
  · exact .inl (isZeroKind_neg zero)
  · exact .inr rfl

theorem isNullKind_add (leftNull : IsNullKind left) (rightNull : IsNullKind right) :
    IsNullKind (left.add spec right) := by
  obtain leftZero | rfl := leftNull
  · obtain rightZero | rfl := rightNull
    · exact .inl (isZeroKind_add spec leftZero rightZero)
    · obtain ⟨sign, rfl⟩ := leftZero
      exact .inr rfl
  · exact .inr rfl

theorem isNullKind_sub (leftNull : IsNullKind left) (rightNull : IsNullKind right) :
    IsNullKind (left.sub spec right) := by
  obtain leftZero | rfl := leftNull
  · obtain rightZero | rfl := rightNull
    · exact .inl (isZeroKind_sub spec leftZero rightZero)
    · obtain ⟨sign, rfl⟩ := leftZero
      exact .inr rfl
  · exact .inr rfl

theorem isNullKind_mul_left (null : IsNullKind left) : IsNullKind (left.mul spec right) := by
  obtain ⟨sign, rfl⟩ | rfl := null
  · cases right with
    | zero other | finite other mantissa exponent positive => exact .inl ⟨_, rfl⟩
    | infinity other | notANumber => exact .inr rfl
  · exact .inr rfl

theorem isNullKind_mul_right (null : IsNullKind right) : IsNullKind (left.mul spec right) := by
  obtain ⟨sign, rfl⟩ | rfl := null
  · cases left with
    | zero other | finite other mantissa exponent positive => exact .inl ⟨_, rfl⟩
    | infinity other | notANumber => exact .inr rfl
  · cases left <;> exact .inr rfl

theorem isNullKind_div (null : IsNullKind left) : IsNullKind (left.div spec right) := by
  obtain ⟨sign, rfl⟩ | rfl := null
  · cases right with
    | infinity other | finite other mantissa exponent positive => exact .inl ⟨_, rfl⟩
    | zero other | notANumber => exact .inr rfl
  · exact .inr rfl

end Kinds

section Values

variable {value : Float}

/-- A number equals zero when it is a zero of either sign. -/
theorem isZero_iff : IsZero value ↔ IsZeroKind value.toModel.unpack := by
  change value.toModel.unpack.beq (.zero .positive) = true ↔ _
  rw [beq_iff_ne_notANumber_and_eq]
  constructor
  · rintro ⟨_, _, same | ⟨_, other⟩ | ⟨same, _⟩⟩
    · exact ⟨_, same⟩
    · cases other
    · exact ⟨_, same⟩
  · rintro ⟨sign, same⟩
    rw [same]
    cases sign <;> simp

/-- A number does not equal itself when it is undefined. -/
theorem beq_self_eq_false_iff : (value == value) = false ↔ value.toModel.unpack = .notANumber := by
  rw [← Bool.not_eq_true]
  change ¬value.toModel.unpack.beq value.toModel.unpack = true ↔ _
  rw [beq_iff_ne_notANumber_and_eq]
  simp

theorem vanishes_iff : Vanishes value ↔ IsNullKind value.toModel.unpack :=
  or_congr isZero_iff beq_self_eq_false_iff

/-- Zeros are packed as they are. -/
theorem isZero_of_packed {number : UnpackedFloat} (zero : IsZeroKind number) :
    IsZero (Float.ofModel (.pack number)) := by
  obtain ⟨sign, rfl⟩ := zero
  exact isZero_iff.2 ⟨sign, unpack_packedZero⟩

/-- Zeros and undefined numbers are packed as they are. -/
theorem vanishes_of_packed {number : UnpackedFloat} (null : IsNullKind number) :
    Vanishes (Float.ofModel (.pack number)) := by
  obtain zero | rfl := null
  · exact .inl (isZero_of_packed zero)
  · exact vanishes_iff.2 (.inr unpack_packedNaN)

end Values

instance : KeepsZero Float where
  isFinite_ofNat small := Number.isFinite_ofNat small
  beq_refl {u} finite := by
    rw [← Bool.not_eq_false, beq_self_eq_false_iff]
    intro undefined
    have finite : u.toModel.unpack.isFinite = true := finite
    rw [undefined] at finite
    cases finite
  isFinite_of_isZero {u} zero := by
    obtain ⟨sign, same⟩ := isZero_iff.1 zero
    change u.toModel.unpack.isFinite = true
    rw [same]
    rfl
  isZero_neg zero := isZero_of_packed (isZeroKind_neg (isZero_iff.1 zero))
  isZero_add leftZero rightZero :=
    isZero_of_packed (isZeroKind_add _ (isZero_iff.1 leftZero) (isZero_iff.1 rightZero))
  isZero_sub leftZero rightZero :=
    isZero_of_packed (isZeroKind_sub _ (isZero_iff.1 leftZero) (isZero_iff.1 rightZero))
  isZero_mul_left zero finite := isZero_of_packed (isZeroKind_mul_left _ (isZero_iff.1 zero) finite)
  isZero_mul_right finite zero :=
    isZero_of_packed (isZeroKind_mul_right _ finite (isZero_iff.1 zero))
  isZero_div zero nonzero :=
    isZero_of_packed (isZeroKind_div _ (isZero_iff.1 zero) (mt vanishes_iff.2 nonzero))
  vanishes_neg null := vanishes_of_packed (isNullKind_neg (vanishes_iff.1 null))
  vanishes_add leftNull rightNull :=
    vanishes_of_packed (isNullKind_add _ (vanishes_iff.1 leftNull) (vanishes_iff.1 rightNull))
  vanishes_sub leftNull rightNull :=
    vanishes_of_packed (isNullKind_sub _ (vanishes_iff.1 leftNull) (vanishes_iff.1 rightNull))
  vanishes_mul_left null := vanishes_of_packed (isNullKind_mul_left _ (vanishes_iff.1 null))
  vanishes_mul_right null := vanishes_of_packed (isNullKind_mul_right _ (vanishes_iff.1 null))
  vanishes_div null := vanishes_of_packed (isNullKind_div _ (vanishes_iff.1 null))

end Tangent.Binary64
