import Tangent.Proofs.Number.Binary64

/-!
# Rounding to machine numbers

The patterns without a sign, counted up to that of the infinity, stand for greater and greater
sizes. A size is rounded past a pattern if it lies beyond the middle between that and the next one,
or in the middle if the pattern is odd; so it is rounded to as many patterns as it is rounded past.
From this it is clear that rounding keeps the order of sizes, and that the size of a number is
rounded to the number itself.
-/

namespace Tangent.Binary64

/-- The significand of a pattern without a sign: subnormal ones have no leading bit. -/
def significandOf (bits : Nat) : Nat :=
  if bits / 2 ^ 52 = 0 then bits else 2 ^ 52 + bits % 2 ^ 52

/-- A significand is even if its pattern is. -/
theorem significandOf_mod_two (bits : Nat) : significandOf bits % 2 = bits % 2 := by
  rw [significandOf]
  split <;> omega

theorem significandOf_lt (bits : Nat) : significandOf bits < 2 ^ 53 := by
  rw [significandOf]
  split <;> omega

theorem significandOf_pos {bits : Nat} (nonzero : 0 < bits) : 0 < significandOf bits := by
  rw [significandOf]
  split <;> omega

/-- The size of a pattern in units of the last place of subnormal numbers. The pattern of the
infinity counts as if it went on from the finite ones. -/
def units (bits : Nat) : Nat :=
  significandOf bits * 2 ^ (bits / 2 ^ 52 - 1)

/-- One pattern further, the size is greater by one unit of the last place. -/
theorem units_succ (bits : Nat) : units (bits + 1) = units bits + 2 ^ (bits / 2 ^ 52 - 1) := by
  have division := Nat.div_add_mod bits (2 ^ 52)
  have significand : significandOf bits + 1 =
      if bits % 2 ^ 52 + 1 = 2 ^ 52 ∧ bits / 2 ^ 52 ≠ 0 then significandOf (bits + 1) * 2
      else significandOf (bits + 1) := by
    simp only [significandOf]
    split <;> split <;> split <;> omega
  have field : (bits + 1) / 2 ^ 52 - 1 =
      if bits % 2 ^ 52 + 1 = 2 ^ 52 ∧ bits / 2 ^ 52 ≠ 0 then bits / 2 ^ 52 - 1 + 1
      else bits / 2 ^ 52 - 1 := by
    split <;> omega
  rw [units, units, field, ← Nat.succ_mul, Nat.succ_eq_add_one, significand]
  split
  · rw [pow_succ, mul_comm _ 2, mul_assoc]
  · rfl

/-- The exponent of the last place of a pattern without a sign. -/
def lastPlace (bits : Nat) : Int :=
  leastExponent + (bits / 2 ^ 52 - 1 : Nat)

/-- Below a power of two that is normal the last place is finer by one. -/
theorem lastPlace_pred {bits : Nat} (nonzero : 0 < bits) :
    lastPlace (bits - 1) =
      if significandOf bits = leastNormal ∧ leastExponent < lastPlace bits then lastPlace bits - 1
      else lastPlace bits := by
  simp only [lastPlace, significandOf, show leastNormal = 2 ^ 52 from rfl]
  split <;> split at * <;> omega

/-- The size that a pattern without a sign stands for. -/
def sizeOf (bits : Nat) : ℚ :=
  significandOf bits * 2 ^ lastPlace bits

theorem sizeOf_eq_units (bits : Nat) : sizeOf bits = units bits * 2 ^ leastExponent := by
  rw [sizeOf, lastPlace, zpow_add₀ two_ne_zero, zpow_natCast, units]
  push_cast
  ring

@[simp] theorem sizeOf_zero : sizeOf 0 = 0 := by
  simp [sizeOf, significandOf]

theorem sizeOf_succ (bits : Nat) : sizeOf (bits + 1) = sizeOf bits + 2 ^ lastPlace bits := by
  rw [sizeOf_eq_units, units_succ, sizeOf_eq_units, lastPlace, zpow_add₀ two_ne_zero, zpow_natCast]
  push_cast
  ring

/-- Greater patterns stand for greater sizes. -/
theorem sizeOf_strictMono : StrictMono sizeOf :=
  strictMono_nat_of_lt_succ fun bits => by
    rw [sizeOf_succ]
    exact lt_add_of_pos_right _ (zpow_pos two_pos _)

theorem sizeOf_nonneg (bits : Nat) : 0 ≤ sizeOf bits :=
  mul_nonneg (Nat.cast_nonneg _) (zpow_pos two_pos _).le

/-- The size in the middle between a pattern and the next one. -/
def middle (bits : Nat) : ℚ :=
  sizeOf bits + 2 ^ lastPlace bits / 2

theorem sizeOf_lt_middle (bits : Nat) : sizeOf bits < middle bits :=
  lt_add_of_pos_right _ (div_pos (zpow_pos two_pos _) two_pos)

theorem middle_lt_sizeOf_succ (bits : Nat) : middle bits < sizeOf (bits + 1) := by
  rw [middle, sizeOf_succ, add_lt_add_iff_left]
  exact half_lt_self (zpow_pos two_pos _)

theorem middle_pred {bits : Nat} (nonzero : 0 < bits) :
    middle (bits - 1) = sizeOf bits - 2 ^ lastPlace (bits - 1) / 2 := by
  have step := sizeOf_succ (bits - 1)
  rw [Nat.sub_add_cancel nonzero] at step
  rw [middle, step]
  ring

theorem middle_strictMono : StrictMono middle :=
  strictMono_nat_of_lt_succ fun bits =>
    (middle_lt_sizeOf_succ bits).trans (sizeOf_lt_middle (bits + 1))

/-- Whether a size is rounded past a pattern. In the middle the even neighbour is chosen. -/
def Exceeds (size : ℚ) (bits : Nat) : Prop :=
  middle bits < size ∨ middle bits = size ∧ bits % 2 = 1

/-- Greater sizes are rounded past the same patterns at least. -/
theorem Exceeds.mono {size greater : ℚ} {bits : Nat} (exceeds : Exceeds size bits)
    (order : size ≤ greater) : Exceeds greater bits := by
  rcases exceeds with beyond | ⟨rfl, odd⟩
  · exact .inl (beyond.trans_le order)
  · exact order.lt_or_eq.imp_right fun same => ⟨same, odd⟩

/-- What is rounded past a pattern is rounded past all lesser ones. -/
theorem Exceeds.of_le {size : ℚ} {bits lesser : Nat} (exceeds : Exceeds size bits)
    (order : lesser ≤ bits) : Exceeds size lesser := by
  rcases order.lt_or_eq with less | rfl
  · have before := middle_strictMono less
    rcases exceeds with beyond | ⟨rfl, _⟩
    · exact .inl (before.trans beyond)
    · exact .inl before
  · exact exceeds

/-- Whether a pattern is the one that a size is rounded to: the first that it is not rounded past,
or the infinity if it is rounded past all others. -/
structure Rounds (size : ℚ) (bits : Nat) : Prop where
  bounded : bits ≤ infinityBits
  lt_iff : ∀ {below}, below < infinityBits → (below < bits ↔ Exceeds size below)

/-- Rounding keeps the order of sizes. -/
theorem Rounds.mono {size greater : ℚ} {bits others : Nat} (rounds : Rounds size bits)
    (roundsGreater : Rounds greater others) (order : size ≤ greater) : bits ≤ others := by
  by_contra less
  have inside : others < infinityBits := (Nat.lt_of_not_le less).trans_le rounds.bounded
  have exceeds := (rounds.lt_iff inside).1 (Nat.lt_of_not_le less)
  exact Nat.lt_irrefl others ((roundsGreater.lt_iff inside).2 (exceeds.mono order))

/-- A size is rounded to one pattern. -/
theorem Rounds.unique {size : ℚ} {bits others : Nat} (rounds : Rounds size bits)
    (roundsOther : Rounds size others) : bits = others :=
  (rounds.mono roundsOther le_rfl).antisymm (roundsOther.mono rounds le_rfl)

/-- A size is rounded to the pattern it is rounded up to if it is not rounded past that. -/
theorem rounds_of_not_exceeds {size : ℚ} {bits : Nat}
    (reached : ∀ below, bits = below + 1 → Exceeds size below) (stops : ¬Exceeds size bits) :
    Rounds size (min bits infinityBits) where
  bounded := Nat.min_le_right _ _
  lt_iff {below} inside := by
    rw [lt_min_iff, and_iff_left inside]
    constructor
    · intro less
      obtain ⟨last, rfl⟩ := Nat.exists_eq_add_one_of_ne_zero (Nat.ne_zero_of_lt less)
      exact (reached last rfl).of_le (Nat.le_of_lt_succ less)
    · intro exceeds
      by_contra notLess
      exact stops (exceeds.of_le (Nat.le_of_not_lt notLess))

/-- The size of a pattern is rounded to the pattern itself. -/
theorem rounds_sizeOf {bits : Nat} (bounded : bits ≤ infinityBits) : Rounds (sizeOf bits) bits := by
  have rounds : Rounds (sizeOf bits) (min bits infinityBits) := by
    refine rounds_of_not_exceeds ?_ ?_
    · rintro below rfl
      exact .inl (middle_lt_sizeOf_succ below)
    · rintro (beyond | ⟨same, _⟩)
      · exact beyond.not_gt (sizeOf_lt_middle bits)
      · exact (sizeOf_lt_middle bits).ne' same
  rwa [Nat.min_eq_left bounded] at rounds

/-- Sizes below half of the least number are rounded to zero. -/
theorem rounds_zero {size : ℚ} (small : size < 2 ^ (-1075 : Int)) : Rounds size 0 := by
  have half : middle 0 = 2 ^ (-1075 : Int) := by
    have halved : (2 : ℚ) ^ (-1075 : Int) = 2 ^ (-1074 : Int) * 2⁻¹ :=
      zpow_sub_one₀ two_ne_zero (-1074)
    rw [middle, sizeOf_zero, zero_add, halved, ← div_eq_mul_inv]
    rfl
  rw [← half] at small
  have stops : ¬Exceeds size 0 := by
    rintro (beyond | ⟨same, _⟩)
    · exact beyond.not_gt small
    · exact small.ne' same
  exact ⟨Nat.zero_le _, fun {below} _ => iff_of_false (Nat.not_lt_zero below) fun exceeds =>
    stops (exceeds.of_le (Nat.zero_le below))⟩

theorem sizeOf_infinityBits : sizeOf infinityBits = 2 ^ (1024 : Int) := by
  have significand : significandOf infinityBits = 2 ^ 52 := rfl
  have place : lastPlace infinityBits = 972 := rfl
  rw [sizeOf, significand, place, Nat.cast_pow, Nat.cast_ofNat, ← zpow_natCast,
    ← zpow_add₀ two_ne_zero]
  rfl

/-- The least size that is rounded to the infinity: in the middle between the greatest number and
the first power of two beyond. -/
def leastOverflow : ℚ :=
  2 ^ (1024 : Int) - 2 ^ (970 : Int)

theorem leastOverflow_pos : 0 < leastOverflow :=
  sub_pos.2 (zpow_lt_zpow_right₀ one_lt_two (by decide))

theorem middle_last : middle (infinityBits - 1) = leastOverflow := by
  have place : lastPlace (infinityBits - 1) = 971 := rfl
  have last := sizeOf_succ (infinityBits - 1)
  rw [show infinityBits - 1 + 1 = infinityBits from rfl, sizeOf_infinityBits, place] at last
  have halved : (2 : ℚ) ^ (970 : Int) = 2 ^ (971 : Int) * 2⁻¹ := zpow_sub_one₀ two_ne_zero 971
  rw [middle, place, leastOverflow, halved]
  linarith only [last]

/-- Sizes from that of the infinity on are rounded to the infinity. -/
theorem rounds_infinity {size : ℚ} (large : sizeOf infinityBits ≤ size) :
    Rounds size infinityBits where
  bounded := Nat.le_refl _
  lt_iff {below} inside := by
    refine iff_of_true inside (.inl ?_)
    calc middle below < sizeOf (below + 1) := middle_lt_sizeOf_succ below
      _ ≤ sizeOf infinityBits := sizeOf_strictMono.monotone inside
      _ ≤ size := large

/-- Whether a size is rounded to the infinity. -/
theorem Rounds.eq_infinityBits_iff {size : ℚ} {bits : Nat} (rounds : Rounds size bits) :
    bits = infinityBits ↔ leastOverflow ≤ size := by
  have odd : (infinityBits - 1) % 2 = 1 := rfl
  have last : infinityBits - 1 < infinityBits := by decide
  have exceeds := rounds.lt_iff last
  rw [Exceeds, and_iff_left odd, ← le_iff_lt_or_eq, middle_last] at exceeds
  rw [← exceeds]
  have bounded := rounds.bounded
  omega

end Tangent.Binary64
