import Tangent.Proofs.Decimal.Rationals
import Tangent.Proofs.Number.Rounding

/-!
# Nearest machine numbers

The machine number nearest to a quotient or a decimal is the one that it is rounded to.
-/

namespace Tangent.Binary64

section Grid

variable {size : ℚ} {steps significand : Nat}

/-- The pattern that a significand and an exponent are joined to stands for their product, also
where the significand carries into the exponent. -/
theorem sizeOf_joined (bounded : significand ≤ 2 ^ 53)
    (leading : 0 < steps → 2 ^ 52 ≤ significand) :
    sizeOf (steps * 2 ^ 52 + significand) = significand * 2 ^ (leastExponent + steps) := by
  rcases bounded.lt_or_eq with below | rfl
  · have kept : significandOf (steps * 2 ^ 52 + significand) = significand := by
      simp only [significandOf]
      split <;> omega
    have place : lastPlace (steps * 2 ^ 52 + significand) = leastExponent + steps := by
      simp only [lastPlace]
      omega
    rw [sizeOf, kept, place]
  · have carried : significandOf (steps * 2 ^ 52 + 2 ^ 53) = 2 ^ 52 := by
      simp only [significandOf]
      split <;> omega
    have place : lastPlace (steps * 2 ^ 52 + 2 ^ 53) = leastExponent + steps + 1 := by
      simp only [lastPlace]
      omega
    rw [sizeOf, carried, place, zpow_add_one₀ two_ne_zero]
    push_cast
    ring

/-- A size is rounded past the patterns before that of its significand on a grid. -/
theorem exceeds_of_joined
    (rounded : Decimal.IsRounded (size / 2 ^ (leastExponent + steps)) significand)
    (bounded : significand ≤ 2 ^ 53)
    (leading : 0 < steps → 2 ^ 52 ≤ size / 2 ^ (leastExponent + steps)) {below : Nat}
    (next : steps * 2 ^ 52 + significand = below + 1) : Exceeds size below := by
  have joined := sizeOf_joined bounded fun above => rounded.le (mod_cast leading above)
  rw [next] at joined
  obtain ⟨unit, isUnit⟩ : ∃ unit : ℚ, unit = 2 ^ (leastExponent + steps : Int) := ⟨_, rfl⟩
  have positive : 0 < unit := isUnit ▸ zpow_pos two_pos _
  rw [← isUnit] at rounded leading joined
  have scaled := div_mul_cancel₀ size positive.ne'
  by_cases place : lastPlace below = leastExponent + steps
  · rw [sizeOf_succ, place, ← isUnit] at joined
    have here : middle below = (significand - 1 / 2) * unit := by
      rw [middle, place, ← isUnit]
      linarith
    rw [Exceeds, here, ← scaled, mul_lt_mul_iff_left₀ positive, mul_left_inj' positive.ne']
    refine rounded.lower.lt_or_eq.imp_right fun tie => ⟨tie, ?_⟩
    have even := rounded.even (.inl tie.symm)
    omega
  · -- The significand is a power of two, and the numbers below it lie closer together.
    have normal : 0 < steps → 2 ^ 52 ≤ significand :=
      fun above => rounded.le (mod_cast leading above)
    have power : 0 < steps ∧ significand = 2 ^ 52 := by
      simp only [lastPlace] at place
      omega
    left
    calc middle below < significand * unit := joined ▸ middle_lt_sizeOf_succ below
      _ ≤ size / unit * unit := by
          rw [power.2]
          exact mul_le_mul_of_nonneg_right (mod_cast leading power.1) positive.le
      _ = size := scaled

/-- A size is not rounded past the pattern of its significand on a grid. -/
theorem not_exceeds_joined
    (rounded : Decimal.IsRounded (size / 2 ^ (leastExponent + steps)) significand)
    (bounded : significand ≤ 2 ^ 53) (normal : 0 < steps → 2 ^ 52 ≤ significand) :
    ¬Exceeds size (steps * 2 ^ 52 + significand) := by
  have joined := sizeOf_joined bounded normal
  obtain ⟨unit, isUnit⟩ : ∃ unit : ℚ, unit = 2 ^ (leastExponent + steps : Int) := ⟨_, rfl⟩
  have positive : 0 < unit := isUnit ▸ zpow_pos two_pos _
  rw [← isUnit] at rounded joined
  have reached := mul_le_mul_of_nonneg_right rounded.upper positive.le
  rw [div_mul_cancel₀ size positive.ne'] at reached
  have beyond : (significand + 1 / 2) * unit ≤ middle (steps * 2 ^ 52 + significand) := by
    have place : leastExponent + steps ≤ lastPlace (steps * 2 ^ 52 + significand) := by
      simp only [lastPlace]
      omega
    have wider : unit ≤ 2 ^ lastPlace (steps * 2 ^ 52 + significand) :=
      isUnit ▸ zpow_le_zpow_right₀ one_le_two place
    rw [middle, joined, add_mul, add_le_add_iff_left, one_div_mul_eq_div]
    exact div_le_div_of_nonneg_right wider two_pos.le
  rintro (exceeds | ⟨tie, odd⟩)
  · exact absurd exceeds (not_lt.2 (reached.trans beyond))
  · have half : size / unit = significand + 1 / 2 := by
      rw [div_eq_iff positive.ne']
      exact reached.antisymm (beyond.trans tie.le)
    have even := rounded.even (.inr half)
    omega

/-- Rounding on the grid of an exponent is rounding if the size lies in the range of its
significands; but it may carry into the next exponent. -/
theorem rounds_joined
    (rounded : Decimal.IsRounded (size / 2 ^ (leastExponent + steps)) significand)
    (below : size / 2 ^ (leastExponent + steps) < 2 ^ 53)
    (leading : 0 < steps → 2 ^ 52 ≤ size / 2 ^ (leastExponent + steps)) :
    Rounds size (min (steps * 2 ^ 52 + significand) infinityBits) := by
  have bounded : significand ≤ 2 ^ 53 := rounded.ge (mod_cast below)
  exact rounds_of_not_exceeds (fun _ next => exceeds_of_joined rounded bounded leading next)
    (not_exceeds_joined rounded bounded fun above => rounded.le (mod_cast leading above))

end Grid

theorem powerOfTwo_div (exponent : Int) :
    ((powerOfTwo exponent).1 : ℚ) / (powerOfTwo exponent).2 = 2 ^ exponent := by
  rw [zpow_eq_div two_ne_zero]
  simp only [powerOfTwo, twoTo, Nat.pow_eq]
  norm_cast

section Quotients

variable {numerator denominator : Nat}

/-- A quotient in units of a power of two. -/
theorem scaled_quotient (exponent : Int) :
    ((numerator * (powerOfTwo exponent).2 : Nat) : ℚ) /
        ((denominator * (powerOfTwo exponent).1 : Nat) : ℚ) =
      numerator / denominator / 2 ^ exponent := by
  rw [← powerOfTwo_div, div_div_div_eq]
  push_cast
  rfl

/-- Whether a quotient lies below the normal significands of the next exponent. -/
theorem fits_iff (divisor : 0 < denominator) (exponent : Int) :
    numerator * (powerOfTwo exponent).2 <
        2 * leastNormal * (denominator * (powerOfTwo exponent).1) ↔
      (numerator / denominator : ℚ) / 2 ^ exponent < 2 ^ 53 := by
  have positive : 0 < denominator * (powerOfTwo exponent).1 :=
    Nat.mul_pos divisor (Nat.pow_pos two_pos)
  rw [← scaled_quotient, div_lt_iff₀ (Nat.cast_pos.2 positive)]
  norm_cast

/-- The lengths of two numbers tell the exponent of their quotient up to one. -/
theorem guess_bounds (dividend : 0 < numerator) (divisor : 0 < denominator) :
    let guess : Int := (Nat.log2 numerator : Int) - Nat.log2 denominator - 53
    2 ^ 52 ≤ (numerator / denominator : ℚ) / 2 ^ guess ∧
      (numerator / denominator : ℚ) / 2 ^ guess < 2 ^ 54 := by
  intro guess
  have positive : (0 : ℚ) < denominator := Nat.cast_pos.2 divisor
  have unit : (0 : ℚ) < 2 ^ guess := zpow_pos two_pos _
  have numeratorLower : (2 : ℚ) ^ Nat.log2 numerator ≤ numerator := by
    exact_mod_cast Nat.log2_self_le dividend.ne'
  have numeratorUpper : (numerator : ℚ) < 2 ^ (Nat.log2 numerator + 1) := by
    exact_mod_cast Nat.lt_log2_self
  have denominatorLower : (2 : ℚ) ^ Nat.log2 denominator ≤ denominator := by
    exact_mod_cast Nat.log2_self_le divisor.ne'
  have denominatorUpper : (denominator : ℚ) < 2 ^ (Nat.log2 denominator + 1) := by
    exact_mod_cast Nat.lt_log2_self
  have split : (2 : ℚ) ^ guess = 2 ^ Nat.log2 numerator / 2 ^ Nat.log2 denominator / 2 ^ 53 := by
    rw [zpow_sub₀ two_ne_zero, zpow_sub₀ two_ne_zero, zpow_natCast, zpow_natCast]
    norm_cast
  rw [le_div_iff₀ unit, div_lt_iff₀ unit, split]
  constructor
  · calc (2 : ℚ) ^ 52 * (2 ^ Nat.log2 numerator / 2 ^ Nat.log2 denominator / 2 ^ 53)
        = 2 ^ Nat.log2 numerator / 2 ^ (Nat.log2 denominator + 1) := by ring
      _ ≤ numerator / denominator :=
          div_le_div₀ (Nat.cast_nonneg _) numeratorLower positive denominatorUpper.le
  · calc (numerator / denominator : ℚ)
        < 2 ^ (Nat.log2 numerator + 1) / 2 ^ Nat.log2 denominator :=
          div_lt_div₀ numeratorUpper denominatorLower (pow_nonneg two_pos.le _) (pow_pos two_pos _)
      _ = 2 ^ 54 * (2 ^ Nat.log2 numerator / 2 ^ Nat.log2 denominator / 2 ^ 53) := by ring

/-- The machine number nearest to a quotient is the one that the quotient is rounded to. -/
theorem rounds_nearest (numerator : Nat) (divisor : 0 < denominator) :
    Rounds (numerator / denominator) (nearest numerator denominator).toBits.toNat := by
  rw [nearest]
  split
  · next zero =>
    rw [zero, Nat.cast_zero, zero_div, ← sizeOf_zero]
    exact rounds_sizeOf (Nat.zero_le infinityBits)
  · next some =>
    extract_lets guess fits leading exponent
    have range : 2 ^ 52 ≤ (numerator / denominator : ℚ) / 2 ^ leading ∧
        (numerator / denominator : ℚ) / 2 ^ leading < 2 ^ 53 := by
      obtain ⟨lower, upper⟩ := guess_bounds (Nat.pos_of_ne_zero some) divisor
      have fitting : fits guess = true ↔ (numerator / denominator : ℚ) / 2 ^ guess < 2 ^ 53 :=
        decide_eq_true_iff.trans (fits_iff divisor guess)
      by_cases fit : fits guess = true
      · rw [show leading = guess from if_pos fit]
        exact ⟨lower, fitting.1 fit⟩
      · rw [show leading = guess + 1 from if_neg fit, zpow_add_one₀ two_ne_zero, ← div_div,
          le_div_iff₀ two_pos, div_lt_iff₀ two_pos]
        rw [fitting, not_lt] at fit
        exact ⟨le_of_eq_of_le (by norm_num) fit, upper.trans_eq (by norm_num)⟩
    have below : (numerator / denominator : ℚ) / 2 ^ exponent < 2 ^ 53 := by
      have wider : (2 : ℚ) ^ leading ≤ 2 ^ exponent :=
        zpow_le_zpow_right₀ one_le_two (Int.le_max_right leastExponent leading)
      exact (div_le_div_of_nonneg_left (by positivity) (zpow_pos two_pos _) wider).trans_lt range.2
    obtain ⟨steps, least⟩ : ∃ steps : Nat, exponent = leastExponent + steps :=
      Int.le.dest (Int.le_max_left leastExponent leading) |>.imp fun _ => Eq.symm
    have places : (exponent - leastExponent).toNat = steps := by omega
    have positive : 0 < denominator * (powerOfTwo exponent).1 :=
      Nat.mul_pos divisor (Nat.pow_pos two_pos)
    have rounded := Decimal.isRounded_nearest (numerator * (powerOfTwo exponent).2) positive
    rw [scaled_quotient] at rounded
    change Rounds _ (Float.ofBits (min ((exponent - leastExponent).toNat * leastNormal +
      Decimal.nearest (numerator * (powerOfTwo exponent).2) (denominator * (powerOfTwo exponent).1))
        infinityBits).toUInt64).toBits.toNat
    rw [toBits_ofBits (Nat.min_le_right _ _), places, show leastNormal = 2 ^ 52 from rfl]
    generalize Decimal.nearest _ _ = significand at *
    rw [least] at rounded below
    refine rounds_joined rounded below fun above => ?_
    rw [← least, show exponent = leading by omega]
    exact range.1

end Quotients

/-- Decimals that are zero for their order lie below half of the least number. -/
theorem underflowOrder_lt : (10 : ℚ) ^ underflowOrder < 2 ^ (-1075 : Int) := by
  have order : 2 ^ 1075 < 10 ^ 330 := by decide +kernel
  rw [← Nat.cast_lt (α := ℚ), Nat.cast_pow, Nat.cast_pow] at order
  rw [underflowOrder, zpow_neg, zpow_neg]
  exact inv_strictAnti₀ (zpow_pos two_pos _) order

/-- Decimals that are infinite for their order lie beyond all numbers. -/
theorem sizeOf_infinityBits_le : sizeOf infinityBits ≤ 10 ^ (overflowOrder - 1) := by
  have order : 2 ^ 1024 ≤ 10 ^ 309 := by decide +kernel
  rw [← Nat.cast_le (α := ℚ), Nat.cast_pow, Nat.cast_pow] at order
  rw [sizeOf_infinityBits]
  exact order

/-- The machine number nearest to a decimal is the one that the decimal is rounded to. -/
theorem rounds_ofDecimal (decimal : Decimal) :
    Rounds decimal.toRat (ofDecimal decimal).toBits.toNat := by
  have ten : (1 : ℚ) ≤ 10 := by norm_num
  rw [ofDecimal]
  split
  · next small =>
    refine rounds_zero ?_
    rcases small with none | small
    · rw [Decimal.toRat, none, Nat.cast_zero, zero_mul]
      exact zpow_pos two_pos _
    · calc decimal.toRat < _ := decimal.toRat_lt
        _ ≤ 10 ^ underflowOrder := zpow_le_zpow_right₀ ten small
        _ < 2 ^ (-1075 : Int) := underflowOrder_lt
  · next notSmall =>
    rw [not_or, not_le] at notSmall
    split
    · next large =>
      rw [toBits_ofBits (Nat.le_refl infinityBits)]
      refine rounds_infinity ?_
      calc sizeOf infinityBits ≤ 10 ^ (overflowOrder - 1) := sizeOf_infinityBits_le
        _ ≤ _ := zpow_le_zpow_right₀ ten (Int.sub_le_sub_right large 1)
        _ ≤ decimal.toRat := Decimal.le_toRat (Nat.pos_of_ne_zero notSmall.1)
    · have rounds := rounds_nearest (decimal.digits * Decimal.tenTo decimal.exponent.toNat)
        (Decimal.tenTo_pos (-decimal.exponent).toNat)
      have same : ((decimal.digits * Decimal.tenTo decimal.exponent.toNat : Nat) : ℚ) /
          (Decimal.tenTo (-decimal.exponent).toNat : Nat) = decimal.toRat := by
        rw [Decimal.toRat, zpow_eq_div (by norm_num), ← mul_div_assoc]
        simp only [Decimal.tenTo, Nat.pow_eq]
        norm_cast
      rwa [same] at rounds

end Tangent.Binary64
