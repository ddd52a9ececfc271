import Tangent.Decimal.Shortest
import Tangent.Proofs.Decimal.Rationals

/-!
# The shortest decimal lies in its interval

On a grid that is finer than an interval is wide, one of the two neighbours of a point inside lies
in the interval too. The grid of seventeen digits is fine enough if the interval is wider than the
last of them, so the search ends with a decimal of the interval.
-/

namespace Tangent.Decimal.Interval

/-- Whether a rational lies in an interval. -/
def Contains (interval : Interval) (value : ℚ) : Prop :=
  if interval.closed then
    interval.lower / interval.denominator ≤ value ∧ value ≤ interval.upper / interval.denominator
  else
    interval.lower / interval.denominator < value ∧ value < interval.upper / interval.denominator

variable {interval : Interval} {exponent : Int}

/-- Bounds of an interval are compared with the points of a grid in whole numbers. -/
theorem le_grid_iff (divisor : 0 < interval.denominator) (bound digits : Nat) :
    bound * tenTo (-exponent).toNat ≤ digits * (interval.denominator * tenTo exponent.toNat) ↔
      (bound / interval.denominator : ℚ) ≤ toRat ⟨digits, exponent⟩ := by
  have positive : (0 : ℚ) < interval.denominator := Nat.cast_pos.2 divisor
  rw [toRat, zpow_eq_div (by norm_num), ← mul_div_assoc, div_le_div_iff₀ positive (by positivity),
    mul_assoc, mul_comm _ (interval.denominator : ℚ), ← Nat.cast_le (α := ℚ)]
  simp [tenTo]

/-- The points of a grid are compared with bounds of an interval in whole numbers. -/
theorem grid_le_iff (divisor : 0 < interval.denominator) (bound digits : Nat) :
    digits * (interval.denominator * tenTo exponent.toNat) ≤ bound * tenTo (-exponent).toNat ↔
      toRat ⟨digits, exponent⟩ ≤ (bound / interval.denominator : ℚ) := by
  have positive : (0 : ℚ) < interval.denominator := Nat.cast_pos.2 divisor
  rw [toRat, zpow_eq_div (by norm_num), ← mul_div_assoc, div_le_div_iff₀ (by positivity) positive,
    mul_assoc, mul_comm _ (interval.denominator : ℚ), ← Nat.cast_le (α := ℚ)]
  simp [tenTo]

/-- What is found on a grid lies in the interval. -/
theorem contains_onGrid (divisor : 0 < interval.denominator) {decimal : Decimal}
    (found : interval.onGrid exponent = some decimal) : interval.Contains decimal.toRat := by
  unfold onGrid at found
  extract_lets scale unit point inside below above toBelow toAbove belowWins at found
  have contains {digits : Nat} (within : inside digits = true) :
      interval.Contains (toRat ⟨digits, exponent⟩) := by
    rw [Contains]
    simp only [inside] at within
    split at within
    · next closed =>
      rw [if_pos closed, ← le_grid_iff divisor, ← grid_le_iff divisor]
      simpa only [Bool.and_eq_true, decide_eq_true_eq] using within
    · next opened =>
      rw [if_neg opened, ← not_le, ← not_le, ← le_grid_iff divisor, ← grid_le_iff divisor]
      simpa only [Bool.and_eq_true, decide_eq_true_eq, not_le] using within
  split at found
  · next belowWithin aboveWithin =>
    obtain rfl := Option.some.inj found
    split
    · exact contains belowWithin
    · exact contains aboveWithin
  · next belowWithin _ =>
    obtain rfl := Option.some.inj found
    exact contains belowWithin
  · next _ aboveWithin =>
    obtain rfl := Option.some.inj found
    exact contains aboveWithin
  · cases found

/-- If nothing is found on a grid, the interval is no wider than its unit. -/
theorem width_le_of_onGrid (divisor : 0 < interval.denominator)
    (lower : interval.lower < interval.point) (upper : interval.point < interval.upper)
    (none : interval.onGrid exponent = none) :
    (interval.upper / interval.denominator : ℚ) ≤
      interval.lower / interval.denominator + 10 ^ exponent := by
  unfold onGrid at none
  extract_lets scale unit point inside below above toBelow toAbove belowWins at none
  suffices width : interval.upper * scale ≤ interval.lower * scale + unit by
    have positive : (0 : ℚ) < interval.denominator := Nat.cast_pos.2 divisor
    rw [← Nat.cast_le (α := ℚ)] at width
    rw [zpow_eq_div (by norm_num), div_add_div _ _ positive.ne' (by positivity),
      div_le_div_iff₀ positive (by positivity)]
    have widened := mul_le_mul_of_nonneg_left width positive.le
    simp only [scale, unit, tenTo, Nat.pow_eq] at widened
    push_cast at widened
    linarith only [widened]
  have scaled : 0 < scale := tenTo_pos (-exponent).toNat
  have lowerScaled : interval.lower * scale < point := Nat.mul_lt_mul_of_pos_right lower scaled
  have upperScaled : point < interval.upper * scale := Nat.mul_lt_mul_of_pos_right upper scaled
  have step : above * unit = below * unit + unit := Nat.succ_mul below unit
  have reached : below * unit ≤ point := Nat.div_mul_le_self point unit
  have passed : point < above * unit :=
    Nat.lt_mul_of_div_lt (Nat.lt_succ_self below) (Nat.mul_pos divisor (tenTo_pos exponent.toNat))
  split at none
  · cases none
  · cases none
  · cases none
  · next notBelow notAbove =>
    simp only [inside] at notBelow notAbove
    split at notBelow <;> rename_i closed
    · rw [if_pos closed] at notAbove
      simp only [Bool.and_eq_false_iff, decide_eq_false_iff_not] at notBelow notAbove
      omega
    · rw [if_neg closed] at notAbove
      simp only [Bool.and_eq_false_iff, decide_eq_false_iff_not] at notBelow notAbove
      omega

/-- The search for the shortest decimal ends inside the interval if that is wider than the unit of
the seventeenth digit of its point. -/
theorem contains_shortest (divisor : 0 < interval.denominator)
    (lower : interval.lower < interval.point) (upper : interval.point < interval.upper)
    (wide : interval.lower * tenTo (mostDigits - 1) + interval.point <
      interval.upper * tenTo (mostDigits - 1)) :
    interval.Contains interval.shortest.toRat := by
  have some : ∃ decimal, (List.range mostDigits).findSome? (fun count : Nat =>
      interval.onGrid (order interval.point interval.denominator - count)) = some decimal := by
    rw [← Option.isSome_iff_exists, List.findSome?_isSome_iff]
    refine ⟨mostDigits - 1, List.mem_range.2 (by decide), ?_⟩
    by_contra none
    have width := width_le_of_onGrid divisor lower upper (Option.not_isSome_iff_eq_none.1 none)
    have positive : (0 : ℚ) < interval.denominator := Nat.cast_pos.2 divisor
    have leading := order_le (Nat.zero_lt_of_lt lower) divisor
    have wider : (interval.lower / interval.denominator : ℚ) * 10 ^ (mostDigits - 1) +
        interval.point / interval.denominator <
          interval.upper / interval.denominator * 10 ^ (mostDigits - 1) := by
      rw [div_mul_eq_mul_div, div_mul_eq_mul_div, ← add_div]
      exact div_lt_div_of_pos_right (mod_cast wide) positive
    have unit : (10 : ℚ) ^ (order interval.point interval.denominator - (mostDigits - 1 : Nat)) *
        10 ^ (mostDigits - 1) = 10 ^ order interval.point interval.denominator := by
      rw [zpow_sub₀ (by norm_num), zpow_natCast, div_mul_cancel₀ _ (by positivity)]
    have places : (0 : ℚ) ≤ 10 ^ (mostDigits - 1) := by positivity
    have scaled := mul_le_mul_of_nonneg_right width places
    rw [add_mul, unit] at scaled
    exact absurd (wider.trans_le (scaled.trans (add_le_add_right leading _))) (lt_irrefl _)
  obtain ⟨decimal, found⟩ := some
  rw [shortest, found, Option.getD_some, toRat_reduced]
  obtain ⟨count, _, onGrid⟩ := List.exists_of_findSome?_eq_some found
  exact contains_onGrid divisor onGrid

end Tangent.Decimal.Interval
