import Mathlib
import Tangent.Graph.Grid
import Tangent.Proofs.Number.Rationals

/-!
# Tangent points are spread evenly

Over the rational numbers, tangent points are the whole numbers nearest to places that lie one
spacing apart. Rounding moves each place by a half at most and always in the same way, so a point is
followed at a distance that is the spacing without its fraction, or one more.
-/

namespace Tangent

/-- Whether a whole number is nearest to a rational, and of two that are equally near the greater
one. -/
def IsNearest (value : ℚ) (number : Int) : Prop :=
  ∀ other : Int, |(number : ℚ) - value| < |(other : ℚ) - value| ∨
    |(number : ℚ) - value| = |(other : ℚ) - value| ∧ other ≤ number

/-- The nearest whole number is found by cutting off the fraction half a unit further. -/
theorem isNearest_floor (value : ℚ) : IsNearest value ⌊value + 1 / 2⌋ := by
  have below := Int.floor_le (value + 1 / 2)
  have above := Int.lt_floor_add_one (value + 1 / 2)
  intro other
  rcases lt_trichotomy other ⌊value + 1 / 2⌋ with less | rfl | greater
  · have gap : (other : ℚ) + 1 ≤ ⌊value + 1 / 2⌋ := by exact_mod_cast less
    rw [abs_of_neg (by linarith : (other : ℚ) - value < 0)]
    have near : |(⌊value + 1 / 2⌋ : ℚ) - value| ≤ -((other : ℚ) - value) :=
      abs_le.2 ⟨by linarith, by linarith⟩
    exact near.lt_or_eq.imp_right fun same => ⟨same, less.le⟩
  · exact .inr ⟨rfl, le_rfl⟩
  · have gap : (⌊value + 1 / 2⌋ : ℚ) + 1 ≤ other := by exact_mod_cast greater
    rw [abs_of_pos (by linarith : 0 < (other : ℚ) - value)]
    exact .inl (abs_lt.2 ⟨by linarith, by linarith⟩)

/-- One spacing further, the fraction that was cut off makes a difference of one at most. -/
theorem floor_step (place spacing : ℚ) :
    ⌊spacing⌋ ≤ ⌊place + spacing⌋ - ⌊place⌋ ∧ ⌊place + spacing⌋ - ⌊place⌋ ≤ ⌊spacing⌋ + 1 := by
  have atLeast := Int.le_floor_add place spacing
  have atMost := Int.le_floor_add_floor place spacing
  omega

/-- Points that are spread evenly over a range: in order, each nearest to its place, the first and
the last one nearest to the ends of the range, and no two distances between neighbours more than one
apart. -/
structure SpreadsEvenly (start finish : ℚ) (points : List Int) : Prop where
  ascending : points.Pairwise (· ≤ ·)
  nearest : ∀ index (inside : index < points.length),
    IsNearest (start + index * (finish - start) / (points.length - 1)) points[index]
  first : ∃ point, points.head? = some point ∧ IsNearest start point
  last : ∃ point, points.getLast? = some point ∧ IsNearest finish point
  even : ∀ index other (inside : index + 1 < points.length)
    (otherInside : other + 1 < points.length),
    |(points[index + 1] - points[index]) - (points[other + 1] - points[other])| ≤ 1

section Ranges

variable {start finish : ℚ} {count : Int}

/-- The tangent point at a place, from the number of gaps between the points. -/
def nearestDot (start finish : ℚ) (gaps : Int) (index : Nat) : Int :=
  ⌊dotPlace start finish gaps index + 1 / 2⌋

/-- A place is one spacing behind the place before it. -/
theorem dotPlace_succ (gaps : Int) (index : Nat) :
    dotPlace start finish gaps (index + 1) =
      dotPlace start finish gaps index + (finish - start) / gaps := by
  simp only [dotPlace, Scalar.ofInt_rat, Int.cast_natCast]
  push_cast
  ring

/-- From a point to the next it is the spacing without its fraction, or one more. -/
theorem nearestDot_step (start finish : ℚ) (gaps : Int) (index : Nat) :
    ⌊(finish - start) / gaps⌋ ≤
        nearestDot start finish gaps (index + 1) - nearestDot start finish gaps index ∧
      nearestDot start finish gaps (index + 1) - nearestDot start finish gaps index ≤
        ⌊(finish - start) / gaps⌋ + 1 := by
  have step := floor_step (dotPlace start finish gaps index + 1 / 2) ((finish - start) / gaps)
  rwa [add_right_comm, ← dotPlace_succ] at step

/-- Points over a range from its lesser end are in order. -/
theorem nearestDot_monotone (ordered : start ≤ finish) {gaps : Int} (some : 0 < gaps) :
    Monotone (nearestDot start finish gaps) := by
  have noLess : 0 ≤ ⌊(finish - start) / gaps⌋ :=
    Int.floor_nonneg.2 (div_nonneg (sub_nonneg.2 ordered) (Int.cast_nonneg some.le))
  refine monotone_nat_of_le_succ fun index => ?_
  have step := (nearestDot_step start finish gaps index).1
  omega

/-- Two points or more are spread over every range. -/
theorem tangentPoints_eq_ok (start finish : ℚ) (enough : 2 ≤ count) :
    tangentPoints start finish count =
      .ok ((List.range count.toNat).map (nearestDot start finish (count - 1))) := by
  have points := List.mapM_pure (m := Outcome ℚ) (l := List.range count.toNat)
    (f := nearestDot start finish (count - 1))
  rw [tangentPoints, if_neg (by omega)]
  simp only [Scalar.extended_rat, Extended.isFinite, Scalar.floor?_rat, Except.mapError]
  exact points

/-- Two points or more are spread evenly over every range. -/
theorem tangentPoints_spread_evenly (ordered : start ≤ finish) (enough : 2 ≤ count) :
    ∃ points, tangentPoints start finish count = .ok points ∧ (points.length : Int) = count ∧
      SpreadsEvenly start finish points := by
  obtain ⟨gaps, some, rfl⟩ : ∃ gaps : Nat, 0 < gaps ∧ count = gaps + 1 :=
    ⟨(count - 1).toNat, by omega, by omega⟩
  have near (index : Nat) : IsNearest (start + index * (finish - start) / gaps)
      (nearestDot start finish gaps index) := by
    have place : dotPlace start finish gaps index = start + index * (finish - start) / gaps := by
      rw [dotPlace, Scalar.ofInt_rat, Scalar.ofInt_rat, mul_div_assoc]
      rfl
    exact place ▸ isNearest_floor _
  have spread := tangentPoints_eq_ok start finish enough
  rw [add_sub_cancel_right, show ((gaps : Int) + 1).toNat = gaps + 1 from rfl] at spread
  refine ⟨_, spread, ?_, ?_, ?_, ?_, ?_, ?_⟩
  · rw [List.length_map, List.length_range, Nat.cast_succ]
  · refine List.pairwise_map.2 (List.pairwise_lt_range.imp fun before => ?_)
    exact nearestDot_monotone ordered (Int.natCast_pos.2 some) before.le
  · intro index inside
    rw [List.length_map, List.length_range, Nat.cast_succ, add_sub_cancel_right, List.getElem_map,
      List.getElem_range]
    exact near index
  · refine ⟨nearestDot start finish gaps 0, by simp [List.head?_range], ?_⟩
    simpa using near 0
  · refine ⟨nearestDot start finish gaps gaps, by simp [List.range_succ], ?_⟩
    have place : start + gaps * (finish - start) / gaps = finish := by
      field_simp
      ring
    have nearLast := near gaps
    rwa [place] at nearLast
  · intro index other inside otherInside
    simp only [List.getElem_map, List.getElem_range]
    have step := nearestDot_step start finish gaps index
    have otherStep := nearestDot_step start finish gaps other
    rw [abs_le]
    omega

end Ranges

/-- Nine points from minus ten to ten have half units among their places, on both sides of zero. -/
theorem tangentPoints_spread_evenly_over_halves :
    (-10 : ℚ) ≤ 10 ∧ (2 : Int) ≤ 9 ∧
      ∃ points, tangentPoints (-10 : ℚ) 10 9 = .ok points ∧ (points.length : Int) = 9 ∧
        SpreadsEvenly (-10) 10 points :=
  ⟨by norm_num, by decide, tangentPoints_spread_evenly (by norm_num) (by decide)⟩

end Tangent
