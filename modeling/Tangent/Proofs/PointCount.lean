import Tangent.PointCount
import Tangent.Proofs.Number.ReadBack

/-!
# More points for greater numbers

What is asked for as a number of points is some exact number, given as such or as text. It is
rounded to a machine number, cut off to a whole one and kept within the bounds, each of which keeps
the order. Only past the greatest machine number does the order break off: what overflows counts as
the least number of points.
-/

namespace Tangent

open Binary64

/-- The whole number on the side of zero grows with the rational. -/
theorem truncate_mono {less greater : ℚ} (order : less ≤ greater) :
    truncate less ≤ truncate greater := by
  rw [truncate, truncate]
  simp only [Rat.num_neg]
  split
  · next negative =>
    have atMostZero : less ≤ (0 : Int) := negative.le
    split
    · exact Rat.ceil_le_iff.2 (order.trans Rat.le_ceil)
    · next nonneg =>
      have atLeastZero : (0 : Int) ≤ greater := not_lt.1 nonneg
      exact (Rat.ceil_le_iff.2 atMostZero).trans (Rat.le_floor_iff.2 atLeastZero)
  · next nonneg =>
    rw [if_neg fun negative => nonneg (order.trans_lt negative)]
    exact Rat.floor_monotone order

namespace NumberEntry

/-- What an entry stands for, exactly. -/
def exact : NumberEntry → Extended
  | finite negative magnitude => .finite (withSign negative magnitude.toRat)
  | infinite negative => .infinite negative
  | undefined => .undefined

/-- An entry is read as a machine number in place of the exact one. -/
theorem approximates_ofEntry (entry : NumberEntry) :
    Approximates (Number.ofEntry entry) entry.exact := by
  cases entry with
  | finite negative magnitude =>
    have nearest : IsRounding (Arithmetic.ofDecimal magnitude) magnitude.toRat :=
      isRounding_ofDecimal magnitude
    rw [exact, Approximates, Number.ofEntry, withSign]
    cases negative
    · rw [if_neg Bool.false_ne_true, if_neg Bool.false_ne_true]
      exact nearest
    · rw [if_pos rfl, if_pos rfl]
      exact nearest.neg
  | infinite negative =>
    rw [exact, Approximates]
    cases negative <;> decide +kernel
  | undefined =>
    rw [exact, Approximates]
    decide +kernel

end NumberEntry

namespace CountRequest

/-- Which exact number a request asks for. The text of a machine number asks for that number, and
also for the decimal it is. -/
inductive Asks : CountRequest Float → Extended → Prop where
  | whole (count : Int) : Asks (.whole count) (.finite count)
  | number (value : Float) : Asks (.number value) (Scalar.extended value)
  | entered {text : String} {entry : NumberEntry} (read : NumberEntry.read? text = some entry) :
      Asks (.text text) entry.exact
  | written (value : Float) : Asks (.text (Number.fullText value)) (Scalar.extended value)

/-- The text of a whole number asks for that number. -/
theorem asks_toString (count : Int) : Asks (.text (toString count)) (.finite count) := by
  have asks := Asks.entered (NumberEntry.read?_toString count)
  have same : withSign (count < 0) (Decimal.toRat ⟨count.natAbs, 0⟩) = count := by
    rw [withSign, Decimal.toRat, zpow_zero, mul_one, Nat.cast_natAbs]
    by_cases negative : count < 0
    · rw [if_pos (decide_eq_true negative), abs_of_neg negative, Int.cast_neg,
        InvolutiveNeg.neg_neg]
    · rw [if_neg (by simpa using negative), abs_of_nonneg (not_lt.1 negative)]
  rwa [NumberEntry.exact, same] at asks

variable {request : CountRequest Float} {exact : Extended}

/-- The number of a request is a machine number in place of the exact one. -/
theorem Asks.exists_number (asks : request.Asks exact) :
    ∃ value, request.number? = some value ∧ Approximates value exact := by
  cases asks with
  | whole count =>
    have nearest := isRounding_quotient count one_ne_zero
    rw [Int.cast_one, div_one] at nearest
    exact ⟨_, rfl, nearest⟩
  | number value => exact ⟨value, rfl, .refl value⟩
  | @entered text entry read =>
    exact ⟨_, by rw [number?, Number.read?, read, Option.map_eq_map, Option.map_some],
      entry.approximates_ofEntry⟩
  | written value => exact ⟨value, Number.read?_fullText value, .refl value⟩

/-- A whole number of points within the bounds, the least if none is asked for. -/
def bounded (settings : Settings Float) (count : Int) : Int :=
  max settings.minPoints
    (min settings.maxPoints (if count = 0 then settings.minPoints else count))

section Bounds

variable {settings : Settings Float}

theorem clamped_eq_bounded : request.clamped settings = bounded settings request.requested := rfl

/-- Greater numbers stay greater within the bounds. -/
theorem bounded_mono (nonneg : 0 ≤ settings.minPoints)
    (ordered : settings.minPoints ≤ settings.maxPoints) {count more : Int} (order : count ≤ more) :
    bounded settings count ≤ bounded settings more := by
  rw [bounded, bounded]
  split <;> split <;> omega

variable {value : Float}

/-- A finite number is cut off and kept within the bounds. -/
theorem clamped_of_finite (asked : request.number? = some value) {size : ℚ}
    (finite : Scalar.extended value = .finite size) :
    request.clamped settings = bounded settings (truncate size) := by
  have count : request.requested = truncate size := by
    rw [requested, asked]
    simp only [Scalar.truncate?, finite]
    rfl
  rw [clamped_eq_bounded, count]

/-- What is not finite counts as the least number of points. -/
theorem clamped_of_not_finite (ordered : settings.minPoints ≤ settings.maxPoints)
    (asked : request.number? = some value)
    (notFinite : (Scalar.extended value).isFinite = false) :
    request.clamped settings = settings.minPoints := by
  have none : request.requested = 0 := by
    rw [requested, asked]
    simp only [Scalar.truncate?]
    cases stands : Scalar.extended value with
    | finite => rw [stands] at notFinite; cases notFinite
    | infinite => rfl
    | undefined => rfl
  rw [clamped_eq_bounded, none, bounded, if_pos rfl, min_eq_right ordered, max_self]

end Bounds

/-- Whoever asks for more points gets no fewer, if not so many that they overflow: then the least
number is drawn. All that is drawn keeps the bounds. -/
theorem clamped_mono {settings : Settings Float} (nonneg : 0 ≤ settings.minPoints)
    (ordered : settings.minPoints ≤ settings.maxPoints) {fewer more : CountRequest Float}
    {less greater : Extended} (asksFewer : fewer.Asks less) (asksMore : more.Asks greater)
    (order : less.lessEqual greater = true) :
    (∀ request ∈ [fewer, more], settings.minPoints ≤ request.clamped settings ∧
      request.clamped settings ≤ settings.maxPoints) ∧
    if (Extended.finite leastOverflow).lessEqual greater = true then
      more.clamped settings = settings.minPoints
    else fewer.clamped settings ≤ more.clamped settings := by
  refine ⟨fun request _ => ⟨minPoints_le_clamped settings request,
    clamped_le_maxPoints ordered request⟩, ?_⟩
  obtain ⟨value, asked, approximates⟩ := asksFewer.exists_number
  obtain ⟨other, askedMore, approximatesGreater⟩ := asksMore.exists_number
  have kept := approximates.lessEqual approximatesGreater order
  have overflows := approximatesGreater.eq_infinite_iff
  split
  · next reached =>
    exact clamped_of_not_finite ordered askedMore (congrArg Extended.isFinite (overflows.2 reached))
  · next below =>
    cases stands : extended value with
    | finite size =>
      cases standsGreater : extended other with
      | finite greaterSize =>
        rw [stands, standsGreater] at kept
        rw [clamped_of_finite asked stands, clamped_of_finite askedMore standsGreater]
        exact bounded_mono nonneg ordered (truncate_mono (of_decide_eq_true kept))
      | infinite negative =>
        rw [stands, standsGreater] at kept
        cases negative
        · exact absurd (overflows.1 standsGreater) below
        · cases kept
      | undefined =>
        rw [stands, standsGreater] at kept
        cases kept
    | infinite | undefined =>
      rw [clamped_of_not_finite ordered asked (congrArg Extended.isFinite stands)]
      exact minPoints_le_clamped settings more

/-- For seven and a half points, entered as text, no fewer are drawn than for three. -/
theorem clamped_three_le_clamped_text :
    (whole 3 : CountRequest Float).clamped .standard ≤
      (text "7.5" : CountRequest Float).clamped .standard := by
  have asks : Asks (text "7.5") (NumberEntry.finite false ⟨75, -1⟩).exact := .entered rfl
  have exact : (NumberEntry.finite false ⟨75, -1⟩).exact = .finite (15 / 2) := by
    rw [NumberEntry.exact, withSign, if_neg Bool.false_ne_true, Decimal.toRat]
    norm_num
  rw [exact] at asks
  have less : (Extended.finite (3 : Int)).lessEqual (.finite (15 / 2)) = true := by decide +kernel
  have below : ¬(Extended.finite leastOverflow).lessEqual (.finite (15 / 2)) = true := by
    decide +kernel
  have nonneg : 0 ≤ (Settings.standard : Settings Float).minPoints := by decide
  have ordered : (Settings.standard : Settings Float).minPoints ≤
      (Settings.standard : Settings Float).maxPoints := by decide
  have mono := (clamped_mono nonneg ordered (.whole 3) asks less).2
  rwa [if_neg below] at mono

/-- Infinitely many points are not at least nine: that many overflow. -/
theorem not_clamped_nine_le_clamped_infinity :
    ¬∀ (fewer more : CountRequest Float) (less greater : Extended), fewer.Asks less →
      more.Asks greater → less.lessEqual greater = true →
        fewer.clamped .standard ≤ more.clamped .standard := by
  intro mono
  have read : NumberEntry.read? "inf" = some (.infinite false) := rfl
  have kept := mono (whole 9) (text "inf") _ _ (.whole 9) (.entered read) rfl
  exact absurd kept (by decide +kernel)

end CountRequest

end Tangent
