import Mathlib.Analysis.Calculus.Deriv.Abs
import Mathlib.Analysis.SpecialFunctions.Pow.Deriv
import Mathlib.Analysis.SpecialFunctions.Sqrt
import Mathlib.Analysis.SpecialFunctions.Trigonometric.ArctanDeriv
import Mathlib.Analysis.SpecialFunctions.Trigonometric.DerivHyp
import Mathlib.Analysis.SpecialFunctions.Trigonometric.InverseDeriv
import Tangent.Proofs.Calculus.RealValue

/-!
# Slopes of elementary functions

Where the elementary functions have a slope, and which.
-/

namespace Tangent

namespace Elementary

/-- Where the rule of a function applies. -/
def SmoothAt : Elementary → ℝ → Prop
  | log, x | sqrt, x => 0 < x
  | asin, x | acos, x => |x| < 1
  | abs, x | sign, x => x ≠ 0
  | tan, x => Real.cos x ≠ 0
  | sin, _ | cos, _ | exp, _ | atan, _ | sinh, _ | cosh, _ | tanh, _ => True

/-- The slope of a function. -/
noncomputable def slope : Elementary → ℝ → ℝ
  | sin, x => Real.cos x
  | cos, x => -Real.sin x
  | tan, x => 1 / Real.cos x ^ 2
  | exp, x => Real.exp x
  | log, x => 1 / x
  | sqrt, x => 1 / (2 * Real.sqrt x)
  | abs, x => SignType.sign x
  | sign, _ => 0
  | asin, x => 1 / Real.sqrt (1 - x ^ 2)
  | acos, x => -(1 / Real.sqrt (1 - x ^ 2))
  | atan, x => 1 / (1 + x ^ 2)
  | sinh, x => Real.cosh x
  | cosh, x => Real.sinh x
  | tanh, x => 1 / Real.cosh x ^ 2

/-- The sign of a number stays the same next to it, but at zero. -/
theorem hasDerivAt_sign {x : ℝ} (nonzero : x ≠ 0) :
    HasDerivAt (fun x : ℝ => (SignType.sign x : ℝ)) 0 x := by
  rcases lt_or_gt_of_ne nonzero with negative | positive
  · refine (hasDerivAt_const x (-1 : ℝ)).congr_of_eventuallyEq ?_
    filter_upwards [Iio_mem_nhds negative] with y below
    simp [sign_neg (Set.mem_Iio.1 below)]
  · refine (hasDerivAt_const x (1 : ℝ)).congr_of_eventuallyEq ?_
    filter_upwards [Ioi_mem_nhds positive] with y above
    simp [sign_pos (Set.mem_Ioi.1 above)]

theorem hasDerivAt_tanh (x : ℝ) : HasDerivAt Real.tanh (1 / Real.cosh x ^ 2) x := by
  have positive := Real.cosh_pos x
  have quotient := (Real.hasDerivAt_sinh x).div (Real.hasDerivAt_cosh x) positive.ne'
  have same : Real.tanh = fun y => Real.sinh y / Real.cosh y := funext Real.tanh_eq_sinh_div_cosh
  rw [same]
  refine quotient.congr_deriv ?_
  rw [← Real.cosh_sq_sub_sinh_sq x]
  ring

/-- Where its rule applies, a function has its slope. -/
theorem hasDerivAt_onReals {function : Elementary} {x : ℝ} (smooth : function.SmoothAt x) :
    HasDerivAt function.onReals (function.slope x) x := by
  cases function with
  | sin => exact Real.hasDerivAt_sin x
  | cos => exact Real.hasDerivAt_cos x
  | tan => exact Real.hasDerivAt_tan smooth
  | exp => exact Real.hasDerivAt_exp x
  | log => simpa [onReals, slope] using Real.hasDerivAt_log (ne_of_gt smooth)
  | sqrt => exact Real.hasDerivAt_sqrt (ne_of_gt smooth)
  | abs => exact hasDerivAt_abs smooth
  | sign => exact hasDerivAt_sign smooth
  | asin =>
    obtain ⟨above, below⟩ := abs_lt.1 smooth
    exact Real.hasDerivAt_arcsin above.ne' below.ne
  | acos =>
    obtain ⟨above, below⟩ := abs_lt.1 smooth
    exact Real.hasDerivAt_arccos above.ne' below.ne
  | atan => exact Real.hasDerivAt_arctan x
  | sinh => exact Real.hasDerivAt_sinh x
  | cosh => exact Real.hasDerivAt_cosh x
  | tanh => exact hasDerivAt_tanh x

end Elementary

end Tangent
