import Tangent.Plot
import Tangent.Proofs.Result

/-!
# Enough points

The only step that asks for a number of points is the one that spreads them over a range, and two
are enough for it. No table and no plot of so many tangents fails for want of points, whatever else
may go wrong.
-/

namespace Tangent

variable {ν : Type}

/-- A result that does not fail for a wrong number of points. -/
def Sufficient {α : Type} (result : Outcome ν α) : Prop :=
  ∀ fault, result = .error fault → fault.kind? ≠ some .invalidPointCount

namespace Sufficient

variable {ε α β : Type}

theorem ok (value : α) : Sufficient (.ok value : Outcome ν α) := nofun

theorem error {fault : Fault ν} (other : fault.kind? ≠ some .invalidPointCount) :
    Sufficient (.error fault : Outcome ν α) := by
  rintro _ ⟨⟩
  exact other

/-- A sequence of steps that do not fail so does not either. -/
theorem bind {first : Outcome ν α} {next : α → Outcome ν β} (sufficient : Sufficient first)
    (nextSufficient : ∀ value, Sufficient (next value)) : Sufficient (first >>= next) := by
  intro fault failed
  rcases bind_eq_error failed with firstFailed | ⟨value, _, nextFailed⟩
  · exact sufficient fault firstFailed
  · exact nextSufficient value fault nextFailed

/-- Causes of another kind do not become faults of this one. -/
theorem mapError {rename : ε → Fault ν} {result : Except ε α}
    (other : ∀ cause, (rename cause).kind? ≠ some .invalidPointCount) :
    Sufficient (result.mapError rename) := by
  intro fault failed
  obtain ⟨cause, _, rfl⟩ := mapError_eq_error_iff.1 failed
  exact other cause

/-- A step for each item of a list does not fail so if it does so for none. -/
theorem mapM {step : α → Outcome ν β} {items : List α}
    (sufficient : ∀ item ∈ items, Sufficient (step item)) : Sufficient (items.mapM step) := by
  induction items with
  | nil => exact ok []
  | cons item items inductionHypothesis =>
    obtain ⟨first, others⟩ := List.forall_mem_cons.1 sufficient
    rw [List.mapM_cons]
    exact first.bind fun value => (inductionHypothesis others).bind fun values => ok _

end Sufficient

/-- No evaluation asks for a number of points. -/
theorem Fault.kind?_unevaluated_ne (fault : EvaluationFault) :
    (Fault.unevaluated fault : Fault ν).kind? ≠ some .invalidPointCount := by
  cases fault <;> nofun

variable [Number ν] {settings : Settings ν} {session : Session ν} {count : Int}

theorem curveGrid_sufficient (start finish step : ν) :
    Sufficient (curveGrid start finish step) := by
  unfold curveGrid
  split
  · exact .error nofun
  · exact .bind (.mapError nofun) fun _ => .ok _

/-- Two points can be spread. -/
theorem tangentPoints_sufficient (start finish : ν) (enough : 2 ≤ count) :
    Sufficient (tangentPoints start finish count) := by
  unfold tangentPoints
  rw [if_neg (by omega)]
  split
  · exact .error nofun
  · exact .mapM fun index _ => .mapError nofun

theorem valueAt_sufficient (point : ν) : Sufficient (session.valueAt point) :=
  .mapError Fault.kind?_unevaluated_ne

theorem slopeAt_sufficient (point : ν) : Sufficient (session.slopeAt point) :=
  .mapError Fault.kind?_unevaluated_ne

theorem sample_sufficient (formula : Expr ν) (variableName : String) (points : List ν) :
    Sufficient (Curve.sample formula variableName points) :=
  .bind (.mapError Fault.kind?_unevaluated_ne) fun _ => .ok _

namespace TangentLine

theorem numberText_sufficient (places : Int) (value : ν) :
    Sufficient (numberText places value) := by
  unfold numberText
  split
  · exact .error nofun
  · exact .ok _

theorem touching_sufficient (grid : List ν) (dot : ν) :
    Sufficient (touching settings session grid dot) := by
  have label (slope intercept : ν) :
      Sufficient (labelText settings.labelPlaces slope intercept) :=
    (numberText_sufficient _ _).bind fun _ => (numberText_sufficient _ _).bind fun _ => .ok _
  exact (valueAt_sufficient dot).bind fun _ => (slopeAt_sufficient dot).bind fun _ =>
    (label _ _).bind fun _ => .ok _

/-- Two tangents or more can be spread over a range. -/
theorem spread_sufficient (enough : 2 ≤ count) : Sufficient (spread settings session count) :=
  (curveGrid_sufficient _ _ _).bind fun grid => (tangentPoints_sufficient _ _ enough).bind fun _ =>
    .mapM fun _ _ => touching_sufficient grid _

end TangentLine

theorem Panel.ofTangent_sufficient (curve : Curve ν) (cell : Cell ν) (tangent : TangentLine ν) :
    Sufficient (ofTangent settings curve cell tangent) :=
  (TangentLine.numberText_sufficient _ _).bind fun _ => .ok _

theorem arrange_sufficient : Sufficient (Layout.arrange settings count) :=
  .bind (.mapError nofun) fun _ => .bind (.mapError nofun) fun _ => .bind (.mapError nofun)
    fun _ => .ok _

theorem inches_sufficient (resolution : Rat) (layout : Layout ν) :
    Sufficient (layout.inches resolution) :=
  .bind (.mapError nofun) fun _ => .bind (.mapError nofun) fun _ => .ok _

namespace Plot

/-- The panels of two tangents or more can be arranged. -/
theorem figure_sufficient (enough : 2 ≤ count) (resolution : Option Rat) :
    Sufficient (figure settings session count resolution) := by
  have graph : Sufficient (Graph.build settings session count) :=
    (curveGrid_sufficient _ _ _).bind fun _ => (sample_sufficient _ _ _).bind fun _ =>
      (TangentLine.spread_sufficient enough).bind fun _ => .ok _
  have panels (curve : Curve ν) (places : List (Cell ν × TangentLine ν)) :
      Sufficient (places.mapM fun place => Panel.ofTangent settings curve place.1 place.2) :=
    .mapM fun _ _ => Panel.ofTangent_sufficient _ _ _
  exact graph.bind fun graph => arrange_sufficient.bind fun layout =>
    (inches_sufficient _ layout).bind fun _ => (panels graph.curve _).bind fun _ => .ok _

/-- A plot of two tangents or more is not refused for their number, whatever draws and saves it. -/
theorem save_sufficient (enough : 2 ≤ count) (plotter : Plotter ν) (path : String) :
    Sufficient (save settings plotter session count path) := by
  have drawn : Sufficient (drawn settings plotter session count none) :=
    (figure_sufficient enough none).bind fun _ => .bind (.mapError nofun) fun _ => .ok _
  exact drawn.bind fun _ => .mapError nofun

end Plot

end Tangent
