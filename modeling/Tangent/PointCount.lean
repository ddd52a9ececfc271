import Tangent.Settings

/-!
# Point counts

How many tangents are drawn, from whatever was asked for. Fractions are cut off; zero and what
cannot be read as a finite number count as the least number of points.
-/

namespace Tangent

/-- What may be asked for as a number of points. -/
inductive CountRequest (ν : Type) where
  | whole (count : Int)
  | number (value : ν)
  | text (entered : String)
  /-- Something that is neither a number nor a text. -/
  | other

namespace CountRequest

variable {ν : Type} [Number ν]

/-- The number that is asked for, if it can be read as one. -/
def number? : CountRequest ν → Option ν
  | whole count => some (Scalar.ofInt count)
  | number value => some value
  | text entered => Number.read? entered
  | other => none

/-- The whole number that is asked for; zero if there is none. -/
def requested (request : CountRequest ν) : Int :=
  match request.number? with
  | some value => (Scalar.truncate? value).toOption.getD 0
  | none => 0

/-- The number of points within the bounds that are set. -/
def clamped (settings : Settings ν) (request : CountRequest ν) : Int :=
  let count := if request.requested = 0 then settings.minPoints else request.requested
  max settings.minPoints (min settings.maxPoints count)

theorem minPoints_le_clamped (settings : Settings ν) (request : CountRequest ν) :
    settings.minPoints ≤ request.clamped settings :=
  Int.le_max_left _ _

/-- The upper bound holds as soon as the bounds are in order. -/
theorem clamped_le_maxPoints {settings : Settings ν}
    (ordered : settings.minPoints ≤ settings.maxPoints) (request : CountRequest ν) :
    request.clamped settings ≤ settings.maxPoints :=
  Int.max_le.2 ⟨ordered, Int.min_le_left _ _⟩

/-- The number of points for an optional request. -/
def clampedOrDefault (settings : Settings ν) (request : Option (CountRequest ν)) : Int :=
  (request.getD (.whole settings.defaultPoints)).clamped settings

end CountRequest

end Tangent
