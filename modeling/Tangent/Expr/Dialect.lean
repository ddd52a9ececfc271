import Tangent.Number

/-!
# Dialects

What may be set about the reading of formulas: how deeply they may be nested, and which names
stand for constants. Every other rule of the grammar is fixed.
-/

namespace Tangent

/-- The rules of formulas that may be set. -/
structure Dialect (ν : Type) where
  /-- The most factors of a formula that may lie inside each other. -/
  maxNesting : Int
  /-- The constants that have a name. -/
  constants : List (String × ν)

namespace Dialect

variable {ν : Type}

/-- The constant of a name. -/
def constant? (dialect : Dialect ν) (name : String) : Option ν :=
  (dialect.constants.find? (·.1 = name)).map (·.2)

/-- The dialect that formulas are read in unless another is given. -/
def standard [Arithmetic ν] : Dialect ν where
  maxNesting := 100
  constants := [
    ("pi", Arithmetic.ofDecimal ⟨3141592653589793, -15⟩),
    ("e", Arithmetic.ofDecimal ⟨2718281828459045, -15⟩)]

/-- A name without an entry stands for no constant. -/
theorem constant?_eq_none_iff {dialect : Dialect ν} {name : String} :
    dialect.constant? name = none ↔ ∀ entry ∈ dialect.constants, entry.1 ≠ name := by
  simp [constant?]

end Dialect

end Tangent
