/-!
# Elementary functions

The functions a formula may call: their names and how many arguments each takes.
-/

namespace Tangent

/-- The functions a formula may call. -/
inductive Elementary where
  | sin | cos | tan | exp | log | sqrt | abs | sign | asin | acos | atan | sinh | cosh | tanh
  deriving DecidableEq, Repr

namespace Elementary

/-- Every elementary function. -/
def all : List Elementary :=
  [sin, cos, tan, exp, log, sqrt, abs, sign, asin, acos, atan, sinh, cosh, tanh]

/-- The name a function is called by. -/
def name : Elementary → String
  | sin => "sin"
  | cos => "cos"
  | tan => "tan"
  | exp => "exp"
  | log => "log"
  | sqrt => "sqrt"
  | abs => "abs"
  | sign => "sign"
  | asin => "asin"
  | acos => "acos"
  | atan => "atan"
  | sinh => "sinh"
  | cosh => "cosh"
  | tanh => "tanh"

/-- The function of a name. -/
def ofName? (name : String) : Option Elementary :=
  all.find? (·.name = name)

/-- The fewest arguments of a call. -/
def leastArguments (_ : Elementary) : Nat := 1

/-- The most arguments of a call: a logarithm may also be given its base. -/
def mostArguments : Elementary → Nat
  | log => 2
  | _ => 1

/-- Whether a call may have this many arguments. -/
def accepts (function : Elementary) (count : Nat) : Bool :=
  function.leastArguments ≤ count && count ≤ function.mostArguments

/-- Every function is listed. -/
theorem mem_all (function : Elementary) : function ∈ all := by
  cases function <;> decide

/-- A function is found under its own name and under no other. -/
theorem ofName?_eq_some_iff {name : String} {function : Elementary} :
    ofName? name = some function ↔ function.name = name := by
  constructor
  · intro found
    simpa using List.find?_some found
  · rintro rfl
    cases function <;> decide

end Elementary

end Tangent
