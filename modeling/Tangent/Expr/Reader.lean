import Tangent.Fault.Basic

/-!
# Reading formulas

From formula text to a tree, through its tokens.
-/

namespace Tangent.Expr

variable {ν : Type} [Number ν]

/-- The tree of a formula text, under the rules of a dialect. -/
def read (dialect : Dialect ν) (text : String) : Outcome ν (Expr ν) := do
  let tokens ← (Token.tokenize text).mapError .unrecognized
  (parse dialect tokens).mapError .malformed

end Tangent.Expr
