import Tangent.Main
import Tangent.Series
import Tangent.Proofs.Grammar.Derivation
import Tangent.Proofs.Grammar.Soundness
import Tangent.Proofs.Grammar.Completeness
import Tangent.Proofs.Grammar.Recognition
import Tangent.Proofs.Decimal.Reading
import Tangent.Proofs.Expr.Subtrees
import Tangent.Proofs.Token.Spelling
import Tangent.Proofs.Expr.Written
import Tangent.Proofs.Token.Lexed
import Tangent.Proofs.Expr.RoundTrip
import Tangent.Proofs.Number.Binary64
import Tangent.Proofs.Expr.Evaluation
import Tangent.Proofs.Calculus.RealValue
import Tangent.Proofs.Calculus.Slope
import Tangent.Proofs.Calculus.Rate
import Tangent.Proofs.Number.Signed
import Tangent.Proofs.Expr.Simplification
import Tangent.Proofs.Result
import Tangent.Proofs.Expr.Reduction
import Tangent.Proofs.Expr.Vocabulary
import Tangent.Proofs.Number.Negation
import Tangent.Proofs.Grammar.Positions
import Tangent.Proofs.Session.Closure
import Tangent.Proofs.Session.Rereading
import Tangent.Proofs.Expr.Agreement
import Tangent.Proofs.Series.Fitting
import Tangent.Proofs.Series.Pointwise
import Tangent.Proofs.Workspace.Run
import Tangent.Proofs.Expr.NormalForm
import Tangent.Proofs.Grammar.Outlook
import Tangent.Proofs.Grammar.Progress
import Tangent.Proofs.Grammar.Refusal
import Tangent.Proofs.Graph.Points
import Tangent.Proofs.Console.Lines
import Tangent.Proofs.Console.Run
import Tangent.Proofs.Report.Table
import Tangent.Proofs.Grammar.Balance
import Tangent.Proofs.Expr.Parentheses
import Tangent.Proofs.Calculus.Absent
import Tangent.Proofs.Expr.Growth
import Tangent.Proofs.Expr.Shrinking
import Tangent.Proofs.Number.Infinite
import Tangent.Proofs.Expr.Idempotence
import Tangent.Proofs.Token.Coverage
import Tangent.Proofs.Grammar.Limit
import Tangent.Proofs.Expr.Spacing
import Tangent.Proofs.Expr.Offenders
import Tangent.Proofs.Console.Places
import Tangent.Proofs.Layout.Tiling
import Tangent.Proofs.Expr.Renaming
import Tangent.Proofs.Graph.EvenSpread
import Tangent.Proofs.PointCount
import Tangent.Proofs.Expr.Dependence
