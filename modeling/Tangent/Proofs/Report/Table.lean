import Tangent.Console
import Tangent.Proofs.Number.Negation
import Tangent.Proofs.Session.Closure
import Tangent.Report.Basic
import Tangent.Report.Human

/-!
# Tables of tangents

The tangents of a formula are listed in two places: in the answer to a single request, which first
becomes a record, and by the console, which writes the tangents themselves. A record has no number
where a value is not finite, so its table calls such a value undefined, while the console writes it
as the number it is. Everything else of the two tables is the same: they have equal rows exactly
where the formula is finite.
-/

namespace Tangent

variable {ν : Type} [Number ν]

/-- A text between others that stay settles the whole. -/
theorem TangentLine.rowText_inj {dot value other label : String} :
    rowText dot value label = rowText dot other label ↔ value = other := by
  simp [rowText]

/-- A tangent as a row of a table of records: its value is a number only where it is finite. -/
def TangentLine.reportedRow (line : TangentLine ν) : String :=
  rowText (Number.fixedText dotPlaces line.dot) (Number.valueText (Number.finite? line.value))
    line.label

/-- What is not finite is not called undefined where it is written as a number. -/
theorem Number.valueText_ne_undefined [Number.Coherent ν] {value : ν}
    (infinite : Arithmetic.isFinite value = false) :
    Number.valueText (some value) ≠ Number.valueText (none : Option ν) := by
  rw [Number.Coherent.isFinite_eq] at infinite
  change (Number.extended value).isFinite = false at infinite
  unfold Number.valueText
  cases stands : Number.extended value with
  | finite size =>
    rw [stands] at infinite
    cases infinite
  | infinite negative =>
    simp only [stands, Number.signed]
    cases Number.isNegative value <;> decide
  | undefined =>
    simp only [stands]
    decide

/-- The two rows of a tangent are the same exactly where its value is finite. -/
theorem TangentLine.reportedRow_eq_row_iff [Number.Coherent ν] {line : TangentLine ν} :
    line.reportedRow = line.row ↔ Arithmetic.isFinite line.value = true := by
  rw [reportedRow, row, rowText_inj, Number.finite?]
  split
  · next finite => exact iff_of_true rfl finite
  · next infinite =>
    refine iff_of_false (fun same => ?_) infinite
    exact Number.valueText_ne_undefined (Bool.eq_false_iff.2 infinite) same.symm

namespace Document

/-- The record of a tangent is written as its row. -/
theorem tangentRecordLine_lineDocument (line : TangentLine ν) :
    tangentRecordLine (Report.lineDocument line) = .ok line.reportedRow := by
  have value : (Report.lineDocument line).fieldValue "value" =
      .ok (Number.valueText (Number.finite? line.value)) := by
    change tableText (Report.finiteField line.value) = _
    unfold Report.finiteField
    cases Number.finite? line.value <;> rfl
  rw [tangentRecordLine, value]
  rfl

/-- The records of tangents are written as their rows. -/
theorem mapM_tangentRecordLine (lines : List (TangentLine ν)) :
    (lines.map Report.lineDocument).mapM tangentRecordLine =
      .ok (lines.map TangentLine.reportedRow) := by
  induction lines with
  | nil => rfl
  | cons line lines inductionHypothesis =>
    rw [List.map_cons, List.mapM_cons, tangentRecordLine_lineDocument, inductionHypothesis]
    rfl

/-- An answer with tangents is written as the formula, its derivative and a row for each tangent. -/
theorem printed_tangents (formula rate : String) (count : Int) (lines : List (TangentLine ν)) :
    (Report.tangents formula rate count lines).document.printed .human =
      .ok (("Current function: f(x) = " ++ formula) :: ("Derivative: f'(x) = " ++ rate) ::
        lines.map TangentLine.reportedRow) := by
  have rows := mapM_tangentRecordLine lines
  change (do
    let rows ← (lines.map Report.lineDocument).mapM tangentRecordLine
    return ("Current function: f(x) = " ++ formula) :: ("Derivative: f'(x) = " ++ rate) :: rows) = _
  rw [rows]
  rfl

end Document

namespace TangentLine

variable {settings : Settings ν} {entered asked : Option String} {session : Session ν}

/-- A number can be written with a number of places that a text can have. -/
theorem exists_numberText {places : Int} (placeable : unplaceable? places = none) (value : ν) :
    ∃ text, numberText places value = .ok text := by
  unfold numberText
  rw [placeable]
  cases Number.finite? value <;> exact ⟨_, rfl⟩

/-- An accepted formula has a tangent at every point, with its value there. -/
theorem exists_touching (built : Session.Built settings entered asked session)
    (placeable : unplaceable? settings.labelPlaces = none) (grid : List ν) (dot : ν) :
    ∃ line, touching settings session grid dot = .ok line ∧ line.dot = dot ∧
      session.valueAt dot = .ok line.value := by
  obtain ⟨value, hasValue⟩ := built.exists_valueAt dot
  obtain ⟨slope, hasSlope⟩ := built.exists_slopeAt dot
  obtain ⟨slopeText, slopeWritten⟩ := exists_numberText placeable slope
  obtain ⟨interceptText, interceptWritten⟩ := exists_numberText placeable (value - slope * dot)
  refine ⟨⟨dot, value, slope, value - slope * dot,
    "y = " ++ slopeText ++ "x + " ++ interceptText,
    grid.map fun point => Number.finite? (linear slope (value - slope * dot) point)⟩, ?_, rfl,
    hasValue⟩
  simp only [touching, hasValue, hasSlope, labelText, slopeWritten, interceptWritten, bind,
    Except.bind, pure, Except.pure]

/-- An accepted formula has its tangents wherever there are points to draw them at. -/
theorem exists_spread (built : Session.Built settings entered asked session) {count : Int}
    {grid : List ν} {dots : List Int} (gridded : settings.grid = .ok grid)
    (placed : tangentPoints settings.dotStart settings.dotEnd count = .ok dots)
    (placeable : unplaceable? settings.labelPlaces = none) :
    ∃ lines, spread settings session count = .ok lines ∧
      lines.map TangentLine.dot = dots.map Scalar.ofInt ∧
      ∀ line ∈ lines, session.valueAt line.dot = .ok line.value := by
  have each : ∃ lines, (dots.mapM fun dot => touching settings session grid (Scalar.ofInt dot)) =
      .ok lines ∧ lines.map TangentLine.dot = dots.map Scalar.ofInt ∧
        ∀ line ∈ lines, session.valueAt line.dot = .ok line.value := by
    clear placed
    induction dots with
    | nil => exact ⟨[], rfl, rfl, nofun⟩
    | cons dot dots inductionHypothesis =>
      obtain ⟨line, drawn, atDot, hasValue⟩ :=
        exists_touching built placeable grid (Scalar.ofInt dot)
      obtain ⟨lines, othersDrawn, atDots, haveValues⟩ := inductionHypothesis
      refine ⟨line :: lines, ?_, by simp [atDot, atDots], ?_⟩
      · rw [List.mapM_cons, drawn, othersDrawn]
        rfl
      · rw [← atDot] at hasValue
        exact List.forall_mem_cons.2 ⟨hasValue, haveValues⟩
  obtain ⟨lines, drawn, facts⟩ := each
  refine ⟨lines, ?_, facts⟩
  simp only [spread, gridded, placed, bind, Except.bind]
  exact drawn

end TangentLine

section Tables

variable {settings : Settings ν} {text : String} {session : Session ν}

/-- The request for the tangents of an accepted formula is answered with them. -/
theorem Report.tangency_eq_ok {request : CountRequest ν} {lines : List (TangentLine ν)}
    (built : Session.build settings (some text) none = .ok session)
    (drawn : TangentLine.spread settings session (request.clamped settings) = .ok lines) :
    Report.tangency settings (some text) (some request) =
      .ok (.tangents session.text session.derivativeText (request.clamped settings) lines) := by
  simp only [tangency, ofSession, built, CountRequest.clampedOrDefault, Option.getD_some, drawn,
    bind, Except.bind, pure, Except.pure]

/-- The console lists the tangents of a formula that was just accepted. -/
theorem Console.tableLines_submit {console : Console ν} {lines : List (TangentLine ν)}
    (built : Session.build settings (some text) none = .ok session)
    (drawn : TangentLine.spread settings session console.points = .ok lines) :
    (console.submit settings text).2.tableLines settings =
      sessionLines console.debug session ++ lines.map TangentLine.row := by
  have submitted : (console.submit settings text).2 =
      { console with workspace := (console.workspace.submit settings (some text)).2 } := by
    simp only [submit]
  have latest : (console.workspace.submit settings (some text)).2.session = some session := by
    rw [Workspace.submit_of_ok built]
  simp only [submitted, tableLines, latest, drawn]

/-- A formula that is read and has no variable but the one that is set has a session with its
tree. -/
theorem Session.exists_build_eq {formula : Expr ν}
    (textAccepted : Session.accepted settings (some text) = .ok text)
    (formulaRead : Expr.read settings.dialect text = .ok formula)
    (only : ∀ name ∈ formula.names, name = settings.variableName) :
    ∃ session, Session.build settings (some text) none = .ok session ∧
      session.formula = formula ∧ session.variableName = settings.variableName := by
  have onlyChosen : ∀ name ∈ formula.names, name = Session.chosenVariable settings none := only
  obtain ⟨session, succeeded⟩ := Session.exists_build textAccepted formulaRead onlyChosen
  have built := Session.built_of_build succeeded
  have sameText : text = session.text := Except.ok.inj (textAccepted.symm.trans built.text)
  have sameFormula := built.formula
  rw [← sameText, formulaRead] at sameFormula
  exact ⟨session, succeeded, (Except.ok.inj sameFormula).symm, built.variableName⟩

/-- The answer to a request for the tangents of an accepted formula and the console list the same
tangents, below the same lines about the formula. Their rows are the same exactly where the formula
is finite at every point. -/
theorem printed_rows_eq_iff [Number.Coherent ν] {request : CountRequest ν} {grid : List ν}
    {dots : List Int} (built : Session.build settings (some text) none = .ok session)
    (gridded : settings.grid = .ok grid)
    (placed : tangentPoints settings.dotStart settings.dotEnd (request.clamped settings) = .ok dots)
    (placeable : TangentLine.unplaceable? settings.labelPlaces = none) :
    ∃ (report : Report ν) (lines : List (TangentLine ν)),
      Report.tangency settings (some text) (some request) = .ok report ∧
      lines.map TangentLine.dot = dots.map Scalar.ofInt ∧
      (∀ line ∈ lines, session.valueAt line.dot = .ok line.value) ∧
      report.document.printed .human =
        .ok (Console.sessionLines false session ++ lines.map TangentLine.reportedRow) ∧
      (∀ console : Console ν, console.points = request.clamped settings →
        (console.submit settings text).2.tableLines settings =
          Console.sessionLines console.debug session ++ lines.map TangentLine.row) ∧
      (lines.map TangentLine.reportedRow = lines.map TangentLine.row ↔
        ∀ line ∈ lines, Arithmetic.isFinite line.value = true) := by
  obtain ⟨lines, drawn, atDots, haveValues⟩ :=
    TangentLine.exists_spread (Session.built_of_build built) gridded placed placeable
  refine ⟨_, lines, Report.tangency_eq_ok built drawn, atDots, haveValues,
    Document.printed_tangents _ _ _ _, ?_, ?_⟩
  · rintro console asked
    rw [← asked] at drawn
    exact Console.tableLines_submit built drawn
  · rw [List.map_inj_left]
    exact forall₂_congr fun line _ => TangentLine.reportedRow_eq_row_iff

end Tables

/-- The standard settings leave a grid. -/
theorem exists_grid_standard : ∃ grid, (Settings.standard : Settings Float).grid = .ok grid := by
  cases gridded : (Settings.standard : Settings Float).grid with
  | ok grid => exact ⟨grid, rfl⟩
  | error fault =>
    have succeeds : (Settings.standard : Settings Float).grid.isOk = true := by decide +kernel
    rw [gridded] at succeeds
    cases succeeds

/-- The standard settings leave places for labels. -/
theorem unplaceable?_standard :
    TangentLine.unplaceable? (Settings.standard : Settings Float).labelPlaces = none :=
  TangentLine.unplaceable?_eq_none_iff.2 ⟨by decide, by decide⟩

/-- Three tangents touch at the ends and in the middle of the standard range. -/
theorem tangentPoints_three :
    tangentPoints (Settings.standard : Settings Float).dotStart
      (Settings.standard : Settings Float).dotEnd
      ((CountRequest.whole 3 : CountRequest Float).clamped .standard) = .ok [-10, 0, 10] :=
  rfl

/-- The tables of a square are the same. -/
theorem printed_rows_eq_of_square :
    ∃ (session : Session Float) (grid : List Float) (report : Report Float)
      (lines : List (TangentLine Float)),
      Session.build .standard (some "x*x") none = .ok session ∧
      (Settings.standard : Settings Float).grid = .ok grid ∧
      tangentPoints (Settings.standard : Settings Float).dotStart
        (Settings.standard : Settings Float).dotEnd
        ((CountRequest.whole 3 : CountRequest Float).clamped .standard) = .ok [-10, 0, 10] ∧
      TangentLine.unplaceable? (Settings.standard : Settings Float).labelPlaces = none ∧
      Report.tangency .standard (some "x*x") (some (.whole 3)) = .ok report ∧
      lines.length = 3 ∧
      report.document.printed .human =
        .ok (Console.sessionLines false session ++ lines.map TangentLine.row) := by
  let formula : Expr Float := .binary .mul (.var "x") (.var "x")
  have textAccepted : Session.accepted (Settings.standard : Settings Float) (some "x*x") =
      .ok "x*x" := rfl
  have formulaRead : Expr.read (Settings.standard : Settings Float).dialect "x*x" = .ok formula :=
    rfl
  obtain ⟨session, built, isFormula, isNamed⟩ :=
    Session.exists_build_eq textAccepted formulaRead (by decide)
  obtain ⟨grid, gridded⟩ := exists_grid_standard
  obtain ⟨report, lines, answered, atDots, haveValues, printed, _, rows⟩ :=
    printed_rows_eq_iff built gridded tangentPoints_three unplaceable?_standard
  have values (point : Float) : session.valueAt point = .ok (point * point) := by
    rw [Session.valueAt, isFormula, isNamed]
    rfl
  have atEach : ∀ dot ∈ ([-10, 0, 10] : List Int).map (Scalar.ofInt : Int → Float),
      Arithmetic.isFinite (dot * dot) = true := by decide +kernel
  have finite : ∀ line ∈ lines, Arithmetic.isFinite line.value = true := by
    intro line present
    rw [Except.ok.inj ((haveValues line present).symm.trans (values line.dot))]
    exact atEach line.dot (atDots ▸ List.mem_map_of_mem present)
  rw [rows.2 finite] at printed
  have three : lines.length = 3 := by simpa using congrArg List.length atDots
  exact ⟨session, grid, report, lines, built, gridded, tangentPoints_three, unplaceable?_standard,
    answered, three, printed⟩

/-- At a pole the answer calls the value undefined, and the console writes it as infinite. -/
theorem printed_rows_ne_at_pole :
    ∃ (session : Session Float) (fresh : Console Float) (report : Report Float)
      (answer : List String),
      Session.build .standard (some "1/x") none = .ok session ∧
      Console.create .standard = .ok fresh ∧ fresh.points = 3 ∧
      Report.tangency .standard (some "1/x") (some (.whole 3)) = .ok report ∧
      report.document.printed .human = .ok answer ∧
      (fresh.submit .standard "1/x").2.tableLines .standard ≠ answer := by
  let formula : Expr Float := .binary .div (.const 1) (.var "x")
  have textAccepted : Session.accepted (Settings.standard : Settings Float) (some "1/x") =
      .ok "1/x" := rfl
  have formulaRead : Expr.read (Settings.standard : Settings Float).dialect "1/x" = .ok formula :=
    rfl
  obtain ⟨session, built, isFormula, isNamed⟩ :=
    Session.exists_build_eq textAccepted formulaRead (by decide)
  obtain ⟨grid, gridded⟩ := exists_grid_standard
  obtain ⟨lines, drawn, atDots, haveValues⟩ :=
    TangentLine.exists_spread (Session.built_of_build built) gridded tangentPoints_three
      unplaceable?_standard
  obtain ⟨line, present, atPole⟩ : ∃ line ∈ lines, line.dot = (Scalar.ofInt 0 : Float) := by
    refine List.mem_map.1 ?_
    rw [atDots]
    simp
  have infinite : Arithmetic.isFinite line.value = false := by
    have value := haveValues line present
    rw [Session.valueAt, isFormula, isNamed, atPole] at value
    have quotient : 1 / Scalar.ofInt 0 = line.value := Except.ok.inj value
    rw [← quotient]
    decide +kernel
  let fresh : Console Float := ⟨.empty, 3, false, .unset, none, true⟩
  have asked : (CountRequest.whole 3 : CountRequest Float).clamped .standard = fresh.points := rfl
  have answered := Report.tangency_eq_ok built drawn
  have printed := Document.printed_tangents session.text session.derivativeText
    ((CountRequest.whole 3 : CountRequest Float).clamped .standard) lines
  rw [asked] at drawn
  have shown : (fresh.submit .standard "1/x").2.tableLines .standard =
      Console.sessionLines false session ++ lines.map TangentLine.row :=
    Console.tableLines_submit built drawn
  refine ⟨session, fresh, _, _, built, rfl, rfl, answered, printed, ?_⟩
  rw [shown]
  intro same
  have rows : lines.map TangentLine.row = lines.map TangentLine.reportedRow :=
    List.append_cancel_left same
  have finite := TangentLine.reportedRow_eq_row_iff.1 (List.map_inj_left.1 rows line present).symm
  rw [infinite] at finite
  cases finite

end Tangent
