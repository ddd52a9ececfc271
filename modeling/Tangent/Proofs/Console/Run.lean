import Tangent.Proofs.Console.Lines
import Tangent.Proofs.Graph.Points
import Tangent.Proofs.Workspace.Run

/-!
# Runs of a console

Each part of the state of a console is a function of its own lines among those entered: the
workspace of the formulas, the number of points of the counts, the mode and the level of the changes
of the mode. Only the path of the latest plot also needs the formula and the number of points at the
time of each plot, and the plotter that there is then, since these decide whether the plot is saved.
One line takes the console of some turns to that of one turn more, and so a run takes a new console
to that of all turns.
-/

namespace Tangent

/-- A line entered, or the end of the input, and what draws and saves plots at that time. -/
structure Turn (ν : Type) where
  line : Option String
  plotter : Plotter ν

namespace Turn

variable {ν : Type}

/-- The formula entered, as it stands in the line. -/
def formula? (turn : Turn ν) : Option String :=
  turn.line.bind fun line => if Command.IsFormula line then some line else none

/-- The number of points asked for, where one is given. -/
def count? (turn : Turn ν) : Option String :=
  turn.line.bind fun line =>
    if Command.word line = "points" ∧ Command.argument line ≠ "" then some (Command.argument line)
    else none

/-- The mode of debugging that is chosen, where it is recognised. -/
def mode? (turn : Turn ν) : Option Bool :=
  turn.line.bind fun line =>
    if Command.word line = "debug" then Command.chosenMode? line else none

/-- The path for a plot. -/
def path? (turn : Turn ν) : Option String :=
  turn.line.bind fun line =>
    if Command.word line = "plot" then some (Command.plotPath line) else none

/-- Whether the console stops: at the end of the input, or at a word that leaves. -/
def Stops (turn : Turn ν) : Prop :=
  ∀ line ∈ turn.line, Command.word line = "quit" ∨ Command.word line = "exit"

instance (turn : Turn ν) : Decidable turn.Stops :=
  inferInstanceAs (Decidable (∀ line ∈ turn.line, _))

section Line

variable {line : String} {plotter : Plotter ν}

@[simp]
theorem formula?_line :
    formula? ⟨some line, plotter⟩ = if Command.IsFormula line then some line else none := by
  simp only [formula?, Option.bind_some]

@[simp]
theorem count?_line :
    count? ⟨some line, plotter⟩ =
      if Command.word line = "points" ∧ Command.argument line ≠ "" then
        some (Command.argument line)
      else none := by
  simp only [count?, Option.bind_some]

@[simp]
theorem mode?_line :
    mode? ⟨some line, plotter⟩ =
      if Command.word line = "debug" then Command.chosenMode? line else none := by
  simp only [mode?, Option.bind_some]

@[simp]
theorem path?_line :
    path? ⟨some line, plotter⟩ =
      if Command.word line = "plot" then some (Command.plotPath line) else none := by
  simp only [path?, Option.bind_some]

@[simp]
theorem stops_line_iff :
    Stops ⟨some line, plotter⟩ ↔
      Command.word line = "quit" ∨ Command.word line = "exit" := by
  simp [Stops]

end Line

end Turn

namespace Console

variable {ν : Type} [Number ν]

/-- The level of the logger in a mode. -/
def modeLevel (debug : Bool) : Log.Level :=
  if debug then .debug else .warning

/-- The path that a turn saves a plot to: there is a formula with a figure, and the figure is drawn
and then saved. -/
def savedPath? (settings : Settings ν) (session : Option (Session ν)) (points : Int)
    (turn : Turn ν) : Option String :=
  match turn.path?, session with
  | some path, some session =>
    match Plot.figure settings session points none with
    | .ok figure =>
      match turn.plotter.draw figure, turn.plotter.save figure path Plot.savedResolution with
      | .ok (), .ok () => some path
      | _, _ => none
    | .error _ => none
  | _, _ => none

@[simp]
theorem savedPath?_of_none {settings : Settings ν} {session : Option (Session ν)} {points : Int}
    {turn : Turn ν} (noPlot : turn.path? = none) :
    savedPath? settings session points turn = none := by
  simp [savedPath?, noPlot]

/-- A formula is submitted alike with the blanks around it and without them. -/
theorem submit_strip (settings : Settings ν) (line : String) (workspace : Workspace ν) :
    workspace.submit settings (some (Text.strip line)) = workspace.submit settings (some line) := by
  have accepted : Session.accepted settings (some (Text.strip line)) =
      Session.accepted settings (some line) := by
    simp only [Session.accepted, Text.strip_strip]
  simp [Workspace.submit, Session.build, accepted]

/-- Saving a plot changes the path of the latest one, and only if it succeeds. -/
theorem save_eq (settings : Settings ν) (line : String) (plotter : Plotter ν)
    (console : Console ν) (plots : Command.word line = "plot") :
    (console.save settings plotter (Command.plotPath line)).2 =
      { console with lastPlot := (savedPath? settings console.workspace.session console.points
          ⟨some line, plotter⟩).or console.lastPlot } := by
  unfold save savedPath? Plot.save Plot.drawn
  simp only [Turn.path?_line, plots, if_true]
  cases console.workspace.session with
  | none => rfl
  | some session =>
    cases described : Plot.figure settings session console.points none with
    | error fault => simp [described, bind, Except.bind]
    | ok figure =>
      cases drawn : plotter.draw figure with
      | error obstacle => simp [described, drawn, bind, Except.bind, Except.mapError]
      | ok =>
        cases saved : plotter.save figure (Command.plotPath line) Plot.savedResolution <;>
          simp [described, drawn, saved, bind, Except.bind, pure, Except.pure, Except.mapError]

omit [Number ν] in
/-- A recognised mode changes the flag and the level together. -/
theorem setDebug_eq (mode : Option Bool) (console : Console ν) :
    (console.setDebug mode).2 = { console with
      debug := mode.getD console.debug
      logLevel := (mode.map modeLevel).getD console.logLevel } := by
  match mode with
  | none => rfl
  | some true => rfl
  | some false => rfl

/-- A turn changes each part of the console as its line asks for that part, and no other part. -/
theorem step_eq (settings : Settings ν) (turn : Turn ν) (console : Console ν) :
    (console.step settings turn.plotter turn.line).2 = {
      workspace := match turn.formula? with
        | some line => (console.workspace.submit settings (some line)).2
        | none => console.workspace
      points := match turn.count? with
        | some count => (CountRequest.text count : CountRequest ν).clamped settings
        | none => console.points
      debug := turn.mode?.getD console.debug
      logLevel := (turn.mode?.map modeLevel).getD console.logLevel
      lastPlot :=
        (savedPath? settings console.workspace.session console.points turn).or console.lastPlot
      running := console.running && !turn.Stops } := by
  obtain ⟨line, plotter⟩ := turn
  cases line with
  | none =>
    have noPlot : Turn.path? ⟨none, plotter⟩ = none := rfl
    simp [step, Turn.formula?, Turn.count?, Turn.mode?, Turn.Stops, noPlot]
  | some line =>
    have asks := Command.asks_ofLine line
    simp only [step]
    generalize Command.ofLine line = command at asks
    cases asks with
    | nothing ignored =>
      have noWord := ignored.word_notMem
      simp_all [perform, Command.isFormula_iff, Command.words]
    | quit leaves => rcases leaves with quits | exits <;> simp [perform, Command.isFormula_iff, *]
    | help helps => simp [perform, Command.isFormula_iff, helps]
    | showTangents shows => simp [perform, Command.isFormula_iff, shows]
    | setPoints counts =>
      by_cases missing : Command.argument line = "" <;>
        simp [perform, setPoints, Command.isFormula_iff, counts, missing]
    | savePlot plots => simp [perform, save_eq, Command.isFormula_iff, plots]
    | setDebug debugs => simp [perform, setDebug_eq, Command.isFormula_iff, debugs]
    | formula isFormula =>
      have noWord := isFormula.2
      simp_all [perform, submit, submit_strip, Command.words]

/-- Takes the lines of some turns, also behind one at which the console stops. -/
def run (settings : Settings ν) : List (Turn ν) → Console ν → Console ν
  | [], console => console
  | turn :: later, console =>
    run settings later (console.step settings turn.plotter turn.line).2

section Recorded

variable (settings : Settings ν) (level : Log.Level) (turns : List (Turn ν))

/-- The workspace of the formulas entered. -/
def recordedWorkspace : Workspace ν :=
  Workspace.recorded settings ((turns.filterMap Turn.formula?).map some)

/-- The number of points: the last one asked for within the bounds, or the one shown at first. -/
def recordedPoints : Int :=
  match (turns.filterMap Turn.count?).getLast? with
  | some count => (CountRequest.text count : CountRequest ν).clamped settings
  | none => settings.defaultPoints

/-- The paths that plots were saved to in some turns behind others. -/
def savedPathsFrom (earlier : List (Turn ν)) : List (Turn ν) → List String
  | [] => []
  | turn :: later =>
    let saved := savedPath? settings (recordedWorkspace settings earlier).session
      (recordedPoints settings earlier) turn
    saved.toList ++ savedPathsFrom (earlier ++ [turn]) later

/-- The console of some turns. -/
def recorded : Console ν where
  workspace := recordedWorkspace settings turns
  points := recordedPoints settings turns
  debug := (turns.filterMap Turn.mode?).getLast?.getD false
  logLevel := ((turns.filterMap Turn.mode?).getLast?.map modeLevel).getD level
  lastPlot := (savedPathsFrom settings [] turns).getLast?
  running := !turns.any fun turn => turn.Stops

variable {settings level turns}

theorem savedPathsFrom_append (earlier : List (Turn ν)) (turn : Turn ν) :
    savedPathsFrom settings earlier (turns ++ [turn]) =
      savedPathsFrom settings earlier turns ++
        (savedPath? settings (recordedWorkspace settings (earlier ++ turns)).session
          (recordedPoints settings (earlier ++ turns)) turn).toList := by
  induction turns generalizing earlier with
  | nil => simp [savedPathsFrom]
  | cons first later inductionHypothesis => simp [savedPathsFrom, inductionHypothesis]

/-- A turn takes the console of some turns to that of one more. -/
theorem step_recorded (turn : Turn ν) :
    ((recorded settings level turns).step settings turn.plotter turn.line).2 =
      recorded settings level (turns ++ [turn]) := by
  simp only [step_eq, recorded, Console.mk.injEq]
  refine ⟨?workspace, ?points, ?debug, ?logLevel, ?lastPlot, ?running⟩
  case workspace =>
    cases entered : turn.formula? with
    | none => simp [recordedWorkspace, entered]
    | some line => simp [recordedWorkspace, entered, Workspace.submit_recorded]
  case points => cases asked : turn.count? <;> simp [recordedPoints, asked]
  case debug => cases chosen : turn.mode? <;> simp [chosen]
  case logLevel => cases chosen : turn.mode? <;> simp [chosen]
  case lastPlot =>
    rw [savedPathsFrom_append, List.nil_append]
    cases savedPath? settings (recordedWorkspace settings turns).session
      (recordedPoints settings turns) turn <;> simp
  case running => simp

/-- Turns take the console of some turns to that of these and further ones. -/
theorem run_recorded (later : List (Turn ν)) :
    run settings later (recorded settings level turns) =
      recorded settings level (turns ++ later) := by
  induction later generalizing turns with
  | nil => rw [run, List.append_nil]
  | cons turn later inductionHypothesis =>
    rw [run, step_recorded, inductionHypothesis, List.append_assoc, List.singleton_append]

/-- The number of points is at least the least one, if that at first is. -/
theorem minPoints_le_recordedPoints {least : Int} (bounded : least ≤ settings.minPoints)
    (initially : least ≤ settings.defaultPoints) : least ≤ recordedPoints settings turns := by
  unfold recordedPoints
  split
  · exact Int.le_trans bounded (CountRequest.minPoints_le_clamped settings _)
  · exact initially

/-- The number of points is at most the greatest one, if that at first is. -/
theorem recordedPoints_le_maxPoints (below : settings.minPoints ≤ settings.defaultPoints)
    (above : settings.defaultPoints ≤ settings.maxPoints) :
    recordedPoints settings turns ≤ settings.maxPoints := by
  unfold recordedPoints
  split
  · exact CountRequest.clamped_le_maxPoints (Int.le_trans below above) _
  · exact above

end Recorded

/-- A new console is ready, and has the state of no turns but for the level of the logger. -/
theorem create_eq_ok {settings : Settings ν} (sized : 0 ≤ settings.historySize) :
    Workspace.create settings = .ok .empty ∧
      ∃ fresh : Console ν, create settings = .ok fresh ∧
        ∀ level, { fresh with logLevel := level } = recorded settings level [] := by
  have created : Workspace.create settings = .ok .empty := if_neg (by omega)
  refine ⟨created, _, by rw [create, created]; rfl, fun level => ?_⟩
  simp [recorded, recordedWorkspace, recordedPoints, savedPathsFrom, Workspace.recorded_nil]

end Console

end Tangent
