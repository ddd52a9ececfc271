import Tangent.Session

/-!
# Workspaces

A workspace keeps the current session, the fault of the latest submission, and the texts of the
formulas accepted so far, as many of them as are set. A rejected formula changes nothing but the
fault.
-/

namespace Tangent

/-- The state of a workspace. -/
structure Workspace (ν : Type) where
  session : Option (Session ν)
  lastFault : Option (Fault ν)
  /-- The accepted texts, oldest first. -/
  history : List String

/-- What a submission answers: the session in effect after it, and the fault if it was rejected. -/
structure Submission (ν : Type) where
  session : Option (Session ν)
  fault : Option (Fault ν)

/-- Whether the formula was accepted. -/
def Submission.isAccepted {ν : Type} (submission : Submission ν) : Bool :=
  submission.fault.isNone

namespace Workspace

variable {ν : Type} [Number ν]

/-- A workspace without a formula. -/
def empty : Workspace ν := ⟨none, none, []⟩

/-- A new workspace, unless its history cannot have the size that is set. -/
def create (settings : Settings ν) : Outcome ν (Workspace ν) :=
  if settings.historySize < 0 then .error .negativeHistory else .ok empty

/-- The latest entries of a history. -/
def latest (size : Nat) (history : List String) : List String :=
  history.drop (history.length - size)

theorem length_latest (size : Nat) (history : List String) :
    (latest size history).length = min size history.length := by
  simp only [latest, List.length_drop]
  omega

/-- What is dropped from a history in steps can be dropped from it at once. -/
theorem latest_latest_append (size : Nat) (history later : List String) :
    latest size (latest size history ++ later) = latest size (history ++ later) := by
  simp only [latest, List.length_append, List.length_drop, List.drop_append, List.drop_drop]
  congr 2 <;> omega

/-- Submits a formula. -/
def submit (settings : Settings ν) (entered : Option String) (workspace : Workspace ν) :
    Submission ν × Workspace ν :=
  match Session.build settings entered none with
  | .error fault =>
    (⟨workspace.session, some fault⟩, { workspace with lastFault := some fault })
  | .ok session =>
    (⟨some session, none⟩,
      ⟨some session, none,
        latest settings.historySize.toNat (workspace.history ++ [session.text])⟩)

/-- A rejected formula changes nothing but the fault. -/
theorem submit_of_error {settings : Settings ν} {entered : Option String}
    {workspace : Workspace ν} {fault : Fault ν}
    (rejected : Session.build settings entered none = .error fault) :
    workspace.submit settings entered =
      (⟨workspace.session, some fault⟩, { workspace with lastFault := some fault }) := by
  simp only [submit, rejected]

/-- An accepted formula becomes the current one and the latest of the history. -/
theorem submit_of_ok {settings : Settings ν} {entered : Option String}
    {workspace : Workspace ν} {session : Session ν}
    (accepted : Session.build settings entered none = .ok session) :
    workspace.submit settings entered =
      (⟨some session, none⟩,
        ⟨some session, none,
          latest settings.historySize.toNat (workspace.history ++ [session.text])⟩) := by
  simp only [submit, accepted]

end Workspace

end Tangent
