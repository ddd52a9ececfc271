import Tangent.Proofs.Session.Closure
import Tangent.Workspace

/-!
# Runs of a workspace

What a workspace holds is a function of what was entered so far: the session of the latest accepted
formula, the fault of the latest entry, and the latest accepted texts. One submission takes the
workspace of some entries to that of one entry more, and so a run of submissions takes an empty
workspace to the workspace of all of them.
-/

namespace Tangent.Workspace

variable {ν : Type} [Number ν]

/-- Submits formulas one after the other, and collects the answers. -/
def submitAll (settings : Settings ν) :
    List (Option String) → Workspace ν → List (Submission ν) × Workspace ν
  | [], workspace => ([], workspace)
  | entered :: later, workspace =>
    let (answer, next) := workspace.submit settings entered
    let (answers, last) := submitAll settings later next
    (answer :: answers, last)

section Entries

variable (settings : Settings ν)

/-- The fault an entry is rejected with. -/
def fault? (entered : Option String) : Option (Fault ν) :=
  match Session.build settings entered none with
  | .error fault => some fault
  | .ok _ => none

/-- The entries that are accepted, in order and as they were entered. -/
def acceptedEntries (entries : List (Option String)) : List String :=
  entries.reduceOption.filter fun given => (fault? settings (some given)).isNone

/-- The workspace of some entries: the session of the last accepted one, the fault of the last one,
and the texts of the accepted ones without blanks around them, as many as are remembered. -/
def recorded (entries : List (Option String)) : Workspace ν where
  session := (acceptedEntries settings entries).getLast?.bind fun given =>
    (Session.build settings (some given) none).toOption
  lastFault := entries.getLast?.bind (fault? settings)
  history := latest settings.historySize.toNat ((acceptedEntries settings entries).map Text.strip)

/-- The answer to the last of some entries: the session in effect after it, and its fault. -/
def answered (entries : List (Option String)) : Submission ν :=
  ⟨(recorded settings entries).session, (recorded settings entries).lastFault⟩

end Entries

variable {settings : Settings ν} {entries : List (Option String)} {entered : Option String}

theorem fault?_of_error {fault : Fault ν}
    (rejected : Session.build settings entered none = .error fault) :
    fault? settings entered = some fault := by
  rw [fault?, rejected]

theorem fault?_of_ok {session : Session ν}
    (succeeded : Session.build settings entered none = .ok session) :
    fault? settings entered = none := by
  rw [fault?, succeeded]

/-- A rejected entry is not among the accepted ones. -/
theorem acceptedEntries_append_of_error {fault : Fault ν}
    (rejected : Session.build settings entered none = .error fault) :
    acceptedEntries settings (entries ++ [entered]) = acceptedEntries settings entries := by
  cases entered <;> simp [acceptedEntries, List.reduceOption_append, fault?_of_error rejected]

/-- An accepted entry is the last of the accepted ones. -/
theorem acceptedEntries_append_of_ok {session : Session ν} {given : String}
    (succeeded : Session.build settings (some given) none = .ok session) :
    acceptedEntries settings (entries ++ [some given]) =
      acceptedEntries settings entries ++ [given] := by
  simp [acceptedEntries, List.reduceOption_append, fault?_of_ok succeeded]

/-- Before anything is entered the workspace is empty. -/
theorem recorded_nil (settings : Settings ν) : recorded settings [] = empty := by
  simp [recorded, acceptedEntries, latest, empty]

/-- A submission takes the workspace of some entries to that of one more, and is answered so. -/
theorem submit_recorded (settings : Settings ν) (entries : List (Option String))
    (entered : Option String) :
    (recorded settings entries).submit settings entered =
      (answered settings (entries ++ [entered]), recorded settings (entries ++ [entered])) := by
  cases built : Session.build settings entered none with
  | error fault =>
    rw [submit_of_error built]
    simp [answered, recorded, acceptedEntries_append_of_error built, fault?_of_error built]
  | ok session =>
    obtain ⟨given, rfl, stripped⟩ := Session.exists_of_accepted (Session.built_of_build built).text
    rw [submit_of_ok built, stripped]
    simp [answered, recorded, acceptedEntries_append_of_ok built, fault?_of_ok built, built,
      latest_latest_append, Except.toOption]

/-- Submissions take the workspace of some entries to that of these and further ones. -/
theorem submitAll_recorded (settings : Settings ν) (entries later : List (Option String)) :
    (recorded settings entries).submitAll settings later =
      (later.mapIdx fun index _ => answered settings (entries ++ later.take (index + 1)),
        recorded settings (entries ++ later)) := by
  induction later generalizing entries with
  | nil => simp [submitAll]
  | cons entered later inductionHypothesis =>
    rw [submitAll, submit_recorded]
    simp only [inductionHypothesis]
    simp [List.mapIdx_cons]

/-- An answer accepts an entry if the entry has a session. -/
theorem isAccepted_answered_iff {index : Nat} (present : entries[index]? = some entered) :
    (answered settings (entries.take (index + 1))).isAccepted = true ↔
      ∃ session, Session.build settings entered none = .ok session := by
  have latestEntry : (entries.take (index + 1)).getLast? = some entered := by
    rw [List.take_add_one, present, Option.toList_some, List.getLast?_concat]
  have same : (answered settings (entries.take (index + 1))).fault = fault? settings entered := by
    rw [answered, recorded, latestEntry, Option.bind_some]
  rw [Submission.isAccepted, same]
  cases built : Session.build settings entered none with
  | error fault => simp [fault?_of_error built]
  | ok session => simp [fault?_of_ok built]

/-- Every fault that a workspace records is of a kind. -/
theorem isSome_kind?_of_recorded {fault : Fault ν}
    (recordedFault : (recorded settings entries).lastFault = some fault) :
    fault.kind?.isSome = true := by
  obtain ⟨entered, _, rejected⟩ := Option.bind_eq_some_iff.1 recordedFault
  cases built : Session.build settings entered none with
  | error other =>
    rw [fault?_of_error built, Option.some.injEq] at rejected
    subst rejected
    exact Fault.isSome_kind? (Session.isRefusal_of_build built)
  | ok session =>
    rw [fault?_of_ok built] at rejected
    cases rejected

end Tangent.Workspace
