import Tangent.Number.Binary64
import Tangent.Proofs.Series.Pointwise

/-!
# Offenders

If calls of elementary functions have as many arguments as these take, evaluation fails over two
things only: a variable without a value, and a call of anything else. The arguments of such a call
are never looked at, so that variables in them may have no value. The first offender is reported,
where a tree comes before its parts and these come from left to right.
-/

namespace Tangent

variable {ν α : Type}

namespace Interpretation

/-- What is asked of a tree in the domain of a single value: whether it has a value at all. -/
def presence : Interpretation ν Unit where
  constant _ := ()
  negate := id
  combine _ _ _ := .ok ()
  apply _ := id

variable [Arithmetic ν]

/-- Operations on numbers always have a value. -/
theorem respects_presence : numeric.Respects (fun (_ : ν) (_ : Unit) => True) presence where
  constant _ := trivial
  negate _ := trivial
  combine _ _ _ _ _ _ _ := .ok trivial
  apply _ _ _ _ := trivial

/-- Operations on values that fit always have a value, which fits too. -/
theorem respects_presence_of_fits {length : Nat} :
    entrywise.Respects (fun (series : Series ν) (_ : Unit) => series.Fits length) presence where
  constant _ := trivial
  negate fits := (Series.fits_map _ _).2 fits
  combine _ _ _ _ _ leftFits rightFits :=
    agree_zip leftFits rightFits fun _ zipped => zipped.fits
  apply _ _ _ fits := (Series.fits_map _ _).2 fits

end Interpretation

namespace Expr

/-- Whether the root of a tree, if it calls an elementary function, has a number of arguments that
the function takes. -/
def hasAcceptedCount : Expr ν → Bool
  | call name arguments => (Elementary.ofName? name).all (·.accepts arguments.length)
  | _ => true

mutual

/-- The trees inside a tree, itself first, without those inside the arguments of a call of no
elementary function. -/
def exposed : Expr ν → List (Expr ν)
  | const value => [const value]
  | var name => [var name]
  | neg operand => neg operand :: operand.exposed
  | binary operator left right => binary operator left right :: (left.exposed ++ right.exposed)
  | call name arguments =>
    call name arguments ::
      if (Elementary.ofName? name).isSome then exposedOfAll arguments else []

/-- The trees inside some trees, without those inside the arguments of a call of no elementary
function. -/
def exposedOfAll : List (Expr ν) → List (Expr ν)
  | [] => []
  | tree :: rest => tree.exposed ++ exposedOfAll rest

end

/-- What keeps the root of a tree from having a value, given the variables that have one: it is
another variable, or a call of no elementary function. -/
def offence? (isBound : String → Bool) : Expr ν → Option EvaluationFault
  | var name => if isBound name then none else some (.unboundVariable name)
  | call name _ => if (Elementary.ofName? name).isSome then none else some (.unknownFunction name)
  | _ => none

/-- Refuses a list of trees for the first offender in it. -/
def judge (isBound : String → Bool) (parts : List (Expr ν)) : Except EvaluationFault Unit :=
  match parts.findSome? (offence? isBound) with
  | some fault => .error fault
  | none => .ok ()

theorem exposedOfAll_eq_flatMap (trees : List (Expr ν)) :
    exposedOfAll trees = trees.flatMap exposed := by
  induction trees with
  | nil => rfl
  | cons tree rest inductionHypothesis => simp [exposedOfAll, inductionHypothesis]

/-- What is exposed in a tree is inside it. -/
theorem mem_subtrees_of_mem_exposed {tree part : Expr ν} (present : part ∈ tree.exposed) :
    part ∈ tree.subtrees := by
  induction tree with
  | const value => exact present
  | var name => exact present
  | neg operand inductionHypothesis =>
    exact List.mem_cons.2 ((List.mem_cons.1 present).imp_right inductionHypothesis)
  | binary operator left right leftHypothesis rightHypothesis =>
    refine List.mem_cons.2 ((List.mem_cons.1 present).imp_right fun inside => ?_)
    exact List.mem_append.2 ((List.mem_append.1 inside).imp leftHypothesis rightHypothesis)
  | call name arguments inductionHypothesis =>
    refine List.mem_cons.2 ((List.mem_cons.1 present).imp_right fun inside => ?_)
    split at inside
    · rw [exposedOfAll_eq_flatMap] at inside
      rw [subtreesOfAll_eq_flatMap]
      obtain ⟨argument, listed, below⟩ := List.mem_flatMap.1 inside
      exact List.mem_flatMap.2 ⟨argument, listed, inductionHypothesis argument listed below⟩
    · cases inside

section Offences

variable {isBound : String → Bool} {tree : Expr ν}

/-- The first offender inside a tree is exposed in it, because the call that would hide it comes
before it. -/
theorem findSome?_exposed :
    tree.exposed.findSome? (offence? isBound) = tree.subtrees.findSome? (offence? isBound) := by
  induction tree with
  | const value => rfl
  | var name => rfl
  | neg operand inductionHypothesis =>
    rw [exposed, subtrees, List.findSome?_cons, List.findSome?_cons, inductionHypothesis]
  | binary operator left right leftHypothesis rightHypothesis =>
    rw [exposed, subtrees, List.findSome?_cons, List.findSome?_cons, List.findSome?_append,
      List.findSome?_append, leftHypothesis, rightHypothesis]
  | call name arguments inductionHypothesis =>
    have inArguments : (exposedOfAll arguments).findSome? (offence? isBound) =
        (subtreesOfAll arguments).findSome? (offence? isBound) := by
      induction arguments with
      | nil => rfl
      | cons argument rest restHypothesis =>
        obtain ⟨first, inRest⟩ := List.forall_mem_cons.1 inductionHypothesis
        rw [exposedOfAll, subtreesOfAll, List.findSome?_append, List.findSome?_append, first,
          restHypothesis inRest]
    rw [exposed, subtrees, List.findSome?_cons, List.findSome?_cons]
    cases registered : Elementary.ofName? name with
    | none => simp [offence?, registered]
    | some function => simpa [offence?, registered] using inArguments

/-- A root offends as a variable without a value or as a call of no elementary function. -/
theorem isSome_offence?_iff :
    (tree.offence? isBound).isSome = true ↔
      (∃ name, tree = var name ∧ isBound name = false) ∨
        ∃ name arguments, tree = call name arguments ∧ Elementary.ofName? name = none := by
  cases tree <;> simp [offence?]

/-- There is an offender exactly if a variable that is exposed has no value, or a call is of no
elementary function. -/
theorem isSome_findSome?_offence_iff :
    (tree.subtrees.findSome? (offence? isBound)).isSome = true ↔
      (∃ name, var name ∈ tree.exposed ∧ isBound name = false) ∨
        ∃ name arguments, call name arguments ∈ tree.subtrees ∧
          Elementary.ofName? name = none := by
  constructor
  · rw [← findSome?_exposed, List.findSome?_isSome_iff]
    rintro ⟨part, present, offends⟩
    rcases isSome_offence?_iff.1 offends with
      ⟨name, rfl, unbound⟩ | ⟨name, arguments, rfl, unknown⟩
    · exact .inl ⟨name, present, unbound⟩
    · exact .inr ⟨name, arguments, mem_subtrees_of_mem_exposed present, unknown⟩
  · rw [List.findSome?_isSome_iff]
    rintro (⟨name, present, unbound⟩ | ⟨name, arguments, present, unknown⟩)
    · exact ⟨_, mem_subtrees_of_mem_exposed present,
        isSome_offence?_iff.2 (.inl ⟨name, rfl, unbound⟩)⟩
    · exact ⟨_, present, isSome_offence?_iff.2 (.inr ⟨name, arguments, rfl, unknown⟩)⟩

end Offences

section Presence

variable {isBound : String → Bool} {marks : Bindings Unit} {part : Expr ν}
  {first behind parts : List (Expr ν)} {fault : EvaluationFault}

theorem judge_eq_error_iff :
    judge isBound parts = .error fault ↔ parts.findSome? (offence? isBound) = some fault := by
  rw [judge]
  cases parts.findSome? (offence? isBound) <;> simp

/-- Two lists are judged one after the other. -/
theorem judge_append :
    judge isBound (first ++ behind) = judge isBound first >>= fun _ => judge isBound behind := by
  simp only [judge, List.findSome?_append]
  cases first.findSome? (offence? isBound) <;> rfl

theorem judge_cons_of_none (harmless : part.offence? isBound = none) :
    judge isBound (part :: parts) = judge isBound parts := by
  rw [judge, judge, List.findSome?_cons, harmless]

theorem judge_cons_of_some (offends : part.offence? isBound = some fault) :
    judge isBound (part :: parts) = .error fault := by
  rw [judge, List.findSome?_cons, offends]

/-- Trees are evaluated together up to the first offender in all of them. -/
theorem evaluateAllIn_presence {trees : List (Expr ν)}
    (each : ∀ tree ∈ trees, tree.evaluateIn .presence marks =
      judge (fun name => (marks name).isSome) tree.subtrees) :
    evaluateAllIn .presence marks trees =
      (fun _ => trees.map fun _ => ()) <$>
        judge (fun name => (marks name).isSome) (subtreesOfAll trees) := by
  induction trees with
  | nil => rfl
  | cons tree rest inductionHypothesis =>
    obtain ⟨first, inRest⟩ := List.forall_mem_cons.1 each
    rw [evaluateAllIn, first, inductionHypothesis inRest, subtreesOfAll, judge_append, map_bind]
    simp only [map_eq_pure_bind, bind_assoc, pure_bind, List.map_cons]

/-- Where there is only one value, a tree has it unless there is an offender. -/
theorem evaluateIn_presence {tree : Expr ν}
    (counted : tree.Throughout fun part => part.hasAcceptedCount = true) :
    tree.evaluateIn .presence marks =
      judge (fun name => (marks name).isSome) tree.subtrees := by
  induction tree with
  | const value => rfl
  | var name =>
    rw [evaluateIn]
    cases known : marks name with
    | none => exact (judge_cons_of_some (by simp [offence?, known])).symm
    | some value =>
      have harmless : (var name : Expr ν).offence? (fun name => (marks name).isSome) = none := by
        simp [offence?, known]
      rw [subtrees, judge_cons_of_none harmless]
      rfl
  | neg operand inductionHypothesis =>
    rw [evaluateIn, inductionHypothesis (throughout_neg.1 counted).2, subtrees,
      judge_cons_of_none rfl]
    exact bind_pure _
  | binary operator left right leftHypothesis rightHypothesis =>
    obtain ⟨_, inLeft, inRight⟩ := throughout_binary.1 counted
    rw [evaluateIn, leftHypothesis inLeft, rightHypothesis inRight, subtrees,
      judge_cons_of_none rfl, judge_append]
    exact bind_congr fun _ => bind_pure _
  | call name arguments inductionHypothesis =>
    obtain ⟨root, inArguments⟩ := throughout_call.1 counted
    rw [evaluateIn, subtrees]
    cases registered : Elementary.ofName? name with
    | none => exact (judge_cons_of_some (by simp [offence?, registered])).symm
    | some function =>
      have total : ∀ operator left right, ∃ value,
          (Interpretation.presence : Interpretation ν Unit).combine operator left right =
            .ok value := fun _ _ _ => ⟨(), rfl⟩
      have accepted : function.accepts (arguments.map fun _ => ()).length = true := by
        simpa [hasAcceptedCount, registered] using root
      obtain ⟨value, called⟩ := (Interpretation.call_eq_ok_iff total).2 accepted
      rw [judge_cons_of_none (by simp [offence?, registered])]
      dsimp only
      rw [evaluateAllIn_presence fun argument present =>
        inductionHypothesis argument present (inArguments argument present)]
      simp only [map_eq_pure_bind, bind_assoc, pure_bind, called]
      exact bind_pure _

end Presence

/-- What evaluation answers, given the variables that have a value: it fails at the first offender
inside the tree, which is also the first one that is exposed. There is one exactly if a variable
that is exposed has no value, or a call is of no elementary function; so there is none if all calls
are of elementary functions and all variables have values. -/
structure Answers (tree : Expr ν) (isBound : String → Bool) (result : Except EvaluationFault α) :
    Prop where
  first : ∀ fault, result = .error fault ↔
    tree.subtrees.findSome? (offence? isBound) = some fault
  firstExposed : ∀ fault, result = .error fault ↔
    tree.exposed.findSome? (offence? isBound) = some fault
  fails : (∃ fault, result = .error fault) ↔
    (∃ name, var name ∈ tree.exposed ∧ isBound name = false) ∨
      ∃ name arguments, call name arguments ∈ tree.subtrees ∧ Elementary.ofName? name = none
  succeeds :
    (∀ name arguments, call name arguments ∈ tree.subtrees →
      (Elementary.ofName? name).isSome = true) →
    (∀ name ∈ tree.names, isBound name = true) → ∃ value, result = .ok value

/-- What agrees with the judgement of all parts of a tree answers as described. -/
theorem answers_of_agree {related : α → Unit → Prop} {isBound : String → Bool} {tree : Expr ν}
    {result : Except EvaluationFault α}
    (agree : Agree related result (judge isBound tree.subtrees)) : tree.Answers isBound result := by
  have first : ∀ fault, result = .error fault ↔
      tree.subtrees.findSome? (offence? isBound) = some fault :=
    fun fault => agree.error_iff.trans judge_eq_error_iff
  have fails : (∃ fault, result = .error fault) ↔
      (∃ name, var name ∈ tree.exposed ∧ isBound name = false) ∨
        ∃ name arguments, call name arguments ∈ tree.subtrees ∧
          Elementary.ofName? name = none := by
    rw [← isSome_findSome?_offence_iff, Option.isSome_iff_exists]
    exact exists_congr first
  refine ⟨first, fun fault => ?_, fails, fun registered bound => ?_⟩
  · rw [findSome?_exposed]
    exact first fault
  · cases result with
    | ok value => exact ⟨value, rfl⟩
    | error fault =>
      rcases fails.1 ⟨fault, rfl⟩ with
        ⟨name, present, unbound⟩ | ⟨name, arguments, present, unknown⟩
      · have inside := var_mem_subtrees_iff.1 (mem_subtrees_of_mem_exposed present)
        cases unbound.symm.trans (bound name inside)
      · have known := registered name arguments present
        rw [unknown] at known
        cases known

/-- An interpretation whose operations keep the values of some kind answers as described for
bindings of that kind. -/
theorem answers_of_respects {meaning : Interpretation ν α} {bindings : Bindings α} {kind : α → Prop}
    (respects : meaning.Respects (fun value (_ : Unit) => kind value) .presence)
    (kinds : ∀ name value, bindings name = some value → kind value) {tree : Expr ν}
    (counted : tree.Throughout fun part => part.hasAcceptedCount = true) :
    tree.Answers (fun name => (bindings name).isSome) (tree.evaluateIn meaning bindings) := by
  let marks : Bindings Unit := fun name => (bindings name).map fun _ => ()
  have marked : (fun name => (marks name).isSome) = fun name => (bindings name).isSome :=
    funext fun name => Option.isSome_map
  have agree : Agree (fun value (_ : Unit) => kind value) (tree.evaluateIn meaning bindings)
      (tree.evaluateIn .presence marks) := by
    refine evaluateIn_agree respects fun name _ => ?_
    cases bound : bindings name with
    | none =>
      simp only [marks, bound]
      exact .none
    | some value =>
      simp only [marks, bound]
      exact .some (kinds name value bound)
  rw [evaluateIn_presence counted, marked] at agree
  exact answers_of_agree agree

/-- Evaluation fails exactly when it must, with the first offender. Let the calls of elementary
functions in a tree have as many arguments as these take, and let single numbers, or series of one
entry or of a common length, be bound to some variables, whatever their entries are. Then evaluation
fails if and only if a variable outside the arguments of calls of no elementary function has no
value, or there is such a call, and it reports the first of them, a call before its arguments. So a
tree of elementary functions only, with values for all of its variables, has a value too. -/
theorem evaluate_fails_at_first_offender [Arithmetic ν] (tree : Expr ν)
    (counted : tree.Throughout fun part => part.hasAcceptedCount = true) :
    (∀ (bindings : Bindings (Series ν)) (length : Nat), bindings.Fit length →
      tree.Answers (fun name => (bindings name).isSome) (tree.evaluateSeries bindings)) ∧
    ∀ bindings : Bindings ν,
      tree.Answers (fun name => (bindings name).isSome) (tree.evaluate bindings) := by
  constructor
  · intro bindings length fits
    exact answers_of_respects Interpretation.respects_presence_of_fits fits counted
  · intro bindings
    exact answers_of_respects Interpretation.respects_presence (fun _ _ _ => trivial) counted

/-- A call of no function hides a variable without a value in its arguments and comes before one
behind it. Without the call it is the turn of the variable, and values that are not finite are no
offence. -/
theorem evaluate_fails_at_first_offender_of_hidden :
    let hidden : Expr Float :=
      .binary .add (.call "log" [.call "f" [.var "y"], .var "z"]) (.var "w")
    let pole : Expr Float :=
      .binary .sub (.binary .div (.const 1) (.var "z")) (.call "log" [.var "z", .const 1])
    let bindings : Bindings (Series Float) := .single "z" (.many [0, 1 / 0, 0 / 0])
    (hidden.Throughout fun part => part.hasAcceptedCount = true) ∧
      (pole.Throughout fun part => part.hasAcceptedCount = true) ∧ bindings.Fit 3 ∧
      hidden.evaluateSeries bindings = .error (.unknownFunction "f") ∧
      hidden.evaluate (.single "y" 1) = .error (.unknownFunction "f") ∧
      (pole.neg.binary .mul hidden).evaluate (.single "y" 1) = .error (.unboundVariable "z") ∧
      ∃ series, pole.evaluateSeries bindings = .ok series := by
  intro hidden pole bindings
  have hiddenCounted : hidden.Throughout fun part => part.hasAcceptedCount = true :=
    (by decide : ∀ part ∈ hidden.subtrees, part.hasAcceptedCount = true)
  have poleCounted : pole.Throughout fun part => part.hasAcceptedCount = true :=
    (by decide : ∀ part ∈ pole.subtrees, part.hasAcceptedCount = true)
  have productCounted :
      (pole.neg.binary .mul hidden).Throughout fun part => part.hasAcceptedCount = true :=
    throughout_binary.2 ⟨rfl, throughout_neg.2 ⟨rfl, poleCounted⟩, hiddenCounted⟩
  have fits : bindings.Fit 3 := by
    intro name series bound
    obtain ⟨_, same⟩ := Option.ite_none_right_eq_some.1 bound
    cases same
    exact .inl rfl
  have registered : ∀ name arguments, call name arguments ∈ pole.subtrees →
      (Elementary.ofName? name).isSome = true := by
    intro name arguments present
    obtain ⟨rfl, _⟩ : name = "log" ∧ arguments = [.var "z", .const 1] := by
      simpa [pole, subtrees, subtreesOfAll] using present
    rfl
  obtain ⟨onSeries, onNumbers⟩ := evaluate_fails_at_first_offender hidden hiddenCounted
  refine ⟨hiddenCounted, poleCounted, fits, ?_, ?_, ?_, ?_⟩
  · exact ((onSeries bindings 3 fits).first _).2 rfl
  · exact ((onNumbers (.single "y" 1)).first _).2 rfl
  · exact (((evaluate_fails_at_first_offender _ productCounted).2 (.single "y" 1)).first _).2 rfl
  · exact ((evaluate_fails_at_first_offender pole poleCounted).1 bindings 3 fits).succeeds
      registered (by decide)

end Expr

end Tangent
