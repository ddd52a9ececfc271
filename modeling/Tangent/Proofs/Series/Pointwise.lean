import Tangent.Graph.Curve
import Tangent.Proofs.Expr.Agreement
import Tangent.Proofs.Series.Fitting
import Tangent.Proofs.Session.Closure

/-!
# Evaluation at many points

One walk of a tree with series for variables gives what a walk for each place gives: the same fault,
or a series of the values at the places. Which kind of value the result is depends only on which
variables occur in the tree. So a sampled curve has the values of its formula, point by point.
-/

namespace Tangent

variable {ν : Type}

/-- Whether a number is an entry of a value. -/
def Series.Has : Series ν → ν → Prop
  | single value, number => number = value
  | many values, number => number ∈ values

/-- The entries over a number of points are entries. -/
theorem Series.has_of_mem_entries (series : Series ν) {length : Nat} {number : ν}
    (inside : number ∈ series.entries length) : series.Has number := by
  match series, inside with
  | single value, inside => exact (List.mem_replicate.1 inside).2
  | many [], inside => exact inside
  | many [value], inside => exact List.mem_singleton.2 (List.mem_replicate.1 inside).2
  | many (_ :: _ :: _), inside => exact inside

namespace Bindings

/-- Whether all values that are bound fit a length. -/
def Fit (length : Nat) (bindings : Bindings (Series ν)) : Prop :=
  ∀ name series, bindings name = some series → series.Fits length

/-- Whether the same names are bound, and each to an entry of what was bound to it. -/
def Picks (bindings : Bindings (Series ν)) (chosen : Bindings ν) : Prop :=
  ∀ name, (bindings name = none ∧ chosen name = none) ∨
    ∃ series number, bindings name = some series ∧ chosen name = some number ∧ series.Has number

/-- What is bound at one place of series of a length. -/
def entry (bindings : Bindings (Series ν)) (length place : Nat) : Bindings ν :=
  fun name => (bindings name).bind fun series => (series.entries length)[place]?

variable {bindings : Bindings (Series ν)} {chosen : Bindings ν} {length : Nat}

theorem Picks.isSome_eq (picks : bindings.Picks chosen) (name : String) :
    (bindings name).isSome = (chosen name).isSome := by
  rcases picks name with ⟨unbound, unchosen⟩ | ⟨series, number, bound, picked, _⟩
  · rw [unbound, unchosen]
    rfl
  · rw [bound, picked]
    rfl

/-- Nothing is picked for a name without a value. -/
theorem Picks.eq_none (picks : bindings.Picks chosen) {name : String}
    (unbound : bindings name = none) : chosen name = none := by
  rcases picks name with ⟨_, unchosen⟩ | ⟨series, _, bound, _⟩
  · exact unchosen
  · cases unbound.symm.trans bound

/-- Only one number can be picked from a single one. -/
theorem Picks.eq_of_single (picks : bindings.Picks chosen) {name : String} {value : ν}
    (bound : bindings name = some (.single value)) : chosen name = some value := by
  rcases picks name with ⟨unbound, _⟩ | ⟨series, number, boundAgain, picked, has⟩
  · cases bound.symm.trans unbound
  · cases bound.symm.trans boundAgain
    rw [picked, show number = value from has]

/-- What is bound at a place is the entry of what fits. -/
theorem Fit.entry_eq (fits : bindings.Fit length) {place : Nat} (inside : place < length)
    {name : String} {series : Series ν} (bound : bindings name = some series) :
    ∃ number, (series.entries length)[place]? = some number ∧
      bindings.entry length place name = some number := by
  have known := List.getElem?_eq_getElem
    (inside.trans_eq (series.length_entries (fits name series bound)).symm)
  exact ⟨_, known, by rw [entry, bound, Option.bind_some, known]⟩

/-- The entries at a place are entries. -/
theorem Fit.picks_entry (fits : bindings.Fit length) {place : Nat} (inside : place < length) :
    bindings.Picks (bindings.entry length place) := by
  intro name
  cases bound : bindings name with
  | none => exact .inl ⟨rfl, by rw [entry, bound, Option.bind_none]⟩
  | some series =>
    obtain ⟨number, known, chosen⟩ := fits.entry_eq inside bound
    exact .inr ⟨series, number, rfl, chosen, series.has_of_mem_entries (List.mem_of_getElem? known)⟩

end Bindings

/-- What is asked of a tree in the domain of marks: whether a variable that is marked occurs. -/
def Interpretation.occurrence : Interpretation ν Bool where
  constant _ := false
  negate := id
  combine _ left right := .ok (left || right)
  apply _ := id

namespace Expr

section Occurrence

variable {marks : Bindings Bool}

/-- Trees in which marked variables occur are those with marks. -/
theorem any_evaluateAllIn_occurrence {trees : List (Expr ν)} {values : List Bool}
    (each : ∀ tree ∈ trees, ∀ mark, tree.evaluateIn .occurrence marks = .ok mark →
      (mark = true ↔ ∃ name ∈ tree.names, marks name = some true))
    (known : evaluateAllIn .occurrence marks trees = .ok values) :
    values.any id = true ↔ ∃ name ∈ namesOfAll trees, marks name = some true := by
  induction trees generalizing values with
  | nil =>
    cases known
    simp [namesOfAll]
  | cons tree rest inductionHypothesis =>
    obtain ⟨first, inRest⟩ := List.forall_mem_cons.1 each
    obtain ⟨mark, firstKnown, continued⟩ := exists_of_bind_eq_ok known
    obtain ⟨others, othersKnown, returned⟩ := exists_of_bind_eq_ok continued
    cases returned
    rw [List.any_cons, Bool.or_eq_true, inductionHypothesis inRest othersKnown, id,
      first mark firstKnown]
    simp [namesOfAll, or_and_right, exists_or]

/-- A tree is marked if a marked variable occurs in it. -/
theorem evaluateIn_occurrence {tree : Expr ν} {mark : Bool}
    (known : tree.evaluateIn .occurrence marks = .ok mark) :
    mark = true ↔ ∃ name ∈ tree.names, marks name = some true := by
  induction tree generalizing mark with
  | const value =>
    cases known
    simp [Interpretation.occurrence, names]
  | var name =>
    rw [evaluateIn] at known
    split at known
    · next found =>
      cases known
      simp [names, found]
    · cases known
  | neg operand inductionHypothesis =>
    obtain ⟨operandMark, operandKnown, returned⟩ := exists_of_bind_eq_ok known
    cases returned
    exact inductionHypothesis operandKnown
  | binary operator left right leftHypothesis rightHypothesis =>
    obtain ⟨leftMark, leftKnown, continued⟩ := exists_of_bind_eq_ok known
    obtain ⟨rightMark, rightKnown, returned⟩ := exists_of_bind_eq_ok continued
    cases returned
    rw [Bool.or_eq_true, leftHypothesis leftKnown, rightHypothesis rightKnown]
    simp [names, or_and_right, exists_or]
  | call name arguments inductionHypothesis =>
    rw [evaluateIn] at known
    split at known
    · cases known
    · next function _ =>
      obtain ⟨values, argumentsKnown, called⟩ := exists_of_bind_eq_ok known
      have same : mark = values.any id := by
        rcases values with _ | ⟨argument, _ | ⟨base, _ | ⟨third, rest⟩⟩⟩ <;> cases function <;>
          cases called <;> simp [Interpretation.occurrence]
      rw [same, names]
      exact any_evaluateAllIn_occurrence
        (fun argument present _ => inductionHypothesis argument present) argumentsKnown

end Occurrence

end Expr

namespace Interpretation

variable {length : Nat}

/-- An operation between values that fit agrees with a number that is related to whatever the
operation gives. -/
theorem agree_zip {β : Type} {related : Series ν → β → Prop} {operation : ν → ν → ν}
    {left right : Series ν} {value : β} (leftFits : left.Fits length)
    (rightFits : right.Fits length)
    (holds : ∀ series, Series.Zipped length operation left right series → related series value) :
    Agree related (Series.zip operation left right) (.ok value) := by
  obtain ⟨series, known, zipped⟩ := Series.exists_zip leftFits rightFits
  rw [known]
  exact .ok (holds series zipped)

variable [Arithmetic ν]

/-- Operations keep values that fit, whatever numbers stand beside them. -/
theorem respects_fits :
    entrywise.Respects (fun (series : Series ν) _ => series.Fits length) numeric where
  constant _ := trivial
  negate fits := (Series.fits_map _ _).2 fits
  combine _ _ _ _ _ leftFits rightFits := agree_zip leftFits rightFits fun _ => Series.Zipped.fits
  apply _ _ _ fits := (Series.fits_map _ _).2 fits

/-- Operations act on each place alone. -/
theorem respects_entry {place : Nat} (inside : place < length) :
    entrywise.Respects (fun (series : Series ν) number =>
      series.Fits length ∧ (series.entries length)[place]? = some number) numeric where
  constant value := ⟨trivial, List.getElem?_replicate_of_lt inside⟩
  negate := by
    rintro series number ⟨fits, known⟩
    exact ⟨(Series.fits_map _ _).2 fits, by simp [entrywise, numeric, known]⟩
  combine := by
    rintro operator left right leftNumber rightNumber ⟨leftFits, leftKnown⟩ ⟨rightFits, rightKnown⟩
    refine agree_zip leftFits rightFits fun series zipped => ⟨zipped.fits, ?_⟩
    rw [zipped.entries, List.getElem?_zipWith, leftKnown, rightKnown]
  apply := by
    rintro function series number ⟨fits, known⟩
    exact ⟨(Series.fits_map _ _).2 fits, by simp [entrywise, numeric, known]⟩

/-- Operations mark values as they mark occurrences, if marks are not put on single numbers, stay
under operations with one operand, and are passed on by each of two operands. -/
theorem respects_occurrence {has : Series ν → Bool} (single : ∀ value, has (.single value) = false)
    (map : ∀ operation series, has (series.map operation) = has series)
    (zipped : ∀ operation left right series, Series.Zipped length operation left right series →
      has series = (has left || has right)) :
    entrywise.Respects (fun (series : Series ν) mark => series.Fits length ∧ has series = mark)
      occurrence where
  constant value := ⟨trivial, single value⟩
  negate := by
    rintro series mark ⟨fits, rfl⟩
    exact ⟨(Series.fits_map _ _).2 fits, map _ _⟩
  combine := by
    rintro operator left right _ _ ⟨leftFits, rfl⟩ ⟨rightFits, rfl⟩
    exact agree_zip leftFits rightFits fun series known =>
      ⟨known.fits, zipped _ left right series known⟩
  apply := by
    rintro function series mark ⟨fits, rfl⟩
    exact ⟨(Series.fits_map _ _).2 fits, map _ _⟩

end Interpretation

namespace Expr

variable [Arithmetic ν] {length : Nat} {bindings : Bindings (Series ν)} {tree : Expr ν}

/-- Evaluation with values that fit fails as it does with numbers for the same variables. -/
theorem evaluateSeries_agree_bound (fits : bindings.Fit length) {chosen : Bindings ν}
    (same : ∀ name ∈ tree.names, (bindings name).isSome = (chosen name).isSome) :
    Agree (fun series _ => series.Fits length) (tree.evaluateSeries bindings)
      (tree.evaluate chosen) := by
  refine evaluateIn_agree Interpretation.respects_fits fun name inside => ?_
  have bothBound := same name inside
  cases bound : bindings name with
  | none =>
    rw [bound, Option.isSome_none, Eq.comm, Option.isSome_eq_false_iff, Option.isNone_iff_eq_none]
      at bothBound
    rw [bothBound]
    exact .none
  | some series =>
    rw [bound, Option.isSome_some, Eq.comm, Option.isSome_iff_exists] at bothBound
    obtain ⟨number, picked⟩ := bothBound
    rw [picked]
    exact .some (fits name series bound)

/-- At each place, evaluation with values that fit has the entry that evaluation with the entries at
that place gives. -/
theorem evaluateSeries_agree_entry (fits : bindings.Fit length) {place : Nat}
    (inside : place < length) :
    Agree (fun series number => series.Fits length ∧ (series.entries length)[place]? = some number)
      (tree.evaluateSeries bindings) (tree.evaluate (bindings.entry length place)) := by
  refine evaluateIn_agree (Interpretation.respects_entry inside) fun name _ => ?_
  cases bound : bindings name with
  | none =>
    rw [Bindings.entry, bound]
    exact .none
  | some series =>
    obtain ⟨number, known, chosen⟩ := fits.entry_eq inside bound
    rw [chosen]
    exact .some ⟨fits name series bound, known⟩

/-- Whether a variable of a tree has a value that is marked. -/
def Meets (tree : Expr ν) (bindings : Bindings (Series ν)) (has : Series ν → Bool) : Prop :=
  ∃ name ∈ tree.names, ∃ given, bindings name = some given ∧ has given = true

/-- What is marked in the result is marked in a variable that occurs. -/
theorem evaluateSeries_has {has : Series ν → Bool} (single : ∀ value, has (.single value) = false)
    (map : ∀ operation series, has (series.map operation) = has series)
    (zipped : ∀ operation left right series, Series.Zipped length operation left right series →
      has series = (has left || has right))
    (fits : bindings.Fit length) {series : Series ν}
    (known : tree.evaluateSeries bindings = .ok series) :
    has series = true ↔ tree.Meets bindings has := by
  have agree : Agree (fun series mark => series.Fits length ∧ has series = mark)
      (tree.evaluateSeries bindings)
      (tree.evaluateIn .occurrence fun name => (bindings name).map has) := by
    refine evaluateIn_agree (Interpretation.respects_occurrence single map zipped) fun name _ => ?_
    cases bound : bindings name with
    | none => exact .none
    | some given => exact .some ⟨fits name given bound, rfl⟩
  obtain ⟨mark, markKnown, _, rfl⟩ := agree.exists_of_ok known
  simp only [evaluateIn_occurrence markKnown, Option.map_eq_some_iff, Meets]

/-- The result is a series where one is bound to a variable of the tree. -/
theorem evaluateSeries_isMany (fits : bindings.Fit length) {result : Series ν}
    (known : tree.evaluateSeries bindings = .ok result) :
    result.isMany = true ↔ tree.Meets bindings Series.isMany :=
  evaluateSeries_has (fun _ => rfl) (fun _ _ => Series.isMany_map _ _)
    (fun _ _ _ _ zipped => zipped.isMany) fits known

/-- The result is a series of the length where one is bound to a variable of the tree. -/
theorem evaluateSeries_hasLength (fits : bindings.Fit length) {result : Series ν}
    (known : tree.evaluateSeries bindings = .ok result) :
    result.hasLength length = true ↔ tree.Meets bindings (Series.hasLength length) :=
  evaluateSeries_has (fun _ => rfl) (fun _ _ => Series.hasLength_map _ _)
    (fun _ _ _ _ zipped => zipped.hasLength) fits known

/-- Without a series among its variables a tree has one value, whatever entries are picked. -/
theorem evaluate_eq_of_picks {chosen other : Bindings ν} (picks : bindings.Picks chosen)
    (picksOther : bindings.Picks other) (without : ¬tree.Meets bindings Series.isMany) :
    tree.evaluate chosen = tree.evaluate other := by
  refine evaluateIn_congr fun name inside => ?_
  cases bound : bindings name with
  | none => rw [picks.eq_none bound, picksOther.eq_none bound]
  | some series =>
    cases series with
    | single value => rw [picks.eq_of_single bound, picksOther.eq_of_single bound]
    | many values => exact absurd ⟨name, inside, _, bound, rfl⟩ without

/-- Without a series among its variables a tree has a single value. -/
theorem exists_single_of_evaluateSeries (fits : bindings.Fit length) (positive : 0 < length)
    {result : Series ν} (known : tree.evaluateSeries bindings = .ok result)
    (without : ¬tree.Meets bindings Series.isMany) :
    ∃ value, result = .single value ∧
      ∀ chosen, bindings.Picks chosen → tree.evaluate chosen = .ok value := by
  obtain ⟨number, numberKnown, _, entry⟩ :=
    (evaluateSeries_agree_entry fits positive).exists_of_ok known
  cases result with
  | many values => exact absurd ((evaluateSeries_isMany fits known).1 rfl) without
  | single value =>
    refine ⟨value, rfl, fun chosen picks => ?_⟩
    rw [evaluate_eq_of_picks picks (fits.picks_entry positive) without, numberKnown]
    rw [Series.entries, List.getElem?_replicate_of_lt positive] at entry
    rw [Option.some.inj entry]

/-- With a series among its variables a tree has a series of values, place by place. -/
theorem exists_many_of_evaluateSeries (fits : bindings.Fit length) (positive : 0 < length)
    {result : Series ν} (known : tree.evaluateSeries bindings = .ok result)
    (occurs : tree.Meets bindings Series.isMany) :
    ∃ values, result = .many values ∧
      (tree.Meets bindings (Series.hasLength length) → values.length = length) ∧
      (¬tree.Meets bindings (Series.hasLength length) → values.length = 1) ∧
      ∀ place value, values[place]? = some value →
        tree.evaluate (bindings.entry length place) = .ok value := by
  obtain ⟨values, rfl⟩ := Series.isMany_iff.1 ((evaluateSeries_isMany fits known).2 occurs)
  obtain ⟨_, _, valuesFit, _⟩ := (evaluateSeries_agree_entry fits positive).exists_of_ok known
  have full : values.length = length ↔ tree.Meets bindings (Series.hasLength length) := by
    rw [← evaluateSeries_hasLength fits known, Series.hasLength, beq_iff_eq]
  refine ⟨values, rfl, full.2, fun shorter => valuesFit.resolve_left (mt full.1 shorter), ?_⟩
  intro place value valueKnown
  have inside : place < length := by
    have := (List.getElem?_eq_some_iff.1 valueKnown).1
    rcases valuesFit with same | one <;> omega
  obtain ⟨number, numberKnown, _, entry⟩ :=
    (evaluateSeries_agree_entry fits inside).exists_of_ok known
  rw [Series.getElem?_entries inside valueKnown] at entry
  rw [numberKnown, Option.some.inj entry]

end Expr

section Curves

variable [Number ν]

/-- A formula of a session can be sampled over any points, and the samples are its finite values at
the points. -/
theorem Curve.exists_sample {settings : Settings ν} {entered asked : Option String}
    {session : Session ν} (built : Session.Built settings entered asked session)
    (points : List ν) :
    ∃ curve, Curve.sample session.formula session.variableName points = .ok curve ∧
      curve.points = points ∧ curve.samples.length = points.length ∧
      ∀ place, (inside : place < points.length) →
        ∃ value, session.valueAt points[place] = .ok value ∧
          curve.samples[place]? = some (Number.finite? value) := by
  let bindings : Bindings (Series ν) := .single session.variableName (.many points)
  have fits : bindings.Fit points.length := by
    intro name series bound
    simp only [bindings, Bindings.single, Option.ite_none_right_eq_some, Option.some.injEq] at bound
    obtain ⟨_, rfl⟩ := bound
    exact .inl rfl
  have present : session.formula ∈ session.trees := by simp [Session.trees]
  -- The points may be none, so some other number stands for the variable here.
  obtain ⟨series, known, seriesFits⟩ : ∃ series,
      session.formula.evaluateSeries bindings = .ok series ∧ series.Fits points.length := by
    obtain ⟨value, valueKnown⟩ := built.exists_evaluate present (Arithmetic.ofNat 0)
    refine (Expr.evaluateSeries_agree_bound fits fun name inside => ?_).symm.exists_of_ok valueKnown
    rw [built.names name inside]
    simp [bindings, Bindings.single]
  refine ⟨⟨points, (series.entries points.length).map Number.finite?⟩, ?_, rfl, ?_, ?_⟩
  · rw [sample, known]
    rfl
  · rw [List.length_map, series.length_entries seriesFits]
  · intro place inside
    obtain ⟨value, valueKnown, _, entry⟩ :=
      (Expr.evaluateSeries_agree_entry fits inside).exists_of_ok known
    have same : bindings.entry points.length place =
        .single session.variableName points[place] := by
      funext name
      simp only [bindings, Bindings.entry, Bindings.single]
      split
      · rw [Option.bind_some, Series.entries_many rfl, List.getElem?_eq_getElem inside]
      · rfl
    rw [same] at valueKnown
    exact ⟨value, mapError_eq_ok_iff.2 valueKnown, by rw [List.getElem?_map, entry]; rfl⟩

end Curves

end Tangent
