/-!
# Results of sequenced steps

A step gives a value or a fault, and a sequence of steps gives the first fault. Two results agree
when both are the same fault or both are values that are related, and sequences of steps agree
when their steps do.
-/

namespace Tangent

variable {ε ε' α β γ δ : Type}

/-- A sequence of two steps succeeds only through both. -/
theorem exists_of_bind_eq_ok {first : Except ε α} {next : α → Except ε β}
    {value : β} (succeeds : first >>= next = .ok value) :
    ∃ middle, first = .ok middle ∧ next middle = .ok value := by
  cases first with
  | error fault => cases succeeds
  | ok middle => exact ⟨middle, rfl, succeeds⟩

/-- A sequence of two steps fails in one of them. -/
theorem bind_eq_error {first : Except ε α} {next : α → Except ε β} {fault : ε}
    (fails : first >>= next = .error fault) :
    first = .error fault ∨ ∃ middle, first = .ok middle ∧ next middle = .error fault := by
  cases first with
  | error other =>
    cases fails
    exact .inl rfl
  | ok middle => exact .inr ⟨middle, rfl, fails⟩

/-- Renaming what went wrong keeps success as it is. -/
theorem mapError_eq_ok_iff {rename : ε → ε'} {result : Except ε α} {value : α} :
    result.mapError rename = .ok value ↔ result = .ok value := by
  cases result with
  | error fault => exact iff_of_false nofun nofun
  | ok found =>
    constructor
    · rintro ⟨⟩
      rfl
    · rintro ⟨⟩
      rfl

/-- What goes wrong under a new name went wrong before. -/
theorem mapError_eq_error_iff {rename : ε → ε'} {result : Except ε α} {fault : ε'} :
    result.mapError rename = .error fault ↔
      ∃ cause, result = .error cause ∧ rename cause = fault := by
  cases result with
  | error cause =>
    constructor
    · rintro ⟨⟩
      exact ⟨cause, rfl, rfl⟩
    · rintro ⟨_, ⟨⟩, rfl⟩
      rfl
  | ok found =>
    refine iff_of_false nofun ?_
    rintro ⟨_, ⟨⟩, _⟩

/-- What goes wrong in a sequence of two steps is renamed in each of them. -/
theorem mapError_bind (rename : ε → ε') (first : Except ε α) (next : α → Except ε β) :
    (first >>= next).mapError rename =
      first.mapError rename >>= fun value => (next value).mapError rename := by
  cases first <;> rfl

/-- A value that is worked on is a value before. -/
theorem map_eq_ok_iff {work : α → β} {result : Except ε α} {value : β} :
    work <$> result = .ok value ↔ ∃ found, result = .ok found ∧ work found = value := by
  cases result <;> simp [Functor.map, Except.map]

/-- Both results are the same fault, or both are values that are related. -/
inductive Agree (related : α → β → Prop) : Except ε α → Except ε β → Prop where
  | error (fault : ε) : Agree related (.error fault) (.error fault)
  | ok {left : α} {right : β} (holds : related left right) : Agree related (.ok left) (.ok right)

namespace Agree

variable {related : α → β → Prop} {left : Except ε α} {right : Except ε β}

/-- Results that agree still do so after steps that take related values to results that agree. -/
theorem bind {relatedLater : γ → δ → Prop} {next : α → Except ε γ} {other : β → Except ε δ}
    (first : Agree related left right)
    (later : ∀ value value', related value value' →
      Agree relatedLater (next value) (other value')) :
    Agree relatedLater (left >>= next) (right >>= other) := by
  cases first with
  | error fault => exact .error fault
  | ok holds => exact later _ _ holds

/-- Results agree in either order. -/
theorem symm (agree : Agree related left right) :
    Agree (fun value value' => related value' value) right left := by
  cases agree with
  | error fault => exact .error fault
  | ok holds => exact .ok holds

/-- Of results that agree, one is a fault if the other is that fault. -/
theorem error_iff (agree : Agree related left right) {fault : ε} :
    left = .error fault ↔ right = .error fault := by
  cases agree <;> simp

/-- A value agrees with no result but a value that it is related to. -/
theorem exists_of_ok (agree : Agree related left right) {value : α} (known : left = .ok value) :
    ∃ value', right = .ok value' ∧ related value value' := by
  cases agree with
  | error fault => cases known
  | ok holds =>
    cases known
    exact ⟨_, rfl, holds⟩

end Agree

end Tangent
