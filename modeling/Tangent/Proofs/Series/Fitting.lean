import Tangent.Series

/-!
# Series that fit together

Values fit a length if each of them is a single number, a series of one entry, or a series of that
length. Operations between values that fit never fail. What they give fits too, its entries are
those of the operands at the same place, and it is a series, or one of the full length, as soon as
one of the operands is.
-/

namespace Tangent

variable {ν : Type}

namespace Series

/-- Whether a value is a series. -/
def isMany : Series ν → Bool
  | single _ => false
  | many _ => true

/-- Whether a value is a series of a length. -/
def hasLength (length : Nat) : Series ν → Bool
  | single _ => false
  | many values => values.length == length

/-- Whether a value can stand beside series of a length: a single number, a series of one entry, or
one of that length. -/
def Fits (length : Nat) : Series ν → Prop
  | single _ => True
  | many values => values.length = length ∨ values.length = 1

variable {length : Nat} {operation : ν → ν → ν} {series left right : Series ν}

/-- A value is a single number or a series. -/
theorem isMany_iff : series.isMany = true ↔ ∃ values, series = many values := by
  cases series <;> simp [isMany]

/-- A series of the length is its own list of entries. -/
theorem entries_many {values : List ν} (sameLength : values.length = length) :
    (many values).entries length = values := by
  match values, sameLength with
  | [], _ => rfl
  | [value], rfl => rfl
  | _ :: _ :: _, _ => rfl

/-- A value that fits has an entry for each place. -/
theorem length_entries (fits : series.Fits length) : (series.entries length).length = length := by
  cases series with
  | single value => exact List.length_replicate
  | many values =>
    rcases fits with full | one
    · rw [entries_many full, full]
    · obtain ⟨value, rfl⟩ := List.length_eq_one_iff.1 one
      exact List.length_replicate

/-- What a series has at a place is its entry there. -/
theorem getElem?_entries {values : List ν} {place : Nat} {value : ν} (inside : place < length)
    (known : values[place]? = some value) :
    ((many values).entries length)[place]? = some value := by
  match values, known with
  | [only], known =>
    obtain ⟨_, rfl⟩ := List.getElem?_eq_some_iff.1 known
    rw [entries, List.getElem?_replicate_of_lt inside, List.getElem_singleton]
  | _ :: _ :: _, known => exact known

section Map

variable (operation : ν → ν) (series : Series ν)

@[simp]
theorem isMany_map : (series.map operation).isMany = series.isMany := by
  cases series <;> rfl

@[simp]
theorem hasLength_map : (series.map operation).hasLength length = series.hasLength length := by
  cases series <;> simp [map, hasLength]

@[simp]
theorem fits_map : (series.map operation).Fits length ↔ series.Fits length := by
  cases series <;> simp [map, Fits]

@[simp]
theorem entries_map :
    (series.map operation).entries length = (series.entries length).map operation := by
  match series with
  | single value => simp [map, entries]
  | many [] => rfl
  | many [value] => simp [map, entries]
  | many (_ :: _ :: _) => rfl

end Map

/-- What an operation between series that fit gives: a series that fits too, with an entry for each
place, which is a series of the length where one of the operands is. -/
structure Zipped (length : Nat) (operation : ν → ν → ν) (left right series : Series ν) : Prop where
  fits : series.Fits length
  entries : series.entries length =
    List.zipWith operation (left.entries length) (right.entries length)
  isMany : series.isMany = (left.isMany || right.isMany)
  hasLength : series.hasLength length = (left.hasLength length || right.hasLength length)

/-- An operand of one entry on the left is stretched. -/
theorem zipped_left {value : ν} (entry : left.entries length = List.replicate length value)
    (fits : right.Fits length) (many : right.isMany = true)
    (noLonger : left.hasLength length = true → right.hasLength length = true) :
    Zipped length operation left right (right.map (operation value)) where
  fits := (fits_map _ _).2 fits
  entries := by
    rw [entries_map, entry]
    refine List.ext_getElem (by simp [length_entries fits]) fun place _ _ => ?_
    simp
  isMany := by simp [many]
  hasLength := by
    rw [hasLength_map, Bool.eq_iff_iff, Bool.or_eq_true]
    exact ⟨.inr, fun either => either.elim noLonger id⟩

/-- Operands change places with the operation. -/
theorem Zipped.flip
    (zipped : Zipped length (fun first second => operation second first) right left series) :
    Zipped length operation left right series where
  fits := zipped.fits
  entries := by rw [zipped.entries, List.zipWith_comm]
  isMany := by rw [zipped.isMany, Bool.or_comm]
  hasLength := by rw [zipped.hasLength, Bool.or_comm]

/-- An operand of one entry on the right is stretched. -/
theorem zipped_right {value : ν} (entry : right.entries length = List.replicate length value)
    (fits : left.Fits length) (many : left.isMany = true)
    (noLonger : right.hasLength length = true → left.hasLength length = true) :
    Zipped length operation left right (left.map (operation · value)) :=
  (zipped_left entry fits many noLonger).flip

/-- A series of the length of a single entry is as long as any series that fits. -/
theorem hasLength_of_one {value : ν} {values : List ν} (fits : (many values).Fits length)
    (one : (many [value]).hasLength length = true) : (many values).hasLength length = true := by
  simp only [Fits, hasLength, beq_iff_eq, List.length_singleton] at *
  omega

/-- A series that fits has the length, unless it has one entry. -/
theorem length_of_fits {values : List ν} (fits : (many values).Fits length)
    (several : ∀ value, values = [value] → False) : values.length = length := by
  refine fits.resolve_right fun one => ?_
  obtain ⟨value, same⟩ := List.length_eq_one_iff.1 one
  exact several value same

/-- Series that fit can be operands of an operation. -/
theorem exists_zip (leftFits : left.Fits length) (rightFits : right.Fits length) :
    ∃ series, zip operation left right = .ok series ∧
      Zipped length operation left right series := by
  fun_cases zip operation left right with
  | case1 left right => exact ⟨_, rfl, trivial, by simp [entries], rfl, rfl⟩
  | case2 left rights => exact ⟨_, rfl, zipped_left rfl rightFits rfl nofun⟩
  | case3 lefts right => exact ⟨_, rfl, zipped_right rfl leftFits rfl nofun⟩
  | case4 left rights => exact ⟨_, rfl, zipped_left rfl rightFits rfl (hasLength_of_one rightFits)⟩
  | case5 lefts right => exact ⟨_, rfl, zipped_right rfl leftFits rfl (hasLength_of_one leftFits)⟩
  | case6 lefts rights severalLefts severalRights =>
    have leftFull := length_of_fits leftFits severalLefts
    have rightFull := length_of_fits rightFits severalRights
    have full : (List.zipWith operation lefts rights).length = length := by simp [*]
    refine ⟨_, rfl, .inl full, ?_, rfl, ?_⟩
    · rw [entries_many full, entries_many leftFull, entries_many rightFull]
    · simp [hasLength, leftFull, rightFull]
  | case7 lefts rights severalLefts severalRights unequal =>
    have leftFull := length_of_fits leftFits severalLefts
    have rightFull := length_of_fits rightFits severalRights
    exact absurd (leftFull.trans rightFull.symm) unequal

end Series

end Tangent
