/-!
# Blanks

Which characters count as blank space, and the removal of blanks at the two ends of a text.
-/

namespace Tangent.Text

/-- Blank characters: the controls that move to another column, line, page or record, and every
space and separator of a line or paragraph. -/
def isBlank (c : Char) : Bool :=
  let code := c.toNat
  (0x09 ≤ code && code ≤ 0x0D) || (0x1C ≤ code && code ≤ 0x20) || code == 0x85 ||
    code == 0xA0 || code == 0x1680 || (0x2000 ≤ code && code ≤ 0x200A) || code == 0x2028 ||
    code == 0x2029 || code == 0x202F || code == 0x205F || code == 0x3000

/-- The text without the characters of one class at its two ends. -/
def trim (drops : Char → Bool) (text : List Char) : List Char :=
  ((text.dropWhile drops).reverse.dropWhile drops).reverse

/-- The text without the blanks at its two ends. -/
def strip (text : String) : String :=
  String.ofList (trim isBlank text.toList)

/-- What does not start with characters of a class keeps them all. -/
theorem dropWhile_eq_self {drops : Char → Bool} {text : List Char}
    (stays : ∀ c ∈ text.head?, drops c = false) : text.dropWhile drops = text := by
  cases text with
  | nil => rfl
  | cons c rest => simp [stays c rfl]

/-- What is left of a text starts with another character. -/
theorem dropWhile_stays {drops : Char → Bool} {text : List Char} :
    ∀ c ∈ (text.dropWhile drops).head?, drops c = false := by
  intro c first
  have stop := List.head?_dropWhile_not drops text
  rw [first] at stop
  simpa using stop

/-- A trimmed text starts with another character. -/
theorem trim_stays {drops : Char → Bool} {text : List Char} :
    ∀ c ∈ (trim drops text).head?, drops c = false := by
  intro c first
  obtain ⟨dropped, same⟩ : trim drops text <+: text.dropWhile drops :=
    List.reverse_suffix.1 (by simpa [trim] using List.dropWhile_suffix drops)
  have inside : c ∈ (text.dropWhile drops).head? := by
    rw [← same, List.head?_append, Option.mem_def.1 first]
    rfl
  exact dropWhile_stays c inside

/-- A trimmed text has nothing more to lose. -/
theorem trim_trim (drops : Char → Bool) (text : List Char) :
    trim drops (trim drops text) = trim drops text := by
  rw [trim, dropWhile_eq_self trim_stays, trim, List.reverse_reverse,
    dropWhile_eq_self dropWhile_stays]

/-- What stays at its two ends is left of a text between characters that are dropped. -/
theorem trim_append {drops : Char → Bool} {front middle back : List Char}
    (frontDrops : ∀ c ∈ front, drops c = true) (backDrops : ∀ c ∈ back, drops c = true)
    (headStays : ∀ c ∈ middle.head?, drops c = false)
    (lastStays : ∀ c ∈ middle.getLast?, drops c = false) :
    trim drops (front ++ middle ++ back) = middle := by
  have backReversed : ∀ c ∈ back.reverse, drops c = true :=
    fun c present => backDrops c (List.mem_reverse.1 present)
  have reversedStays : ∀ c ∈ middle.reverse.head?, drops c = false := by
    rwa [List.head?_reverse]
  cases middle with
  | nil =>
    have allDrop : ∀ c ∈ front ++ [] ++ back, drops c = true := by
      simpa [or_imp, forall_and] using ⟨frontDrops, backDrops⟩
    rw [trim, ← List.append_nil (front ++ [] ++ back), List.dropWhile_append_of_pos allDrop]
    rfl
  | cons first others =>
    have behindFront : (front ++ (first :: others ++ back)).dropWhile drops =
        first :: others ++ back := by
      rw [List.dropWhile_append_of_pos frontDrops]
      exact dropWhile_eq_self headStays
    rw [List.append_assoc, trim, behindFront, List.reverse_append,
      List.dropWhile_append_of_pos backReversed, dropWhile_eq_self reversedStays,
      List.reverse_reverse]

@[simp]
theorem strip_strip (text : String) : strip (strip text) = strip text := by
  simp [strip, trim_trim]

/-- What is left between the blanks at its ends starts with no blank. -/
theorem strip_stays {text : String} : ∀ c ∈ (strip text).toList.head?, isBlank c = false := by
  simpa only [strip, String.toList_ofList] using trim_stays

/-- Every character that the standard library calls white space is blank here. -/
theorem isBlank_of_isWhitespace {c : Char} (white : c.isWhitespace = true) :
    isBlank c = true := by
  simp only [Char.isWhitespace, Bool.or_eq_true, decide_eq_true_eq] at white
  rcases white with ((rfl | rfl) | rfl) | rfl <;> decide

end Tangent.Text
