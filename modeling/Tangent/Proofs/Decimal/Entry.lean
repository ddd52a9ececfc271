import Tangent.Proofs.Decimal.Rationals
import Tangent.Proofs.Token.Lexemes

/-!
# Entered numbers

A sign and a numeral that are entered on their own are read as the decimal with that sign, and so
are whole numbers and decimals as they are written.
-/

namespace Tangent

open Text Numeral

namespace Text

/-- Digits of no script are letters. -/
theorem toLower_of_isDecimalDigit {c : Char} (digit : isDecimalDigit c = true) : c.toLower = c := by
  have apart : ∀ first ∈ zeroDigits, first + 9 < 65 ∨ 90 < first := by decide
  simp only [isDecimalDigit, digitValue?, Option.isSome_map, List.find?_isSome, Bool.and_eq_true,
    decide_eq_true_eq] at digit
  obtain ⟨first, listed, atLeast, atMost⟩ := digit
  have := apart first listed
  refine dif_neg fun capital => ?_
  have atLeastA : 65 ≤ c.toNat := capital.1
  have atMostZ : c.toNat ≤ 90 := capital.2
  omega

/-- A text without characters that are dropped is not trimmed. -/
theorem trim_eq_self {drops : Char → Bool} {text : List Char}
    (stays : ∀ c ∈ text, drops c = false) : trim drops text = text := by
  have none : ∀ c ∈ ([] : List Char), drops c = true := nofun
  have trimmed := trim_append none none (fun c first => stays c (List.mem_of_mem_head? first))
    (fun c last => stays c (List.mem_of_mem_getLast? last))
  rwa [List.nil_append, List.append_nil] at trimmed

end Text

namespace Numeral

variable {sign text : List Char} {value : Decimal}

/-- Which characters occur in a numeral. -/
theorem Denotes.characters (denotes : Denotes text value) :
    ∀ c ∈ text, isDecimalDigit c = true ∨ c ∈ ['.', 'e', 'E', '+', '-'] := by
  cases denotes with
  | parts nonempty wholeAll fractionAll pointed raised =>
    simp only [List.forall_mem_append]
    refine ⟨⟨⟨fun c present => .inl (wholeAll c present), ?_⟩,
      fun c present => .inl (fractionAll c present)⟩, ?_⟩
    · cases pointed with
      | whole => exact nofun
      | point => exact List.forall_mem_singleton.2 (.inr (by decide))
    · cases raised with
      | none => exact nofun
      | marked isMark isSign some all =>
        refine List.forall_mem_cons.2 ⟨.inr ?_, List.forall_mem_append.2
          ⟨fun c present => .inr ?_, fun c present => .inl (all c present)⟩⟩
        · rcases isMark with rfl | rfl <;> decide
        · rcases isSign with rfl | rfl | rfl
          · cases present
          · obtain rfl := List.mem_singleton.1 present
            decide
          · obtain rfl := List.mem_singleton.1 present
            decide

/-- A sign is told from the numeral behind it. -/
theorem IsSign.append_numeral (isSign : IsSign sign) (denotes : Denotes text value) :
    signLength (sign ++ text) = sign.length ∧
      startsNegative (sign ++ text) = startsNegative sign := by
  rcases isSign with rfl | rfl | rfl
  · obtain ⟨first, rest, rfl, starts⟩ := denotes.head
    have noMinus : first ≠ '-' := by rintro rfl; exact absurd starts (by decide)
    have noPlus : first ≠ '+' := by rintro rfl; exact absurd starts (by decide)
    simp [signLength, startsNegative, noMinus, noPlus]
  · exact ⟨rfl, rfl⟩
  · exact ⟨rfl, rfl⟩

/-- A numeral is no word. -/
theorem Denotes.lower_ne (denotes : Denotes text value) {word : List Char} {letter : Char}
    (isWord : word.head? = some letter)
    (noStart : ¬(isDecimalDigit letter = true ∨ letter = '.')) :
    String.ofList (text.map Char.toLower) ≠ String.ofList word := by
  intro same
  obtain ⟨first, rest, rfl, starts⟩ := denotes.head
  have lower : first.toLower = first := by
    rcases starts with digit | rfl
    · exact toLower_of_isDecimalDigit digit
    · rfl
  have heads := congrArg List.head? (String.ofList_injective same)
  rw [List.map_cons, List.head?_cons, lower, isWord, Option.some.injEq] at heads
  exact noStart (heads ▸ starts)

end Numeral

namespace Decimal

/-- Digits stand for their number. -/
theorem denotes_digitText (number : Nat) : Denotes (digitText number) ⟨number, 0⟩ := by
  have nonempty : digitText number ≠ [] := Nat.toDigits_ne_nil
  have all : ∀ c ∈ digitText number, isDecimalDigit c = true :=
    fun c present => isDecimalDigit_of_isDigit (isDigit_of_mem_digitText present)
  have denotes := Denotes.parts (List.append_ne_nil_of_left_ne_nil nonempty []) all nofun .whole
    .none
  simpa [digitsValue_digitText] using denotes

/-- Digits with a point and a zero behind them stand for their number in tenths. -/
theorem denotes_pointed (number count : Nat) :
    Denotes (digitText number ++ zeros count ++ ['.', '0']) ⟨number * tenTo (count + 1), -1⟩ := by
  have nonempty (whole : List Char) : whole ++ ['0'] ≠ [] :=
    List.append_ne_nil_of_right_ne_nil whole (List.cons_ne_nil '0' [])
  have all : ∀ c ∈ digitText number ++ zeros count, isDecimalDigit c = true := by
    intro c present
    rcases List.mem_append.1 present with digit | zero
    · exact isDecimalDigit_of_isDigit (isDigit_of_mem_digitText digit)
    · exact isDecimalDigit_of_isDigit (isDigit_of_mem_zeros zero)
  have zero : ∀ c ∈ ['0'], isDecimalDigit c = true := List.all_eq_true.1 rfl
  have value : digitsValue (digitText number ++ zeros count ++ ['0']) =
      number * tenTo (count + 1) := by
    rw [← digitsValue_append_zeros, List.append_assoc, zeros, zeros, List.replicate_succ']
  have denotes := Denotes.parts (nonempty _) all zero (.point ['0']) .none
  rwa [value, List.append_nil, List.append_assoc _ ['.']] at denotes

/-- Zeros that have become digits leave the number. -/
theorem toRat_spelled (style : Style) (decimal : Decimal) :
    (decimal.spelled style).toRat = decimal.toRat := by
  rw [spelled]
  split
  · next whole =>
    obtain ⟨exponent, same⟩ := Int.eq_ofNat_of_zero_le whole.2.2
    rw [toRat, toRat, same, zpow_zero, zpow_natCast, mul_one, Int.toNat_natCast, tenTo, Nat.pow_eq]
    push_cast
    rfl
  · rfl

/-- A written decimal is a numeral for the same number, also with a point and a zero behind whole
numbers. -/
theorem denotes_write {style : Style}
    (ending : style.wholeEnding = [] ∨ style.wholeEnding = ['.', '0']) (decimal : Decimal) :
    ∃ written : Decimal, Denotes (write style decimal) written ∧ written.toRat = decimal.toRat := by
  have bareWritten {bare : Style} (noEnding : bare.wholeEnding = []) :
      ∃ written : Decimal, Denotes (write bare decimal) written ∧
        written.toRat = decimal.toRat := by
    refine ⟨decimal.spelled bare, ?_, toRat_spelled bare decimal⟩
    have denotes := denotes_of_scan? (scan?_write noEnding decimal .nil)
    rwa [List.append_nil, List.take_length] at denotes
  rcases ending with noEnding | pointed
  · exact bareWritten noEnding
  · have same : write style decimal = write { style with wholeEnding := [] } decimal ∨
        write style decimal =
            digitText decimal.digits ++ zeros decimal.exponent.toNat ++ ['.', '0'] ∧
          0 ≤ decimal.exponent := by
      simp only [write]
      split
      · exact .inl rfl
      · split
        · next whole => exact .inr ⟨by rw [pointed], whole⟩
        · exact .inl rfl
    rcases same with same | ⟨same, whole⟩
    · rw [same]
      exact bareWritten rfl
    · obtain ⟨exponent, isExponent⟩ := Int.eq_ofNat_of_zero_le whole
      rw [same, isExponent, Int.toNat_natCast]
      refine ⟨_, denotes_pointed decimal.digits exponent, ?_⟩
      rw [toRat, toRat, isExponent, tenTo, Nat.pow_eq, zpow_natCast, zpow_neg_one]
      push_cast
      ring

end Decimal

namespace NumberEntry

/-- A text without low lines is not grouped. -/
theorem ungrouped?_eq {text : List Char} (bare : '_' ∉ text) : ungrouped? text = some text := by
  have good (afterDigit : Bool) : hasGoodGrouping afterDigit text = true := by
    induction text generalizing afterDigit with
    | nil => rfl
    | cons c rest inductionHypothesis =>
      rw [hasGoodGrouping.eq_3 _ _ _ fun same => bare (same ▸ List.mem_cons_self)]
      exact inductionHypothesis (fun present => bare (List.mem_cons_of_mem c present)) _
  rw [ungrouped?, if_pos (good false), List.filter_eq_self.2]
  intro c present
  exact decide_eq_true fun same => bare (same ▸ present)

/-- A sign and a numeral are read as a decimal. -/
theorem read?_append {sign text : List Char} {value : Decimal} (isSign : IsSign sign)
    (denotes : Denotes text value) :
    read? (String.ofList (sign ++ text)) = some (.finite (startsNegative sign) value) := by
  have signVisible : ∀ c ∈ sign, isBlank c = false ∧ c ≠ '_' := by
    rcases isSign with rfl | rfl | rfl
    · exact nofun
    · exact List.forall_mem_singleton.2 (by decide)
    · exact List.forall_mem_singleton.2 (by decide)
  have kept : ∀ c ∈ sign ++ text, isMargin c = false := by
    intro c present
    have visible : isBlank c = false := by
      rcases List.mem_append.1 present with inSign | inText
      · exact (signVisible c inSign).1
      · exact denotes.visible c inText
    rw [isMargin, visible, Bool.false_and]
  have bare : '_' ∉ sign ++ text := by
    intro present
    rcases List.mem_append.1 present with inSign | inText
    · exact (signVisible _ inSign).2 rfl
    · exact absurd (denotes.characters _ inText) (by decide)
  obtain ⟨length, negative⟩ := isSign.append_numeral denotes
  have noInf := @Denotes.lower_ne _ _ denotes ['i', 'n', 'f'] 'i' rfl (by decide)
  have noInfinity := @Denotes.lower_ne _ _ denotes ['i', 'n', 'f', 'i', 'n', 'i', 't', 'y'] 'i' rfl
    (by decide)
  have noNan := @Denotes.lower_ne _ _ denotes ['n', 'a', 'n'] 'n' rfl (by decide)
  unfold read?
  rw [String.toList_ofList, trim_eq_self kept, ungrouped?_eq bare]
  simp only [Option.bind_eq_bind, Option.bind_some, length, negative, List.drop_left]
  rw [if_neg (not_or.2 ⟨noInf, noInfinity⟩), if_neg noNan]
  simp only [denotes.scan?_eq, Option.bind_some, if_true]
  rfl

/-- A whole number is read back from its text. -/
theorem read?_toString (number : Int) :
    read? (toString number) = some (.finite (number < 0) ⟨number.natAbs, 0⟩) := by
  rw [Int.toString_eq_repr, Int.repr_eq_if]
  split
  · next nonneg =>
    have read := read?_append (.inl rfl) (Decimal.denotes_digitText number.toNat)
    rw [decide_eq_false (Int.not_lt.2 nonneg), show number.natAbs = number.toNat by omega]
    exact read
  · next negative =>
    have read := read?_append (.inr (.inr rfl)) (Decimal.denotes_digitText (-number).toNat)
    rw [decide_eq_true (Int.not_le.1 negative), show number.natAbs = (-number).toNat by omega]
    rw [String.ofList_append] at read
    exact read

end NumberEntry

end Tangent
