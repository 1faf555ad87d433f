import PrintPath.Proofs.Words

/-!
# Letters inside a word

A value is looked for anywhere in a word, but a word is asked for its first character.  So a
letter may have a value and start no word.  In `Y2X5` the value of `X` is 5, and the only word
starts with `Y`: a move with this text goes to 5 on the first axis, and homing with the same
text leaves that axis alone (`not_hasWord_of_hasValue`).

This is the only way in which the two can come apart.  A value is always the end of a word, and
what stands in front of it in the word ends with the letter (`exists_word_of_value?`).  If the
letter is all that stands there, it starts a word.  In particular it does if it leads every word
that it occurs in (`LeadsItsWords`), as it does wherever words are divided by blanks.
-/

namespace PrintPath
namespace GCode

open Text

/-- Whether a letter has a value that can be read, as a command code or as a parameter. -/
def HasValue (letter : Char) (code : List Char) : Prop :=
  (integer? letter code).isSome ∨ (number? letter code).isSome

instance (letter : Char) (code : List Char) : Decidable (HasValue letter code) :=
  inferInstanceAs (Decidable (_ ∨ _))

/-- Whether every word in which a letter occurs starts with it. -/
def LeadsItsWords (letter : Char) (code : List Char) : Prop :=
  ∀ word ∈ words code, letter ∈ word → word.head? = some letter

instance (letter : Char) (code : List Char) : Decidable (LeadsItsWords letter code) :=
  inferInstanceAs (Decidable (∀ word ∈ words code, _))

/-- The codes that read the values of axis letters: the two moves and the redefinition. -/
def codesWithValues : List (List Char) :=
  [['G', '0'], ['G', '1'], ['G', '9', '2']]

/-- The code that asks which axis letters start a word. -/
def homingCode : List Char :=
  ['G', '2', '8']

/-- The letters of the axes. -/
def axisLetters : List Char :=
  ['X', 'Y', 'Z']

/-! ## Where a value stands -/

theorem hasWord_iff {letter : Char} {code : List Char} :
    hasWord letter code ↔ ∃ word ∈ words code, word.head? = some letter := by
  unfold hasWord
  simp only [List.any_eq_true, beq_iff_eq]

/-- **In a word the value of a letter is all that follows its first occurrence.** -/
theorem exists_append_of_scan {letter : Char} {word value : List Char}
    (hword : ∀ c ∈ word, ¬ isBlank c) (h : scan letter word = some value) :
    ∃ front, word = front ++ letter :: value ∧ letter ∉ front := by
  obtain ⟨front, rest, rfl, -, rfl, hfirst⟩ := scan_eq_some_iff.mp h
  have hrest : firstRun rest = rest :=
    firstRun_of_not_blank fun c hc =>
      hword c (List.mem_append_right _ (List.mem_cons_of_mem _ hc))
  refine ⟨front, by rw [hrest], fun hmem => ?_⟩
  -- an earlier occurrence has a character of the word behind it, and so a value
  obtain ⟨before, between, rfl⟩ := List.append_of_mem hmem
  have hbehind : startsWord (between ++ letter :: rest) := by
    refine (startsWord_iff_ne_nil fun c hc => hword c ?_).mpr
      (List.append_ne_nil_of_right_ne_nil _ (List.cons_ne_nil _ _))
    rw [List.append_assoc]
    exact List.mem_append_right _ (List.mem_cons_of_mem _ hc)
  exact hfirst before (letter :: between) rfl (List.cons_ne_nil _ _) ⟨_, rfl, hbehind⟩

/-- **A value is the end of a word, behind the first occurrence of its letter there.** -/
theorem exists_word_of_value? {letter : Char} {code value : List Char}
    (h : value? letter code = some value) :
    ∃ word ∈ words code, ∃ front, word = front ++ letter :: value ∧ letter ∉ front := by
  unfold value? at h
  obtain ⟨hletter, hscan⟩ := Option.ite_none_right_eq_some.mp h
  rw [scan_eq_findSome?_words (not_isBlank_of_isLetter hletter)] at hscan
  obtain ⟨word, hword, hvalue⟩ := List.exists_of_findSome?_eq_some hscan
  exact ⟨word, hword, exists_append_of_scan (not_blank_of_mem_words hword) hvalue⟩

/-- What can be read is the value of the letter. -/
theorem HasValue.exists_value? {letter : Char} {code : List Char} (h : HasValue letter code) :
    ∃ value, value? letter code = some value := by
  cases hvalue : value? letter code with
  | some value => exact ⟨value, rfl⟩
  | none =>
    unfold HasValue integer? number? at h
    rw [hvalue] at h
    rcases h with h | h
    · exact absurd h Bool.false_ne_true
    · exact absurd h Bool.false_ne_true

/-- A letter with a value that leads its words starts one of them. -/
theorem LeadsItsWords.hasWord {letter : Char} {code value : List Char}
    (hlead : LeadsItsWords letter code) (h : value? letter code = some value) :
    hasWord letter code := by
  obtain ⟨word, hword, front, rfl, -⟩ := exists_word_of_value? h
  have hmem : letter ∈ front ++ letter :: value := List.mem_append_right _ List.mem_cons_self
  exact hasWord_iff.mpr ⟨_, hword, hlead _ hword hmem⟩

/-! ## Axes -/

/-- A code with values takes those of the axes from the text behind it. -/
theorem value?_codesWithValues {lead : List Char} (hlead : lead ∈ codesWithValues) {axis : Char}
    (haxis : axis ∈ axisLetters) (parameters : List Char) :
    value? axis (lead ++ ' ' :: parameters) = value? axis parameters := by
  have hall : ∀ lead ∈ codesWithValues, axisLetters.all fun axis => value? axis lead = none := by
    decide
  have hnone : value? axis lead = none :=
    of_decide_eq_true (List.all_eq_true.mp (hall lead hlead) axis haxis)
  rw [value?_append_blank (by decide), hnone, Option.none_or]

/-- **A letter with a value starts a word if the value does not stand inside another word.**
The value is the end of a word, behind the first occurrence of the letter in it, and if that is
the first character, the letter starts a word.  So it does if it leads all its words; and an
axis that leads its words in a text, and that a move or a redefinition would read from there, is
one that homing would home with this text. -/
theorem hasWord_of_hasValue :
    (∀ (letter : Char) (code : List Char), HasValue letter code →
      ∃ word ∈ words code, ∃ front value, value? letter code = some value ∧
        word = front ++ letter :: value ∧ letter ∉ front ∧
        (front = [] → hasWord letter code)) ∧
      (∀ (letter : Char) (code : List Char), HasValue letter code →
        LeadsItsWords letter code → hasWord letter code) ∧
      ∀ axis ∈ axisLetters, ∀ parameters : List Char, LeadsItsWords axis parameters →
        ∀ lead ∈ codesWithValues, (number? axis (lead ++ ' ' :: parameters)).isSome →
          hasWord axis (homingCode ++ ' ' :: parameters) := by
  refine ⟨?_, ?_, ?_⟩
  · intro letter code h
    obtain ⟨value, hvalue⟩ := h.exists_value?
    obtain ⟨word, hword, front, rfl, hfront⟩ := exists_word_of_value? hvalue
    refine ⟨_, hword, front, value, hvalue, rfl, hfront, ?_⟩
    rintro rfl
    exact hasWord_iff.mpr ⟨_, hword, rfl⟩
  · intro letter code h hlead
    obtain ⟨value, hvalue⟩ := h.exists_value?
    exact hlead.hasWord hvalue
  · intro axis haxis parameters hleads lead hlead h
    have hhas : HasValue axis (lead ++ ' ' :: parameters) := Or.inr h
    obtain ⟨value, hvalue⟩ := hhas.exists_value?
    rw [value?_codesWithValues hlead haxis] at hvalue
    rw [hasWord_append_blank (by decide), hleads.hasWord hvalue, Bool.or_true]

/-- In `X1E5 Y2` the first axis leads its word, and the extruder has the value 5 inside of
it. -/
theorem hasWord_of_hasValue_insideExponent :
    HasValue 'E' "X1E5 Y2".toList ∧ HasValue 'X' "X1E5 Y2".toList ∧
      LeadsItsWords 'X' "X1E5 Y2".toList ∧
      (∃ word ∈ words "X1E5 Y2".toList, ∃ front value,
        value? 'E' "X1E5 Y2".toList = some value ∧ word = front ++ 'E' :: value ∧ 'E' ∉ front ∧
        (front = [] → hasWord 'E' "X1E5 Y2".toList)) ∧
      hasWord 'X' "X1E5 Y2".toList ∧
      (number? 'X' "G92 X1E5 Y2".toList).isSome ∧ hasWord 'X' "G28 X1E5 Y2".toList := by
  have hinside : HasValue 'E' "X1E5 Y2".toList := by decide
  have hvalue : HasValue 'X' "X1E5 Y2".toList := by decide
  have hleads : LeadsItsWords 'X' "X1E5 Y2".toList := by decide
  have hnumber : (number? 'X' "G92 X1E5 Y2".toList).isSome := by decide
  obtain ⟨hplace, hword, haxis⟩ := hasWord_of_hasValue
  refine ⟨hinside, hvalue, hleads, hplace 'E' _ hinside, hword 'X' _ hvalue hleads, hnumber, ?_⟩
  exact haxis 'X' (by decide) "X1E5 Y2".toList hleads ['G', '9', '2'] (by decide) hnumber

/-- **A letter with a value need not start a word.**  In `Y2X5` the first axis has the value 5,
and homing with this text leaves it alone. -/
theorem not_hasWord_of_hasValue :
    (¬ ∀ (letter : Char) (code : List Char), isLetter letter → HasValue letter code →
      hasWord letter code) ∧
      ¬ ∀ axis ∈ axisLetters, ∀ parameters : List Char, ∀ lead ∈ codesWithValues,
        (number? axis (lead ++ ' ' :: parameters)).isSome →
          hasWord axis (homingCode ++ ' ' :: parameters) := by
  constructor
  · intro h
    have hword := h 'X' "Y2X5".toList (by decide) (by decide)
    revert hword
    decide
  · intro h
    have hword := h 'X' (by decide) "Y2X5".toList ['G', '1'] (by decide) (by decide)
    revert hword
    decide

end GCode
end PrintPath
