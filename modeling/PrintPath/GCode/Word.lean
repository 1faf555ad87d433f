import PrintPath.Text.Blank
import PrintPath.Number.Numeral

/-!
# The words of a line of code

A line of G-code is made of words, a capital letter with a value glued to it.  Two
questions are asked of it.

*What is the value of a letter?*  It is the text behind the first occurrence of
the letter that has a non-blank character right behind it, up to the next blank.
The letter is looked for anywhere, not only at the start of a word, so in `G1X5`
both letters have a value, that of `G` being `1X5`.  Only that one occurrence is
ever read: if its text is not a number of the wanted kind, the letter has none.

*Does a letter start a word?*  That is asked of commands whose letters stand
alone, such as the axes of a homing command.

The main statement is `scan_eq_some_iff`, which says exactly what the first
question's answer is.
-/

namespace PrintPath
namespace GCode

open Text

/-- Whether a text starts with a non-blank character. -/
def startsWord : List Char → Bool
  | [] => false
  | c :: _ => !isBlank c

/-- The run of non-blank characters that a text starts with. -/
def firstRun (text : List Char) : List Char :=
  text.takeWhile fun c => !isBlank c

/-- The text behind the first occurrence of a letter that has one. -/
def scan (letter : Char) : List Char → Option (List Char)
  | [] => none
  | c :: rest =>
    if c = letter ∧ startsWord rest then some (firstRun rest) else scan letter rest

/-- The letters that can carry a value. -/
def isLetter (c : Char) : Bool :=
  decide ('A' ≤ c) && decide (c ≤ 'Z')

/-- The text of a letter's value. -/
def value? (letter : Char) (code : List Char) : Option (List Char) :=
  if isLetter letter then scan letter code else none

/-- The value of a letter, as the whole number of a command code. -/
def integer? (letter : Char) (code : List Char) : Option Int :=
  (value? letter code).bind Number.int64?

/-- The value of a letter, as the finite number of a parameter. -/
def number? (letter : Char) (code : List Char) : Option Float :=
  (value? letter code).bind Number.finite?

/-- Whether a letter starts a word. -/
def hasWord (letter : Char) (code : List Char) : Bool :=
  (words code).any fun word => word.head? == some letter

/-! ## What scanning finds -/

/-- A letter with a value stands at this place of a text. -/
def ValuedAt (letter : Char) (text : List Char) : Prop :=
  ∃ rest, text = letter :: rest ∧ startsWord rest

theorem scan_cons_valued {letter : Char} {rest : List Char} (h : startsWord rest) :
    scan letter (letter :: rest) = some (firstRun rest) := by
  simp [scan, h]

theorem scan_cons_of_not {letter c : Char} {rest : List Char}
    (h : ¬ ValuedAt letter (c :: rest)) : scan letter (c :: rest) = scan letter rest := by
  rw [scan, if_neg]
  rintro ⟨rfl, hr⟩
  exact h ⟨rest, rfl, hr⟩

/-- **Scanning finds the leftmost valued occurrence and nothing else.** -/
theorem scan_eq_some_iff {letter : Char} {text value : List Char} :
    scan letter text = some value ↔
      ∃ before rest, text = before ++ letter :: rest ∧ startsWord rest ∧
        value = firstRun rest ∧
        ∀ front back, before = front ++ back → back ≠ [] →
          ¬ ValuedAt letter (back ++ letter :: rest) := by
  induction text with
  | nil => simp [scan]
  | cons c text ih =>
    by_cases h : ValuedAt letter (c :: text)
    · obtain ⟨rest, heq, hr⟩ := h
      obtain ⟨rfl, rfl⟩ := List.cons.inj heq
      rw [scan_cons_valued hr]
      constructor
      · intro hv
        refine ⟨[], text, rfl, hr, (Option.some.inj hv).symm, ?_⟩
        intro front back hfb hb
        simp_all
      · rintro ⟨before, rest', heq', hr', rfl, hno⟩
        cases before with
        | nil =>
          obtain ⟨-, rfl⟩ := List.cons.inj heq'
          rfl
        | cons d before =>
          exact absurd ⟨text, heq'.symm, hr⟩ (hno [] (d :: before) rfl (by simp))
    · rw [scan_cons_of_not h, ih]
      constructor
      · rintro ⟨before, rest, rfl, hr, rfl, hno⟩
        refine ⟨c :: before, rest, rfl, hr, rfl, ?_⟩
        intro front back hfb hb
        cases front with
        | nil =>
          obtain rfl : c :: before = back := hfb
          exact h
        | cons d front =>
          exact hno front back (List.cons.inj hfb).2 hb
      · rintro ⟨before, rest, heq, hr, rfl, hno⟩
        cases before with
        | nil => exact absurd ⟨rest, heq, hr⟩ h
        | cons d before =>
          obtain ⟨rfl, rfl⟩ := List.cons.inj heq
          refine ⟨before, rest, rfl, hr, rfl, ?_⟩
          intro front back hfb hb
          exact hno (c :: front) back (by rw [hfb]; rfl) hb

end GCode
end PrintPath
