import Mathlib.Data.List.TakeWhile
import PrintPath.GCode.Line

/-!
# Only the words of a line of code count

There are two ways of looking something up in a line of code.  A letter with a value is looked
for anywhere in the text, and a letter that starts a word is looked for among the words.  The
first of them seems to see more than the words, since it goes from character to character.  It
does not: a value ends at a blank, and a letter with a blank behind it has none.  So to scan a
text is to scan its words, one after the other (`scan_eq_findSome?_words`).

A line of code asks for nothing that is not looked up in one of these ways.
`Command.read?_congr` says so, and `value?_congr_words` and `hasWord_congr_words` say that
either way the same is found in lines with the same words.

About the words themselves there are two equations.  A blank divides the words in front of it
from those behind it (`words_append_blank`), and a text without a blank is one word
(`words_of_not_blank`).
-/

namespace PrintPath
namespace Text

theorem consWord_append (word : List Char) (rest more : List (List Char)) :
    consWord word (rest ++ more) = consWord word rest ++ more := by
  unfold consWord
  split <;> rfl

theorem splitWord_append_blank {c : Char} (h : isBlank c) (front back : List Char) :
    splitWord (front ++ c :: back) = ((splitWord front).1, (splitWord front).2 ++ words back) := by
  induction front with
  | nil =>
    rw [List.nil_append]
    exact if_pos h
  | cons d front ih =>
    rw [List.cons_append, splitWord, splitWord, ih]
    by_cases hd : isBlank d
    · rw [if_pos hd, if_pos hd, consWord_append]
    · rw [if_neg hd, if_neg hd]

/-- **A blank divides the words in front of it from those behind it.** -/
theorem words_append_blank {c : Char} (h : isBlank c) (front back : List Char) :
    words (front ++ c :: back) = words front ++ words back := by
  unfold words
  rw [splitWord_append_blank h, consWord_append]
  rfl

theorem splitWord_of_not_blank {word : List Char} (h : ∀ c ∈ word, ¬ isBlank c) :
    splitWord word = (word, []) := by
  induction word with
  | nil => rfl
  | cons c word ih =>
    rw [splitWord, if_neg (h c List.mem_cons_self), ih fun d hd => h d (List.mem_cons_of_mem c hd)]

/-- A text without a blank is one word. -/
theorem words_of_not_blank {word : List Char} (hne : word ≠ []) (h : ∀ c ∈ word, ¬ isBlank c) :
    words word = [word] := by
  unfold words
  rw [splitWord_of_not_blank h]
  exact if_neg hne

end Text

namespace GCode

open Text

/-! ## Scanning -/

/-- No letter is a blank. -/
theorem not_isBlank_of_isLetter {letter : Char} (h : isLetter letter) : ¬ isBlank letter := by
  have hA : 'A'.val.toNat = 65 := rfl
  have hZ : 'Z'.val.toNat = 90 := rfl
  unfold isLetter at h
  simp only [Bool.and_eq_true, decide_eq_true_eq, Char.le_def, UInt32.le_iff_toNat_le] at h
  unfold isBlank blankRanges Char.toNat
  simp only [List.any_cons, List.any_nil, Bool.or_false, Bool.or_eq_true, Bool.and_eq_true,
    decide_eq_true_eq]
  omega

/-- What a text is cut off in front of, when it is cut into words, is the first blank. -/
theorem fst_splitWord (text : List Char) : (splitWord text).1 = firstRun text := by
  unfold firstRun
  induction text with
  | nil => rfl
  | cons c text ih =>
    rw [splitWord, List.takeWhile_cons]
    cases isBlank c with
    | true => rfl
    | false => exact congrArg (c :: ·) ih

theorem startsWord_firstRun (text : List Char) : startsWord (firstRun text) = startsWord text := by
  cases text with
  | nil => rfl
  | cons c text =>
    unfold firstRun
    rw [List.takeWhile_cons]
    cases h : isBlank c with
    | true => exact (congrArg (!·) h).symm
    | false => rfl

theorem firstRun_firstRun (text : List Char) : firstRun (firstRun text) = firstRun text :=
  List.takeWhile_idem

/-- A text without a blank is all one run. -/
theorem firstRun_of_not_blank {text : List Char} (h : ∀ c ∈ text, ¬ isBlank c) :
    firstRun text = text :=
  List.takeWhile_eq_self_iff.mpr fun c hc =>
    (Bool.not_eq_true' _).mpr (Bool.eq_false_iff.mpr (h c hc))

theorem startsWord_iff_ne_nil {text : List Char} (h : ∀ c ∈ text, ¬ isBlank c) :
    startsWord text ↔ text ≠ [] := by
  cases text with
  | nil => simp [startsWord]
  | cons c text => simp [startsWord, h c List.mem_cons_self]

/-- A letter in front of a text has the same value as in front of the first run of it. -/
theorem scan_cons_firstRun {letter c : Char} {text : List Char} {rest : Option (List Char)}
    (h : scan letter text = (scan letter (firstRun text)).or rest) :
    scan letter (c :: text) = (scan letter (c :: firstRun text)).or rest := by
  rw [scan, scan, startsWord_firstRun, firstRun_firstRun]
  split
  · rw [Option.some_or]
  · exact h

theorem findSome?_consWord {letter : Char} (word : List Char) (rest : List (List Char)) :
    (consWord word rest).findSome? (scan letter) =
      (scan letter word).or (rest.findSome? (scan letter)) := by
  unfold consWord
  by_cases hempty : word = []
  · rw [if_pos hempty, hempty]
    rfl
  · rw [if_neg hempty, List.findSome?_cons]
    cases scan letter word <;> rfl

theorem scan_eq_or_splitWord {letter : Char} (h : ¬ isBlank letter) (text : List Char) :
    scan letter text =
      (scan letter (splitWord text).1).or ((splitWord text).2.findSome? (scan letter)) := by
  induction text with
  | nil => rfl
  | cons c text ih =>
    rw [splitWord]
    by_cases hc : isBlank c
    · -- a blank is not the letter, and the words behind it are those of the rest
      have hne : c ≠ letter := fun heq => h (heq ▸ hc)
      have hscan : scan letter (c :: text) = scan letter text :=
        if_neg fun hvalued => hne hvalued.1
      rw [if_pos hc, hscan, ih]
      exact (findSome?_consWord _ _).symm
    · rw [if_neg hc]
      rw [fst_splitWord] at ih ⊢
      exact scan_cons_firstRun ih

/-- **To scan a text is to scan its words, one after the other.** -/
theorem scan_eq_findSome?_words {letter : Char} (h : ¬ isBlank letter) (text : List Char) :
    scan letter text = (words text).findSome? (scan letter) := by
  rw [scan_eq_or_splitWord h, words, findSome?_consWord]

/-! ## The two ways of looking something up -/

/-- Of two lines with the same words, a letter has the same value in both. -/
theorem value?_congr_words {code other : List Char} (h : words code = words other)
    (letter : Char) : value? letter code = value? letter other := by
  unfold value?
  split
  · next hletter =>
    have hblank := not_isBlank_of_isLetter hletter
    rw [scan_eq_findSome?_words hblank, scan_eq_findSome?_words hblank, h]
  · rfl

/-- Of two lines with the same words, a letter starts a word in both or in none. -/
theorem hasWord_congr_words {code other : List Char} (h : words code = words other)
    (letter : Char) : hasWord letter code = hasWord letter other := by
  unfold hasWord
  rw [h]

/-- In front of a blank a letter has its value, and behind it if there is none in front. -/
theorem value?_append_blank {c : Char} (h : isBlank c) (letter : Char) (front back : List Char) :
    value? letter (front ++ c :: back) = (value? letter front).or (value? letter back) := by
  unfold value?
  split
  · next hletter =>
    have hblank := not_isBlank_of_isLetter hletter
    rw [scan_eq_findSome?_words hblank, scan_eq_findSome?_words hblank front,
      scan_eq_findSome?_words hblank back, words_append_blank h, List.findSome?_append]
  · rfl

theorem hasWord_append_blank {c : Char} (h : isBlank c) (letter : Char) (front back : List Char) :
    hasWord letter (front ++ c :: back) = (hasWord letter front || hasWord letter back) := by
  unfold hasWord
  rw [words_append_blank h, List.any_append]

section Congruence

variable {code other : List Char} (hvalue : ∀ letter, value? letter code = value? letter other)
  (hword : ∀ letter, hasWord letter code = hasWord letter other)

include hvalue in
theorem integer?_congr (letter : Char) : integer? letter code = integer? letter other := by
  unfold integer?
  rw [hvalue]

include hvalue in
theorem number?_congr (letter : Char) : number? letter code = number? letter other := by
  unfold number?
  rw [hvalue]

include hvalue in
theorem axisNumbers_congr : axisNumbers code = axisNumbers other := by
  unfold axisNumbers
  rw [number?_congr hvalue, number?_congr hvalue, number?_congr hvalue]

include hword in
theorem axisWords_congr : axisWords code = axisWords other := by
  unfold axisWords
  rw [hword, hword, hword]

include hvalue hword in
/-- **A command depends on its line of code only through the values of the letters and the
letters that start a word.** -/
theorem Command.read?_congr : Command.read? code = Command.read? other := by
  have hg : ∀ g, Command.ofG g code = Command.ofG g other := by
    intro g
    unfold Command.ofG
    rw [axisNumbers_congr hvalue, axisWords_congr hword]
    simp only [number?_congr hvalue]
  have hm : ∀ m, Command.ofM m code = Command.ofM m other := by
    intro m
    unfold Command.ofM
    rw [number?_congr hvalue]
  unfold Command.read?
  rw [integer?_congr hvalue 'G', integer?_congr hvalue 'M']
  simp only [hg, hm]

end Congruence

theorem tool?_congr_words {code other : List Char} (h : words code = words other) :
    tool? code = tool? other :=
  integer?_congr (value?_congr_words h) 'T'

theorem Command.read?_congr_words {code other : List Char} (h : words code = words other) :
    Command.read? code = Command.read? other :=
  Command.read?_congr (value?_congr_words h) (hasWord_congr_words h)

end GCode
end PrintPath
