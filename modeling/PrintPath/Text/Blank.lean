/-!
# Blanks, trimming and words

A text is a list of characters.  Which characters are blank is Unicode's
`White_Space` property, and everything that separates, trims or ends a word in
this library asks that one table, so that a line means the same whether its words
are divided by spaces, tabs or a no-break space.

The main statements are the equations of `words`: a blank in front is skipped
(`words_cons_blank`), and a word never contains a blank
(`not_blank_of_mem_words`).
-/

namespace PrintPath
namespace Text

/-- The ranges of code points with Unicode's `White_Space` property, ends
included. -/
def blankRanges : List (Nat × Nat) :=
  [(0x09, 0x0D), (0x20, 0x20), (0x85, 0x85), (0xA0, 0xA0), (0x1680, 0x1680),
    (0x2000, 0x200A), (0x2028, 0x2029), (0x202F, 0x202F), (0x205F, 0x205F), (0x3000, 0x3000)]

/-- A character is blank when its code point lies in one of `blankRanges`. -/
def isBlank (c : Char) : Bool :=
  blankRanges.any fun range => decide (range.1 ≤ c.toNat) && decide (c.toNat ≤ range.2)

/-! ## Trimming -/

/-- A text without its blanks at the front. -/
def trimStart (text : List Char) : List Char :=
  text.dropWhile isBlank

/-- A text without the longest run of `p`-characters at its end. -/
def dropEndWhile (p : Char → Bool) (text : List Char) : List Char :=
  (text.reverse.dropWhile p).reverse

/-- A text without the blanks at either end. -/
def trim (text : List Char) : List Char :=
  dropEndWhile isBlank (trimStart text)

/-! ## Words -/

/-- A word in front of a list of words; the empty run of characters is no word. -/
def consWord (word : List Char) (rest : List (List Char)) : List (List Char) :=
  if word = [] then rest else word :: rest

/-- The run of non-blank characters that a text starts with, possibly empty, and
the words behind it. -/
def splitWord : List Char → List Char × List (List Char)
  | [] => ([], [])
  | c :: rest =>
    if isBlank c then ([], consWord (splitWord rest).1 (splitWord rest).2)
    else (c :: (splitWord rest).1, (splitWord rest).2)

/-- The words of a text: its maximal runs of non-blank characters, in order. -/
def words (text : List Char) : List (List Char) :=
  consWord (splitWord text).1 (splitWord text).2

@[simp] theorem words_nil : words [] = [] := rfl

@[simp] theorem words_cons_blank {c : Char} {rest : List Char} (h : isBlank c) :
    words (c :: rest) = words rest := by
  simp [words, splitWord, h, consWord]

theorem not_blank_of_mem_splitWord (text : List Char) :
    (∀ c ∈ (splitWord text).1, ¬ isBlank c) ∧
      ∀ word ∈ (splitWord text).2, word ≠ [] ∧ ∀ c ∈ word, ¬ isBlank c := by
  induction text with
  | nil => simp [splitWord]
  | cons d rest ih =>
    by_cases hd : isBlank d
    · simp only [splitWord, hd, if_true, consWord]
      refine ⟨by simp, ?_⟩
      split
      · exact ih.2
      · intro word hw
        rcases List.mem_cons.mp hw with rfl | hw
        · exact ⟨by assumption, ih.1⟩
        · exact ih.2 word hw
    · simp only [splitWord, hd]
      refine ⟨?_, ih.2⟩
      intro c hc
      rcases List.mem_cons.mp hc with rfl | hc
      · exact hd
      · exact ih.1 c hc

/-- No word contains a blank. -/
theorem not_blank_of_mem_words {text word : List Char} (h : word ∈ words text) :
    ∀ c ∈ word, ¬ isBlank c := by
  unfold words consWord at h
  split at h
  · exact ((not_blank_of_mem_splitWord text).2 word h).2
  · rcases List.mem_cons.mp h with rfl | h
    · exact (not_blank_of_mem_splitWord text).1
    · exact ((not_blank_of_mem_splitWord text).2 word h).2

end Text
end PrintPath
