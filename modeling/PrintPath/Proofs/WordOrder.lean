import Mathlib.Data.List.Nodup
import PrintPath.Proofs.Spacing

/-!
# The words of a line may stand in any order

A letter with a value is looked for anywhere in a line, so it could be found in a word that
belongs to another letter.  On a well-formed line that cannot happen: each word is a letter and
a tail without letters (`PlainWord`), and no two words have the same letter.  There a letter has
the tail of its own word as its value, or none if the tail is empty (`value?_lineOf_eq_some_iff`).

Neither this nor the question which letters start a word depends on the order of the words.  So
words in another order ask for the same (`read_lineOf_perm`): the `G` word is the command
wherever it stands, the `M` word is one if there is no readable `G` word, and the `T` word is
taken first though it be the last.
-/

namespace PrintPath

open GCode Text

/-- A word of a well-formed line: a letter, and a tail in which no letter can be found. -/
structure PlainWord where
  letter : Char
  tail : List Char
  isLetter_letter : isLetter letter
  plain : ∀ c ∈ tail, ¬ isLetter c ∧ ¬ isBlank c ∧ c ≠ commentStart

namespace PlainWord

/-- Whether a tail is plain can be seen character by character. -/
theorem plain_of_all {tail : List Char}
    (h : tail.all fun c => !isLetter c && !isBlank c && c != commentStart) :
    ∀ c ∈ tail, ¬ isLetter c ∧ ¬ isBlank c ∧ c ≠ commentStart := by
  intro c hc
  have hplain := List.all_eq_true.mp h c hc
  simp only [Bool.and_eq_true, Bool.not_eq_true', bne_iff_ne] at hplain
  obtain ⟨⟨hletter, hblank⟩, hcomment⟩ := hplain
  exact ⟨Bool.eq_false_iff.mp hletter, Bool.eq_false_iff.mp hblank, hcomment⟩

/-- A word as it is written. -/
def text (w : PlainWord) : List Char :=
  w.letter :: w.tail

/-- The value that a letter has in a word. -/
def value? (letter : Char) (w : PlainWord) : Option (List Char) :=
  if w.letter = letter ∧ w.tail ≠ [] then some w.tail else none

theorem value?_eq_some_iff {letter : Char} {w : PlainWord} {value : List Char} :
    w.value? letter = some value ↔ w.letter = letter ∧ w.tail = value ∧ value ≠ [] := by
  unfold value?
  constructor
  · intro h
    obtain ⟨⟨hletter, hne⟩, hvalue⟩ := Option.ite_none_right_eq_some.mp h
    obtain rfl := Option.some.inj hvalue
    exact ⟨hletter, rfl, hne⟩
  · rintro ⟨hletter, rfl, hne⟩
    exact if_pos ⟨hletter, hne⟩

theorem not_isBlank_of_mem_text {w : PlainWord} {c : Char} (h : c ∈ w.text) : ¬ isBlank c := by
  rcases List.mem_cons.mp h with rfl | htail
  · exact not_isBlank_of_isLetter w.isLetter_letter
  · exact (w.plain c htail).2.1

theorem ne_commentStart_of_mem_text {w : PlainWord} {c : Char} (h : c ∈ w.text) :
    c ≠ commentStart := by
  rcases List.mem_cons.mp h with rfl | htail
  · intro heq
    have hletter := w.isLetter_letter
    rw [heq] at hletter
    exact absurd hletter (by decide)
  · exact (w.plain c htail).2.2

theorem words_text (w : PlainWord) : words w.text = [w.text] :=
  words_of_not_blank (List.cons_ne_nil _ _) fun _ hc => not_isBlank_of_mem_text hc

end PlainWord

/-- Some words on a line, with spaces between them. -/
def lineOf (ws : List PlainWord) : List Char :=
  [' '].intercalate (ws.map PlainWord.text)

/-! ## What is found in one word -/

/-- A letter that does not occur has no value. -/
theorem GCode.scan_of_notMem {letter : Char} {text : List Char} (h : letter ∉ text) :
    scan letter text = none := by
  induction text with
  | nil => rfl
  | cons c text ih =>
    have hne : c ≠ letter := fun heq => h (heq ▸ List.mem_cons_self)
    rw [scan, if_neg (fun hvalued => hne hvalued.1)]
    exact ih fun hmem => h (List.mem_cons_of_mem c hmem)

namespace PlainWord

/-- **In a plain word only its own letter is found.** -/
theorem scan_text {letter : Char} (h : isLetter letter) (w : PlainWord) :
    scan letter w.text = w.value? letter := by
  have htail : ∀ c ∈ w.tail, ¬ isBlank c := fun c hc => (w.plain c hc).2.1
  have hnone : scan letter w.tail = none :=
    scan_of_notMem fun hmem => (w.plain letter hmem).1 h
  unfold text value?
  rw [scan, firstRun_of_not_blank htail, hnone]
  exact if_congr (and_congr_right fun _ => startsWord_iff_ne_nil htail) rfl rfl

end PlainWord

/-! ## What is found on a line -/

/-- The first word of a line stands in front of a space and the rest. -/
theorem lineOf_cons_cons (w v : PlainWord) (ws : List PlainWord) :
    lineOf (w :: v :: ws) = w.text ++ ' ' :: lineOf (v :: ws) := by
  unfold lineOf
  rw [List.map_cons, List.map_cons, List.intercalate_cons_cons, List.append_assoc]
  rfl

theorem lineOf_singleton (w : PlainWord) : lineOf [w] = w.text :=
  List.intercalate_singleton

/-- The words of a line are those that it was made of. -/
theorem words_lineOf (ws : List PlainWord) : words (lineOf ws) = ws.map PlainWord.text := by
  induction ws with
  | nil => rfl
  | cons w ws ih =>
    cases ws with
    | nil => exact (congrArg words (lineOf_singleton w)).trans w.words_text
    | cons v ws =>
      rw [lineOf_cons_cons, words_append_blank (by decide), ih, w.words_text]
      rfl

/-- A line of plain words is all code. -/
theorem commentStart_notMem_lineOf (ws : List PlainWord) : commentStart ∉ lineOf ws := by
  have htext : ∀ w : PlainWord, commentStart ∉ w.text :=
    fun _ hmem => PlainWord.ne_commentStart_of_mem_text hmem rfl
  induction ws with
  | nil => exact List.not_mem_nil
  | cons w ws ih =>
    cases ws with
    | nil =>
      rw [lineOf_singleton]
      exact htext w
    | cons v ws =>
      rw [lineOf_cons_cons, commentStart_mem_append_blank (htext w) (by decide)]
      exact ih

/-- On a line of plain words a letter is looked up word by word. -/
theorem value?_lineOf {letter : Char} (h : isLetter letter) (ws : List PlainWord) :
    GCode.value? letter (lineOf ws) = ws.findSome? (PlainWord.value? letter) := by
  unfold GCode.value?
  rw [if_pos h, scan_eq_findSome?_words (not_isBlank_of_isLetter h), words_lineOf,
    List.findSome?_map]
  congr 1
  funext w
  exact PlainWord.scan_text h w

section

variable {ws vs : List PlainWord} (hdistinct : (ws.map PlainWord.letter).Nodup)

include hdistinct

/-- **On a well-formed line a letter has the tail of its own word as its value.** -/
theorem value?_lineOf_eq_some_iff {letter : Char} {value : List Char} :
    GCode.value? letter (lineOf ws) = some value ↔
      ∃ w ∈ ws, w.letter = letter ∧ w.tail = value ∧ value ≠ [] := by
  constructor
  · intro h
    have hletter : isLetter letter := by
      by_contra hnot
      unfold GCode.value? at h
      rw [if_neg hnot] at h
      exact Option.some_ne_none value h.symm
    rw [value?_lineOf hletter] at h
    obtain ⟨w, hw, hvalue⟩ := List.exists_of_findSome?_eq_some h
    exact ⟨w, hw, PlainWord.value?_eq_some_iff.mp hvalue⟩
  · rintro ⟨w, hw, rfl, hvalue⟩
    have hown : w.value? w.letter = some value :=
      PlainWord.value?_eq_some_iff.mpr ⟨rfl, hvalue⟩
    rw [value?_lineOf w.isLetter_letter]
    cases h : ws.findSome? (PlainWord.value? w.letter) with
    | none =>
      rw [List.findSome?_eq_none_iff.mp h w hw] at hown
      exact hown
    | some other =>
      -- a word with a value for this letter is the one word that has the letter
      obtain ⟨v, hv, hvalue'⟩ := List.exists_of_findSome?_eq_some h
      have hletter : v.letter = w.letter := (PlainWord.value?_eq_some_iff.mp hvalue').1
      rw [List.inj_on_of_nodup_map hdistinct hv hw hletter, hown] at hvalue'
      exact hvalue'.symm

/-- A letter has the same value in any order of the words. -/
theorem value?_lineOf_perm (hperm : vs.Perm ws) (letter : Char) :
    GCode.value? letter (lineOf vs) = GCode.value? letter (lineOf ws) := by
  have hdistinct' : (vs.map PlainWord.letter).Nodup :=
    (hperm.map PlainWord.letter).nodup_iff.mpr hdistinct
  refine Option.ext fun value => ?_
  rw [value?_lineOf_eq_some_iff hdistinct, value?_lineOf_eq_some_iff hdistinct']
  simp only [hperm.mem_iff]

end

/-- The same letters start a word in any order of the words. -/
theorem hasWord_lineOf_perm {ws vs : List PlainWord} (hperm : vs.Perm ws) (letter : Char) :
    hasWord letter (lineOf vs) = hasWord letter (lineOf ws) := by
  unfold hasWord
  rw [words_lineOf, words_lineOf]
  exact (hperm.map PlainWord.text).any_eq

/-- **In any order of its words a line is read alike.** -/
theorem read_lineOf_perm {ws vs : List PlainWord}
    (hdistinct : (ws.map PlainWord.letter).Nodup) (hperm : vs.Perm ws) :
    Line.read (lineOf vs) = Line.read (lineOf ws) := by
  have hvalue := value?_lineOf_perm hdistinct hperm
  have htool : tool? (lineOf vs) = tool? (lineOf ws) := integer?_congr hvalue 'T'
  unfold Line.read
  rw [annotate_of_notMem (commentStart_notMem_lineOf vs),
    annotate_of_notMem (commentStart_notMem_lineOf ws)]
  simp only [htool, Command.read?_congr hvalue (hasWord_lineOf_perm hperm)]

/-- **The order of the words on a well-formed line does not matter.**  If no two words have the
same letter, the words lead any run to the same state in any order, each letter with a word has
the tail of it as its value, or none if that is empty, and no other letter has a value. -/
theorem run_lineOf_perm (setup : Setup) (front : List (List Char)) {ws vs : List PlainWord}
    (hdistinct : (ws.map PlainWord.letter).Nodup) (hperm : vs.Perm ws) :
    Pass.run setup (front ++ [lineOf vs]) = Pass.run setup (front ++ [lineOf ws]) ∧
      (∀ w ∈ ws, GCode.value? w.letter (lineOf vs) =
        if w.tail = [] then none else some w.tail) ∧
      ∀ letter ∉ ws.map PlainWord.letter, GCode.value? letter (lineOf vs) = none := by
  refine ⟨?_, ?_, ?_⟩
  · rw [Pass.run_concat, Pass.run_concat, read_lineOf_perm hdistinct hperm]
  · intro w hw
    rw [value?_lineOf_perm hdistinct hperm]
    split
    · next hempty =>
      refine Option.eq_none_iff_forall_ne_some.mpr fun value hvalue => ?_
      obtain ⟨v, hv, hletter, rfl, hne⟩ := (value?_lineOf_eq_some_iff hdistinct).mp hvalue
      rw [List.inj_on_of_nodup_map hdistinct hv hw hletter] at hne
      exact hne hempty
    · next hne => exact (value?_lineOf_eq_some_iff hdistinct).mpr ⟨w, hw, rfl, rfl, hne⟩
  · intro letter hletter
    rw [value?_lineOf_perm hdistinct hperm]
    refine Option.eq_none_iff_forall_ne_some.mpr fun value hvalue => ?_
    obtain ⟨w, hw, rfl, -, -⟩ := (value?_lineOf_eq_some_iff hdistinct).mp hvalue
    exact hletter (List.mem_map_of_mem hw)

/-- A move with a tool, a bare letter and a flag in small letters. -/
def wordsOfMove : List PlainWord :=
  [⟨'G', "1".toList, by decide, PlainWord.plain_of_all (by decide)⟩,
    ⟨'X', "10".toList, by decide, PlainWord.plain_of_all (by decide)⟩,
    ⟨'F', [], by decide, PlainWord.plain_of_all (by decide)⟩,
    ⟨'E', "1.5e0".toList, by decide, PlainWord.plain_of_all (by decide)⟩,
    ⟨'T', "-1".toList, by decide, PlainWord.plain_of_all (by decide)⟩]

/-- `wordsOfMove` read from behind: the move is the same and the tool is reported as well. -/
theorem run_lineOf_perm_wordsOfMove :
    (wordsOfMove.map PlainWord.letter).Nodup ∧ wordsOfMove.reverse.Perm wordsOfMove ∧
      lineOf wordsOfMove.reverse = "T-1 E1.5e0 F X10 G1".toList ∧
      Pass.run ⟨.builtIn, .standard⟩ ([";TYPE:FILL".toList] ++ [lineOf wordsOfMove.reverse]) =
        Pass.run ⟨.builtIn, .standard⟩ ([";TYPE:FILL".toList] ++ [lineOf wordsOfMove]) ∧
      (∀ w ∈ wordsOfMove, GCode.value? w.letter "T-1 E1.5e0 F X10 G1".toList =
        if w.tail = [] then none else some w.tail) ∧
      GCode.value? 'Y' "T-1 E1.5e0 F X10 G1".toList = none := by
  have hdistinct : (wordsOfMove.map PlainWord.letter).Nodup := by decide
  have hperm : wordsOfMove.reverse.Perm wordsOfMove := List.reverse_perm wordsOfMove
  have hline : lineOf wordsOfMove.reverse = "T-1 E1.5e0 F X10 G1".toList := by decide
  obtain ⟨hrun, hvalue, hnone⟩ :=
    run_lineOf_perm ⟨.builtIn, .standard⟩ [";TYPE:FILL".toList] hdistinct hperm
  rw [hline] at hvalue hnone
  exact ⟨hdistinct, hperm, hline, hrun, hvalue, hnone 'Y' (by decide)⟩

end PrintPath
