import Mathlib.Data.Nat.Digits.Defs
import PrintPath.Proofs.Words

/-!
# The value of a letter is its first one

`scan_eq_some_iff` tells what scanning finds in the terms in which it looks: the run of
characters behind a place where a word starts.  Here the answer is told in the terms of the
line alone.  A value of a letter starts where the letter has a character right behind it that is
no blank (`ValueStarts`), and the first value is what stands from the first such place up to the
next blank (`FirstValue`).

The numbers of the codes are told in the same way.  `Spells` says what a whole number looks
like, and what it stands for is the number that its digits have in the base ten (`decimal`).

`letters_firstValue` puts the two together: a capital letter has a value where one starts, the
value is the first one, and it is only ever the first one that is read as a number.  No other
character has a value.
-/

namespace PrintPath
namespace Number

/-! ## Whole numbers -/

/-- The number with the given digits, the last of which counts the ones. -/
def decimal (digits : List Char) : Nat :=
  Nat.ofDigits 10 (digits.reverse.map fun c => c.toNat - '0'.toNat)

/-- Digits, and at least one of them. -/
def AreDigits (text : List Char) : Prop :=
  text ≠ [] ∧ ∀ c ∈ text, '0' ≤ c ∧ c ≤ '9'

/-- A text is a whole number: digits with at most one sign in front. -/
inductive Spells : List Char → Int → Prop
  | plain {digits : List Char} (h : AreDigits digits) : Spells digits (decimal digits)
  | plus {digits : List Char} (h : AreDigits digits) : Spells ('+' :: digits) (decimal digits)
  | minus {digits : List Char} (h : AreDigits digits) : Spells ('-' :: digits) (-decimal digits)

/-- Reading digits from the front gives the number that they have in the base ten. -/
theorem digitsValue_eq_decimal (digits : List Char) : digitsValue digits = decimal digits := by
  unfold digitsValue decimal
  rw [Nat.ofDigits_eq_foldr, List.foldr_map, List.foldr_reverse]
  congr 1
  funext value digit
  exact Nat.add_comm _ _

theorem isDigit_iff {c : Char} : c.isDigit ↔ '0' ≤ c ∧ c ≤ '9' := by
  unfold Char.isDigit
  rw [Bool.and_eq_true, decide_eq_true_eq, decide_eq_true_eq, Char.le_def, Char.le_def]

theorem natural?_eq_some_iff {text : List Char} {n : Nat} :
    natural? text = some n ↔ AreDigits text ∧ n = decimal text := by
  have hdigits : (text ≠ [] ∧ text.all Char.isDigit) ↔ AreDigits text :=
    and_congr_right fun _ =>
      List.all_eq_true.trans (forall_congr' fun _ => imp_congr_right fun _ => isDigit_iff)
  unfold natural?
  rw [digitsValue_eq_decimal, Option.ite_none_right_eq_some, hdigits]
  exact and_congr_right fun _ => Option.some_inj.trans eq_comm

/-- Behind a sign stand digits and nothing else. -/
theorem map_natural?_eq_some_iff {text : List Char} {f : Nat → Int} {n : Int} :
    (natural? text).map f = some n ↔ AreDigits text ∧ n = f (decimal text) := by
  rw [Option.map_eq_some_iff]
  constructor
  · rintro ⟨m, hm, rfl⟩
    obtain ⟨hdigits, rfl⟩ := natural?_eq_some_iff.mp hm
    exact ⟨hdigits, rfl⟩
  · rintro ⟨hdigits, rfl⟩
    exact ⟨decimal text, natural?_eq_some_iff.mpr ⟨hdigits, rfl⟩, rfl⟩

/-- Digits have no sign in front. -/
theorem AreDigits.integer?_eq {digits : List Char} (h : AreDigits digits) :
    integer? digits = (natural? digits).map Int.ofNat := by
  unfold integer?
  split
  · exact absurd (h.2 '+' List.mem_cons_self).1 (by decide)
  · exact absurd (h.2 '-' List.mem_cons_self).1 (by decide)
  · rfl

/-- **What is read as a whole number spells one.** -/
theorem integer?_eq_some_iff {text : List Char} {n : Int} :
    integer? text = some n ↔ Spells text n := by
  constructor
  · intro h
    unfold integer? at h
    split at h
    · obtain ⟨hdigits, rfl⟩ := map_natural?_eq_some_iff.mp h
      exact Spells.plus hdigits
    · obtain ⟨hdigits, rfl⟩ := map_natural?_eq_some_iff.mp h
      exact Spells.minus hdigits
    · obtain ⟨hdigits, rfl⟩ := map_natural?_eq_some_iff.mp h
      exact Spells.plain hdigits
  · intro h
    cases h with
    | plain hdigits =>
      rw [hdigits.integer?_eq]
      exact map_natural?_eq_some_iff.mpr ⟨hdigits, rfl⟩
    | plus hdigits => exact map_natural?_eq_some_iff.mpr ⟨hdigits, rfl⟩
    | minus hdigits => exact map_natural?_eq_some_iff.mpr ⟨hdigits, rfl⟩

theorem int64?_eq_some_iff {text : List Char} {n : Int} :
    int64? text = some n ↔ Spells text n ∧ FitsInt64 n := by
  unfold int64?
  rw [Option.filter_eq_some_iff, integer?_eq_some_iff, decide_eq_true_eq]

end Number

namespace GCode

open Text

/-! ## Where a value starts -/

/-- Behind `before`, a line has the letter, and right behind that a character that is no
blank. -/
def ValueStarts (letter : Char) (line before : List Char) : Prop :=
  ∃ c behind, line = before ++ letter :: c :: behind ∧ ¬ isBlank c

/-- A line divides at the first place where a value of the letter starts: the value goes from
there up to the next blank or to the end. -/
structure Divides (letter : Char) (line before value behind : List Char) : Prop where
  /-- The letter stands in front of the value, and nothing in between. -/
  line_eq : line = before ++ letter :: (value ++ behind)
  /-- There is something to read. -/
  ne_nil : value ≠ []
  /-- A value has no blank in it. -/
  not_blank : ∀ c ∈ value, ¬ isBlank c
  /-- What is behind the value, if anything, begins with a blank. -/
  blank_behind : behind = [] ∨ ∃ c rest, behind = c :: rest ∧ isBlank c
  /-- No value starts at an earlier place. -/
  leftmost : ∀ other, ValueStarts letter line other → before.length ≤ other.length

/-- The first value of a letter in a line. -/
def FirstValue (letter : Char) (line value : List Char) : Prop :=
  ∃ before behind, Divides letter line before value behind

variable {letter : Char} {line value : List Char}

theorem startsWord_iff {text : List Char} :
    startsWord text ↔ ∃ c rest, text = c :: rest ∧ ¬ isBlank c := by
  cases text with
  | nil => simp [startsWord]
  | cons c rest => simp [startsWord]

/-- A value starts behind `before` where, after it, the letter stands with a value. -/
theorem valueStarts_append_iff {before text : List Char} :
    ValueStarts letter (before ++ text) before ↔ ValuedAt letter text := by
  constructor
  · rintro ⟨c, behind, heq, hc⟩
    exact ⟨c :: behind, List.append_cancel_left heq, startsWord_iff.mpr ⟨c, behind, rfl, hc⟩⟩
  · rintro ⟨rest, rfl, hrest⟩
    obtain ⟨c, behind, rfl, hc⟩ := startsWord_iff.mp hrest
    exact ⟨c, behind, rfl, hc⟩

theorem not_isBlank_of_mem_firstRun (text : List Char) : ∀ c ∈ firstRun text, ¬ isBlank c := by
  intro c hc
  have hrun : (!isBlank c) = true := List.mem_takeWhile_imp (p := fun c => !isBlank c) hc
  exact Bool.eq_false_iff.mp ((Bool.not_eq_true' _).mp hrun)

/-- The first run of a text ends where the text does or in front of a blank. -/
theorem exists_eq_firstRun_append (text : List Char) :
    ∃ behind, text = firstRun text ++ behind ∧
      (behind = [] ∨ ∃ c rest, behind = c :: rest ∧ isBlank c) := by
  refine ⟨text.dropWhile fun c => !isBlank c, List.takeWhile_append_dropWhile.symm, ?_⟩
  have hhead := List.head?_dropWhile_not (fun c => !isBlank c) text
  cases hbehind : text.dropWhile fun c => !isBlank c with
  | nil => exact Or.inl rfl
  | cons c rest =>
    rw [hbehind] at hhead
    exact Or.inr ⟨c, rest, rfl, (Bool.not_eq_false' _).mp hhead⟩

/-- A text without a blank is the first run of a line that it begins, if it ends there or a
blank is behind it. -/
theorem firstRun_append {behind : List Char} (h : ∀ c ∈ value, ¬ isBlank c)
    (hbehind : behind = [] ∨ ∃ c rest, behind = c :: rest ∧ isBlank c) :
    firstRun (value ++ behind) = value := by
  have hvalue : ∀ c ∈ value, (!isBlank c) = true := fun c hc =>
    (Bool.not_eq_true' _).mpr (Bool.eq_false_iff.mpr (h c hc))
  have hnil : behind.takeWhile (fun c => !isBlank c) = [] := by
    obtain rfl | ⟨c, rest, rfl, hc⟩ := hbehind
    · rfl
    · rw [List.takeWhile_cons, hc]
      rfl
  unfold firstRun
  rw [List.takeWhile_append_of_pos hvalue, hnil, List.append_nil]

/-! ## Scanning finds the first value -/

/-- What scanning finds is the first value. -/
theorem firstValue_of_scan (h : scan letter line = some value) : FirstValue letter line value := by
  obtain ⟨before, rest, rfl, hrest, rfl, hno⟩ := scan_eq_some_iff.mp h
  obtain ⟨behind, heq, hbehind⟩ := exists_eq_firstRun_append rest
  have hnot := not_isBlank_of_mem_firstRun rest
  refine ⟨before, behind, ?_, ?_, hnot, hbehind, ?_⟩
  · rw [← heq]
  · exact (startsWord_iff_ne_nil hnot).mp ((startsWord_firstRun rest).trans hrest)
  · intro other hother
    -- a place in front of the found one would be one that the scan has passed by
    by_contra hlt
    have hprefix : other <+: before ++ letter :: rest := by
      obtain ⟨c, back, hline, -⟩ := hother
      exact ⟨letter :: c :: back, hline.symm⟩
    obtain ⟨back, rfl⟩ :=
      List.prefix_of_prefix_length_le hprefix (List.prefix_append _ _) (Nat.le_of_not_le hlt)
    have hback : back ≠ [] := by
      rintro rfl
      rw [List.append_nil] at hlt
      exact hlt le_rfl
    rw [List.append_assoc] at hother
    exact hno other back rfl hback (valueStarts_append_iff.mp hother)

/-- The first value is found by scanning. -/
theorem scan_of_firstValue (h : FirstValue letter line value) : scan letter line = some value := by
  obtain ⟨before, behind, hdiv⟩ := h
  obtain ⟨rfl, hne, hnot, hbehind, hleft⟩ := hdiv
  refine scan_eq_some_iff.mpr ⟨before, value ++ behind, rfl, ?_, ?_, ?_⟩
  · obtain ⟨c, rest, rfl⟩ := List.exists_cons_of_ne_nil hne
    exact startsWord_iff.mpr ⟨c, rest ++ behind, rfl, hnot c List.mem_cons_self⟩
  · exact (firstRun_append hnot hbehind).symm
  · rintro front back rfl hback hvalued
    have hstarts : ValueStarts letter ((front ++ back) ++ letter :: (value ++ behind)) front := by
      rw [List.append_assoc]
      exact valueStarts_append_iff.mpr hvalued
    have hle := hleft front hstarts
    rw [List.length_append] at hle
    have hpos := List.length_pos_iff.mpr hback
    omega

theorem scan_eq_some_iff_firstValue :
    scan letter line = some value ↔ FirstValue letter line value :=
  ⟨firstValue_of_scan, scan_of_firstValue⟩

/-- Where a value starts in a line, scanning finds one. -/
theorem isSome_scan_of_valueStarts {before : List Char} (h : ValueStarts letter line before) :
    (scan letter line).isSome := by
  obtain ⟨c, behind, rfl, hc⟩ := h
  have hvalued : startsWord (c :: behind) := startsWord_iff.mpr ⟨c, behind, rfl, hc⟩
  induction before with
  | nil =>
    rw [List.nil_append, scan_cons_valued hvalued]
    rfl
  | cons d before ih =>
    by_cases hd : ValuedAt letter (d :: (before ++ letter :: c :: behind))
    · obtain ⟨rest, heq, hrest⟩ := hd
      rw [List.cons_append, heq, scan_cons_valued hrest]
      rfl
    · rw [List.cons_append, scan_cons_of_not hd]
      exact ih

/-- A letter has a first value in the lines in which a value of it starts somewhere. -/
theorem exists_firstValue_iff :
    (∃ value, FirstValue letter line value) ↔ ∃ before, ValueStarts letter line before := by
  constructor
  · rintro ⟨value, before, behind, hdiv⟩
    obtain ⟨c, rest, rfl⟩ := List.exists_cons_of_ne_nil hdiv.ne_nil
    exact ⟨before, c, rest ++ behind, hdiv.line_eq, hdiv.not_blank c List.mem_cons_self⟩
  · rintro ⟨before, hstarts⟩
    obtain ⟨value, hvalue⟩ := Option.isSome_iff_exists.mp (isSome_scan_of_valueStarts hstarts)
    exact ⟨value, firstValue_of_scan hvalue⟩

/-! ## What the letters say -/

theorem isLetter_iff : isLetter letter ↔ 'A' ≤ letter ∧ letter ≤ 'Z' := by
  unfold isLetter
  rw [Bool.and_eq_true, decide_eq_true_eq, decide_eq_true_eq]

theorem value?_eq_some_iff_firstValue :
    value? letter line = some value ↔
      ('A' ≤ letter ∧ letter ≤ 'Z') ∧ FirstValue letter line value := by
  unfold value?
  rw [Option.ite_none_right_eq_some, isLetter_iff, scan_eq_some_iff_firstValue]

/-- A letter says what the reader of its value makes of the first one, and of no other. -/
theorem bind_value?_eq_some_iff {α : Type} {read : List Char → Option α} {x : α} :
    (value? letter line).bind read = some x ↔
      ('A' ≤ letter ∧ letter ≤ 'Z') ∧
        ∃ value, FirstValue letter line value ∧ read value = some x := by
  rw [Option.bind_eq_some_iff]
  simp only [value?_eq_some_iff_firstValue, and_assoc, exists_and_left]

/-- **The value of a letter is the first one in the line, and only that one is ever read.**  A
capital letter has a value when somewhere in the line a character that is no blank stands right
behind it, the value is what stands behind the first such place up to the next blank, and it
gives the number of a code when it spells one in the signed 64-bit range.  No other character
has a value, and none gives a number. -/
theorem letters_firstValue (letter : Char) (line : List Char) :
    ((∃ value, value? letter line = some value) ↔
        ('A' ≤ letter ∧ letter ≤ 'Z') ∧ ∃ before, ValueStarts letter line before) ∧
      (∀ value, value? letter line = some value ↔
        ('A' ≤ letter ∧ letter ≤ 'Z') ∧ FirstValue letter line value) ∧
      (∀ n, integer? letter line = some n ↔
        ('A' ≤ letter ∧ letter ≤ 'Z') ∧
          ∃ value, FirstValue letter line value ∧ Number.Spells value n ∧ Number.FitsInt64 n) ∧
      (∀ x, number? letter line = some x ↔
        ('A' ≤ letter ∧ letter ≤ 'Z') ∧
          ∃ value, FirstValue letter line value ∧ Number.finite? value = some x) := by
  refine ⟨?_, fun value => value?_eq_some_iff_firstValue, fun n => ?_, fun x => ?_⟩
  · simp only [value?_eq_some_iff_firstValue, exists_and_left, exists_firstValue_iff]
  · unfold integer?
    simp only [bind_value?_eq_some_iff, Number.int64?_eq_some_iff]
  · exact bind_value?_eq_some_iff

/-- The value of `G` is all the text glued to the first of them, so the code behind the second
one is never read. -/
example :
    value? 'G' "G1X5 G2".toList = some "1X5".toList ∧ integer? 'G' "G1X5 G2".toList = none := by
  decide

end GCode
end PrintPath
