import PrintPath.Proofs.Comments
import PrintPath.Proofs.Feeding
import PrintPath.Proofs.Words

/-!
# Blanks divide and mean nothing else

Slicers and editors differ in how they space a line.  They put tabs or no-break spaces between
words, more than one of them, blanks at either end, a carriage return behind it all.  Two lines
are the same up to blanks (`SameUpToBlanks`) if their codes have the same words and their
comments, trimmed, are the same text.  Whether there is a comment at all, and whether the line
starts with the tag of a path type, must be the same as well, since both are asked of the line
before it is trimmed.

`SameUpToBlanks.read_eq` says that such lines are read alike, so `run_eq_of_sameUpToBlanks` says
that no run can tell them apart.  For the code this was shown with the words.  The comment is
looked at in its trimmed form, but for the tag.  A path type that is tagged is trimmed on its
own, and the tag stands in front of the blanks that are lost there.  So it is the trimming that
needs some care: blanks at the front are lost from the comment or from the tag, but blanks at
the end from both (`trim_dropEndWhile`, `trim_append_of_not_blank`).

Two cases are met often.  A blank of the code may be any other blank, and blanks may follow a
line (`Line.read_append_blanks`), as they do when it comes from a file.
-/

namespace PrintPath

open GCode Text

/-! ## Trimming -/

namespace Text

/-- A text that consists of blanks. -/
def AllBlank (text : List Char) : Prop :=
  ∀ c ∈ text, isBlank c

theorem AllBlank.tail {c : Char} {text : List Char} (h : AllBlank (c :: text)) :
    AllBlank text :=
  fun d hd => h d (List.mem_cons_of_mem c hd)

/-- A text of blanks is trimmed to nothing. -/
theorem AllBlank.trimStart {blanks : List Char} (h : AllBlank blanks) : trimStart blanks = [] := by
  have happend : (blanks ++ []).dropWhile isBlank = [] := List.dropWhile_append_of_pos h
  rw [List.append_nil] at happend
  exact happend

/-- A run of `p`-characters at the end is dropped with those in front of it. -/
theorem dropEndWhile_append {p : Char → Bool} {tail : List Char} (h : ∀ c ∈ tail, p c)
    (text : List Char) : dropEndWhile p (text ++ tail) = dropEndWhile p text := by
  unfold dropEndWhile
  have hreverse : ∀ c ∈ tail.reverse, p c := fun c hc => h c (List.mem_reverse.mp hc)
  rw [List.reverse_append, List.dropWhile_append_of_pos hreverse]

/-- What is dropped at the end of a text are `p`-characters. -/
theorem exists_dropEndWhile_append (p : Char → Bool) (text : List Char) :
    ∃ tail, (∀ c ∈ tail, p c) ∧ text = dropEndWhile p text ++ tail := by
  refine ⟨(text.reverse.takeWhile p).reverse, ?_, ?_⟩
  · intro c hc
    exact List.mem_takeWhile_imp (List.mem_reverse.mp hc)
  · unfold dropEndWhile
    rw [← List.reverse_append, List.takeWhile_append_dropWhile, List.reverse_reverse]

/-- **Trimming does not see the blanks behind a text.** -/
theorem trim_append_blanks {blanks : List Char} (h : AllBlank blanks) (text : List Char) :
    trim (text ++ blanks) = trim text := by
  unfold trim
  by_cases hempty : (trimStart text).isEmpty
  · have hstart : trimStart (text ++ blanks) = trimStart blanks := by
      unfold trimStart at hempty ⊢
      rw [List.dropWhile_append, if_pos hempty]
    rw [hstart, h.trimStart, List.isEmpty_iff.mp hempty]
  · have hstart : trimStart (text ++ blanks) = trimStart text ++ blanks := by
      unfold trimStart at hempty ⊢
      rw [List.dropWhile_append, if_neg hempty]
    rw [hstart, dropEndWhile_append h]

/-- A text may lose the blanks at its end before it is trimmed. -/
theorem trim_dropEndWhile (text : List Char) : trim (dropEndWhile isBlank text) = trim text := by
  obtain ⟨blanks, hblanks, htext⟩ := exists_dropEndWhile_append isBlank text
  have h := trim_append_blanks hblanks (dropEndWhile isBlank text)
  rw [← htext] at h
  exact h.symm

/-- What is dropped at the end of a text is behind every text of other characters. -/
theorem append_dropEndWhile {p : Char → Bool} {lead : List Char} (h : ∀ c ∈ lead, ¬ p c)
    (text : List Char) : dropEndWhile p (lead ++ text) = lead ++ dropEndWhile p text := by
  induction lead with
  | nil => rfl
  | cons c lead ih =>
    have hc : p c = false := Bool.eq_false_iff.mpr (h c List.mem_cons_self)
    rw [List.cons_append, dropEndWhile_cons hc, ih fun d hd => h d (List.mem_cons_of_mem c hd)]
    rfl

/-- Behind a text without blanks another one is trimmed at its end only. -/
theorem trim_append_of_not_blank {lead : List Char} (hne : lead ≠ [])
    (h : ∀ c ∈ lead, ¬ isBlank c) (text : List Char) :
    trim (lead ++ text) = lead ++ dropEndWhile isBlank text := by
  have hstart : trimStart (lead ++ text) = lead ++ text := by
    obtain ⟨c, lead, rfl⟩ := List.exists_cons_of_ne_nil hne
    exact List.dropWhile_cons_of_neg (h c List.mem_cons_self)
  unfold trim
  rw [hstart, append_dropEndWhile h]

/-! ## Words and blanks -/

/-- A text of blanks has no words. -/
theorem AllBlank.words {blanks : List Char} (h : AllBlank blanks) : words blanks = [] := by
  induction blanks with
  | nil => rfl
  | cons c blanks ih =>
    rw [words_cons_blank (h c List.mem_cons_self)]
    exact ih h.tail

/-- The words of a text do not depend on the blanks behind it. -/
theorem words_append_blanks {blanks : List Char} (h : AllBlank blanks) (text : List Char) :
    words (text ++ blanks) = words text := by
  cases blanks with
  | nil => rw [List.append_nil]
  | cons c blanks =>
    rw [words_append_blank (h c List.mem_cons_self), h.tail.words, List.append_nil]

end Text

/-! ## Lines that are the same up to blanks -/

/-- The code of a line: what stands in front of its first semicolon. -/
def codePart (line : List Char) : List Char :=
  line.takeWhile fun c => c ≠ commentStart

/-- The comment of a line: what stands behind its first semicolon. -/
def commentPart (line : List Char) : List Char :=
  (line.dropWhile fun c => c ≠ commentStart).tail

/-- Two lines that differ in nothing but blanks that divide words or stand at the ends of a
comment. -/
structure SameUpToBlanks (line other : List Char) : Prop where
  /-- Both have a comment, or none has. -/
  hasComment : commentStart ∈ line ↔ commentStart ∈ other
  /-- Both start with the tag of a path type, or none does. -/
  tagged : typeTag <+: line ↔ typeTag <+: other
  /-- Their codes have the same words. -/
  words : words (codePart line) = words (codePart other)
  /-- Their comments are trimmed to the same text. -/
  comment : trim (commentPart line) = trim (commentPart other)

section

variable {code : List Char} (h : commentStart ∉ code) (comment : List Char)

include h

theorem codePart_of_notMem : codePart code = code := by
  refine List.takeWhile_eq_self_iff.mpr fun c hc => decide_eq_true ?_
  rintro rfl
  exact h hc

theorem codePart_append : codePart (code ++ comment) = code ++ codePart comment := by
  refine List.takeWhile_append_of_pos fun c hc => decide_eq_true ?_
  rintro rfl
  exact h hc

theorem commentPart_append : commentPart (code ++ comment) = commentPart comment := by
  refine congrArg List.tail (List.dropWhile_append_of_pos fun c hc => decide_eq_true ?_)
  rintro rfl
  exact h hc

end

/-! ### Semicolons, tags and blanks -/

/-- No blank starts a comment. -/
theorem ne_commentStart_of_isBlank {c : Char} (h : isBlank c) : c ≠ commentStart := by
  rintro rfl
  revert h
  decide

theorem not_typeTag_prefix_append {code : List Char} (hcode : commentStart ∉ code) {c : Char}
    (h : isBlank c) (rest : List Char) : ¬ typeTag <+: code ++ c :: rest := by
  cases code with
  | nil => exact not_typeTag_prefix (ne_commentStart_of_isBlank h) rest
  | cons d code =>
    exact not_typeTag_prefix (fun hd => hcode (hd ▸ List.mem_cons_self)) (code ++ c :: rest)

theorem commentStart_mem_append_blank {code : List Char} (hcode : commentStart ∉ code) {c : Char}
    (h : isBlank c) (rest : List Char) :
    commentStart ∈ code ++ c :: rest ↔ commentStart ∈ rest := by
  have hc := (ne_commentStart_of_isBlank h).symm
  rw [List.mem_append, List.mem_cons]
  exact ⟨fun hmem => (hmem.resolve_left hcode).resolve_left hc, fun hrest => Or.inr (Or.inr hrest)⟩

/-- A text of blanks has no semicolon. -/
theorem commentStart_notMem_blanks {blanks : List Char} (h : AllBlank blanks) :
    commentStart ∉ blanks :=
  fun hmem => ne_commentStart_of_isBlank (h commentStart hmem) rfl

theorem not_isBlank_of_mem_typeTag {c : Char} (h : c ∈ typeTag) : ¬ isBlank c := by
  have hall : typeTag.all (fun c => !isBlank c) = true := by decide
  have hc : (!isBlank c) = true := List.all_eq_true.mp hall c h
  exact Bool.eq_false_iff.mp ((Bool.not_eq_true' _).mp hc)

/-- With blanks behind it a line starts with the same tag. -/
theorem typeTag_prefix_append_blanks {blanks : List Char} (h : AllBlank blanks)
    (line : List Char) : typeTag <+: line ++ blanks ↔ typeTag <+: line := by
  refine ⟨fun htag => ?_, fun htag => htag.trans (List.prefix_append line blanks)⟩
  rcases List.prefix_or_prefix_of_prefix htag (List.prefix_append line blanks) with hline | hline
  · exact hline
  · -- the line is too short, and the rest of the tag would be blanks
    obtain ⟨rest, hrest⟩ := hline
    rw [← hrest] at htag
    have hblanks : rest <+: blanks := (List.prefix_append_right_inj line).mp htag
    have hempty : rest = [] := by
      refine List.eq_nil_iff_forall_not_mem.mpr fun c hc => ?_
      have htag : c ∈ typeTag := hrest ▸ List.mem_append_right line hc
      exact not_isBlank_of_mem_typeTag htag (h c (hblanks.subset hc))
    rw [hempty, List.append_nil] at hrest
    exact hrest ▸ List.prefix_rfl

/-! ### Reading -/

namespace SameUpToBlanks

variable {line other : List Char}

/-- A path type that is tagged is the same in both. -/
theorem taggedType? (h : SameUpToBlanks line other) :
    GCode.taggedType? line = GCode.taggedType? other := by
  by_cases htagged : typeTag <+: line
  · obtain ⟨tag, rfl⟩ := htagged
    obtain ⟨more, rfl⟩ := h.tagged.mp (List.prefix_append _ _)
    have hplain : ∀ c ∈ ['T', 'Y', 'P', 'E', ':'], ¬ isBlank c :=
      fun c hc => not_isBlank_of_mem_typeTag (List.mem_cons_of_mem commentStart hc)
    have hcomment := h.comment
    change trim (['T', 'Y', 'P', 'E', ':'] ++ tag) = trim (['T', 'Y', 'P', 'E', ':'] ++ more)
      at hcomment
    rw [trim_append_of_not_blank (List.cons_ne_nil _ _) hplain,
      trim_append_of_not_blank (List.cons_ne_nil _ _) hplain] at hcomment
    have htag := List.append_cancel_left hcomment
    rw [taggedType?_typeTag, taggedType?_typeTag, ← trim_dropEndWhile tag, htag,
      trim_dropEndWhile]
  · have hother : ¬ typeTag <+: other := fun hother => htagged (h.tagged.mpr hother)
    have hnone := taggedType?_of_not_prefix htagged
    rw [hnone, taggedType?_of_not_prefix hother]

/-- **Lines that are the same up to blanks are read alike.** -/
theorem read_eq (h : SameUpToBlanks line other) : Line.read line = Line.read other := by
  have htag := h.taggedType?
  have hwords := h.words
  have hcomment := h.comment
  rcases notMem_or_exists_comment line with hline | ⟨code, comment, hcode, rfl⟩
  · have hother : commentStart ∉ other := fun hmem => hline (h.hasComment.mpr hmem)
    rw [codePart_of_notMem hline, codePart_of_notMem hother] at hwords
    unfold Line.read
    rw [annotate_of_notMem hline, annotate_of_notMem hother]
    simp only [tool?_congr_words hwords, Command.read?_congr_words hwords]
  · have hmem : commentStart ∈ other :=
      h.hasComment.mp (List.mem_append_right _ List.mem_cons_self)
    obtain ⟨code', comment', rfl, hcode'⟩ := List.eq_append_cons_of_mem hmem
    rw [codePart_append hcode, codePart_append hcode'] at hwords
    rw [commentPart_append hcode, commentPart_append hcode'] at hcomment
    change Text.words (code ++ []) = Text.words (code' ++ []) at hwords
    change trim comment = trim comment' at hcomment
    rw [List.append_nil, List.append_nil] at hwords
    unfold Line.read
    rw [annotate_append hcode, annotate_append hcode', htag, hcomment]
    simp only [tool?_congr_words hwords, Command.read?_congr_words hwords]

/-! ### Blanks in a code and blanks behind a line -/

/-- **A blank in front of the first semicolon may be any blank.** -/
theorem replace_blank {code : List Char} (hcode : commentStart ∉ code) {c d : Char}
    (hc : isBlank c) (hd : isBlank d) (rest : List Char) :
    SameUpToBlanks (code ++ c :: rest) (code ++ d :: rest) where
  hasComment := by
    rw [commentStart_mem_append_blank hcode hc, commentStart_mem_append_blank hcode hd]
  tagged := iff_of_false (not_typeTag_prefix_append hcode hc rest)
    (not_typeTag_prefix_append hcode hd rest)
  words := by
    have hne : ∀ {e : Char}, isBlank e → codePart (e :: rest) = e :: codePart rest :=
      fun he => List.takeWhile_cons_of_pos (decide_eq_true (ne_commentStart_of_isBlank he))
    rw [codePart_append hcode, codePart_append hcode, hne hc, hne hd, words_append_blank hc,
      words_append_blank hd]
  comment := by
    have hne : ∀ {e : Char}, isBlank e → commentPart (e :: rest) = commentPart rest :=
      fun he => congrArg List.tail
        (List.dropWhile_cons_of_pos (decide_eq_true (ne_commentStart_of_isBlank he)))
    rw [commentPart_append hcode, commentPart_append hcode, hne hc, hne hd]

/-- **Blanks behind a line mean nothing.** -/
theorem append_blanks {blanks : List Char} (h : AllBlank blanks) (line : List Char) :
    SameUpToBlanks (line ++ blanks) line where
  hasComment := by
    rw [List.mem_append]
    exact or_iff_left (commentStart_notMem_blanks h)
  tagged := typeTag_prefix_append_blanks h line
  words := by
    rcases notMem_or_exists_comment line with hline | ⟨code, comment, hcode, rfl⟩
    · rw [codePart_append hline, codePart_of_notMem (commentStart_notMem_blanks h),
        codePart_of_notMem hline, words_append_blanks h]
    · rw [List.append_assoc, codePart_append hcode, codePart_append hcode]
      rfl
  comment := by
    rcases notMem_or_exists_comment line with hline | ⟨code, comment, hcode, rfl⟩
    · have hnone : ∀ {text : List Char}, commentStart ∉ text → commentPart text = [] := by
        intro text htext
        have happend := commentPart_append htext []
        rw [List.append_nil] at happend
        exact happend
      rw [commentPart_append hline, hnone hline, hnone (commentStart_notMem_blanks h)]
    · rw [List.append_assoc, commentPart_append hcode, commentPart_append hcode]
      exact trim_append_blanks h comment

end SameUpToBlanks

/-- What is read of a line does not depend on the blanks behind it. -/
theorem GCode.Line.read_append_blanks {blanks : List Char} (h : AllBlank blanks)
    (text : List Char) : Line.read (text ++ blanks) = Line.read text :=
  (SameUpToBlanks.append_blanks h text).read_eq

/-- **Blanks divide words and mean nothing else.**  Lines that are the same up to blanks mark a
layer alike and lead any run to the same state.  In particular a blank of the code may be any
other blank, and any blanks may follow a line. -/
theorem run_eq_of_sameUpToBlanks (setup : Setup) (front : List (List Char)) :
    (∀ line other : List Char, SameUpToBlanks line other →
      (Line.read line).layerBoundary = (Line.read other).layerBoundary ∧
        Pass.run setup (front ++ [line]) = Pass.run setup (front ++ [other])) ∧
      (∀ (code rest : List Char) (c d : Char), commentStart ∉ code → isBlank c → isBlank d →
        Pass.run setup (front ++ [code ++ c :: rest]) =
          Pass.run setup (front ++ [code ++ d :: rest])) ∧
      ∀ line blanks : List Char, AllBlank blanks →
        Pass.run setup (front ++ [line ++ blanks]) = Pass.run setup (front ++ [line]) := by
  have hrun : ∀ {line other : List Char}, SameUpToBlanks line other →
      Pass.run setup (front ++ [line]) = Pass.run setup (front ++ [other]) := by
    intro line other h
    rw [Pass.run_concat, Pass.run_concat, h.read_eq]
  refine ⟨?_, ?_, ?_⟩
  · intro line other h
    exact ⟨congrArg Line.layerBoundary h.read_eq, hrun h⟩
  · intro code rest c d hcode hc hd
    exact hrun (.replace_blank hcode hc hd rest)
  · intro line blanks hblanks
    exact hrun (.append_blanks hblanks line)

/-- A move in front of a layer marker, spaced by tabs and a no-break space. -/
def spacedMove : List Char := "\tT1\u00a0 G1\tX5 E1;\tLAYER:2 \r".toList

/-- The move of `spacedMove` as a slicer writes it. -/
def plainMove : List Char := "T1 G1 X5 E1 ;LAYER:2".toList

/-- `spacedMove` is `plainMove` up to blanks, and marks a layer as well.  A tab may be any other
blank, and a carriage return may follow. -/
theorem run_eq_of_sameUpToBlanks_spacedMove :
    SameUpToBlanks spacedMove plainMove ∧
      commentStart ∉ "G1".toList ∧ isBlank '\t' ∧ isBlank '\u3000' ∧ AllBlank ['\r'] ∧
      (Line.read spacedMove).layerBoundary ∧
      Pass.run ⟨.builtIn, .standard⟩ ([";TYPE:FILL".toList] ++ [spacedMove]) =
        Pass.run ⟨.builtIn, .standard⟩ ([";TYPE:FILL".toList] ++ [plainMove]) ∧
      Pass.run ⟨.builtIn, .standard⟩ ([";TYPE:FILL".toList] ++ ["G1\tX5".toList]) =
        Pass.run ⟨.builtIn, .standard⟩ ([";TYPE:FILL".toList] ++ ["G1\u3000X5".toList]) ∧
      Pass.run ⟨.builtIn, .standard⟩ ([";TYPE:FILL".toList] ++ [plainMove ++ ['\r']]) =
        Pass.run ⟨.builtIn, .standard⟩ ([";TYPE:FILL".toList] ++ [plainMove]) := by
  have hsame : SameUpToBlanks spacedMove plainMove :=
    ⟨by decide, by decide, by decide, by decide⟩
  have hcode : commentStart ∉ "G1".toList := by decide
  have hreturn : AllBlank ['\r'] := by
    intro c hc
    rw [List.mem_singleton.mp hc]
    decide
  obtain ⟨hlines, hblank, hbehind⟩ :=
    run_eq_of_sameUpToBlanks ⟨.builtIn, .standard⟩ [";TYPE:FILL".toList]
  obtain ⟨hboundary, hrun⟩ := hlines spacedMove plainMove hsame
  refine ⟨hsame, hcode, by decide, by decide, hreturn, hboundary.trans (by decide), hrun, ?_, ?_⟩
  · exact hblank "G1".toList "X5".toList '\t' '\u3000' hcode (by decide) (by decide)
  · exact hbehind plainMove ['\r'] hreturn

end PrintPath
