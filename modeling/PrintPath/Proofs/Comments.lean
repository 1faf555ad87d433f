import Mathlib.Data.List.Basic
import Mathlib.Tactic.SplitIfs
import PrintPath.GCode.Line

/-!
# What a comment can announce

A line has one of two forms.  Either there is no semicolon in it, and it is all code; or it is
a code without a semicolon, a semicolon and a comment.  `annotate_of_notMem` and
`annotate_append` say what `annotate` makes of the two, so that nobody has to divide a line
again.

Whatever a line announces it announces in a comment (`hasComment_of_pathType`).  The two
dialects cannot be mixed up: a comment behind some code is too late for the tag
(`taggedType?_append`), and a comment that is a tag is no bare word and marks no layer
(`keywordType?_tagged`, `layerMark_tagged`).  So a line gives a path type in one of two ways,
which `pathType_annotate_iff` lists.
-/

namespace PrintPath

namespace Text

/-- What is dropped at the end of a text is behind every character that is kept. -/
theorem dropEndWhile_cons {p : Char → Bool} {c : Char} (h : p c = false) (text : List Char) :
    dropEndWhile p (c :: text) = c :: dropEndWhile p text := by
  unfold dropEndWhile
  have hlast : [c].dropWhile p = [c] := by
    rw [List.dropWhile_cons, h]
    rfl
  rw [List.reverse_cons, List.dropWhile_append]
  split
  · next hempty => rw [List.isEmpty_iff.mp hempty, hlast]; rfl
  · rw [List.reverse_append]; rfl

/-- A character that is no blank stays in front when a text is trimmed. -/
theorem trim_cons {c : Char} (h : isBlank c = false) (text : List Char) :
    trim (c :: text) = c :: dropEndWhile isBlank text := by
  have hstart : trimStart (c :: text) = c :: text := by
    unfold trimStart
    rw [List.dropWhile_cons, h]
    rfl
  unfold trim
  rw [hstart, dropEndWhile_cons h]

end Text

namespace GCode

open Text

/-- The bare words that name a path type. -/
def bareWords : List (List Char) :=
  [['f', 'i', 'l', 'l'], ['p', 'e', 'r', 'i', 'm', 'e', 't', 'e', 'r'], ['s', 'k', 'i', 'r', 't']]

/-! ## Tags and bare words -/

/-- A tag stands at the very start of a line or not at all. -/
theorem taggedType?_of_not_prefix {line : List Char} (h : ¬ typeTag <+: line) :
    taggedType? line = none := by
  unfold taggedType?
  cases hprefix : typeTag.isPrefixOf? line with
  | none => rfl
  | some tag => exact absurd ⟨tag, List.isPrefixOf?_eq_some_iff_append_eq.mp hprefix⟩ h

/-- A line that does not start with a semicolon has no tag. -/
theorem not_typeTag_prefix {c : Char} (h : c ≠ commentStart) (rest : List Char) :
    ¬ typeTag <+: c :: rest := by
  rintro ⟨tag, htag⟩
  exact h (List.cons.inj htag).1.symm

theorem taggedType?_cons {c : Char} (h : c ≠ commentStart) (rest : List Char) :
    taggedType? (c :: rest) = none := by
  have htag := not_typeTag_prefix h rest
  exact taggedType?_of_not_prefix htag

/-- Behind some code it is too late for a tag. -/
theorem taggedType?_append {code : List Char} (hne : code ≠ []) (h : commentStart ∉ code)
    (rest : List Char) : taggedType? (code ++ rest) = none := by
  cases code with
  | nil => exact absurd rfl hne
  | cons c code => exact taggedType?_cons (fun hc => h (hc ▸ List.mem_cons_self)) (code ++ rest)

theorem taggedType?_of_notMem {line : List Char} (h : commentStart ∉ line) :
    taggedType? line = none := by
  cases line with
  | nil => rfl
  | cons c line => exact taggedType?_cons (fun hc => h (hc ▸ List.mem_cons_self)) line

/-- A tag is read without the blanks around it. -/
theorem taggedType?_typeTag (tag : List Char) :
    taggedType? (typeTag ++ tag) = some (.ofTag (String.ofList (trim tag))) := rfl

/-- A tag names a path type other than unclassified motion if it is any but the one of that. -/
theorem taggedType?_ne_custom_iff (line : List Char) :
    (∃ pathType ∈ taggedType? line, pathType ≠ .custom) ↔
      ∃ tag, line = typeTag ++ tag ∧ String.ofList (trim tag) ≠ PathType.custom.tag := by
  constructor
  · rintro ⟨pathType, htype, hne⟩
    obtain ⟨tag, htag, rfl⟩ := Option.map_eq_some_iff.mp htype
    refine ⟨tag, (List.isPrefixOf?_eq_some_iff_append_eq.mp htag).symm, fun hcustom => hne ?_⟩
    rw [hcustom]
    rfl
  · rintro ⟨tag, rfl, hne⟩
    refine ⟨_, taggedType?_typeTag tag, fun hcustom => hne ?_⟩
    rw [← hcustom, PathType.tag_ofTag]

/-- A comment that is a tag. -/
theorem trim_tagged {comment : List Char} (h : typeTag <+: commentStart :: comment) :
    ∃ rest, trim comment = 'T' :: rest := by
  obtain ⟨tag, htag⟩ := h
  rw [← (List.cons.inj htag).2]
  exact ⟨_, trim_cons (by decide) _⟩

/-- A tag is no bare word. -/
theorem keywordType?_tagged {comment : List Char} (h : typeTag <+: commentStart :: comment) :
    keywordType? (trim comment) = none := by
  obtain ⟨rest, hrest⟩ := trim_tagged h
  rw [hrest]
  rfl

/-- A tag marks no layer. -/
theorem layerMark_tagged {comment : List Char} (h : typeTag <+: commentStart :: comment) :
    layerMark.isPrefixOf (trim comment) = false := by
  obtain ⟨rest, hrest⟩ := trim_tagged h
  rw [hrest]
  rfl

/-- A comment names a path type if it is one of the bare words, and never unclassified
motion. -/
theorem keywordType?_cases (comment : List Char) :
    comment ∈ bareWords ∧ (∃ pathType ≠ .custom, keywordType? comment = some pathType) ∨
      comment ∉ bareWords ∧ keywordType? comment = none := by
  unfold keywordType? bareWords
  simp only [List.mem_cons, List.not_mem_nil, or_false]
  split_ifs with hfill hperimeter hskirt
  · exact Or.inl ⟨Or.inl hfill, _, PathType.noConfusion, rfl⟩
  · exact Or.inl ⟨Or.inr (Or.inl hperimeter), _, PathType.noConfusion, rfl⟩
  · exact Or.inl ⟨Or.inr (Or.inr hskirt), _, PathType.noConfusion, rfl⟩
  · exact Or.inr ⟨by simp only [hfill, hperimeter, hskirt, or_self, not_false_eq_true], rfl⟩

/-! ## The two forms of a line -/

/-- A line without a semicolon is all code. -/
theorem annotate_of_notMem {line : List Char} (h : commentStart ∉ line) :
    annotate line =
      { code := line, pathType := none, hasComment := false, layerBoundary := false } := by
  unfold annotate
  rw [splitComment_of_not_mem h, taggedType?_of_notMem h]

/-- The first semicolon of a line starts its comment. -/
theorem annotate_append {code : List Char} (h : commentStart ∉ code) (comment : List Char) :
    annotate (code ++ commentStart :: comment) =
      { code
        pathType :=
          (keywordType? (trim comment)).or (taggedType? (code ++ commentStart :: comment))
        hasComment := true
        layerBoundary := layerMark.isPrefixOf (trim comment) } := by
  unfold annotate
  rw [splitComment_append h]

/-- **A line is all code, or code and a comment.** -/
theorem notMem_or_exists_comment (line : List Char) :
    commentStart ∉ line ∨
      ∃ code comment, commentStart ∉ code ∧ line = code ++ commentStart :: comment := by
  by_cases h : commentStart ∈ line
  · obtain ⟨code, comment, hline, hcode⟩ := List.eq_append_cons_of_mem h
    exact Or.inr ⟨code, comment, hcode, hline⟩
  · exact Or.inl h

/-- **A path type is announced in a comment.** -/
theorem hasComment_of_pathType {line : List Char} {pathType : PathType}
    (h : pathType ∈ (annotate line).pathType) : (annotate line).hasComment := by
  rcases notMem_or_exists_comment line with hline | ⟨code, comment, hcode, rfl⟩
  · rw [annotate_of_notMem hline] at h
    exact absurd h (Option.not_mem_none pathType)
  · rw [annotate_append hcode]

/-- The first semicolon divides a line in one way only. -/
theorem comment_unique {code comment other more : List Char} (hcode : commentStart ∉ code)
    (hother : commentStart ∉ other)
    (h : code ++ commentStart :: comment = other ++ commentStart :: more) : comment = more := by
  have hsplit := splitComment_append hcode comment
  rw [h, splitComment_append hother more] at hsplit
  exact (Option.some.inj (Prod.mk.inj hsplit).2).symm

/-- **A line gives a path type other than unclassified motion in one of two ways**: by a tag
at its start, or by a comment that is a bare word. -/
theorem pathType_annotate_iff (line : List Char) :
    (∃ pathType ∈ (annotate line).pathType, pathType ≠ .custom) ↔
      (∃ tag, line = typeTag ++ tag ∧ String.ofList (trim tag) ≠ PathType.custom.tag) ∨
        ∃ code comment, commentStart ∉ code ∧ line = code ++ commentStart :: comment ∧
          trim comment ∈ bareWords := by
  rw [← taggedType?_ne_custom_iff]
  rcases notMem_or_exists_comment line with hline | ⟨code, comment, hcode, rfl⟩
  · rw [annotate_of_notMem hline, taggedType?_of_notMem hline]
    refine ⟨Or.inl, fun h => h.resolve_right ?_⟩
    rintro ⟨code, comment, -, rfl, -⟩
    exact hline (List.mem_append_right _ List.mem_cons_self)
  · rw [annotate_append hcode]
    obtain ⟨hword, pathType, hne, hkeyword⟩ | ⟨hword, hkeyword⟩ :=
      keywordType?_cases (trim comment)
    · rw [hkeyword]
      exact ⟨fun _ => Or.inr ⟨code, comment, hcode, rfl, hword⟩, fun _ => ⟨pathType, rfl, hne⟩⟩
    · rw [hkeyword]
      refine ⟨Or.inl, fun h => h.resolve_right ?_⟩
      rintro ⟨other, more, hother, hline, hmore⟩
      exact hword (comment_unique hcode hother hline ▸ hmore)

end GCode
end PrintPath
