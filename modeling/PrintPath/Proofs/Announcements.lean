import Mathlib.Data.List.Induction
import PrintPath.Proofs.Observation
import PrintPath.Proofs.Spacing

/-!
# A line makes one announcement at most

There are three ways to announce something on a line: a tag at its start, a bare word for a
comment, and a layer mark in front of a comment (`Announcement`).  Only the tag is looked for in
the line as it is; the other two are looked for in the comment, when it has been trimmed.  All
the same no line makes more than one of them (`Announcement.eq_of_madeBy`).  For a tag is a comment
as well, and begins with a `T` that trimming does not take away.  So the first character of the
trimmed comment tells which announcement a line can make (`Announcement.MadeBy.initial`).

Two things follow.

* What `annotate` says of a line is settled by a few laws (`Annotation.Describes`), none of
  which has to say what comes first.
* A pass may take up the announcements of a line in any order, and a different one on each line
  (`Pass.feedInOrder_eq_feed`, `Pass.runInOrder_eq_run`).

That there is a comment at all is no announcement.  A comment asks whether the start code is over,
which depends on the path type in force.  So that question has its place behind the tag and the
word, and only the layer mark may be taken up on either side of it (`Announcement.Order`).
-/

namespace PrintPath

open GCode Text

namespace GCode

/-! ## The parts of a line -/

/-- The code and the comment of a line make up the line. -/
theorem codePart_append_commentPart {line : List Char} (h : commentStart ∈ line) :
    codePart line ++ commentStart :: commentPart line = line := by
  obtain ⟨code, comment, rfl, hcode⟩ := List.eq_append_cons_of_mem h
  rw [codePart_append hcode, commentPart_append hcode]
  show code ++ [] ++ commentStart :: comment = code ++ commentStart :: comment
  rw [List.append_nil]

/-- There is no semicolon in the code of a line. -/
theorem commentStart_notMem_codePart (line : List Char) : commentStart ∉ codePart line := by
  intro h
  unfold codePart at h
  have hne := List.mem_takeWhile_imp h
  exact of_decide_eq_true hne rfl

/-- A line without a semicolon has an empty comment. -/
theorem commentPart_of_notMem {line : List Char} (h : commentStart ∉ line) :
    commentPart line = [] := by
  have happend := commentPart_append h []
  rw [List.append_nil] at happend
  exact happend

/-- What `annotate` says of a line, told of its parts. -/
theorem annotate_eq (line : List Char) :
    annotate line =
      { code := codePart line
        pathType := (keywordType? (trim (commentPart line))).or (taggedType? line)
        hasComment := decide (commentStart ∈ line)
        layerBoundary := layerMark.isPrefixOf (trim (commentPart line)) } := by
  rcases notMem_or_exists_comment line with hline | ⟨code, comment, hcode, rfl⟩
  · rw [annotate_of_notMem hline, codePart_of_notMem hline, commentPart_of_notMem hline,
      taggedType?_of_notMem hline, decide_eq_false hline]
    rfl
  · have hmem : commentStart ∈ code ++ commentStart :: comment :=
      List.mem_append_right code List.mem_cons_self
    rw [annotate_append hcode, codePart_append hcode, commentPart_append hcode,
      decide_eq_true hmem]
    show _ = Annotation.mk (code ++ []) _ _ _
    rw [List.append_nil]
    rfl

/-! ## Announcements -/

/-- The ways in which a line can announce something. -/
inductive Announcement where
  /-- The tag of a path type at the start of the line. -/
  | tag
  /-- A comment that is one of the bare words. -/
  | word
  /-- A comment that starts with the mark of a layer. -/
  | layer
  deriving DecidableEq

namespace Announcement

/-- All announcements, in the order in which a line is searched for them. -/
def all : List Announcement := [tag, word, layer]

/-- Whether a line makes an announcement. -/
def MadeBy (line : List Char) : Announcement → Prop
  | tag => typeTag <+: line
  | word => trim (commentPart line) ∈ bareWords
  | layer => layerMark <+: trim (commentPart line)

instance (line : List Char) : DecidablePred (MadeBy line)
  | tag => inferInstanceAs (Decidable (typeTag <+: line))
  | word => inferInstanceAs (Decidable (trim (commentPart line) ∈ bareWords))
  | layer => inferInstanceAs (Decidable (layerMark <+: trim (commentPart line)))

/-- The announcement that a comment can make if it begins with a character. -/
def ofInitial? : Char → Option Announcement
  | 'T' => some tag
  | 'f' | 'p' | 's' => some word
  | 'L' => some layer
  | _ => none

variable {line : List Char}

/-- **The first character of the comment tells which announcement a line makes.** -/
theorem MadeBy.initial {a : Announcement} (h : a.MadeBy line) :
    (trim (commentPart line)).head?.bind ofInitial? = some a := by
  cases a with
  | tag =>
    obtain ⟨tag, rfl⟩ := h
    have htag : typeTag <+: commentStart :: commentPart (typeTag ++ tag) :=
      List.prefix_append typeTag tag
    obtain ⟨rest, hrest⟩ := trim_tagged htag
    rw [hrest]
    rfl
  | word =>
    have hwords : ∀ comment ∈ bareWords, comment.head?.bind ofInitial? = some word := by decide
    exact hwords _ h
  | layer =>
    obtain ⟨rest, hrest⟩ := h
    rw [← hrest]
    rfl

/-- **A line makes one announcement at most.** -/
theorem eq_of_madeBy {a b : Announcement} (ha : a.MadeBy line) (hb : b.MadeBy line) : a = b :=
  Option.some.inj (ha.initial.symm.trans hb.initial)

/-- Whatever a line announces it announces in a comment. -/
theorem MadeBy.commentStart_mem {a : Announcement} (h : a.MadeBy line) : commentStart ∈ line := by
  by_contra hmem
  have hinitial := h.initial
  rw [commentPart_of_notMem hmem] at hinitial
  exact absurd hinitial.symm (Option.some_ne_none a)

/-- A line gives a path type by a tag if it has one. -/
theorem isSome_taggedType?_iff (line : List Char) :
    (taggedType? line).isSome ↔ tag.MadeBy line := by
  constructor
  · intro h
    by_contra hnot
    have hnone := taggedType?_of_not_prefix hnot
    rw [hnone] at h
    exact Bool.false_ne_true h
  · rintro ⟨tag, rfl⟩
    rfl

/-- A line gives a path type by a bare word if its comment is one. -/
theorem isSome_keywordType?_iff (line : List Char) :
    (keywordType? (trim (commentPart line))).isSome ↔ word.MadeBy line := by
  rcases keywordType?_cases (trim (commentPart line)) with ⟨hword, p, -, hp⟩ | ⟨hword, hnone⟩
  · rw [hp]
    exact iff_of_true rfl hword
  · rw [hnone]
    exact iff_of_false Bool.false_ne_true hword

end Announcement

/-! ## What an annotation has to say -/

/-- An annotation that says of a line what there is to say. -/
structure Annotation.Describes (a : Annotation) (line : List Char) : Prop where
  /-- There is a comment if there is a semicolon. -/
  hasComment_iff : a.hasComment ↔ commentStart ∈ line
  commentStart_notMem : commentStart ∉ a.code
  line_eq_code : a.hasComment = false → line = a.code
  line_eq_append : a.hasComment → ∃ comment, line = a.code ++ commentStart :: comment
  isSome_pathType_iff :
    a.pathType.isSome ↔ Announcement.tag.MadeBy line ∨ Announcement.word.MadeBy line
  layerBoundary_iff : a.layerBoundary ↔ Announcement.layer.MadeBy line
  hasComment_of_isSome : a.pathType.isSome → a.hasComment
  hasComment_of_layerBoundary : a.layerBoundary → a.hasComment
  /-- No line gives a path type and marks a layer. -/
  not_isSome_and_layerBoundary : ¬ (a.pathType.isSome ∧ a.layerBoundary)
  /-- A tag counts, whatever the comment of the line is. -/
  pathType_tagged :
    ∀ tag, line = typeTag ++ tag → a.pathType = some (.ofTag (String.ofList (trim tag)))
  /-- A bare word counts, whatever the line starts with. -/
  pathType_word : ∀ p ∈ keywordType? (trim (commentPart line)), a.pathType = some p

theorem hasComment_annotate_iff (line : List Char) :
    (annotate line).hasComment ↔ commentStart ∈ line := by
  rw [annotate_eq]
  exact decide_eq_true_iff

theorem isSome_pathType_annotate_iff (line : List Char) :
    (annotate line).pathType.isSome ↔
      Announcement.tag.MadeBy line ∨ Announcement.word.MadeBy line := by
  rw [annotate_eq, Option.isSome_or, Bool.or_eq_true, Announcement.isSome_keywordType?_iff,
    Announcement.isSome_taggedType?_iff, or_comm]

theorem layerBoundary_annotate_iff (line : List Char) :
    (annotate line).layerBoundary ↔ Announcement.layer.MadeBy line := by
  rw [annotate_eq]
  exact List.isPrefixOf_iff_prefix

/-- **What `annotate` says of a line is what there is to say.** -/
theorem describes_annotate (line : List Char) : (annotate line).Describes line where
  hasComment_iff := hasComment_annotate_iff line
  commentStart_notMem := by
    rw [annotate_eq]
    exact commentStart_notMem_codePart line
  line_eq_code h := by
    have hline : commentStart ∉ line := by
      rw [← hasComment_annotate_iff, h]
      exact Bool.false_ne_true
    rw [annotate_eq, codePart_of_notMem hline]
  line_eq_append h := by
    have hline := codePart_append_commentPart ((hasComment_annotate_iff line).mp h)
    rw [annotate_eq]
    exact ⟨commentPart line, hline.symm⟩
  isSome_pathType_iff := isSome_pathType_annotate_iff line
  layerBoundary_iff := layerBoundary_annotate_iff line
  hasComment_of_isSome h := by
    obtain ⟨pathType, htype⟩ := Option.isSome_iff_exists.mp h
    exact hasComment_of_pathType htype
  hasComment_of_layerBoundary h := by
    have hlayer := (layerBoundary_annotate_iff line).mp h
    exact (hasComment_annotate_iff line).mpr hlayer.commentStart_mem
  not_isSome_and_layerBoundary := by
    rintro ⟨hsome, hboundary⟩
    have hlayer := (layerBoundary_annotate_iff line).mp hboundary
    rcases (isSome_pathType_annotate_iff line).mp hsome with htag | hword
    · exact Announcement.noConfusion (Announcement.eq_of_madeBy htag hlayer)
    · exact Announcement.noConfusion (Announcement.eq_of_madeBy hword hlayer)
  pathType_tagged := by
    rintro tag rfl
    have htag : typeTag <+: commentStart :: commentPart (typeTag ++ tag) :=
      List.prefix_append typeTag tag
    rw [annotate_eq, keywordType?_tagged htag, Option.none_or, taggedType?_typeTag]
  pathType_word := by
    intro p hp
    rw [annotate_eq, Option.mem_def.mp hp, Option.some_or]

namespace Annotation.Describes

variable {a : Annotation} {line : List Char} (h : a.Describes line)

include h

theorem code_eq : a.code = codePart line := by
  cases hcomment : a.hasComment with
  | false =>
    have hline := h.line_eq_code hcomment
    rw [hline, codePart_of_notMem h.commentStart_notMem]
  | true =>
    obtain ⟨comment, hline⟩ := h.line_eq_append hcomment
    rw [hline, codePart_append h.commentStart_notMem]
    exact (List.append_nil a.code).symm

theorem pathType_eq :
    a.pathType = (keywordType? (trim (commentPart line))).or (taggedType? line) := by
  cases hword : keywordType? (trim (commentPart line)) with
  | some p => exact h.pathType_word p hword
  | none =>
    cases htag : taggedType? line with
    | some p =>
      obtain ⟨tag, hline, rfl⟩ := Option.map_eq_some_iff.mp htag
      exact h.pathType_tagged tag (List.isPrefixOf?_eq_some_iff_append_eq.mp hline).symm
    | none =>
      refine Option.not_isSome_iff_eq_none.mp fun hsome => ?_
      rcases h.isSome_pathType_iff.mp hsome with hmade | hmade
      · rw [← Announcement.isSome_taggedType?_iff, htag] at hmade
        exact Bool.false_ne_true hmade
      · rw [← Announcement.isSome_keywordType?_iff, hword] at hmade
        exact Bool.false_ne_true hmade

/-- **The laws leave nothing else to say of a line.** -/
theorem eq_annotate : a = annotate line := by
  have hcomment : a.hasComment = decide (commentStart ∈ line) :=
    Bool.eq_iff_iff.mpr (h.hasComment_iff.trans decide_eq_true_iff.symm)
  have hlayer : a.layerBoundary = layerMark.isPrefixOf (trim (commentPart line)) :=
    Bool.eq_iff_iff.mpr (h.layerBoundary_iff.trans List.isPrefixOf_iff_prefix.symm)
  rw [annotate_eq, ← h.code_eq, ← h.pathType_eq, ← hcomment, ← hlayer]

end Annotation.Describes

/-! ## Orders -/

/-- An order in which a pass may take up the announcements of a line.  Any order of them will do.
But at some place between them the pass asks whether the start code is over, and since this is a
question about the path type in force, nothing that may give one is left for afterwards. -/
structure Announcement.Order where
  /-- What is taken up before the question is asked. -/
  front : List Announcement
  /-- What is taken up behind it. -/
  back : List Announcement
  perm : (front ++ back).Perm Announcement.all
  eq_layer_of_mem_back : ∀ a ∈ back, a = layer

/-- The order of a pass, the other way round. -/
def Announcement.Order.backward : Order where
  front := [layer, word, tag]
  back := []
  perm := by decide
  eq_layer_of_mem_back := by decide

end GCode

namespace Pass

/-- Put a path type in force, if one is given. -/
def setPathType (pass : Pass) (given : Option PathType) : Pass :=
  { pass with machine := { pass.machine with pathType := given.getD pass.machine.pathType } }

/-- Complete the layer being filled. -/
def completeLayer (pass : Pass) : Pass :=
  let builder := pass.builder.closeLayer
  { pass with builder }.note (.layerClosed builder.closed.size pass.line)

/-- Take up one announcement of a line, if the line makes it. -/
def takeUp (text : List Char) (pass : Pass) : Announcement → Pass
  | .tag => pass.setPathType (taggedType? text)
  | .word => pass.setPathType (keywordType? (trim (commentPart text)))
  | .layer => if layerMark.isPrefixOf (trim (commentPart text)) then pass.completeLayer else pass

/-- Ask whether the start code is over, if the line has a comment. -/
def askPurpose (text : List Char) (pass : Pass) : Pass :=
  let hasPurpose := pass.machine.pathType != .custom
  let preambleEnded :=
    pass.machine.preambleEnded || (decide (commentStart ∈ text) && hasPurpose)
  { pass with machine := { pass.machine with preambleEnded } }

/-- Take a line, its announcements in an order of their own. -/
def feedInOrder (setup : Setup) (order : Announcement.Order) (pass : Pass)
    (text : List Char) : Pass :=
  let counted := { pass with line := pass.line + 1 }
  let asked := (order.front.foldl (takeUp text) counted).askPurpose text
  let announced := order.back.foldl (takeUp text) asked
  (announced.selectTool setup (Line.read text).tool).execute setup (Line.read text).command

/-- The pass over the lines of a program, each of which has an order of its own. -/
def runInOrder (setup : Setup) (program : List (Announcement.Order × List Char)) : Pass :=
  program.foldl (fun pass line => pass.feedInOrder setup line.1 line.2) start

variable (text : List Char) (pass : Pass)

/-! ### Taking up -/

/-- An announcement that a line does not make is nothing to take up. -/
theorem takeUp_of_not_madeBy {text : List Char} {a : Announcement} (h : ¬ a.MadeBy text) :
    pass.takeUp text a = pass := by
  cases a with
  | tag =>
    rw [← Announcement.isSome_taggedType?_iff, Option.not_isSome_iff_eq_none] at h
    exact congrArg pass.setPathType h
  | word =>
    rw [← Announcement.isSome_keywordType?_iff, Option.not_isSome_iff_eq_none] at h
    exact congrArg pass.setPathType h
  | layer => exact if_neg fun hmark => h (List.isPrefixOf_iff_prefix.mp hmark)

/-- **It does not matter which of two announcements is taken up first**, since the line does not
make both. -/
theorem takeUp_comm (a b : Announcement) :
    (pass.takeUp text a).takeUp text b = (pass.takeUp text b).takeUp text a := by
  by_cases ha : a.MadeBy text
  · by_cases hb : b.MadeBy text
    · rw [Announcement.eq_of_madeBy ha hb]
    · rw [takeUp_of_not_madeBy _ hb, takeUp_of_not_madeBy _ hb]
  · rw [takeUp_of_not_madeBy _ ha, takeUp_of_not_madeBy _ ha]

/-- The announcements of a line may be taken up in any order. -/
theorem foldl_takeUp_perm {order other : List Announcement} (h : order.Perm other) :
    order.foldl (takeUp text) pass = other.foldl (takeUp text) pass :=
  h.foldl_eq' (fun a _ b _ pass => pass.takeUp_comm text a b) pass

/-- A layer is marked on either side of the question whether the start code is over. -/
theorem takeUp_layer_askPurpose :
    (pass.askPurpose text).takeUp text .layer = (pass.takeUp text .layer).askPurpose text := by
  simp only [takeUp]
  split
  · rfl
  · rfl

theorem foldl_takeUp_askPurpose {back : List Announcement} (h : ∀ a ∈ back, a = .layer) :
    back.foldl (takeUp text) (pass.askPurpose text) =
      (back.foldl (takeUp text) pass).askPurpose text := by
  induction back generalizing pass with
  | nil => rfl
  | cons a back ih =>
    have hlayer : a = .layer := h a List.mem_cons_self
    rw [List.foldl_cons, List.foldl_cons, hlayer, takeUp_layer_askPurpose]
    exact ih _ fun b hb => h b (List.mem_cons_of_mem a hb)

/-- What a pass does with a comment is to take up all announcements and to ask its question. -/
theorem announce_read :
    pass.announce (Line.read text) =
      (Announcement.all.foldl (takeUp text) pass).askPurpose text := by
  unfold announce Line.read
  rw [annotate_eq]
  unfold Machine.announce
  simp only [Option.getD_or]
  show _ = (((pass.takeUp text .tag).takeUp text .word).takeUp text .layer).askPurpose text
  -- the layer is marked last, behind the question
  rw [← takeUp_layer_askPurpose]
  simp only [takeUp]
  split
  · rfl
  · rfl

/-- Asked in front of a tag, the question is about the path type that the tag replaces. -/
example :
    ((start.askPurpose ";TYPE:FILL".toList).takeUp ";TYPE:FILL".toList
      .tag).machine.preambleEnded = false ∧
    ((start.takeUp ";TYPE:FILL".toList .tag).askPurpose
      ";TYPE:FILL".toList).machine.preambleEnded = true := by
  decide

/-! ### Feeding and runs -/

variable (setup : Setup)

/-- **A line does the same in whatever order its announcements are taken up.** -/
theorem feedInOrder_eq_feed (order : Announcement.Order) :
    pass.feedInOrder setup order text = pass.feed setup (Line.read text) := by
  unfold feedInOrder feed
  simp only
  rw [foldl_takeUp_askPurpose _ _ order.eq_layer_of_mem_back, ← List.foldl_append,
    foldl_takeUp_perm _ _ order.perm, ← announce_read]

/-- **A program does the same in whatever order the announcements of each line are taken up.** -/
theorem runInOrder_eq_run (program : List (Announcement.Order × List Char)) :
    runInOrder setup program = run setup (program.map Prod.snd) := by
  induction program using List.reverseRecOn with
  | nil => rfl
  | append_singleton front line ih =>
    unfold runInOrder at ih ⊢
    rw [List.foldl_append, ih, List.map_append]
    show (run setup _).feedInOrder setup line.1 line.2 = run setup (_ ++ [line.2])
    rw [feedInOrder_eq_feed, run_concat]

end Pass

/-- **A line is divided at its first semicolon, and makes one announcement at most.**  What is
said of it obeys the laws of `Annotation.Describes` and is the only thing that does.  Since no two
announcements meet on a line, the order in which a pass takes them up makes no difference: not to
what one line does to a pass, whatever state that is in, nor to the toolpath of a program in which
each line has an order of its own. -/
theorem announcements_reading (setup : Setup) :
    (∀ line : List Char, (annotate line).Describes line ∧
      (∀ a : Annotation, a.Describes line → a = annotate line) ∧
      ∀ a b : Announcement, a.MadeBy line → b.MadeBy line → a = b) ∧
      (∀ (order : Announcement.Order) (pass : Pass) (text : List Char),
        pass.feedInOrder setup order text = pass.feed setup (Line.read text)) ∧
      ∀ program : List (Announcement.Order × String),
        (readLines setup .silent () (program.map Prod.snd)).outcome =
          .completed
            (Pass.runInOrder setup (program.map fun line => (line.1, line.2.toList))).finish := by
  refine ⟨fun line => ⟨describes_annotate line, ?_, ?_⟩, ?_, ?_⟩
  · exact fun a h => h.eq_annotate
  · exact fun a b => Announcement.eq_of_madeBy
  · exact fun order pass text => pass.feedInOrder_eq_feed text setup order
  · intro program
    rw [outcome_readLines_silent, Pass.runInOrder_eq_run, List.map_map, List.map_map]
    rfl

/-- A tag that goes on like a layer mark, a bare word behind a move, and a layer mark with a tag
behind it. -/
def mixedAnnouncements : List String :=
  [";TYPE:SKIN;LAYER:3", "G1 X5 E1 ; perimeter", "G0 Z2 ;LAYER:1;TYPE:FILL"]

/-- The three announcements of `mixedAnnouncements`, taken up backwards. -/
theorem announcements_reading_mixedAnnouncements :
    (⟨[], some (.other "SKIN;LAYER:3"), true, false⟩ : Annotation).Describes
        ";TYPE:SKIN;LAYER:3".toList ∧
      Announcement.layer.MadeBy "G0 Z2 ;LAYER:1;TYPE:FILL".toList ∧
      ¬ Announcement.tag.MadeBy "G0 Z2 ;LAYER:1;TYPE:FILL".toList ∧
      (readLines ⟨.builtIn, .standard⟩ .silent () mixedAnnouncements).outcome =
        .completed (Pass.runInOrder ⟨.builtIn, .standard⟩
          (mixedAnnouncements.map fun line => (.backward, line.toList))).finish := by
  obtain ⟨hline, -, hprogram⟩ := announcements_reading ⟨.builtIn, .standard⟩
  obtain ⟨hdescribes, -, -⟩ := hline ";TYPE:SKIN;LAYER:3".toList
  obtain ⟨-, -, hone⟩ := hline "G0 Z2 ;LAYER:1;TYPE:FILL".toList
  have htagged : annotate ";TYPE:SKIN;LAYER:3".toList =
      ⟨[], some (.other "SKIN;LAYER:3"), true, false⟩ := by
    decide
  have hlayer : Announcement.layer.MadeBy "G0 Z2 ;LAYER:1;TYPE:FILL".toList := by decide
  refine ⟨htagged ▸ hdescribes, hlayer, fun htag => ?_, ?_⟩
  · exact Announcement.noConfusion (hone .layer .tag hlayer htag)
  · exact hprogram (mixedAnnouncements.map fun line => (.backward, line))

end PrintPath
