import PrintPath.Proofs.InertLines

/-!
# A comment acts before the command on its line

Many lines are a command and a comment.  Such a line does what two lines do, one with the
comment alone and one with the command alone, in this order.  So a comment says something about
the command in front of it, and whatever stands in the comment, the command does not see it.

That holds of lines in general (`Machine.after_eq_after`, `Machine.operations_eq_append`): a
line is its announcement and its instruction, and it is carried out as the one and then the
other.  What is left is to find the two parts in the text.  There they are as expected
(`announcement_read_append`, `instruction_read_append`), except for one thing.  The tag in front
of a path type only counts at the very start of a line.  Behind a command it is a comment like
any other, and then the line does what the command does alone.
-/

namespace PrintPath

open GCode Text

namespace GCode

/-! ## The two parts of a line -/

namespace Line

/-- What a line announces, as a line of its own. -/
def announcement (line : Line) : Line :=
  { line with tool := none, command := none }

/-- What a line asks for, as a line of its own. -/
def instruction (line : Line) : Line :=
  { line with pathType := none, hasComment := false, layerBoundary := false }

end Line

/-- What is read of a line without a semicolon. -/
theorem Line.read_of_notMem {code : List Char} (h : commentStart ∉ code) :
    Line.read code =
      { pathType := none, hasComment := false, layerBoundary := false
        tool := tool? code, command := Command.read? code } := by
  unfold Line.read
  rw [annotate_of_notMem h]

/-- What is read of a code, a semicolon and a comment. -/
theorem Line.read_append {code : List Char} (h : commentStart ∉ code) (comment : List Char) :
    Line.read (code ++ commentStart :: comment) =
      { pathType :=
          (keywordType? (trim comment)).or (taggedType? (code ++ commentStart :: comment))
        hasComment := true
        layerBoundary := layerMark.isPrefixOf (trim comment)
        tool := tool? code
        command := Command.read? code } := by
  unfold Line.read
  rw [annotate_append h]

/-- What is read of a comment alone. -/
theorem Line.read_comment (comment : List Char) :
    Line.read (commentStart :: comment) =
      { pathType := (keywordType? (trim comment)).or (taggedType? (commentStart :: comment))
        hasComment := true
        layerBoundary := layerMark.isPrefixOf (trim comment)
        tool := none
        command := none } :=
  Line.read_append List.not_mem_nil comment

section

variable {code : List Char} (hcode : commentStart ∉ code) {comment : List Char}

include hcode

/-- **The instruction of a line is its code**, whatever the comment says. -/
theorem instruction_read_append (comment : List Char) :
    (Line.read (code ++ commentStart :: comment)).instruction = Line.read code := by
  rw [Line.read_append hcode, Line.read_of_notMem hcode]
  rfl

/-- **The announcement of a line is its comment**, unless that is a tag that comes too
late. -/
theorem announcement_read_append (h : code = [] ∨ ¬ typeTag <+: commentStart :: comment) :
    (Line.read (code ++ commentStart :: comment)).announcement =
      Line.read (commentStart :: comment) := by
  have htag : taggedType? (code ++ commentStart :: comment) =
      taggedType? (commentStart :: comment) := by
    by_cases hempty : code = []
    · rw [hempty, List.nil_append]
    · rw [taggedType?_append hempty hcode, taggedType?_of_not_prefix (h.resolve_left hempty)]
  rw [Line.read_append hcode, Line.read_comment, htag]
  rfl

/-- A marker is a marker wherever it stands. -/
theorem layerBoundary_read_append (comment : List Char) :
    (Line.read (code ++ commentStart :: comment)).layerBoundary =
      (Line.read (commentStart :: comment)).layerBoundary := by
  rw [Line.read_append hcode, Line.read_comment]

/-- Behind a command a tag is a comment that announces nothing. -/
theorem read_append_tagged (hne : code ≠ []) (h : typeTag <+: commentStart :: comment) :
    Line.read (code ++ commentStart :: comment) =
      { Line.read code with hasComment := true } := by
  rw [Line.read_append hcode, Line.read_of_notMem hcode, keywordType?_tagged h,
    taggedType?_append hne hcode, layerMark_tagged h]
  rfl

end

end GCode

namespace Machine

variable (m : Machine) (setup : Setup) (line : Line)

/-- An instruction announces nothing. -/
theorem announce_instruction : m.announce line.instruction = m := by
  unfold announce
  show { m with pathType := m.pathType, preambleEnded := m.preambleEnded || (false && _) } = m
  rw [Bool.false_and, Bool.or_false]

/-- Behind its announcement a line has been announced, and no more. -/
theorem after_announcement : m.after setup line.announcement = m.announce line := rfl

/-- A command finds the same machine, whether it is announced on its line or before. -/
theorem ready_instruction :
    (m.after setup line.announcement).ready setup line.instruction = m.ready setup line := by
  rw [after_announcement]
  unfold ready
  rw [announce_instruction]
  rfl

/-- **A line changes the machine as its announcement and then its instruction.** -/
theorem after_eq_after :
    m.after setup line = (m.after setup line.announcement).after setup line.instruction := by
  rw [after, after, ready_instruction]
  rfl

/-- **A line does to the toolpath what its announcement and then its instruction do.** -/
theorem operations_eq_append :
    m.operations setup line =
      m.operations setup line.announcement ++
        (m.after setup line.announcement).operations setup line.instruction := by
  unfold operations
  rw [ready_instruction]
  show _ = ((if line.layerBoundary then [Builder.Operation.closeLayer] else []) ++ []) ++ ([] ++ _)
  rw [List.append_nil, List.nil_append]
  rfl

end Machine

namespace Pass

variable (setup : Setup)

/-- **Feeding a line comes to the state that feeding its announcement and then its
instruction comes to.** -/
theorem sameState_feed_feed (pass : Pass) (line : Line) :
    (pass.feed setup line).SameState
      ((pass.feed setup line.announcement).feed setup line.instruction) := by
  unfold SameState
  rw [machine_feed, machine_feed, machine_feed, builder_feed, builder_feed, builder_feed,
    machine_feed, ← Builder.applyAll_append]
  exact ⟨pass.machine.after_eq_after setup line, by rw [pass.machine.operations_eq_append]⟩

/-- The diagnostics are those of the instruction, which has the next number. -/
theorem diagnostics_feed_feed (texts : List (List Char)) (line : Line) :
    (((run setup texts).feed setup line.announcement).feed setup
        line.instruction).diagnostics.toList =
      ((run setup texts).feed setup line).diagnostics.toList.map
        (Diagnostic.renumber texts.length) := by
  rw [diagnostics_feed, diagnostics_feed, diagnostics_feed, line_feed, line_run, diagnostics_run,
    List.map_append, map_renumber_alongHistory, List.map_map]
  show _ ++ [] ++ line.causes.map _ = _
  rw [List.append_nil]
  congr 1
  refine List.map_congr_left fun cause _ => ?_
  exact (Diagnostic.renumber_of_lt (Nat.lt_succ_self _) cause).symm

/-- A line that differs from another one in having a comment that announces nothing comes to
the same state, with the same diagnostics. -/
theorem feed_hasComment (texts : List (List Char)) {line : Line} (h : line.pathType = none) :
    ((run setup texts).feed setup { line with hasComment := true }).SameState
        ((run setup texts).feed setup line) ∧
      ((run setup texts).feed setup { line with hasComment := true }).diagnostics.toList =
        ((run setup texts).feed setup line).diagnostics.toList := by
  have hflag := flagsPurpose_run setup texts
  have hcommented : ({ line with hasComment := true } : Line).pathType = none := h
  have hready : (run setup texts).machine.ready setup { line with hasComment := true } =
      (run setup texts).machine.ready setup line := by
    unfold Machine.ready
    rw [Machine.announce_of_pathType_eq_none hflag h,
      Machine.announce_of_pathType_eq_none hflag hcommented]
  refine ⟨sameState_feed setup _ ?_, ?_⟩
  · unfold Machine.after Machine.operations
    rw [hready]
    exact ⟨rfl, rfl⟩
  · rw [diagnostics_feed, diagnostics_feed]
    rfl

end Pass

/-- **A comment acts before the command on its line and never leaks into it.**  A code with a
comment behind it comes to the same machine and the same toolpath as the comment on a line of
its own and then the code.  The diagnostics are the same, with the next number.  Behind a code
that is not empty a comment that reads like a tag does nothing.  In any case the line marks a
layer if the comment does. -/
theorem run_inlineComment (setup : Setup) (texts : List (List Char)) {code : List Char}
    (hcode : commentStart ∉ code) (comment : List Char) :
    (Line.read (code ++ commentStart :: comment)).layerBoundary =
        (Line.read (commentStart :: comment)).layerBoundary ∧
      (code = [] ∨ ¬ typeTag <+: commentStart :: comment →
        (Pass.run setup (texts ++ [code ++ commentStart :: comment])).SameState
            (Pass.run setup (texts ++ [commentStart :: comment] ++ [code])) ∧
          (Pass.run setup (texts ++ [commentStart :: comment] ++ [code])).diagnostics.toList =
            (Pass.run setup
              (texts ++ [code ++ commentStart :: comment])).diagnostics.toList.map
                (Diagnostic.renumber texts.length)) ∧
      (code ≠ [] ∧ typeTag <+: commentStart :: comment →
        (Pass.run setup (texts ++ [code ++ commentStart :: comment])).SameState
            (Pass.run setup (texts ++ [code])) ∧
          (Pass.run setup (texts ++ [code ++ commentStart :: comment])).diagnostics.toList =
            (Pass.run setup (texts ++ [code])).diagnostics.toList) := by
  simp only [Pass.run_concat]
  refine ⟨layerBoundary_read_append hcode comment, ?_, ?_⟩
  · intro h
    rw [← announcement_read_append hcode h, ← instruction_read_append hcode comment]
    exact ⟨Pass.sameState_feed_feed setup _ _, Pass.diagnostics_feed_feed setup texts _⟩
  · rintro ⟨hne, h⟩
    rw [read_append_tagged hcode hne h]
    refine Pass.feed_hasComment setup texts ?_
    rw [Line.read_of_notMem hcode]

/-- A move with a tool that no extruder can be. -/
def faultyMove : List Char := "T-1 G1 X5 E1 ".toList

/-- A layer marker that goes on with words and another semicolon. -/
def wordyMarker : List Char := " LAYER:2 E99 ; G28".toList

/-- Behind a path type, `faultyMove` with `wordyMarker` is the marker and then the move, and
with a tag it is the move alone. -/
theorem run_inlineComment_faultyMove :
    commentStart ∉ faultyMove ∧ ¬ typeTag <+: commentStart :: wordyMarker ∧
      typeTag <+: commentStart :: "TYPE:FILL".toList ∧
      (Line.read (faultyMove ++ commentStart :: wordyMarker)).layerBoundary ∧
      (Pass.run ⟨.builtIn, .standard⟩
          ([";TYPE:SKIRT".toList] ++ [faultyMove ++ commentStart :: wordyMarker])).SameState
        (Pass.run ⟨.builtIn, .standard⟩
          ([";TYPE:SKIRT".toList] ++ [commentStart :: wordyMarker] ++ [faultyMove])) ∧
      (Pass.run ⟨.builtIn, .standard⟩ ([";TYPE:SKIRT".toList] ++
          [commentStart :: wordyMarker] ++ [faultyMove])).diagnostics.toList =
        [⟨3, .invalidExtruder (-1)⟩] ∧
      (Pass.run ⟨.builtIn, .standard⟩ ([";TYPE:SKIRT".toList] ++
          [faultyMove ++ commentStart :: "TYPE:FILL".toList])).SameState
        (Pass.run ⟨.builtIn, .standard⟩ ([";TYPE:SKIRT".toList] ++ [faultyMove])) := by
  have hcode : commentStart ∉ faultyMove := by decide
  have hmarker : ¬ typeTag <+: commentStart :: wordyMarker := by decide
  have htag : typeTag <+: commentStart :: "TYPE:FILL".toList := by decide
  obtain ⟨hboundary, hbefore, -⟩ :=
    run_inlineComment ⟨.builtIn, .standard⟩ [";TYPE:SKIRT".toList] hcode wordyMarker
  obtain ⟨-, -, halone⟩ :=
    run_inlineComment ⟨.builtIn, .standard⟩ [";TYPE:SKIRT".toList] hcode "TYPE:FILL".toList
  obtain ⟨hstate, hdiagnostics⟩ := hbefore (Or.inr hmarker)
  refine ⟨hcode, hmarker, htag, hboundary.trans (by decide), hstate, ?_,
    (halone ⟨by decide, htag⟩).1⟩
  rw [hdiagnostics, Pass.diagnostics_run]
  decide

end PrintPath
