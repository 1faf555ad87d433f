import PrintPath.Proofs.Diagnosis
import PrintPath.Proofs.Preamble

/-!
# Lines that mean nothing

A line is inert if it announces neither a path type nor a layer and if its code has no readable
number behind a `T`, a `G` or an `M`.  Blank lines are inert, and so are plain comments, stray
words, codes in small letters, and `G1.5`.  An inert line may stand anywhere in a program or be
left out.  `reading_insert` says that the toolpath is the same, but for the lines that come
behind it: each of them has the next number, and is reported under that one.

Two things are said for that.

* An inert line leaves the machine and the growing toolpath alone (`after_of_isInert`,
  `operations_of_isInert`).  That is not so for any machine.  Any comment may end the start
  code, and it takes what holds of the machines in a run to exclude it (`FlagsPurpose`).
* Of the lines in front of a line nothing but their number reaches its diagnostics
  (`problemsOfLine`).  So the diagnostics behind an inert line are renumbered, and those in
  front of it are not.
-/

namespace PrintPath

open GCode

/-- Whether a line announces nothing and asks for nothing. -/
structure IsInert (text : List Char) : Prop where
  pathType : (annotate text).pathType = none
  layerBoundary : (annotate text).layerBoundary = false
  tool : integer? 'T' (annotate text).code = none
  g : integer? 'G' (annotate text).code = none
  m : integer? 'M' (annotate text).code = none

/-- The diagnostic as it is when one line more stands behind the first `count` lines. -/
def Diagnostic.renumber (count : Nat) (d : Diagnostic) : Diagnostic :=
  if count < d.line then { d with line := d.line + 1 } else d

/-- The toolpath as it is when one line more stands behind the first `count` lines. -/
def Toolpath.renumber (count : Nat) (t : Toolpath) : Toolpath :=
  { t with diagnostics := t.diagnostics.map (Diagnostic.renumber count) }

/-! ## An inert line -/

namespace IsInert

variable {text : List Char} (h : IsInert text)

include h

theorem tool_read : (Line.read text).tool = none := h.tool

theorem command_read : (Line.read text).command = none := by
  show Command.read? (annotate text).code = none
  unfold Command.read?
  rw [h.g, h.m]
  rfl

/-- An inert line has no problems. -/
theorem problemsOfLine (front : List (List Char)) : problemsOfLine front text = [] := by
  unfold PrintPath.problemsOfLine toolProblems commandProblems
  rw [h.tool, h.g, h.m]
  rfl

end IsInert

namespace Machine

variable {m : Machine} {text : List Char} (setup : Setup)

/-- **An inert line leaves the machine as it is.** -/
theorem after_of_isInert (hflag : m.FlagsPurpose) (h : IsInert text) :
    m.after setup (Line.read text) = m := by
  unfold after ready
  rw [h.command_read, h.tool_read]
  exact announce_of_pathType_eq_none hflag h.pathType

/-- **An inert line does nothing to the toolpath.** -/
theorem operations_of_isInert (h : IsInert text) : m.operations setup (Line.read text) = [] := by
  have hmark : (Line.read text).layerBoundary = false := h.layerBoundary
  unfold operations
  rw [h.command_read, hmark]
  rfl

end Machine

namespace Pass

variable (setup : Setup)

/-! ## Passes in the same state -/

/-- Passes in the same state are in the same state behind a line. -/
theorem SameState.feed {p q : Pass} (h : p.SameState q) (line : Line) :
    (p.feed setup line).SameState (q.feed setup line) := by
  unfold SameState
  rw [machine_feed, machine_feed, builder_feed, builder_feed, h.1, h.2]
  exact ⟨rfl, rfl⟩

/-- **With an inert line in it a program comes to the same state.**  The induction is on the
lines behind it. -/
theorem sameState_run_insert {inert : List Char} (h : IsInert inert)
    (front back : List (List Char)) :
    (run setup (front ++ [inert] ++ back)).SameState (run setup (front ++ back)) := by
  induction back using List.reverseRecOn with
  | nil =>
    rw [List.append_nil, List.append_nil, run_concat]
    unfold SameState
    rw [machine_feed, builder_feed, Machine.operations_of_isInert setup h,
      Machine.after_of_isInert setup (flagsPurpose_run setup front) h]
    exact ⟨rfl, rfl⟩
  | append_singleton back text ih =>
    rw [← List.append_assoc, ← List.append_assoc, run_concat, run_concat]
    exact ih.feed setup (Line.read text)

end Pass

/-! ## Numbers of lines -/

namespace Diagnostic

theorem renumber_of_le {count : Nat} {d : Diagnostic} (h : d.line ≤ count) :
    d.renumber count = d :=
  if_neg (Nat.not_lt.mpr h)

theorem renumber_of_lt {count line : Nat} (h : count < line) (cause : Cause) :
    renumber count ⟨line, cause⟩ = ⟨line + 1, cause⟩ :=
  if_pos h

end Diagnostic

/-- A diagnostic has the number of a line of the program. -/
theorem line_le_of_mem_alongHistory {texts : List (List Char)} {d : Diagnostic}
    (h : d ∈ alongHistory problemsOfLine texts) : d.line ≤ texts.length := by
  obtain ⟨front, text, hprefix, htext⟩ := exists_of_mem_alongHistory h
  obtain ⟨cause, -, rfl⟩ := List.mem_map.mp htext
  have hlength := hprefix.length_le
  rwa [List.length_append, List.length_singleton] at hlength

/-- Diagnostics of the first lines keep their numbers. -/
theorem map_renumber_alongHistory (texts : List (List Char)) :
    (alongHistory problemsOfLine texts).map (Diagnostic.renumber texts.length) =
      alongHistory problemsOfLine texts := by
  rw [List.map_congr_left fun d hd =>
    Diagnostic.renumber_of_le (line_le_of_mem_alongHistory hd), List.map_id']

/-- A line behind `front`, and behind others, has the next number if one more stands between
them. -/
theorem problemsOfLine_insert (front back : List (List Char)) (inert text : List Char) :
    problemsOfLine (front ++ [inert] ++ back) text =
      (problemsOfLine (front ++ back) text).map (Diagnostic.renumber front.length) := by
  have hlength : (front ++ [inert] ++ back).length = (front ++ back).length + 1 := by
    simp only [List.length_append, List.length_singleton]
    omega
  have hlt : front.length < (front ++ back).length + 1 := by
    rw [List.length_append]
    omega
  unfold problemsOfLine
  rw [List.map_map, hlength]
  exact List.map_congr_left fun cause _ => (Diagnostic.renumber_of_lt hlt cause).symm

/-- **With an inert line in it a program has the same problems**, and those behind the line
are renumbered. -/
theorem alongHistory_insert {inert : List Char} (h : IsInert inert)
    (front back : List (List Char)) :
    alongHistory problemsOfLine (front ++ [inert] ++ back) =
      (alongHistory problemsOfLine (front ++ back)).map
        (Diagnostic.renumber front.length) := by
  induction back using List.reverseRecOn with
  | nil =>
    rw [List.append_nil, List.append_nil, alongHistory_concat, h.problemsOfLine, List.append_nil,
      map_renumber_alongHistory]
  | append_singleton back text ih =>
    rw [← List.append_assoc, ← List.append_assoc, alongHistory_concat, alongHistory_concat, ih,
      problemsOfLine_insert, List.map_append]

/-- **The toolpath of a program with an inert line in it** is the one without, renumbered. -/
theorem Pass.finish_run_insert (setup : Setup) {inert : List Char} (h : IsInert inert)
    (front back : List (List Char)) :
    (run setup (front ++ [inert] ++ back)).finish =
      (run setup (front ++ back)).finish.renumber front.length := by
  obtain ⟨hmachine, hbuilder⟩ := sameState_run_insert setup h front back
  have hdiagnostics : (run setup (front ++ [inert] ++ back)).diagnostics =
      (run setup (front ++ back)).diagnostics.map (Diagnostic.renumber front.length) := by
    rw [← Array.toList_inj, Array.toList_map, diagnostics_run, diagnostics_run,
      alongHistory_insert h]
  unfold finish Toolpath.renumber
  simp only [hmachine, hbuilder, hdiagnostics]

/-- **An inert line may stand anywhere or be left out.**  With it, the toolpath has the same
layers, totals and flag, and the same diagnostics; those of the lines behind it have the next
numbers. -/
theorem reading_insert (setup : Setup) {inert : String} (h : IsInert inert.toList)
    (front back : List String) :
    ∃ t : Toolpath,
      (readLines setup .silent () (front ++ back)).outcome = .completed t ∧
        (readLines setup .silent () (front ++ [inert] ++ back)).outcome =
          .completed (t.renumber front.length) := by
  refine ⟨_, outcome_readLines_silent setup _, ?_⟩
  rw [outcome_readLines_silent, List.map_append, List.map_append, List.map_append,
    List.map_singleton, Pass.finish_run_insert setup h, List.length_map]

/-- A plain comment, behind a path type with a purpose and in front of two lines with
problems. -/
theorem reading_insert_remark :
    IsInert "g1 x5 G1.5 ; T1".toList ∧
      ∃ t : Toolpath,
        (readLines ⟨.builtIn, .standard⟩ .silent ()
          [";TYPE:FILL", "G29", "G1 X5 T-1", "M999"]).outcome = .completed t ∧
        (readLines ⟨.builtIn, .standard⟩ .silent ()
          [";TYPE:FILL", "G29", "g1 x5 G1.5 ; T1", "G1 X5 T-1", "M999"]).outcome =
            .completed (t.renumber 2) ∧
        t.diagnostics.toList =
          [⟨2, .unknownCommand 'G' 29⟩, ⟨3, .invalidExtruder (-1)⟩,
            ⟨4, .unknownCommand 'M' 999⟩] ∧
        (t.renumber 2).diagnostics.toList =
          [⟨2, .unknownCommand 'G' 29⟩, ⟨4, .invalidExtruder (-1)⟩,
            ⟨5, .unknownCommand 'M' 999⟩] := by
  have hinert : IsInert "g1 x5 G1.5 ; T1".toList :=
    ⟨by decide, by decide, by decide, by decide, by decide⟩
  obtain ⟨t, hwithout, hwith⟩ := reading_insert ⟨.builtIn, .standard⟩ hinert
    [";TYPE:FILL", "G29"] ["G1 X5 T-1", "M999"]
  have ht : t.diagnostics.toList =
      [⟨2, .unknownCommand 'G' 29⟩, ⟨3, .invalidExtruder (-1)⟩,
        ⟨4, .unknownCommand 'M' 999⟩] := by
    rw [← Outcome.completed.inj ((outcome_readLines_silent _ _).symm.trans hwithout)]
    exact (Pass.diagnostics_run _ _).trans (by decide)
  refine ⟨hinert, t, hwithout, hwith, ht, ?_⟩
  unfold Toolpath.renumber
  rw [Array.toList_map, ht]
  decide

end PrintPath
