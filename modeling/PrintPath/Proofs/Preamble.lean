import Mathlib.Data.List.Induction
import PrintPath.Proofs.Comments
import PrintPath.Proofs.Observation

/-!
# When the start code is over

The start code of a program is over when a line gives what follows a purpose: a path type that
is not that of unclassified motion.  That is how one would say it, and `preambleEnded_run` says
that it is so.  The machine goes about it in another way.  It looks at *any* comment, and asks
whether the path type in force is one with a purpose, wherever that came from.

The two agree because of what holds of every machine in a run (`FlagsPurpose`): while a path
type with a purpose is in force, the start code is over already.  So a comment that announces
nothing has nothing to add.  A comment that does announce something is looked at on its own
line, since there is no path type without a comment (`hasComment_of_pathType`).
-/

namespace PrintPath

open GCode

/-- Whether a line gives what follows a purpose. -/
def GivesPurpose (text : List Char) : Prop :=
  ∃ pathType ∈ (annotate text).pathType, pathType ≠ .custom

namespace Machine

/-- While a path type with a purpose is in force the start code is over. -/
def FlagsPurpose (m : Machine) : Prop :=
  m.pathType ≠ .custom → m.preambleEnded

theorem flagsPurpose_initial : initial.FlagsPurpose :=
  fun h => absurd rfl h

variable {m : Machine} (setup : Setup)

/-- **A comment that announces no path type leaves the machine as it is.** -/
theorem announce_of_pathType_eq_none (h : m.FlagsPurpose) {line : Line}
    (hnone : line.pathType = none) : m.announce line = m := by
  have hflag : (m.preambleEnded || (line.hasComment && m.pathType != .custom)) =
      m.preambleEnded := by
    by_cases hcustom : m.pathType = .custom
    · rw [hcustom, bne_self_eq_false, Bool.and_false, Bool.or_false]
    · rw [h hcustom, Bool.true_or]
  unfold announce
  simp only [hnone, Option.getD_none, hflag]

/-- A line that announces no path type does not end the start code. -/
theorem preambleEnded_after_of_pathType_eq_none (h : m.FlagsPurpose) {line : Line}
    (hnone : line.pathType = none) :
    (m.after setup line).preambleEnded = m.preambleEnded := by
  have hannounce := congrArg preambleEnded (announce_of_pathType_eq_none h hnone)
  rw [preambleEnded_after]
  exact hannounce

/-- A path type that a line announces ends the start code if it has a purpose. -/
theorem preambleEnded_after_of_pathType_eq_some {text : List Char} {pathType : PathType}
    (h : (Line.read text).pathType = some pathType) :
    (m.after setup (Line.read text)).preambleEnded =
      (m.preambleEnded || pathType != .custom) := by
  have hcomment : (Line.read text).hasComment = true := hasComment_of_pathType h
  rw [preambleEnded_after, h, Option.getD_some, hcomment, Bool.true_and]

/-- **A line ends the start code if it gives what follows a purpose**, and otherwise
leaves it as it is. -/
theorem preambleEnded_after_iff (h : m.FlagsPurpose) (text : List Char) :
    (m.after setup (Line.read text)).preambleEnded ↔ m.preambleEnded ∨ GivesPurpose text := by
  unfold GivesPurpose
  show _ ↔ _ ∨ ∃ pathType ∈ (Line.read text).pathType, pathType ≠ .custom
  cases htype : (Line.read text).pathType with
  | none =>
    rw [preambleEnded_after_of_pathType_eq_none setup h htype]
    refine ⟨Or.inl, fun hended => hended.resolve_right ?_⟩
    rintro ⟨pathType, hmem, -⟩
    exact Option.not_mem_none pathType hmem
  | some pathType =>
    rw [preambleEnded_after_of_pathType_eq_some setup htype, Bool.or_eq_true, bne_iff_ne]
    refine or_congr_right ⟨fun hne => ⟨pathType, rfl, hne⟩, ?_⟩
    rintro ⟨other, hother, hne⟩
    rwa [Option.mem_some_iff.mp hother]

/-- **Behind a line, too, the start code is over while a path type with a purpose is in
force.** -/
theorem flagsPurpose_after (h : m.FlagsPurpose) (text : List Char) :
    (m.after setup (Line.read text)).FlagsPurpose := by
  intro hne
  rw [preambleEnded_after_iff setup h]
  rw [pathType_after] at hne
  cases htype : (Line.read text).pathType with
  | none =>
    rw [htype, Option.getD_none] at hne
    exact Or.inl (h hne)
  | some pathType =>
    rw [htype, Option.getD_some] at hne
    exact Or.inr ⟨pathType, htype, hne⟩

end Machine

namespace Pass

variable (setup : Setup)

/-- In a run the start code is over while a path type with a purpose is in force. -/
theorem flagsPurpose_run (texts : List (List Char)) :
    (run setup texts).machine.FlagsPurpose := by
  induction texts using List.reverseRecOn with
  | nil => exact Machine.flagsPurpose_initial
  | append_singleton front text ih =>
    rw [run_concat, machine_feed]
    exact Machine.flagsPurpose_after setup ih text

/-- One line more ends the start code if it gives what follows a purpose. -/
theorem preambleEnded_run_concat (texts : List (List Char)) (text : List Char) :
    (run setup (texts ++ [text])).machine.preambleEnded ↔
      (run setup texts).machine.preambleEnded ∨ GivesPurpose text := by
  rw [run_concat, machine_feed]
  exact Machine.preambleEnded_after_iff setup (flagsPurpose_run setup texts) text

/-- **The start code of a program is over if one of its lines gives what follows a
purpose.** -/
theorem preambleEnded_run (texts : List (List Char)) :
    (run setup texts).machine.preambleEnded ↔ ∃ text ∈ texts, GivesPurpose text := by
  induction texts using List.reverseRecOn with
  | nil =>
    refine ⟨fun h => absurd h Bool.false_ne_true, ?_⟩
    rintro ⟨text, hmem, -⟩
    exact absurd hmem List.not_mem_nil
  | append_singleton front text ih =>
    rw [preambleEnded_run_concat, ih]
    constructor
    · rintro (⟨other, hmem, hother⟩ | htext)
      · exact ⟨other, List.mem_append_left _ hmem, hother⟩
      · exact ⟨text, List.mem_concat_self, htext⟩
    · rintro ⟨other, hmem, hother⟩
      rcases List.mem_append.mp hmem with hmem | hmem
      · exact Or.inl ⟨other, hmem, hother⟩
      · exact Or.inr (List.mem_singleton.mp hmem ▸ hother)

end Pass

/-- **The flag of a toolpath says whether the program got beyond its start code.**  It is set
if a line of the program announces, by a tag or by a bare word, a path type other than that of
unclassified motion.  While such a path type is in force the flag is set; no line clears it,
and none that announces no path type sets it. -/
theorem preambleEnded_reading (setup : Setup) :
    (∀ lines : List String, ∃ t : Toolpath,
      (readLines setup .silent () lines).outcome = .completed t ∧
        (t.preambleEnded ↔
          ∃ line ∈ lines, ∃ pathType ∈ (annotate line.toList).pathType, pathType ≠ .custom)) ∧
      (∀ line : List Char,
        (∃ pathType ∈ (annotate line).pathType, pathType ≠ .custom) ↔
          (∃ tag, line = typeTag ++ tag ∧ String.ofList (Text.trim tag) ≠ PathType.custom.tag) ∨
            ∃ code comment, commentStart ∉ code ∧ line = code ++ commentStart :: comment ∧
              Text.trim comment ∈ bareWords) ∧
      ∀ texts : List (List Char),
        ((Pass.run setup texts).machine.pathType ≠ .custom →
          (Pass.run setup texts).machine.preambleEnded) ∧
        ∀ text : List Char,
          ((Pass.run setup texts).machine.preambleEnded →
            (Pass.run setup (texts ++ [text])).machine.preambleEnded) ∧
          ((annotate text).pathType = none →
            (Pass.run setup (texts ++ [text])).machine.preambleEnded =
              (Pass.run setup texts).machine.preambleEnded) := by
  refine ⟨?_, pathType_annotate_iff, fun texts => ⟨Pass.flagsPurpose_run setup texts, ?_⟩⟩
  · intro lines
    refine ⟨_, outcome_readLines_silent setup lines, (Pass.preambleEnded_run setup _).trans ?_⟩
    simp only [List.mem_map, exists_exists_and_eq_and, GivesPurpose]
  · intro text
    refine ⟨fun h => (Pass.preambleEnded_run_concat setup texts text).mpr (Or.inl h), ?_⟩
    intro hnone
    rw [Pass.run_concat, Pass.machine_feed]
    exact Machine.preambleEnded_after_of_pathType_eq_none setup
      (Pass.flagsPurpose_run setup texts) hnone

/-- Start code with a comment and a tag of its own, and a bare word behind a command. -/
def startAndFill : List String :=
  ["; start code", ";TYPE:CUSTOM", "G28 ; fill"]

/-- The start code of `startAndFill` is over with its last line, and neither a remark nor the
tag of unclassified motion changes that. -/
theorem preambleEnded_reading_startAndFill :
    (∃ t : Toolpath,
      (readLines ⟨.builtIn, .standard⟩ .silent () startAndFill).outcome = .completed t ∧
        t.preambleEnded) ∧
      (Pass.run ⟨.builtIn, .standard⟩ (startAndFill.map String.toList)).machine.pathType ≠
        .custom ∧
      (annotate "; a remark".toList).pathType = none ∧
      (Pass.run ⟨.builtIn, .standard⟩
        (startAndFill.map String.toList ++ ["; a remark".toList])).machine.preambleEnded =
          (Pass.run ⟨.builtIn, .standard⟩
            (startAndFill.map String.toList)).machine.preambleEnded ∧
      (Pass.run ⟨.builtIn, .standard⟩
        (startAndFill.map String.toList ++ [";TYPE:CUSTOM".toList])).machine.preambleEnded := by
  obtain ⟨hlines, -, hrun⟩ := preambleEnded_reading ⟨.builtIn, .standard⟩
  obtain ⟨hflag, hnext⟩ := hrun (startAndFill.map String.toList)
  obtain ⟨t, hcompleted, ht⟩ := hlines startAndFill
  have htype : (Pass.run ⟨.builtIn, .standard⟩
      (startAndFill.map String.toList)).machine.pathType ≠ .custom := by
    decide
  have hremark : (annotate "; a remark".toList).pathType = none := by decide
  refine ⟨⟨t, hcompleted, ht.mpr ?_⟩, htype, hremark, (hnext _).2 hremark,
    (hnext _).1 (hflag htype)⟩
  exact ⟨"G28 ; fill", by decide, .fill, by decide, by decide⟩

end PrintPath
