import Mathlib.Data.List.Induction
import PrintPath.Proofs.Codes
import PrintPath.Proofs.History
import PrintPath.Proofs.Observation

/-!
# What is not understood is reported, and does nothing else

A line of code is looked at for the numbers of a tool, of a `G` code and of an `M` code, and
each of them may be one that cannot be carried out.  `problemsOfLine` says which problems a
line has, from these three numbers alone and without a word about commands:

* the number of a tool is a problem if no extruder can have it;
* the number of a `G` code is one if the code is not carried out;
* the number of an `M` code is looked at if there is no `G` code, and is a problem if the
  code is neither carried out nor one of those that move nothing.

`diagnostics_run` says that these are the diagnostics of a program, all of them and in the
order of the lines.

A problem has no other effect.  A line whose tool cannot be selected does what it would do
without naming a tool, and a line whose command cannot be carried out does what it would do
without the command (`machine_feed_withoutTool`, `machine_feed_withoutCommand`).  The codes
that move nothing share the second property.
-/

namespace PrintPath

open GCode

/-! ## What a program leads one to expect -/

/-- The `G` codes that are carried out. -/
def effectiveG : List Int := [0, 1, 4, 20, 21, 28, 90, 91, 92]

/-- The `M` codes that are carried out. -/
def effectiveM : List Int := [82, 83, 221]

/-- Whether the code of a line names a tool that no extruder can be: its number is negative
or has more than 32 bits. -/
def NamesNoExtruder (text : List Char) : Prop :=
  ∃ index ∈ integer? 'T' (annotate text).code, ¬ (0 ≤ index ∧ index ≤ 4294967295)

/-- Whether the code of a line gives a command that is not carried out: by a `G` code, or by
an `M` code if there is no `G` code. -/
def IsIdle (text : List Char) : Prop :=
  (∃ g ∈ integer? 'G' (annotate text).code, g ∉ effectiveG) ∨
    integer? 'G' (annotate text).code = none ∧
      ∃ m ∈ integer? 'M' (annotate text).code, m ∉ effectiveM

/-- The problem with the tool that a line of code names. -/
def toolProblems (code : List Char) : List Cause :=
  match integer? 'T' code with
  | none => []
  | some index =>
    if 0 ≤ index ∧ index ≤ 4294967295 then [] else [.invalidExtruder index]

/-- The problem with the command that a line of code gives. -/
def commandProblems (code : List Char) : List Cause :=
  match integer? 'G' code with
  | some g => if g ∈ effectiveG then [] else [.unknownCommand 'G' g]
  | none =>
    match integer? 'M' code with
    | some m => if m ∈ effectiveM ∨ m ∈ inertCodes then [] else [.unknownCommand 'M' m]
    | none => []

/-- The problems of a line behind some others.  Lines are counted from 1. -/
def problemsOfLine (front : List (List Char)) (text : List Char) : List Diagnostic :=
  (toolProblems (annotate text).code ++ commandProblems (annotate text).code).map
    (Diagnostic.mk (front.length + 1))

namespace GCode

/-- A line that names no tool. -/
def Line.withoutTool (line : Line) : Line :=
  { line with tool := none }

/-- A line with its comment and its tool only. -/
def Line.withoutCommand (line : Line) : Line :=
  { line with command := none }

/-! ## The problems of a line -/

theorem toolCauses_tool? (code : List Char) : toolCauses (tool? code) = toolProblems code := by
  unfold toolCauses toolProblems tool?
  cases integer? 'T' code with
  | none => rfl
  | some index => exact if_congr (Number.fitsUInt32_iff index) rfl rfl

/-- **A command is a problem if its code is not known.**  There is one case for each way of
giving a command. -/
theorem commandCauses_command (text : List Char) :
    commandCauses (Line.read text).command = commandProblems (annotate text).code := by
  unfold commandProblems
  cases hcommand : (Line.read text).command with
  | none =>
    obtain ⟨hg, hm⟩ := integer?_of_command_eq_none hcommand
    rw [hg, hm]
    rfl
  | some command =>
    cases commandOn_of_command hcommand with
    | move h => rcases h with h | h <;> rw [h] <;> rfl
    | unknownG g h hnone =>
      rw [h]
      exact (if_neg hnone).symm
    | inert m hg h hinert =>
      rw [hg, h]
      exact (if_pos (Or.inr hinert)).symm
    | unknownM m hg h hnone =>
      rw [hg, h]
      refine (if_neg ?_).symm
      rwa [← List.mem_append]
    | absoluteExtrusion hg h | relativeExtrusion hg h | flow hg h =>
      rw [hg, h]
      rfl
    | dwell h | inches h | millimetres h | home h | absolute h | relative h | redefine h =>
      rw [h]
      rfl

theorem causes_read (text : List Char) :
    (Line.read text).causes =
      toolProblems (annotate text).code ++ commandProblems (annotate text).code := by
  unfold Line.causes
  rw [commandCauses_command]
  exact congrArg (· ++ _) (toolCauses_tool? _)

/-! ## Commands that are not carried out -/

theorem not_isIdle_of_effectiveG {text : List Char} {g : Int}
    (h : integer? 'G' (annotate text).code = some g) (hg : g ∈ effectiveG) : ¬ IsIdle text := by
  rintro (⟨other, hother, hidle⟩ | ⟨hnone, -⟩)
  · rw [h] at hother
    exact hidle (Option.mem_some_iff.mp hother ▸ hg)
  · exact absurd (h.symm.trans hnone) (Option.some_ne_none g)

theorem not_isIdle_of_effectiveM {text : List Char} {m : Int}
    (hnone : integer? 'G' (annotate text).code = none)
    (h : integer? 'M' (annotate text).code = some m) (hm : m ∈ effectiveM) : ¬ IsIdle text := by
  rintro (⟨g, hg, -⟩ | ⟨-, other, hother, hidle⟩)
  · exact absurd (hg.symm.trans hnone) (Option.some_ne_none g)
  · rw [h] at hother
    exact hidle (Option.mem_some_iff.mp hother ▸ hm)

/-- **A command that is not carried out is inert or unknown.** -/
theorem command_of_isIdle {text : List Char} (h : IsIdle text) :
    (Line.read text).command = some .inert ∨
      ∃ letter code, (Line.read text).command = some (.unknown letter code) := by
  cases hcommand : (Line.read text).command with
  | none =>
    obtain ⟨hg, hm⟩ := integer?_of_command_eq_none hcommand
    rcases h with ⟨g, hsome, -⟩ | ⟨-, m, hsome, -⟩
    · exact absurd (hsome.symm.trans hg) (Option.some_ne_none g)
    · exact absurd (hsome.symm.trans hm) (Option.some_ne_none m)
  | some command =>
    cases commandOn_of_command hcommand with
    | inert m hg hm hinert => exact Or.inl rfl
    | unknownG g hg hnone => exact Or.inr ⟨_, _, rfl⟩
    | unknownM m hg hm hnone => exact Or.inr ⟨_, _, rfl⟩
    | move hg =>
      rcases hg with hg | hg <;> exact absurd h (not_isIdle_of_effectiveG hg (by decide))
    | dwell hg | inches hg | millimetres hg | home hg | absolute hg | relative hg
    | redefine hg => exact absurd h (not_isIdle_of_effectiveG hg (by decide))
    | absoluteExtrusion hg hm | relativeExtrusion hg hm | flow hg hm =>
      exact absurd h (not_isIdle_of_effectiveM hg hm (by decide))

end GCode

namespace Machine

variable (m : Machine) (setup : Setup) {text : List Char}

/-- A tool that no extruder can be is not selected. -/
theorem ready_of_namesNoExtruder (h : NamesNoExtruder text) :
    m.ready setup (Line.read text) = m.announce (Line.read text) := by
  obtain ⟨index, hindex, hrange⟩ := h
  have htool : (Line.read text).tool = some index := hindex
  unfold ready
  rw [htool]
  exact if_neg (mt (Number.fitsUInt32_iff index).mp hrange)

/-- **A line with a tool that no extruder can be works as if it named none.** -/
theorem after_withoutTool (h : NamesNoExtruder text) :
    m.after setup (Line.read text).withoutTool = m.after setup (Line.read text) ∧
      m.operations setup (Line.read text).withoutTool = m.operations setup (Line.read text) := by
  unfold after operations
  rw [ready_of_namesNoExtruder m setup h]
  exact ⟨rfl, rfl⟩

/-- **A line with a command that is not carried out works as if it gave none.** -/
theorem after_withoutCommand (h : IsIdle text) :
    m.after setup (Line.read text).withoutCommand = m.after setup (Line.read text) ∧
      m.operations setup (Line.read text).withoutCommand =
        m.operations setup (Line.read text) := by
  unfold after operations
  rcases command_of_isIdle h with hinert | ⟨letter, code, hunknown⟩
  · rw [hinert]
    exact ⟨rfl, rfl⟩
  · rw [hunknown]
    exact ⟨rfl, rfl⟩

end Machine

namespace Pass

/-- Two passes have come to the same machine and the same toolpath. -/
def SameState (p q : Pass) : Prop :=
  p.machine = q.machine ∧ p.builder = q.builder

variable (setup : Setup)

/-- What a line does to machine and toolpath is what the machine makes of it. -/
theorem sameState_feed (pass : Pass) {line other : Line}
    (h : pass.machine.after setup other = pass.machine.after setup line ∧
      pass.machine.operations setup other = pass.machine.operations setup line) :
    (pass.feed setup line).SameState (pass.feed setup other) := by
  unfold SameState
  rw [machine_feed, machine_feed, builder_feed, builder_feed, h.1, h.2]
  exact ⟨rfl, rfl⟩

/-! ## The diagnostics of a run -/

/-- Every line is counted. -/
theorem line_run (texts : List (List Char)) : (run setup texts).line = texts.length := by
  induction texts using List.reverseRecOn with
  | nil => rfl
  | append_singleton front text ih =>
    rw [run_concat, line_feed, ih, List.length_append, List.length_singleton]

/-- **The diagnostics of a program are the problems of its lines.** -/
theorem diagnostics_run (texts : List (List Char)) :
    (run setup texts).diagnostics.toList = alongHistory problemsOfLine texts := by
  induction texts using List.reverseRecOn with
  | nil => rfl
  | append_singleton front text ih =>
    rw [run_concat, diagnostics_feed, alongHistory_concat, ih, line_run, causes_read]
    rfl

end Pass

/-- **What is not understood is reported exactly, and does nothing else.**  The diagnostics
of a program are the problems of its lines, in their order.  A line that names a tool that no
extruder can be leaves tool and offset to its command as they were, and does what it would do
without the name.  A line with a command that is not carried out does what its comment and
its tool do. -/
theorem diagnoses_reading (setup : Setup) :
    (∀ lines : List String, ∃ t : Toolpath,
      (readLines setup .silent () lines).outcome = .completed t ∧
        t.diagnostics.toList = alongHistory problemsOfLine (lines.map String.toList)) ∧
      (∀ (pass : Pass) (text : List Char), NamesNoExtruder text →
        (pass.machine.ready setup (Line.read text)).tool = pass.machine.tool ∧
        (pass.machine.ready setup (Line.read text)).offset = pass.machine.offset ∧
        (pass.feed setup (Line.read text)).SameState
          (pass.feed setup (Line.read text).withoutTool)) ∧
      ∀ (pass : Pass) (text : List Char), IsIdle text →
        (pass.feed setup (Line.read text)).SameState
          (pass.feed setup (Line.read text).withoutCommand) := by
  refine ⟨?_, ?_, ?_⟩
  · intro lines
    exact ⟨_, outcome_readLines_silent setup lines, Pass.diagnostics_run setup _⟩
  · intro pass text h
    rw [Machine.ready_of_namesNoExtruder _ setup h]
    exact ⟨rfl, rfl, pass.sameState_feed setup (pass.machine.after_withoutTool setup h)⟩
  · intro pass text h
    exact pass.sameState_feed setup (pass.machine.after_withoutCommand setup h)

/-- Lines with problems: a negative tool in front of a move, a tool and a command that are
both no good, a command between the known ones, and a `G` code in front of a good `M` code. -/
def faultyLines : List String :=
  ["T-1 G1 X5", "T4294967296 G29", "M104 S200", "M999 G1.5 ; fan", "G5 M82"]

/-- The problems of `faultyLines`.  Its first line moves all the same, and behind `M83` its
last one leaves the extrusion relative. -/
theorem diagnoses_reading_faultyLines :
    NamesNoExtruder "T-1 G1 X5".toList ∧ IsIdle "G5 M82".toList ∧
      (∃ t : Toolpath,
        (readLines ⟨.builtIn, .standard⟩ .silent () faultyLines).outcome = .completed t ∧
          t.diagnostics.toList =
            [⟨1, .invalidExtruder (-1)⟩, ⟨2, .invalidExtruder 4294967296⟩,
              ⟨2, .unknownCommand 'G' 29⟩, ⟨4, .unknownCommand 'M' 999⟩,
              ⟨5, .unknownCommand 'G' 5⟩]) ∧
      (Pass.start.feed ⟨.builtIn, .standard⟩ (Line.read "T-1 G1 X5".toList)).SameState
        (Pass.start.feed ⟨.builtIn, .standard⟩ (Line.read "T-1 G1 X5".toList).withoutTool) ∧
      (Pass.start.feed ⟨.builtIn, .standard⟩
        (Line.read "T-1 G1 X5".toList)).machine.position.x = 5.0 ∧
      (Pass.start.feed ⟨.builtIn, .standard⟩ (Line.read "G5 M82".toList)).SameState
        (Pass.start.feed ⟨.builtIn, .standard⟩ (Line.read "G5 M82".toList).withoutCommand) ∧
      ((Pass.start.feed ⟨.builtIn, .standard⟩ (Line.read "M83".toList)).feed
        ⟨.builtIn, .standard⟩ (Line.read "G5 M82".toList)).machine.extrusion = .relative := by
  obtain ⟨hdiagnostics, htool, hcommand⟩ := diagnoses_reading ⟨.builtIn, .standard⟩
  have hnames : NamesNoExtruder "T-1 G1 X5".toList := ⟨-1, by decide, by decide⟩
  have hidle : IsIdle "G5 M82".toList := Or.inl ⟨5, by decide, by decide⟩
  obtain ⟨t, hcompleted, ht⟩ := hdiagnostics faultyLines
  refine ⟨hnames, hidle, ⟨t, hcompleted, ht.trans (by decide)⟩, ?_, by decide +kernel, ?_,
    by decide +kernel⟩
  · exact (htool Pass.start _ hnames).2.2
  · exact hcommand Pass.start _ hidle

end PrintPath
