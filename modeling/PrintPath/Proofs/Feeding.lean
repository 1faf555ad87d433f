import PrintPath.Proofs.Operations
import PrintPath.Reading.Pass

/-!
# What a line does

`Pass.feed` takes a line through a whole pass at once: machine, toolpath, diagnostics
and journal.  Statements about programs mostly concern one of these, and the machine
does not depend on the others.  So a line is taken apart here.

* `Machine.after` is what a line does to the machine, as a function of the machine
  alone, and `machine_feed` says that feeding does just that.
* `Machine.operations` is what a line does to the toolpath, as a list of operations
  that depends on the machine alone, and `builder_feed` says that feeding carries
  them out: first the layer marker, then the move.
* `GCode.Line.causes` is what is wrong with a line, which depends on nothing but the
  line, and `diagnostics_feed` says that feeding reports it.

Behind these three the state of a pass need not be unfolded any more.
-/

namespace PrintPath

open GCode

namespace Machine

/-- The machine with the tool that a line names, if a tool can have that number. -/
def selectNamed (m : Machine) (profile : Profile) : Option Int → Machine
  | none => m
  | some index =>
    if Number.FitsUInt32 index then
      if index.toNat = m.tool then m else m.selectTool profile index.toNat
    else m

/-- The machine that a line finds when its command is about to be carried out. -/
def ready (m : Machine) (setup : Setup) (line : Line) : Machine :=
  (m.announce line).selectNamed setup.profile line.tool

/-- The machine behind a line. -/
def after (m : Machine) (setup : Setup) (line : Line) : Machine :=
  match line.command with
  | none => m.ready setup line
  | some command => (m.ready setup line).execute setup.rule command

/-- The move that a command makes on a machine, as an operation on the toolpath. -/
def recorded (m : Machine) (rule : ThicknessRule) : Option Command → List Builder.Operation
  | some (.move target extrusion feedRate) =>
    let moved := m.move rule target extrusion feedRate
    [.push (m.moveKind extrusion) moved.pathType moved.thickness moved.point]
  | _ => []

/-- What a line does to the toolpath. -/
def operations (m : Machine) (setup : Setup) (line : Line) : List Builder.Operation :=
  (if line.layerBoundary then [.closeLayer] else []) ++
    (m.ready setup line).recorded setup.rule line.command

end Machine

namespace GCode

/-- A command is a move or it is none. -/
theorem Command.eq_move_or_ne_move (command : Command) :
    (∃ target extrusion feedRate, command = .move target extrusion feedRate) ∨
      ∀ target extrusion feedRate, command ≠ .move target extrusion feedRate := by
  cases command with
  | move target extrusion feedRate => exact Or.inl ⟨target, extrusion, feedRate, rfl⟩
  | _ => exact Or.inr fun _ _ _ => Command.noConfusion

/-- What is wrong with the number of a tool: that no tool can have it. -/
def toolCauses : Option Int → List Cause
  | none => []
  | some index => if Number.FitsUInt32 index then [] else [.invalidExtruder index]

/-- What is wrong with a command: that its code is not known. -/
def commandCauses : Option Command → List Cause
  | some (.unknown letter code) => [.unknownCommand letter code]
  | _ => []

/-- What is wrong with a line. -/
def Line.causes (line : Line) : List Cause :=
  toolCauses line.tool ++ commandCauses line.command

end GCode

namespace Machine

/-! ## What a line leaves alone -/

/-- Selecting a tool changes the tool and the offset. -/
theorem exists_selectNamed_eq (m : Machine) (profile : Profile) (named : Option Int) :
    ∃ tool offset, m.selectNamed profile named = { m with tool, offset } := by
  unfold selectNamed
  split
  · exact ⟨m.tool, m.offset, rfl⟩
  · split
    · split
      · exact ⟨m.tool, m.offset, rfl⟩
      · exact ⟨_, _, rfl⟩
    · exact ⟨m.tool, m.offset, rfl⟩

@[simp] theorem pathType_selectNamed (m : Machine) (profile : Profile) (tool : Option Int) :
    (m.selectNamed profile tool).pathType = m.pathType := by
  obtain ⟨_, _, h⟩ := m.exists_selectNamed_eq profile tool
  rw [h]

@[simp] theorem filament_selectNamed (m : Machine) (profile : Profile) (tool : Option Int) :
    (m.selectNamed profile tool).filament = m.filament := by
  obtain ⟨_, _, h⟩ := m.exists_selectNamed_eq profile tool
  rw [h]

@[simp] theorem extrusion_selectNamed (m : Machine) (profile : Profile) (tool : Option Int) :
    (m.selectNamed profile tool).extrusion = m.extrusion := by
  obtain ⟨_, _, h⟩ := m.exists_selectNamed_eq profile tool
  rw [h]

@[simp] theorem preambleEnded_selectNamed (m : Machine) (profile : Profile) (tool : Option Int) :
    (m.selectNamed profile tool).preambleEnded = m.preambleEnded := by
  obtain ⟨_, _, h⟩ := m.exists_selectNamed_eq profile tool
  rw [h]

/-- What a line announces and the tool it names change no more than these fields. -/
theorem exists_ready_eq (m : Machine) (setup : Setup) (line : Line) :
    ∃ tool offset pathType preambleEnded,
      m.ready setup line = { m with tool, offset, pathType, preambleEnded } := by
  obtain ⟨tool, offset, h⟩ := (m.announce line).exists_selectNamed_eq setup.profile line.tool
  exact ⟨tool, offset, _, _, h⟩

@[simp] theorem position_ready (m : Machine) (setup : Setup) (line : Line) :
    (m.ready setup line).position = m.position := by
  obtain ⟨_, _, _, _, h⟩ := m.exists_ready_eq setup line
  rw [h]

@[simp] theorem filament_ready (m : Machine) (setup : Setup) (line : Line) :
    (m.ready setup line).filament = m.filament := by
  obtain ⟨_, _, _, _, h⟩ := m.exists_ready_eq setup line
  rw [h]

/-- What a line takes from its comment and its tool word no command changes. -/
theorem execute_frame (m : Machine) (rule : ThicknessRule) (command : Command) :
    (m.execute rule command).tool = m.tool ∧
      (m.execute rule command).pathType = m.pathType ∧
      (m.execute rule command).preambleEnded = m.preambleEnded := by
  cases command with
  | home named =>
    show (m.home named).tool = _ ∧ (m.home named).pathType = _ ∧ (m.home named).preambleEnded = _
    unfold home
    split
    · exact ⟨rfl, rfl, rfl⟩
    · exact ⟨rfl, rfl, rfl⟩
  | flow percent =>
    cases percent with
    | none => exact ⟨rfl, rfl, rfl⟩
    | some value => exact ⟨rfl, rfl, rfl⟩
  | _ => exact ⟨rfl, rfl, rfl⟩

/-- No command selects a tool. -/
@[simp] theorem tool_execute (m : Machine) (rule : ThicknessRule) (command : Command) :
    (m.execute rule command).tool = m.tool :=
  (m.execute_frame rule command).1

/-- No command changes the path type. -/
@[simp] theorem pathType_execute (m : Machine) (rule : ThicknessRule) (command : Command) :
    (m.execute rule command).pathType = m.pathType :=
  (m.execute_frame rule command).2.1

/-- No command ends the start code. -/
@[simp] theorem preambleEnded_execute (m : Machine) (rule : ThicknessRule) (command : Command) :
    (m.execute rule command).preambleEnded = m.preambleEnded :=
  (m.execute_frame rule command).2.2

/-- Behind a line the tool is the one that its command found. -/
theorem tool_after (m : Machine) (setup : Setup) (line : Line) :
    (m.after setup line).tool = (m.ready setup line).tool := by
  unfold after
  split
  · rfl
  · exact tool_execute _ _ _

/-- The path type behind a line is the one it announces, or else the one before it. -/
theorem pathType_after (m : Machine) (setup : Setup) (line : Line) :
    (m.after setup line).pathType = line.pathType.getD m.pathType := by
  unfold after ready
  split
  · rw [pathType_selectNamed]
    rfl
  · rw [pathType_execute, pathType_selectNamed]
    rfl

/-- The start code ends with a comment in a part of the program that has a purpose. -/
theorem preambleEnded_after (m : Machine) (setup : Setup) (line : Line) :
    (m.after setup line).preambleEnded =
      (m.preambleEnded || (line.hasComment && line.pathType.getD m.pathType != .custom)) := by
  unfold after ready
  split
  · rw [preambleEnded_selectNamed]
    rfl
  · rw [preambleEnded_execute, preambleEnded_selectNamed]
    rfl

/-- A command that is no move records nothing. -/
theorem recorded_of_ne_move {command : Command}
    (h : ∀ target extrusion feedRate, command ≠ .move target extrusion feedRate)
    (m : Machine) (rule : ThicknessRule) : m.recorded rule (some command) = [] := by
  cases command with
  | move target extrusion feedRate => exact absurd rfl (h target extrusion feedRate)
  | _ => rfl

/-- How far a move drives the filament axis was settled before its line. -/
theorem moveKind_ready (m : Machine) (setup : Setup) (line : Line) (extrusion : Option Float) :
    (m.ready setup line).moveKind extrusion = m.moveKind extrusion := by
  unfold moveKind filamentChange ready
  rw [filament_selectNamed, extrusion_selectNamed]
  rfl

end Machine

namespace Pass

variable (setup : Setup)

/-! ## Feeding, component by component -/

theorem machine_announce (pass : Pass) (line : Line) :
    (pass.announce line).machine = pass.machine.announce line := by
  unfold announce
  split <;> rfl

theorem builder_announce (pass : Pass) (line : Line) :
    (pass.announce line).builder =
      pass.builder.applyAll (if line.layerBoundary then [.closeLayer] else []) := by
  unfold announce
  split <;> rfl

theorem machine_selectTool (pass : Pass) (tool : Option Int) :
    (pass.selectTool setup tool).machine = pass.machine.selectNamed setup.profile tool := by
  cases tool with
  | none => rfl
  | some index =>
    unfold selectTool Machine.selectNamed
    by_cases hfits : Number.FitsUInt32 index
    · by_cases hsame : index.toNat = pass.machine.tool
      · simp only [if_pos hfits, if_pos hsame]
      · simp only [if_pos hfits, if_neg hsame, machine_note]
    · simp only [if_neg hfits, machine_diagnose]

theorem builder_selectTool (pass : Pass) (tool : Option Int) :
    (pass.selectTool setup tool).builder = pass.builder := by
  unfold selectTool
  repeat' split
  all_goals rfl

theorem machine_move (pass : Pass) (target : Axes (Option Float))
    (extrusion feedRate : Option Float) :
    (pass.move setup target extrusion feedRate).machine =
      pass.machine.move setup.rule target extrusion feedRate := by
  unfold move
  simp only
  split <;> rfl

theorem builder_move (pass : Pass) (target : Axes (Option Float))
    (extrusion feedRate : Option Float) :
    (pass.move setup target extrusion feedRate).builder =
      pass.builder.applyAll
        (pass.machine.recorded setup.rule (some (.move target extrusion feedRate))) := by
  unfold move
  simp only
  split <;> rfl

theorem machine_execute (pass : Pass) (command : Option Command) :
    (pass.execute setup command).machine =
      match command with
      | none => pass.machine
      | some command => pass.machine.execute setup.rule command := by
  unfold execute
  split
  · rfl
  · exact machine_move setup pass _ _ _
  · rfl
  · rfl

theorem builder_execute (pass : Pass) (command : Option Command) :
    (pass.execute setup command).builder =
      pass.builder.applyAll (pass.machine.recorded setup.rule command) := by
  unfold execute
  split
  · rfl
  · exact builder_move setup pass _ _ _
  · rfl
  · next command hmove hunknown =>
    cases command with
    | move target extrusion feedRate => exact absurd rfl (hmove target extrusion feedRate)
    | _ => rfl

/-- **Feeding a line changes the machine in a way that only the machine decides.** -/
theorem machine_feed (pass : Pass) (line : Line) :
    (pass.feed setup line).machine = pass.machine.after setup line := by
  unfold feed
  rw [machine_execute, machine_selectTool, machine_announce]
  rfl

/-- **Feeding a line carries out its operations on the toolpath.** -/
theorem builder_feed (pass : Pass) (line : Line) :
    (pass.feed setup line).builder =
      pass.builder.applyAll (pass.machine.operations setup line) := by
  unfold feed
  rw [builder_execute, builder_selectTool, machine_selectTool, builder_announce,
    machine_announce, ← Builder.applyAll_append]
  rfl

/-! ## The diagnostics of a line -/

theorem line_announce (pass : Pass) (line : Line) : (pass.announce line).line = pass.line := by
  unfold announce
  split <;> rfl

theorem line_selectTool (pass : Pass) (tool : Option Int) :
    (pass.selectTool setup tool).line = pass.line := by
  unfold selectTool
  repeat' split
  all_goals rfl

theorem diagnostics_announce (pass : Pass) (line : Line) :
    (pass.announce line).diagnostics = pass.diagnostics := by
  unfold announce
  split <;> rfl

theorem diagnostics_diagnose (pass : Pass) (cause : Cause) :
    (pass.diagnose cause).diagnostics.toList =
      pass.diagnostics.toList ++ [⟨pass.line, cause⟩] :=
  Array.toList_push

theorem diagnostics_selectTool (pass : Pass) (tool : Option Int) :
    (pass.selectTool setup tool).diagnostics.toList =
      pass.diagnostics.toList ++ (toolCauses tool).map (Diagnostic.mk pass.line) := by
  cases tool with
  | none => exact (List.append_nil _).symm
  | some index =>
    unfold selectTool toolCauses
    by_cases hfits : Number.FitsUInt32 index
    · simp only [if_pos hfits, List.map_nil, List.append_nil]
      split <;> rfl
    · simp only [if_neg hfits]
      exact diagnostics_diagnose pass _

theorem diagnostics_move (pass : Pass) (target : Axes (Option Float))
    (extrusion feedRate : Option Float) :
    (pass.move setup target extrusion feedRate).diagnostics = pass.diagnostics := by
  unfold move
  simp only
  split <;> rfl

theorem diagnostics_execute (pass : Pass) (command : Option Command) :
    (pass.execute setup command).diagnostics.toList =
      pass.diagnostics.toList ++ (commandCauses command).map (Diagnostic.mk pass.line) := by
  unfold execute commandCauses
  split
  · exact (List.append_nil _).symm
  · rw [diagnostics_move]
    exact (List.append_nil _).symm
  · exact diagnostics_diagnose pass _
  · next command hmove hunknown =>
    cases command with
    | unknown letter code => exact (hunknown letter code rfl).elim
    | _ => exact (List.append_nil _).symm

theorem line_move (pass : Pass) (target : Axes (Option Float))
    (extrusion feedRate : Option Float) :
    (pass.move setup target extrusion feedRate).line = pass.line := by
  unfold move
  simp only
  split <;> rfl

theorem line_execute (pass : Pass) (command : Option Command) :
    (pass.execute setup command).line = pass.line := by
  unfold execute
  split
  · rfl
  · exact line_move setup pass _ _ _
  · rfl
  · rfl

/-- A line is counted, whatever it is. -/
theorem line_feed (pass : Pass) (line : Line) :
    (pass.feed setup line).line = pass.line + 1 := by
  unfold feed
  rw [line_execute, line_selectTool, line_announce]

/-- **Feeding a line reports what is wrong with it**, first its tool and then its command,
under its own number. -/
theorem diagnostics_feed (pass : Pass) (line : Line) :
    (pass.feed setup line).diagnostics.toList =
      pass.diagnostics.toList ++ line.causes.map (Diagnostic.mk (pass.line + 1)) := by
  unfold feed Line.causes
  rw [diagnostics_execute, line_selectTool, line_announce, diagnostics_selectTool,
    line_announce, diagnostics_announce, List.map_append, List.append_assoc]

/-! ## Complete layers -/

/-- What the command of a line records leaves the complete layers alone. -/
theorem closed_recorded (b : Builder) (m : Machine) (rule : ThicknessRule)
    (command : Option Command) :
    (b.applyAll (m.recorded rule command)).closed = b.closed := by
  unfold Machine.recorded
  split
  · exact b.closed_push _ _ _ _
  · rfl

/-- A layer marker turns all layers there are into complete ones. -/
theorem closed_mark (b : Builder) (marker : Bool) :
    (b.applyAll (if marker then [.closeLayer] else [])).closed =
      if marker then b.layers else b.closed := by
  cases marker with
  | false => rfl
  | true => rfl

/-- **The complete layers behind a line.**  A layer marker adds the layer being filled,
and nothing else touches them. -/
theorem closed_feed (pass : Pass) (line : Line) :
    (pass.feed setup line).builder.closed =
      if line.layerBoundary then pass.builder.layers else pass.builder.closed := by
  rw [builder_feed, Machine.operations, Builder.applyAll_append, closed_recorded, closed_mark]

/-- A line completes a layer if it is a marker, and none otherwise. -/
theorem size_closed_feed (pass : Pass) (line : Line) :
    (pass.feed setup line).builder.closed.size =
      pass.builder.closed.size + if line.layerBoundary then 1 else 0 := by
  rw [closed_feed]
  split
  · rw [Builder.layers, Array.size_push]
  · rfl

/-! ## Runs -/

theorem feedAll_append (pass : Pass) (front back : List Line) :
    pass.feedAll setup (front ++ back) = (pass.feedAll setup front).feedAll setup back :=
  List.foldl_append

/-- What every operation on a toolpath preserves holds of every toolpath of a run. -/
theorem builder_feedAll {P : Builder → Prop}
    (hstep : ∀ b operation, P b → P (b.apply operation)) {pass : Pass} (hpass : P pass.builder)
    (lines : List Line) : P (pass.feedAll setup lines).builder := by
  induction lines generalizing pass with
  | nil => exact hpass
  | cons line lines ih =>
    have hnext : P (pass.feed setup line).builder := by
      rw [builder_feed]
      exact Builder.applyAll_invariant hstep hpass _
    exact ih hnext

/-- The pass over the lines of a program, from its beginning. -/
def run (texts : List (List Char)) : Pass :=
  start.feedAll setup (texts.map Line.read)

@[simp] theorem run_nil : run setup [] = start := rfl

/-- A run over one line more is the run fed with that line. -/
theorem run_concat (texts : List (List Char)) (text : List Char) :
    run setup (texts ++ [text]) = (run setup texts).feed setup (Line.read text) := by
  unfold run
  rw [List.map_append, feedAll_append]
  rfl

end Pass
end PrintPath
