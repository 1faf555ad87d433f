import PrintPath.Journal
import PrintPath.Machine.Basic
import PrintPath.Toolpath.Basic
import PrintPath.Toolpath.Builder

/-!
# A pass over a program

A pass carries a machine and a growing toolpath through a program, line by line.
Each line is taken in a fixed order: first what its comment announces, then the
tool it selects, then its command.  So a comment on a line acts before the command
on the same line.

`Pass.feed` is the composition of these steps.  Each step changes the machine in
one of the ways of `Machine`, and what it does to the toolpath is said beside it:
a layer marker completes a layer, a move records its end point, and nothing else
touches the toolpath at all.
-/

namespace PrintPath

open GCode

/-- What a pass is carried out with. -/
structure Setup where
  profile : Profile
  rule : ThicknessRule

/-- The state of a pass between two lines. -/
structure Pass where
  machine : Machine
  builder : Builder
  diagnostics : Array Diagnostic
  /-- The number of lines taken so far. -/
  line : Nat
  /-- What happened so far. -/
  notes : Array Note

namespace Pass

/-- A pass that has not taken any line: the head is at the origin, and the first
segment starts there. -/
def start : Pass :=
  { machine := .initial
    builder := .start Machine.initial.point Machine.initial.thickness
    diagnostics := #[]
    line := 0
    notes := #[] }

/-- Write something into the journal. -/
def note (pass : Pass) (note : Note) : Pass :=
  { pass with notes := pass.notes.push note }

/-- Report a problem on the present line. -/
def diagnose (pass : Pass) (cause : Cause) : Pass :=
  let diagnostic : Diagnostic := ⟨pass.line, cause⟩
  { pass with
    diagnostics := pass.diagnostics.push diagnostic
    notes := pass.notes.push (.diagnosed diagnostic) }

/-- Take up what a line's comment announces. -/
def announce (pass : Pass) (line : Line) : Pass :=
  let announced := { pass with machine := pass.machine.announce line }
  if line.layerBoundary then
    let builder := pass.builder.closeLayer
    { announced with builder }.note (.layerClosed builder.closed.size pass.line)
  else announced

/-- Select the tool that a line names, unless it is selected already.  A number
that no extruder can have is reported and changes nothing. -/
def selectTool (setup : Setup) (pass : Pass) (tool : Option Int) : Pass :=
  match tool with
  | none => pass
  | some index =>
    if Number.FitsUInt32 index then
      if index.toNat = pass.machine.tool then pass
      else
        { pass with machine := pass.machine.selectTool setup.profile index.toNat }.note
          (.toolSwitched pass.machine.tool index.toNat pass.line)
    else pass.diagnose (.invalidExtruder index)

/-- Make a move and record where it ended. -/
def move (setup : Setup) (pass : Pass) (target : Axes (Option Float))
    (extrusion feedRate : Option Float) : Pass :=
  let machine := pass.machine.move setup.rule target extrusion feedRate
  let moved :=
    { pass with
      machine
      builder := pass.builder.push (pass.machine.moveKind extrusion) machine.pathType
        machine.thickness machine.point }
  if target.any Option.isSome ∧ ¬ 0.0 < machine.feedRate then
    moved.note (.timeSkipped pass.line machine.feedRate)
  else moved

/-- Carry out the command of a line. -/
def execute (setup : Setup) (pass : Pass) (command : Option Command) : Pass :=
  match command with
  | none => pass
  | some (.move target extrusion feedRate) => pass.move setup target extrusion feedRate
  | some (.unknown letter code) => pass.diagnose (.unknownCommand letter code)
  | some command => { pass with machine := pass.machine.execute setup.rule command }

/-- Take a line. -/
def feed (setup : Setup) (pass : Pass) (line : Line) : Pass :=
  let counted := { pass with line := pass.line + 1 }
  ((counted.announce line).selectTool setup line.tool).execute setup line.command

/-- Take the lines of a program. -/
def feedAll (setup : Setup) (pass : Pass) (lines : List Line) : Pass :=
  lines.foldl (feed setup) pass

/-- The toolpath of a program that ends here.  The layer being filled counts. -/
def finish (pass : Pass) : Toolpath :=
  { layers := pass.builder.layers
    extrusion := pass.machine.filament.peak
    minutes := pass.machine.minutes
    preambleEnded := pass.machine.preambleEnded
    diagnostics := pass.diagnostics }

/-- What the end of a program is noted as. -/
def finishNote (pass : Pass) : Note :=
  .parsed pass.line pass.machine.filament.peak pass.machine.minutes

@[simp] theorem machine_note (pass : Pass) (note : Note) :
    (pass.note note).machine = pass.machine := rfl

@[simp] theorem builder_note (pass : Pass) (note : Note) :
    (pass.note note).builder = pass.builder := rfl

@[simp] theorem diagnostics_note (pass : Pass) (note : Note) :
    (pass.note note).diagnostics = pass.diagnostics := rfl

@[simp] theorem line_note (pass : Pass) (note : Note) : (pass.note note).line = pass.line := rfl

@[simp] theorem machine_diagnose (pass : Pass) (cause : Cause) :
    (pass.diagnose cause).machine = pass.machine := rfl

@[simp] theorem builder_diagnose (pass : Pass) (cause : Cause) :
    (pass.diagnose cause).builder = pass.builder := rfl

end Pass
end PrintPath
