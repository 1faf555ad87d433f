import PrintPath.Axes
import PrintPath.GCode.Word

/-!
# Commands

The code of a line selects a tool, or gives a command, or does both.  This module
says what a line *asks for*; what that does to a machine is `Machine`'s business.
So everything that depends on the spelling of a line is decided here, and two
lines with the same `Command` and the same tool word cannot be told apart later.

A command is a `G` code or an `M` code.  The `M` code is only looked at if the
line has no readable `G` code.
-/

namespace PrintPath
namespace GCode

/-- Whether a quantity is given from a fixed origin or from its present value. -/
inductive Mode where
  | absolute
  | relative
  deriving DecidableEq, Repr

/-- What a line of code asks for. -/
inductive Command where
  /-- Move the head in a straight line. -/
  | move (target : Axes (Option Float)) (extrusion feedRate : Option Float)
  /-- Wait. -/
  | dwell (seconds milliseconds : Option Float)
  /-- Take coordinates in units of so many millimetres. -/
  | units (scale : Float)
  /-- Drive the named axes to their end stops, or all of them. -/
  | home (named : Axes Bool)
  /-- Choose how coordinates are given. -/
  | positioning (mode : Mode)
  /-- Give the present place new coordinates. -/
  | redefine (target : Axes (Option Float)) (extrusion : Option Float)
  /-- Choose how filament lengths are given. -/
  | extrusionMode (mode : Mode)
  /-- Set the flow multiplier, in percent. -/
  | flow (percent : Option Float)
  /-- A known code that moves nothing. -/
  | inert
  /-- A code that is not known. -/
  | unknown (letter : Char) (code : Int)
  deriving DecidableEq

/-- Millimetres in an inch. -/
def millimetresPerInch : Float := 25.4

/-- The `M` codes that move nothing: messages and waits, power and steppers, steps
per unit, extruders on and off, temperatures, fans, extruder speeds and line
numbers. -/
def inertCodes : List Int :=
  [1, 80, 81, 84, 92, 101, 103, 104, 105, 106, 107, 108, 109, 110, 113, 140, 190]

/-- The values of the axis letters. -/
def axisNumbers (code : List Char) : Axes (Option Float) :=
  ⟨number? 'X' code, number? 'Y' code, number? 'Z' code⟩

/-- The axis letters that start a word. -/
def axisWords (code : List Char) : Axes Bool :=
  ⟨hasWord 'X' code, hasWord 'Y' code, hasWord 'Z' code⟩

namespace Command

/-- What a `G` code asks for. -/
def ofG (g : Int) (code : List Char) : Command :=
  if g = 0 ∨ g = 1 then .move (axisNumbers code) (number? 'E' code) (number? 'F' code)
  else if g = 4 then .dwell (number? 'S' code) (number? 'P' code)
  else if g = 20 then .units millimetresPerInch
  else if g = 21 then .units 1.0
  else if g = 28 then .home (axisWords code)
  else if g = 90 then .positioning .absolute
  else if g = 91 then .positioning .relative
  else if g = 92 then .redefine (axisNumbers code) (number? 'E' code)
  else .unknown 'G' g

/-- What an `M` code asks for. -/
def ofM (m : Int) (code : List Char) : Command :=
  if m = 82 then .extrusionMode .absolute
  else if m = 83 then .extrusionMode .relative
  else if m = 221 then .flow (number? 'S' code)
  else if m ∈ inertCodes then .inert
  else .unknown 'M' m

/-- The command on a line of code, if it has one. -/
def read? (code : List Char) : Option Command :=
  match integer? 'G' code with
  | some g => some (ofG g code)
  | none => (integer? 'M' code).map fun m => ofM m code

end Command

/-- The tool that a line of code selects. -/
def tool? (code : List Char) : Option Int :=
  integer? 'T' code

end GCode
end PrintPath
