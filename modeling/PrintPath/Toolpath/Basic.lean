import PrintPath.Diagnostic
import PrintPath.Toolpath.Segment

/-!
# Toolpaths

A toolpath is what a program was read into: its layers, and the totals that are
only known when the program has ended.
-/

namespace PrintPath

/-- A print job that was read to its end. -/
structure Toolpath where
  layers : Array Layer
  /-- The filament used, in millimetres. -/
  extrusion : Float
  /-- The estimated duration. -/
  minutes : Float
  /-- Whether the program got beyond its start code. -/
  preambleEnded : Bool
  diagnostics : Array Diagnostic

/-- The sizes and totals of a toolpath. -/
structure Summary where
  layers : Nat
  segments : Nat
  points : Nat
  extrusion : Float
  minutes : Float
  preambleEnded : Bool
  diagnostics : Nat

namespace Toolpath

/-- The toolpath of a print that was never read: it has not even a first layer. -/
def empty : Toolpath :=
  { layers := #[], extrusion := 0.0, minutes := 0.0, preambleEnded := false, diagnostics := #[] }

/-- The sizes and totals of a toolpath. -/
def summary (t : Toolpath) : Summary :=
  { layers := t.layers.size
    segments := (t.layers.toList.flatMap fun l => l.segments.toList).length
    points := (t.layers.toList.flatMap Layer.points).length
    extrusion := t.extrusion
    minutes := t.minutes
    preambleEnded := t.preambleEnded
    diagnostics := t.diagnostics.size }

end Toolpath

/-- The last segment of the last layer. -/
def lastSegment? (layers : Array Layer) : Option Segment :=
  layers.back?.bind fun layer => layer.segments.back?

end PrintPath
