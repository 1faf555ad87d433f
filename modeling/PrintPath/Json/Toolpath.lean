import PrintPath.Json.Basic
import PrintPath.Toolpath.Basic

/-!
# Toolpaths as JSON

How the parts of a toolpath are published: under which names and in which order.
-/

namespace PrintPath

/-- A place as JSON. -/
def Position.toJson (p : Position) : Json :=
  .object [("x", .float p.x), ("y", .float p.y), ("z", .float p.z)]

/-- A path type as JSON. -/
def PathType.toJson (t : PathType) : Json :=
  .text t.tag

/-- A point as JSON. -/
def Point.toJson (p : Point) : Json :=
  .object [("position", p.position.toJson), ("extrusion", .float p.extrusion),
    ("extrusion_multiplier", .float p.multiplier)]

/-- A segment as JSON. -/
def Segment.toJson (s : Segment) : Json :=
  .object [("kind", .text s.kind.name), ("path_type", s.pathType.toJson),
    ("layer_thickness", .float s.thickness), ("points", .array (s.points.map Point.toJson))]

/-- A layer as JSON. -/
def Layer.toJson (l : Layer) : Json :=
  .object [("segments", .array (l.segments.toList.map Segment.toJson))]

/-- A diagnostic as JSON. -/
def Diagnostic.toJson (d : Diagnostic) : Json :=
  .object [("line", .natural d.line), ("kind", .text d.cause.kind), ("message", .text d.message)]

/-- The fields of a summary as JSON. -/
def Summary.fields (s : Summary) : List (String × Json) :=
  [("layers", .natural s.layers), ("segments", .natural s.segments),
    ("points", .natural s.points), ("extrusion_mm", .float s.extrusion),
    ("duration_minutes", .float s.minutes), ("preamble_ended", .bool s.preambleEnded),
    ("diagnostics", .natural s.diagnostics)]

end PrintPath
