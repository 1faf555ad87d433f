import PrintPath.Axes
import PrintPath.Toolpath.PathType

/-!
# Points, segments and layers

The reconstructed print is a list of layers, a layer a list of segments, and a
segment a run of points that the head passed in one kind of motion for one
purpose.

A segment starts at the point where its predecessor ended.  That point is stored
apart, as the `seed`, because it records no move: every other point of a segment
stands for one move of the input, and a segment has a first and a last point even
before anything moved.
-/

namespace PrintPath

/-- How the head got to a point. -/
inductive MoveKind where
  /-- No filament moved. -/
  | travel
  /-- Filament was fed forward. -/
  | extrude
  /-- Filament was pulled back. -/
  | retract
  deriving DecidableEq, Repr

/-- The name of a kind of move. -/
def MoveKind.name : MoveKind → String
  | travel => "travel"
  | extrude => "extrude"
  | retract => "retract"

/-- A place the head passed, and the state of the filament there. -/
structure Point where
  position : Position
  /-- The filament fed so far, in millimetres. -/
  extrusion : Float
  /-- The flow multiplier in force. -/
  multiplier : Float

/-- A run of moves of one kind and one path type. -/
structure Segment where
  kind : MoveKind
  pathType : PathType
  /-- The layer thickness in force when the segment was opened. -/
  thickness : Float
  /-- Where the segment starts. -/
  seed : Point
  /-- Where each of its moves ended. -/
  moves : Array Point

namespace Segment

/-- A segment without moves. -/
def opened (kind : MoveKind) (pathType : PathType) (thickness : Float) (seed : Point) : Segment :=
  { kind, pathType, thickness, seed, moves := #[] }

/-- All points, the seed first. -/
def points (s : Segment) : List Point :=
  s.seed :: s.moves.toList

/-- Where the segment starts. -/
def first (s : Segment) : Point := s.seed

/-- Where the segment ends. -/
def last (s : Segment) : Point :=
  s.moves.back?.getD s.seed

/-- One more move. -/
def push (s : Segment) (point : Point) : Segment :=
  { s with moves := s.moves.push point }

/-- Whether a move of this kind and type continues the segment. -/
def accepts (s : Segment) (kind : MoveKind) (pathType : PathType) : Bool :=
  s.kind == kind && s.pathType == pathType

/-- A segment without moves that goes on where this one ends. -/
def continuation (s : Segment) : Segment :=
  opened s.kind s.pathType s.thickness s.last

/-- The distance travelled along the segment.  The sum starts from negative zero,
the neutral element of addition. -/
def length (s : Segment) : Float :=
  (List.zip s.points s.moves.toList).foldl
    (fun sum pair => sum + pair.1.position.distance pair.2.position) (-0.0)

/-- The filament fed between the ends of the segment. -/
def extrusion (s : Segment) : Float :=
  s.last.extrusion - s.first.extrusion

@[simp] theorem points_opened (kind : MoveKind) (pathType : PathType) (thickness : Float)
    (seed : Point) : (opened kind pathType thickness seed).points = [seed] := rfl

@[simp] theorem points_push (s : Segment) (point : Point) :
    (s.push point).points = s.points ++ [point] := by
  simp [points, push]

@[simp] theorem last_push (s : Segment) (point : Point) : (s.push point).last = point := by
  simp [last, push]

@[simp] theorem last_opened (kind : MoveKind) (pathType : PathType) (thickness : Float)
    (seed : Point) : (opened kind pathType thickness seed).last = seed := rfl

@[simp] theorem seed_continuation (s : Segment) : s.continuation.seed = s.last := rfl

end Segment

/-- The motion between two layer markers. -/
structure Layer where
  segments : Array Segment

namespace Layer

/-- The points of all segments, seeds included. -/
def points (l : Layer) : List Point :=
  l.segments.toList.flatMap Segment.points

/-- The number of points of all segments, seeds included. -/
def pointCount (l : Layer) : Nat :=
  l.points.length

/-- The filament fed by the extruding segments, summed in order from negative
zero. -/
def extrudedLength (l : Layer) : Float :=
  (l.segments.toList.filter fun s => s.kind == .extrude).foldl
    (fun sum s => sum + s.extrusion) (-0.0)

end Layer
end PrintPath
