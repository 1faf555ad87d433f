import PrintPath.Toolpath.Segment

/-!
# Growing a toolpath

A builder holds the layers that are complete, the complete segments of the layer
that is being filled, and the one segment that is still growing.  It knows two
operations.  A move either continues the growing segment or, if its kind or its
path type differs, completes it and opens the next one where it ended.  A layer
marker completes segment and layer, and the new layer goes on with a continuation
of the segment, so that the path never breaks.

Nothing that is complete changes afterwards: both operations only append.
-/

namespace PrintPath

/-- A toolpath that is still growing. -/
structure Builder where
  /-- The complete layers. -/
  closed : Array Layer
  /-- The complete segments of the layer being filled. -/
  finished : Array Segment
  /-- The segment that receives the moves. -/
  current : Segment

namespace Builder

/-- One layer without moves that starts at `origin`. -/
def start (origin : Point) (thickness : Float) : Builder :=
  { closed := #[], finished := #[], current := .opened .travel .custom thickness origin }

/-- Record a move that ended at `point`. -/
def push (b : Builder) (kind : MoveKind) (pathType : PathType) (thickness : Float)
    (point : Point) : Builder :=
  if b.current.accepts kind pathType then
    { b with current := b.current.push point }
  else
    { b with
      finished := b.finished.push b.current
      current := (Segment.opened kind pathType thickness b.current.last).push point }

/-- The segments of the layer being filled, the growing one last. -/
def openLayer (b : Builder) : Layer :=
  ⟨b.finished.push b.current⟩

/-- Complete the layer being filled and go on in a new one. -/
def closeLayer (b : Builder) : Builder :=
  { closed := b.closed.push b.openLayer, finished := #[], current := b.current.continuation }

/-- Every layer, the one being filled included. -/
def layers (b : Builder) : Array Layer :=
  b.closed.push b.openLayer

end Builder
end PrintPath
