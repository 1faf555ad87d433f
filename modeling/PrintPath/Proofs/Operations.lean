import PrintPath.Toolpath.Builder

/-!
# A growing toolpath as the result of operations

Only two things ever happen to a growing toolpath: a move is recorded, or the layer
being filled is completed.  `Builder.Operation` has one constructor for each, and
`Builder.applyAll` carries out a list of them.

What a program does to its toolpath is such a list, read off the program line by
line.  So a property of every toolpath needs no argument about commands at all: it is
shown once for each constructor, and `applyAll_invariant` carries it along the list.
-/

namespace PrintPath
namespace Builder

/-- What can happen to a growing toolpath. -/
inductive Operation where
  /-- A move is recorded. -/
  | push (kind : MoveKind) (pathType : PathType) (thickness : Float) (point : Point)
  /-- The layer being filled is completed. -/
  | closeLayer

/-- The toolpath after one operation. -/
def apply (b : Builder) : Operation → Builder
  | .push kind pathType thickness point => b.push kind pathType thickness point
  | .closeLayer => b.closeLayer

/-- The toolpath after some operations, in order. -/
def applyAll (b : Builder) (operations : List Operation) : Builder :=
  operations.foldl apply b

@[simp] theorem applyAll_nil (b : Builder) : b.applyAll [] = b := rfl

@[simp] theorem applyAll_cons (b : Builder) (operation : Operation)
    (operations : List Operation) :
    b.applyAll (operation :: operations) = (b.apply operation).applyAll operations := rfl

theorem applyAll_append (b : Builder) (front back : List Operation) :
    b.applyAll (front ++ back) = (b.applyAll front).applyAll back :=
  List.foldl_append

/-- What every operation preserves, every list of operations does. -/
theorem applyAll_invariant {P : Builder → Prop} (hstep : ∀ b operation, P b → P (b.apply operation))
    {b : Builder} (hb : P b) (operations : List Operation) : P (b.applyAll operations) := by
  induction operations generalizing b with
  | nil => exact hb
  | cons operation operations ih => exact ih (hstep b operation hb)

/-! ## What an operation does -/

/-- A move that continues the growing segment is added to it. -/
theorem push_of_accepts {b : Builder} {kind : MoveKind} {pathType : PathType}
    (h : b.current.accepts kind pathType) (thickness : Float) (point : Point) :
    b.push kind pathType thickness point = { b with current := b.current.push point } :=
  if_pos h

/-- A move that does not continue the growing segment completes it, and the next one
starts where it ended. -/
theorem push_of_not_accepts {b : Builder} {kind : MoveKind} {pathType : PathType}
    (h : ¬ b.current.accepts kind pathType) (thickness : Float) (point : Point) :
    b.push kind pathType thickness point =
      { b with
        finished := b.finished.push b.current
        current := (Segment.opened kind pathType thickness b.current.last).push point } :=
  if_neg h

/-- A move leaves the complete layers alone. -/
@[simp] theorem closed_push (b : Builder) (kind : MoveKind) (pathType : PathType)
    (thickness : Float) (point : Point) :
    (b.push kind pathType thickness point).closed = b.closed := by
  by_cases h : b.current.accepts kind pathType
  · rw [push_of_accepts h]
  · rw [push_of_not_accepts h]

@[simp] theorem closed_closeLayer (b : Builder) :
    b.closeLayer.closed = b.closed.push b.openLayer := rfl

/-- The growing segment ends where the last move ended. -/
@[simp] theorem last_current_push (b : Builder) (kind : MoveKind) (pathType : PathType)
    (thickness : Float) (point : Point) :
    (b.push kind pathType thickness point).current.last = point := by
  by_cases h : b.current.accepts kind pathType
  · rw [push_of_accepts h]
    exact Segment.last_push _ point
  · rw [push_of_not_accepts h]
    exact Segment.last_push _ point

/-- The growing segment still ends there when its layer is completed. -/
@[simp] theorem last_current_closeLayer (b : Builder) :
    b.closeLayer.current.last = b.current.last := rfl

/-- The growing segment ends in the same place behind a layer marker. -/
theorem last_current_mark (b : Builder) (marker : Bool) :
    (b.applyAll (if marker then [.closeLayer] else [])).current.last = b.current.last := by
  cases marker with
  | false => rfl
  | true => exact b.last_current_closeLayer

/-- The layers of a toolpath: the complete ones, and the one being filled. -/
theorem toList_layers (b : Builder) : b.layers.toList = b.closed.toList ++ [b.openLayer] := by
  rw [layers, Array.toList_push]

/-- The segments of the layer being filled: the complete ones, and the growing one. -/
theorem toList_segments_openLayer (b : Builder) :
    b.openLayer.segments.toList = b.finished.toList ++ [b.current] := by
  rw [openLayer, Array.toList_push]

end Builder

namespace Segment

/-- A segment is continued by the moves of its own kind and path type. -/
theorem accepts_iff {s : Segment} {kind : MoveKind} {pathType : PathType} :
    s.accepts kind pathType ↔ s.kind = kind ∧ s.pathType = pathType := by
  simp only [accepts, Bool.and_eq_true, beq_iff_eq]

/-- The points of a segment end where it ends. -/
theorem getLast?_points (s : Segment) : s.points.getLast? = some s.last := by
  unfold points last
  rw [List.getLast?_cons, Array.getLast?_toList]

end Segment

namespace Builder

/-- A recorded move stands right behind the point at which the path ended. -/
theorem points_current_push (b : Builder) (kind : MoveKind) (pathType : PathType)
    (thickness : Float) (point : Point) :
    ∃ earlier, (b.push kind pathType thickness point).current.points =
      earlier ++ [b.current.last, point] := by
  by_cases h : b.current.accepts kind pathType
  · obtain ⟨earlier, hearlier⟩ := List.getLast?_eq_some_iff.mp b.current.getLast?_points
    refine ⟨earlier, ?_⟩
    rw [push_of_accepts h, Segment.points_push, hearlier, List.append_assoc]
    rfl
  · refine ⟨[], ?_⟩
    rw [push_of_not_accepts h, Segment.points_push, Segment.points_opened]
    rfl

end Builder
end PrintPath
