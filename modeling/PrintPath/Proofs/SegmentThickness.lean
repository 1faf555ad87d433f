import PrintPath.Proofs.HeadPosition
import PrintPath.Proofs.LayerThickness

/-!
# The thickness of the segments that moves open

A segment that does not start a layer was opened by a move, and it has the thickness that was in
force then.  Which one that is goes back to an earlier line, or to the line of the move itself:
the last one that travelled to another height (`lastHeightChange`).  The heights are those of the
head before and behind the line, whatever offsets and units there are, and the thickness is what
the rule makes of them.  Before the first such line it is 0.1 mm.

`Pass.openedSegments_run` says so of all segments that moves open, one for each line that turns
from the heading of the move before, in the order of the lines.  It also says, line by line, that
only a travel to another height sets the thickness in force.  So neither do moves that feed
filament or pull it back while they rise, nor homing, new coordinates, units, modes, tools and
layer markers.
-/

namespace PrintPath

open GCode

/-- A segment that a move opened, and where it was filed. -/
structure OpenedSegment where
  /-- The index of the layer. -/
  layer : Nat
  kind : MoveKind
  pathType : PathType
  thickness : Float
  /-- Where it starts. -/
  seed : Point

/-- The segments of a layer with the given index that moves opened: all but the first. -/
def Layer.opened (l : Layer) (index : Nat) : List OpenedSegment :=
  l.segments.toList.tail.map fun s => ⟨index, s.kind, s.pathType, s.thickness, s.seed⟩

/-- The segments of some layers that moves opened, in order. -/
def openedSegments (layers : Array Layer) : List OpenedSegment :=
  layers.toList.zipIdx.flatMap fun entry => entry.1.opened entry.2

/-! ## What a program leads one to expect -/

/-- A travel from one height to another. -/
structure HeightChange where
  old : Float
  new : Float
  deriving DecidableEq

/-- The travel to another height that a line behind some others makes, if it makes one. -/
def heightChangesOfLine (setup : Setup) (front : List (List Char)) (text : List Char) :
    List HeightChange :=
  if ChangesHeight setup (Pass.run setup front).machine text then
    [⟨(Pass.run setup front).machine.position.z,
      (Pass.run setup (front ++ [text])).machine.position.z⟩]
  else []

/-- The last travel of a program to another height. -/
def lastHeightChange (setup : Setup) (texts : List (List Char)) : Option HeightChange :=
  (alongHistory (heightChangesOfLine setup) texts).getLast?

/-- The thickness that a travel to another height implies, and 0.1 mm if there was none. -/
def ThicknessRule.implied (rule : ThicknessRule) : Option HeightChange → Float
  | none => 0.1
  | some change => rule.thickness change.old change.new

/-- The thickness in force behind a program. -/
def thicknessInForce (setup : Setup) (texts : List (List Char)) : Float :=
  setup.rule.implied (lastHeightChange setup texts)

/-- The segment that a line behind some others opens, if it opens one. -/
def openedByLine (setup : Setup) (front : List (List Char)) (text : List Char) :
    List OpenedSegment :=
  if Opens setup front text then
    [{ layer := markerCount (front ++ [text])
       kind := kindOfMove (Pass.run setup front).machine text
       pathType := lastPathType (front ++ [text])
       thickness := thicknessInForce setup (front ++ [text])
       seed := (Pass.run setup front).lastPoint }]
  else []

/-! ## The thickness in force -/

theorem lastHeightChange_concat (setup : Setup) (front : List (List Char)) (text : List Char) :
    lastHeightChange setup (front ++ [text]) =
      if ChangesHeight setup (Pass.run setup front).machine text then
        some ⟨(Pass.run setup front).machine.position.z,
          (Pass.run setup (front ++ [text])).machine.position.z⟩
      else lastHeightChange setup front := by
  unfold lastHeightChange
  rw [getLast?_alongHistory_concat, heightChangesOfLine]
  split <;> rfl

/-- Only a travel to another height sets the thickness in force. -/
theorem thicknessInForce_concat (setup : Setup) (front : List (List Char)) (text : List Char) :
    thicknessInForce setup (front ++ [text]) =
      if ChangesHeight setup (Pass.run setup front).machine text then
        setup.rule.thickness (Pass.run setup front).machine.position.z
          (Pass.run setup (front ++ [text])).machine.position.z
      else thicknessInForce setup front := by
  unfold thicknessInForce
  rw [lastHeightChange_concat]
  split <;> rfl

/-- The thickness in force is that of the machine. -/
theorem Pass.thickness_run (setup : Setup) (texts : List (List Char)) :
    (run setup texts).machine.thickness = thicknessInForce setup texts := by
  induction texts using List.reverseRecOn with
  | nil => rfl
  | append_singleton front text ih =>
    rw [thicknessInForce_concat, ← ih, run_concat, machine_feed, Machine.thickness_after]

/-! ## What operations open -/

namespace Builder

/-- The opened segments of a growing toolpath: those of the complete layers, and those of the
layer being filled. -/
theorem openedSegments_layers (b : Builder) :
    openedSegments b.layers =
      openedSegments b.closed ++ b.openLayer.opened b.closed.size := by
  unfold openedSegments
  rw [toList_layers, List.zipIdx_append, List.flatMap_append, List.zipIdx_singleton,
    List.flatMap_singleton, Nat.zero_add, Array.length_toList]

/-- **A move that turns opens a segment** with its own thickness, and no other move opens one. -/
theorem openedSegments_push (b : Builder) (kind : MoveKind) (pathType : PathType)
    (thickness : Float) (point : Point) :
    openedSegments (b.push kind pathType thickness point).layers =
      openedSegments b.layers ++
        if b.current.heading = (kind, pathType) then []
        else [⟨b.closed.size, kind, pathType, thickness, b.current.last⟩] := by
  rw [openedSegments_layers, openedSegments_layers, closed_push, List.append_assoc]
  congr 1
  unfold Layer.opened
  rw [toList_segments_openLayer, toList_segments_openLayer]
  by_cases h : b.current.accepts kind pathType
  · rw [push_of_accepts h, if_pos (Segment.accepts_iff_heading.mp h), List.append_nil]
    show (b.finished.toList ++ [b.current.push point]).tail.map _ = _
    rcases b.finished.toList with _ | ⟨first, others⟩
    · rfl
    · rw [List.cons_append, List.cons_append, List.tail_cons, List.tail_cons, List.map_append,
        List.map_append]
      rfl
  · rw [push_of_not_accepts h, if_neg fun heq => h (Segment.accepts_iff_heading.mpr heq)]
    show ((b.finished.push b.current).toList ++ [_]).tail.map _ = _
    rw [Array.toList_push, List.tail_append_of_ne_nil
      (List.append_ne_nil_of_right_ne_nil _ (List.cons_ne_nil _ _)), List.map_append]
    rfl

/-- A layer marker starts a layer, and nothing is opened by a move. -/
theorem openedSegments_mark (b : Builder) (marker : Bool) :
    openedSegments (b.applyAll (if marker then [.closeLayer] else [])).layers =
      openedSegments b.layers := by
  cases marker with
  | false => rfl
  | true =>
    show openedSegments b.closeLayer.layers = _
    rw [openedSegments_layers b.closeLayer]
    exact List.append_nil _

end Builder

/-! ## Runs -/

namespace Pass

variable (setup : Setup)

/-- One line opens the segment that it opens, and what was opened stays as it is. -/
theorem openedSegments_run_concat (front : List (List Char)) (text : List Char) :
    openedSegments (run setup (front ++ [text])).builder.layers =
      openedSegments (run setup front).builder.layers ++ openedByLine setup front text := by
  have hsize := size_closed_run setup (front ++ [text])
  have htype := pathType_run setup (front ++ [text])
  have hthickness := thickness_run setup (front ++ [text])
  unfold openedByLine
  rw [run_concat] at hsize htype hthickness ⊢
  by_cases h : IsMove text
  · rw [builder_feed_of_isMove setup _ h, Builder.closed_push] at hsize
    rw [builder_feed_of_isMove setup _ h, Builder.openedSegments_push,
      Builder.openedSegments_mark, Builder.heading_current_mark, Builder.last_current_mark,
      heading_current_run, hsize, htype, hthickness]
    congr 1
    by_cases hturns : lastHeading setup front =
      (kindOfMove (run setup front).machine text, lastPathType (front ++ [text]))
    · rw [if_pos hturns, if_neg fun hopens : Opens setup front text => hopens.2 hturns]
    · rw [if_neg hturns, if_pos (show Opens setup front text from ⟨h, hturns⟩)]
      rfl
  · rw [if_neg fun hopens : Opens setup front text => h hopens.1, List.append_nil,
      builder_feed_of_not_isMove setup _ h, Builder.openedSegments_mark]

/-- **The segments that moves open have the thickness that the last travel to another height
implies**, 0.1 mm if there was none.  Such a travel sets the thickness in force before it opens
its own segment, and no other line ever does. -/
theorem openedSegments_run :
    (∀ texts : List (List Char),
      openedSegments (run setup texts).finish.layers =
        alongHistory (openedByLine setup) texts) ∧
      (∀ texts : List (List Char),
        (run setup texts).machine.thickness = thicknessInForce setup texts) ∧
      thicknessInForce setup [] = 0.1 ∧
      ∀ (front : List (List Char)) (text : List Char),
        let old := (run setup front).machine.position.z
        let new := (run setup (front ++ [text])).machine.position.z
        thicknessInForce setup (front ++ [text]) =
          if IsMove text ∧ kindOfMove (run setup front).machine text = .travel ∧ old != new then
            setup.rule.thickness old new
          else thicknessInForce setup front := by
  refine ⟨?_, thickness_run setup, rfl, ?_⟩
  · intro texts
    show openedSegments (run setup texts).builder.layers = _
    induction texts using List.reverseRecOn with
    | nil => rfl
    | append_singleton front text ih =>
      rw [openedSegments_run_concat, alongHistory_concat, ih]
  · intro front text old new
    have hnew : new = ((run setup front).machine.after setup (Line.read text)).position.z := by
      show (run setup (front ++ [text])).machine.position.z = _
      rw [run_concat, machine_feed]
    rw [thicknessInForce_concat]
    refine if_congr ?_ rfl rfl
    rw [hnew]
    exact Iff.rfl

end Pass
end PrintPath
