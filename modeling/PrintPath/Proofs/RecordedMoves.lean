import Mathlib.Data.List.Induction
import PrintPath.Proofs.Feeding
import PrintPath.Proofs.History

/-!
# The moves of a program and the points of its toolpath

A toolpath holds two sorts of points.  The seed of a segment repeats the point where
the path had got to; every other point stands for a move.  `filedMoves` reads the
second sort back, each with the place it was filed under: the index of its layer, and
the kind and path type of its segment.

`filedMoves_run` says that these are the moves of the program, one for each line that
gives one and in the order of the lines.  What is expected of a line, `movesOfLine`,
is said in terms of the texts up to the line and of the machine there, without a word
about segments and layers.

The induction is on the program, which grows at its end.  It needs no invariant of its
own: an operation on a toolpath either adds one filed move at the end or none
(`filedMoves_push`, `filedMoves_closeLayer`), whatever the toolpath is.
-/

namespace PrintPath

open GCode

/-- A recorded move, and where it was filed. -/
structure FiledMove where
  /-- The index of the layer. -/
  layer : Nat
  /-- The kind of the segment. -/
  kind : MoveKind
  /-- The path type of the segment. -/
  pathType : PathType
  point : Point

/-- The moves of a segment in the layer with the given index: its points without the
first. -/
def Segment.filedMoves (s : Segment) (layer : Nat) : List FiledMove :=
  s.points.tail.map fun point => ⟨layer, s.kind, s.pathType, point⟩

/-- The moves of a layer with the given index. -/
def Layer.filedMoves (l : Layer) (index : Nat) : List FiledMove :=
  l.segments.toList.flatMap fun s => s.filedMoves index

/-- The moves of some layers, in order. -/
def filedMoves (layers : Array Layer) : List FiledMove :=
  layers.toList.zipIdx.flatMap fun entry => entry.1.filedMoves entry.2

/-! ## What a program leads one to expect -/

/-- Whether the code of a line gives a move. -/
def IsMove (text : List Char) : Prop :=
  integer? 'G' (annotate text).code = some 0 ∨ integer? 'G' (annotate text).code = some 1

instance (text : List Char) : Decidable (IsMove text) :=
  inferInstanceAs (Decidable (_ ∨ _))

/-- The kind of the move on a line: the sign of what it drives the filament axis by, if
it names that axis. -/
def kindOfMove (m : Machine) (text : List Char) : MoveKind :=
  match number? 'E' (annotate text).code with
  | none => .travel
  | some value =>
    let change := m.filament.change m.extrusion value
    if 0.0 < change then .extrude
    else if change < 0.0 then .retract
    else .travel

/-- How many of some lines mark the start of a layer. -/
def markerCount (texts : List (List Char)) : Nat :=
  texts.countP fun text => (annotate text).layerBoundary

/-- The path type that some lines announced last. -/
def lastPathType (texts : List (List Char)) : PathType :=
  (texts.filterMap fun text => (annotate text).pathType).getLast?.getD .custom

/-- The move that a line behind some others makes, if it makes one, and where it
belongs. -/
def movesOfLine (setup : Setup) (front : List (List Char)) (text : List Char) :
    List FiledMove :=
  if IsMove text then
    [{ layer := markerCount (front ++ [text])
       kind := kindOfMove (Pass.run setup front).machine text
       pathType := lastPathType (front ++ [text])
       point := (Pass.run setup (front ++ [text])).machine.point }]
  else []

/-! ## What operations file -/

theorem Segment.filedMoves_opened (kind : MoveKind) (pathType : PathType) (thickness : Float)
    (seed : Point) (layer : Nat) :
    (Segment.opened kind pathType thickness seed).filedMoves layer = [] := rfl

/-- A point more in a segment is a move more. -/
theorem Segment.filedMoves_push (s : Segment) (point : Point) (layer : Nat) :
    (s.push point).filedMoves layer =
      s.filedMoves layer ++ [⟨layer, s.kind, s.pathType, point⟩] := by
  have htail : (s.push point).points.tail = s.points.tail ++ [point] := by
    rw [Segment.points_push]
    rfl
  unfold Segment.filedMoves
  rw [htail, List.map_append]
  rfl

namespace Builder

/-- The moves of a growing toolpath: those of the complete layers, those of the
complete segments of the layer being filled, and those of the growing segment. -/
theorem filedMoves_layers (b : Builder) :
    filedMoves b.layers =
      filedMoves b.closed ++ (b.finished.toList.flatMap fun s => s.filedMoves b.closed.size) ++
        b.current.filedMoves b.closed.size := by
  unfold filedMoves
  rw [toList_layers, List.zipIdx_append, List.flatMap_append, List.append_assoc]
  congr 1
  rw [List.zipIdx_singleton, List.flatMap_singleton, Nat.zero_add, Array.length_toList]
  unfold Layer.filedMoves
  rw [toList_segments_openLayer, List.flatMap_append, List.flatMap_singleton]

/-- **Recording a move files one move**, in the layer being filled and under its own
kind and path type. -/
theorem filedMoves_push (b : Builder) (kind : MoveKind) (pathType : PathType)
    (thickness : Float) (point : Point) :
    filedMoves (b.push kind pathType thickness point).layers =
      filedMoves b.layers ++ [⟨b.closed.size, kind, pathType, point⟩] := by
  by_cases h : b.current.accepts kind pathType
  · obtain ⟨hkind, htype⟩ := Segment.accepts_iff.mp h
    rw [push_of_accepts h, filedMoves_layers, filedMoves_layers, Segment.filedMoves_push, hkind,
      htype, List.append_assoc _ (b.current.filedMoves _)]
  · rw [push_of_not_accepts h, filedMoves_layers, filedMoves_layers, Array.toList_push,
      List.flatMap_append, List.flatMap_singleton, Segment.filedMoves_push,
      Segment.filedMoves_opened, List.nil_append, ← List.append_assoc]
    rfl

/-- **Completing a layer files nothing.**  The continuation in the new layer has a seed
only. -/
theorem filedMoves_closeLayer (b : Builder) :
    filedMoves b.closeLayer.layers = filedMoves b.layers := by
  rw [filedMoves_layers b.closeLayer]
  show filedMoves b.layers ++ [] ++ [] = filedMoves b.layers
  rw [List.append_nil, List.append_nil]

/-- A layer marker files nothing. -/
theorem filedMoves_mark (b : Builder) (marker : Bool) :
    filedMoves (b.applyAll (if marker then [.closeLayer] else [])).layers =
      filedMoves b.layers := by
  cases marker with
  | false => rfl
  | true => exact filedMoves_closeLayer b

end Builder

/-! ## The state of a run that decides where a move is filed -/

theorem markerCount_concat (front : List (List Char)) (text : List Char) :
    markerCount (front ++ [text]) =
      markerCount front + if (annotate text).layerBoundary then 1 else 0 := by
  unfold markerCount
  rw [List.countP_append, List.countP_singleton]

/-- A line that announces a path type replaces the one announced before. -/
theorem lastPathType_concat (front : List (List Char)) (text : List Char) :
    lastPathType (front ++ [text]) = (annotate text).pathType.getD (lastPathType front) := by
  unfold lastPathType
  rw [List.filterMap_append]
  cases h : (annotate text).pathType with
  | none =>
    have hnone : [text].filterMap (fun text => (annotate text).pathType) = [] :=
      List.filterMap_cons_none h
    rw [hnone, List.append_nil, Option.getD_none]
  | some announced =>
    have hsome : [text].filterMap (fun text => (annotate text).pathType) = [announced] :=
      List.filterMap_cons_some h
    rw [hsome, List.getLast?_concat, Option.getD_some, Option.getD_some]

namespace Pass

variable (setup : Setup)

/-- As many layers are complete as markers were met. -/
theorem size_closed_run (texts : List (List Char)) :
    (run setup texts).builder.closed.size = markerCount texts := by
  induction texts using List.reverseRecOn with
  | nil => rfl
  | append_singleton front text ih =>
    rw [run_concat, size_closed_feed, markerCount_concat, ih]
    rfl

/-- The path type of the machine is the one that was announced last. -/
theorem pathType_run (texts : List (List Char)) :
    (run setup texts).machine.pathType = lastPathType texts := by
  induction texts using List.reverseRecOn with
  | nil => rfl
  | append_singleton front text ih =>
    rw [run_concat, machine_feed, Machine.pathType_after, ih, lastPathType_concat]
    rfl

end Pass

/-! ## The moves of a run -/

/-- A line whose code gives a move gives that command. -/
theorem command_of_isMove {text : List Char} (h : IsMove text) :
    (Line.read text).command = some (.move (axisNumbers (annotate text).code)
      (number? 'E' (annotate text).code) (number? 'F' (annotate text).code)) := by
  show Command.read? (annotate text).code = _
  unfold Command.read?
  rcases h with h | h
  all_goals
    rw [h]
    rfl

/-- Behind a line whose code gives a move the machine has made it. -/
theorem Machine.after_of_isMove (m : Machine) (setup : Setup) {text : List Char}
    (h : IsMove text) :
    m.after setup (Line.read text) =
      (m.ready setup (Line.read text)).move setup.rule (axisNumbers (annotate text).code)
        (number? 'E' (annotate text).code) (number? 'F' (annotate text).code) := by
  unfold Machine.after
  rw [command_of_isMove h]
  rfl

/-- Only `G0` and `G1` are moves. -/
theorem ofG_ne_move {g : Int} (h : ¬ (g = 0 ∨ g = 1)) (code : List Char)
    (target : Axes (Option Float)) (extrusion feedRate : Option Float) :
    Command.ofG g code ≠ .move target extrusion feedRate := by
  unfold Command.ofG
  rw [if_neg h]
  repeat' split
  all_goals simp

theorem ofM_ne_move (m : Int) (code : List Char) (target : Axes (Option Float))
    (extrusion feedRate : Option Float) :
    Command.ofM m code ≠ .move target extrusion feedRate := by
  unfold Command.ofM
  repeat' split
  all_goals simp

/-- A line whose code gives no move has no such command. -/
theorem command_of_not_isMove {text : List Char} (h : ¬ IsMove text)
    (target : Axes (Option Float)) (extrusion feedRate : Option Float) :
    (Line.read text).command ≠ some (.move target extrusion feedRate) := by
  show Command.read? (annotate text).code ≠ _
  unfold Command.read?
  cases hg : integer? 'G' (annotate text).code with
  | some g =>
    have hne : ¬ (g = 0 ∨ g = 1) := by
      rintro (rfl | rfl)
      · exact h (Or.inl hg)
      · exact h (Or.inr hg)
    intro heq
    exact ofG_ne_move hne _ _ _ _ (Option.some.inj heq)
  | none =>
    intro heq
    obtain ⟨m, -, hm⟩ := Option.map_eq_some_iff.mp heq
    exact ofM_ne_move m _ _ _ _ hm

/-- The sign rule for the kind of a move is the machine's. -/
theorem moveKind_eq_kindOfMove (m : Machine) (text : List Char) :
    m.moveKind (number? 'E' (annotate text).code) = kindOfMove m text := by
  unfold Machine.moveKind Machine.filamentChange kindOfMove
  cases number? 'E' (annotate text).code with
  | none => rfl
  | some value => rfl

/-- A line whose code gives no move records nothing. -/
theorem recorded_of_not_isMove {text : List Char} (h : ¬ IsMove text) (m : Machine)
    (rule : ThicknessRule) : m.recorded rule (Line.read text).command = [] := by
  unfold Machine.recorded
  split
  · next hcommand => exact absurd hcommand (command_of_not_isMove h _ _ _)
  · rfl

namespace Pass

variable (setup : Setup)

/-- **A move is recorded behind the marker of its line**, with the path type and the thickness
that the machine has behind the line. -/
theorem builder_feed_of_isMove (pass : Pass) {text : List Char} (h : IsMove text) :
    (pass.feed setup (Line.read text)).builder =
      (pass.builder.applyAll (if (annotate text).layerBoundary then [.closeLayer] else [])).push
        (kindOfMove pass.machine text)
        (pass.feed setup (Line.read text)).machine.pathType
        (pass.feed setup (Line.read text)).machine.thickness
        (pass.feed setup (Line.read text)).machine.point := by
  rw [builder_feed, machine_feed, Machine.operations, Builder.applyAll_append, Machine.after,
    command_of_isMove h, ← moveKind_eq_kindOfMove,
    ← Machine.moveKind_ready pass.machine setup (Line.read text)]
  rfl

/-- A line without a move does to the toolpath what its marker does. -/
theorem builder_feed_of_not_isMove (pass : Pass) {text : List Char} (h : ¬ IsMove text) :
    (pass.feed setup (Line.read text)).builder =
      pass.builder.applyAll (if (annotate text).layerBoundary then [.closeLayer] else []) := by
  rw [builder_feed, Machine.operations, recorded_of_not_isMove h, List.append_nil]
  rfl

/-- **One line files the move it makes, and a line that makes none files nothing.** -/
theorem filedMoves_run_concat (front : List (List Char)) (text : List Char) :
    filedMoves (run setup (front ++ [text])).builder.layers =
      filedMoves (run setup front).builder.layers ++ movesOfLine setup front text := by
  have hsize := size_closed_run setup (front ++ [text])
  have htype := pathType_run setup (front ++ [text])
  unfold movesOfLine
  rw [run_concat] at hsize htype ⊢
  by_cases h : IsMove text
  · rw [if_pos h, builder_feed_of_isMove setup _ h, Builder.filedMoves_push,
      Builder.filedMoves_mark, ← hsize, ← htype, builder_feed_of_isMove setup _ h,
      Builder.closed_push]
  · rw [if_neg h, List.append_nil, builder_feed_of_not_isMove setup _ h, Builder.filedMoves_mark]

/-- **No move is lost, repeated, moved or filed in the wrong place.**  The points of a
toolpath other than the seeds are, in order, the moves of the program: each the
machine's point behind its line, in the layer with the number of the markers met so
far, in a segment of the move's kind and of the path type announced last. -/
theorem filedMoves_run (texts : List (List Char)) :
    filedMoves (run setup texts).finish.layers = alongHistory (movesOfLine setup) texts := by
  show filedMoves (run setup texts).builder.layers = _
  induction texts using List.reverseRecOn with
  | nil => rfl
  | append_singleton front text ih =>
    rw [filedMoves_run_concat, alongHistory_concat, ih]

end Pass
end PrintPath
