import PrintPath.Proofs.Observation
import PrintPath.Proofs.RecordedMoves

/-!
# The sizes of a toolpath

A toolpath has as many layers as the program has layer markers, and one more.  How many
segments it has depends on how the kinds and the path types of the moves alternate, but with
the segments the number of points is settled: a segment has one point for each of its moves,
and one more where it starts.

So there are two sorts of counting here.

* That of points is no matter of programs.  It holds of any layers, segment by segment
  (`length_layerPoints`), and the moves in them were counted before (`filedMoves_run`).
* That of segments goes by operations.  A move opens one segment at most, a layer marker
  opens one layer and one segment in it, and so there are never fewer segments than layers
  and never more than layers and moves (`Balanced`).

A layer marker is also where an observer is asked.  `state_take_recording` says that it is
asked there and nowhere else.
-/

namespace PrintPath

open GCode

/-- The segments of some layers. -/
def layerSegments (layers : Array Layer) : List Segment :=
  layers.toList.flatMap fun l => l.segments.toList

/-- How many of some lines give a move. -/
def moveCount (texts : List (List Char)) : Nat :=
  texts.countP fun text => IsMove text

/-- The state of the observer behind a line. -/
def Turn.state {σ : Type} : Turn σ → σ
  | proceeds _ _ state => state
  | ended reading => reading.state

/-! ## Points -/

theorem Segment.length_points (s : Segment) (layer : Nat) :
    s.points.length = 1 + (s.filedMoves layer).length := by
  unfold filedMoves
  rw [List.length_map, List.length_tail]
  exact (Nat.add_sub_cancel' (Nat.succ_pos _)).symm

/-- In a list of segments there is a point for each segment and one for each move. -/
theorem length_flatMap_points (segments : List Segment) (layer : Nat) :
    (segments.flatMap Segment.points).length =
      segments.length + (segments.flatMap fun s => s.filedMoves layer).length := by
  induction segments with
  | nil => rfl
  | cons s segments ih =>
    simp only [List.flatMap_cons, List.length_append, List.length_cons, ih,
      s.length_points layer]
    omega

/-- **In layers there is a point for each segment and one for each move.**  The induction
is on the layers, of which the first has any index. -/
theorem length_layerPoints (layers : Array Layer) :
    (layers.toList.flatMap Layer.points).length =
      (layerSegments layers).length + (filedMoves layers).length := by
  unfold layerSegments filedMoves
  generalize layers.toList = layers, 0 = index
  induction layers generalizing index with
  | nil => rfl
  | cons l layers ih =>
    have hfirst : l.points.length = l.segments.toList.length + (l.filedMoves index).length :=
      length_flatMap_points l.segments.toList index
    simp only [List.zipIdx_cons, List.flatMap_cons, List.length_append, ih (index + 1), hfirst]
    omega

/-! ## Segments -/

namespace Builder

/-- There is a segment for each layer, and no more than one further segment for each
move. -/
structure Balanced (b : Builder) : Prop where
  layers_le : b.layers.size ≤ (layerSegments b.layers).length
  le_moves : (layerSegments b.layers).length ≤ b.layers.size + (filedMoves b.layers).length

theorem size_layers (b : Builder) : b.layers.size = b.closed.size + 1 := by
  rw [layers, Array.size_push]

/-- The segments of a growing toolpath: those of the complete layers, the complete ones of
the layer being filled, and the growing one. -/
theorem layerSegments_layers (b : Builder) :
    layerSegments b.layers = layerSegments b.closed ++ (b.finished.toList ++ [b.current]) := by
  unfold layerSegments
  rw [toList_layers, List.flatMap_append, List.flatMap_singleton, toList_segments_openLayer]

theorem length_layerSegments (b : Builder) :
    (layerSegments b.layers).length =
      (layerSegments b.closed).length + b.finished.size + 1 := by
  rw [layerSegments_layers]
  simp only [List.length_append, List.length_singleton, Array.length_toList, Nat.add_assoc]

/-- A move opens one segment at most. -/
theorem length_layerSegments_push (b : Builder) (kind : MoveKind) (pathType : PathType)
    (thickness : Float) (point : Point) :
    (layerSegments b.layers).length ≤
        (layerSegments (b.push kind pathType thickness point).layers).length ∧
      (layerSegments (b.push kind pathType thickness point).layers).length ≤
        (layerSegments b.layers).length + 1 := by
  rw [length_layerSegments, length_layerSegments, closed_push]
  by_cases h : b.current.accepts kind pathType
  · rw [push_of_accepts h]
    exact ⟨Nat.le_refl _, Nat.le_succ _⟩
  · rw [push_of_not_accepts h, Array.size_push]
    omega

/-- A layer marker opens one segment. -/
theorem length_layerSegments_closeLayer (b : Builder) :
    (layerSegments b.closeLayer.layers).length = (layerSegments b.layers).length + 1 :=
  length_layerSegments b.closeLayer

/-- **Every operation keeps segments, layers and moves in balance.** -/
theorem balanced_apply (b : Builder) (operation : Operation) (h : b.Balanced) :
    (b.apply operation).Balanced := by
  obtain ⟨hlayers, hmoves⟩ := h
  cases operation with
  | push kind pathType thickness point =>
    obtain ⟨hleast, hmost⟩ := b.length_layerSegments_push kind pathType thickness point
    have hsize : (b.push kind pathType thickness point).layers.size = b.layers.size := by
      rw [size_layers, size_layers, closed_push]
    have hfiled : (filedMoves (b.push kind pathType thickness point).layers).length =
        (filedMoves b.layers).length + 1 := by
      rw [filedMoves_push, List.length_append, List.length_singleton]
    constructor
    · show (b.push kind pathType thickness point).layers.size ≤ _
      rw [hsize]
      exact Nat.le_trans hlayers hleast
    · show _ ≤ (b.push kind pathType thickness point).layers.size + _
      rw [hsize]
      show _ ≤ _ + (filedMoves (b.push kind pathType thickness point).layers).length
      rw [hfiled]
      exact Nat.le_trans hmost (Nat.succ_le_succ hmoves)
  | closeLayer =>
    have hsegments := b.length_layerSegments_closeLayer
    have hsize : b.closeLayer.layers.size = b.layers.size + 1 :=
      size_layers b.closeLayer
    have hfiled : (filedMoves b.closeLayer.layers).length = (filedMoves b.layers).length := by
      rw [filedMoves_closeLayer]
    constructor
    · show b.closeLayer.layers.size ≤ (layerSegments b.closeLayer.layers).length
      omega
    · show (layerSegments b.closeLayer.layers).length ≤
        b.closeLayer.layers.size + (filedMoves b.closeLayer.layers).length
      omega

end Builder

/-! ## Runs -/

namespace Pass

variable (setup : Setup)

/-- **A toolpath has a recorded move for each move of its program.** -/
theorem length_filedMoves_run (texts : List (List Char)) :
    (filedMoves (run setup texts).builder.layers).length = moveCount texts := by
  induction texts using List.reverseRecOn with
  | nil => rfl
  | append_singleton front text ih =>
    unfold moveCount at ih ⊢
    rw [filedMoves_run_concat, List.length_append, ih, List.countP_append, List.countP_singleton]
    unfold movesOfLine
    by_cases h : IsMove text <;> simp [h]

theorem balanced_start : start.builder.Balanced :=
  ⟨Nat.le_refl 1, Nat.le_refl 1⟩

/-- Segments, layers and moves of a program are in balance. -/
theorem balanced_run (texts : List (List Char)) : (run setup texts).builder.Balanced :=
  builder_feedAll (P := Builder.Balanced) setup Builder.balanced_apply balanced_start _

/-- **An observer is asked at layer markers and nowhere else.** -/
theorem state_take_recording {σ : Type} (total : Nat) (observer : Observer σ) (pass : Pass)
    (consumed : Nat) (state : σ) (calls : List Float) (piece : Piece) :
    (pass.take setup total observer.recording consumed (state, calls) piece).state.2 =
      if (annotate piece.text).layerBoundary then
        calls ++ [fraction (consumed + piece.size) total]
      else calls := by
  show _ = if (Line.read piece.text).layerBoundary then _ else _
  unfold take
  simp only
  split
  · split <;> rfl
  · rfl

end Pass

/-- **The sizes of a toolpath.**  There is one layer more than there are layer markers, a
point for each segment and each move, at least one segment for each layer and at most one
more for each move.  At a layer marker, and at no other line, a layer is completed and the
observer is asked. -/
theorem summary_reading (setup : Setup) :
    (∀ lines : List String, ∃ t : Toolpath,
      (readLines setup .silent () lines).outcome = .completed t ∧
        t.summary.layers = 1 + markerCount (lines.map String.toList) ∧
        t.summary.points = t.summary.segments + moveCount (lines.map String.toList) ∧
        t.summary.layers ≤ t.summary.segments ∧
        t.summary.segments ≤ t.summary.layers + moveCount (lines.map String.toList) ∧
        t.summary.diagnostics = t.diagnostics.toList.length) ∧
      (∀ (pass : Pass) (text : List Char),
        (pass.feed setup (Line.read text)).builder.closed.size =
          pass.builder.closed.size + if (annotate text).layerBoundary then 1 else 0) ∧
      ∀ (σ : Type) (observer : Observer σ) (pass : Pass) (total consumed : Nat) (state : σ)
        (calls : List Float) (piece : Piece),
        (pass.take setup total observer.recording consumed (state, calls) piece).state.2 =
          if (annotate piece.text).layerBoundary then
            calls ++ [fraction (consumed + piece.size) total]
          else calls := by
  refine ⟨?_, ?_, ?_⟩
  · intro lines
    refine ⟨_, outcome_readLines_silent setup lines, ?_⟩
    generalize lines.map String.toList = texts
    have hlayers : (Pass.run setup texts).builder.layers.size = 1 + markerCount texts := by
      rw [Builder.size_layers, Pass.size_closed_run, Nat.add_comm]
    have hmoves := Pass.length_filedMoves_run setup texts
    obtain ⟨hleast, hmost⟩ := Pass.balanced_run setup texts
    rw [hmoves] at hmost
    refine ⟨hlayers, ?_, hleast, hmost, rfl⟩
    rw [← hmoves]
    exact length_layerPoints _
  · intro pass text
    exact Pass.size_closed_feed setup pass (Line.read text)
  · intro σ observer pass total consumed state calls piece
    exact Pass.state_take_recording setup total observer pass consumed state calls piece

end PrintPath
