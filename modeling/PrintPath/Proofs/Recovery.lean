import Mathlib.Data.List.Induction
import PrintPath.Proofs.LayerThickness

/-!
# A toolpath tells how it was made

A builder is told of moves and of layer markers, and gives back layers of segments.  The two
forms say the same.  A segment stands for the moves that were recorded in it, and between two
layers there was a marker, so that what the builder was told can be read back from what it gives
(`readBack`).  A seed is no move and is not read; so a segment without moves, with which a layer
begins that has not been moved in, tells nothing.

Only the thickness of a move is not always kept.  The first move of a segment gives it to the
segment, and the other ones find it settled.  The first segment of a layer was not opened by a
move at all, but by the marker in front of it, and has the thickness of the segment in front.
What is read back of a move has therefore a thickness in some cases and in others none, and
`readBack_applyAll` says in which: a thickness is read where the move turned from the heading of
the move before, and then it is the one that the move was given.

The induction is on the operations, which grow at their end.  An operation adds one event behind
those that were read (`readBack_push`, `readBack_closeLayer`).  For that it has to be known that a
segment behind the first one of its layer has moves already (`Layer.Eventful`), since otherwise
the thickness would be read again, from a move that did not open it.
-/

namespace PrintPath

/-- What can be read back of an operation on a toolpath. -/
inductive Builder.Event where
  /-- A move, and the thickness that it opened a segment with, if it did. -/
  | move (kind : MoveKind) (pathType : PathType) (opener : Option Float) (point : Point)
  /-- A layer marker. -/
  | marker

namespace Builder

/-- An event without a thickness. -/
def Event.bare : Event → Event
  | .move kind pathType _ point => .move kind pathType none point
  | .marker => .marker

/-- An operation without its thickness, as an event. -/
def Operation.bare : Operation → Event
  | .push kind pathType _ point => .move kind pathType none point
  | .closeLayer => .marker

/-- The kind and the path type of a move. -/
def Operation.heading? : Operation → Option (MoveKind × PathType)
  | .push kind pathType _ _ => some (kind, pathType)
  | .closeLayer => none

/-- The heading of the last of some moves.  A toolpath starts as if the head had travelled to its
origin. -/
def lastHeadingOf (operations : List Operation) : MoveKind × PathType :=
  (operations.filterMap Operation.heading?).getLast?.getD (.travel, .custom)

/-- What one expects to read of an operation behind some others: all of a move that turns from
the heading of the move before, and of any other one all but the thickness. -/
def eventsOf (front : List Operation) : Operation → List Event
  | .push kind pathType thickness point =>
    [.move kind pathType
      (if lastHeadingOf front = (kind, pathType) then none else some thickness) point]
  | .closeLayer => [.marker]

end Builder

open Builder

/-! ## Reading layers -/

/-- The moves of a segment, of which the first one opened it with a thickness or did not. -/
def Segment.events (s : Segment) (opener : Option Float) : List Event :=
  match s.points.tail with
  | [] => []
  | first :: others =>
    .move s.kind s.pathType opener first :: others.map (.move s.kind s.pathType none)

/-- The moves of the segments of a layer.  The first segment was not opened by a move, and each
other one was. -/
def segmentEvents : List Segment → List Event
  | [] => []
  | first :: others =>
    first.events none ++ others.flatMap fun s => s.events (some s.thickness)

/-- What is read back from layers: the moves of each, and a marker between two of them. -/
def readBack (layers : List Layer) : List Event :=
  List.intercalate [.marker] (layers.map fun l => segmentEvents l.segments.toList)

/-- The thickness of the last segment of a layer. -/
def Layer.endThickness? (l : Layer) : Option Float :=
  l.segments.toList.getLast?.map Segment.thickness

/-- Each segment of a layer but the first one has a move, the one that opened it. -/
def Layer.Eventful (l : Layer) : Prop :=
  ∀ s ∈ l.segments.toList.tail, s.moves.toList ≠ []

/-- A move more in a segment is an event more. -/
theorem Segment.events_push (s : Segment) (opener : Option Float) (point : Point) :
    (s.push point).events opener =
      s.events opener ++
        [.move s.kind s.pathType (if s.moves.toList = [] then opener else none) point] := by
  have htail : (s.push point).points.tail = s.moves.toList ++ [point] := by
    rw [points_push]
    rfl
  unfold events
  rw [htail]
  show _ = (match s.moves.toList with
    | [] => []
    | first :: others => _) ++ _
  cases s.moves.toList with
  | nil => rfl
  | cons first others =>
    rw [if_neg (List.cons_ne_nil first others)]
    exact congrArg (_ :: ·) List.map_append

/-- Segments behind others were opened by moves. -/
theorem segmentEvents_append {front : List Segment} (h : front ≠ []) (back : List Segment) :
    segmentEvents (front ++ back) =
      segmentEvents front ++ back.flatMap fun s => s.events (some s.thickness) := by
  obtain ⟨first, others, rfl⟩ := List.exists_cons_of_ne_nil h
  show first.events none ++ (others ++ back).flatMap _ = (first.events none ++ _) ++ _
  rw [List.flatMap_append, List.append_assoc]

theorem segmentEvents_concat {front : List Segment} (h : front ≠ []) (s : Segment) :
    segmentEvents (front ++ [s]) = segmentEvents front ++ s.events (some s.thickness) := by
  rw [segmentEvents_append h, List.flatMap_singleton]

/-- In front of other lists, each list has a separator behind it. -/
theorem intercalate_append_cons {α : Type} (separator : List α) (front : List (List α))
    (next : List α) (back : List (List α)) :
    separator.intercalate (front ++ next :: back) =
      (front.flatMap fun part => part ++ separator) ++
        separator.intercalate (next :: back) := by
  induction front with
  | nil => rfl
  | cons first front ih =>
    rw [List.cons_append, List.intercalate_cons_of_ne_nil
      (List.append_ne_nil_of_right_ne_nil front (List.cons_ne_nil next back)), ih,
      List.flatMap_cons, List.append_assoc (first ++ separator)]

/-- The layers in front of another one are read with a marker behind each. -/
theorem readBack_append_cons (before : List Layer) (l : Layer) (after : List Layer) :
    readBack (before ++ l :: after) =
      (before.flatMap fun l => segmentEvents l.segments.toList ++ [.marker]) ++
        readBack (l :: after) := by
  unfold readBack
  rw [List.map_append, List.map_cons, intercalate_append_cons, List.flatMap_map]

theorem readBack_concat (front : List Layer) (last : Layer) :
    readBack (front ++ [last]) =
      (front.flatMap fun l => segmentEvents l.segments.toList ++ [.marker]) ++
        segmentEvents last.segments.toList := by
  rw [readBack_append_cons]
  exact congrArg (_ ++ ·) List.intercalate_singleton

/-- Of some layers the first one is read first. -/
theorem exists_readBack_cons (l : Layer) (after : List Layer) :
    ∃ late, readBack (l :: after) = segmentEvents l.segments.toList ++ late := by
  cases after with
  | nil => exact ⟨[], List.intercalate_singleton.trans (List.append_nil _).symm⟩
  | cons next after =>
    exact ⟨_, List.intercalate_cons_cons.trans (List.append_assoc _ _ _)⟩

/-- **The first move of a segment that does not start a layer** is read behind all segments in
front of it, with the thickness of the segment. -/
theorem exists_readBack_eq (before after : List Layer) {l : Layer} {earlier later : List Segment}
    {s : Segment} {point : Point} {others : List Point}
    (hsegments : l.segments.toList = earlier ++ s :: later) (hearlier : earlier ≠ [])
    (hmoves : s.moves.toList = point :: others) :
    ∃ late, readBack (before ++ l :: after) =
      readBack (before ++ [⟨earlier.toArray⟩]) ++
        .move s.kind s.pathType (some s.thickness) point :: late := by
  obtain ⟨late, hlate⟩ := exists_readBack_cons l after
  have hevents : s.events (some s.thickness) =
      .move s.kind s.pathType (some s.thickness) point ::
        others.map (.move s.kind s.pathType none) := by
    unfold Segment.events
    show (match s.moves.toList with
      | [] => []
      | first :: others => _) = _
    rw [hmoves]
  refine ⟨others.map (.move s.kind s.pathType none) ++
    (later.flatMap fun t => t.events (some t.thickness)) ++ late, ?_⟩
  rw [readBack_append_cons, hlate, hsegments, segmentEvents_append hearlier, List.flatMap_cons,
    hevents, readBack_concat]
  simp only [List.append_assoc, List.cons_append]

namespace Builder

/-! ## One operation more -/

/-- Behind a move the segments of the layer being filled have moves, but perhaps the first. -/
theorem eventful_push {b : Builder} (h : b.openLayer.Eventful) (kind : MoveKind)
    (pathType : PathType) (thickness : Float) (point : Point) :
    (b.push kind pathType thickness point).openLayer.Eventful := by
  unfold Layer.Eventful at h ⊢
  rw [toList_segments_openLayer] at h ⊢
  have hpushed (s : Segment) : (s.push point).moves.toList ≠ [] := by
    show (s.moves.push point).toList ≠ []
    rw [Array.toList_push]
    exact List.append_ne_nil_of_right_ne_nil _ (List.cons_ne_nil _ _)
  by_cases haccepts : b.current.accepts kind pathType
  · rw [push_of_accepts haccepts]
    show ∀ s ∈ (b.finished.toList ++ [b.current.push point]).tail, _
    by_cases hfirst : b.finished.toList = []
    · rw [hfirst]
      exact fun s hs => absurd hs List.not_mem_nil
    · rw [List.tail_append_of_ne_nil hfirst] at h ⊢
      intro s hs
      rcases List.mem_append.mp hs with hfront | hlast
      · exact h s (List.mem_append_left _ hfront)
      · rw [List.mem_singleton.mp hlast]
        exact hpushed b.current
  · rw [push_of_not_accepts haccepts]
    show ∀ s ∈ ((b.finished.push b.current).toList ++
      [(Segment.opened kind pathType thickness b.current.last).push point]).tail, _
    rw [Array.toList_push, List.tail_append_of_ne_nil
      (List.append_ne_nil_of_right_ne_nil _ (List.cons_ne_nil _ _))]
    intro s hs
    rcases List.mem_append.mp hs with hfront | hlast
    · exact h s hfront
    · rw [List.mem_singleton.mp hlast]
      exact hpushed _

/-- **A move is read back behind what was read before it**, with its thickness if it turns. -/
theorem readBack_push {b : Builder} (h : b.openLayer.Eventful) (kind : MoveKind)
    (pathType : PathType) (thickness : Float) (point : Point) :
    readBack (b.push kind pathType thickness point).layers.toList =
      readBack b.layers.toList ++
        [.move kind pathType
          (if b.current.heading = (kind, pathType) then none else some thickness) point] := by
  unfold Layer.Eventful at h
  rw [toList_segments_openLayer] at h
  rw [toList_layers, toList_layers, closed_push, readBack_concat, readBack_concat,
    List.append_assoc, toList_segments_openLayer, toList_segments_openLayer]
  congr 1
  by_cases haccepts : b.current.accepts kind pathType
  · have hheading := Segment.accepts_iff_heading.mp haccepts
    obtain ⟨hkind, htype⟩ := Segment.accepts_iff.mp haccepts
    rw [push_of_accepts haccepts, if_pos hheading]
    show segmentEvents (b.finished.toList ++ [b.current.push point]) = _
    by_cases hfirst : b.finished.toList = []
    · -- the first segment of its layer tells no thickness
      rw [hfirst]
      show (b.current.push point).events none ++ [] = (b.current.events none ++ []) ++ _
      rw [List.append_nil, List.append_nil, Segment.events_push, ite_self, hkind, htype]
    · -- any other one has told it with its first move
      have hmoves : b.current.moves.toList ≠ [] := by
        rw [List.tail_append_of_ne_nil hfirst] at h
        exact h b.current (List.mem_append_right _ List.mem_cons_self)
      rw [segmentEvents_concat hfirst, segmentEvents_concat hfirst, Segment.events_push,
        if_neg hmoves, hkind, htype, List.append_assoc]
      rfl
  · have hheading : b.current.heading ≠ (kind, pathType) :=
      fun heq => haccepts (Segment.accepts_iff_heading.mpr heq)
    rw [push_of_not_accepts haccepts, if_neg hheading]
    show segmentEvents ((b.finished.push b.current).toList ++ [_]) = _
    rw [Array.toList_push, segmentEvents_concat
      (List.append_ne_nil_of_right_ne_nil _ (List.cons_ne_nil _ _)), Segment.events_push]
    rfl

/-- **A layer marker is read back behind what was read before it.** -/
theorem readBack_closeLayer (b : Builder) :
    readBack b.closeLayer.layers.toList = readBack b.layers.toList ++ [.marker] := by
  rw [toList_layers b.closeLayer, closed_closeLayer, Array.toList_push, readBack_concat,
    toList_layers b, readBack_concat, List.flatMap_append, List.flatMap_singleton,
    ← List.append_assoc]
  exact List.append_nil _

/-- The layers of a toolpath, each one starting with the thickness that the one before it ends
with. -/
theorem startThickness_closeLayer (b : Builder) :
    b.closeLayer.layers.toList.map Layer.startThickness? =
      b.layers.toList.map Layer.startThickness? ++ [b.openLayer.endThickness?] := by
  have hend : b.openLayer.endThickness? = some b.current.thickness := by
    unfold Layer.endThickness?
    rw [toList_segments_openLayer, List.getLast?_concat]
    rfl
  rw [hend]
  exact b.startThickness_mark true

/-- The complete layers are all but the last one. -/
theorem toList_closed (b : Builder) : b.closed.toList = b.layers.toList.dropLast := by
  rw [toList_layers, List.dropLast_concat]

/-! ## All operations -/

theorem lastHeadingOf_concat (front : List Operation) (operation : Operation) :
    lastHeadingOf (front ++ [operation]) = operation.heading?.getD (lastHeadingOf front) := by
  unfold lastHeadingOf
  rw [List.filterMap_append]
  cases operation with
  | push kind pathType thickness point => exact congrArg (Option.getD · _) List.getLast?_concat
  | closeLayer =>
    have hnone : [Operation.closeLayer].filterMap Operation.heading? = [] := rfl
    rw [hnone, List.append_nil]
    rfl

variable (origin : Point) (thickness : Float)

/-- The growing segment is one of moves like the last one. -/
theorem heading_current_applyAll (operations : List Operation) :
    ((start origin thickness).applyAll operations).current.heading = lastHeadingOf operations := by
  induction operations using List.reverseRecOn with
  | nil => rfl
  | append_singleton front operation ih =>
    rw [applyAll_append, lastHeadingOf_concat]
    cases operation with
    | push kind pathType thickness point => exact heading_current_push _ _ _ _ _
    | closeLayer => exact ih

/-- A segment that does not start a layer has a move. -/
theorem eventful_apply (b : Builder) (operation : Operation)
    (h : ∀ l ∈ b.layers.toList, l.Eventful) :
    ∀ l ∈ (b.apply operation).layers.toList, l.Eventful := by
  rw [toList_layers] at h
  cases operation with
  | push kind pathType thickness point =>
    have hopen := h b.openLayer (List.mem_append_right _ List.mem_cons_self)
    show ∀ l ∈ (b.push kind pathType thickness point).layers.toList, _
    rw [toList_layers, closed_push]
    intro l hl
    rcases List.mem_append.mp hl with hclosed | hlast
    · exact h l (List.mem_append_left _ hclosed)
    · rw [List.mem_singleton.mp hlast]
      exact eventful_push hopen kind pathType thickness point
  | closeLayer =>
    show ∀ l ∈ b.closeLayer.layers.toList, _
    rw [toList_layers b.closeLayer, closed_closeLayer, Array.toList_push]
    intro l hl
    rcases List.mem_append.mp hl with hclosed | hlast
    · exact h l hclosed
    · rw [List.mem_singleton.mp hlast]
      exact fun s hs => absurd hs List.not_mem_nil

/-- In a toolpath without moves no segment stands behind another one. -/
theorem eventful_start : ∀ l ∈ (start origin thickness).layers.toList, l.Eventful := by
  intro l hl
  rw [List.mem_singleton.mp hl]
  exact fun s hs => absurd hs List.not_mem_nil

theorem eventful_applyAll (operations : List Operation) :
    ∀ l ∈ ((start origin thickness).applyAll operations).layers.toList, l.Eventful :=
  applyAll_invariant (P := fun b => ∀ l ∈ b.layers.toList, l.Eventful) eventful_apply
    (eventful_start origin thickness) operations

/-- The operations are read back in their order, each with what there is to know of it. -/
theorem readBack_layers_applyAll (operations : List Operation) :
    readBack ((start origin thickness).applyAll operations).layers.toList =
      alongHistory eventsOf operations := by
  induction operations using List.reverseRecOn with
  | nil => rfl
  | append_singleton front operation ih =>
    have heventful := eventful_applyAll origin thickness front
    rw [toList_layers] at heventful
    have hopen := heventful _ (List.mem_append_right _ List.mem_cons_self)
    rw [alongHistory_concat, ← ih, applyAll_append]
    cases operation with
    | push kind pathType thickness' point =>
      unfold eventsOf
      rw [← heading_current_applyAll origin thickness front]
      exact readBack_push hopen kind pathType thickness' point
    | closeLayer => exact readBack_closeLayer _

theorem exists_eventsOf_eq (front : List Operation) (operation : Operation) :
    ∃ event, eventsOf front operation = [event] := by
  cases operation with
  | push kind pathType thickness point => exact ⟨_, rfl⟩
  | closeLayer => exact ⟨_, rfl⟩

/-- An operation is expected to be read as it is, up to its thickness. -/
theorem map_bare_alongHistory (operations : List Operation) :
    (alongHistory eventsOf operations).map Event.bare = operations.map Operation.bare := by
  induction operations using List.reverseRecOn with
  | nil => rfl
  | append_singleton front operation ih =>
    rw [alongHistory_concat, List.map_append, List.map_append, ih]
    cases operation <;> rfl

/-- Each layer starts with the thickness that the one before it ends with, and the first one with
that of the beginning. -/
theorem startThickness_applyAll (operations : List Operation) :
    ((start origin thickness).applyAll operations).layers.toList.map Layer.startThickness? =
      some thickness ::
        ((start origin thickness).applyAll operations).layers.toList.dropLast.map
          Layer.endThickness? := by
  refine applyAll_invariant (P := fun b => b.layers.toList.map Layer.startThickness? =
    some thickness :: b.layers.toList.dropLast.map Layer.endThickness?) ?_ rfl operations
  intro b operation h
  rw [← toList_closed] at h ⊢
  cases operation with
  | push kind pathType thickness point =>
    show (b.push kind pathType thickness point).layers.toList.map _ =
      _ :: (b.push kind pathType thickness point).closed.toList.map _
    rw [startThickness_push, closed_push, h]
  | closeLayer =>
    show b.closeLayer.layers.toList.map _ = _ :: b.closeLayer.closed.toList.map _
    rw [startThickness_closeLayer, h, closed_closeLayer, Array.toList_push, List.map_append]
    rfl

/-- **A segment that does not start a layer was opened by a move**, the one behind all that is
read in front of the segment.  It turned from the heading of the move before, and the segment has
its kind, its path type and its thickness. -/
theorem exists_opener (operations : List Operation) {before after : List Layer} {l : Layer}
    {earlier later : List Segment} {s : Segment}
    (hlayers : ((start origin thickness).applyAll operations).layers.toList =
      before ++ l :: after)
    (hsegments : l.segments.toList = earlier ++ s :: later) (hearlier : earlier ≠ []) :
    ∃ front point rest,
      operations = front ++ .push s.kind s.pathType s.thickness point :: rest ∧
        front.map Operation.bare = (readBack (before ++ [⟨earlier.toArray⟩])).map Event.bare ∧
        lastHeadingOf front ≠ (s.kind, s.pathType) ∧ s.moves.toList.head? = some point := by
  have hl : l ∈ ((start origin thickness).applyAll operations).layers.toList := by
    rw [hlayers]
    exact List.mem_append_right _ List.mem_cons_self
  have hs : s ∈ l.segments.toList.tail := by
    rw [hsegments, List.tail_append_of_ne_nil hearlier]
    exact List.mem_append_right _ List.mem_cons_self
  obtain ⟨point, others, hmoves⟩ :=
    List.exists_cons_of_ne_nil (eventful_applyAll origin thickness operations l hl s hs)
  obtain ⟨late, hread⟩ := exists_readBack_eq before after hsegments hearlier hmoves
  rw [← hlayers, readBack_layers_applyAll] at hread
  obtain ⟨front, operation, rest, rfl, hfront, hoperation⟩ :=
    exists_of_alongHistory_eq_append exists_eventsOf_eq hread
  cases operation with
  | closeLayer => exact Event.noConfusion (List.singleton_inj.mp hoperation)
  | push kind pathType given point' =>
    obtain ⟨rfl, rfl, hthickness, rfl⟩ := Event.move.inj (List.singleton_inj.mp hoperation)
    split_ifs at hthickness with hheading
    rw [← Option.some.inj hthickness]
    refine ⟨front, point', rest, rfl, ?_, hheading, by rw [hmoves]; rfl⟩
    rw [← hfront, map_bare_alongHistory]

/-- **The layers of a toolpath determine what happened to it.**  The operations are read back in
their order, each move with its kind, path type and point.  A segment that does not start a layer
has the thickness of the move that opened it, and one that does has the thickness of the segment
in front, or that of the beginning.  The complete layers are all but the last one. -/
theorem readBack_applyAll (operations : List Operation) :
    let b := (start origin thickness).applyAll operations
    (readBack b.layers.toList).map Event.bare = operations.map Operation.bare ∧
      (∀ before l after earlier s later, b.layers.toList = before ++ l :: after →
        l.segments.toList = earlier ++ s :: later → earlier ≠ [] →
        ∃ front point rest,
          operations = front ++ .push s.kind s.pathType s.thickness point :: rest ∧
            front.map Operation.bare =
              (readBack (before ++ [⟨earlier.toArray⟩])).map Event.bare ∧
            lastHeadingOf front ≠ (s.kind, s.pathType) ∧ s.moves.toList.head? = some point) ∧
      b.layers.toList.map Layer.startThickness? =
        some thickness :: b.layers.toList.dropLast.map Layer.endThickness? ∧
      b.closed.toList = b.layers.toList.dropLast := by
  intro b
  refine ⟨?_, ?_, startThickness_applyAll origin thickness operations, b.toList_closed⟩
  · rw [readBack_layers_applyAll]
    exact map_bare_alongHistory operations
  · intro before l after earlier s later hlayers hsegments hearlier
    exact exists_opener origin thickness operations hlayers hsegments hearlier

/-! ## Some operations that were read back -/

/-- A point on the first axis. -/
def pointAt (x extrusion : Float) : Point :=
  ⟨⟨x, 0.0, 0.0⟩, extrusion, 1.0⟩

/-- Two moves that feed filament, with a layer marker between them, and one that pulls it back. -/
def fillAndRetract : List Operation :=
  [.push .extrude .fill 0.3 (pointAt 1.0 1.0), .closeLayer,
    .push .extrude .fill 0.4 (pointAt 2.0 2.0), .push .retract .fill 0.5 (pointAt 2.0 1.5)]

/-- The second layer of `fillAndRetract` starts with the thickness of the first move, and its other
segment has that of the last move, which opened it. -/
theorem readBack_applyAll_fillAndRetract :
    let b := (start (pointAt 0.0 0.0) 0.1).applyAll fillAndRetract
    let filled : Segment :=
      ⟨.extrude, .fill, 0.3, pointAt 1.0 1.0, #[pointAt 2.0 2.0]⟩
    let pulled : Segment :=
      ⟨.retract, .fill, 0.5, pointAt 2.0 2.0, #[pointAt 2.0 1.5]⟩
    b.layers.toList = b.closed.toList ++ [⟨#[filled, pulled]⟩] ∧
      (readBack b.layers.toList).map Event.bare = fillAndRetract.map Operation.bare ∧
      (∃ front point rest,
        fillAndRetract = front ++ .push .retract .fill 0.5 point :: rest ∧
          front.map Operation.bare =
            (readBack (b.closed.toList ++ [⟨#[filled]⟩])).map Event.bare ∧
          lastHeadingOf front ≠ (.retract, .fill) ∧ pulled.moves.toList.head? = some point) ∧
      b.layers.toList.map Layer.startThickness? = [some 0.1, some 0.3] := by
  intro b filled pulled
  obtain ⟨hread, hopener, hstart, -⟩ :=
    readBack_applyAll (pointAt 0.0 0.0) 0.1 fillAndRetract
  exact ⟨rfl, hread, hopener b.closed.toList ⟨#[filled, pulled]⟩ [] [filled] pulled [] rfl rfl
    (List.cons_ne_nil _ _), hstart⟩

end Builder
end PrintPath
