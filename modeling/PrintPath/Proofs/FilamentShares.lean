import PrintPath.Number.Differences
import PrintPath.Proofs.FilamentTotal
import PrintPath.Proofs.HeadPosition
import PrintPath.Proofs.Recovery

/-!
# The filament of a layer is that of its moves

What was fed in a layer is not counted while the moves are made.  It is added up afterwards, from
what the first and the last point of each segment say of the filament.  The first point of a
segment is a copy of a point that was recorded before, perhaps many lines ago and in another
layer.  For the sum to be right, nothing may have been fed since: the last point of the path must
say what the counter of the machine says, behind every line (`extrusion_lastPoint_run`).

Then each segment can be given the lines whose moves it holds (`Share`).  Its ends say what was
fed in front of the first of these lines and what was fed up to the last.  The moves of a
program are divided among its segments in this way (`Division`), and the filament of a layer is
the sum of what was fed along the lines of its segments (`extrudedLength_run`).

A layer may begin with a segment that gets no move.  It adds what it says of the filament, less
the same number.  That is zero, unless so much was fed that the count has left the doubles.  Then
it is no number (`not_extrudedLength_eq_of_idle`).
-/

namespace PrintPath

open GCode

/-- A line with a move, and the lines in front of it. -/
structure MoveLine where
  front : List (List Char)
  text : List Char

/-- The lines of a program that give moves. -/
def moveLines (texts : List (List Char)) : List MoveLine :=
  alongHistory (fun front text => if IsMove text then [⟨front, text⟩] else []) texts

namespace MoveLine

variable (setup : Setup) (line : MoveLine)

/-- What was fed in front of the line. -/
def before : Float :=
  (Pass.run setup line.front).machine.filament.total

/-- What was fed up to the end of the line. -/
def behind : Float :=
  (Pass.run setup (line.front ++ [line.text])).machine.filament.total

/-- Where the move ended. -/
def point : Point :=
  (Pass.run setup (line.front ++ [line.text])).machine.point

end MoveLine

/-- A segment, and the lines whose moves it holds. -/
structure Share (setup : Setup) where
  segment : Segment
  lines : List MoveLine
  /-- The points but the first are those of the lines. -/
  moves : segment.moves.toList = lines.map (MoveLine.point setup)
  /-- The first point says what was fed in front of the lines. -/
  first : ∀ line ∈ lines.head?, segment.first.extrusion = line.before setup
  /-- The last point says what was fed up to their end. -/
  last : ∀ line ∈ lines.getLast?, segment.last.extrusion = line.behind setup

/-- The segments of some layers with their lines, which are the given ones. -/
structure Division (setup : Setup) (layers : Array Layer) (lines : List MoveLine) where
  /-- The shares of each layer. -/
  shares : List (List (Share setup))
  segments : shares.map (List.map Share.segment) = layers.toList.map fun l => l.segments.toList
  lines : shares.flatten.flatMap Share.lines = lines

variable {setup : Setup}

namespace Share

/-- What was fed along the lines of a segment, if there are lines. -/
def fed? (share : Share setup) : Option Float :=
  match share.lines.head?, share.lines.getLast? with
  | some first, some last => some (last.behind setup - first.before setup)
  | _, _ => none

/-- What a segment without lines counts for: nothing, or it is no number. -/
def remainder (share : Share setup) : Float :=
  if share.segment.first.extrusion.isFinite then 0.0 else Float.nan

/-- What was fed along the lines of the extruding ones of some segments, added in order to
negative zero.  For a segment without lines another number is taken. -/
def fedBy (idle : Share setup → Float) (shares : List (Share setup)) : Float :=
  (shares.filter fun share => share.segment.kind == .extrude).foldl
    (fun sum share => sum + share.fed?.getD (idle share)) (-0.0)

/-! ## One segment -/

/-- A segment without moves holds those of no lines. -/
def idle (s : Segment) (h : s.moves.toList = []) : Share setup where
  segment := s
  lines := []
  moves := h
  first _ hline := absurd hline (Option.not_mem_none _)
  last _ hline := absurd hline (Option.not_mem_none _)

theorem lines_eq_nil_iff (share : Share setup) :
    share.lines = [] ↔ share.segment.moves.toList = [] := by
  rw [share.moves, List.map_eq_nil_iff]

/-- An extruding segment without lines, alone in its layer. -/
theorem fedBy_singleton {share : Share setup} (hkind : share.segment.kind = .extrude)
    (hlines : share.lines = []) (idle : Share setup → Float) :
    fedBy idle [share] = -0.0 + idle share := by
  have hfed : share.fed? = none := by
    unfold fed?
    rw [hlines]
    rfl
  unfold fedBy
  rw [List.filter_cons_of_pos (by rw [hkind]; rfl), List.filter_nil, List.foldl_cons, hfed]
  rfl

/-- A segment without moves ends where it starts. -/
theorem last_eq_first {share : Share setup} (h : share.lines = []) :
    share.segment.last = share.segment.first := by
  have hmoves := Array.toList_eq_nil_iff.mp (share.lines_eq_nil_iff.mp h)
  unfold Segment.last Segment.first
  rw [hmoves]
  rfl

/-- The move of one line more, if nothing was fed since the last one. -/
def push (share : Share setup) (line : MoveLine)
    (h : share.segment.last.extrusion = line.before setup) : Share setup where
  segment := share.segment.push (line.point setup)
  lines := share.lines ++ [line]
  moves := by
    rw [List.map_append, ← share.moves]
    exact Array.toList_push
  first := by
    intro first hfirst
    show share.segment.first.extrusion = _
    by_cases hnil : share.lines = []
    · rw [hnil] at hfirst
      rw [← Option.mem_some.mp hfirst, ← h, last_eq_first hnil]
    · rw [List.head?_append_of_ne_nil _ hnil] at hfirst
      exact share.first first hfirst
  last := by
    intro last hlast
    rw [List.getLast?_concat] at hlast
    rw [← Option.mem_some.mp hlast, Segment.last_push]
    rfl

/-- **The filament between the ends of a segment is what was fed along its lines.** -/
theorem extrusion_eq (share : Share setup) :
    share.segment.extrusion = share.fed?.getD share.remainder := by
  unfold Segment.extrusion fed?
  cases hlines : share.lines with
  | nil =>
    rw [last_eq_first hlines]
    show _ = share.remainder
    unfold remainder
    split
    · next hfinite => exact Number.sub_self_eq hfinite
    · next hfinite => exact Number.sub_self_of_not_isFinite hfinite
  | cons first others =>
    have hfirst := share.first first (by rw [hlines]; rfl)
    have hlast := share.last _ (by rw [hlines]; exact List.getLast?_cons)
    rw [hfirst, hlast, List.getLast?_cons]
    rfl

end Share

/-! ## Layers -/

/-- What a layer counts is what was fed along the lines of its segments. -/
theorem Layer.extrudedLength_eq {l : Layer} {shares : List (Share setup)}
    (h : shares.map Share.segment = l.segments.toList) :
    l.extrudedLength = Share.fedBy Share.remainder shares := by
  unfold extrudedLength Share.fedBy
  rw [← h, List.filter_map, List.foldl_map]
  refine List.foldl_ext _ _ _ fun sum share _ => ?_
  rw [share.extrusion_eq]

namespace Division

variable {layers : Array Layer} {lines : List MoveLine}

/-- The shares of each layer are those of its segments. -/
theorem forall₂_segments (division : Division setup layers lines) :
    List.Forall₂ (fun l shares => shares.map Share.segment = l.segments.toList)
      layers.toList division.shares := by
  have h := division.segments.symm
  rw [← List.forall₂_eq_eq_eq, List.forall₂_map_left_iff, List.forall₂_map_right_iff] at h
  exact h.imp fun _ _ => Eq.symm

/-- **What the layers count is what was fed along the lines of their segments.** -/
theorem extrudedLength_eq (division : Division setup layers lines) :
    layers.toList.map Layer.extrudedLength =
      division.shares.map (Share.fedBy Share.remainder) := by
  rw [← List.forall₂_eq_eq_eq, List.forall₂_map_left_iff, List.forall₂_map_right_iff]
  exact division.forall₂_segments.imp fun _ _ => Layer.extrudedLength_eq

/-- If the segments behind the first ones of their layers have moves, they have lines. -/
theorem lines_ne_nil (division : Division setup layers lines)
    (h : ∀ l ∈ layers.toList, l.Eventful) :
    ∀ shares ∈ division.shares, ∀ share ∈ shares.tail, share.lines ≠ [] := by
  intro shares hshares share hshare hnil
  have hmem : shares.map Share.segment ∈ layers.toList.map fun l => l.segments.toList := by
    rw [← division.segments]
    exact List.mem_map_of_mem hshares
  obtain ⟨l, hl, hsegments⟩ := List.mem_map.mp hmem
  refine h l hl share.segment ?_ (share.lines_eq_nil_iff.mp hnil)
  rw [hsegments, ← List.map_tail]
  exact List.mem_map_of_mem hshare

end Division

/-! ## A toolpath that grows -/

namespace Builder

variable {b : Builder} {lines : List MoveLine}

/-- To divide lines among the segments of a growing toolpath is to divide them among those of
the complete layers, the complete ones of the layer being filled, and the growing one. -/
theorem nonempty_division_iff :
    Nonempty (Division setup b.layers lines) ↔
      ∃ (closed : List (List (Share setup))) (finished : List (Share setup)) (share : Share setup),
        closed.map (List.map Share.segment) = b.closed.toList.map (fun l => l.segments.toList) ∧
          finished.map Share.segment = b.finished.toList ∧ share.segment = b.current ∧
          (closed.flatten ++ finished).flatMap Share.lines ++ share.lines = lines := by
  have hflatten (closed : List (List (Share setup))) (finished : List (Share setup))
      (share : Share setup) :
      (closed ++ [finished ++ [share]]).flatten.flatMap Share.lines =
        (closed.flatten ++ finished).flatMap Share.lines ++ share.lines := by
    rw [List.flatten_concat, ← List.append_assoc, List.flatMap_append, List.flatMap_singleton]
  constructor
  · rintro ⟨division⟩
    have h := division.segments
    have hlines := division.lines
    rw [toList_layers, List.map_append, List.map_singleton, toList_segments_openLayer] at h
    obtain ⟨closed, last, hshares, hclosed, hlast⟩ := List.map_eq_append_iff.mp h
    obtain ⟨opened, rfl, hopened⟩ := List.map_eq_singleton_iff.mp hlast
    obtain ⟨finished, growing, rfl, hfinished, hgrowing⟩ := List.map_eq_append_iff.mp hopened
    obtain ⟨share, rfl, hshare⟩ := List.map_eq_singleton_iff.mp hgrowing
    rw [hshares, hflatten] at hlines
    exact ⟨closed, finished, share, hclosed, hfinished, hshare, hlines⟩
  · rintro ⟨closed, finished, share, hclosed, hfinished, hshare, hlines⟩
    refine ⟨⟨closed ++ [finished ++ [share]], ?_, (hflatten closed finished share).trans hlines⟩⟩
    rw [toList_layers, List.map_append, List.map_append, List.map_singleton, List.map_singleton,
      toList_segments_openLayer, List.map_append, List.map_singleton, hclosed, hfinished, hshare]

/-- **A move goes to the share of the growing segment**, or to one of its own if it turns.
Nothing must have been fed since the last point. -/
theorem division_push (h : Nonempty (Division setup b.layers lines)) {line : MoveLine}
    (hlast : b.current.last.extrusion = line.before setup) (kind : MoveKind)
    (pathType : PathType) (thickness : Float) :
    Nonempty (Division setup (b.push kind pathType thickness (line.point setup)).layers
      (lines ++ [line])) := by
  obtain ⟨closed, finished, share, hclosed, hfinished, hshare, rfl⟩ :=
    nonempty_division_iff.mp h
  refine nonempty_division_iff.mpr ?_
  by_cases haccepts : b.current.accepts kind pathType
  · rw [push_of_accepts haccepts]
    refine ⟨closed, finished, share.push line (by rw [hshare, hlast]), hclosed, hfinished, ?_, ?_⟩
    · exact congrArg (Segment.push · (line.point setup)) hshare
    · exact (List.append_assoc _ _ _).symm
  · rw [push_of_not_accepts haccepts]
    let opened : Share setup :=
      .idle (.opened kind pathType thickness b.current.last) rfl
    refine ⟨closed, finished ++ [share], opened.push line hlast, hclosed, ?_, rfl, ?_⟩
    · rw [List.map_append, List.map_singleton, hfinished, hshare]
      exact Array.toList_push.symm
    · rw [← List.append_assoc, List.flatMap_append, List.flatMap_singleton]
      rfl

/-- A layer marker divides the same lines. -/
theorem division_mark (h : Nonempty (Division setup b.layers lines)) (marker : Bool) :
    Nonempty (Division setup (b.applyAll (if marker then [.closeLayer] else [])).layers
      lines) := by
  cases marker with
  | false => exact h
  | true =>
    obtain ⟨division⟩ := h
    show Nonempty (Division setup b.closeLayer.layers lines)
    refine ⟨⟨division.shares ++ [[Share.idle b.current.continuation rfl]], ?_, ?_⟩⟩
    · rw [List.map_append, division.segments, toList_layers b.closeLayer, List.map_append]
      rfl
    · rw [List.flatten_append, List.flatMap_append, division.lines]
      exact List.append_nil _

end Builder

/-! ## Runs -/

theorem moveLines_concat (front : List (List Char)) (text : List Char) :
    moveLines (front ++ [text]) =
      moveLines front ++ if IsMove text then [⟨front, text⟩] else [] :=
  alongHistory_concat _ _ _

/-- A line without a move feeds nothing. -/
theorem Machine.total_after_of_not_isMove (m : Machine) (setup : Setup) {text : List Char}
    (h : ¬ IsMove text) :
    (m.after setup (Line.read text)).filament.total = m.filament.total := by
  have hready := m.filament_ready setup (Line.read text)
  have hmove := command_of_not_isMove h
  unfold after
  cases hcommand : (Line.read text).command with
  | none => exact congrArg FilamentCounter.total hready
  | some command =>
    rw [hcommand] at hmove
    obtain ⟨axis, hfilament⟩ := filament_execute
      (fun t e f heq => hmove t e f (congrArg some heq)) (m.ready setup (Line.read text))
      setup.rule
    show ((m.ready setup (Line.read text)).execute setup.rule command).filament.total = _
    rw [hfilament, hready]

namespace Pass

variable (setup : Setup)

/-- **The path ends with what was fed so far**, behind every line. -/
theorem extrusion_lastPoint_run (texts : List (List Char)) :
    (run setup texts).lastPoint.extrusion = (run setup texts).machine.filament.total := by
  induction texts using List.reverseRecOn with
  | nil => rfl
  | append_singleton front text ih =>
    rw [run_concat]
    by_cases h : IsMove text
    · rw [lastPoint_feed_of_isMove setup _ h]
      rfl
    · rw [lastPoint_feed_of_not_isMove setup _ h, ih, machine_feed,
        Machine.total_after_of_not_isMove _ _ h]

/-- The moves of a program are divided among the segments of its toolpath. -/
theorem nonempty_division_run (texts : List (List Char)) :
    Nonempty (Division setup (run setup texts).builder.layers (moveLines texts)) := by
  induction texts using List.reverseRecOn with
  | nil => exact ⟨⟨[[Share.idle start.builder.current rfl]], rfl, rfl⟩⟩
  | append_singleton front text ih =>
    rw [moveLines_concat, run_concat]
    have hmarked := Builder.division_mark ih (annotate text).layerBoundary
    by_cases h : IsMove text
    · have hlast : ((run setup front).builder.applyAll
          (if (annotate text).layerBoundary then [.closeLayer] else [])).current.last.extrusion =
            (MoveLine.mk front text).before setup := by
        rw [Builder.last_current_mark]
        exact extrusion_lastPoint_run setup front
      have hpoint : ((run setup front).feed setup (Line.read text)).machine.point =
          (MoveLine.mk front text).point setup := by
        unfold MoveLine.point
        rw [run_concat]
      rw [if_pos h, builder_feed_of_isMove setup _ h, hpoint]
      exact Builder.division_push hmarked hlast _ _ _
    · rw [if_neg h, List.append_nil, builder_feed_of_not_isMove setup _ h]
      exact hmarked

/-- In the toolpath of a program a segment that does not start a layer has a move. -/
theorem eventful_run (texts : List (List Char)) :
    ∀ l ∈ (run setup texts).builder.layers.toList, l.Eventful :=
  builder_feedAll (P := fun b => ∀ l ∈ b.layers.toList, l.Eventful) setup
    Builder.eventful_apply (Builder.eventful_start _ _) _

end Pass

/-- **The filament of a layer is what was fed along the moves of its extruding segments.**  The
path always ends with what was fed so far.  So the moves of a program can be divided among the
segments of its toolpath such that each segment says at its ends what was fed in front of its
first line and up to the last one.  However they are divided, only the first segment of a layer
gets no line, and a layer counts what was fed along the lines of its segments, and for a segment
without lines nothing, or no number if what it says of the filament is not finite. -/
theorem extrudedLength_run (setup : Setup) (texts : List (List Char)) :
    (Pass.run setup texts).lastPoint.extrusion = (Pass.run setup texts).machine.filament.total ∧
      Nonempty (Division setup (Pass.run setup texts).finish.layers (moveLines texts)) ∧
      ∀ division : Division setup (Pass.run setup texts).finish.layers (moveLines texts),
        (∀ shares ∈ division.shares, ∀ share ∈ shares.tail, share.lines ≠ []) ∧
          (Pass.run setup texts).finish.layers.toList.map Layer.extrudedLength =
            division.shares.map (Share.fedBy Share.remainder) :=
  ⟨Pass.extrusion_lastPoint_run setup texts, Pass.nonempty_division_run setup texts,
    fun division => ⟨division.lines_ne_nil (Pass.eventful_run setup texts),
      division.extrudedLength_eq⟩⟩

/-! ## A program that feeds too much -/

/-- A program that feeds more filament than a double can count, and marks a layer. -/
def feedTooMuch : List (List Char) :=
  ["M83", "G1 E1e308", "G1 E1e308", ";LAYER:1"].map String.toList

/-- **A segment without moves need not count for nothing.**  That of the second layer of
`feedTooMuch` makes its layer count no number. -/
theorem not_extrudedLength_eq_of_idle :
    ¬ ∀ (setup : Setup) (texts : List (List Char)),
      ∃ division : Division setup (Pass.run setup texts).finish.layers (moveLines texts),
        (Pass.run setup texts).finish.layers.toList.map Layer.extrudedLength =
          division.shares.map (Share.fedBy fun _ => 0.0) := by
  intro h
  obtain ⟨division, hlength⟩ := h ⟨.empty, .standard⟩ feedTooMuch
  let sizes (segments : List Segment) : List (MoveKind × Nat) :=
    segments.map fun s => (s.kind, s.moves.toList.length)
  -- the second layer has one segment, of extruding moves, and no move in it
  have hsizes := congrArg (fun layers => (layers.map sizes).getLast?) division.segments
  rw [List.map_map, List.getLast?_map] at hsizes
  obtain ⟨shares, hshares, hlast⟩ := Option.map_eq_some_iff.mp
    (hsizes.trans (show _ = some [(.extrude, 0)] by decide +kernel))
  obtain ⟨segment, hsegment, hempty⟩ := List.map_eq_singleton_iff.mp hlast
  obtain ⟨share, rfl, rfl⟩ := List.map_eq_singleton_iff.mp hsegment
  obtain ⟨hkind, hmoves⟩ := Prod.mk.inj hempty
  have hlines := share.lines_eq_nil_iff.mpr (List.length_eq_zero_iff.mp hmoves)
  -- so it would count for nothing
  have hcounts := congrArg List.getLast? hlength
  rw [List.getLast?_map, List.getLast?_map, hshares, Option.map_some,
    Share.fedBy_singleton hkind hlines, ← List.getLast?_map] at hcounts
  revert hcounts
  decide +kernel

end PrintPath
