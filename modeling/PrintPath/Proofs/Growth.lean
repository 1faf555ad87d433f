import PrintPath.Proofs.Observation

/-!
# What was recorded stays recorded

A program may be read up to some line, and it may be read on.  What the lines behind that
one do to the machine is a matter of their own: they switch units and modes, redefine
places, announce path types and mark layers.  None of this reaches back.  `GrowsInto` says
what the longer reading keeps of the shorter one:

* all layers but the last one, as they are;
* in the last layer, all segments but the last one, as they are;
* the last segment, to which points may be added;
* the diagnostics, to which others may be added;
* that the start code is over, if it is.

Layers and segments grow in the same way, at two levels.  `Grows` is that way: of a list,
only the last entry may still change, and others may follow.  It is transitive
(`Grows.trans`), so it is enough to look at one operation on a toolpath at a time
(`Builder.layersGrow_apply`).
-/

namespace PrintPath

open GCode

/-! ## Lists that grow at the end -/

section

variable {α : Type} {R : α → α → Prop}

/-- A list grows into another one: the last entry changes as `R` allows, others may follow,
and the entries in front stay. -/
def Grows (R : α → α → Prop) (short long : List α) : Prop :=
  ∃ front last next rest, short = front ++ [last] ∧ long = front ++ next :: rest ∧ R last next

namespace Grows

/-- The last entry changes. -/
theorem replaceLast (front : List α) {last next : α} (h : R last next) :
    Grows R (front ++ [last]) (front ++ [next]) :=
  ⟨front, last, next, [], rfl, rfl, h⟩

/-- Another entry follows. -/
theorem concat (front : List α) {last : α} (h : R last last) (entry : α) :
    Grows R (front ++ [last]) (front ++ [last] ++ [entry]) :=
  ⟨front, last, last, [entry], rfl, List.append_assoc _ _ _, h⟩

theorem trans (hR : ∀ a b c, R a b → R b c → R a c) {short middle long : List α}
    (h : Grows R short middle) (k : Grows R middle long) : Grows R short long := by
  obtain ⟨front, last, next, rest, rfl, hmiddle, hlast⟩ := h
  obtain ⟨front', last', next', rest', rfl, rfl, hlast'⟩ := k
  rcases List.eq_nil_or_concat rest with rfl | ⟨between, final, rfl⟩
  · -- nothing had followed: it is the same entry that changes again
    obtain ⟨rfl, hentry⟩ := List.append_inj' hmiddle rfl
    rw [List.singleton_inj.mp hentry] at hlast'
    exact ⟨front', last, next', rest', rfl, rfl, hR _ _ _ hlast hlast'⟩
  · -- the entry that changes now stands behind the one that had changed
    have hconcat : front' ++ [last'] = (front ++ next :: between) ++ [final] := by
      rw [hmiddle, List.concat_eq_append, List.append_assoc, List.cons_append]
    obtain ⟨rfl, -⟩ := List.append_inj' hconcat rfl
    exact ⟨front, last, next, between ++ next' :: rest', rfl, List.append_assoc _ _ _, hlast⟩

end Grows

end

/-! ## Segments, layers and toolpaths that grow -/

/-- A segment grows into another one: points may be added to it. -/
structure Segment.GrowsInto (s t : Segment) : Prop where
  kind : t.kind = s.kind
  pathType : t.pathType = s.pathType
  thickness : t.thickness = s.thickness
  points : s.points <+: t.points

/-- A layer grows into another one: its last segment grows, and others may follow. -/
def Layer.GrowsInto (l m : Layer) : Prop :=
  Grows Segment.GrowsInto l.segments.toList m.segments.toList

/-- Layers grow into others: the last one grows, and others may follow. -/
def LayersGrow (layers others : Array Layer) : Prop :=
  Grows Layer.GrowsInto layers.toList others.toList

/-- A toolpath grows into another one. -/
structure Toolpath.GrowsInto (t u : Toolpath) : Prop where
  layers : LayersGrow t.layers u.layers
  diagnostics : t.diagnostics.toList <+: u.diagnostics.toList
  preambleEnded : t.preambleEnded → u.preambleEnded

namespace Segment.GrowsInto

theorem refl (s : Segment) : s.GrowsInto s :=
  ⟨rfl, rfl, rfl, List.prefix_rfl⟩

theorem trans {s t u : Segment} (h : s.GrowsInto t) (k : t.GrowsInto u) : s.GrowsInto u where
  kind := k.kind.trans h.kind
  pathType := k.pathType.trans h.pathType
  thickness := k.thickness.trans h.thickness
  points := h.points.trans k.points

theorem push (s : Segment) (point : Point) : s.GrowsInto (s.push point) where
  kind := rfl
  pathType := rfl
  thickness := rfl
  points := by
    rw [Segment.points_push]
    exact List.prefix_append _ _

end Segment.GrowsInto

theorem Layer.GrowsInto.trans {l m n : Layer} (h : l.GrowsInto m) (k : m.GrowsInto n) :
    l.GrowsInto n :=
  Grows.trans (R := Segment.GrowsInto) (fun _ _ _ => Segment.GrowsInto.trans) h k

theorem LayersGrow.trans {layers others more : Array Layer} (h : LayersGrow layers others)
    (k : LayersGrow others more) : LayersGrow layers more :=
  Grows.trans (R := Layer.GrowsInto) (fun _ _ _ => Layer.GrowsInto.trans) h k

namespace Builder

/-! ## Operations -/

/-- The layer being filled grows into itself. -/
theorem growsInto_openLayer (b : Builder) : b.openLayer.GrowsInto b.openLayer := by
  unfold Layer.GrowsInto
  rw [toList_segments_openLayer]
  exact Grows.replaceLast _ (Segment.GrowsInto.refl b.current)

theorem layersGrow_refl (b : Builder) : LayersGrow b.layers b.layers := by
  unfold LayersGrow
  rw [toList_layers]
  exact Grows.replaceLast _ b.growsInto_openLayer

/-- A move adds a point to the last segment of the layer being filled, or a segment behind
it. -/
theorem growsInto_push (b : Builder) (kind : MoveKind) (pathType : PathType)
    (thickness : Float) (point : Point) :
    b.openLayer.GrowsInto (b.push kind pathType thickness point).openLayer := by
  unfold Layer.GrowsInto
  by_cases h : b.current.accepts kind pathType
  · rw [push_of_accepts h, toList_segments_openLayer, toList_segments_openLayer]
    exact Grows.replaceLast _ (Segment.GrowsInto.push b.current point)
  · rw [push_of_not_accepts h, toList_segments_openLayer, toList_segments_openLayer,
      Array.toList_push]
    exact Grows.concat _ (Segment.GrowsInto.refl b.current) _

/-- **Every operation lets the layers grow.** -/
theorem layersGrow_apply (b : Builder) (operation : Operation) :
    LayersGrow b.layers (b.apply operation).layers := by
  unfold LayersGrow
  cases operation with
  | push kind pathType thickness point =>
    show Grows _ b.layers.toList (b.push kind pathType thickness point).layers.toList
    rw [toList_layers, toList_layers, closed_push]
    exact Grows.replaceLast _ (b.growsInto_push kind pathType thickness point)
  | closeLayer =>
    show Grows _ b.layers.toList b.closeLayer.layers.toList
    rw [toList_layers, toList_layers, closed_closeLayer, Array.toList_push]
    exact Grows.concat _ b.growsInto_openLayer _

end Builder

namespace Pass

variable (setup : Setup)

/-! ## Runs -/

/-- What was diagnosed stays diagnosed. -/
theorem diagnostics_prefix_feedAll (pass : Pass) (lines : List Line) :
    pass.diagnostics.toList <+: (pass.feedAll setup lines).diagnostics.toList := by
  induction lines generalizing pass with
  | nil => exact List.prefix_rfl
  | cons line lines ih =>
    have hline : pass.diagnostics.toList <+: (pass.feed setup line).diagnostics.toList := by
      rw [diagnostics_feed]
      exact List.prefix_append _ _
    exact hline.trans (ih (pass.feed setup line))

/-- A start code that is over stays over. -/
theorem preambleEnded_feedAll {pass : Pass} (h : pass.machine.preambleEnded)
    (lines : List Line) : (pass.feedAll setup lines).machine.preambleEnded := by
  induction lines generalizing pass with
  | nil => exact h
  | cons line lines ih =>
    have hnext : (pass.feed setup line).machine.preambleEnded := by
      rw [machine_feed, Machine.preambleEnded_after, h]
      rfl
    exact ih hnext

/-- **A toolpath grows when the program goes on.** -/
theorem growsInto_feedAll (pass : Pass) (lines : List Line) :
    pass.finish.GrowsInto (pass.feedAll setup lines).finish where
  layers :=
    builder_feedAll (P := fun b => LayersGrow pass.builder.layers b.layers) setup
      (fun b operation h => h.trans (b.layersGrow_apply operation))
      pass.builder.layersGrow_refl lines
  diagnostics := diagnostics_prefix_feedAll setup pass lines
  preambleEnded h := preambleEnded_feedAll setup h lines

end Pass

/-- **Nothing is retroactive.**  The toolpath of a program grows into the toolpath of any
program that goes on from there. -/
theorem growsInto_reading (setup : Setup) (lines more : List String) :
    ∃ short long : Toolpath,
      (readLines setup .silent () lines).outcome = .completed short ∧
      (readLines setup .silent () (lines ++ more)).outcome = .completed long ∧
      short.GrowsInto long := by
  refine ⟨_, _, outcome_readPieces_silent setup _ _, outcome_readPieces_silent setup _ _, ?_⟩
  unfold Piece.ofLines
  rw [List.map_append, List.map_append, Pass.feedAll_append]
  exact Pass.growsInto_feedAll setup _ _

end PrintPath
