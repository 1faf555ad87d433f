import PrintPath.Number.Order
import PrintPath.Proofs.Observation

/-!
# The filament used is the most that was ever fed

A toolpath gives one number for the filament of the whole print, and each of its points
gives the filament fed up to there.  The number is the largest of those: it is the amount
at some point, or zero, and at no point is there more.  It is a number, too, even if the
counting has run out of the doubles and the points say that something is not one: the peak
is only ever replaced by what is above it, and nothing but a number is above another one.

`FilamentCounter.Tallies` says this of a counter and the points recorded so far.  A move
records one point more, at which the filament is the total behind the move, and the peak is
raised to it if need be (`Tallies.concat`).  Nothing else records a new point, and nothing
else changes total or peak; in particular setting the axis does not.

Of the order of doubles only this is used, that `<` is a strict order and that what is
above something is a number.
-/

namespace PrintPath

open GCode

/-- The points of some layers. -/
def layerPoints (layers : Array Layer) : List Point :=
  layers.toList.flatMap Layer.points

/-- The peak of a counter is the largest amount of filament at some points. -/
structure FilamentCounter.Tallies (counter : FilamentCounter) (points : List Point) :
    Prop where
  /-- The peak is the amount at one of the points, or zero. -/
  attained : counter.peak = 0.0 ∨ ∃ point ∈ points, point.extrusion = counter.peak
  /-- At no point is there more. -/
  bound : ∀ point ∈ points, ¬ counter.peak < point.extrusion
  /-- The present total is not more either. -/
  total : ¬ counter.peak < counter.total
  /-- The peak is a number. -/
  isNaN : counter.peak.isNaN = false

/-- The filament of a toolpath is the largest amount at its points. -/
structure Toolpath.TalliesFilament (t : Toolpath) : Prop where
  /-- It is the amount at some point, or zero. -/
  attained : t.extrusion = 0.0 ∨ ∃ point ∈ layerPoints t.layers, point.extrusion = t.extrusion
  /-- At no point is there more. -/
  bound : ∀ point ∈ layerPoints t.layers, ¬ t.extrusion < point.extrusion
  /-- It is a number. -/
  isNaN : t.extrusion.isNaN = false

namespace FilamentCounter

/-! ## One point more -/

/-- A peak is raised to a total above it. -/
theorem raise_of_lt {peak total : Float} (h : peak < total) : raise peak total = total :=
  if_pos h

/-- A peak stays if the total is not above it. -/
theorem raise_of_not_lt {peak total : Float} (h : ¬ peak < total) : raise peak total = peak :=
  if_neg h

/-- A raised peak is not below what it was raised to. -/
theorem not_raise_lt (peak total : Float) : ¬ raise peak total < total := by
  by_cases h : peak < total
  · rw [raise_of_lt h]
    exact irrefl total
  · rw [raise_of_not_lt h]
    exact h

/-- A peak is never lowered. -/
theorem eq_or_lt_raise (peak total : Float) :
    peak = raise peak total ∨ peak < raise peak total := by
  by_cases h : peak < total
  · rw [raise_of_lt h]
    exact Or.inr h
  · rw [raise_of_not_lt h]
    exact Or.inl rfl

namespace Tallies

variable {counter next : FilamentCounter} {points others : List Point}

/-- Only the set of the points matters, and of the counter only total and peak. -/
theorem congr (h : counter.Tallies points) (hpoints : ∀ p, p ∈ others ↔ p ∈ points)
    (htotal : next.total = counter.total) (hpeak : next.peak = counter.peak) :
    next.Tallies others where
  attained := by
    rw [hpeak]
    refine h.attained.imp_right ?_
    rintro ⟨point, hpoint, hextrusion⟩
    exact ⟨point, (hpoints point).mpr hpoint, hextrusion⟩
  bound point hpoint := by
    rw [hpeak]
    exact h.bound point ((hpoints point).mp hpoint)
  total := by
    rw [hpeak, htotal]
    exact h.total
  isNaN := by
    rw [hpeak]
    exact h.isNaN

/-- **A point may be added where the filament is the new total**, if the peak is raised to
it. -/
theorem concat (h : counter.Tallies points) {point : Point}
    (hpoints : ∀ p, p ∈ others ↔ p ∈ points ∨ p = point) (hpoint : point.extrusion = next.total)
    (hpeak : next.peak = raise counter.peak next.total) : next.Tallies others := by
  have htotal : ¬ next.peak < next.total := by
    rw [hpeak]
    exact not_raise_lt _ _
  by_cases hraised : counter.peak < next.total
  · -- the new point is the peak, and what is above it was above the old one
    have hreached : next.peak = next.total := hpeak.trans (raise_of_lt hraised)
    rw [← hreached] at hraised
    refine ⟨Or.inr ⟨point, (hpoints point).mpr (Or.inr rfl), hpoint.trans hreached.symm⟩, ?_,
      htotal, Number.isNaN_eq_false_of_lt hraised⟩
    intro p hp
    rcases (hpoints p).mp hp with hold | rfl
    · exact fun habove => h.bound p hold (IsTrans.trans _ _ _ hraised habove)
    · rw [hpoint]
      exact htotal
  · -- the peak stays, and so do its reasons
    have hstays : next.peak = counter.peak := hpeak.trans (raise_of_not_lt hraised)
    refine ⟨?_, ?_, htotal, ?_⟩
    · rw [hstays]
      refine h.attained.imp_right ?_
      rintro ⟨old, hold, hextrusion⟩
      exact ⟨old, (hpoints old).mpr (Or.inl hold), hextrusion⟩
    · intro p hp
      rcases (hpoints p).mp hp with hold | rfl
      · rw [hstays]
        exact h.bound p hold
      · rw [hpoint]
        exact htotal
    · rw [hstays]
      exact h.isNaN

end Tallies

end FilamentCounter

/-! ## The points behind an operation -/

namespace Builder

/-- The points of a growing toolpath: those of the complete layers, those of the complete
segments of the layer being filled, and those of the growing segment. -/
theorem layerPoints_layers (b : Builder) :
    layerPoints b.layers =
      layerPoints b.closed ++ (b.finished.toList.flatMap Segment.points ++ b.current.points) := by
  unfold layerPoints
  rw [toList_layers, List.flatMap_append, List.flatMap_singleton]
  unfold Layer.points
  rw [toList_segments_openLayer, List.flatMap_append, List.flatMap_singleton]

/-- The end of the growing segment is one of its points. -/
theorem last_mem_points (b : Builder) : b.current.last ∈ b.current.points :=
  List.mem_of_getLast? b.current.getLast?_points

/-- A move adds its point.  If it opens a segment, the seed of that is an old point. -/
theorem mem_layerPoints_push (b : Builder) (kind : MoveKind) (pathType : PathType)
    (thickness : Float) (point p : Point) :
    p ∈ layerPoints (b.push kind pathType thickness point).layers ↔
      p ∈ layerPoints b.layers ∨ p = point := by
  by_cases h : b.current.accepts kind pathType
  · rw [push_of_accepts h, layerPoints_layers, layerPoints_layers, Segment.points_push,
      ← List.append_assoc, ← List.append_assoc, List.mem_append, List.append_assoc,
      List.mem_singleton]
  · rw [push_of_not_accepts h, layerPoints_layers, layerPoints_layers, Array.toList_push,
      List.flatMap_append, List.flatMap_singleton, Segment.points_push, Segment.points_opened,
      ← List.append_assoc, List.mem_append, List.singleton_append, List.mem_cons,
      List.mem_singleton]
    have hlast : b.current.last ∈ layerPoints b.closed ++
        (b.finished.toList.flatMap Segment.points ++ b.current.points) :=
      List.mem_append_right _ (List.mem_append_right _ b.last_mem_points)
    constructor
    · rintro (hold | rfl | rfl)
      · exact Or.inl hold
      · exact Or.inl hlast
      · exact Or.inr rfl
    · rintro (hold | rfl)
      · exact Or.inl hold
      · exact Or.inr (Or.inr rfl)

/-- Completing a layer adds no new point. -/
theorem mem_layerPoints_closeLayer (b : Builder) (p : Point) :
    p ∈ layerPoints b.closeLayer.layers ↔ p ∈ layerPoints b.layers := by
  have hlayers : layerPoints b.closeLayer.layers = layerPoints b.layers ++ [b.current.last] :=
    layerPoints_layers b.closeLayer
  have hlast : b.current.last ∈ layerPoints b.layers := by
    rw [layerPoints_layers]
    exact List.mem_append_right _ (List.mem_append_right _ b.last_mem_points)
  rw [hlayers, List.mem_append, List.mem_singleton]
  constructor
  · rintro (hold | rfl)
    · exact hold
    · exact hlast
  · exact Or.inl

/-- A layer marker adds no new point. -/
theorem mem_layerPoints_mark (b : Builder) (marker : Bool) (p : Point) :
    p ∈ layerPoints (b.applyAll (if marker then [.closeLayer] else [])).layers ↔
      p ∈ layerPoints b.layers := by
  cases marker with
  | false => exact Iff.rfl
  | true => exact b.mem_layerPoints_closeLayer p

end Builder

/-! ## The counter behind a line -/

namespace Machine

/-- What a move makes of total and peak. -/
theorem peak_filamentAfter (m : Machine) (extrusion : Option Float)
    (h : ¬ m.filament.peak < m.filament.total) :
    (m.filamentAfter extrusion).peak =
      FilamentCounter.raise m.filament.peak (m.filamentAfter extrusion).total := by
  cases extrusion with
  | none => exact (FilamentCounter.raise_of_not_lt h).symm
  | some value => rfl

/-- A command that is no move changes the axis at most. -/
theorem filament_execute {command : Command}
    (h : ∀ target extrusion feedRate, command ≠ .move target extrusion feedRate)
    (m : Machine) (rule : ThicknessRule) :
    ∃ axis, (m.execute rule command).filament = { m.filament with axis } := by
  cases command with
  | move target extrusion feedRate => exact absurd rfl (h target extrusion feedRate)
  | home named =>
    refine ⟨m.filament.axis, ?_⟩
    show (m.home named).filament = m.filament
    unfold home
    split
    · rfl
    · rfl
  | redefine target extrusion =>
    cases extrusion with
    | none => exact ⟨_, rfl⟩
    | some value => exact ⟨value, rfl⟩
  | flow percent =>
    cases percent with
    | none => exact ⟨_, rfl⟩
    | some value => exact ⟨_, rfl⟩
  | _ => exact ⟨_, rfl⟩

end Machine

namespace Pass

variable (setup : Setup)

/-- The filament counter of a pass tallies the points of its toolpath. -/
def Tallies (pass : Pass) : Prop :=
  pass.machine.filament.Tallies (layerPoints pass.builder.layers)

/-- Nothing was fed, and there is one point. -/
theorem tallies_start : start.Tallies where
  attained := Or.inl rfl
  bound := by decide
  total := by decide
  isNaN := by decide

/-- **A line keeps the tally.**  A move tallies its point, and anything else changes
neither the points nor what was counted. -/
theorem tallies_feed {pass : Pass} (h : pass.Tallies) (line : Line) :
    (pass.feed setup line).Tallies := by
  unfold Tallies
  rw [machine_feed, builder_feed, Machine.operations, Builder.applyAll_append]
  have hready : (pass.machine.ready setup line).filament.Tallies
      (layerPoints (pass.builder.applyAll
        (if line.layerBoundary then [.closeLayer] else [])).layers) := by
    rw [Machine.filament_ready]
    exact h.congr (pass.builder.mem_layerPoints_mark line.layerBoundary) rfl rfl
  unfold Machine.after
  generalize pass.machine.ready setup line = m at hready ⊢
  rcases line.command with _ | command
  · exact hready
  · rcases command.eq_move_or_ne_move with ⟨target, extrusion, feedRate, rfl⟩ | hmove
    · exact hready.concat (Builder.mem_layerPoints_push _ _ _ _ _) rfl
        (m.peak_filamentAfter extrusion hready.total)
    · obtain ⟨axis, hfilament⟩ := Machine.filament_execute hmove m setup.rule
      rw [Machine.recorded_of_ne_move hmove]
      show (m.execute setup.rule command).filament.Tallies _
      rw [hfilament]
      exact hready.congr (fun _ => Iff.rfl) rfl rfl

/-- A line never lowers the peak. -/
theorem peak_feed (pass : Pass) (line : Line) :
    pass.machine.filament.peak = (pass.feed setup line).machine.filament.peak ∨
      pass.machine.filament.peak < (pass.feed setup line).machine.filament.peak := by
  rw [machine_feed]
  unfold Machine.after
  have hready : pass.machine.filament = (pass.machine.ready setup line).filament :=
    (pass.machine.filament_ready setup line).symm
  rw [hready]
  generalize pass.machine.ready setup line = m
  rcases line.command with _ | command
  · exact Or.inl rfl
  · rcases command.eq_move_or_ne_move with ⟨target, extrusion, feedRate, rfl⟩ | hmove
    · cases extrusion with
      | none => exact Or.inl rfl
      | some value => exact FilamentCounter.eq_or_lt_raise _ _
    · obtain ⟨axis, hfilament⟩ := Machine.filament_execute hmove m setup.rule
      show _ = (m.execute setup.rule command).filament.peak ∨
        _ < (m.execute setup.rule command).filament.peak
      rw [hfilament]
      exact Or.inl rfl

/-! ## Runs -/

/-- Every pass over lines tallies its points. -/
theorem tallies_feedAll {pass : Pass} (h : pass.Tallies) (lines : List Line) :
    (pass.feedAll setup lines).Tallies := by
  induction lines generalizing pass with
  | nil => exact h
  | cons line lines ih => exact ih (tallies_feed setup h line)

/-- No lines lower the peak. -/
theorem peak_feedAll (pass : Pass) (lines : List Line) :
    pass.machine.filament.peak = (pass.feedAll setup lines).machine.filament.peak ∨
      pass.machine.filament.peak < (pass.feedAll setup lines).machine.filament.peak := by
  induction lines generalizing pass with
  | nil => exact Or.inl rfl
  | cons line lines ih =>
    have hrest := ih (pass.feed setup line)
    rcases peak_feed setup pass line with hsame | hlt
    · rw [hsame]
      exact hrest
    · right
      rcases hrest with hsame | hlt'
      · rw [hsame] at hlt
        exact hlt
      · exact IsTrans.trans _ _ _ hlt hlt'

/-- **The filament of a toolpath does not become less when the program goes on.** -/
theorem not_extrusion_feedAll_lt (pass : Pass) (lines : List Line) :
    ¬ (pass.feedAll setup lines).finish.extrusion < pass.finish.extrusion := by
  show ¬ (pass.feedAll setup lines).machine.filament.peak < pass.machine.filament.peak
  rcases peak_feedAll setup pass lines with hsame | hlt
  · rw [← hsame]
    exact irrefl _
  · exact asymm hlt

/-- The toolpath of a tally. -/
theorem Tallies.finish {pass : Pass} (h : pass.Tallies) : pass.finish.TalliesFilament :=
  ⟨h.attained, h.bound, h.isNaN⟩

end Pass

variable {σ : Type} (setup : Setup) (observer : Observer σ) (state : σ)

/-- **The filament of a print is the largest amount at any of its points**, and it does not
become less when the program goes on. -/
theorem talliesFilament_reading :
    (∀ lines : List String,
      ∀ t ∈ (readLines setup observer state lines).outcome.toolpath?, t.TalliesFilament) ∧
      (∀ (bytes : List UInt8) (total : Nat),
        ∀ t ∈ (readContent setup observer state bytes total).outcome.toolpath?,
          t.TalliesFilament) ∧
      ∀ lines more : List String,
        ∀ short ∈ (readLines setup observer state lines).outcome.toolpath?,
          ∀ long ∈ (readLines setup observer state (lines ++ more)).outcome.toolpath?,
            ¬ long.extrusion < short.extrusion := by
  refine ⟨?_, ?_, ?_⟩
  · intro lines t ht
    rw [eq_finish_of_mem_toolpath? ht]
    exact (Pass.tallies_feedAll setup Pass.tallies_start _).finish
  · intro bytes total t ht
    rw [eq_finish_of_mem_toolpath? ht]
    exact (Pass.tallies_feedAll setup Pass.tallies_start _).finish
  · intro lines more short hshort long hlong
    rw [eq_finish_of_mem_toolpath? hshort, eq_finish_of_mem_toolpath? hlong]
    unfold Piece.ofLines
    rw [List.map_append, List.map_append, Pass.feedAll_append]
    exact Pass.not_extrusion_feedAll_lt setup _ _

/-- A program that feeds some filament and pulls a part of it back, and one that goes on
from there. -/
theorem talliesFilament_reading_retraction :
    ∃ short long : Toolpath,
      short ∈ (readLines ⟨.empty, .standard⟩ .silent () ["G1 E5", "G1 E3"]).outcome.toolpath? ∧
      long ∈ (readLines ⟨.empty, .standard⟩ .silent ()
        (["G1 E5", "G1 E3"] ++ ["G1 E4"])).outcome.toolpath? ∧
      short.extrusion = 5.0 ∧ short.TalliesFilament ∧ ¬ long.extrusion < short.extrusion := by
  obtain ⟨hlines, -, hmore⟩ := talliesFilament_reading ⟨.empty, .standard⟩ .silent ()
  have hshort : _ ∈
      (readLines ⟨.empty, .standard⟩ .silent () ["G1 E5", "G1 E3"]).outcome.toolpath? :=
    congrArg Outcome.toolpath? (outcome_readPieces_silent _ _ _)
  have hlong : _ ∈ (readLines ⟨.empty, .standard⟩ .silent ()
      (["G1 E5", "G1 E3"] ++ ["G1 E4"])).outcome.toolpath? :=
    congrArg Outcome.toolpath? (outcome_readPieces_silent _ _ _)
  exact ⟨_, _, hshort, hlong, by decide, hlines _ _ hshort, hmore _ _ _ hshort _ hlong⟩

end PrintPath
