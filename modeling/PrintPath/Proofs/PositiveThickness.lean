import PrintPath.Number.Differences
import PrintPath.Proofs.SegmentThickness
import PrintPath.Proofs.Sizes

/-!
# When the thickness of a segment is positive

A travel sets the thickness in force if it leads to another height, so one expects that no
thickness is ever zero.  Two things could spoil it.  The difference of two heights could be
rounded to zero; it never is (`Number.pos_abs_sub_iff`).  And a drop to the bed is not measured
from where it starts, but from zero.  So a drop that ends at zero exactly implies a thickness of
zero, and with the usual rule that is any travel from above 5 mm to zero (`DropsToZero`).

`pos_thickness_run` says of each segment which travel its thickness goes back to, and that the
thickness is positive unless that travel is such a drop.  The travel is the last one to another
height behind the line that opened the segment.  A segment that starts a layer goes back to the
same travel as the segment in front of it (`thicknessSources`).
-/

namespace PrintPath

open GCode

/-- A travel from above 5 mm to height zero, if it is what a thickness goes back to. -/
def DropsToZero (source : Option HeightChange) : Prop :=
  ∃ change ∈ source, 5.0 < change.old ∧ change.new == 0.0

/-! ## What the thickness of a segment goes back to -/

/-- A program up to the last line that opened a segment. -/
def throughLastOpening (setup : Setup) (texts : List (List Char)) : List (List Char) :=
  (alongHistory (fun front text => if Opens setup front text then [front ++ [text]] else [])
    texts).getLast?.getD []

/-- What the thicknesses go back to of the segments that a line behind some others starts: the one
that a new layer begins with, if the line marks one, and the one that its move opens, if it opens
one. -/
def sourcesOfLine (setup : Setup) (front : List (List Char)) (text : List Char) :
    List (Option HeightChange) :=
  (if (annotate text).layerBoundary then
    [lastHeightChange setup (throughLastOpening setup front)]
  else []) ++
    if Opens setup front text then [lastHeightChange setup (front ++ [text])] else []

/-- What the thicknesses of all segments go back to, in order.  That of the first one goes back to
no travel. -/
def thicknessSources (setup : Setup) (texts : List (List Char)) : List (Option HeightChange) :=
  none :: alongHistory (sourcesOfLine setup) texts

theorem throughLastOpening_concat (setup : Setup) (front : List (List Char)) (text : List Char) :
    throughLastOpening setup (front ++ [text]) =
      if Opens setup front text then front ++ [text] else throughLastOpening setup front := by
  unfold throughLastOpening
  rw [getLast?_alongHistory_concat]
  split <;> rfl

theorem throughLastOpening_isPrefix (setup : Setup) (texts : List (List Char)) :
    throughLastOpening setup texts <+: texts := by
  induction texts using List.reverseRecOn with
  | nil => exact List.prefix_rfl
  | append_singleton front text ih =>
    rw [throughLastOpening_concat]
    split
    · exact List.prefix_rfl
    · exact ih.trans (List.prefix_append _ _)

/-- The thickness that the growing segment was opened with was the one in force then. -/
theorem openingThickness_eq (setup : Setup) (texts : List (List Char)) :
    openingThickness setup texts =
      setup.rule.implied (lastHeightChange setup (throughLastOpening setup texts)) := by
  induction texts using List.reverseRecOn with
  | nil => rfl
  | append_singleton front text ih =>
    rw [openingThickness_concat, throughLastOpening_concat]
    split
    · exact Pass.thickness_run setup (front ++ [text])
    · exact ih

/-- Each thickness goes back to the last travel to another height in some program that goes on
to the given one. -/
theorem exists_prefix_of_mem_thicknessSources {setup : Setup} {texts : List (List Char)}
    {source : Option HeightChange} (h : source ∈ thicknessSources setup texts) :
    ∃ front, front <+: texts ∧ source = lastHeightChange setup front := by
  rcases List.mem_cons.mp h with rfl | hlines
  · exact ⟨[], List.nil_prefix, rfl⟩
  · obtain ⟨front, text, hprefix, hline⟩ := exists_of_mem_alongHistory hlines
    rcases List.mem_append.mp hline with hmarker | hopens
    · split at hmarker
      · exact ⟨_, (throughLastOpening_isPrefix setup front).trans
          ((List.prefix_append _ _).trans hprefix), List.mem_singleton.mp hmarker⟩
      · exact absurd hmarker List.not_mem_nil
    · split at hopens
      · exact ⟨_, hprefix, List.mem_singleton.mp hopens⟩
      · exact absurd hopens List.not_mem_nil

/-! ## The thicknesses of all segments -/

namespace Builder

/-- A move that turns adds a segment with its thickness, and no other move adds one. -/
theorem thicknesses_push (b : Builder) (kind : MoveKind) (pathType : PathType)
    (thickness : Float) (point : Point) :
    (layerSegments (b.push kind pathType thickness point).layers).map Segment.thickness =
      (layerSegments b.layers).map Segment.thickness ++
        if b.current.heading = (kind, pathType) then [] else [thickness] := by
  rw [layerSegments_layers, layerSegments_layers, closed_push]
  by_cases h : b.current.accepts kind pathType
  · rw [push_of_accepts h, if_pos (Segment.accepts_iff_heading.mp h), List.append_nil,
      List.map_append, List.map_append, List.map_append, List.map_append]
    rfl
  · rw [push_of_not_accepts h, if_neg fun heq => h (Segment.accepts_iff_heading.mpr heq),
      Array.toList_push, ← List.append_assoc, List.map_append]
    rfl

/-- A layer marker adds a segment with the thickness of the growing one. -/
theorem thicknesses_mark (b : Builder) (marker : Bool) :
    (layerSegments (b.applyAll (if marker then [.closeLayer] else [])).layers).map
        Segment.thickness =
      (layerSegments b.layers).map Segment.thickness ++
        if marker then [b.current.thickness] else [] := by
  cases marker with
  | false => exact (List.append_nil _).symm
  | true =>
    show (layerSegments b.closeLayer.layers).map _ = _
    rw [layerSegments_layers b.closeLayer, List.map_append]
    rfl

end Builder

/-- **The thickness of each segment is the one that its travel implies.** -/
theorem Pass.thicknesses_run (setup : Setup) (texts : List (List Char)) :
    (layerSegments (run setup texts).builder.layers).map Segment.thickness =
      (thicknessSources setup texts).map setup.rule.implied := by
  induction texts using List.reverseRecOn with
  | nil => rfl
  | append_singleton front text ih =>
    have hmarked : (layerSegments ((run setup front).builder.applyAll
          (if (annotate text).layerBoundary then [.closeLayer] else [])).layers).map
            Segment.thickness =
        (thicknessSources setup front).map setup.rule.implied ++
          (if (annotate text).layerBoundary then
            [lastHeightChange setup (throughLastOpening setup front)]
          else []).map setup.rule.implied := by
      rw [Builder.thicknesses_mark, ih, thickness_current_run, openingThickness_eq]
      split <;> rfl
    have hsources : thicknessSources setup (front ++ [text]) =
        thicknessSources setup front ++ sourcesOfLine setup front text := by
      unfold thicknessSources
      rw [alongHistory_concat, List.cons_append]
    have hthickness := thickness_run setup (front ++ [text])
    have htype := pathType_run setup (front ++ [text])
    rw [hsources, sourcesOfLine, List.map_append, List.map_append, ← List.append_assoc, ← hmarked]
    rw [run_concat] at hthickness htype ⊢
    by_cases h : IsMove text
    · rw [builder_feed_of_isMove setup _ h, Builder.thicknesses_push,
        Builder.heading_current_mark, heading_current_run, htype, hthickness]
      congr 1
      by_cases hturns : lastHeading setup front =
        (kindOfMove (run setup front).machine text, lastPathType (front ++ [text]))
      · rw [if_pos hturns, if_neg fun hopens : Opens setup front text => hopens.2 hturns]
        rfl
      · rw [if_neg hturns, if_pos (show Opens setup front text from ⟨h, hturns⟩)]
        rfl
    · rw [builder_feed_of_not_isMove setup _ h,
        if_neg fun hopens : Opens setup front text => h hopens.1]
      exact (List.append_nil _).symm

/-! ## Heights -/

/-- A travel to another height leads from the height behind some lines to another one that is
that behind one line more. -/
theorem exists_prefix_of_mem_heightChanges {setup : Setup} {texts : List (List Char)}
    {change : HeightChange} (h : change ∈ alongHistory (heightChangesOfLine setup) texts) :
    ∃ front text, front ++ [text] <+: texts ∧
      change.old = (Pass.run setup front).machine.position.z ∧
      change.new = (Pass.run setup (front ++ [text])).machine.position.z ∧
      change.old != change.new := by
  obtain ⟨front, text, hprefix, hline⟩ := exists_of_mem_alongHistory h
  refine ⟨front, text, hprefix, ?_⟩
  unfold heightChangesOfLine at hline
  split at hline
  · next hchanges =>
    rw [List.mem_singleton.mp hline]
    refine ⟨rfl, rfl, ?_⟩
    show _ != (Pass.run setup (front ++ [text])).machine.position.z
    rw [Pass.run_concat, Pass.machine_feed]
    exact hchanges.2.2
  · exact absurd hline List.not_mem_nil

namespace ThicknessRule

/-- With the usual rule a travel to height zero is a drop to the bed if it starts above 5 mm. -/
theorem isDrop_standard_iff {old new : Float} (hold : old.isFinite) (hnew : new == 0.0) :
    standard.isDrop old new ↔ 5.0 < old := by
  have hfinite : new.isFinite := by
    rcases Number.beq_zero_iff.mp hnew with rfl | rfl <;> rfl
  have hzero : Number.real new = 0 := (Number.beq_iff_real hfinite rfl).mp hnew
  have hfive : (0 : ℝ) < Number.real 5.0 := by
    have hlt : (0.0 : Float) < 5.0 := by decide
    rwa [Number.lt_iff_real rfl rfl, Number.real_zero] at hlt
  -- nothing is rounded when zero is taken away
  obtain ⟨hdifference, hreal⟩ := (Number.rounds_sub hold hfinite).real_eq (by
    rw [hzero, sub_zero]
    exact Number.representable_real hold)
  rw [hzero, sub_zero] at hreal
  unfold isDrop standard
  rw [Bool.and_eq_true, Bool.and_eq_true, decide_eq_true_iff, decide_eq_true_iff,
    decide_eq_true_iff, Number.lt_iff_real hfinite hold, Number.lt_iff_real hfinite rfl,
    Number.lt_iff_real rfl (Number.isFinite_abs hdifference), Number.lt_iff_real rfl hold,
    Number.real_abs, hreal, hzero, Number.real_one]
  constructor
  · rintro ⟨⟨hpos, hdeep⟩, -⟩
    rwa [abs_of_pos hpos] at hdeep
  · intro hdeep
    have hpos := hfive.trans hdeep
    exact ⟨⟨hpos, by rwa [abs_of_pos hpos]⟩, one_pos⟩

/-- **The thickness that a travel to another height implies is positive**, unless it is a drop to
the bed that ends at zero. -/
theorem pos_thickness_iff (rule : ThicknessRule) {old new : Float} (hold : old.isFinite)
    (hnew : new.isFinite) (hne : old != new) :
    0.0 < rule.thickness old new ↔ ¬ (rule.isDrop old new ∧ new == 0.0) := by
  unfold thickness
  by_cases hdrop : rule.isDrop old new
  · have hsymm : (0.0 == new) = (new == 0.0) := BEq.comm
    rw [if_pos hdrop, Number.pos_abs_sub_iff rfl hnew, hsymm]
    exact not_congr (and_iff_right hdrop).symm
  · rw [if_neg hdrop, Number.pos_abs_sub_iff hold hnew]
    refine iff_of_true (fun heq => ?_) fun h => hdrop h.1
    rw [bne, heq] at hne
    exact Bool.false_ne_true hne

/-- With the usual rule, what is implied is positive unless it goes back to a travel from above 5 mm
to zero, and then it is zero. -/
theorem pos_implied_standard_iff {source : Option HeightChange}
    (h : ∀ change ∈ source,
      change.old.isFinite ∧ change.new.isFinite ∧ change.old != change.new) :
    (0.0 < standard.implied source ↔ ¬ DropsToZero source) ∧
      (DropsToZero source → standard.implied source = 0.0) := by
  cases source with
  | none =>
    have hnone : ¬ DropsToZero none := fun ⟨_, hchange, _⟩ => absurd hchange (by simp)
    have hdefault : 0.0 < standard.implied none := by decide
    exact ⟨iff_of_true hdefault hnone, fun hdrops => absurd hdrops hnone⟩
  | some change =>
    obtain ⟨hold, hnew, hne⟩ := h change rfl
    have hdrops : DropsToZero (some change) ↔
        standard.isDrop change.old change.new ∧ change.new == 0.0 := by
      constructor
      · rintro ⟨_, hchange, hdeep, hzero⟩
        obtain rfl := Option.mem_some.mp hchange
        exact ⟨(isDrop_standard_iff hold hzero).mpr hdeep, hzero⟩
      · rintro ⟨hdrop, hzero⟩
        exact ⟨change, rfl, (isDrop_standard_iff hold hzero).mp hdrop, hzero⟩
    rw [hdrops]
    refine ⟨pos_thickness_iff standard hold hnew hne, fun ⟨hdrop, hzero⟩ => ?_⟩
    show standard.thickness change.old change.new = 0.0
    rw [thickness, if_pos hdrop]
    rcases Number.beq_zero_iff.mp hzero with hnew | hnew
    · rw [hnew]
      decide
    · rw [hnew]
      decide

end ThicknessRule

/-! ## Runs -/

namespace Pass

variable {setup : Setup} {texts : List (List Char)}

/-- As long as the head stays at finite heights, each thickness goes back to a travel between
finite heights that differ. -/
theorem finite_of_mem_thicknessSources
    (h : ∀ part, part <+: texts → (run setup part).machine.position.z.isFinite)
    {source : Option HeightChange} (hsource : source ∈ thicknessSources setup texts) :
    ∀ change ∈ source, change ∈ alongHistory (heightChangesOfLine setup) texts ∧
      change.old.isFinite ∧ change.new.isFinite ∧ change.old != change.new := by
  intro change hchange
  obtain ⟨front, hfront, rfl⟩ := exists_prefix_of_mem_thicknessSources hsource
  have hmem : change ∈ alongHistory (heightChangesOfLine setup) texts :=
    (alongHistory_mono _ hfront).subset (List.mem_of_getLast? hchange)
  obtain ⟨before, text, hline, hold, hnew, hne⟩ := exists_prefix_of_mem_heightChanges hmem
  rw [hold, hnew] at hne ⊢
  exact ⟨hmem, h before ((List.prefix_append _ _).trans hline), h _ hline, hne⟩

/-- **The thickness of a segment is positive unless it goes back to a travel from above 5 mm to
zero**, and then it is zero.  So if no travel of the program is like that, all of them are
positive.  The heights have to stay finite. -/
theorem pos_thickness_run (profile : Profile) (texts : List (List Char))
    (h : ∀ part, part <+: texts →
      (run ⟨profile, .standard⟩ part).machine.position.z.isFinite) :
    let setup : Setup := ⟨profile, .standard⟩
    let segments := layerSegments (run setup texts).finish.layers
    List.Forall₂ (fun source s =>
        s.thickness = ThicknessRule.standard.implied source ∧
          (0.0 < s.thickness ↔ ¬ DropsToZero source) ∧
          (DropsToZero source → s.thickness = 0.0))
        (thicknessSources setup texts) segments ∧
      ((∀ change ∈ alongHistory (heightChangesOfLine setup) texts,
          ¬ (5.0 < change.old ∧ change.new == 0.0)) →
        ∀ s ∈ segments, 0.0 < s.thickness) := by
  intro setup segments
  have hthicknesses : segments.map Segment.thickness =
      (thicknessSources setup texts).map setup.rule.implied := thicknesses_run setup texts
  have hpos : ∀ source ∈ thicknessSources setup texts,
      (0.0 < setup.rule.implied source ↔ ¬ DropsToZero source) ∧
        (DropsToZero source → setup.rule.implied source = 0.0) := fun source hmem =>
    ThicknessRule.pos_implied_standard_iff fun change hchange =>
      (finite_of_mem_thicknessSources h hmem change hchange).2
  constructor
  · have hsources : List.Forall₂ (fun source s => s.thickness = setup.rule.implied source)
        (thicknessSources setup texts) segments := by
      refine List.Forall₂.flip ?_
      rwa [← List.forall₂_eq_eq_eq, List.forall₂_map_left_iff, List.forall₂_map_right_iff]
        at hthicknesses
    have hmem := (List.forall₂_and_left _ _).mpr ⟨fun _ hmem => hmem, hsources⟩
    refine hmem.imp fun source s ⟨hsource, hthickness⟩ => ⟨hthickness, ?_⟩
    rw [hthickness]
    exact hpos source hsource
  · intro hnone s hs
    obtain ⟨source, hmem, hthickness⟩ :=
      List.mem_map.mp (hthicknesses ▸ List.mem_map_of_mem hs)
    rw [← hthickness, (hpos source hmem).1]
    rintro ⟨change, hchange, hdrops⟩
    exact hnone change (finite_of_mem_thicknessSources h hmem change hchange).1 hdrops

end Pass

/-! ## Programs that drop to the bed -/

/-- A drop from above the bed to the first layer, and homing behind it. -/
def dropToLayer : List (List Char) :=
  ["G1 Z15", "G1 Z0.3", "G1 X5 E1", "G28", ";LAYER:1", "G1 Z0.2", "G1 X6 E2"].map String.toList

/-- A drop from above the bed to zero. -/
def dropToZero : List (List Char) :=
  ["G1 Z15", "G1 Z0", "G1 X1 E1"].map String.toList

/-- The drop of `dropToLayer` is measured from the bed, and all thicknesses are positive.
Behind the drop of `dropToZero` a segment has no thickness. -/
theorem Pass.pos_thickness_run_drops :
    let setup : Setup := ⟨.empty, .standard⟩
    thicknessSources setup dropToLayer =
        [none, some ⟨15.0, 0.3⟩, some ⟨15.0, 0.3⟩, some ⟨0.0, 0.2⟩, some ⟨0.0, 0.2⟩] ∧
      (∀ s ∈ layerSegments (run setup dropToLayer).finish.layers, 0.0 < s.thickness) ∧
      thicknessSources setup dropToZero = [none, some ⟨15.0, 0.0⟩] ∧
      ∃ s ∈ layerSegments (run setup dropToZero).finish.layers, s.thickness = 0.0 := by
  intro setup
  have hlayer : ∀ part ∈ dropToLayer.inits, (run setup part).machine.position.z.isFinite := by
    decide +kernel
  have hzero : ∀ part ∈ dropToZero.inits, (run setup part).machine.position.z.isFinite := by
    decide +kernel
  have hnone : ∀ change ∈ alongHistory (heightChangesOfLine setup) dropToLayer,
      ¬ (5.0 < change.old ∧ change.new == 0.0) := by
    decide +kernel
  have hsources : thicknessSources setup dropToZero = [none, some ⟨15.0, 0.0⟩] := by
    decide +kernel
  have hdrops : DropsToZero (some ⟨15.0, 0.0⟩) := ⟨_, rfl, by decide, by decide⟩
  obtain ⟨-, hpos⟩ := pos_thickness_run .empty dropToLayer fun part hpart =>
    hlayer part ((List.mem_inits _ _).mpr hpart)
  obtain ⟨hthicknesses, -⟩ := pos_thickness_run .empty dropToZero fun part hpart =>
    hzero part ((List.mem_inits _ _).mpr hpart)
  rw [hsources] at hthicknesses
  obtain ⟨first, _, -, hrest, hsegments⟩ := List.forall₂_cons_left_iff.mp hthicknesses
  obtain ⟨last, others, hlast, -, rfl⟩ := List.forall₂_cons_left_iff.mp hrest
  refine ⟨by decide +kernel, hpos hnone, hsources, last, ?_, hlast.2.2 hdrops⟩
  rw [hsegments]
  exact List.mem_cons_of_mem _ List.mem_cons_self

/-- **A thickness may be zero**: that of the segment behind the drop of `dropToZero`. -/
theorem not_pos_thickness_run :
    ¬ ∀ (profile : Profile) (texts : List (List Char)),
      (∀ part, part <+: texts →
        (Pass.run ⟨profile, .standard⟩ part).machine.position.z.isFinite) →
      ∀ s ∈ layerSegments (Pass.run ⟨profile, .standard⟩ texts).finish.layers,
        0.0 < s.thickness := by
  intro h
  have hzero : ∀ part ∈ dropToZero.inits,
      (Pass.run ⟨.empty, .standard⟩ part).machine.position.z.isFinite := by
    decide +kernel
  have hpos := h .empty dropToZero fun part hpart =>
    hzero part ((List.mem_inits _ _).mpr hpart)
  revert hpos
  decide +kernel

end PrintPath
