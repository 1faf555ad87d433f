import PrintPath.Proofs.Contiguity
import PrintPath.Proofs.RecordedMoves

/-!
# The thickness that a layer starts with

The machine has a layer thickness, and each segment carries one.  A travel to another height
sets that of the machine, and a segment takes it over when a move opens it.  A layer marker opens
a segment as well, with which the new layer starts, but this one takes over the thickness of the
segment that it continues.

So a layer starts with the thickness that was in force when the segment in front of the marker
was opened (`startThickness_run`).  That need not be the one in force at the marker.  A travel to
another height is a move like any other: if the segment that is growing is one of travels of the
same path type, the move extends it, and the segment keeps the thickness that it has
(`Extends`).  A program that travels to the height of a layer and marks the layer then starts it
with the thickness of the layer before, or with that of the machine at the beginning
(`not_startThickness_eq_inForce`).  The two thicknesses agree where each such travel is followed
by a move that opens a segment.

Everything here is said of the machine and of the lines.  What the growing segment is like
follows from them: its kind and path type are those of the last move (`heading_current_run`).
-/

namespace PrintPath

open GCode

/-- The thickness of the first segment of a layer. -/
def Layer.startThickness? (l : Layer) : Option Float :=
  l.segments.toList.head?.map Segment.thickness

/-- The kind and the path type of a segment. -/
def Segment.heading (s : Segment) : MoveKind × PathType :=
  (s.kind, s.pathType)

/-! ## What a program leads one to expect -/

/-- The kind and the path type of the last move of a program.  Without any move it is as if the
head had travelled to where it is. -/
def lastHeading (setup : Setup) (texts : List (List Char)) : MoveKind × PathType :=
  ((alongHistory (movesOfLine setup) texts).getLast?.map fun move =>
    (move.kind, move.pathType)).getD (.travel, .custom)

/-- Whether a line behind some others opens a segment: it makes a move, and the kind or the path
type is not that of the move before. -/
def Opens (setup : Setup) (front : List (List Char)) (text : List Char) : Prop :=
  IsMove text ∧
    lastHeading setup front ≠
      (kindOfMove (Pass.run setup front).machine text, lastPathType (front ++ [text]))

instance (setup : Setup) (front : List (List Char)) (text : List Char) :
    Decidable (Opens setup front text) :=
  inferInstanceAs (Decidable (_ ∧ _))

/-- The thickness that the machine had behind the last line that opened a segment, or at the
beginning. -/
def openingThickness (setup : Setup) (texts : List (List Char)) : Float :=
  (alongHistory (fun front text =>
    if Opens setup front text then [(Pass.run setup (front ++ [text])).machine.thickness]
    else []) texts).getLast?.getD Machine.initial.thickness

/-- What a number is at the layer markers of a program, given what it is behind some lines. -/
def atMarker (value : List (List Char) → Float) (front : List (List Char)) (text : List Char) :
    List Float :=
  if (annotate text).layerBoundary then [value front] else []

/-- Whether a line moves the head to another height without driving the filament. -/
def ChangesHeight (setup : Setup) (m : Machine) (text : List Char) : Prop :=
  IsMove text ∧ kindOfMove m text = .travel ∧
    m.position.z != (m.after setup (Line.read text)).position.z

instance (setup : Setup) (m : Machine) (text : List Char) :
    Decidable (ChangesHeight setup m text) :=
  inferInstanceAs (Decidable (_ ∧ _))

/-- Whether a line behind some others travels to another height and goes on in a segment that is
there. -/
def Extends (setup : Setup) (front : List (List Char)) (text : List Char) : Prop :=
  ChangesHeight setup (Pass.run setup front).machine text ∧ ¬ Opens setup front text

instance (setup : Setup) (front : List (List Char)) (text : List Char) :
    Decidable (Extends setup front text) :=
  inferInstanceAs (Decidable (_ ∧ _))

/-! ## The thickness of the machine -/

namespace Machine

theorem thickness_ready (m : Machine) (setup : Setup) (line : Line) :
    (m.ready setup line).thickness = m.thickness := by
  obtain ⟨_, _, _, _, h⟩ := m.exists_ready_eq setup line
  rw [h]

/-- A command that is no move leaves the thickness as it is. -/
theorem thickness_execute {command : Command}
    (hmove : ∀ target extrusion feedRate, command ≠ .move target extrusion feedRate)
    (m : Machine) (rule : ThicknessRule) : (m.execute rule command).thickness = m.thickness := by
  cases command with
  | move target extrusion feedRate => exact absurd rfl (hmove target extrusion feedRate)
  | home named =>
    show (m.home named).thickness = m.thickness
    unfold home
    split <;> rfl
  | flow percent => cases percent <;> rfl
  | _ => rfl

/-- **A travel to another height sets the thickness, and nothing else does.** -/
theorem thickness_after (m : Machine) (setup : Setup) (text : List Char) :
    (m.after setup (Line.read text)).thickness =
      if ChangesHeight setup m text then
        setup.rule.thickness m.position.z (m.after setup (Line.read text)).position.z
      else m.thickness := by
  by_cases h : IsMove text
  · have hchanges : ((m.ready setup (Line.read text)).moveKind
          (number? 'E' (annotate text).code) = .travel ∧
        (m.ready setup (Line.read text)).position.z !=
          (m.after setup (Line.read text)).position.z) ↔ ChangesHeight setup m text := by
      rw [moveKind_ready, moveKind_eq_kindOfMove, position_ready]
      exact (and_iff_right h).symm
    rw [← m.thickness_ready setup (Line.read text), ← m.position_ready setup (Line.read text)]
    rw [m.after_of_isMove setup h] at hchanges ⊢
    exact if_congr hchanges rfl rfl
  · rw [if_neg fun hchanges => h hchanges.1, ← m.thickness_ready setup (Line.read text)]
    have hmove := command_of_not_isMove h
    unfold after
    cases hcommand : (Line.read text).command with
    | none => rfl
    | some command =>
      rw [hcommand] at hmove
      exact thickness_execute (fun t e f heq => hmove t e f (congrArg some heq)) _ _

end Machine

/-! ## The growing segment -/

namespace Segment

theorem accepts_iff_heading {s : Segment} {kind : MoveKind} {pathType : PathType} :
    s.accepts kind pathType ↔ s.heading = (kind, pathType) := by
  rw [heading, Prod.mk.injEq]
  exact accepts_iff

end Segment

namespace Builder

/-- Behind a move the growing segment is one of moves of its kind and path type. -/
theorem heading_current_push (b : Builder) (kind : MoveKind) (pathType : PathType)
    (thickness : Float) (point : Point) :
    (b.push kind pathType thickness point).current.heading = (kind, pathType) := by
  by_cases h : b.current.accepts kind pathType
  · rw [push_of_accepts h]
    exact Segment.accepts_iff_heading.mp h
  · rw [push_of_not_accepts h]
    rfl

/-- A move gives its thickness to the segment that it opens, and to no other one. -/
theorem thickness_current_push (b : Builder) (kind : MoveKind) (pathType : PathType)
    (thickness : Float) (point : Point) :
    (b.push kind pathType thickness point).current.thickness =
      if b.current.heading = (kind, pathType) then b.current.thickness else thickness := by
  by_cases h : b.current.accepts kind pathType
  · rw [push_of_accepts h, if_pos (Segment.accepts_iff_heading.mp h)]
    rfl
  · rw [push_of_not_accepts h, if_neg fun heq => h (Segment.accepts_iff_heading.mpr heq)]
    rfl

/-- Behind a layer marker the growing segment is of the same kind and path type. -/
theorem heading_current_mark (b : Builder) (marker : Bool) :
    (b.applyAll (if marker then [.closeLayer] else [])).current.heading = b.current.heading := by
  cases marker <;> rfl

/-- Behind a layer marker the growing segment carries the same thickness. -/
theorem thickness_current_mark (b : Builder) (marker : Bool) :
    (b.applyAll (if marker then [.closeLayer] else [])).current.thickness =
      b.current.thickness := by
  cases marker <;> rfl

end Builder

theorem lastHeading_concat (setup : Setup) (front : List (List Char)) (text : List Char) :
    lastHeading setup (front ++ [text]) =
      if IsMove text then
        (kindOfMove (Pass.run setup front).machine text, lastPathType (front ++ [text]))
      else lastHeading setup front := by
  unfold lastHeading
  rw [getLast?_alongHistory_concat, movesOfLine]
  split <;> rfl

theorem openingThickness_concat (setup : Setup) (front : List (List Char)) (text : List Char) :
    openingThickness setup (front ++ [text]) =
      if Opens setup front text then (Pass.run setup (front ++ [text])).machine.thickness
      else openingThickness setup front := by
  unfold openingThickness
  rw [getLast?_alongHistory_concat]
  split <;> rfl

namespace Pass

variable (setup : Setup)

/-- The growing segment is one of moves like the last one. -/
theorem heading_current_run (texts : List (List Char)) :
    (run setup texts).builder.current.heading = lastHeading setup texts := by
  induction texts using List.reverseRecOn with
  | nil => rfl
  | append_singleton front text ih =>
    rw [lastHeading_concat]
    by_cases h : IsMove text
    · rw [if_pos h, ← pathType_run setup (front ++ [text]), run_concat,
        builder_feed_of_isMove setup _ h, Builder.heading_current_push]
    · rw [if_neg h, run_concat, builder_feed_of_not_isMove setup _ h,
        Builder.heading_current_mark, ih]

/-- **The growing segment carries the thickness that was in force when it was opened**, or when
the one was opened that it continues. -/
theorem thickness_current_run (texts : List (List Char)) :
    (run setup texts).builder.current.thickness = openingThickness setup texts := by
  induction texts using List.reverseRecOn with
  | nil => rfl
  | append_singleton front text ih =>
    rw [openingThickness_concat]
    by_cases h : IsMove text
    · have hopens : Opens setup front text ↔ lastHeading setup front ≠
          (kindOfMove (run setup front).machine text, lastPathType (front ++ [text])) :=
        and_iff_right h
      rw [← pathType_run setup (front ++ [text]), ← heading_current_run] at hopens
      rw [run_concat] at hopens ⊢
      rw [builder_feed_of_isMove setup _ h, Builder.thickness_current_push,
        Builder.heading_current_mark, Builder.thickness_current_mark, ih]
      by_cases hsame : Opens setup front text
      · rw [if_neg (hopens.mp hsame), if_pos hsame]
      · rw [if_pos (not_ne_iff.mp fun hne => hsame (hopens.mpr hne)), if_neg hsame]
    · rw [if_neg fun hopens => h hopens.1, run_concat, builder_feed_of_not_isMove setup _ h,
        Builder.thickness_current_mark, ih]

end Pass

/-! ## The first segments of the layers -/

namespace Builder

/-- A move leaves alone what the layers start with. -/
theorem startThickness_push (b : Builder) (kind : MoveKind) (pathType : PathType)
    (thickness : Float) (point : Point) :
    (b.push kind pathType thickness point).layers.toList.map Layer.startThickness? =
      b.layers.toList.map Layer.startThickness? := by
  have hstart : ∀ l : Layer, l.startThickness? = l.opening.map fun opening => opening.2.2.1 := by
    intro l
    unfold Layer.startThickness? Layer.opening
    rw [Option.map_map]
    rfl
  rw [toList_layers, toList_layers, closed_push, List.map_append, List.map_append,
    List.map_singleton, List.map_singleton, hstart, hstart, opening_push]

/-- A layer marker adds a layer that starts with the thickness of the growing segment. -/
theorem startThickness_mark (b : Builder) (marker : Bool) :
    (b.applyAll (if marker then [.closeLayer] else [])).layers.toList.map Layer.startThickness? =
      b.layers.toList.map Layer.startThickness? ++
        if marker then [some b.current.thickness] else [] := by
  cases marker with
  | false => exact (List.append_nil _).symm
  | true =>
    show b.closeLayer.layers.toList.map _ = _
    rw [toList_layers b.closeLayer, List.map_append]
    rfl

end Builder

namespace Pass

variable (setup : Setup)

/-- **Each layer starts with the thickness that was in force when the segment in front of its
marker was opened.** -/
theorem startThickness_layers_run (texts : List (List Char)) :
    (run setup texts).builder.layers.toList.map Layer.startThickness? =
      some Machine.initial.thickness ::
        (alongHistory (atMarker (openingThickness setup)) texts).map some := by
  induction texts using List.reverseRecOn with
  | nil => rfl
  | append_singleton front text ih =>
    have hmarked : ((run setup front).builder.applyAll
          (if (annotate text).layerBoundary then [.closeLayer] else [])).layers.toList.map
            Layer.startThickness? =
        some Machine.initial.thickness ::
          (alongHistory (atMarker (openingThickness setup)) (front ++ [text])).map some := by
      rw [Builder.startThickness_mark, ih, thickness_current_run, alongHistory_concat,
        List.map_append, List.cons_append]
      unfold atMarker
      split <;> rfl
    rw [run_concat]
    by_cases h : IsMove text
    · rw [builder_feed_of_isMove setup _ h, Builder.startThickness_push, hmarked]
    · rw [builder_feed_of_not_isMove setup _ h, hmarked]

/-- A travel to another height that extends a segment sets the thickness of the machine, and the
segment keeps its own. -/
theorem thickness_run_of_extends (front : List (List Char)) {text : List Char}
    (h : Extends setup front text) :
    (run setup (front ++ [text])).machine.thickness =
        setup.rule.thickness (run setup front).machine.position.z
          (run setup (front ++ [text])).machine.position.z ∧
      openingThickness setup (front ++ [text]) = openingThickness setup front := by
  constructor
  · rw [run_concat, machine_feed, Machine.thickness_after, if_pos h.1]
  · rw [openingThickness_concat, if_neg h.2]

/-- **The two thicknesses agree if no such travel came last**: if behind each travel that
extends a segment another one was opened. -/
theorem openingThickness_eq_thickness {texts : List (List Char)}
    (h : ∀ before text after, texts = before ++ text :: after → Extends setup before text →
      ∃ between opener rest, after = between ++ opener :: rest ∧
        Opens setup (before ++ text :: between) opener) :
    openingThickness setup texts = (run setup texts).machine.thickness := by
  induction texts using List.reverseRecOn with
  | nil => rfl
  | append_singleton front last ih =>
    rw [openingThickness_concat]
    by_cases hopens : Opens setup front last
    · rw [if_pos hopens]
    · have hextends : ¬ Extends setup front last := by
        intro hextends
        obtain ⟨between, opener, rest, hnil, -⟩ := h front last [] rfl hextends
        exact List.cons_ne_nil _ _ (List.append_eq_nil_iff.mp hnil.symm).2
      have hkept : ¬ ChangesHeight setup (run setup front).machine last :=
        fun hchanges => hextends ⟨hchanges, hopens⟩
      rw [if_neg hopens, run_concat, machine_feed, Machine.thickness_after, if_neg hkept]
      refine ih fun before text after hfront htext => ?_
      rw [hfront] at hopens
      obtain ⟨between, opener, rest, hafter, hopener⟩ :=
        h before text (after ++ [last]) (by rw [hfront, List.append_assoc]; rfl) htext
      -- the line that opened a segment is not the last one, so it is one of the others
      rcases List.eq_nil_or_concat rest with rfl | ⟨rest, final, rfl⟩
      · obtain ⟨rfl, hlast⟩ := List.append_inj' hafter rfl
        rw [List.singleton_inj.mp hlast] at hopens
        exact absurd hopener hopens
      · rw [List.concat_eq_append, ← List.cons_append, ← List.append_assoc] at hafter
        exact ⟨between, opener, rest, (List.append_inj' hafter rfl).1, hopener⟩

end Pass

/-- **A layer starts with the thickness that was in force when the segment in front of its marker
was opened.**  That is the thickness in force at the marker if behind each travel to another
height that extended a segment another segment was opened.  Such a travel sets the thickness in
force and leaves that of the segment alone. -/
theorem startThickness_run (setup : Setup) :
    (∀ texts : List (List Char),
      (Pass.run setup texts).finish.layers.toList.tail.map Layer.startThickness? =
        (alongHistory (atMarker (openingThickness setup)) texts).map some) ∧
      (∀ texts : List (List Char),
        (∀ before text after, texts = before ++ text :: after → Extends setup before text →
          ∃ between opener rest, after = between ++ opener :: rest ∧
            Opens setup (before ++ text :: between) opener) →
        openingThickness setup texts = (Pass.run setup texts).machine.thickness) ∧
      ∀ (front : List (List Char)) (text : List Char), Extends setup front text →
        (Pass.run setup (front ++ [text])).machine.thickness =
            setup.rule.thickness (Pass.run setup front).machine.position.z
              (Pass.run setup (front ++ [text])).machine.position.z ∧
          openingThickness setup (front ++ [text]) = openingThickness setup front := by
  refine ⟨?_, ?_, ?_⟩
  · intro texts
    rw [List.map_tail]
    exact congrArg List.tail (Pass.startThickness_layers_run setup texts)
  · intro texts h
    exact Pass.openingThickness_eq_thickness setup h
  · intro front text h
    exact Pass.thickness_run_of_extends setup front h

/-! ## A program that travels to its first layer -/

/-- A travel to the height of a layer, and the marker of the layer. -/
def travelThenMark : List (List Char) := ["G1 Z0.3".toList, ";LAYER:0".toList]

/-- The travel of `travelThenMark`, and a move that feeds filament behind it. -/
def travelThenExtrude : List (List Char) := ["G1 Z0.3".toList, "G1 X5 E1".toList]

/-- The travel extends the first segment, and so the layer of `travelThenMark` starts with the
thickness of the beginning.  Behind `travelThenExtrude` a layer starts with the thickness that is
in force. -/
theorem startThickness_run_travelThenExtrude :
    let setup : Setup := ⟨.empty, .standard⟩
    (Pass.run setup travelThenMark).finish.layers.toList.tail.map Layer.startThickness? =
        [some 0.1] ∧
      Extends setup [] "G1 Z0.3".toList ∧
      (Pass.run setup ["G1 Z0.3".toList]).machine.thickness = setup.rule.thickness 0.0 0.3 ∧
      (∀ before text after, travelThenExtrude = before ++ text :: after →
        Extends setup before text →
        ∃ between opener rest, after = between ++ opener :: rest ∧
          Opens setup (before ++ text :: between) opener) ∧
      openingThickness setup travelThenExtrude =
        (Pass.run setup travelThenExtrude).machine.thickness ∧
      openingThickness setup travelThenExtrude = setup.rule.thickness 0.0 0.3 := by
  intro setup
  have hextends : Extends setup [] "G1 Z0.3".toList := by decide
  have hopens : Opens setup ["G1 Z0.3".toList] "G1 X5 E1".toList := by decide
  have hfollowed : ∀ before text after, travelThenExtrude = before ++ text :: after →
      Extends setup before text →
      ∃ between opener rest, after = between ++ opener :: rest ∧
        Opens setup (before ++ text :: between) opener := by
    intro before text after htexts htext
    rcases before with _ | ⟨first, _ | ⟨second, before⟩⟩
    · obtain ⟨rfl, rfl⟩ := List.cons.inj htexts
      exact ⟨[], _, [], rfl, hopens⟩
    · obtain ⟨rfl, hrest⟩ := List.cons.inj htexts
      obtain ⟨rfl, -⟩ := List.cons.inj hrest
      exact absurd hopens htext.2
    · have hlength := congrArg List.length htexts
      simp only [travelThenExtrude, List.length_append, List.length_cons, List.length_nil]
        at hlength
      omega
  obtain ⟨hlayers, hagree, hapart⟩ := startThickness_run setup
  refine ⟨(hlayers travelThenMark).trans (by decide), hextends, ?_, hfollowed,
    hagree travelThenExtrude hfollowed, by decide⟩
  exact (hapart [] "G1 Z0.3".toList hextends).1.trans (by decide)

/-- **A layer need not start with the thickness that is in force at its marker.**  At the marker
of `travelThenMark` the thickness in force is 0.3, and the layer starts with 0.1. -/
theorem not_startThickness_eq_inForce :
    ¬ ∀ (setup : Setup) (texts : List (List Char)),
      (Pass.run setup texts).finish.layers.toList.tail.map Layer.startThickness? =
        (alongHistory (atMarker fun front => (Pass.run setup front).machine.thickness)
          texts).map some := by
  intro h
  have hstart := h ⟨.empty, .standard⟩ travelThenMark
  revert hstart
  decide

end PrintPath
