import Mathlib.Data.List.DropRight
import PrintPath.Proofs.Codes
import PrintPath.Proofs.RecordedMoves

/-!
# Where the head is, and where the path ends

A pass keeps the place of the head twice: the machine has a position, and the toolpath ends
at a point.  The time of a move is computed from the first, the path is drawn from the
second.  A move sets both to the same place.  Nothing else extends the path, but one thing
else moves the head: homing puts some axes to zero without recording a point.

So the head stands where the path ends, but for the axes that were homed since
(`position_run`).  `motion_of_move` draws the conclusion for a move.  It joins the last
point of the path to a new one, and the time it takes is that of the distance from the
place of the head to the new point.  That is the distance between the two points if the
head was not homed in between; `not_position_eq_lastPoint` has an example in which it was.
-/

namespace PrintPath

open GCode

/-- A place with the named axes moved to zero. -/
def Position.homed (named : Axes Bool) (place : Position) : Position :=
  Axes.zipWith (fun isNamed (old : Float) => if isNamed then 0.0 else old) named place

/-- The axes that the code of a line homes: the named ones, or all if none is named. -/
def homedAxes (text : List Char) : Axes Bool :=
  if IsHoming text then
    if (axisWords (annotate text).code).any id then axisWords (annotate text).code else .all true
  else .all false

/-- The lines behind the last move of a program. -/
def linesSinceMove (texts : List (List Char)) : List (List Char) :=
  texts.rtakeWhile fun text => ¬ IsMove text

/-- The axes that were homed behind the last move of a program. -/
def homedSinceMove (texts : List (List Char)) : Axes Bool :=
  (linesSinceMove texts).foldl (fun homed text => Axes.zipWith or homed (homedAxes text))
    (.all false)

/-- The last point that was recorded so far. -/
def Pass.lastPoint (pass : Pass) : Point :=
  pass.builder.current.last

/-! ## Homing -/

namespace Position

@[simp] theorem homed_none (place : Position) : homed (.all false) place = place := rfl

@[simp] theorem homed_all (place : Position) : homed (.all true) place = origin := rfl

/-- Homing some axes and then others is homing them all. -/
theorem homed_homed (first second : Axes Bool) (place : Position) :
    homed second (homed first place) = homed (Axes.zipWith or first second) place := by
  obtain ⟨a, b, c⟩ := first
  obtain ⟨d, e, f⟩ := second
  unfold homed Axes.zipWith
  cases a <;> cases b <;> cases c <;> cases d <;> cases e <;> cases f <;> rfl

end Position

theorem homedAxes_of_not_isHoming {text : List Char} (h : ¬ IsHoming text) :
    homedAxes text = .all false :=
  if_neg h

theorem homedSinceMove_concat_of_isMove (front : List (List Char)) {text : List Char}
    (h : IsMove text) : homedSinceMove (front ++ [text]) = .all false := by
  unfold homedSinceMove linesSinceMove
  rw [List.rtakeWhile_concat_neg]
  · rfl
  · simpa using h

theorem homedSinceMove_concat_of_not_isMove (front : List (List Char)) {text : List Char}
    (h : ¬ IsMove text) :
    homedSinceMove (front ++ [text]) =
      Axes.zipWith or (homedSinceMove front) (homedAxes text) := by
  unfold homedSinceMove linesSinceMove
  rw [List.rtakeWhile_concat_pos, List.foldl_append]
  · rfl
  · simpa using h

/-- Lines that do not home leave all axes as they are. -/
theorem homedSinceMove_of_not_isHoming {texts : List (List Char)}
    (h : ∀ text ∈ linesSinceMove texts, ¬ IsHoming text) : homedSinceMove texts = .all false := by
  unfold homedSinceMove
  generalize linesSinceMove texts = lines at h ⊢
  induction lines using List.reverseRecOn with
  | nil => rfl
  | append_singleton front text ih =>
    have hfront := ih fun other hother => h other (List.mem_append_left _ hother)
    rw [List.foldl_append, hfront]
    show Axes.zipWith or (.all false) (homedAxes text) = _
    rw [homedAxes_of_not_isHoming (h text (List.mem_append_right _ List.mem_cons_self))]
    rfl

/-! ## What a line does to the head -/

namespace Machine

/-- A command that neither moves nor homes leaves the head where it is. -/
theorem position_execute {command : Command}
    (hmove : ∀ target extrusion feedRate, command ≠ .move target extrusion feedRate)
    (hhome : ∀ named, command ≠ .home named) (m : Machine) (rule : ThicknessRule) :
    (m.execute rule command).position = m.position := by
  cases command with
  | move target extrusion feedRate => exact absurd rfl (hmove target extrusion feedRate)
  | home named => exact absurd rfl (hhome named)
  | flow percent => cases percent <;> rfl
  | _ => rfl

theorem position_home (m : Machine) (named : Axes Bool) :
    (m.home named).position = m.position.homed (if named.any id then named else .all true) := by
  unfold home
  split
  · rfl
  · rfl

/-- **A line without a move homes what it homes and leaves the head there.** -/
theorem position_after_of_not_isMove (m : Machine) (setup : Setup) {text : List Char}
    (h : ¬ IsMove text) :
    (m.after setup (Line.read text)).position = m.position.homed (homedAxes text) := by
  unfold after
  by_cases hhoming : IsHoming text
  · rw [command_of_isHoming hhoming]
    show ((m.ready setup (Line.read text)).home _).position = _
    rw [position_home, position_ready]
    unfold homedAxes
    rw [if_pos hhoming]
  · rw [homedAxes_of_not_isHoming hhoming, Position.homed_none]
    cases hcommand : (Line.read text).command with
    | none => exact m.position_ready setup (Line.read text)
    | some command =>
      have hmove := command_of_not_isMove h
      rw [hcommand] at hmove
      refine (position_execute (fun t e f heq => hmove t e f (congrArg some heq)) ?_ _ _).trans
        (m.position_ready setup (Line.read text))
      rintro named rfl
      cases commandOn_of_command hcommand with
      | home hcode => exact hhoming hcode

/-- A move takes time if it names an axis and the feed rate is above zero, and then as much
as the way from where the head was takes at this rate. -/
theorem minutes_after_of_isMove (m : Machine) (setup : Setup) {text : List Char}
    (h : IsMove text) :
    (m.after setup (Line.read text)).minutes =
      if (axisNumbers (annotate text).code).any Option.isSome ∧
          0.0 < (m.after setup (Line.read text)).feedRate then
        m.minutes + m.position.distance (m.after setup (Line.read text)).position /
          (m.after setup (Line.read text)).feedRate
      else m.minutes := by
  obtain ⟨_, _, _, _, hready⟩ := m.exists_ready_eq setup (Line.read text)
  rw [m.after_of_isMove setup h, hready]
  rfl

end Machine

namespace Pass

variable (setup : Setup)

/-! ## What a line does to the path -/

/-- A line without a move leaves the end of the path where it is. -/
theorem lastPoint_feed_of_not_isMove (pass : Pass) {text : List Char} (h : ¬ IsMove text) :
    (pass.feed setup (Line.read text)).lastPoint = pass.lastPoint := by
  unfold lastPoint
  rw [builder_feed_of_not_isMove setup pass h]
  exact pass.builder.last_current_mark _

/-- The path ends at the machine's point behind a move. -/
theorem lastPoint_feed_of_isMove (pass : Pass) {text : List Char} (h : IsMove text) :
    (pass.feed setup (Line.read text)).lastPoint =
      (pass.feed setup (Line.read text)).machine.point := by
  unfold lastPoint
  rw [builder_feed_of_isMove setup pass h]
  exact Builder.last_current_push _ _ _ _ _

/-- A move adds its point to a segment, right behind the one at which the path ended. -/
theorem points_feed_of_isMove (pass : Pass) {text : List Char} (h : IsMove text) :
    ∃ earlier, (pass.feed setup (Line.read text)).builder.current.points =
      earlier ++ [pass.lastPoint, (pass.feed setup (Line.read text)).lastPoint] := by
  rw [lastPoint_feed_of_isMove setup pass h, builder_feed_of_isMove setup pass h]
  unfold lastPoint
  rw [← Builder.last_current_mark pass.builder (annotate text).layerBoundary]
  exact Builder.points_current_push _ _ _ _ _

/-! ## Runs -/

/-- **The head stands where the path ends, but for the axes homed since.** -/
theorem position_run (texts : List (List Char)) :
    (run setup texts).machine.position =
      (run setup texts).lastPoint.position.homed (homedSinceMove texts) := by
  induction texts using List.reverseRecOn with
  | nil => rfl
  | append_singleton front text ih =>
    rw [run_concat]
    by_cases h : IsMove text
    · rw [lastPoint_feed_of_isMove setup _ h, homedSinceMove_concat_of_isMove front h]
      rfl
    · rw [lastPoint_feed_of_not_isMove setup _ h, homedSinceMove_concat_of_not_isMove front h,
        ← Position.homed_homed, ← ih, machine_feed, Machine.position_after_of_not_isMove _ _ h]

/-- **Print time and path describe the same motion, up to homing.**  Before a move the head
stands where the path ends, with the axes at zero that were homed since the last move.  The
move goes on from the end of the path to the new point, and the way that its time is
computed from leads from the place of the head to the new point. -/
theorem motion_of_move (front : List (List Char)) (text : List Char) (h : IsMove text) :
    let before := run setup front
    let after := run setup (front ++ [text])
    let place := before.lastPoint.position.homed (homedSinceMove front)
    before.machine.position = place ∧
      ((∀ line ∈ linesSinceMove front, ¬ IsHoming line) → place = before.lastPoint.position) ∧
      (∃ earlier, after.builder.current.points =
        earlier ++ [before.lastPoint, after.lastPoint]) ∧
      after.machine.minutes =
        if (axisNumbers (annotate text).code).any Option.isSome ∧
            0.0 < after.machine.feedRate then
          before.machine.minutes +
            place.distance after.lastPoint.position / after.machine.feedRate
        else before.machine.minutes := by
  intro before after place
  have hplace : before.machine.position = place := position_run setup front
  have hafter : after = before.feed setup (Line.read text) := run_concat setup front text
  refine ⟨hplace, ?_, ?_, ?_⟩
  · intro hlines
    show before.lastPoint.position.homed (homedSinceMove front) = _
    rw [homedSinceMove_of_not_isHoming hlines, Position.homed_none]
  · rw [hafter]
    exact points_feed_of_isMove setup before h
  · rw [hafter, lastPoint_feed_of_isMove setup before h, machine_feed,
      Machine.minutes_after_of_isMove _ _ h, hplace]
    rfl

end Pass

/-! ## A program that homes between two moves -/

/-- A move along one axis, and homing behind it. -/
def moveThenHome : List (List Char) := ["G1 X10".toList, "G28".toList]

/-- The move of `moveThenHome` once more.  The path goes on where it ended, and the move
takes the time of the way from the origin. -/
theorem motion_of_move_behind_homing :
    let before := Pass.run ⟨.empty, .standard⟩ moveThenHome
    let after := Pass.run ⟨.empty, .standard⟩ (moveThenHome ++ ["G1 X10".toList])
    IsMove "G1 X10".toList ∧
      before.machine.position = .origin ∧
      (∃ earlier, after.builder.current.points =
        earlier ++ [before.lastPoint, after.lastPoint]) ∧
      after.machine.minutes = before.machine.minutes +
        Position.origin.distance after.lastPoint.position / after.machine.feedRate := by
  intro before after
  have hmove : IsMove "G1 X10".toList := by decide
  obtain ⟨hposition, -, hpoints, hminutes⟩ :=
    Pass.motion_of_move ⟨.empty, .standard⟩ moveThenHome "G1 X10".toList hmove
  have hhomed : homedSinceMove moveThenHome = .all true := by decide
  rw [hhomed, Position.homed_all] at hposition hminutes
  rw [if_pos (by decide)] at hminutes
  exact ⟨hmove, hposition, hpoints, hminutes⟩

/-- **The head need not stand where the path ends.**  Behind `moveThenHome` the head is at
the origin, and the path ends at 10 on the first axis. -/
theorem not_position_eq_lastPoint :
    ¬ ∀ (setup : Setup) (front : List (List Char)) (text : List Char), IsMove text →
      (Pass.run setup front).machine.position =
        (Pass.run setup front).lastPoint.position := by
  intro h
  have hposition := h ⟨.empty, .standard⟩ moveThenHome "G1 X10".toList (by decide)
  have hx := congrArg Axes.x hposition
  revert hx
  decide

end PrintPath
