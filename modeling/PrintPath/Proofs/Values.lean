import Mathlib.Data.List.Induction
import PrintPath.Proofs.ToolOffsets

/-!
# The numbers of a command and of a machine

Many statements say of all numbers in some place that they have a property: that they are
finite, or not too large.  For a command the place is its lengths, its feed rate and the
times it waits (`Command.Each`); for a machine it is the numbers that a run adds up
(`Machine.Each`).

Two facts hold of every line and every run.  The numbers of a command are finite
(`each_isFinite`), because nothing else is read as a number.  And the unit of length is a
millimetre or an inch (`scale_run`).
-/

namespace PrintPath

open GCode

/-- A property of the values on all three axes. -/
def Axes.All {α : Type} (P : α → Prop) (a : Axes α) : Prop :=
  P a.x ∧ P a.y ∧ P a.z

instance {α : Type} (P : α → Prop) [DecidablePred P] (a : Axes α) : Decidable (a.All P) :=
  inferInstanceAs (Decidable (_ ∧ _ ∧ _))

theorem Axes.All.imp {α : Type} {P Q : α → Prop} {a : Axes α} (ha : a.All P)
    (h : ∀ v, P v → Q v) : a.All Q :=
  ⟨h _ ha.1, h _ ha.2.1, h _ ha.2.2⟩

/-- A property of a value that may be missing. -/
def IfGiven (P : Float → Prop) (value : Option Float) : Prop :=
  ∀ v ∈ value, P v

instance (P : Float → Prop) [DecidablePred P] (value : Option Float) :
    Decidable (IfGiven P value) :=
  inferInstanceAs (Decidable (∀ v ∈ value, P v))

theorem IfGiven.imp {P Q : Float → Prop} {value : Option Float} (hvalue : IfGiven P value)
    (h : ∀ v, P v → Q v) : IfGiven Q value :=
  fun v hv => h v (hvalue v hv)

namespace GCode
namespace Command

/-- A property of the lengths of a command, of its feed rate and of the times it waits. -/
def Each (length rate wait : Float → Prop) : Command → Prop
  | move target extrusion feedRate =>
    target.All (IfGiven length) ∧ IfGiven length extrusion ∧ IfGiven rate feedRate
  | dwell seconds milliseconds => IfGiven wait seconds ∧ IfGiven wait milliseconds
  | redefine target extrusion => target.All (IfGiven length) ∧ IfGiven length extrusion
  | _ => True

instance (length rate wait : Float → Prop) [DecidablePred length] [DecidablePred rate]
    [DecidablePred wait] : (command : Command) → Decidable (command.Each length rate wait)
  | move _ _ _ => inferInstanceAs (Decidable (_ ∧ _ ∧ _))
  | dwell _ _ => inferInstanceAs (Decidable (_ ∧ _))
  | redefine _ _ => inferInstanceAs (Decidable (_ ∧ _))
  | units _ | home _ | positioning _ | extrusionMode _ | flow _ | inert | unknown _ _ =>
    inferInstanceAs (Decidable True)

theorem Each.imp {length rate wait length' rate' wait' : Float → Prop} {command : Command}
    (h : command.Each length rate wait) (hlength : ∀ v, length v → length' v)
    (hrate : ∀ v, rate v → rate' v) (hwait : ∀ v, wait v → wait' v) :
    command.Each length' rate' wait' := by
  cases command with
  | move target extrusion feedRate =>
    exact ⟨h.1.imp fun _ hv => hv.imp hlength, h.2.1.imp hlength, h.2.2.imp hrate⟩
  | dwell seconds milliseconds => exact ⟨h.1.imp hwait, h.2.imp hwait⟩
  | redefine target extrusion =>
    exact ⟨h.1.imp fun _ hv => hv.imp hlength, h.2.imp hlength⟩
  | _ => trivial

end Command

/-- A property of the lengths, feed rates and times on a line. -/
def EachValue (length rate wait : Float → Prop) (text : List Char) : Prop :=
  ∀ command ∈ (Line.read text).command, command.Each length rate wait

instance (length rate wait : Float → Prop) [DecidablePred length] [DecidablePred rate]
    [DecidablePred wait] (text : List Char) : Decidable (EachValue length rate wait text) :=
  inferInstanceAs (Decidable (∀ command ∈ (Line.read text).command, _))

theorem isFinite_number {letter : Char} {code : List Char} :
    IfGiven (fun v => v.isFinite) (number? letter code) := by
  intro v hv
  obtain ⟨text, -, hfinite⟩ := Option.bind_eq_some_iff.mp (Option.mem_def.mp hv)
  exact Number.isFinite_of_finite? hfinite

theorem EachValue.getD {length rate wait : Float → Prop} {text : List Char}
    (h : EachValue length rate wait text) :
    ((Line.read text).command.getD .inert).Each length rate wait := by
  cases hcommand : (Line.read text).command with
  | none => trivial
  | some command => exact h command hcommand

/-- **What is read as a number is finite.** -/
theorem each_isFinite (text : List Char) :
    EachValue (fun v => v.isFinite) (fun v => v.isFinite) (fun v => v.isFinite) text := by
  intro command hcommand
  cases commandOn_of_command hcommand with
  | move h =>
    exact ⟨⟨isFinite_number, isFinite_number, isFinite_number⟩, isFinite_number, isFinite_number⟩
  | dwell h => exact ⟨isFinite_number, isFinite_number⟩
  | redefine h => exact ⟨⟨isFinite_number, isFinite_number, isFinite_number⟩, isFinite_number⟩
  | _ => trivial

end GCode

namespace Machine

/-- A property of the numbers that a run adds up. -/
structure Each (P : Float → Prop) (m : Machine) : Prop where
  position : m.position.All P
  offset : m.offset.All P
  axis : P m.filament.axis
  total : P m.filament.total
  minutes : P m.minutes

instance (P : Float → Prop) [DecidablePred P] (m : Machine) : Decidable (m.Each P) :=
  decidable_of_iff (m.position.All P ∧ m.offset.All P ∧ P m.filament.axis ∧ P m.filament.total ∧
      P m.minutes)
    ⟨fun h => ⟨h.1, h.2.1, h.2.2.1, h.2.2.2.1, h.2.2.2.2⟩,
      fun h => ⟨h.position, h.offset, h.axis, h.total, h.minutes⟩⟩

/-! ## Where the numbers of a machine come from -/

section

variable {A B L P : Float → Prop} {m : Machine}

theorem resolve_of {current offset : Float} {value : Option Float} (hcurrent : A current)
    (hoffset : B offset) (hvalue : IfGiven L value) (hkeep : ∀ p, A p → P p)
    (habsolute : ∀ v o, L v → B o → P (v * m.scale + o))
    (hrelative : ∀ v p, L v → A p → P (p + v * m.scale)) :
    P (m.resolve current offset value) := by
  cases value with
  | none => exact hkeep current hcurrent
  | some v =>
    unfold resolve
    cases m.positioning with
    | absolute => exact habsolute v offset (hvalue v rfl) hoffset
    | relative => exact hrelative v current (hvalue v rfl) hcurrent

/-- A line carries out its command, if it has one, and nothing otherwise. -/
theorem after_eq_execute (m : Machine) (setup : Setup) (line : Line) :
    m.after setup line =
      (m.ready setup line).execute setup.rule (line.command.getD .inert) := by
  unfold after
  cases line.command <;> rfl

/-- **A coordinate of a destination** is an old one, or a length in the present unit, shifted
by the offset or added to an old coordinate. -/
theorem all_destination {target : Axes (Option Float)} (hposition : m.position.All A)
    (hoffset : m.offset.All B) (htarget : target.All (IfGiven L)) (hkeep : ∀ p, A p → P p)
    (habsolute : ∀ v o, L v → B o → P (v * m.scale + o))
    (hrelative : ∀ v p, L v → A p → P (p + v * m.scale)) :
    (m.destination target).All P :=
  ⟨resolve_of hposition.1 hoffset.1 htarget.1 hkeep habsolute hrelative,
    resolve_of hposition.2.1 hoffset.2.1 htarget.2.1 hkeep habsolute hrelative,
    resolve_of hposition.2.2 hoffset.2.2 htarget.2.2 hkeep habsolute hrelative⟩

/-- An offset in front of a command is an old one, perhaps shifted by what lies between two
tools. -/
theorem all_offset_ready {setup : Setup} (hoffset : m.offset.All B) (line : Line)
    (hkeep : ∀ o, B o → P o)
    (hshift : ∀ o old new, B o →
      P (o + ((setup.profile.toolOffset new).x - (setup.profile.toolOffset old).x)) ∧
        P (o + ((setup.profile.toolOffset new).y - (setup.profile.toolOffset old).y))) :
    (m.ready setup line).offset.All P := by
  unfold ready
  have hannounced : (m.announce line).offset.All B := hoffset
  rcases selectNamed_eq_or (m.announce line) setup.profile line.tool with
    hsame | ⟨tool, -, htool⟩
  · rw [hsame]
    exact hannounced.imp hkeep
  · rw [htool]
    exact ⟨(hshift _ _ tool hannounced.1).1, (hshift _ _ tool hannounced.2.1).2,
      hkeep _ hannounced.2.2⟩

/-- On an axis that it names, a redefinition keeps what lies between the two coordinates. -/
theorem offset_redefine (m : Machine) (target : Axes (Option Float)) (extrusion : Option Float) :
    (m.redefine target extrusion).offset =
      { x := target.x.elim m.offset.x (m.position.x - ·)
        y := target.y.elim m.offset.y (m.position.y - ·)
        z := target.z.elim m.offset.z (m.position.z - ·) } := by
  obtain ⟨x, y, z⟩ := target
  cases x <;> cases y <;> cases z <;> rfl

/-- An offset behind a command is an old one, or zero, or what lies between a coordinate and a
length. -/
theorem all_offset_execute {command : Command} {rate wait : Float → Prop}
    (hposition : m.position.All A) (hoffset : m.offset.All B)
    (hvalues : command.Each L rate wait) (rule : ThicknessRule) (hkeep : ∀ o, B o → P o)
    (hzero : P 0.0) (hredefine : ∀ v p, L v → A p → P (p - v)) :
    (m.execute rule command).offset.All P := by
  have hshift {position offset : Float} (hp : A position) (ho : B offset)
      (value : Option Float) (hv : IfGiven L value) :
      P (value.elim offset (position - ·)) := by
    cases value with
    | none => exact hkeep offset ho
    | some v => exact hredefine v position (hv v rfl) hp
  cases command with
  | home named =>
    show (m.home named).offset.All P
    unfold home
    split
    · exact hoffset.imp hkeep
    · exact ⟨hzero, hzero, hzero⟩
  | redefine target extrusion =>
    show (m.redefine target extrusion).offset.All P
    rw [offset_redefine]
    exact ⟨hshift hposition.1 hoffset.1 target.x hvalues.1.1,
      hshift hposition.2.1 hoffset.2.1 target.y hvalues.1.2.1,
      hshift hposition.2.2 hoffset.2.2 target.z hvalues.1.2.2⟩
  | flow percent => cases percent <;> exact hoffset.imp hkeep
  | _ => exact hoffset.imp hkeep

/-- The filament axis behind a command stays, or is where a length leads. -/
theorem axis_execute {command : Command} {rate wait : Float → Prop}
    (haxis : A m.filament.axis) (hvalues : command.Each L rate wait) (rule : ThicknessRule)
    (hkeep : ∀ a, A a → P a) (habsolute : ∀ v, L v → P v)
    (hrelative : ∀ v a, L v → A a → P (a + v)) :
    P (m.execute rule command).filament.axis := by
  cases command with
  | move target extrusion feedRate =>
    cases extrusion with
    | none => exact hkeep _ haxis
    | some v =>
      have hv := hvalues.2.1 v rfl
      show P (m.filament.target m.extrusion v)
      unfold FilamentCounter.target
      cases m.extrusion with
      | absolute => exact habsolute v hv
      | relative => exact hrelative v _ hv haxis
  | home named =>
    show P (m.home named).filament.axis
    unfold home
    split <;> exact hkeep _ haxis
  | redefine target extrusion =>
    cases extrusion with
    | none => exact hkeep _ haxis
    | some v => exact habsolute v (hvalues.2 v rfl)
  | flow percent => cases percent <;> exact hkeep _ haxis
  | _ => exact hkeep _ haxis

/-- **The filament total changes by what the axis moves.** -/
theorem total_execute (m : Machine) (rule : ThicknessRule) (command : Command) :
    (m.execute rule command).filament.total = m.filament.total ∨
      (m.execute rule command).filament.total = m.filament.total +
        ((m.execute rule command).filament.axis - m.filament.axis) := by
  cases command with
  | move target extrusion feedRate =>
    cases extrusion with
    | none => exact Or.inl rfl
    | some v => exact Or.inr rfl
  | home named =>
    left
    show (m.home named).filament.total = _
    unfold home
    split <;> rfl
  | redefine target extrusion => cases extrusion <;> exact Or.inl rfl
  | flow percent => cases percent <;> exact Or.inl rfl
  | _ => exact Or.inl rfl

end

/-! ## The unit of length -/

theorem scale_ready (m : Machine) (setup : Setup) (line : Line) :
    (m.ready setup line).scale = m.scale := by
  obtain ⟨_, _, _, _, h⟩ := m.exists_ready_eq setup line
  rw [h]

/-- A line leaves the unit as it is, or makes it an inch or a millimetre. -/
theorem scale_after (m : Machine) (setup : Setup) (text : List Char) :
    (m.after setup (Line.read text)).scale = m.scale ∨
      (m.after setup (Line.read text)).scale = millimetresPerInch ∨
        (m.after setup (Line.read text)).scale = 1.0 := by
  rw [← m.scale_ready setup (Line.read text)]
  unfold after
  generalize m.ready setup (Line.read text) = ready
  cases hcommand : (Line.read text).command with
  | none => exact Or.inl rfl
  | some command =>
    cases commandOn_of_command hcommand with
    | inches h => exact Or.inr (Or.inl rfl)
    | millimetres h => exact Or.inr (Or.inr rfl)
    | home h =>
      left
      show (ready.home _).scale = _
      unfold home
      split <;> rfl
    | flow hg h =>
      left
      cases number? 'S' (annotate text).code <;> rfl
    | _ => exact Or.inl rfl

/-! ## The feed rate -/

theorem feedRate_ready (m : Machine) (setup : Setup) (line : Line) :
    (m.ready setup line).feedRate = m.feedRate := by
  obtain ⟨_, _, _, _, h⟩ := m.exists_ready_eq setup line
  rw [h]

/-- A line leaves the feed rate as it is, or replaces it by that of a move. -/
theorem feedRate_after (m : Machine) (setup : Setup) (line : Line) :
    (m.after setup line).feedRate = m.feedRate ∨
      ∃ target extrusion, line.command =
        some (.move target extrusion (some (m.after setup line).feedRate)) := by
  rw [← m.feedRate_ready setup line]
  unfold after
  generalize m.ready setup line = ready
  rcases line.command with _ | command
  · exact Or.inl rfl
  · cases command with
    | move target extrusion feedRate =>
      cases feedRate with
      | none => exact Or.inl rfl
      | some rate => exact Or.inr ⟨target, extrusion, rfl⟩
    | home named =>
      left
      show (ready.home named).feedRate = _
      unfold home
      split <;> rfl
    | flow percent =>
      left
      cases percent <;> rfl
    | _ => exact Or.inl rfl

/-- What holds of the feed rate, and of the one that a line sets, holds behind the line. -/
theorem feedRate_after_of {P : Float → Prop} {m : Machine} (hm : P m.feedRate) (setup : Setup)
    {text : List Char} (h : EachValue (fun _ => True) P (fun _ => True) text) :
    P (m.after setup (Line.read text)).feedRate := by
  rcases m.feedRate_after setup (Line.read text) with hsame | ⟨target, extrusion, hcommand⟩
  · rw [hsame]
    exact hm
  · exact (h _ hcommand).2.2 _ rfl

/-- The feed rate stays finite. -/
theorem isFinite_feedRate_after {m : Machine} (hm : m.feedRate.isFinite) (setup : Setup)
    (text : List Char) : (m.after setup (Line.read text)).feedRate.isFinite :=
  feedRate_after_of (P := fun v => v.isFinite) hm setup fun command hcommand =>
    (each_isFinite text command hcommand).imp (fun _ _ => trivial) (fun _ h => h)
      fun _ _ => trivial

end Machine

namespace Pass

variable (setup : Setup)

/-- The feed rate is finite. -/
theorem isFinite_feedRate_run (texts : List (List Char)) :
    (run setup texts).machine.feedRate.isFinite := by
  induction texts using List.reverseRecOn with
  | nil =>
    show (3600.0 : Float).isFinite = true
    decide
  | append_singleton front text ih =>
    rw [run_concat, machine_feed]
    exact Machine.isFinite_feedRate_after ih setup text

/-- **The unit of length is a millimetre or an inch.** -/
theorem scale_run (texts : List (List Char)) :
    (run setup texts).machine.scale = 1.0 ∨
      (run setup texts).machine.scale = millimetresPerInch := by
  induction texts using List.reverseRecOn with
  | nil => exact Or.inl rfl
  | append_singleton front text ih =>
    rw [run_concat, machine_feed]
    rcases (run setup front).machine.scale_after setup text with h | h | h
    · rw [h]
      exact ih
    · exact Or.inr h
    · exact Or.inl h

end Pass
end PrintPath
