import PrintPath.Proofs.Duration
import PrintPath.Proofs.FilamentTotal
import PrintPath.Proofs.HeadPosition

/-!
# What is finite stays finite until something overflows

Every number that a line gives is finite, but sums of finite doubles need not be.  There are
two ways for that to show.  A sum may be too large and become infinite, or it may be no
number at all.  The second does not come about by itself: out of finite doubles, no line
makes anything that is not a number (`Machine.isFinite_after`).  So if no coordinate, no
offset, no amount of filament and no time is infinite behind any line, they are all finite
(`Pass.isFinite_machine_run`), and so is everything that was recorded.
-/

namespace PrintPath

open GCode Number

/-- The totals of a toolpath are finite, and so is everything at its points. -/
structure Toolpath.IsFinite (t : Toolpath) : Prop where
  minutes : t.minutes.isFinite
  extrusion : t.extrusion.isFinite
  points : ∀ point ∈ layerPoints t.layers, point.position.IsFinite ∧ point.extrusion.isFinite

namespace Machine

/-- The numbers that a run adds up are finite. -/
def IsFinite (m : Machine) : Prop :=
  m.Each fun v => v.isFinite

/-- One of the numbers that a run adds up has become infinite. -/
def Overflows (m : Machine) : Prop :=
  ¬ m.Each fun v => v.isInf = false

instance (m : Machine) : Decidable m.Overflows :=
  inferInstanceAs (Decidable (¬ _))

variable {m : Machine} {setup : Setup} {text : List Char}

/-! ## One line -/

/-- The offset is a number in front of a command and behind it. -/
theorem isNaN_offset_after (hoffsets : setup.profile.HasFiniteOffsets) (h : m.IsFinite) :
    (m.ready setup (Line.read text)).offset.All (fun v => v.isNaN = false) ∧
      (m.after setup (Line.read text)).offset.All fun v => v.isNaN = false := by
  have hready : (m.ready setup (Line.read text)).offset.All fun v => v.isNaN = false := by
    refine all_offset_ready h.offset _ (fun o ho => isNaN_of_isFinite ho) fun o old new ho => ?_
    have hold := Profile.isFinite_toolOffset hoffsets old
    have hnew := Profile.isFinite_toolOffset hoffsets new
    exact ⟨isNaN_add_left ho (rounds_sub hnew.1 hold.1).isNaN,
      isNaN_add_left ho (rounds_sub hnew.2 hold.2).isNaN⟩
  refine ⟨hready, ?_⟩
  have hposition : (m.ready setup (Line.read text)).position.All fun v => v.isFinite := by
    rw [position_ready]
    exact h.position
  rw [after_eq_execute]
  exact all_offset_execute hposition hready (each_isFinite text).getD setup.rule
    (fun _ ho => ho) (by decide) fun v p hv hp => (rounds_sub hp hv).isNaN

/-- A move from finite coordinates, with a finite offset, leads to numbers. -/
theorem isNaN_destination (h : m.position.IsFinite) (hscale : m.scale.isFinite)
    (hoffset : m.offset.All fun v => v.isFinite) {target : Axes (Option Float)}
    (htarget : target.All (IfGiven fun v => v.isFinite)) :
    (m.destination target).All fun v => v.isNaN = false :=
  all_destination h hoffset htarget (fun _ hp => isNaN_of_isFinite hp)
    (fun _ _ hv ho => isNaN_add_right (rounds_mul hv hscale).isNaN ho)
    fun _ _ hv hp => isNaN_add_left hp (rounds_mul hv hscale).isNaN

/-- The place of the head is a number behind a line, if the offset is finite there. -/
theorem isNaN_position_after (h : m.IsFinite) (hscale : m.scale.isFinite)
    (hoffset : (m.after setup (Line.read text)).offset.All fun v => v.isFinite) :
    (m.after setup (Line.read text)).position.All fun v => v.isNaN = false := by
  by_cases hmove : IsMove text
  · have hcommand := command_of_isMove hmove
    have htarget := (each_isFinite text _ hcommand).1
    have hposition : (m.ready setup (Line.read text)).position.IsFinite := by
      rw [position_ready]
      exact h.position
    rw [← m.scale_ready setup (Line.read text)] at hscale
    rw [m.after_of_isMove setup hmove] at hoffset ⊢
    generalize m.ready setup (Line.read text) = ready at hposition hscale hoffset ⊢
    exact isNaN_destination hposition hscale hoffset htarget
  · rw [position_after_of_not_isMove m setup hmove]
    have hzero (isNamed : Bool) {old : Float} (hold : old.isFinite) :
        (if isNamed then 0.0 else old).isNaN = false := by
      cases isNamed with
      | false => exact isNaN_of_isFinite hold
      | true =>
        show (0.0 : Float).isNaN = false
        decide
    exact ⟨hzero _ h.position.1, hzero _ h.position.2.1, hzero _ h.position.2.2⟩

/-- The time is a number behind a line, if the coordinates are finite there. -/
theorem isNaN_minutes_after (h : m.IsFinite) (hrate : m.feedRate.isFinite)
    (hposition : (m.after setup (Line.read text)).position.IsFinite) :
    (m.after setup (Line.read text)).minutes.isNaN = false := by
  have hminutes := isNaN_of_isFinite h.minutes
  rw [minutes_after]
  by_cases hmove : IsMove text
  · have hcommand := command_of_isMove hmove
    have hfinite := isFinite_getD hrate (each_isFinite text _ hcommand).2.2
    rw [m.after_of_isMove setup hmove] at hposition
    rw [hcommand]
    unfold delays
    simp only [feedRate_ready, position_ready]
    split
    · next hpos =>
      have hdistance := Position.nonneg_distance h.position hposition
      have hdelay := nonneg_div hdistance hpos.2 hfinite
      exact isNaN_add_left h.minutes (nonneg_iff_extended.mp hdelay).1
    · exact hminutes
  · refine isNaN_foldl_add hminutes (forall_mem_delays ?_ ?_)
    · intro target extrusion feedRate hcommand
      exact absurd hcommand (command_of_not_isMove hmove target extrusion feedRate)
    · intro seconds milliseconds hcommand
      obtain ⟨hseconds, hmilliseconds⟩ := each_isFinite text _ hcommand
      have hminute {v : Float} (hv : v.isFinite) : (v / 60.0).isFinite :=
        isFinite_div hv rfl (by decide)
      exact ⟨hseconds.imp fun v hv => hminute hv,
        hmilliseconds.imp fun v hv => isFinite_div (hminute hv) rfl (by decide)⟩

/-- **A line that makes nothing infinite leaves everything finite.** -/
theorem isFinite_after (hoffsets : setup.profile.HasFiniteOffsets) (hscale : m.scale.isFinite)
    (hrate : m.feedRate.isFinite) (h : m.IsFinite)
    (hafter : ¬ (m.after setup (Line.read text)).Overflows) :
    (m.after setup (Line.read text)).IsFinite := by
  obtain ⟨hposition, hoffset, haxis, htotal, hminutes⟩ := not_not.mp hafter
  have hsettle {place : Position} (hnan : place.All fun v => v.isNaN = false)
      (hinf : place.All fun v => v.isInf = false) : place.All fun v => v.isFinite :=
    ⟨isFinite_of_not_isInf hnan.1 hinf.1, isFinite_of_not_isInf hnan.2.1 hinf.2.1,
      isFinite_of_not_isInf hnan.2.2 hinf.2.2⟩
  have hoffset' := hsettle (isNaN_offset_after hoffsets h).2 hoffset
  have hposition' := hsettle (isNaN_position_after h hscale hoffset') hposition
  have hfilament : (m.ready setup (Line.read text)).filament = m.filament :=
    m.filament_ready setup (Line.read text)
  have haxis' : (m.after setup (Line.read text)).filament.axis.isFinite := by
    refine isFinite_of_not_isInf ?_ haxis
    have hold : (m.ready setup (Line.read text)).filament.axis.isFinite := by
      rw [hfilament]
      exact h.axis
    rw [after_eq_execute]
    exact axis_execute (A := fun v => v.isFinite) hold (each_isFinite text).getD setup.rule
      (fun _ ha => isNaN_of_isFinite ha) (fun _ hv => isNaN_of_isFinite hv)
      fun v a hv ha => (rounds_add ha hv).isNaN
  have htotal' : (m.after setup (Line.read text)).filament.total.isFinite := by
    refine isFinite_of_not_isInf ?_ htotal
    rw [after_eq_execute] at haxis' ⊢
    rcases total_execute (m.ready setup (Line.read text)) setup.rule
      ((Line.read text).command.getD .inert) with hsame | hmoved
    · rw [hsame, hfilament]
      exact isNaN_of_isFinite h.total
    · rw [hmoved, hfilament]
      exact isNaN_add_left h.total (rounds_sub haxis' h.axis).isNaN
  exact ⟨hposition', hoffset', haxis', htotal',
    isFinite_of_not_isInf (isNaN_minutes_after h hrate hposition') hminutes⟩

end Machine

/-! ## Runs -/

namespace Pass

variable (setup : Setup)

/-- The unit of length is finite. -/
theorem isFinite_scale_run (texts : List (List Char)) :
    (run setup texts).machine.scale.isFinite := by
  rcases scale_run setup texts with h | h
  · rw [h]
    decide
  · rw [h]
    decide

theorem isFinite_start : start.machine.IsFinite := by
  refine ⟨?_, ?_, ?_, ?_, ?_⟩ <;> decide

/-- **Everything is finite as long as nothing has become infinite.** -/
theorem isFinite_machine_run (hoffsets : setup.profile.HasFiniteOffsets)
    {texts : List (List Char)}
    (h : ∀ part, part <+: texts → ¬ (run setup part).machine.Overflows) :
    (run setup texts).machine.IsFinite := by
  induction texts using List.reverseRecOn with
  | nil => exact isFinite_start
  | append_singleton front text ih =>
    have hfront := ih fun part hpart => h part (hpart.trans (List.prefix_append _ _))
    have hlast := h (front ++ [text]) List.prefix_rfl
    rw [run_concat, machine_feed] at hlast ⊢
    exact Machine.isFinite_after hoffsets (isFinite_scale_run setup front)
      (isFinite_feedRate_run setup front) hfront hlast

/-! ## What was recorded -/

/-- **A line adds at most the point of the machine behind it.** -/
theorem mem_layerPoints_feed (pass : Pass) (line : Line) {point : Point}
    (h : point ∈ layerPoints (pass.feed setup line).builder.layers) :
    point ∈ layerPoints pass.builder.layers ∨ point = (pass.feed setup line).machine.point := by
  rw [builder_feed, Machine.operations, Builder.applyAll_append] at h
  rw [machine_feed, ← pass.builder.mem_layerPoints_mark line.layerBoundary]
  unfold Machine.after
  generalize pass.machine.ready setup line = ready at h ⊢
  generalize line.command = command at h ⊢
  rcases command with _ | command
  · exact Or.inl h
  · rcases command.eq_move_or_ne_move with ⟨target, extrusion, feedRate, rfl⟩ | hmove
    · exact (Builder.mem_layerPoints_push _ _ _ _ _ _).mp h
    · rw [Machine.recorded_of_ne_move hmove] at h
      exact Or.inl h

/-- What holds of the machine's point behind every line holds of all points. -/
theorem forall_layerPoints_run {P : Point → Prop} {texts : List (List Char)}
    (h : ∀ part, part <+: texts → P (run setup part).machine.point) :
    ∀ point ∈ layerPoints (run setup texts).builder.layers, P point := by
  induction texts using List.reverseRecOn with
  | nil =>
    intro point hpoint
    have hstart : point = start.machine.point := List.mem_singleton.mp hpoint
    rw [hstart]
    exact h [] List.nil_prefix
  | append_singleton front text ih =>
    intro point hpoint
    have hfront := ih fun part hpart => h part (hpart.trans (List.prefix_append _ _))
    rw [run_concat] at hpoint
    rcases mem_layerPoints_feed setup _ _ hpoint with hold | hnew
    · exact hfront point hold
    · rw [hnew, ← run_concat]
      exact h _ List.prefix_rfl

/-- **The toolpath of a program is finite** if the machine is behind every line. -/
theorem isFinite_finish {texts : List (List Char)}
    (h : ∀ part, part <+: texts → (run setup part).machine.IsFinite) :
    (run setup texts).finish.IsFinite := by
  have hpoints : ∀ point ∈ layerPoints (run setup texts).builder.layers,
      point.position.IsFinite ∧ point.extrusion.isFinite :=
    forall_layerPoints_run setup fun part hpart => ⟨(h part hpart).position, (h part hpart).total⟩
  refine ⟨(h texts List.prefix_rfl).minutes, ?_, hpoints⟩
  have htallies : (run setup texts).Tallies := tallies_feedAll setup tallies_start _
  show (run setup texts).machine.filament.peak.isFinite = true
  rcases htallies.attained with hzero | ⟨point, hpoint, hpeak⟩
  · rw [hzero]
    decide
  · rw [← hpeak]
    exact (hpoints point hpoint).2

end Pass
end PrintPath
