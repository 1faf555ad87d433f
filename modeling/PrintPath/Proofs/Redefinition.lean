import PrintPath.Number.Arithmetic
import PrintPath.Proofs.HeadPosition
import PrintPath.Proofs.Values

/-!
# Giving the present place new coordinates

A line may say that the place where the head is has the coordinate `v` from now on.  The head
does not move, and a move to `v` behind it should not move it either.

The machine keeps the difference between the two coordinates, `p - v`, and a move to `v` leads
to `v * s + (p - v)`, where `s` is the unit of length (`position_redefine_move`).  In
millimetres, `s` is one, and this is where the head was, if the difference needs no rounding.
In inches the difference takes `v` as it is and the move takes it as inches.  So the move leads
`(s - 1) * v` beyond, and only a zero comes back to its place.  `position_redefined` states
this for every run, and `head_moves_behind_redefinition` is a program in inches.
-/

namespace PrintPath

open GCode Number

/-- One of the three axes. -/
inductive Axis where
  | x
  | y
  | z
  deriving DecidableEq

/-- The value on one axis. -/
def Axes.on {α : Type} (a : Axes α) : Axis → α
  | .x => a.x
  | .y => a.y
  | .z => a.z

/-- The coordinate that the code of a line gives for an axis. -/
def coordinate? (axis : Axis) (text : List Char) : Option Float :=
  (axisNumbers (annotate text).code).on axis

theorem isFinite_coordinate {axis : Axis} {text : List Char} {v : Float}
    (h : coordinate? axis text = some v) : v.isFinite := by
  cases axis <;> exact isFinite_number v h

theorem command_of_isRedefinition {text : List Char} (h : IsRedefinition text) :
    (Line.read text).command =
      some (.redefine (axisNumbers (annotate text).code) (number? 'E' (annotate text).code)) :=
  command_of_integer h

theorem not_isMove_of_isRedefinition {text : List Char} (h : IsRedefinition text) :
    ¬ IsMove text := by
  unfold IsMove
  rw [show integer? 'G' (annotate text).code = some 92 from h]
  decide

theorem not_isHoming_of_isRedefinition {text : List Char} (h : IsRedefinition text) :
    ¬ IsHoming text := by
  unfold IsHoming
  rw [show integer? 'G' (annotate text).code = some 92 from h]
  decide

namespace Machine

variable (m : Machine) (setup : Setup) {text : List Char} {axis : Axis} {v : Float}

/-! ## The redefinition -/

/-- **A redefinition does not move the head.** -/
theorem position_after_redefinition (h : IsRedefinition text) :
    (m.after setup (Line.read text)).position = m.position := by
  rw [position_after_of_not_isMove m setup (not_isMove_of_isRedefinition h),
    homedAxes_of_not_isHoming (not_isHoming_of_isRedefinition h), Position.homed_none]

theorem on_offset_redefine (target : Axes (Option Float)) (extrusion : Option Float)
    (axis : Axis) : (m.redefine target extrusion).offset.on axis =
      (target.on axis).elim (m.offset.on axis) (m.position.on axis - ·) := by
  rw [offset_redefine]
  cases axis <;> rfl

/-- A redefinition keeps what lies between the two coordinates. -/
theorem offset_after_redefinition (h : IsRedefinition text)
    (hv : coordinate? axis text = some v) :
    (m.after setup (Line.read text)).offset.on axis = m.position.on axis - v := by
  unfold after
  rw [command_of_isRedefinition h, ← m.position_ready setup (Line.read text)]
  show ((m.ready setup (Line.read text)).redefine _ _).offset.on axis = _
  rw [on_offset_redefine, show (axisNumbers (annotate text).code).on axis = some v from hv,
    Option.elim_some]

/-- A redefinition leaves it as it is how coordinates are read. -/
theorem reading_after_redefinition (h : IsRedefinition text) :
    (m.after setup (Line.read text)).scale = m.scale ∧
      (m.after setup (Line.read text)).positioning = m.positioning := by
  obtain ⟨_, _, _, _, hready⟩ := m.exists_ready_eq setup (Line.read text)
  unfold after
  rw [command_of_isRedefinition h, hready]
  exact ⟨rfl, rfl⟩

/-! ## The move behind it -/

/-- A move without a tool word resolves its coordinates as the line in front of it would. -/
theorem position_after_move (h : IsMove text) (htool : tool? (annotate text).code = none)
    (habsolute : m.positioning = .absolute) (hv : coordinate? axis text = some v) :
    (m.after setup (Line.read text)).position.on axis = v * m.scale + m.offset.on axis := by
  have hready : m.ready setup (Line.read text) = m.announce (Line.read text) := by
    unfold ready
    rw [show (Line.read text).tool = none from htool]
    rfl
  have hdestination (target : Axes (Option Float)) : (m.destination target).on axis =
      m.resolve (m.position.on axis) (m.offset.on axis) (target.on axis) := by
    cases axis <;> rfl
  rw [m.after_of_isMove setup h, hready]
  show (m.destination _).on axis = _
  rw [hdestination, show (axisNumbers (annotate text).code).on axis = some v from hv]
  unfold resolve
  rw [habsolute]

/-- **Where a move to the redefined coordinate leads.** -/
theorem position_redefine_move {redefinition move : List Char}
    (hredefinition : IsRedefinition redefinition) (hmove : IsMove move)
    (htool : tool? (annotate move).code = none) (habsolute : m.positioning = .absolute)
    (hv : coordinate? axis redefinition = some v) (hsame : coordinate? axis move = some v) :
    ((m.after setup (Line.read redefinition)).after setup (Line.read move)).position.on axis =
      v * m.scale + (m.position.on axis - v) := by
  obtain ⟨hscale, hpositioning⟩ := m.reading_after_redefinition setup hredefinition
  rw [position_after_move _ setup hmove htool (hpositioning.trans habsolute) hsame, hscale,
    offset_after_redefinition m setup hredefinition hv]

end Machine

/-! ## Without rounding -/

namespace Number

variable {v s p : Float}

/-- If nothing is rounded, the move leads `(s - 1) * v` beyond. -/
theorem real_beyond (hv : v.isFinite) (hs : s.isFinite) (hp : p.isFinite)
    (hproduct : Representable (real v * real s)) (hdifference : Representable (real p - real v))
    (hsum : Representable (real v * real s + (real p - real v))) :
    (v * s + (p - v)).isFinite ∧
      real (v * s + (p - v)) = real p + (real s - 1) * real v := by
  obtain ⟨hfinite, hproduct'⟩ := (rounds_mul hv hs).real_eq hproduct
  obtain ⟨hfinite', hdifference'⟩ := (rounds_sub hp hv).real_eq hdifference
  rw [← hproduct', ← hdifference'] at hsum
  obtain ⟨hfinite'', hsum'⟩ := (rounds_add hfinite hfinite').real_eq hsum
  refine ⟨hfinite'', ?_⟩
  rw [hsum', hproduct', hdifference']
  ring

/-- If the unit is one, it is enough that the difference is not rounded. -/
theorem beq_beyond_one (hv : v.isFinite) (hp : p.isFinite)
    (hdifference : Representable (real p - real v)) : v * 1.0 + (p - v) == p := by
  have hproduct : Representable (real v * real 1.0) := by
    rw [real_one, mul_one]
    exact representable_real hv
  have hsum : Representable (real v * real 1.0 + (real p - real v)) := by
    rw [real_one, mul_one, add_sub_cancel]
    exact representable_real hp
  obtain ⟨hfinite, hreal⟩ := real_beyond hv rfl hp hproduct hdifference hsum
  rw [beq_iff_real hfinite hp, hreal, real_one, sub_self, zero_mul, add_zero]

end Number

namespace Pass

variable (setup : Setup)

/-- The unit stands for one if it is a millimetre. -/
theorem real_scale_eq_one (texts : List (List Char)) :
    (real (run setup texts).machine.scale = 1 ↔ (run setup texts).machine.scale = 1.0) ∧
      (run setup texts).machine.scale.isFinite := by
  rcases scale_run setup texts with h | h
  · rw [h]
    exact ⟨iff_of_true real_one rfl, rfl⟩
  · rw [h, ← real_one, ← beq_iff_real rfl rfl]
    exact ⟨by decide +kernel, rfl⟩

/-- **A redefinition does not move the head, and a move to the redefined coordinate behind it
does so in inches only.**  In absolute coordinates and on an axis whose coordinate is finite,
the head stays at its place if the unit is a millimetre and the difference of the two
coordinates needs no rounding.  If nothing needs rounding, the move leads beyond that place by
the coordinate times the unit less one, so that the head stays if and only if the unit is a
millimetre or the coordinate is zero. -/
theorem position_redefined (front : List (List Char)) (redefinition move : List Char)
    (axis : Axis) (v : Float) (hredefinition : IsRedefinition redefinition)
    (hv : coordinate? axis redefinition = some v) (hmove : IsMove move)
    (hsame : coordinate? axis move = some v) (htool : tool? (annotate move).code = none)
    (habsolute : (run setup front).machine.positioning = .absolute) :
    let before := (run setup front).machine
    let redefined := (run setup (front ++ [redefinition])).machine
    let moved := (run setup (front ++ [redefinition, move])).machine
    let p := before.position.on axis
    let p' := moved.position.on axis
    redefined.position = before.position ∧ p' = v * before.scale + (p - v) ∧
      (p.isFinite → Representable (real p - real v) →
        (before.scale = 1.0 → p' == p) ∧
          (Representable (real v * real before.scale) →
            Representable (real v * real before.scale + (real p - real v)) →
              real p' = real p + (real before.scale - 1) * real v ∧
                (p' == p ↔ before.scale = 1.0 ∨ v == 0.0))) := by
  intro before redefined moved p p'
  have hfinite : v.isFinite := isFinite_coordinate hv
  have hredefined : redefined = before.after setup (Line.read redefinition) := by
    show (run setup (front ++ [redefinition])).machine = _
    rw [run_concat, machine_feed]
  have hmoved : moved = redefined.after setup (Line.read move) := by
    show (run setup (front ++ [redefinition, move])).machine = _
    rw [List.append_cons, run_concat, machine_feed]
  have hplace : p' = v * before.scale + (p - v) := by
    show moved.position.on axis = _
    rw [hmoved, hredefined]
    exact before.position_redefine_move setup hredefinition hmove htool habsolute hv hsame
  refine ⟨?_, hplace, fun hp hdifference => ⟨fun hscale => ?_, fun hproduct hsum => ?_⟩⟩
  · rw [hredefined]
    exact before.position_after_redefinition setup hredefinition
  · rw [hplace, hscale]
    exact beq_beyond_one hfinite hp hdifference
  · obtain ⟨hone, hs⟩ := real_scale_eq_one setup front
    obtain ⟨hfinite', hreal⟩ := real_beyond hfinite hs hp hproduct hdifference hsum
    rw [hplace, beq_iff_real hfinite' hp, hreal, beq_iff_real hfinite rfl, real_zero,
      add_eq_left, mul_eq_zero, sub_eq_zero, hone]
    exact ⟨rfl, Iff.rfl⟩

end Pass

/-! ## A program in millimetres and one in inches -/

theorem real_four : real 4.0 = 4 := by
  show signed .positive (((4503599627370496 : ℕ) : ℝ) * 2 ^ (-50 : ℤ)) = 4
  norm_num [signed]

theorem real_eight : real 8.0 = 8 := by
  show signed .positive (((4503599627370496 : ℕ) : ℝ) * 2 ^ (-49 : ℤ)) = 8
  norm_num [signed]

theorem real_millimetresPerInch :
    real millimetresPerInch = (7149464408450662 : ℕ) * 2 ^ (-48 : ℤ) := rfl

/-- Between eight and four nothing is rounded. -/
theorem representable_eight_sub_four : Representable (real 8.0 - real 4.0) := by
  have hfour : real 8.0 - real 4.0 = real 4.0 := by
    rw [real_eight, real_four]
    norm_num
  rw [hfour]
  exact representable_real rfl

/-- Where zero becomes one, in inches, nothing is rounded either. -/
theorem representable_zero_one_inch :
    Representable (real 0.0 - real 1.0) ∧
      Representable (real 1.0 * real millimetresPerInch) ∧
      Representable (real 1.0 * real millimetresPerInch + (real 0.0 - real 1.0)) := by
  refine ⟨?_, ?_, ?_⟩
  · rw [real_zero, zero_sub]
    exact (representable_real rfl).neg
  · rw [real_one, one_mul]
    exact representable_real rfl
  · have hrest : real 24.4 = (6867989431740006 : ℕ) * 2 ^ (-48 : ℤ) := rfl
    have hsum : real 1.0 * real millimetresPerInch + (real 0.0 - real 1.0) = real 24.4 := by
      rw [real_zero, real_one, real_millimetresPerInch, hrest]
      norm_num
    rw [hsum]
    exact representable_real rfl

namespace Pass

/-- In millimetres a place at 8 is given the coordinate 4, and a move to 4 does not move the
head.  In inches the origin is given the coordinate 1, and a move to 1 does. -/
theorem position_redefined_eightAndOrigin :
    let eight := ["G1 X8"].map String.toList
    let origin := ["G20"].map String.toList
    (run ⟨.empty, .standard⟩ (eight ++ ["G92 X4".toList, "G1 X4".toList])).machine.position.x ==
        (run ⟨.empty, .standard⟩ eight).machine.position.x ∧
      ¬ (run ⟨.empty, .standard⟩
            (origin ++ ["G92 X1".toList, "G1 X1".toList])).machine.position.x ==
        (run ⟨.empty, .standard⟩ origin).machine.position.x := by
  intro eight origin
  obtain ⟨-, -, hfour⟩ := position_redefined ⟨.empty, .standard⟩ eight "G92 X4".toList
    "G1 X4".toList .x 4.0 (by decide) (by decide +kernel) (by decide) (by decide +kernel)
    (by decide) (by decide +kernel)
  obtain ⟨-, -, hone⟩ := position_redefined ⟨.empty, .standard⟩ origin "G92 X1".toList
    "G1 X1".toList .x 1.0 (by decide) (by decide +kernel) (by decide) (by decide +kernel)
    (by decide) (by decide +kernel)
  have hplace : (run ⟨.empty, .standard⟩ eight).machine.position.x = 8.0 := by decide +kernel
  have hzero : (run ⟨.empty, .standard⟩ origin).machine.position.x = 0.0 := by decide +kernel
  have hscale : (run ⟨.empty, .standard⟩ origin).machine.scale = millimetresPerInch := by
    decide +kernel
  rw [Axes.on, hplace] at hfour
  constructor
  · rw [hplace]
    exact (hfour rfl representable_eight_sub_four).1 (by decide +kernel)
  · rw [Axes.on, hzero, hscale] at hone
    obtain ⟨hdifference, hproduct, hsum⟩ := representable_zero_one_inch
    obtain ⟨-, hback⟩ := (hone rfl hdifference).2 hproduct hsum
    rw [hzero]
    exact fun h => absurd (hback.mp h) (by decide +kernel)

/-- **In inches a move to the redefined coordinate moves the head**, though nothing needs
rounding.  The origin is given the coordinate 1, and a move to 1 leads an inch less a
millimetre away. -/
theorem head_moves_behind_redefinition :
    let before := (run ⟨.empty, .standard⟩ ["G20".toList]).machine
    let moved := (run ⟨.empty, .standard⟩ (["G20", "G92 X1", "G1 X1"].map String.toList)).machine
    before.positioning = .absolute ∧ before.scale = millimetresPerInch ∧
      before.position.x = 0.0 ∧ moved.position.x = 24.4 ∧
      ¬ moved.position.x == before.position.x ∧
      Representable (real 0.0 - real 1.0) ∧
      Representable (real 1.0 * real millimetresPerInch) ∧
      Representable (real 1.0 * real millimetresPerInch + (real 0.0 - real 1.0)) := by
  obtain ⟨hdifference, hproduct, hsum⟩ := representable_zero_one_inch
  exact ⟨by decide +kernel, by decide +kernel, by decide +kernel, by decide +kernel,
    by decide +kernel, hdifference, hproduct, hsum⟩

end Pass
end PrintPath
