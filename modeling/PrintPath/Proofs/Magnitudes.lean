import PrintPath.Number.Bounds
import PrintPath.Proofs.Finiteness

/-!
# Numbers of ordinary size never overflow

A sum over a program can only overflow if the terms are huge or very many.  Here are limits
within which it cannot: lengths up to 1e120, feed rates from 1e-150, times to wait up to
1e250, and up to `2 ^ 50` lines (`IsModerate`, `Profile.HasModerateOffsets`).  No printer comes
near them.

The proof keeps a budget.  `Machine.Budget m k` bounds each number of a machine by `k` units of
its own, which are powers of two, so that rounding does not spoil the bounds.  A line takes at
most two units more of everything (`Machine.budget_after`): it changes an offset once by a
change of tools and once by its command, and it adds at most two delays.

`isFinite_run` is the conclusion of this module and the one before it.  `not_isFinite_run` has
programs beyond the limits, in which the duration, the place of the head or the filament is
infinite at the end.
-/

namespace PrintPath

open GCode Number

/-- A value is not farther from zero than a bound. -/
def IsUpTo (bound v : Float) : Prop :=
  -bound ≤ v ∧ v ≤ bound

instance (bound v : Float) : Decidable (IsUpTo bound v) :=
  inferInstanceAs (Decidable (_ ∧ _))

/-- The lengths on a line are up to 1e120, its feed rate is at least 1e-150 if it is above
zero, and it waits up to 1e250 seconds and milliseconds. -/
def IsModerate (text : List Char) : Prop :=
  EachValue (IsUpTo 1e120) (fun rate => 0.0 < rate → 1e-150 ≤ rate) (IsUpTo 1e250) text

instance (text : List Char) : Decidable (IsModerate text) :=
  inferInstanceAs (Decidable (EachValue _ _ _ text))

/-- The nozzle offsets of a profile are up to 1e120. -/
def Profile.HasModerateOffsets (profile : Profile) : Prop :=
  ∀ entry ∈ profile.offsets.entries, IsUpTo 1e120 entry.2.x ∧ IsUpTo 1e120 entry.2.y

instance (profile : Profile) : Decidable profile.HasModerateOffsets :=
  List.decidableBAll _ _

/-! ## The limits as powers of two -/

theorem within_of_isUpTo (bound : Float) {v : Float} {e : ℤ} (h : IsUpTo bound v)
    (hbound : bound.isFinite) (hle : bound ≤ twoPow e) (hlow : -1022 ≤ e) (hhigh : e ≤ 1023) :
    Within (2 ^ e) v := by
  obtain ⟨hfinite, hreal⟩ := isFinite_twoPow hlow hhigh
  rw [le_iff_real hbound hfinite, hreal] at hle
  exact (within_of_between hbound h.1 h.2).mono hle

theorem within_length {v : Float} (h : IsUpTo 1e120 v) : Within (2 ^ (400 : ℤ)) v :=
  within_of_isUpTo _ h (by decide +kernel) (by decide +kernel) (by norm_num) (by norm_num)

theorem within_wait {v : Float} (h : IsUpTo 1e250 v) : Within (2 ^ (831 : ℤ)) v :=
  within_of_isUpTo _ h (by decide +kernel) (by decide +kernel) (by norm_num) (by norm_num)

theorem two_zpow_le_rate {rate : Float} (hfinite : rate.isFinite) (h : 1e-150 ≤ rate) :
    (2 : ℝ) ^ (-500 : ℤ) ≤ real rate := by
  obtain ⟨hpower, hreal⟩ := @isFinite_twoPow (-500) (by norm_num) (by norm_num)
  have hlimit : (1e-150 : Float).isFinite := by decide +kernel
  have hle : twoPow (-500) ≤ 1e-150 := by decide +kernel
  rw [le_iff_real hpower hlimit, hreal] at hle
  rw [le_iff_real hlimit hfinite] at h
  exact hle.trans h

theorem Profile.within_toolOffset {profile : Profile} (h : profile.HasModerateOffsets)
    (tool : ℕ) :
    Within (2 ^ (400 : ℤ)) (profile.toolOffset tool).x ∧
      Within (2 ^ (400 : ℤ)) (profile.toolOffset tool).y := by
  have hzero : Within (2 ^ (400 : ℤ)) 0.0 := within_length (by decide +kernel)
  exact toolOffset_of (P := fun offset => Within (2 ^ (400 : ℤ)) offset.x ∧
      Within (2 ^ (400 : ℤ)) offset.y) ⟨hzero, hzero⟩
    (fun entry hentry => ⟨within_length (h entry hentry).1, within_length (h entry hentry).2⟩) tool

namespace Machine

/-! ## The budget -/

/-- The numbers of a machine are bounded by so many units each. -/
structure Budget (m : Machine) (k : ℕ) : Prop where
  position : m.position.All (Within (k * 2 ^ (406 : ℤ)))
  offset : m.offset.All (Within (k * 2 ^ (406 : ℤ)))
  axis : Within (k * 2 ^ (400 : ℤ)) m.filament.axis
  total : Within (k * 2 ^ (453 : ℤ)) m.filament.total
  minutes : Within (k * 2 ^ (959 : ℤ)) m.minutes

theorem Budget.isFinite {m : Machine} {k : ℕ} (h : m.Budget k) : m.IsFinite :=
  ⟨h.position.imp fun _ hv => hv.isFinite, h.offset.imp fun _ hv => hv.isFinite, h.axis.isFinite,
    h.total.isFinite, h.minutes.isFinite⟩

/-- A power of two is at most one unit of a larger power. -/
theorem within_one {a b : ℤ} {v : Float} (h : Within (2 ^ a) v) (hle : a ≤ b) :
    Within ((1 : ℕ) * 2 ^ b) v := by
  rw [Nat.cast_one, one_mul]
  exact h.zpow_mono hle

theorem within_mono {a b : ℕ} {e : ℤ} {v : Float} (h : Within (a * 2 ^ e) v) (hle : a ≤ b) :
    Within (b * 2 ^ e) v := by
  have hcast : (a : ℝ) ≤ b := by
    exact_mod_cast hle
  exact h.mono (by gcongr)

variable {m : Machine} {setup : Setup} {text : List Char} {k : ℕ}

/-- The unit of length is at most an inch. -/
theorem within_scale (h : m.scale = 1.0 ∨ m.scale = millimetresPerInch) :
    Within (2 ^ (5 : ℤ)) m.scale := by
  rcases h with h | h
  · rw [h]
    exact within_of_isUpTo 1.0 (by decide) (by decide) (by decide +kernel) (by norm_num)
      (by norm_num)
  · rw [h]
    exact within_of_isUpTo 25.4 (by decide) (by decide) (by decide +kernel) (by norm_num)
      (by norm_num)

/-- A length in the present unit is at most one unit of the budget. -/
theorem within_mul_scale (hscale : m.scale = 1.0 ∨ m.scale = millimetresPerInch) {v : Float}
    (hv : IsUpTo 1e120 v) : Within ((1 : ℕ) * 2 ^ (406 : ℤ)) (v * m.scale) :=
  within_one ((within_length hv).mul_zpow (within_scale hscale) (by norm_num) (by norm_num))
    (by norm_num)

/-- A change of tools takes one unit more of the offset. -/
theorem within_offset_ready (hoffsets : setup.profile.HasModerateOffsets) (h : m.Budget k)
    (hk : k + 1 ≤ 2 ^ 53) (line : Line) :
    (m.ready setup line).offset.All (Within ((k + 1 : ℕ) * 2 ^ (406 : ℤ))) := by
  refine all_offset_ready h.offset line (fun o ho => within_mono ho (Nat.le_succ k))
    fun o old new ho => ?_
  have hold := Profile.within_toolOffset hoffsets old
  have hnew := Profile.within_toolOffset hoffsets new
  have hdifference {a b : Float} (ha : Within (2 ^ (400 : ℤ)) a) (hb : Within (2 ^ (400 : ℤ)) b) :
      Within ((1 : ℕ) * 2 ^ (406 : ℤ)) (a - b) := by
    rw [sub_eq_add_opposite]
    exact within_one (ha.add_zpow hb.neg (by norm_num) (by norm_num)) (by norm_num)
  exact ⟨ho.add_multiple (hdifference hnew.1 hold.1) le_rfl hk (by norm_num) (by norm_num),
    ho.add_multiple (hdifference hnew.2 hold.2) le_rfl hk (by norm_num) (by norm_num)⟩

theorem within_zero (k : ℕ) (e : ℤ) : Within (k * 2 ^ e) 0.0 := by
  refine ⟨rfl, ?_⟩
  rw [real_zero, abs_zero]
  positivity

/-- Behind a line the offset has taken two units more at most. -/
theorem within_offset_after (hoffsets : setup.profile.HasModerateOffsets) (h : m.Budget k)
    (hk : k + 2 ≤ 2 ^ 51) (htext : IsModerate text) :
    (m.after setup (Line.read text)).offset.All (Within ((k + 2 : ℕ) * 2 ^ (406 : ℤ))) := by
  have hready := within_offset_ready hoffsets h (by omega) (Line.read text)
  have hposition : (m.ready setup (Line.read text)).position.All
      (Within (k * 2 ^ (406 : ℤ))) := by
    rw [position_ready]
    exact h.position
  rw [after_eq_execute]
  refine all_offset_execute hposition hready htext.getD setup.rule
    (fun o ho => within_mono ho (Nat.le_succ _)) (within_zero _ _) fun v p hv hp => ?_
  exact hp.sub_multiple (within_one (within_length hv) (by norm_num)) (by omega) (by omega)
    (by norm_num) (by norm_num)

/-- Behind a line the place of the head has taken two units more at most. -/
theorem within_position_after (hoffsets : setup.profile.HasModerateOffsets)
    (hscale : m.scale = 1.0 ∨ m.scale = millimetresPerInch) (h : m.Budget k)
    (hk : k + 2 ≤ 2 ^ 51) (htext : IsModerate text) :
    (m.after setup (Line.read text)).position.All (Within ((k + 2 : ℕ) * 2 ^ (406 : ℤ))) := by
  by_cases hmove : IsMove text
  · have hcommand := command_of_isMove hmove
    have htarget := (htext _ hcommand).1
    have hoffset := within_offset_ready hoffsets h (by omega) (Line.read text)
    have hposition : (m.ready setup (Line.read text)).position.All
        (Within (k * 2 ^ (406 : ℤ))) := by
      rw [position_ready]
      exact h.position
    rw [← m.scale_ready setup (Line.read text)] at hscale
    rw [m.after_of_isMove setup hmove]
    generalize m.ready setup (Line.read text) = ready at hposition hscale hoffset ⊢
    exact all_destination hposition hoffset htarget (fun p hp => within_mono hp (by omega))
      (fun v o hv ho => (within_mul_scale hscale hv).add_multiple ho (by omega) (by omega)
        (by norm_num) (by norm_num))
      fun v p hv hp => hp.add_multiple (within_mul_scale hscale hv) (by omega) (by omega)
        (by norm_num) (by norm_num)
  · rw [position_after_of_not_isMove m setup hmove]
    have hhomed (isNamed : Bool) {old : Float} (hold : Within (k * 2 ^ (406 : ℤ)) old) :
        Within ((k + 2 : ℕ) * 2 ^ (406 : ℤ)) (if isNamed then 0.0 else old) := by
      cases isNamed with
      | false => exact within_mono hold (by omega)
      | true => exact within_zero _ _
    exact ⟨hhomed _ h.position.1, hhomed _ h.position.2.1, hhomed _ h.position.2.2⟩

/-- Behind a line the filament axis and the filament total have taken two units more at
most. -/
theorem within_filament_after (h : m.Budget k) (hk : k + 2 ≤ 2 ^ 51) (htext : IsModerate text) :
    Within ((k + 2 : ℕ) * 2 ^ (400 : ℤ)) (m.after setup (Line.read text)).filament.axis ∧
      Within ((k + 2 : ℕ) * 2 ^ (453 : ℤ)) (m.after setup (Line.read text)).filament.total := by
  have hfilament : (m.ready setup (Line.read text)).filament = m.filament :=
    m.filament_ready setup (Line.read text)
  have hold : Within (k * 2 ^ (400 : ℤ)) (m.ready setup (Line.read text)).filament.axis := by
    rw [hfilament]
    exact h.axis
  have haxis : Within ((k + 2 : ℕ) * 2 ^ (400 : ℤ))
      (m.after setup (Line.read text)).filament.axis := by
    rw [after_eq_execute]
    exact axis_execute (A := Within (k * 2 ^ (400 : ℤ))) hold htext.getD setup.rule
      (fun a ha => within_mono ha (by omega))
      (fun v hv => within_mono (within_one (within_length hv) le_rfl) (by omega))
      fun v a hv ha => ha.add_multiple (within_one (within_length hv) le_rfl) (by omega)
        (by omega) (by norm_num) (by norm_num)
  refine ⟨haxis, ?_⟩
  rw [after_eq_execute] at haxis ⊢
  rcases total_execute (m.ready setup (Line.read text)) setup.rule
    ((Line.read text).command.getD .inert) with hsame | hmoved
  · rw [hsame, hfilament]
    exact within_mono h.total (by omega)
  · rw [hmoved, hfilament]
    have hchange := haxis.sub_multiple (c := 2 ^ 53) h.axis (by omega) le_rfl (by norm_num)
      (by norm_num)
    have hunit : ((2 ^ 53 : ℕ) : ℝ) * 2 ^ (400 : ℤ) = 2 ^ (453 : ℤ) := by
      rw [Nat.cast_pow, Nat.cast_ofNat, ← zpow_natCast, ← zpow_add₀ two_ne_zero]
      norm_num
    rw [hunit] at hchange
    exact h.total.add_multiple (within_one hchange le_rfl) (by omega) (by omega) (by norm_num)
      (by norm_num)

/-- The way between two places within a budget is bounded. -/
theorem within_distance {start finish : Position}
    (hstart : start.All (Within (2 ^ (457 : ℤ)))) (hfinish : finish.All (Within (2 ^ (457 : ℤ)))) :
    Within (2 ^ (459 : ℤ)) (start.distance finish) := by
  have hsquare {a b : Float} (ha : Within (2 ^ (457 : ℤ)) a) (hb : Within (2 ^ (457 : ℤ)) b) :
      Within (2 ^ (916 : ℤ)) ((a - b) * (a - b)) ∧ 0.0 ≤ (a - b) * (a - b) := by
    have hdifference : Within (2 ^ (458 : ℤ)) (a - b) := by
      rw [sub_eq_add_opposite]
      exact ha.add_zpow hb.neg (by norm_num) (by norm_num)
    exact ⟨hdifference.mul_zpow hdifference (by norm_num) (by norm_num),
      nonneg_mul_self (isNaN_of_isFinite hdifference.isFinite)⟩
  obtain ⟨hx, hx0⟩ := hsquare hfinish.1 hstart.1
  obtain ⟨hy, hy0⟩ := hsquare hfinish.2.1 hstart.2.1
  obtain ⟨hz, hz0⟩ := hsquare hfinish.2.2 hstart.2.2
  have hxy := hx.add_zpow hy (by norm_num) (by norm_num)
  have hxyz := hxy.add_zpow (hz.zpow_mono (by norm_num)) (by norm_num) (by norm_num)
  have hnonneg := (nonneg_add (nonneg_add hx0 hy0).1 hz0).1
  rw [nonneg_iff_real hxyz.isFinite] at hnonneg
  exact hxyz.sqrt_zpow hnonneg (by norm_num) (by norm_num)

theorem length_delays_le (m : Machine) (command : Option Command) :
    (m.delays command).length ≤ 2 := by
  unfold delays
  split
  · simp only
    split <;> simp
  · next seconds milliseconds =>
    cases seconds <;> cases milliseconds <;> simp
  · simp

/-- Each delay of a line is bounded by one unit. -/
theorem within_delays (hrate : m.feedRate.isFinite)
    (hleast : 0.0 < m.feedRate → 1e-150 ≤ m.feedRate) (h : m.Budget k) (hk : k + 2 ≤ 2 ^ 51)
    (htext : IsModerate text)
    (hposition : (m.after setup (Line.read text)).position.All
      (Within ((k + 2 : ℕ) * 2 ^ (406 : ℤ)))) :
    ∀ t ∈ (m.ready setup (Line.read text)).delays (Line.read text).command,
      Within ((1 : ℕ) * 2 ^ (959 : ℤ)) t := by
  have hplace {place : Position} {n : ℕ} (hn : n ≤ 2 ^ 51)
      (hwithin : place.All (Within (n * 2 ^ (406 : ℤ)))) :
      place.All (Within (2 ^ (457 : ℤ))) := by
    have hunit : ((2 ^ 51 : ℕ) : ℝ) * 2 ^ (406 : ℤ) = 2 ^ (457 : ℤ) := by
      rw [Nat.cast_pow, Nat.cast_ofNat, ← zpow_natCast, ← zpow_add₀ two_ne_zero]
      norm_num
    rw [← hunit]
    exact hwithin.imp fun v hv => within_mono hv hn
  refine forall_mem_delays ?_ ?_
  · intro target extrusion feedRate hcommand hpos
    have hdestination : (m.after setup (Line.read text)).position =
        (m.ready setup (Line.read text)).destination target := by
      unfold after
      rw [hcommand]
      rfl
    rw [hdestination] at hposition
    rw [feedRate_ready] at hpos ⊢
    rw [position_ready]
    have hfinite := isFinite_getD hrate (each_isFinite text _ hcommand).2.2
    have hrate' : 1e-150 ≤ feedRate.getD m.feedRate := by
      cases hfeedRate : feedRate with
      | none =>
        rw [hfeedRate] at hpos
        exact hleast hpos
      | some rate =>
        rw [hfeedRate] at hpos
        exact (htext _ hcommand).2.2 rate hfeedRate hpos
    have hdistance := within_distance (hplace (by omega) h.position) (hplace hk hposition)
    exact within_one (hdistance.div_zpow hfinite (two_zpow_le_rate hfinite hrate') (by norm_num)
      (by norm_num)) (by norm_num)
  · intro seconds milliseconds hcommand
    obtain ⟨hseconds, hmilliseconds⟩ := htext _ hcommand
    have hdivided {v divisor : Float} (hv : Within (2 ^ (831 : ℤ)) v) (hfinite : divisor.isFinite)
        (hone : 1.0 ≤ divisor) : Within (2 ^ (831 : ℤ)) (v / divisor) := by
      rw [le_iff_real rfl hfinite, real_one] at hone
      exact hv.div_zpow (b := 0) hfinite (by simpa using hone) (by norm_num) (by norm_num)
    have hminute {v : Float} (hv : IsUpTo 1e250 v) : Within (2 ^ (831 : ℤ)) (v / 60.0) :=
      hdivided (within_wait hv) rfl (by decide)
    exact ⟨hseconds.imp fun v hv => within_one (hminute hv) (by norm_num),
      hmilliseconds.imp fun v hv =>
        within_one (hdivided (hminute hv) rfl (by decide)) (by norm_num)⟩

/-- **A line takes two units more of everything**, at most. -/
theorem budget_after (hoffsets : setup.profile.HasModerateOffsets)
    (hscale : m.scale = 1.0 ∨ m.scale = millimetresPerInch) (hrate : m.feedRate.isFinite)
    (hleast : 0.0 < m.feedRate → 1e-150 ≤ m.feedRate) (h : m.Budget k) (hk : k + 2 ≤ 2 ^ 51)
    (htext : IsModerate text) : (m.after setup (Line.read text)).Budget (k + 2) := by
  have hposition := within_position_after hoffsets hscale h hk htext
  obtain ⟨haxis, htotal⟩ := @within_filament_after m setup text k h hk htext
  refine ⟨hposition, within_offset_after hoffsets h hk htext, haxis, htotal, ?_⟩
  rw [minutes_after]
  refine h.minutes.foldl_add (within_delays hrate hleast h hk htext hposition) ?_ (by omega)
    (by norm_num) (by norm_num)
  exact Nat.add_le_add_left (length_delays_le _ _) k

end Machine

/-! ## Runs -/

namespace Pass

variable (setup : Setup)

/-- The feed rate of a moderate program is not too small, if it is above zero. -/
theorem le_feedRate_run {texts : List (List Char)} (h : ∀ text ∈ texts, IsModerate text) :
    0.0 < (run setup texts).machine.feedRate → 1e-150 ≤ (run setup texts).machine.feedRate := by
  induction texts using List.reverseRecOn with
  | nil =>
    intro _
    show (1e-150 : Float) ≤ 3600.0
    decide +kernel
  | append_singleton front text ih =>
    have hfront := ih fun other hother => h other (List.mem_append_left _ hother)
    have htext := h text (List.mem_append_right _ List.mem_cons_self)
    rw [run_concat, machine_feed]
    exact Machine.feedRate_after_of (P := fun rate => 0.0 < rate → 1e-150 ≤ rate) hfront setup
      fun command hcommand => (htext command hcommand).imp (fun _ _ => trivial) (fun _ hv => hv)
        fun _ _ => trivial

/-- **The numbers of a moderate program stay within twice as many units as it has lines.** -/
theorem budget_run (hoffsets : setup.profile.HasModerateOffsets) {texts : List (List Char)}
    (hlength : texts.length ≤ 2 ^ 50) (h : ∀ text ∈ texts, IsModerate text) :
    (run setup texts).machine.Budget (2 * texts.length) := by
  induction texts using List.reverseRecOn with
  | nil =>
    have hzero (e : ℤ) := Machine.within_zero (2 * ([] : List (List Char)).length) e
    exact ⟨⟨hzero _, hzero _, hzero _⟩, ⟨hzero _, hzero _, hzero _⟩, hzero _, hzero _, hzero _⟩
  | append_singleton front text ih =>
    rw [List.length_append, List.length_singleton] at hlength ⊢
    have hforward : ∀ other ∈ front, IsModerate other := fun other hother =>
      h other (List.mem_append_left _ hother)
    have hfront := ih (by omega) hforward
    rw [run_concat, machine_feed, Nat.mul_add]
    exact Machine.budget_after hoffsets (scale_run setup front) (isFinite_feedRate_run setup front)
      (le_feedRate_run setup hforward) hfront (by omega)
      (h text (List.mem_append_right _ List.mem_cons_self))

/-- **Nothing is poisoned unless something overflows, and nothing overflows in programs of
ordinary size.**  With finite nozzle offsets a toolpath is finite if no coordinate, offset,
amount of filament or time becomes infinite behind a line.  With nozzle offsets, lengths, feed
rates and times to wait within the limits, and at most `2 ^ 50` lines, it is finite. -/
theorem isFinite_run (texts : List (List Char)) (hoffsets : setup.profile.HasFiniteOffsets) :
    ((∀ part, part <+: texts → ¬ (run setup part).machine.Overflows) →
        (run setup texts).finish.IsFinite) ∧
      (setup.profile.HasModerateOffsets → texts.length ≤ 2 ^ 50 →
        (∀ text ∈ texts, IsModerate text) → (run setup texts).finish.IsFinite) := by
  constructor
  · intro h
    refine isFinite_finish setup fun part hpart => ?_
    exact isFinite_machine_run setup hoffsets fun front hfront => h front (hfront.trans hpart)
  · intro hmoderate hlength h
    refine isFinite_finish setup fun part hpart => ?_
    exact (budget_run setup hmoderate (hpart.length_le.trans hlength) fun text htext =>
      h text (hpart.subset htext)).isFinite

/-- A program with large numbers, in inches and with changes of tools. -/
def largeNumbers : List (List Char) :=
  ["T1 G20 G1 X1e100 E1e119 F1e-140", "T2 G92 X-1e120", "G4 S1e249"].map String.toList

/-- Nothing overflows in `largeNumbers`. -/
theorem isFinite_run_largeNumbers :
    threeNozzles.profile.HasFiniteOffsets ∧ threeNozzles.profile.HasModerateOffsets ∧
      (∀ text ∈ largeNumbers, IsModerate text) ∧
      (∀ part ∈ largeNumbers.inits, ¬ (run threeNozzles part).machine.Overflows) ∧
      (run threeNozzles largeNumbers).finish.IsFinite ∧
      (run threeNozzles largeNumbers).finish.minutes.isFinite := by
  have hoffsets : threeNozzles.profile.HasFiniteOffsets := by decide
  have hlimits : threeNozzles.profile.HasModerateOffsets := by decide +kernel
  have hmoderate : ∀ text ∈ largeNumbers, IsModerate text := by decide +kernel
  have hnone : ∀ part ∈ largeNumbers.inits, ¬ (run threeNozzles part).machine.Overflows := by
    decide +kernel
  obtain ⟨hfinite, hsmall⟩ := isFinite_run threeNozzles largeNumbers hoffsets
  exact ⟨hoffsets, hlimits, hmoderate, hnone,
    hfinite fun part hpart => hnone part ((List.mem_inits _ _).mpr hpart),
    (hsmall hlimits (by decide) hmoderate).minutes⟩

/-- **Programs do overflow.**  The square of a way may be too large for its root to be taken,
the head may go beyond all coordinates, and filament may be fed beyond any amount. -/
theorem not_isFinite_run :
    Profile.empty.HasFiniteOffsets ∧
      ¬ (run ⟨.empty, .standard⟩ ["G1 X1e200".toList]).finish.minutes.isFinite ∧
      (∃ point ∈ layerPoints (run ⟨.empty, .standard⟩ farAway).finish.layers,
        ¬ point.position.IsFinite) ∧
      ¬ (run ⟨.empty, .standard⟩
        (["M83", "G1 E1e308", "G1 E1e308"].map String.toList)).finish.extrusion.isFinite := by
  decide +kernel

end Pass
end PrintPath
