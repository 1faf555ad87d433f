import PrintPath.Number.Signs
import PrintPath.Proofs.Values

/-!
# Time does not run backwards

The duration of a print is a sum.  A line adds what its move takes, or the times that it
waits, and adds nothing otherwise; `Machine.delays` lists these terms, and `minutes_after`
says that nothing else happens to the time.  So it is enough that no term is negative.

The way of a move is a root, and no root is negative.  It is divided by the feed rate only if
that is above zero.  A time to wait is whatever the line says, though, and a line may say
something negative.  Programs that do not do that have a duration that never becomes less
(`minutes_run`), but for one thing: if a coordinate has become infinite, there is no telling
how far a move goes, and the duration may be no number any more.  `minutes_runs_back` has an
example of either.
-/

namespace PrintPath

open GCode Number

/-- The times that a line waits are not negative. -/
def WaitsForward (text : List Char) : Prop :=
  EachValue (fun _ => True) (fun _ => True) (fun v => 0.0 ≤ v) text

instance (text : List Char) : Decidable (WaitsForward text) :=
  inferInstanceAs (Decidable (EachValue _ _ _ text))

/-- All coordinates are finite. -/
def Position.IsFinite (place : Position) : Prop :=
  place.All fun v => v.isFinite

instance (place : Position) : Decidable place.IsFinite :=
  inferInstanceAs (Decidable (place.All _))

namespace Position

/-! ## Distances -/

/-- A distance is not negative, if it is a number. -/
theorem climbs_distance (start finish : Position) : Climbs 0.0 (start.distance finish) :=
  isNaN_or_nonneg_sqrt _

/-- **Between places with finite coordinates there is a distance**, though it may be
infinite. -/
theorem nonneg_distance {start finish : Position} (hstart : start.IsFinite)
    (hfinish : finish.IsFinite) : 0.0 ≤ start.distance finish := by
  have hx := nonneg_mul_self (rounds_sub hfinish.1 hstart.1).isNaN
  have hy := nonneg_mul_self (rounds_sub hfinish.2.1 hstart.2.1).isNaN
  have hz := nonneg_mul_self (rounds_sub hfinish.2.2 hstart.2.2).isNaN
  exact nonneg_sqrt (nonneg_add (nonneg_add hx hy).1 hz).1

end Position

/-- What is divided by something finite above zero does not become negative. -/
theorem Number.Climbs.div {x y : Float} (hx : Climbs 0.0 x) (hpos : 0.0 < y) (hy : y.isFinite) :
    Climbs 0.0 (x / y) := by
  rcases hx with hx | hx
  · exact Or.inl (isNaN_div_of_left hx y)
  · exact Or.inr (nonneg_div hx hpos hy)

namespace Machine

/-! ## What a line adds to the time -/

/-- The times that a command takes, in the order in which they are added. -/
def delays (m : Machine) : Option Command → List Float
  | some (.move target _ feedRate) =>
    let rate := feedRate.getD m.feedRate
    if target.any Option.isSome ∧ 0.0 < rate then
      [m.position.distance (m.destination target) / rate]
    else []
  | some (.dwell seconds milliseconds) =>
    (seconds.map fun s => s / 60.0).toList ++ (milliseconds.map fun p => p / 60.0 / 1000.0).toList
  | _ => []

theorem minutes_ready (m : Machine) (setup : Setup) (line : Line) :
    (m.ready setup line).minutes = m.minutes := by
  obtain ⟨_, _, _, _, h⟩ := m.exists_ready_eq setup line
  rw [h]

/-- **A line adds its delays to the time**, one after the other. -/
theorem minutes_after (m : Machine) (setup : Setup) (line : Line) :
    (m.after setup line).minutes =
      ((m.ready setup line).delays line.command).foldl (· + ·) m.minutes := by
  rw [← m.minutes_ready setup line]
  unfold after
  generalize m.ready setup line = ready
  rcases line.command with _ | command
  · rfl
  · cases command with
    | move target extrusion feedRate =>
      show ready.minutesAfter target (feedRate.getD ready.feedRate) = _
      unfold minutesAfter delays
      simp only
      split
      · rfl
      · rfl
    | dwell seconds milliseconds => cases seconds <;> cases milliseconds <;> rfl
    | home named =>
      show (ready.home named).minutes = _
      unfold home
      split <;> rfl
    | flow percent => cases percent <;> rfl
    | _ => rfl

/-- A feed rate that a line gives is finite, and so is the one it finds. -/
theorem isFinite_getD {m : Machine} (h : m.feedRate.isFinite) {feedRate : Option Float}
    (hfeedRate : IfGiven (fun v => v.isFinite) feedRate) :
    (feedRate.getD m.feedRate).isFinite := by
  cases feedRate with
  | none => exact h
  | some rate => exact hfeedRate rate rfl

/-- What holds of the delay of a move and of the times to wait, converted to minutes, holds of
all delays. -/
theorem forall_mem_delays {P : Float → Prop} {m : Machine} {command : Option Command}
    (hmove : ∀ target extrusion feedRate, command = some (.move target extrusion feedRate) →
      0.0 < feedRate.getD m.feedRate →
        P (m.position.distance (m.destination target) / feedRate.getD m.feedRate))
    (hdwell : ∀ seconds milliseconds, command = some (.dwell seconds milliseconds) →
      IfGiven (fun s => P (s / 60.0)) seconds ∧
        IfGiven (fun p => P (p / 60.0 / 1000.0)) milliseconds) :
    ∀ t ∈ m.delays command, P t := by
  intro t ht
  rcases command with _ | command
  · exact absurd ht List.not_mem_nil
  · cases command with
    | move target extrusion feedRate =>
      unfold delays at ht
      simp only at ht
      split at ht
      · next h =>
        rw [List.mem_singleton.mp ht]
        exact hmove target extrusion feedRate rfl h.2
      · exact absurd ht List.not_mem_nil
    | dwell seconds milliseconds =>
      obtain ⟨hseconds, hmilliseconds⟩ := hdwell seconds milliseconds rfl
      rcases List.mem_append.mp ht with hmem | hmem
      · obtain ⟨s, hs, rfl⟩ := Option.map_eq_some_iff.mp (Option.mem_toList.mp hmem)
        exact hseconds s hs
      · obtain ⟨p, hp, rfl⟩ := Option.map_eq_some_iff.mp (Option.mem_toList.mp hmem)
        exact hmilliseconds p hp
    | _ => exact absurd ht List.not_mem_nil

/-- A time to wait that is not negative is not negative in minutes either. -/
theorem nonneg_wait {v : Float} (h : 0.0 ≤ v) : 0.0 ≤ v / 60.0 ∧ 0.0 ≤ v / 60.0 / 1000.0 := by
  have hminutes : 0.0 ≤ v / 60.0 := nonneg_div h (by decide) rfl
  exact ⟨hminutes, nonneg_div hminutes (by decide) rfl⟩

variable {m : Machine} {setup : Setup} {text : List Char}

/-- **A line that does not wait backwards does not lower the time**, if that is a number
behind it. -/
theorem climbs_minutes_after (hrate : m.feedRate.isFinite) (hminutes : Climbs 0.0 m.minutes)
    (h : WaitsForward text) :
    Climbs m.minutes (m.after setup (Line.read text)).minutes := by
  rw [minutes_after]
  refine hminutes.foldl_add (forall_mem_delays ?_ ?_)
  · intro target extrusion feedRate hcommand hpos
    have hfinite := each_isFinite text _ hcommand
    rw [feedRate_ready] at hpos ⊢
    exact (Position.climbs_distance _ _).div hpos (isFinite_getD hrate hfinite.2.2)
  · intro seconds milliseconds hcommand
    have hwait := h _ hcommand
    exact ⟨hwait.1.imp fun v hv => Or.inr (nonneg_wait hv).1,
      hwait.2.imp fun v hv => Or.inr (nonneg_wait hv).2⟩

/-- The time stays a number, too, if the coordinates are finite in front of the line and
behind it. -/
theorem nonneg_minutes_after (hrate : m.feedRate.isFinite) (hminutes : 0.0 ≤ m.minutes)
    (h : WaitsForward text) (hbefore : m.position.IsFinite)
    (hafter : (m.after setup (Line.read text)).position.IsFinite) :
    0.0 ≤ (m.after setup (Line.read text)).minutes ∧
      m.minutes ≤ (m.after setup (Line.read text)).minutes := by
  rw [minutes_after]
  refine nonneg_foldl_add hminutes (forall_mem_delays ?_ ?_)
  · intro target extrusion feedRate hcommand hpos
    have hfinite := each_isFinite text _ hcommand
    have hdestination : (m.after setup (Line.read text)).position =
        (m.ready setup (Line.read text)).destination target := by
      unfold after
      rw [hcommand]
      rfl
    rw [hdestination] at hafter
    rw [feedRate_ready] at hpos ⊢
    rw [position_ready] at ⊢
    exact nonneg_div (Position.nonneg_distance hbefore hafter) hpos
      (isFinite_getD hrate hfinite.2.2)
  · intro seconds milliseconds hcommand
    have hwait := h _ hcommand
    exact ⟨hwait.1.imp fun v hv => (nonneg_wait hv).1, hwait.2.imp fun v hv => (nonneg_wait hv).2⟩

end Machine

/-! ## Runs -/

namespace Pass

variable (setup : Setup)

/-- **Lines that do not wait backwards do not lower the time**, if that is a number behind
them. -/
theorem climbs_feedAll {pass : Pass} (hrate : pass.machine.feedRate.isFinite)
    (hminutes : Climbs 0.0 pass.machine.minutes) {texts : List (List Char)}
    (h : ∀ text ∈ texts, WaitsForward text) :
    Climbs pass.machine.minutes (pass.feedAll setup (texts.map Line.read)).machine.minutes := by
  induction texts generalizing pass with
  | nil => exact .refl _
  | cons text texts ih =>
    have hstep : Climbs pass.machine.minutes
        (pass.feed setup (Line.read text)).machine.minutes := by
      rw [machine_feed]
      exact Machine.climbs_minutes_after hrate hminutes (h text List.mem_cons_self)
    have hrate' : (pass.feed setup (Line.read text)).machine.feedRate.isFinite := by
      rw [machine_feed]
      exact Machine.isFinite_feedRate_after hrate setup text
    exact hstep.trans (ih hrate' (hminutes.trans hstep) fun other hother =>
      h other (List.mem_cons_of_mem text hother))

/-- The time is a number, too, if the coordinates are finite in front of the lines and behind
each. -/
theorem nonneg_feedAll {pass : Pass} (hrate : pass.machine.feedRate.isFinite)
    (hminutes : 0.0 ≤ pass.machine.minutes) {texts : List (List Char)}
    (h : ∀ text ∈ texts, WaitsForward text)
    (hplace : ∀ part, part <+: texts →
      (pass.feedAll setup (part.map Line.read)).machine.position.IsFinite) :
    0.0 ≤ (pass.feedAll setup (texts.map Line.read)).machine.minutes := by
  induction texts generalizing pass with
  | nil => exact hminutes
  | cons text texts ih =>
    have hafter : (pass.feed setup (Line.read text)).machine.position.IsFinite :=
      hplace [text] ⟨texts, rfl⟩
    have hrate' : (pass.feed setup (Line.read text)).machine.feedRate.isFinite := by
      rw [machine_feed]
      exact Machine.isFinite_feedRate_after hrate setup text
    refine ih hrate' ?_ (fun other hother => h other (List.mem_cons_of_mem text hother))
      fun part hpart => hplace (text :: part) (List.cons_prefix_cons.mpr ⟨rfl, hpart⟩)
    rw [machine_feed] at hafter ⊢
    exact (Machine.nonneg_minutes_after hrate hminutes (h text List.mem_cons_self)
      (hplace [] List.nil_prefix) hafter).1

/-- **Time does not run backwards.**  If no line waits for a negative time, the duration of a
program is not negative, and it does not become less when the program goes on.  It is a
number, too, as long as the head stays at finite coordinates. -/
theorem minutes_run (front back : List (List Char))
    (h : ∀ text ∈ front ++ back, WaitsForward text) :
    let now := (run setup front).finish.minutes
    let later := (run setup (front ++ back)).finish.minutes
    ¬ now < 0.0 ∧ ¬ later < now ∧
      ((∀ part, part <+: front ++ back → (run setup part).machine.position.IsFinite) →
        0.0 ≤ now ∧ now ≤ later) := by
  intro now later
  have hstart : start.machine.feedRate.isFinite := isFinite_feedRate_run setup []
  have hfront : Climbs 0.0 now := climbs_feedAll setup hstart (.refl 0.0) fun text htext =>
    h text (List.mem_append_left back htext)
  have hlater : (run setup front).feedAll setup (back.map Line.read) =
      run setup (front ++ back) := by
    unfold run
    rw [List.map_append, feedAll_append]
  have hback : Climbs now later := by
    have hclimbs := climbs_feedAll setup (isFinite_feedRate_run setup front) hfront
      fun text htext => h text (List.mem_append_right front htext)
    rw [hlater] at hclimbs
    exact hclimbs
  refine ⟨hfront.not_lt, hback.not_lt, fun hplace => ?_⟩
  have hzero : (0.0 : Float) ≤ 0.0 := by decide
  have hnumber : 0.0 ≤ later := nonneg_feedAll setup hstart hzero h hplace
  have hle : now ≤ later :=
    hback.resolve_left (by rw [(le_iff_extended.mp hnumber).2.1]; exact Bool.false_ne_true)
  have hnow : 0.0 ≤ now :=
    hfront.resolve_left (by rw [(le_iff_extended.mp hle).1]; exact Bool.false_ne_true)
  exact ⟨hnow, hle⟩

/-- A program that moves, sets a feed rate that is no rate, moves again and waits. -/
theorem minutes_run_waiting :
    let front := ["G1 X60 F600", "G1 Y60 F0"].map String.toList
    let back := ["G4 S30 P500"].map String.toList
    let now := (run ⟨.empty, .standard⟩ front).finish.minutes
    let later := (run ⟨.empty, .standard⟩ (front ++ back)).finish.minutes
    now = 0.1 ∧ 0.0 ≤ now ∧ now ≤ later := by
  intro front back now later
  obtain ⟨-, -, hnumber⟩ := minutes_run ⟨.empty, .standard⟩ front back (by decide)
  have hplace : ∀ part ∈ (front ++ back).inits,
      (run ⟨.empty, .standard⟩ part).machine.position.IsFinite := by
    decide +kernel
  exact ⟨by decide +kernel, hnumber fun part hpart => hplace part ((List.mem_inits _ _).mpr hpart)⟩

/-- A program that goes so far along one axis that its place is infinite, and then moves along
another axis. -/
def farAway : List (List Char) :=
  ["G91", "G1 X1e308", "G1 X1e308", "G1 Y1"].map String.toList

/-- **A program may wait backwards, and a duration may be no number.**  The first program
waits for minus a minute, and behind `farAway` it cannot be told how far the last move
went. -/
theorem minutes_runs_back :
    let nothing := (run ⟨.empty, .standard⟩ []).finish.minutes
    let waiting := (run ⟨.empty, .standard⟩ ([] ++ ["G4 S-60".toList])).finish.minutes
    let lost := (run ⟨.empty, .standard⟩ farAway).finish.minutes
    waiting = -1.0 ∧ ¬ 0.0 ≤ waiting ∧ waiting < nothing ∧ lost.isNaN ∧ ¬ 0.0 ≤ lost := by
  decide +kernel

end Pass
end PrintPath
