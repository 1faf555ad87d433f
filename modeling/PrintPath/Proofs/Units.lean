import PrintPath.Number.Arithmetic
import PrintPath.Proofs.Values

/-!
# Inches and millimetres

A program can say that its lengths are inches.  It should then print what the same program
prints in millimetres, when every length in it is multiplied by the millimetres of an inch.

For coordinates that is so.  The unit of a machine is read in one place, where a coordinate is
resolved, and there a length in inches comes to the same as its product with that factor does
in millimetres (`SamePlace.destination`).  So both programs record the same positions.

Nothing else is ever multiplied by the unit.  A machine takes the lengths of filament and the
feed rate as they are, whatever the unit is.  So the whole toolpath is the same if these are
*not* multiplied (`feed_metric`): two passes, one in inches and one in millimetres, stay the
same but for the unit.  `inches_run` states both.  If filament and feed rate are multiplied
like the coordinates, they come out as different (`finish_ne_of_convert`).
-/

namespace PrintPath

open GCode Number

/-- The values on all axes, changed alike. -/
def Axes.map {α β : Type} (f : α → β) (a : Axes α) : Axes β :=
  ⟨f a.x, f a.y, f a.z⟩

/-- The axis words of a move in inches, in millimetres. -/
def convertAxes (target : Axes (Option Float)) : Axes (Option Float) :=
  target.map fun value => value.map (· * millimetresPerInch)

@[simp] theorem any_convertAxes (target : Axes (Option Float)) :
    (convertAxes target).any Option.isSome = target.any Option.isSome := by
  simp only [convertAxes, Axes.map, Axes.any, Option.isSome_map]

/-- A move in inches, in millimetres, with whatever is made of the filament and of the feed
rate. -/
def GCode.Command.convert (extrusion feedRate : Float → Float) : Command → Command
  | move target e f => move (convertAxes target) (e.map extrusion) (f.map feedRate)
  | command => command

/-- A line in inches, in millimetres. -/
def GCode.Line.convert (extrusion feedRate : Float → Float) (line : Line) : Line :=
  { line with command := line.command.map (Command.convert extrusion feedRate) }

/-- Whether the code of a line chooses a unit. -/
def IsUnits (text : List Char) : Prop :=
  integer? 'G' (annotate text).code = some 20 ∨ integer? 'G' (annotate text).code = some 21

instance (text : List Char) : Decidable (IsUnits text) :=
  inferInstanceAs (Decidable (_ ∨ _))

/-- The places that the moves of a toolpath lead to. -/
def recordedPositions (layers : Array Layer) : List Position :=
  (filedMoves layers).map fun move => move.point.position

theorem command_of_not_isUnits {text : List Char} (h : ¬ IsUnits text) (scale : Float) :
    (Line.read text).command ≠ some (.units scale) := by
  intro hcommand
  cases commandOn_of_command hcommand with
  | inches hcode => exact h (Or.inl hcode)
  | millimetres hcode => exact h (Or.inr hcode)

namespace Machine

/-! ## Two machines at the same place -/

/-- Two machines are at the same place and take coordinates alike, but one of them in inches
and the other one in millimetres. -/
structure SamePlace (inches millimetres : Machine) : Prop where
  position : millimetres.position = inches.position
  offset : millimetres.offset = inches.offset
  positioning : millimetres.positioning = inches.positioning
  tool : millimetres.tool = inches.tool
  inches : inches.scale = millimetresPerInch
  millimetres : millimetres.scale = 1.0

variable {inches millimetres : Machine}

theorem SamePlace.resolve (h : SamePlace inches millimetres) (current offset : Float)
    (value : Option Float) :
    millimetres.resolve current offset (value.map (· * millimetresPerInch)) =
      inches.resolve current offset value := by
  cases value with
  | none => rfl
  | some v =>
    unfold Machine.resolve
    rw [h.positioning, h.inches, h.millimetres]
    simp only [Option.map_some, mul_one_eq]

/-- **A move leads to the same place**, if its axis words are converted. -/
theorem SamePlace.destination (h : SamePlace inches millimetres)
    (target : Axes (Option Float)) :
    millimetres.destination (convertAxes target) = inches.destination target := by
  unfold Machine.destination
  rw [h.position, h.offset]
  simp only [convertAxes, Axes.map, h.resolve]

theorem SamePlace.selectTool (h : SamePlace inches millimetres) (profile : Profile)
    (tool : Nat) :
    SamePlace (inches.selectTool profile tool) (millimetres.selectTool profile tool) := by
  refine ⟨h.position, ?_, h.positioning, rfl, h.inches, h.millimetres⟩
  unfold Machine.selectTool
  rw [h.offset, h.tool]

theorem SamePlace.selectNamed (h : SamePlace inches millimetres) (profile : Profile)
    (named : Option Int) :
    SamePlace (inches.selectNamed profile named) (millimetres.selectNamed profile named) := by
  cases named with
  | none => exact h
  | some index =>
    unfold Machine.selectNamed
    simp only [h.tool]
    split_ifs
    · exact h
    · exact h.selectTool profile _
    · exact h

theorem SamePlace.ready (h : SamePlace inches millimetres) (setup : Setup) (line : Line)
    (extrusion feedRate : Float → Float) :
    SamePlace (inches.ready setup line)
      (millimetres.ready setup (line.convert extrusion feedRate)) := by
  have hannounced : SamePlace (inches.announce line)
      (millimetres.announce (line.convert extrusion feedRate)) :=
    ⟨h.position, h.offset, h.positioning, h.tool, h.inches, h.millimetres⟩
  exact hannounced.selectNamed setup.profile line.tool

theorem SamePlace.execute (h : SamePlace inches millimetres) (rule : ThicknessRule)
    {command : Command} (hunits : ∀ scale, command ≠ .units scale)
    (extrusion feedRate : Float → Float) :
    SamePlace (inches.execute rule command)
      (millimetres.execute rule (command.convert extrusion feedRate)) := by
  cases command with
  | move target e f =>
    exact ⟨h.destination target, h.offset, h.positioning, h.tool, h.inches, h.millimetres⟩
  | units scale => exact absurd rfl (hunits scale)
  | home named =>
    show SamePlace (inches.home named) (millimetres.home named)
    unfold home
    rw [h.position]
    split
    · exact ⟨rfl, h.offset, h.positioning, h.tool, h.inches, h.millimetres⟩
    · exact ⟨rfl, rfl, h.positioning, h.tool, h.inches, h.millimetres⟩
  | positioning mode => exact ⟨h.position, h.offset, rfl, h.tool, h.inches, h.millimetres⟩
  | redefine target e =>
    refine ⟨h.position, ?_, h.positioning, h.tool, h.inches, h.millimetres⟩
    show (millimetres.redefine target e).offset = (inches.redefine target e).offset
    unfold redefine
    rw [h.position, h.offset]
  | flow percent =>
    cases percent with
    | none => exact h
    | some value => exact ⟨h.position, h.offset, h.positioning, h.tool, h.inches, h.millimetres⟩
  | _ => exact ⟨h.position, h.offset, h.positioning, h.tool, h.inches, h.millimetres⟩

/-- **A line keeps two machines at the same place**, if the one in millimetres is given the
converted line. -/
theorem SamePlace.after (h : SamePlace inches millimetres) (setup : Setup) {line : Line}
    (hunits : ∀ scale, line.command ≠ some (.units scale)) (extrusion feedRate : Float → Float) :
    SamePlace (inches.after setup line)
      (millimetres.after setup (line.convert extrusion feedRate)) := by
  have hready := h.ready setup line extrusion feedRate
  have hcommand : (line.convert extrusion feedRate).command =
      line.command.map (Command.convert extrusion feedRate) := rfl
  rw [after_eq_execute, after_eq_execute, hcommand]
  cases hnamed : line.command with
  | none => exact hready.execute setup.rule (fun _ => Command.noConfusion) extrusion feedRate
  | some command =>
    refine hready.execute setup.rule (fun scale heq => ?_) extrusion feedRate
    exact hunits scale (hnamed.trans (congrArg some heq))

/-! ## A machine in millimetres instead of inches -/

/-- The same machine in millimetres. -/
def metric (m : Machine) : Machine :=
  { m with scale := 1.0 }

@[simp] theorem feedRate_metric (m : Machine) : m.metric.feedRate = m.feedRate := rfl

theorem samePlace_metric {m : Machine} (h : m.scale = millimetresPerInch) :
    SamePlace m m.metric :=
  ⟨rfl, rfl, rfl, rfl, h, rfl⟩

/-- **A move in inches is the converted move in millimetres.** -/
theorem move_metric {m : Machine} (h : m.scale = millimetresPerInch) (rule : ThicknessRule)
    (target : Axes (Option Float)) (extrusion feedRate : Option Float) :
    m.metric.move rule (convertAxes target) extrusion feedRate =
      (m.move rule target extrusion feedRate).metric := by
  have hdestination := (samePlace_metric h).destination target
  have hminutes (rate : Float) : m.metric.minutesAfter (convertAxes target) rate =
      m.minutesAfter target rate := by
    unfold minutesAfter
    rw [hdestination, any_convertAxes]
    rfl
  have hthickness : m.metric.thicknessAfter rule (convertAxes target) extrusion =
      m.thicknessAfter rule target extrusion := by
    unfold thicknessAfter
    rw [hdestination]
    rfl
  unfold Machine.move
  simp only [hdestination, hminutes, hthickness]
  rfl

end Machine

/-- The place that a command records, if the machine behind it is this one. -/
def GCode.Command.recordedPlace (after : Machine) : Option Command → List Position
  | some (.move _ _ _) => [after.position]
  | _ => []

theorem recordedPlace_convert {after other : Machine} (h : other.position = after.position)
    (extrusion feedRate : Float → Float) (command : Option Command) :
    Command.recordedPlace other (command.map (Command.convert extrusion feedRate)) =
      Command.recordedPlace after command := by
  rcases command with _ | command
  · rfl
  · cases command with
    | move target e f => exact congrArg (fun place => [place]) h
    | _ => rfl

namespace Pass

variable (setup : Setup)

/-! ## The places of two passes -/

/-- A line records the place of the machine behind it, if it is a move. -/
theorem recordedPositions_feed (pass : Pass) (line : Line) :
    recordedPositions (pass.feed setup line).builder.layers =
      recordedPositions pass.builder.layers ++
        Command.recordedPlace (pass.feed setup line).machine line.command := by
  rw [builder_feed, machine_feed, Machine.operations, Builder.applyAll_append]
  unfold recordedPositions Machine.after
  rw [← Builder.filedMoves_mark pass.builder line.layerBoundary]
  rcases line.command with _ | command
  · exact (List.append_nil _).symm
  · cases command with
    | move target extrusion feedRate =>
      show List.map _ (filedMoves (Builder.push _ _ _ _ _).layers) = _
      rw [Builder.filedMoves_push, List.map_append]
      rfl
    | _ => exact (List.append_nil _).symm

/-- **Two passes record the same places**, if the one in millimetres is given the converted
lines. -/
theorem recordedPositions_feedAll {pass other : Pass}
    (hplace : Machine.SamePlace pass.machine other.machine)
    (hrecorded : recordedPositions other.builder.layers = recordedPositions pass.builder.layers)
    (extrusion feedRate : Float → Float) {lines : List Line}
    (hunits : ∀ line ∈ lines, ∀ scale, line.command ≠ some (.units scale)) :
    recordedPositions
        (other.feedAll setup (lines.map (Line.convert extrusion feedRate))).builder.layers =
      recordedPositions (pass.feedAll setup lines).builder.layers := by
  induction lines generalizing pass other with
  | nil => exact hrecorded
  | cons line lines ih =>
    have hnext : Machine.SamePlace (pass.feed setup line).machine
        (other.feed setup (line.convert extrusion feedRate)).machine := by
      rw [machine_feed, machine_feed]
      exact hplace.after setup (hunits line List.mem_cons_self) extrusion feedRate
    refine ih hnext ?_ fun later hlater => hunits later (List.mem_cons_of_mem line hlater)
    rw [recordedPositions_feed, recordedPositions_feed, hrecorded]
    exact congrArg _ (recordedPlace_convert hnext.position extrusion feedRate line.command)

/-! ## A pass in millimetres instead of inches -/

/-- The same pass with its machine in millimetres. -/
def metric (pass : Pass) : Pass :=
  { pass with machine := pass.machine.metric }

theorem announce_metric (pass : Pass) (line : Line) :
    pass.metric.announce line = (pass.announce line).metric := by
  unfold announce
  simp only
  split <;> rfl

theorem selectTool_metric (pass : Pass) (tool : Option Int) :
    pass.metric.selectTool setup tool = (pass.selectTool setup tool).metric := by
  unfold selectTool
  cases tool with
  | none => rfl
  | some index =>
    show (if _ then if index.toNat = pass.machine.tool then _ else _ else _) = _
    simp only
    split_ifs <;> rfl

/-- A move in inches and the converted move in millimetres do the same to a pass. -/
theorem move_metric {pass : Pass} (h : pass.machine.scale = millimetresPerInch)
    (target : Axes (Option Float)) (extrusion feedRate : Option Float) :
    pass.metric.move setup (convertAxes target) extrusion feedRate =
      (pass.move setup target extrusion feedRate).metric := by
  have hmachine : pass.metric.machine.move setup.rule (convertAxes target) extrusion feedRate =
      (pass.machine.move setup.rule target extrusion feedRate).metric :=
    Machine.move_metric h setup.rule target extrusion feedRate
  unfold move
  simp only [hmachine, any_convertAxes, Machine.feedRate_metric]
  split <;> rfl

/-- A command does the same to a pass in inches and, converted, to one in millimetres. -/
theorem execute_metric {pass : Pass} (h : pass.machine.scale = millimetresPerInch)
    {command : Option Command} (hunits : ∀ scale, command ≠ some (.units scale)) :
    pass.metric.execute setup (command.map (Command.convert id id)) =
      (pass.execute setup command).metric := by
  rcases command with _ | command
  · rfl
  · cases command with
    | move target extrusion feedRate =>
      show pass.metric.move setup (convertAxes target) (extrusion.map id) (feedRate.map id) = _
      rw [Option.map_id, id, id]
      exact move_metric setup h target extrusion feedRate
    | units scale => exact absurd rfl (hunits scale)
    | home named =>
      show { pass.metric with machine := pass.machine.metric.home named } =
        metric { pass with machine := pass.machine.home named }
      have hhome : pass.machine.metric.home named = (pass.machine.home named).metric := by
        unfold Machine.home
        split <;> rfl
      rw [hhome]
      rfl
    | flow percent => cases percent <;> rfl
    | _ => rfl

/-- **A pass in inches and one in millimetres do the same** with a line, if the one in
millimetres is given the converted line, with the filament and the feed rate as they are. -/
theorem feed_metric {pass : Pass} (h : pass.machine.scale = millimetresPerInch) {line : Line}
    (hunits : ∀ scale, line.command ≠ some (.units scale)) :
    pass.metric.feed setup (line.convert id id) = (pass.feed setup line).metric := by
  let counted : Pass := { pass with line := pass.line + 1 }
  show ((counted.metric.announce line).selectTool setup line.tool).execute setup
    (line.command.map (Command.convert id id)) = _
  rw [announce_metric, selectTool_metric]
  refine execute_metric setup ?_ hunits
  rw [machine_selectTool, machine_announce]
  exact (pass.machine.scale_ready setup line).trans h

theorem feedAll_metric {pass : Pass} (h : pass.machine.scale = millimetresPerInch)
    {lines : List Line} (hunits : ∀ line ∈ lines, ∀ scale, line.command ≠ some (.units scale)) :
    pass.metric.feedAll setup (lines.map (Line.convert id id)) =
      (pass.feedAll setup lines).metric := by
  induction lines generalizing pass with
  | nil => rfl
  | cons line lines ih =>
    have hline := hunits line List.mem_cons_self
    show (pass.metric.feed setup (line.convert id id)).feedAll setup
      (lines.map (Line.convert id id)) = _
    rw [feed_metric setup h hline]
    refine ih ?_ fun later hlater => hunits later (List.mem_cons_of_mem line hlater)
    rw [machine_feed]
    exact ((Machine.samePlace_metric h).after setup hline id id).inches

/-! ## Programs in inches and in millimetres -/

/-- The code that chooses inches. -/
theorem read_inches : Line.read "G20".toList =
    ⟨none, false, false, none, some (.units millimetresPerInch)⟩ := by
  decide +kernel

/-- The code that chooses millimetres. -/
theorem read_millimetres : Line.read "G21".toList =
    ⟨none, false, false, none, some (.units 1.0)⟩ := by
  decide +kernel

/-- Choosing millimetres instead of inches makes no other difference. -/
theorem feed_millimetres (pass : Pass) :
    pass.feed setup (Line.read "G21".toList) =
      (pass.feed setup (Line.read "G20".toList)).metric := by
  rw [read_inches, read_millimetres]
  rfl

theorem scale_feed_inches (pass : Pass) :
    (pass.feed setup (Line.read "G20".toList)).machine.scale = millimetresPerInch := by
  rw [read_inches]
  rfl

/-- A program that goes on in inches. -/
theorem run_inches (front texts : List (List Char)) :
    run setup (front ++ "G20".toList :: texts) =
      ((run setup front).feed setup (Line.read "G20".toList)).feedAll setup
        (texts.map Line.read) := by
  unfold run
  rw [List.map_append, feedAll_append]
  rfl

/-- A program that goes on in millimetres, with the lines converted. -/
theorem run_millimetres (front : List (List Char)) {texts converted : List (List Char)}
    {extrusion feedRate : Float → Float}
    (hconverted : converted.map Line.read =
      texts.map fun text => (Line.read text).convert extrusion feedRate) :
    run setup (front ++ "G21".toList :: converted) =
      ((run setup front).feed setup (Line.read "G20".toList)).metric.feedAll setup
        ((texts.map Line.read).map (Line.convert extrusion feedRate)) := by
  unfold run
  rw [List.map_append, feedAll_append, List.map_cons, hconverted, List.map_map,
    ← feed_millimetres]
  rfl

/-- **A program in inches and one in millimetres.**  Let the second one be the first one with
all coordinates multiplied by the millimetres of an inch.  Both record the same places,
whatever is made of the filament and the feed rates.  If these are left as they are, both give
the same toolpath. -/
theorem inches_run (front texts converted : List (List Char)) (extrusion feedRate : Float → Float)
    (hunits : ∀ text ∈ texts, ¬ IsUnits text)
    (hconverted : converted.map Line.read =
      texts.map fun text => (Line.read text).convert extrusion feedRate) :
    let inches := (run setup (front ++ "G20".toList :: texts)).finish
    let millimetres := (run setup (front ++ "G21".toList :: converted)).finish
    recordedPositions millimetres.layers = recordedPositions inches.layers ∧
      (extrusion = id → feedRate = id → millimetres = inches) := by
  have hscale := scale_feed_inches setup (run setup front)
  have hlines : ∀ line ∈ texts.map Line.read, ∀ scale, line.command ≠ some (.units scale) := by
    intro line hline
    obtain ⟨text, htext, rfl⟩ := List.mem_map.mp hline
    exact command_of_not_isUnits (hunits text htext)
  rw [run_inches, run_millimetres setup front hconverted]
  generalize (run setup front).feed setup (Line.read "G20".toList) = pass at hscale ⊢
  intro inches millimetres
  have hplace : Machine.SamePlace pass.machine pass.metric.machine :=
    Machine.samePlace_metric hscale
  constructor
  · exact recordedPositions_feedAll setup hplace rfl extrusion feedRate hlines
  · rintro rfl rfl
    show (pass.metric.feedAll setup _).finish = (pass.feedAll setup _).finish
    rw [feedAll_metric setup hscale hlines]
    rfl

/-- Two moves in inches, the second one relative, with the filament and the feed rate as they
are. -/
theorem inches_run_twoMoves :
    let texts := ["G1 X1 E1 F60", "G91", "G1 X1 Y2 E2"].map String.toList
    let converted := ["G1 X25.4 E1 F60", "G91", "G1 X25.4 Y50.8 E2"].map String.toList
    (∀ text ∈ texts, ¬ IsUnits text) ∧
      (converted.map Line.read = texts.map fun text => (Line.read text).convert id id) ∧
      (run ⟨.empty, .standard⟩ ([] ++ "G21".toList :: converted)).finish =
        (run ⟨.empty, .standard⟩ ([] ++ "G20".toList :: texts)).finish := by
  intro texts converted
  have hunits : ∀ text ∈ texts, ¬ IsUnits text := by decide +kernel
  have hconverted : converted.map Line.read =
      texts.map fun text => (Line.read text).convert id id := by decide +kernel
  obtain ⟨-, hsame⟩ := inches_run ⟨.empty, .standard⟩ [] texts converted id id hunits hconverted
  exact ⟨hunits, hconverted, hsame rfl rfl⟩

/-- **Filament and feed rate are not converted.**  A program in inches and one in millimetres,
in which each value is the product of that in inches and the millimetres of an inch, lead to
the same place.  But they do not use the same filament, and they do not take the same time. -/
theorem finish_ne_of_convert :
    let texts := ["G1 X1 E1 F60"].map String.toList
    let converted := ["G1 X25.4 E25.4 F1524"].map String.toList
    let inches := (run ⟨.empty, .standard⟩ ("G20".toList :: texts)).finish
    let millimetres := (run ⟨.empty, .standard⟩ ("G21".toList :: converted)).finish
    (converted.map Line.read = texts.map fun text =>
        (Line.read text).convert (· * millimetresPerInch) (· * millimetresPerInch)) ∧
      recordedPositions millimetres.layers = recordedPositions inches.layers ∧
      inches.extrusion = 1.0 ∧ millimetres.extrusion = 25.4 ∧
      inches.minutes = 25.4 / 60.0 ∧ millimetres.minutes = 25.4 / 1524.0 ∧
      millimetres.minutes < inches.minutes := by
  decide +kernel

end Pass
end PrintPath
