import Mathlib.Tactic.SplitIfs
import PrintPath.GCode.Line

/-!
# The code behind a command

A command is read off a line by its `G` code or, if that is missing, by its `M` code.  Here
the reading is turned round.  `CommandOn code command` has a constructor for each code and
says with which letters it gives which command; `commandOn_of_command` says that a line
gives no command in any other way.  So a proof about the lines of one code takes a command
apart (`cases`) and need not look at the reader again.
-/

namespace PrintPath

open GCode

/-! ## Codes that later statements speak of -/

/-- Whether the code of a line homes the head, on some axes or on all. -/
def IsHoming (text : List Char) : Prop :=
  integer? 'G' (annotate text).code = some 28

instance (text : List Char) : Decidable (IsHoming text) :=
  inferInstanceAs (Decidable (_ = _))

/-- Whether the code of a line homes the head without naming an axis. -/
def IsPlainHoming (text : List Char) : Prop :=
  IsHoming text ∧ (axisWords (annotate text).code).any id = false

instance (text : List Char) : Decidable (IsPlainHoming text) :=
  inferInstanceAs (Decidable (_ ∧ _))

/-- Whether the code of a line gives the present place new coordinates. -/
def IsRedefinition (text : List Char) : Prop :=
  integer? 'G' (annotate text).code = some 92

instance (text : List Char) : Decidable (IsRedefinition text) :=
  inferInstanceAs (Decidable (_ = _))

namespace GCode

/-! ## From a command to its code -/

/-- The commands that a line of code can give, with the code that gives each. -/
inductive CommandOn (code : List Char) : Command → Prop where
  | move (h : integer? 'G' code = some 0 ∨ integer? 'G' code = some 1) :
    CommandOn code (.move (axisNumbers code) (number? 'E' code) (number? 'F' code))
  | dwell (h : integer? 'G' code = some 4) :
    CommandOn code (.dwell (number? 'S' code) (number? 'P' code))
  | inches (h : integer? 'G' code = some 20) : CommandOn code (.units millimetresPerInch)
  | millimetres (h : integer? 'G' code = some 21) : CommandOn code (.units 1.0)
  | home (h : integer? 'G' code = some 28) : CommandOn code (.home (axisWords code))
  | absolute (h : integer? 'G' code = some 90) : CommandOn code (.positioning .absolute)
  | relative (h : integer? 'G' code = some 91) : CommandOn code (.positioning .relative)
  | redefine (h : integer? 'G' code = some 92) :
    CommandOn code (.redefine (axisNumbers code) (number? 'E' code))
  | unknownG (g : Int) (h : integer? 'G' code = some g)
    (hnone : g ∉ [0, 1, 4, 20, 21, 28, 90, 91, 92]) : CommandOn code (.unknown 'G' g)
  | absoluteExtrusion (hg : integer? 'G' code = none) (h : integer? 'M' code = some 82) :
    CommandOn code (.extrusionMode .absolute)
  | relativeExtrusion (hg : integer? 'G' code = none) (h : integer? 'M' code = some 83) :
    CommandOn code (.extrusionMode .relative)
  | flow (hg : integer? 'G' code = none) (h : integer? 'M' code = some 221) :
    CommandOn code (.flow (number? 'S' code))
  | inert (m : Int) (hg : integer? 'G' code = none) (h : integer? 'M' code = some m)
    (hinert : m ∈ inertCodes) : CommandOn code .inert
  | unknownM (m : Int) (hg : integer? 'G' code = none) (h : integer? 'M' code = some m)
    (hnone : m ∉ [82, 83, 221] ++ inertCodes) : CommandOn code (.unknown 'M' m)

theorem commandOn_ofG {g : Int} {code : List Char} (h : integer? 'G' code = some g) :
    CommandOn code (Command.ofG g code) := by
  unfold Command.ofG
  split_ifs with hmove hdwell hinches hmillimetres hhome habsolute hrelative hredefine
  · exact .move (by rw [h]; exact hmove.imp (congrArg some) (congrArg some))
  · exact .dwell (by rw [h, hdwell])
  · exact .inches (by rw [h, hinches])
  · exact .millimetres (by rw [h, hmillimetres])
  · exact .home (by rw [h, hhome])
  · exact .absolute (by rw [h, habsolute])
  · exact .relative (by rw [h, hrelative])
  · exact .redefine (by rw [h, hredefine])
  · refine .unknownG g h ?_
    simp only [List.mem_cons, List.not_mem_nil, or_false, not_or]
    omega

theorem commandOn_ofM {m : Int} {code : List Char} (hg : integer? 'G' code = none)
    (h : integer? 'M' code = some m) : CommandOn code (Command.ofM m code) := by
  unfold Command.ofM
  split_ifs with habsolute hrelative hflow hinert
  · exact .absoluteExtrusion hg (by rw [h, habsolute])
  · exact .relativeExtrusion hg (by rw [h, hrelative])
  · exact .flow hg (by rw [h, hflow])
  · exact .inert m hg h hinert
  · refine .unknownM m hg h ?_
    rw [List.mem_append]
    rintro (hnamed | hmem)
    · simp only [List.mem_cons, List.not_mem_nil, or_false] at hnamed
      omega
    · exact hinert hmem

/-- **A line gives a command by one of its codes and in no other way.** -/
theorem commandOn_of_command {text : List Char} {command : Command}
    (h : (Line.read text).command = some command) :
    CommandOn (annotate text).code command := by
  change Command.read? (annotate text).code = some command at h
  unfold Command.read? at h
  cases hg : integer? 'G' (annotate text).code with
  | some g =>
    rw [hg] at h
    rw [← Option.some.inj h]
    exact commandOn_ofG hg
  | none =>
    rw [hg] at h
    obtain ⟨m, hm, rfl⟩ := Option.map_eq_some_iff.mp h
    exact commandOn_ofM hg hm

/-- A line gives no command if it has neither code. -/
theorem integer?_of_command_eq_none {text : List Char} (h : (Line.read text).command = none) :
    integer? 'G' (annotate text).code = none ∧ integer? 'M' (annotate text).code = none := by
  change Command.read? (annotate text).code = none at h
  unfold Command.read? at h
  cases hg : integer? 'G' (annotate text).code with
  | some g =>
    rw [hg] at h
    exact absurd h (Option.some_ne_none _)
  | none =>
    rw [hg] at h
    exact ⟨rfl, Option.map_eq_none_iff.mp h⟩

/-- A line with a `G` code gives the command of that code. -/
theorem command_of_integer {text : List Char} {g : Int}
    (h : integer? 'G' (annotate text).code = some g) :
    (Line.read text).command = some (Command.ofG g (annotate text).code) := by
  show Command.read? (annotate text).code = _
  unfold Command.read?
  rw [h]

theorem command_of_isHoming {text : List Char} (h : IsHoming text) :
    (Line.read text).command = some (.home (axisWords (annotate text).code)) :=
  command_of_integer h

end GCode
end PrintPath
