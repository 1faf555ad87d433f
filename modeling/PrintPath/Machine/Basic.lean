import PrintPath.GCode.Line
import PrintPath.Machine.FilamentCounter
import PrintPath.Machine.Thickness
import PrintPath.Profile.Basic

/-!
# The machine

A machine is everything that one line of code leaves behind for the next: where
the head is, how coordinates are read, how much filament was fed and how much time
has passed.  It knows nothing of the toolpath that is being recorded.

Each way in which a line can change the machine is one function here, and each
changes only the fields it names.  That is what most statements about whole
programs come down to.
-/

namespace PrintPath

open GCode

/-- The state of a printer while it carries out a program. -/
structure Machine where
  /-- Where the head is. -/
  position : Position
  /-- What is added to an absolute coordinate. -/
  offset : Position
  filament : FilamentCounter
  /-- In millimetres per minute. -/
  feedRate : Float
  /-- The length of one unit of a coordinate, in millimetres. -/
  scale : Float
  positioning : Mode
  extrusion : Mode
  /-- The number of the selected extruder. -/
  tool : Nat
  /-- The flow multiplier, 1 being the nominal flow. -/
  multiplier : Float
  /-- What the present motion is for. -/
  pathType : PathType
  /-- The layer thickness in force. -/
  thickness : Float
  /-- The time that has passed. -/
  minutes : Float
  /-- Whether the program has got beyond its start code. -/
  preambleEnded : Bool

namespace Machine

/-- A machine that is switched on: at the origin, in millimetres, all coordinates
absolute, with a feed rate of 3600 mm/min and a layer thickness of 0.1 mm. -/
def initial : Machine :=
  { position := .origin
    offset := .origin
    filament := .zero
    feedRate := 3600.0
    scale := 1.0
    positioning := .absolute
    extrusion := .absolute
    tool := 0
    multiplier := 1.0
    pathType := .custom
    thickness := 0.1
    minutes := 0.0
    preambleEnded := false }

/-- The point that a move to the present place records. -/
def point (m : Machine) : Point :=
  ⟨m.position, m.filament.total, m.multiplier⟩

/-! ## Comments and tools -/

/-- Take up what a line's comment announces.  The start code is over when a comment
stands in a part of the program that has been given a purpose. -/
def announce (m : Machine) (line : Line) : Machine :=
  let pathType := line.pathType.getD m.pathType
  { m with
    pathType
    preambleEnded := m.preambleEnded || (line.hasComment && pathType != .custom) }

/-- Put another extruder in place of the present one: coordinates shift by the
difference of the two offsets. -/
def selectTool (m : Machine) (profile : Profile) (tool : Nat) : Machine :=
  let old := profile.toolOffset m.tool
  let new := profile.toolOffset tool
  { m with
    tool
    offset := ⟨m.offset.x + (new.x - old.x), m.offset.y + (new.y - old.y), m.offset.z⟩ }

/-! ## Moves -/

/-- The coordinate that a word on an axis leads to; without a word the axis
stays. -/
def resolve (m : Machine) (current offset : Float) : Option Float → Float
  | none => current
  | some value =>
    match m.positioning with
    | .absolute => value * m.scale + offset
    | .relative => current + value * m.scale

/-- Where a move leads. -/
def destination (m : Machine) (target : Axes (Option Float)) : Position :=
  { x := m.resolve m.position.x m.offset.x target.x
    y := m.resolve m.position.y m.offset.y target.y
    z := m.resolve m.position.z m.offset.z target.z }

/-- How far a move drives the filament axis, if it names it. -/
def filamentChange (m : Machine) (extrusion : Option Float) : Option Float :=
  extrusion.map (m.filament.change m.extrusion)

/-- The kind of a move. -/
def moveKind (m : Machine) (extrusion : Option Float) : MoveKind :=
  match m.filamentChange extrusion with
  | none => .travel
  | some change => FilamentCounter.kindOf change

/-- The filament counter after a move. -/
def filamentAfter (m : Machine) (extrusion : Option Float) : FilamentCounter :=
  match extrusion with
  | none => m.filament
  | some value => m.filament.advance m.extrusion value

/-- The time after a move.  Only a move that names an axis takes time, and none
can be told if the feed rate is not positive. -/
def minutesAfter (m : Machine) (target : Axes (Option Float)) (feedRate : Float) : Float :=
  if target.any Option.isSome ∧ 0.0 < feedRate then
    m.minutes + m.position.distance (m.destination target) / feedRate
  else m.minutes

/-- The layer thickness after a move: a travel to another height sets it. -/
def thicknessAfter (m : Machine) (rule : ThicknessRule) (target : Axes (Option Float))
    (extrusion : Option Float) : Float :=
  let old := m.position.z
  let new := (m.destination target).z
  if m.moveKind extrusion = .travel ∧ old != new then rule.thickness old new else m.thickness

/-- A straight move. -/
def move (m : Machine) (rule : ThicknessRule) (target : Axes (Option Float))
    (extrusion feedRate : Option Float) : Machine :=
  let rate := feedRate.getD m.feedRate
  { m with
    position := m.destination target
    feedRate := rate
    minutes := m.minutesAfter target rate
    filament := m.filamentAfter extrusion
    thickness := m.thicknessAfter rule target extrusion }

/-! ## The other commands -/

/-- Wait for so many seconds and then so many milliseconds. -/
def dwell (m : Machine) (seconds milliseconds : Option Float) : Machine :=
  let waited := match seconds with
    | none => m.minutes
    | some s => m.minutes + s / 60.0
  { m with
    minutes := match milliseconds with
      | none => waited
      | some p => waited + p / 60.0 / 1000.0 }

/-- Drive the named axes to zero.  If none is named all of them go there, and the
coordinates become those of the machine again. -/
def home (m : Machine) (named : Axes Bool) : Machine :=
  if named.any id then
    { m with
      position := Axes.zipWith (fun isNamed (old : Float) => if isNamed then 0.0 else old)
        named m.position }
  else { m with position := .origin, offset := .origin }

/-- Give the present place new coordinates, on the named axes. -/
def redefine (m : Machine) (target : Axes (Option Float)) (extrusion : Option Float) : Machine :=
  let shift := fun (position offset : Float) (value : Option Float) =>
    match value with
    | none => offset
    | some v => position - v
  { m with
    filament := match extrusion with
      | none => m.filament
      | some value => m.filament.setAxis value
    offset :=
      { x := shift m.position.x m.offset.x target.x
        y := shift m.position.y m.offset.y target.y
        z := shift m.position.z m.offset.z target.z } }

/-- Set the flow multiplier. -/
def setFlow (m : Machine) (percent : Option Float) : Machine :=
  match percent with
  | none => m
  | some value => { m with multiplier := value / 100.0 }

/-- Carry out a command. -/
def execute (m : Machine) (rule : ThicknessRule) : Command → Machine
  | .move target extrusion feedRate => m.move rule target extrusion feedRate
  | .dwell seconds milliseconds => m.dwell seconds milliseconds
  | .units scale => { m with scale }
  | .home named => m.home named
  | .positioning mode => { m with positioning := mode }
  | .redefine target extrusion => m.redefine target extrusion
  | .extrusionMode mode => { m with extrusion := mode }
  | .flow percent => m.setFlow percent
  | .inert => m
  | .unknown _ _ => m

end Machine
end PrintPath
