import PrintPath.GCode.Command
import PrintPath.Toolpath.Segment

/-!
# Counting filament

The filament axis of a printer is counted twice.  The `axis` value is what the
firmware sees: a program may set it to anything at any time.  The `total` is what
really passed the nozzle: it only ever moves by what the axis moves.  A print has
used as much filament as the total ever reached, so the `peak` is kept as well;
retractions at the end of a print do not lower it.
-/

namespace PrintPath

open GCode

/-- The filament axis of a machine, in millimetres. -/
structure FilamentCounter where
  /-- The value of the axis. -/
  axis : Float
  /-- The filament fed so far. -/
  total : Float
  /-- The largest value that `total` ever had. -/
  peak : Float

namespace FilamentCounter

/-- Before anything was fed. -/
def zero : FilamentCounter := ⟨0.0, 0.0, 0.0⟩

/-- Where the axis goes if a move asks it to go to, or by, `value`. -/
def target (counter : FilamentCounter) (mode : Mode) (value : Float) : Float :=
  match mode with
  | .absolute => value
  | .relative => counter.axis + value

/-- How far the axis moves if a move asks it to go to, or by, `value`. -/
def change (counter : FilamentCounter) (mode : Mode) (value : Float) : Float :=
  counter.target mode value - counter.axis

/-- The larger of the peak and a new total. -/
def raise (peak total : Float) : Float :=
  if peak < total then total else peak

/-- Move the axis. -/
def advance (counter : FilamentCounter) (mode : Mode) (value : Float) : FilamentCounter :=
  let total := counter.total + counter.change mode value
  { axis := counter.target mode value, total, peak := raise counter.peak total }

/-- Set the axis without moving anything. -/
def setAxis (counter : FilamentCounter) (value : Float) : FilamentCounter :=
  { counter with axis := value }

/-- The kind of a move that moves the axis by `change`. -/
def kindOf (change : Float) : MoveKind :=
  if 0.0 < change then .extrude
  else if change < 0.0 then .retract
  else .travel

@[simp] theorem total_setAxis (counter : FilamentCounter) (value : Float) :
    (counter.setAxis value).total = counter.total := rfl

@[simp] theorem peak_setAxis (counter : FilamentCounter) (value : Float) :
    (counter.setAxis value).peak = counter.peak := rfl

end FilamentCounter
end PrintPath
