import PrintPath.Diagnostic
import PrintPath.Files.Basic
import PrintPath.Number.Layout

/-!
# The journal

While it works the library notes what happens.  A note is data; `Note.level` and
`Note.message` say how it is reported.  The notes never influence a result.
-/

namespace PrintPath

/-- How important a note is. -/
inductive Level where
  | error
  | warn
  | info
  | debug
  | trace
  deriving DecidableEq, Repr

/-- The name of a level. -/
def Level.name : Level → String
  | error => "ERROR"
  | warn => "WARN"
  | info => "INFO"
  | debug => "DEBUG"
  | trace => "TRACE"

/-- What happened. -/
inductive Note where
  /-- A line was not fully understood. -/
  | diagnosed (diagnostic : Diagnostic)
  /-- A layer marker completed a layer. -/
  | layerClosed (layers line : Nat)
  | toolSwitched (old new line : Nat)
  /-- A move took no time that could be told. -/
  | timeSkipped (line : Nat) (feedRate : Float)
  /-- A program was read to its end. -/
  | parsed (lines : Nat) (extrusion minutes : Float)
  /-- An observer stopped the reading. -/
  | cancelled (progress : Float)
  | fileMissing (path : Path)
  | fileLoaded (path : Path) (layers : Nat) (extrusion minutes : Float)
  | fileProgress (path : Path) (progress : Float)
  /-- A profile file could not be used. -/
  | profileUnavailable (reason : String)
  | profileChosen (path : Path)
  | builtInProfileChosen
  deriving Repr

/-- How a number is written in a note: the fewest digits, never an exponent. -/
def noteLayout : Number.Layout :=
  { tie := .up
    positional := none
    wholeEnd := ""
    undefined := "NaN"
    infinite := fun negative => if negative then "-inf" else "inf" }

/-- A fraction in whole percent. -/
def percentText (progress : Float) : String :=
  Number.fixed 0 (progress * 100.0) ++ "%"

namespace Note

/-- How important a note is. -/
def level : Note → Level
  | diagnosed _ => .warn
  | layerClosed _ _ => .debug
  | toolSwitched _ _ _ => .debug
  | timeSkipped _ _ => .debug
  | parsed _ _ _ => .debug
  | cancelled _ => .info
  | fileMissing _ => .warn
  | fileLoaded _ _ _ _ => .info
  | fileProgress _ _ => .debug
  | profileUnavailable _ => .warn
  | profileChosen _ => .debug
  | builtInProfileChosen => .debug

/-- A note in words. -/
def message : Note → String
  | diagnosed diagnostic => diagnostic.text
  | layerClosed layers line =>
    "Layer " ++ toString layers ++ " closed at line " ++ toString line
  | toolSwitched old new line =>
    "Switched extruder T" ++ toString old ++ " -> T" ++ toString new
      ++ " at line " ++ toString line
  | timeSkipped line feedRate =>
    "Skipping time estimate at line " ++ toString line
      ++ ": feed rate " ++ noteLayout.write feedRate
  | parsed lines extrusion minutes =>
    "Parsed " ++ toString lines ++ " lines: " ++ Number.fixed 2 extrusion
      ++ " mm extruded, " ++ Number.fixed 2 minutes ++ " min"
  | cancelled progress => "G-code loading cancelled at " ++ percentText progress
  | fileMissing path => "G-code file not found, nothing loaded: " ++ path.shown
  | fileLoaded path layers extrusion minutes =>
    "Loaded " ++ path.shown ++ ": " ++ toString layers ++ " layers, "
      ++ Number.fixed 2 extrusion ++ " mm filament, " ++ Number.fixed 2 minutes ++ " min"
  | fileProgress path progress => path.shown ++ ": " ++ percentText progress
  | profileUnavailable reason => reason
  | profileChosen path => "Using profile " ++ path.shown
  | builtInProfileChosen => "Using embedded default profile"

end Note
end PrintPath
