import PrintPath.FilamentUse
import PrintPath.Json.Toolpath
import PrintPath.Reading.Reader

/-!
# Reports

A report says of one file what was read from it and what printing it will take.
It is published as a block of text or as JSON.  In a block of text a path is only
shown; JSON has to name it exactly, and cannot name one that is no text.

A path that leads to no file is a mistake here, while a reader takes it for a
print that was never read.
-/

namespace PrintPath

/-- What is reported of a file. -/
structure Report where
  path : Path
  summary : Summary
  /-- The weight of the filament, in kilograms. -/
  weight : Float
  /-- The cost of the filament, if a price is configured. -/
  cost : Option String

/-- Why there is no report of a file. -/
inductive ReportError where
  | fileMissing (path : Path)
  | cancelled (path : Path)
  deriving DecidableEq, Repr

/-- What went wrong, in words. -/
def ReportError.message : ReportError → String
  | fileMissing path => "G-code file not found: " ++ path.shown
  | cancelled path => "Loading " ++ path.shown ++ " was cancelled"

namespace Report

/-- The observer that notes how far a file has been read. -/
def progressObserver (path : Path) : Observer Unit :=
  fun state progress => ⟨state, .proceed, [.fileProgress path progress]⟩

/-- The report of a toolpath that was read from a file. -/
def ofToolpath (files : Files) (source : ProfileSource) (path : Path) (toolpath : Toolpath) :
    Report :=
  let filament := (source.profile files).filament
  { path
    summary := toolpath.summary
    weight := filament.weight toolpath.extrusion
    cost := filament.costText? toolpath.extrusion }

/-- Report on a file, and say what happened.  The source is asked for the filament
twice, for the weight and for the cost. -/
def ofFile (files : Files) (source : ProfileSource) (path : Path) :
    Except ReportError Report × List Note :=
  if files.isFile path then
    let reader : Reader Unit := ⟨source, .standard, progressObserver path⟩
    let reading := reader.read (fun _ => files) (.file path) ()
    match reading.outcome with
    | .cancelled _ _ => (.error (.cancelled path), reading.notes.toList)
    | .completed toolpath =>
      (.ok (ofToolpath files source path toolpath),
        reading.notes.toList ++ source.snapshotNotes files ++ source.snapshotNotes files)
  else (.error (.fileMissing path), [])

/-- A report as a block of text. -/
def text (report : Report) : String :=
  let summary := report.summary
  report.path.shown ++ "\n"
    ++ "  layers:      " ++ toString summary.layers ++ "\n"
    ++ "  segments:    " ++ toString summary.segments ++ "\n"
    ++ "  points:      " ++ toString summary.points ++ "\n"
    ++ "  filament:    " ++ Number.fixed 2 summary.extrusion ++ " mm\n"
    ++ "  duration:    " ++ Number.fixed 2 summary.minutes ++ " min\n"
    ++ "  weight:      " ++ Number.fixed 2 (report.weight * 1000.0) ++ " g\n"
    ++ "  cost:        " ++ report.cost.getD "unavailable" ++ "\n"
    ++ "  diagnostics: " ++ toString summary.diagnostics ++ "\n"

/-- A report as JSON.  JSON is a text, so there is none if the path is no text. -/
def toJson? (report : Report) : Option Json :=
  report.path.text?.map fun path =>
    .object (("path", .text path) :: report.summary.fields
      ++ [("weight_kg", .float report.weight), ("cost", .ofOption report.cost)])

end Report
end PrintPath
