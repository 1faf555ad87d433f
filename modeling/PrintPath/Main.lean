import PrintPath.CommandLine.Program

/-!
# The executable

The only module that touches the world.  It looks up what the call may need, hands
it to `CommandLine.run`, and prints what comes back: the journal and the reason for
a failure on the error stream, everything else on the standard output.
-/

namespace PrintPath
namespace CommandLine

/-- What a path leads to in the real file system.  Only a path that is a text can be
asked for there. -/
def lookUp (path : Path) : IO Entry := do
  let some name := path.text? | return .missing .noSuchName
  try
    return .file (← IO.FS.readBinFile name)
  catch
    | .noFileOrDirectory .. => return .missing .noSuchName
    | .inappropriateType _ 20 _ => return .missing .notDirectory
    | .invalidArgument _ 36 _ => return .missing .tooLong
    | _ => return .directory

/-- Where the user's programs keep their settings. -/
def findConfigDirectory : IO (Option Path) := do
  let configured := (← IO.getEnv "XDG_CONFIG_HOME").filter fun d => d.startsWith "/"
  match configured with
  | some directory => return some directory
  | none =>
    let home := (← IO.getEnv "HOME").filter fun d => d != ""
    return home.map fun d => joinPath d ".config"

/-- The levels that are printed at a log level. -/
def printedLevels (logLevel : String) : List Level :=
  match logLevel.map Char.toLower with
  | "error" => [.error]
  | "warn" => [.error, .warn]
  | "info" => [.error, .warn, .info]
  | "debug" => [.error, .warn, .info, .debug]
  | "trace" => [.error, .warn, .info, .debug, .trace]
  | _ => []

/-- The log level of a call. -/
def logLevel (arguments : List RawText) : String :=
  match Arguments.read arguments with
  | .ok arguments => arguments.logLevel
  | .error _ => defaultLogLevel

/-- Carry out a call in the real world. -/
def runInWorld (arguments : List RawText) : IO UInt32 := do
  let configDirectory ← findConfigDirectory
  let known ← (lookedAt configDirectory arguments).mapM fun path =>
    return (path, ← lookUp path)
  let (result, notes) := run { files := .ofList known, configDirectory } arguments
  let levels := printedLevels (logLevel arguments)
  for note in notes do
    if levels.contains note.level then
      IO.eprintln ("[" ++ note.level.name ++ "] " ++ note.message)
  IO.print result.output
  match result with
  | .misused e => IO.eprintln ("error: " ++ e.message)
  | .failed failure => IO.eprintln ("Error: " ++ failure.message)
  | .done _ => pure ()
  | .answered _ => pure ()
  return result.exitCode.toUInt32

end CommandLine
end PrintPath

def main (arguments : List String) : IO UInt32 :=
  PrintPath.CommandLine.runInWorld (arguments.map PrintPath.RawText.ofString)
