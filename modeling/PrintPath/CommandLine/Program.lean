import PrintPath.CommandLine.Arguments
import PrintPath.Report

/-!
# The program

The program reports on each file that it is called with, in order, and prints the
reports together when all of them are there.  If there is no report of some file it
prints nothing but the reason, whatever it found out before.

The profile is the one named in the call, or else the user's own if there is one, or
else the built-in one.  A profile that was chosen and cannot be read stops the
program; it never falls back to another.

All of this is a function of the arguments and of the files as they are.  Only
`Main` touches the real ones.
-/

namespace PrintPath
namespace CommandLine

/-- What the program finds around it. -/
structure Surroundings where
  files : Files
  /-- The directory in which the user's programs keep their settings. -/
  configDirectory : Option Path

/-- A call, with everything decided that the arguments leave open. -/
structure Configuration where
  files : List Path
  /-- The profile file to use, or none for the built-in profile. -/
  profilePath : Option Path
  json : Bool
  logLevel : String
  deriving DecidableEq, Repr

/-- The byte of a slash. -/
def slash : UInt8 := 0x2F

/-- A path below a directory. -/
def joinPath (directory path : Path) : Path :=
  if directory = .empty then path
  else if directory.bytes.getLast? = some slash then directory ++ path
  else directory ++ "/" ++ path

/-- Where the user's own profile is kept. -/
def userProfilePath? (configDirectory : Option Path) : Option Path :=
  configDirectory.map fun directory =>
    joinPath (joinPath directory "gcode-toolpath") "profile.toml"

/-- The user's own profile, if there is one. -/
def Surroundings.userProfile? (around : Surroundings) : Option Path :=
  (userProfilePath? around.configDirectory).filter around.files.isFile

/-- Decide what the arguments leave open. -/
def Arguments.configure (arguments : Arguments) (around : Surroundings) : Configuration :=
  { files := arguments.files
    profilePath := arguments.profile.or around.userProfile?
    json := arguments.json
    logLevel := arguments.logLevel }

/-- The source of the profile to use, and what is noted about the choice.  A profile
file must be readable at the start, and is read again whenever it is needed. -/
def openProfile (files : Files) (path : Option Path) :
    Except ProfileError (ProfileSource × List Note) :=
  match path with
  | none => .ok (.given .builtIn, [.builtInProfileChosen])
  | some path =>
    match Profile.load files path with
    | .error e => .error e
    | .ok _ => .ok (.file path, [.profileChosen path])

/-- Why the program stops. -/
inductive Failure where
  | profile (e : ProfileError)
  | report (e : ReportError)
  /-- A path that JSON would have to name is no text. -/
  | pathNotText
  deriving DecidableEq, Repr

/-- Why the program stops, in words. -/
def Failure.message : Failure → String
  | profile e => e.message
  | report e => e.message
  | pathNotText => "path contains invalid UTF-8 characters"

/-- The reports on some files, in order, up to the first that cannot be had. -/
def reports (files : Files) (source : ProfileSource) :
    List Path → Except ReportError (List Report) × List Note
  | [] => (.ok [], [])
  | path :: rest =>
    match Report.ofFile files source path with
    | (.error e, notes) => (.error e, notes)
    | (.ok report, notes) =>
      match reports files source rest with
      | (.error e, more) => (.error e, notes ++ more)
      | (.ok others, more) => (.ok (report :: others), notes ++ more)

/-- What is printed for some reports.  In JSON there are all of them or none. -/
def printed (json : Bool) (reports : List Report) : Except Failure String :=
  if json then
    match reports.mapM Report.toJson? with
    | none => .error .pathNotText
    | some elements => .ok (Json.pretty (.array elements) ++ "\n")
  else .ok (String.join (reports.map Report.text))

/-- What a call comes to. -/
inductive Result where
  /-- Everything went well and this is printed. -/
  | done (output : String)
  /-- A question about the program was asked, and this is the answer. -/
  | answered (output : String)
  /-- The arguments are wrong. -/
  | misused (e : UsageError)
  /-- A profile or a report could not be had, or the reports could not be printed. -/
  | failed (failure : Failure)
  deriving DecidableEq, Repr

namespace Result

/-- The exit code of the program. -/
def exitCode : Result → Nat
  | done _ => 0
  | answered _ => 0
  | misused _ => 2
  | failed _ => 1

/-- What is printed on the standard output. -/
def output : Result → String
  | done output => output
  | answered output => output
  | misused _ => ""
  | failed _ => ""

/-- The reason for which the program stopped. -/
def reason? : Result → Option String
  | done _ => none
  | answered _ => none
  | misused _ => none
  | failed failure => some failure.message

end Result

/-- The name and version of the program. -/
def versionText : String := "gcode-toolpath 0.1.0\n"

/-- The explanation of the options, line by line. -/
def helpLines : List String :=
  ["Reconstruct layers, filament use and print time from G-code files",
    "",
    "Usage: gcode-toolpath [OPTIONS] <FILES>...",
    "",
    "Arguments:",
    "  <FILES>...  G-code files to analyze",
    "",
    "Options:",
    "      --profile <PROFILE>      Profile TOML with filament and extruder settings",
    "      --json                   Print the report as JSON",
    "      --log-level <LOG_LEVEL>  Log level (trace, debug, info, warn, error) [default: info]",
    "  -h, --help                   Print help",
    "  -V, --version                Print version"]

/-- The explanation of the options. -/
def helpText : String :=
  String.join (helpLines.map fun line => line ++ "\n")

/-- The paths that a call may look at. -/
def lookedAt (configDirectory : Option Path) (arguments : List RawText) : List Path :=
  match Arguments.read arguments with
  | .error _ => []
  | .ok arguments =>
    arguments.files ++ arguments.profile.toList ++ (userProfilePath? configDirectory).toList

/-- Report on the files of a configuration. -/
def Configuration.run (configuration : Configuration) (files : Files) : Result × List Note :=
  match openProfile files configuration.profilePath with
  | .error e => (.failed (.profile e), [])
  | .ok (source, chosen) =>
    match reports files source configuration.files with
    | (.error e, notes) => (.failed (.report e), chosen ++ notes)
    | (.ok reports, notes) =>
      match printed configuration.json reports with
      | .error failure => (.failed failure, chosen ++ notes)
      | .ok output => (.done output, chosen ++ notes)

/-- Carry out a call, and say what happened. -/
def run (around : Surroundings) (arguments : List RawText) : Result × List Note :=
  match Arguments.read arguments with
  | .error .help => (.answered helpText, [])
  | .error .version => (.answered versionText, [])
  | .error e => (.misused e, [])
  | .ok arguments => (arguments.configure around).run around.files

end CommandLine
end PrintPath
