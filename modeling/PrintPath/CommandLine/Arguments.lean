import PrintPath.Files.Basic

/-!
# Arguments

The program is called with the files to report on and a few options.  Arguments are
taken from left to right, and what an argument says is settled late: the value of an
option, or a run of files, waits until the next option is met or the arguments end,
and only then is it checked and kept.  An argument that is no option of the program
is refused at once, before what is waiting is looked at.  So the first of two
mistakes is not always the one reported, and `settle` and `step` say which is.

Behind `--` every argument is a file, and so is a single dash anywhere.

An argument need not be a text.  A path may be anything but empty, and only where a
text is wanted is it checked that there is one.
-/

namespace PrintPath
namespace CommandLine

/-- What was asked for. -/
structure Arguments where
  files : List Path
  /-- A profile file to use. -/
  profile : Option Path
  /-- Whether to report in JSON. -/
  json : Bool
  logLevel : String
  deriving DecidableEq, Repr

/-- Why there is nothing to do: a mistake, or a question that is answered instead. -/
inductive UsageError where
  /-- No file is named. -/
  | missingFiles
  /-- An option that the program does not have. -/
  | unknownOption
  /-- An option that was given before. -/
  | repeatedOption
  /-- An option without its value, or an empty path. -/
  | invalidValue
  /-- A value for an option that takes none. -/
  | surplusValue
  /-- A value that should be a text and is none. -/
  | notText
  /-- The explanation of the options is asked for. -/
  | help
  /-- The version of the program is asked for. -/
  | version
  deriving DecidableEq, Repr

/-- What is wrong with a call, in words. -/
def UsageError.message : UsageError → String
  | missingFiles => "the following required arguments were not provided: <FILES>..."
  | unknownOption => "unexpected argument found"
  | repeatedOption => "an argument cannot be used multiple times"
  | invalidValue => "a value is required but none was supplied"
  | surplusValue => "unexpected value found"
  | notText => "invalid UTF-8 was detected in one or more arguments"
  | help => "help requested"
  | version => "version requested"

/-- The options that take a value. -/
inductive ValueOption where
  | profile
  | logLevel
  deriving DecidableEq, Repr

/-- What is waiting to be settled. -/
inductive Waiting where
  | nothing
  /-- A run of files. -/
  | files (paths : List Path)
  /-- An option, with its value as soon as it is known. -/
  | option (name : ValueOption) (value : Option RawText)
  deriving DecidableEq, Repr

/-- What has been settled. -/
structure Settled where
  files : List Path
  profile : Option Path
  json : Bool
  logLevel : Option String
  deriving DecidableEq, Repr

namespace Settled

/-- Before any argument. -/
def none : Settled := ⟨[], .none, false, .none⟩

/-- Settle what is waiting.  An option must have a value and must be new; a path
must not be empty, and a level must be a text. -/
def settle (settled : Settled) : Waiting → Except UsageError Settled
  | .nothing => .ok settled
  | .files paths =>
    if .empty ∈ paths then .error .invalidValue
    else .ok { settled with files := settled.files ++ paths }
  | .option _ .none => .error .invalidValue
  | .option .profile (some path) =>
    if settled.profile.isSome then .error .repeatedOption
    else if path = .empty then .error .invalidValue
    else .ok { settled with profile := some path }
  | .option .logLevel (some level) =>
    if settled.logLevel.isSome then .error .repeatedOption
    else match level.text? with
      | .none => .error .notText
      | some level => .ok { settled with logLevel := some level }

end Settled

/-- What an argument looks like. -/
inductive Shape where
  /-- The mark behind which every argument is a file. -/
  | endOfOptions
  /-- A long option, with the value that is glued to it. -/
  | long (name : RawText) (value : Option RawText)
  /-- Short options, of which the first one decides. -/
  | short (first : UInt8)
  | plain
  deriving DecidableEq, Repr

/-- The byte of a dash. -/
@[match_pattern] def dash : UInt8 := 0x2D

/-- The byte of an equals sign. -/
def equalsSign : UInt8 := 0x3D

/-- The parts of a raw text around its first equals sign. -/
def splitEquals (bytes : List UInt8) : RawText × Option RawText :=
  let name : RawText := ⟨bytes.takeWhile (· != equalsSign)⟩
  match bytes.dropWhile (· != equalsSign) with
  | [] => (name, none)
  | _ :: value => (name, some ⟨value⟩)

/-- What an argument looks like. -/
def shape (argument : RawText) : Shape :=
  match argument.bytes with
  | [dash, dash] => .endOfOptions
  | dash :: dash :: rest => let parts := splitEquals rest; .long parts.1 parts.2
  | dash :: first :: _ => .short first
  | _ => .plain

/-- What has been settled and what is waiting. -/
structure Progress where
  settled : Settled
  waiting : Waiting
  /-- Whether every further argument is a file. -/
  onlyFiles : Bool

namespace Progress

/-- Before any argument. -/
def start : Progress := ⟨.none, .nothing, false⟩

/-- Settle what is waiting, and let something else wait. -/
def await (p : Progress) (waiting : Waiting) : Except UsageError Progress := do
  let settled ← p.settled.settle p.waiting
  return { p with settled, waiting }

/-- Take an argument as a file.  It joins the files that are waiting. -/
def takeFile (p : Progress) (path : Path) : Except UsageError Progress :=
  match p.waiting with
  | .files paths => .ok { p with waiting := .files (paths ++ [path]) }
  | _ => p.await (.files [path])

/-- Take an option that needs a value, which may be glued to it. -/
def takeOption (p : Progress) (name : ValueOption) : Option RawText → Except UsageError Progress
  | none => p.await (.option name none)
  | some value => do (← p.await (.option name (some value))).await .nothing

/-- Take the option that asks for JSON. -/
def takeJson (p : Progress) : Except UsageError Progress := do
  let p ← p.await .nothing
  if p.settled.json then .error .repeatedOption
  else .ok { p with settled := { p.settled with json := true } }

/-- Take an option that is a question. -/
def takeQuestion (p : Progress) (answer : UsageError) : Except UsageError Progress := do
  let _ ← p.await .nothing
  .error answer

/-- Take an option that needs no value. -/
def takeFlag (value : Option RawText) (take : Except UsageError Progress) :
    Except UsageError Progress :=
  match value with
  | none => take
  | some _ => .error .surplusValue

/-- Take a long option. -/
def takeLong (p : Progress) (name : RawText) (value : Option RawText) :
    Except UsageError Progress :=
  if name = "profile" then p.takeOption .profile value
  else if name = "log-level" then p.takeOption .logLevel value
  else if name = "json" then takeFlag value p.takeJson
  else if name = "help" then takeFlag value (p.takeQuestion .help)
  else if name = "version" then takeFlag value (p.takeQuestion .version)
  else .error .unknownOption

/-- Take a short option. -/
def takeShort (p : Progress) (first : UInt8) : Except UsageError Progress :=
  if first = 'h'.toUInt8 then p.takeQuestion .help
  else if first = 'V'.toUInt8 then p.takeQuestion .version
  else .error .unknownOption

/-- Take an argument that is no option: the value of the option before it, or a
file. -/
def takePlain (p : Progress) (argument : RawText) : Except UsageError Progress :=
  match p.waiting with
  | .option name none => .ok { p with waiting := .option name (some argument) }
  | _ => p.takeFile argument

/-- Take an argument. -/
def step (p : Progress) (argument : RawText) : Except UsageError Progress :=
  if p.onlyFiles then p.takeFile argument
  else match shape argument with
    | .endOfOptions => .ok { p with onlyFiles := true }
    | .long name value => p.takeLong name value
    | .short first => p.takeShort first
    | .plain => p.takePlain argument

end Progress

/-- The level of the journal if none is asked for. -/
def defaultLogLevel : String := "info"

/-- Read the arguments of a call. -/
def Arguments.read (arguments : List RawText) : Except UsageError Arguments := do
  let p ← arguments.foldlM Progress.step .start
  let p ← p.await .nothing
  if p.settled.files = [] then .error .missingFiles
  else
    .ok
      { files := p.settled.files
        profile := p.settled.profile
        json := p.settled.json
        logLevel := p.settled.logLevel.getD defaultLogLevel }

end CommandLine
end PrintPath
