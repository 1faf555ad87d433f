import PrintPath.Files.Basic
import PrintPath.Journal
import PrintPath.Profile.Format

/-!
# Where profiles come from

A profile is either given, or it is kept in a file.  A file is looked at anew each
time something is asked of it, so that an edit takes effect without starting over;
whoever needs several values from the same moment takes one `snapshot`.  A file
that cannot be read as a profile counts as the empty profile, and a note says why.
-/

namespace PrintPath

/-- Why a file is not a profile. -/
inductive ProfileError where
  | missing (path : Path) (absence : Absence)
  | directory (path : Path)
  /-- The bytes of the file are no text. -/
  | notText (path : Path)
  /-- The text of the file is no profile. -/
  | malformed (path : Path)
  deriving DecidableEq, Repr

namespace ProfileError

/-- What went wrong, in words. -/
def message : ProfileError → String
  | missing path _ => "Failed to read profile file: " ++ path.shown
  | directory path => "Failed to read profile file: " ++ path.shown
  | notText path => "Failed to read profile file: " ++ path.shown
  | malformed path => "Failed to parse profile TOML: " ++ path.shown

/-- The reason that lies outside the library, in words. -/
def reason? : ProfileError → Option String
  | missing _ absence => some absence.message
  | directory _ => some "Is a directory (os error 21)"
  | notText _ => some "stream did not contain valid UTF-8"
  | malformed _ => none

/-- What went wrong and, if there is one, the reason, in words. -/
def explanation (e : ProfileError) : String :=
  match e.reason? with
  | none => e.message
  | some reason => e.message ++ ": " ++ reason

end ProfileError

/-- The profile in a file. -/
def Profile.load (files : Files) (path : Path) : Except ProfileError Profile :=
  match files path with
  | .missing absence => .error (.missing path absence)
  | .directory => .error (.directory path)
  | .file content =>
    match String.fromUTF8? content with
    | none => .error (.notText path)
    | some text =>
      match Profile.read? text.toList with
      | none => .error (.malformed path)
      | some profile => .ok profile

/-- Where a profile comes from. -/
inductive ProfileSource where
  | given (profile : Profile)
  | file (path : Path)

namespace ProfileSource

/-- The profile of a source at a moment, and what is noted about it. -/
def snapshot (source : ProfileSource) (files : Files) : Profile × List Note :=
  match source with
  | given profile => (profile, [])
  | file path =>
    match Profile.load files path with
    | .ok profile => (profile, [])
    | .error e => (.empty, [.profileUnavailable e.explanation])

/-- The profile of a source at a moment. -/
def profile (source : ProfileSource) (files : Files) : Profile :=
  (source.snapshot files).1

/-- What is noted when a source is asked for its profile. -/
def snapshotNotes (source : ProfileSource) (files : Files) : List Note :=
  (source.snapshot files).2

end ProfileSource
end PrintPath
