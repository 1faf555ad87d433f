import PrintPath.Text.Raw

/-!
# Files

All that this library needs to know of a file system is what a path leads to at
some moment.  Reading a file never changes that, so a view of the files is simply a
function.

A path is a sequence of bytes and need not be a text.  One that leads nowhere does so
for a reason, which only matters to whoever reads the words for it.
-/

namespace PrintPath

/-- Why a path leads nowhere. -/
inductive Absence where
  /-- Nothing has this name. -/
  | noSuchName
  /-- A name goes on from something that is not a directory. -/
  | notDirectory
  /-- A name or the whole path is longer than names and paths may be. -/
  | tooLong
  /-- The path holds the character NUL, which no path can hold. -/
  | nulCharacter
  deriving DecidableEq, Repr

/-- The reason in the words of the system. -/
def Absence.message : Absence → String
  | noSuchName => "No such file or directory (os error 2)"
  | notDirectory => "Not a directory (os error 20)"
  | tooLong => "File name too long (os error 36)"
  | nulCharacter => "file name contained an unexpected NUL byte"

/-- What a path leads to. -/
inductive Entry where
  | missing (absence : Absence)
  | directory
  | file (content : ByteArray)

/-- The way to a file. -/
abbrev Path := RawText

/-- What each path leads to at some moment. -/
abbrev Files := Path → Entry

namespace Files

/-- The files in a list of paths with what they lead to; nothing else exists. -/
def ofList (known : List (Path × Entry)) : Files := fun path =>
  (known.lookup path).getD (.missing .noSuchName)

/-- The content of a regular file. -/
def content? (files : Files) (path : Path) : Option ByteArray :=
  match files path with
  | .file content => some content
  | .missing _ => none
  | .directory => none

/-- Whether a path leads to a regular file. -/
def isFile (files : Files) (path : Path) : Bool :=
  (files.content? path).isSome

end Files
end PrintPath
