import PrintPath.Files.Basic

/-!
# Files in memory

A tree of files that is kept in memory, for programs that make their input
themselves.  A place in it is given by the names that lead to it from the top.  One
place is the working directory, from which a path starts unless it begins with a
slash; that directory and those above it are always there.

A path is followed name by name, and only from a directory does it go on.  `.` and
empty names stay where they are, `..` goes up, and any other name goes down to what
has this name, if it is not longer than `longestName`.  So `a/..` is not the
directory that `a` is in unless `a` is a directory.

Whoever writes along a path makes a directory wherever a name leads to nothing, and
that includes names that the path leaves again by `..`.

The names in a tree are texts.  So a path that is no text leads to nothing in it.
-/

namespace PrintPath
namespace Files

/-- How many bytes a name may have. -/
def longestName : Nat := 255

/-- How many bytes a path may have. -/
def longestPath : Nat := 4095

/-- Where a path leads: the names on the way from the top. -/
abbrev Place := List String

/-- A tree of files. -/
structure Tree where
  /-- The working directory. -/
  workingDirectory : Place
  /-- What there is, apart from the working directory and those above it. -/
  entries : List (Place × Entry)

namespace Tree

/-- The tree without files. -/
def empty (workingDirectory : Place) : Tree := ⟨workingDirectory, []⟩

/-- What is at a place. -/
def find (tree : Tree) (place : Place) : Entry :=
  if place.isPrefixOf tree.workingDirectory then .directory
  else (tree.entries.lookup place).getD (.missing .noSuchName)

/-! ## Following a path -/

/-- Where a name leads from a place. -/
def step (tree : Tree) (place : Place) (name : String) : Except Absence Place :=
  match tree.find place with
  | .missing absence => .error absence
  | .file _ => .error .notDirectory
  | .directory =>
    if name = "" ∨ name = "." then .ok place
    else if name = ".." then .ok place.dropLast
    else if longestName < name.utf8ByteSize then .error .tooLong
    else .ok (place ++ [name])

/-- Where a path starts, and the names it is made of. -/
def split (tree : Tree) (path : String) : Except Absence (Place × List String) :=
  if path.contains '\x00' then .error .nulCharacter
  else if longestPath < path.utf8ByteSize then .error .tooLong
  else if path = "" then .error .noSuchName
  else .ok (if path.startsWith "/" then [] else tree.workingDirectory, path.splitOn "/")

/-- Where a path leads, without looking at its last name. -/
def follow (tree : Tree) (path : String) : Except Absence Place := do
  let (start, names) ← tree.split path
  names.foldlM tree.step start

/-- The files as they are now. -/
def view (tree : Tree) : Files := fun path =>
  match path.text? with
  | none => .missing .noSuchName
  | some path =>
    match tree.follow path with
    | .error absence => .missing absence
    | .ok place => tree.find place

/-! ## Changing the tree -/

/-- Put an entry at a place, instead of what was there. -/
def put (tree : Tree) (place : Place) (entry : Entry) : Tree :=
  { tree with entries := (place, entry) :: tree.entries.filter fun e => e.1 != place }

/-- Follow some names, making a directory of each that leads to nothing.  Gives the
place they lead to, if they lead anywhere. -/
def makeWay : Tree → Place → List String → Tree × Option Place
  | tree, place, [] => (tree, some place)
  | tree, place, name :: rest =>
    match tree.step place name with
    | .error _ => (tree, none)
    | .ok next =>
      match tree.find next with
      | .missing _ => makeWay (tree.put next .directory) next rest
      | .directory => makeWay tree next rest
      | .file _ => (tree, none)

/-- Write a file, making the directories on its way.  Where a file cannot be,
nothing is written. -/
def writeFile (tree : Tree) (path : String) (content : ByteArray) : Tree :=
  match tree.split path with
  | .error _ => tree
  | .ok (start, names) =>
    match makeWay tree start names.dropLast with
    | (tree, none) => tree
    | (tree, some directory) =>
      match tree.step directory (names.getLastD "") with
      | .error _ => tree
      | .ok place =>
        match tree.find place with
        | .directory => tree
        | _ => tree.put place (.file content)

/-- Make a directory and those on its way. -/
def writeDirectory (tree : Tree) (path : String) : Tree :=
  match tree.split path with
  | .error _ => tree
  | .ok (start, names) => (makeWay tree start names).1

/-- Remove a file, or a directory with all that is in it. -/
def remove (tree : Tree) (path : String) : Tree :=
  match tree.follow path with
  | .ok place => { tree with entries := tree.entries.filter fun e => !(place.isPrefixOf e.1) }
  | .error _ => tree

end Tree
end Files
end PrintPath
