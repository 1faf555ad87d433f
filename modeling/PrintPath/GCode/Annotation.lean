import PrintPath.Text.Blank
import PrintPath.Toolpath.PathType

/-!
# What a line's comment announces

The first semicolon of a line ends its code and starts its comment.  Slicers
leave hints in comments, in two dialects: a line that starts with `;TYPE:` names
the path type of what follows, and a comment that is nothing but one of a few bare
words names it too.  A comment that starts with `LAYER:` marks the start of a
layer.  The words and the marker are looked for in the comment without the blanks
around it; the tag only counts at the very start of the line.
-/

namespace PrintPath
namespace GCode

open Text

/-- A line divided into its code and what its comment announces. -/
structure Annotation where
  /-- The part of the line that is executed. -/
  code : List Char
  /-- The path type that the line announces. -/
  pathType : Option PathType
  hasComment : Bool
  /-- Whether the line marks the start of a layer. -/
  layerBoundary : Bool
  deriving DecidableEq

/-- The character that starts a comment. -/
def commentStart : Char := ';'

/-- What stands in front of a path type at the start of a line. -/
def typeTag : List Char := [';', 'T', 'Y', 'P', 'E', ':']

/-- What a comment that marks a layer starts with. -/
def layerMark : List Char := ['L', 'A', 'Y', 'E', 'R', ':']

/-- The path type that a line names with a tag. -/
def taggedType? (line : List Char) : Option PathType :=
  (typeTag.isPrefixOf? line).map fun tag => .ofTag (String.ofList (trim tag))

/-- The path type that a comment names with a bare word. -/
def keywordType? (comment : List Char) : Option PathType :=
  if comment = ['f', 'i', 'l', 'l'] then some .fill
  else if comment = ['p', 'e', 'r', 'i', 'm', 'e', 't', 'e', 'r'] then some .wallInner
  else if comment = ['s', 'k', 'i', 'r', 't'] then some .skirt
  else none

/-- The code of a line and, if it has one, the comment behind it. -/
def splitComment : List Char → List Char × Option (List Char)
  | [] => ([], none)
  | c :: rest =>
    if c = commentStart then ([], some rest)
    else (c :: (splitComment rest).1, (splitComment rest).2)

/-- Divide a line. -/
def annotate (line : List Char) : Annotation :=
  match splitComment line with
  | (code, none) =>
    { code, pathType := taggedType? line, hasComment := false, layerBoundary := false }
  | (code, some text) =>
    let comment := trim text
    { code
      pathType := (keywordType? comment).or (taggedType? line)
      hasComment := true
      layerBoundary := layerMark.isPrefixOf comment }

theorem splitComment_append {code : List Char} (h : commentStart ∉ code)
    (comment : List Char) :
    splitComment (code ++ commentStart :: comment) = (code, some comment) := by
  induction code with
  | nil => simp [splitComment]
  | cons c code ih =>
    have hc : c ≠ commentStart := fun hc => h (hc ▸ List.mem_cons_self)
    have hcode : commentStart ∉ code := fun hm => h (List.mem_cons_of_mem _ hm)
    simp [splitComment, hc, ih hcode]

theorem splitComment_of_not_mem {line : List Char} (h : commentStart ∉ line) :
    splitComment line = (line, none) := by
  induction line with
  | nil => rfl
  | cons c line ih =>
    have hc : c ≠ commentStart := fun hc => h (hc ▸ List.mem_cons_self)
    have hline : commentStart ∉ line := fun hm => h (List.mem_cons_of_mem _ hm)
    simp [splitComment, hc, ih hline]

end GCode
end PrintPath
