import PrintPath.GCode.Annotation
import PrintPath.GCode.Command

/-!
# A line, read

Reading a line keeps no state: `Line.read` turns its text into everything that the
rest of the library will ever know about it.
-/

namespace PrintPath
namespace GCode

/-- What a line announces and what it asks for. -/
structure Line where
  /-- The path type of what follows. -/
  pathType : Option PathType
  hasComment : Bool
  /-- Whether the line marks the start of a layer. -/
  layerBoundary : Bool
  /-- The tool to select, before the command is carried out. -/
  tool : Option Int
  command : Option Command
  deriving DecidableEq

/-- Read a line. -/
def Line.read (text : List Char) : Line :=
  let annotation := annotate text
  { pathType := annotation.pathType
    hasComment := annotation.hasComment
    layerBoundary := annotation.layerBoundary
    tool := tool? annotation.code
    command := Command.read? annotation.code }

end GCode
end PrintPath
