/-!
# Diagnostics

A program may contain what the library cannot make sense of.  That never stops the
reading: the line is passed over as far as it is not understood, and a diagnostic
says which line it was and why.
-/

namespace PrintPath

/-- Why a line was not fully understood. -/
inductive Cause where
  /-- A command code outside the known ones. -/
  | unknownCommand (letter : Char) (code : Int)
  /-- A number that no extruder can have. -/
  | invalidExtruder (index : Int)
  deriving DecidableEq, Repr

namespace Cause

/-- The name of the kind of problem. -/
def kind : Cause → String
  | unknownCommand _ _ => "unknown_command"
  | invalidExtruder _ => "invalid_extruder"

/-- The problem in words. -/
def message : Cause → String
  | unknownCommand letter code =>
    "Unknown " ++ letter.toString ++ " code: " ++ letter.toString ++ toString code
  | invalidExtruder index => "Ignoring invalid extruder index T" ++ toString index

end Cause

/-- A problem on a line of the input.  Lines are counted from 1. -/
structure Diagnostic where
  line : Nat
  cause : Cause
  deriving DecidableEq, Repr

namespace Diagnostic

/-- The problem in words. -/
def message (d : Diagnostic) : String := d.cause.message

/-- The problem in words, with its line. -/
def text (d : Diagnostic) : String :=
  "line " ++ toString d.line ++ ": " ++ d.message

end Diagnostic
end PrintPath
