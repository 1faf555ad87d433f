import PrintPath.Profile.Basic
import PrintPath.Toml.Document
import PrintPath.Number.Integer

/-!
# The profile format

A profile is written as a configuration text with two names in it.  `filament` is a
record of four numbers, `extruders` a list of records, one for each extruder that
has an offset.

A record may be given as a table, in which a missing field is zero and a name that
is not a field is passed over, or as a list of its fields in order, in which
missing fields at the end are zero and surplus elements are passed over.  A point
in time counts as a table without any of the fields.  A whole number may stand
where a number is wanted, if 64 bits hold it, signed or not.

To pass over a name still means to read its value, so a number that cannot be held
spoils the table it stands in.  Surplus elements of a list are not even read.
-/

namespace PrintPath

open Toml

/-- An entry of the list of extruders. -/
structure ExtruderEntry where
  index : Nat
  offset : NozzleOffset

/-- A profile as it is written. -/
structure ProfileText where
  filament : Filament
  extruders : List ExtruderEntry

namespace ProfileText

/-- The profile in which nothing is written. -/
def empty : ProfileText := ⟨.unknown, []⟩

/-- The profile that a written one denotes.  Of several entries for one extruder
the last counts. -/
def profile (text : ProfileText) : Profile :=
  { filament := text.filament
    offsets := .ofEntries (text.extruders.map fun entry => (entry.index, entry.offset)) }

/-! ## Fields -/

/-- The fields of a record, in order. -/
def fields? (names : List String) : Value → Option (List (Option Value))
  | .table _ entries =>
    if Entries.othersReadable names entries then some (names.map (Entries.get? entries))
    else none
  | .array _ items => some ((List.range names.length).map fun i => items[i]?)
  | .moment _ => some (names.map fun _ => none)
  | _ => none

/-- A number.  A missing one is zero. -/
def numberField? : Option Value → Option Float
  | none => some 0.0
  | some (.float x) => some x
  | some (.integer n) =>
    if -Int.pow 2 63 ≤ n ∧ n < Int.pow 2 64 then some (Float.ofInt n) else none
  | some _ => none

/-- The number of an extruder.  A missing one is zero. -/
def indexField? : Option Value → Option Nat
  | none => some 0
  | some (.integer n) => if Number.FitsUInt32 n then some n.toNat else none
  | some _ => none

/-- A filament.  A missing one is unknown. -/
def filament? : Option Value → Option Filament
  | none => some .unknown
  | some value => do
    match (← fields? ["diameter", "density", "cost_kg", "cost_meter"] value) with
    | [diameter, density, perKilogram, perMetre] =>
      some ⟨← numberField? diameter, ← numberField? density, ← numberField? perKilogram,
        ← numberField? perMetre⟩
    | _ => none

/-- An entry of the list of extruders. -/
def extruder? (value : Value) : Option ExtruderEntry := do
  match (← fields? ["index", "offset_x", "offset_y"] value) with
  | [index, x, y] => some ⟨← indexField? index, ⟨← numberField? x, ← numberField? y⟩⟩
  | _ => none

/-- The list of extruders.  A missing one is empty. -/
def extruders? : Option Value → Option (List ExtruderEntry)
  | none => some []
  | some (.array _ items) => items.mapM extruder?
  | some _ => none

/-- The profile that a configuration denotes. -/
def ofEntries? (entries : Entries) : Option ProfileText := do
  if entries.othersReadable ["filament", "extruders"] then
    some ⟨← filament? (entries.get? "filament"), ← extruders? (entries.get? "extruders")⟩
  else none

/-- The profile that a configuration text denotes. -/
def read? (text : List Char) : Option ProfileText :=
  (Toml.read? text).bind ofEntries?

end ProfileText

namespace Profile

/-- The profile that a configuration text denotes. -/
def read? (text : List Char) : Option Profile :=
  (ProfileText.read? text).map ProfileText.profile

/-! ## The built-in profile -/

/-- The configuration text that comes with the program, line by line. -/
def embeddedLines : List String :=
  ["# Default machine/material profile: 1.75 mm PLA on a single-extruder printer.",
    "# Copy to <config_dir>/gcode-toolpath/profile.toml and edit to override.",
    "",
    "[filament]",
    "# mm",
    "diameter = 1.75",
    "# kg/m³",
    "density = 1240.0",
    "# Set either price to a positive value to get cost estimates",
    "cost_kg = 0.0",
    "cost_meter = 0.0",
    "",
    "# Nozzle offsets for additional extruders, relative to extruder 0 (mm)",
    "# [[extruders]]",
    "# index = 1",
    "# offset_x = 18.0",
    "# offset_y = 0.0"]

/-- The configuration text that comes with the program. -/
def embeddedText : String :=
  String.join (embeddedLines.map fun line => line ++ "\n")

/-- The built-in profile is the one that the text denotes.  So the text never fails to
denote one, and the empty profile never has to take its place. -/
theorem read?_embeddedText : read? embeddedText.toList = some .builtIn := by
  -- the characters line by line, since those of the joined text are slow to evaluate
  have hlines : embeddedText.toList =
      embeddedLines.flatMap fun line => line.toList ++ ['\n'] := by
    unfold embeddedText
    rw [String.toList_join, List.flatMap_map]
    simp only [String.toList_append]
    rfl
  rw [hlines]
  decide +kernel

end Profile

end PrintPath
