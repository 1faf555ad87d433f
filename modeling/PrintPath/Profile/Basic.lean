import PrintPath.Profile.OffsetTable

/-!
# Profiles

A profile says what filament is loaded, what it costs and where the nozzles
stand.  A quantity that nobody configured is zero.
-/

namespace PrintPath

/-- The filament that is loaded. -/
structure Filament where
  /-- In millimetres. -/
  diameter : Float
  /-- In kilograms per cubic metre. -/
  density : Float
  /-- The price of a kilogram. -/
  pricePerKilogram : Float
  /-- The price of a metre. -/
  pricePerMetre : Float
  deriving DecidableEq

/-- A filament about which nothing is known. -/
def Filament.unknown : Filament := ⟨0.0, 0.0, 0.0, 0.0⟩

/-- A machine and the material in it. -/
structure Profile where
  filament : Filament
  offsets : OffsetTable
  deriving DecidableEq

namespace Profile

/-- The profile in which nothing is configured. -/
def empty : Profile := ⟨.unknown, .empty⟩

/-- The offset of an extruder's nozzle as configured. -/
def nozzleOffset (profile : Profile) (extruder : Nat) : NozzleOffset :=
  profile.offsets.offset extruder

/-- The offset that a tool change applies.  Extruder 0 is the one the others are
measured from, whatever the profile says of it. -/
def toolOffset (profile : Profile) (extruder : Nat) : NozzleOffset :=
  if extruder = 0 then .zero else profile.nozzleOffset extruder

/-- The profile that the program uses if the user has none: 1.75 mm of PLA, no
prices and a single extruder.  The text that comes with the program denotes it
(`Profile.read?_embeddedText`). -/
def builtIn : Profile :=
  { filament := ⟨1.75, 1240.0, 0.0, 0.0⟩, offsets := .empty }

end Profile
end PrintPath
