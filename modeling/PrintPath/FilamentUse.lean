import PrintPath.Number.Layout
import PrintPath.Profile.Basic

/-!
# Weight and cost

The filament that a print uses is a cylinder of the configured diameter.  Its
volume times the density is its weight, and a price is set on the weight, on the
length, or on both.  Each product is taken from left to right.
-/

namespace PrintPath

/-- The ratio of a circle's circumference to its diameter. -/
def circleRatio : Float := 3.14159265358979323846264338327950288

/-- The cubic millimetres of a cubic metre. -/
def cubicMillimetres : Float := 1000.0 * 1000.0 * 1000.0

namespace Filament

/-- The weight of a length of filament, in kilograms; the length is in
millimetres. -/
def weight (filament : Filament) (length : Float) : Float :=
  let radius := filament.diameter / 2.0
  length * circleRatio * radius * radius / cubicMillimetres * filament.density

/-- The cost of a length of filament by its weight. -/
def costByWeight (filament : Filament) (length : Float) : Float :=
  filament.weight length * filament.pricePerKilogram

/-- The cost of a length of filament by its length. -/
def costByLength (filament : Filament) (length : Float) : Float :=
  length / 1000.0 * filament.pricePerMetre

/-- The cost of a length of filament, with two places.  With a price for both weight
and length both costs are given; without any price there is none. -/
def costText? (filament : Filament) (length : Float) : Option String :=
  let byWeight := Number.fixed 2 (filament.costByWeight length)
  let byLength := Number.fixed 2 (filament.costByLength length)
  match decide (0.0 < filament.pricePerKilogram), decide (0.0 < filament.pricePerMetre) with
  | true, true => some (byWeight ++ " / " ++ byLength)
  | true, false => some byWeight
  | false, true => some byLength
  | false, false => none

end Filament
end PrintPath
