import PrintPath.Number.Numeral
import PrintPath.Number.Binary64
import PrintPath.Number.Rounding

/-!
# The fewest digits that read back

A finite double stands for every real number that rounds to it, an interval
around its exact value.  Its shortest decimal is the one with the fewest digits in
that interval, and among those the nearest to the value.

For 1, 2, …, 17 digits the search looks at the two neighbours of the value on the
grid of decimals with that many digits.  If any grid point lies in the interval,
so does one of the two, because the interval contains the value.  Seventeen digits
always suffice.  All of it is exact: the value and the ends of the interval are
written over one common denominator.
-/

namespace PrintPath
namespace Number

/-- A decimal `digits · 10 ^ exponent`. -/
structure Decimal where
  digits : Nat
  exponent : Int
  deriving DecidableEq, Repr

namespace Decimal

/-- The power of ten of the leading digit. -/
def leading (d : Decimal) : Int :=
  d.exponent + (Numeral.digitCount d.digits : Nat) - 1

/-- Ten is one of the next power. -/
def carry (d : Decimal) : Decimal :=
  if d.digits = 10 then ⟨1, d.exponent + 1⟩ else d

/-- The positive reals that round to one double: those between `low / den` and
`high / den` around `value / den`, the ends belonging to it if `closed`. -/
structure Interval where
  low : Nat
  value : Nat
  high : Nat
  den : Nat
  closed : Bool

/-- The interval of the positive double `mantissa · 2 ^ exponent`.  The gap below
a power of two is half the gap above it, except among the smallest doubles, and
the ends round to the even mantissa. -/
def interval (mantissa : Nat) (exponent : Int) : Interval :=
  let unit := Nat.pow 2 (exponent - 2).toNat
  let narrow := mantissa = Nat.pow 2 Binary64.fractionBits ∧ Binary64.leastExponent < exponent
  { low := (4 * mantissa - if narrow then 1 else 2) * unit
    value := 4 * mantissa * unit
    high := (4 * mantissa + 2) * unit
    den := Nat.pow 2 (2 - exponent).toNat
    closed := mantissa % 2 == 0 }

/-- Whether `num / den` lies between the ends of the interval, all written over
the denominator `den`. -/
def Interval.contains (i : Interval) (factor num : Nat) : Bool :=
  if i.closed then decide (i.low * factor ≤ num) && decide (num ≤ i.high * factor)
  else decide (i.low * factor < num) && decide (num < i.high * factor)

/-- The power of ten of the leading digit of `num / den`. -/
def leadingExponent (num den : Nat) : Int :=
  let guess : Int := (Numeral.digitCount num : Nat) - (Numeral.digitCount den : Nat)
  if den * Nat.pow 10 guess.toNat ≤ num * Nat.pow 10 (-guess).toNat then guess else guess - 1

/-- The decimal on the grid of multiples of `10 ^ exponent` that is nearest to the
value, of the value's two neighbours there that lie in the interval. -/
def onGrid? (tie : Tie) (i : Interval) (exponent : Int) : Option Decimal :=
  let factor := Nat.pow 10 (-exponent).toNat
  let spacing := i.den * Nat.pow 10 exponent.toNat
  let below := i.value * factor / spacing
  let nearest := roundQuotient tie (i.value * factor) spacing
  ([nearest, below, below + 1].find? fun n => i.contains factor (n * spacing)).map
    fun n => carry ⟨n, exponent⟩

/-- The shortest decimal that reads back as the positive double
`mantissa · 2 ^ exponent`. -/
def shortest (tie : Tie) (mantissa : Nat) (exponent : Int) : Decimal :=
  let i := interval mantissa exponent
  let top := leadingExponent i.value i.den
  ((List.range 17).findSome? fun n : Nat => onGrid? tie i (top - n)).getD ⟨mantissa, 0⟩

end Decimal
end Number
end PrintPath
