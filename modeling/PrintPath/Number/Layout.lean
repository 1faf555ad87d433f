import PrintPath.Number.Shortest

/-!
# Writing doubles

Two families of texts.  `fixed` rounds the exact value to a number of places, a
half to the even neighbour.  `Layout.write` writes the fewest digits that read
back; the record `Layout` holds the decisions left open by that rule: how a tie
between two shortest decimals goes, which exponents are written positionally,
whether a whole number keeps a point, and what stands for the values that have no
digits.
-/

namespace PrintPath
namespace Number

/-- The decimal digits of a number, padded with zeros in front to a width. -/
def padded (width n : Nat) : String :=
  let digits := Nat.toDigits 10 n
  String.ofList (List.replicate (width - digits.length) '0' ++ digits)

/-- A minus sign, or nothing. -/
def signText (negative : Bool) : String :=
  if negative then "-" else ""

/-! ## A fixed number of places -/

/-- The magnitude `mantissa · 2 ^ exponent` in units of `10 ^ -places`, a half
going to the even neighbour. -/
def fixedUnits (places mantissa : Nat) (exponent : Int) : Nat :=
  roundQuotient .even (mantissa * Nat.pow 2 exponent.toNat * Nat.pow 10 places)
    (Nat.pow 2 (-exponent).toNat)

/-- A number of units of `10 ^ -places` with its point. -/
def pointed (places units : Nat) : String :=
  let whole := padded 1 (units / Nat.pow 10 places)
  if places = 0 then whole else whole ++ "." ++ padded places (units % Nat.pow 10 places)

/-- A double with a fixed number of places.  The sign of a negative zero stays. -/
def fixed (places : Nat) (x : Float) : String :=
  match Binary64.parts x with
  | .undefined => "NaN"
  | .infinite negative => signText negative ++ "inf"
  | .finite negative mantissa exponent =>
    signText negative ++ pointed places (fixedUnits places mantissa exponent)

/-! ## The fewest digits -/

/-- The decisions of a text made of the fewest digits. -/
structure Layout where
  /-- Where a tie between two shortest decimals goes. -/
  tie : Tie
  /-- The leading exponents written positionally, ends included; all if none is
  given. -/
  positional : Option (Int × Int)
  /-- What a whole number ends in. -/
  wholeEnd : String
  /-- The text of a value that is no number. -/
  undefined : String
  /-- The text of an infinity. -/
  infinite : Bool → String

namespace Layout

/-- Whether a leading exponent is written positionally. -/
def isPositional (layout : Layout) (leading : Int) : Bool :=
  match layout.positional with
  | none => true
  | some (least, greatest) => decide (least ≤ leading) && decide (leading ≤ greatest)

/-- A decimal written out around its point. -/
def writePositional (layout : Layout) (d : Decimal) : String :=
  match d.exponent with
  | .ofNat e => padded 1 d.digits ++ String.ofList (List.replicate e '0') ++ layout.wholeEnd
  | .negSucc e => pointed (e + 1) d.digits

/-- A decimal with one digit before the point and an explicit power of ten. -/
def writeScientific (d : Decimal) : String :=
  let digits := Nat.toDigits 10 d.digits
  let fraction := digits.drop 1
  String.ofList (digits.take 1) ++ (if fraction = [] then "" else "." ++ String.ofList fraction)
    ++ "e" ++ (if d.leading < 0 then "-" else "+") ++ padded 1 d.leading.natAbs

/-- A double in the fewest digits that read back. -/
def write (layout : Layout) (x : Float) : String :=
  match Binary64.parts x with
  | .undefined => layout.undefined
  | .infinite negative => layout.infinite negative
  | .finite negative 0 _ => signText negative ++ "0" ++ layout.wholeEnd
  | .finite negative (mantissa + 1) exponent =>
    let d := Decimal.shortest layout.tie (mantissa + 1) exponent
    signText negative ++
      (if layout.isPositional d.leading then layout.writePositional d else writeScientific d)

end Layout
end Number
end PrintPath
