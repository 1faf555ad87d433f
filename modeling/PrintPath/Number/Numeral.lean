import PrintPath.Number.Integer

/-!
# Reading numerals with a fraction

A numeral is an optional sign and then either digits with an optional point and an
optional power of ten, or one of the words for the values that no digits reach.
Reading has two steps: `Numeral.read?` says what the text denotes, exactly, and
`Numeral.toFloat` rounds that to the nearest double.

Parameters of a command must be finite, so `finite?` is the reader they use: it
refuses the words, and it refuses a numeral so large that it rounds to infinity.
-/

namespace PrintPath
namespace Number

/-- What a numeral denotes. -/
inductive Numeral where
  /-- The number `digits · 10 ^ exponent`, negated if `negative`. -/
  | finite (negative : Bool) (digits : Nat) (exponent : Int)
  /-- An infinity. -/
  | infinite (negative : Bool)
  /-- No number at all. -/
  | undefined
  deriving DecidableEq, Repr

namespace Numeral

/-- A sign in front of a text, and the rest. -/
def splitSign : List Char → Bool × List Char
  | '+' :: rest => (false, rest)
  | '-' :: rest => (true, rest)
  | text => (false, text)

/-- The power of ten that the text behind the digits gives. -/
def readExponent? : List Char → Option Int
  | [] => some 0
  | 'e' :: rest => integer? rest
  | 'E' :: rest => integer? rest
  | _ => none

/-- The digits behind a point, if one stands here, and the rest. -/
def splitFraction : List Char → List Char × List Char
  | '.' :: rest => (rest.takeWhile Char.isDigit, rest.dropWhile Char.isDigit)
  | text => ([], text)

/-- A numeral without sign that is made of digits: at least one of them stands
before or behind the point. -/
def readDigits? (negative : Bool) (text : List Char) : Option Numeral :=
  let whole := text.takeWhile Char.isDigit
  let tail := splitFraction (text.dropWhile Char.isDigit)
  if whole ++ tail.1 = [] then none
  else (readExponent? tail.2).map fun exponent =>
    .finite negative (digitsValue (whole ++ tail.1)) (exponent - tail.1.length)

/-- The numeral that a text spells.  The words are read in any case. -/
def read? (text : List Char) : Option Numeral :=
  let signed := splitSign text
  let lower := String.ofList (signed.2.map Char.toLower)
  if lower = "inf" ∨ lower = "infinity" then some (.infinite signed.1)
  else if lower = "nan" then some .undefined
  else readDigits? signed.1 signed.2

/-! ## Rounding to a double -/

/-- How many decimal digits a positive number has. -/
def digitCount (n : Nat) : Nat :=
  (Nat.toDigits 10 n).length

/-- The positive infinity. -/
def infinity : Float := 1.0 / 0.0

/-- The double nearest to `digits · 10 ^ exponent`.  A number whose leading digit
stands beyond any double is decided by its magnitude alone, so that an absurd
exponent costs nothing. -/
def magnitude (digits : Nat) (exponent : Int) : Float :=
  let leading := exponent + digitCount digits
  if digits = 0 ∨ leading < -330 then 0.0
  else if 310 < leading then infinity
  else match exponent with
    | .ofNat e => Float.ofScientific digits false e
    | .negSucc e => Float.ofScientific digits true (e + 1)

/-- A magnitude with its sign. -/
def withSign (negative : Bool) (x : Float) : Float :=
  if negative then -x else x

/-- The double nearest to what a numeral denotes. -/
def toFloat : Numeral → Float
  | .finite negative digits exponent => withSign negative (magnitude digits exponent)
  | .infinite negative => withSign negative infinity
  | .undefined => 0.0 / 0.0

end Numeral

/-- The double that a text spells. -/
def float? (text : List Char) : Option Float :=
  (Numeral.read? text).map Numeral.toFloat

/-- The double that a text spells, if it is a finite one. -/
def finite? (text : List Char) : Option Float :=
  (float? text).filter Float.isFinite

/-- Whatever `finite?` reads is finite. -/
theorem isFinite_of_finite? {text : List Char} {x : Float} (h : finite? text = some x) :
    x.isFinite := by
  unfold finite? at h
  exact (Option.filter_eq_some_iff.mp h).2

end Number
end PrintPath
