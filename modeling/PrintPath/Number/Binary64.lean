/-!
# The parts of a double

A double is not a number, an infinity, or exactly `mantissa · 2 ^ exponent` with a
sign.  `Binary64.parts` reads these off its bits; everything that writes a double
starts from them and then works in exact whole-number arithmetic.
-/

namespace PrintPath
namespace Binary64

/-- What a double holds. -/
inductive Parts where
  | undefined
  | infinite (negative : Bool)
  /-- The number `mantissa · 2 ^ exponent`, negated if `negative`. -/
  | finite (negative : Bool) (mantissa : Nat) (exponent : Int)
  deriving DecidableEq, Repr

/-- The number of fraction bits. -/
def fractionBits : Nat := 52

/-- The exponent of the last bit of the smallest doubles. -/
def leastExponent : Int := -1074

/-- The parts of the double with the given bits. -/
def partsOfBits (bits : Nat) : Parts :=
  let negative := decide (Nat.pow 2 63 ≤ bits)
  let field := bits / Nat.pow 2 fractionBits % Nat.pow 2 11
  let fraction := bits % Nat.pow 2 fractionBits
  if field = Nat.pow 2 11 - 1 then
    if fraction = 0 then .infinite negative else .undefined
  else if field = 0 then .finite negative fraction leastExponent
  else .finite negative (Nat.pow 2 fractionBits + fraction) (leastExponent + (field - 1 : Nat))

/-- The parts of a double. -/
def parts (x : Float) : Parts :=
  partsOfBits x.toBits.toNat

end Binary64
end PrintPath
