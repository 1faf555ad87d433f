/-!
# Rounding a quotient

A quotient of whole numbers is rounded to the nearest whole number.  Which way an
exact half goes is the caller's decision, since two ways of writing the same
double differ in nothing but that.
-/

namespace PrintPath
namespace Number

/-- Where an exact half goes. -/
inductive Tie where
  /-- To the even neighbour. -/
  | even
  /-- Away from zero. -/
  | up
  deriving DecidableEq, Repr

/-- Whether an exact half above `floor` goes to the next number. -/
def Tie.roundsUp (tie : Tie) (floor : Nat) : Bool :=
  match tie with
  | .even => floor % 2 == 1
  | .up => true

/-- The whole number nearest to `num / den`. -/
def roundQuotient (tie : Tie) (num den : Nat) : Nat :=
  let floor := num / den
  let twice := 2 * (num % den)
  if twice < den then floor
  else if den < twice then floor + 1
  else if tie.roundsUp floor then floor + 1 else floor

end Number
end PrintPath
