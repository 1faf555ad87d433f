/-!
# Reading whole numbers

A whole number is written in ASCII decimal digits, at least one, leading zeros
allowed, with at most one sign in front.  A command code must also fit a signed
64-bit word; one that does not is no number at all, rather than a clamped one.
-/

namespace PrintPath
namespace Number

/-- The value of a run of decimal digits. -/
def digitsValue (digits : List Char) : Nat :=
  digits.foldl (fun value digit => 10 * value + (digit.toNat - 48)) 0

/-- The value of a text that is one or more decimal digits and nothing else. -/
def natural? (text : List Char) : Option Nat :=
  if text ≠ [] ∧ text.all Char.isDigit then some (digitsValue text) else none

/-- The value of digits with an optional sign in front. -/
def integer? : List Char → Option Int
  | '+' :: digits => (natural? digits).map Int.ofNat
  | '-' :: digits => (natural? digits).map fun n => -Int.ofNat n
  | digits => (natural? digits).map Int.ofNat

/-- A value that a signed 64-bit word holds. -/
def FitsInt64 (n : Int) : Prop := -Int.pow 2 63 ≤ n ∧ n < Int.pow 2 63

instance (n : Int) : Decidable (FitsInt64 n) :=
  inferInstanceAs (Decidable (_ ∧ _))

/-- A value that an unsigned 32-bit word holds. -/
def FitsUInt32 (n : Int) : Prop := 0 ≤ n ∧ n < Int.pow 2 32

instance (n : Int) : Decidable (FitsUInt32 n) :=
  inferInstanceAs (Decidable (_ ∧ _))

theorem fitsUInt32_iff (n : Int) : FitsUInt32 n ↔ 0 ≤ n ∧ n ≤ 4294967295 := by
  have hpow : Int.pow 2 32 = 4294967296 := rfl
  unfold FitsUInt32
  rw [hpow]
  omega

/-- The value of a text that is a whole number in the signed 64-bit range. -/
def int64? (text : List Char) : Option Int :=
  (integer? text).filter fun n => decide (FitsInt64 n)

end Number
end PrintPath
