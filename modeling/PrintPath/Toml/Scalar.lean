import PrintPath.Number.Numeral
import PrintPath.Text.Blank
import PrintPath.Toml.Quoted
import PrintPath.Toml.Value

/-!
# Scalars without quotes

Truth values, numbers and points in time are written as one token.  Blanks do not end
a token, as a date and a time of day may be divided by a space; they only do not
belong to it where nothing of it follows.  A quoted text behind a blank is never a part
of it.  Which value a token is can be told from its form alone, and a token that has
none of the forms is no value.

A token that starts like a decimal number is one with a fraction or an exponent if a
point or an `e` stands behind its first digits, and a whole number otherwise.
Underscores may divide digits: each must stand between two of them.  The form of a
number decides whether a text is well written.  Whether the number can be held is
another question: a whole number must fit 128 bits, and a fraction too large for a
double is not read as infinity, which has a word of its own.
-/

namespace PrintPath
namespace Toml

open Number

/-! ## Underscores -/

/-- Whether every underscore of a text stands between digits; the flag says whether
the text itself stands behind a digit. -/
def isDividedBehind (isDigit : Char → Bool) : Bool → List Char → Bool
  | _, [] => true
  | behind, c :: rest =>
    if c = '_' then behind && rest.head?.any isDigit && isDividedBehind isDigit false rest
    else isDividedBehind isDigit (isDigit c) rest

/-- Whether every underscore of a text stands between digits. -/
def isDivided (isDigit : Char → Bool) (text : List Char) : Bool :=
  isDividedBehind isDigit false text

/-- A text without its underscores. -/
def undivided (text : List Char) : List Char :=
  text.filter (· != '_')

/-! ## Whole numbers -/

/-- The value of a digit in bases up to sixteen. -/
def digitValue (c : Char) : Nat :=
  if c.isDigit then c.toNat - '0'.toNat
  else if 'a' ≤ c ∧ c ≤ 'f' then c.toNat - 'a'.toNat + 10
  else if 'A' ≤ c ∧ c ≤ 'F' then c.toNat - 'A'.toNat + 10
  else 16

/-- Whether a character is a digit of a base. -/
def isDigitOf (base : Nat) (c : Char) : Bool :=
  decide (digitValue c < base)

/-- A whole number as a value: 128 bits must hold it, signed or not. -/
def ofInteger (n : Int) : Value :=
  if -Int.pow 2 127 ≤ n ∧ n < Int.pow 2 128 then .integer n else .unreadable

/-- The base that the start of a token names, and the text behind it. -/
def splitBase : List Char → Option (Nat × List Char)
  | '0' :: 'x' :: rest => some (16, rest)
  | '0' :: 'o' :: rest => some (8, rest)
  | '0' :: 'b' :: rest => some (2, rest)
  | _ => none

/-- A whole number in a base of its own.  The name of the base alone is well written
and denotes nothing. -/
def inBase? (base : Nat) (text : List Char) : Option Value :=
  let digits := undivided text
  if digits.all (isDigitOf base) && isDivided (isDigitOf base) text then
    some (if digits = [] then .unreadable
      else ofInteger (digits.foldl (fun value c => base * value + digitValue c) 0 : Nat))
  else none

/-- A decimal whole number behind its sign.  It does not start with zero, it holds no
space, and the digits of sixteen stand around its underscores; one with anything else
in it is well written and denotes nothing. -/
def whole? (negative : Bool) (text : List Char) : Option Value :=
  let digits := undivided text
  if text = [] ∨ (text.head? = some '0' ∧ text ≠ ['0']) then none
  else if isDivided (isDigitOf 16) text && !text.contains ' ' then
    some (match natural? digits with
      | some n => ofInteger (if negative then -Int.ofNat n else Int.ofNat n)
      | none => .unreadable)
  else none

/-! ## Numbers with a fraction or an exponent -/

/-- Whether a character can stand in a run of digits. -/
def inRun (c : Char) : Bool :=
  c.isDigit || c == '_'

/-- The text behind a point and its digits, of which there is at least one; all of
the text if there is no point. -/
def behindFraction? : List Char → Option (List Char)
  | '.' :: rest =>
    if undivided (rest.takeWhile inRun) = [] then none else some (rest.dropWhile inRun)
  | rest => some rest

/-- Whether a decimal number with a fraction or an exponent has digits wherever they
belong: before the point, where a zero stands alone, behind it, and behind the
`e`. -/
def isFraction (text : List Char) : Bool :=
  let whole := undivided (text.takeWhile inRun)
  whole != [] && (text.head? != some '0' || whole == ['0']) &&
    match behindFraction? (text.dropWhile inRun) with
    | some rest => (Numeral.readExponent? (undivided rest)).isSome
    | none => false

/-- A finite double as a value. -/
def ofDouble (x : Float) : Value :=
  if x.isFinite then .float x else .unreadable

/-- A decimal number with a fraction or an exponent, behind its sign. -/
def fraction? (negative : Bool) (text : List Char) : Option Value :=
  if isFraction text && isDivided Char.isDigit text then
    (Numeral.readDigits? negative (undivided text)).map fun numeral => ofDouble numeral.toFloat
  else none

/-! ## Numbers -/

/-- A decimal number behind its sign. -/
def decimal? (negative : Bool) (text : List Char) : Option Value :=
  let rest := text.dropWhile Char.isDigit
  if rest.any fun c => c == '.' || c == 'e' || c == 'E' then fraction? negative text
  else if rest = [] ∨ rest.head? = some '_' then whole? negative text
  else none

/-- A number.  Bases take no sign. -/
def number? (token : List Char) : Option Value :=
  let (negative, text) := Numeral.splitSign token
  if text = ['i', 'n', 'f'] then some (.float (Numeral.infinite negative).toFloat)
  else if text = ['n', 'a', 'n'] then some (.float Numeral.undefined.toFloat)
  else match splitBase token with
    | some (base, digits) => inBase? base digits
    | none => decimal? negative text

/-! ## Points in time -/

/-- A number of two digits, and the rest. -/
def pair? : List Char → Option (Nat × List Char)
  | a :: b :: rest =>
    if a.isDigit && b.isDigit then some (digitsValue [a, b], rest) else none
  | _ => none

/-- The rest behind a character. -/
def behind? (c : Char) : List Char → Option (List Char)
  | d :: rest => if d = c then some rest else none
  | [] => none

/-- The number of days of a month. -/
def daysIn (year month : Nat) : Nat :=
  if month = 2 then
    if year % 4 = 0 ∧ (year % 100 ≠ 0 ∨ year % 400 = 0) then 29 else 28
  else if month = 4 ∨ month = 6 ∨ month = 9 ∨ month = 11 then 30
  else 31

/-- The rest behind a date that exists. -/
def date? (token : List Char) : Option (List Char) := do
  let (century, rest) ← pair? token
  let (year, rest) ← pair? rest
  let rest ← behind? '-' rest
  let (month, rest) ← pair? rest
  let rest ← behind? '-' rest
  let (day, rest) ← pair? rest
  if 1 ≤ month ∧ month ≤ 12 ∧ 1 ≤ day ∧ day ≤ daysIn (100 * century + year) month then some rest
  else none

/-- The rest behind hours and minutes. -/
def hoursMinutes? (token : List Char) : Option (List Char) := do
  let (hour, rest) ← pair? token
  let rest ← behind? ':' rest
  let (minute, rest) ← pair? rest
  if hour ≤ 23 ∧ minute ≤ 59 then some rest else none

/-- The rest behind the fraction of a second, if there is one. -/
def secondFraction? : List Char → Option (List Char)
  | '.' :: rest =>
    if rest.takeWhile Char.isDigit = [] then none else some (rest.dropWhile Char.isDigit)
  | rest => some rest

/-- The rest behind a time of day.  The seconds may be left out. -/
def time? (token : List Char) : Option (List Char) := do
  let rest ← hoursMinutes? token
  match rest with
  | ':' :: rest => do
    let (second, rest) ← pair? rest
    if second ≤ 60 then secondFraction? rest else none
  | rest => some rest

/-- Whether a text is empty or a distance from universal time. -/
def isZone : List Char → Bool
  | [] => true
  | ['Z'] => true
  | ['z'] => true
  | '+' :: rest => hoursMinutes? rest == some []
  | '-' :: rest => hoursMinutes? rest == some []
  | _ => false

/-- Whether a text is a time of day with an optional zone. -/
def isZonedTime (token : List Char) : Bool :=
  match time? token with
  | some rest => isZone rest
  | none => false

/-- Whether a token is a point in time: a date, a time of day, or both, of which
only the last may have a zone. -/
def isMoment (token : List Char) : Bool :=
  match date? token with
  | some [] => true
  | some (c :: rest) => (c == 'T' || c == 't' || c == ' ') && isZonedTime rest
  | none => time? token == some []

/-! ## Tokens -/

/-- Whether a character ends a token. -/
def endsToken (c : Char) : Bool :=
  ['\n', '\r', ',', '=', '[', ']', '{', '}', '#'].contains c

/-- A token and the blanks behind it.  The flag says whether the text stands behind a
blank: a quotation mark there starts a quoted text, and elsewhere it is a part of the
token. -/
def tokenRun : Bool → List Char → List Char
  | _, [] => []
  | behindBlank, c :: rest =>
    if endsToken c || (behindBlank && isMark c) then [] else c :: tokenRun (isSpace c) rest

/-- The token that a text starts with, without the blanks at its end, and the rest. -/
def splitToken (text : List Char) : List Char × List Char :=
  let token := Text.dropEndWhile isSpace (tokenRun false text)
  (token, text.drop token.length)

/-- The value of a token. -/
def ofToken? (token : List Char) : Option Value :=
  if token = ['t', 'r', 'u', 'e'] then some (.boolean true)
  else if token = ['f', 'a', 'l', 's', 'e'] then some (.boolean false)
  else if isMoment token then some (.moment (String.ofList token))
  else number? token

end Toml
end PrintPath
