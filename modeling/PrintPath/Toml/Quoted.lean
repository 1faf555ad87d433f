/-!
# Quoted texts

A text is written between quotation marks, in which a backslash starts an escape,
or between apostrophes, in which everything stands for itself.  Three marks instead
of one make a text that may go over several lines; the line end right behind the
opening marks does not belong to it, and up to two marks may stand right before the
closing ones.

Control characters other than the tab are refused everywhere.
-/

namespace PrintPath
namespace Toml

/-- A blank of a line: a space or a tab. -/
def isSpace (c : Char) : Bool :=
  c == ' ' || c == '\t'

/-- A mark that a quoted text starts and ends with. -/
def isMark (c : Char) : Bool :=
  c == '"' || c == '\''

/-- A control character that may not stand in a text. -/
def isControl (c : Char) : Bool :=
  (decide (c.toNat < 0x20) && c != '\t') || c.toNat == 0x7F

/-- The value of a hexadecimal digit. -/
def hexDigit? (c : Char) : Option Nat :=
  if c.isDigit then some (c.toNat - '0'.toNat)
  else if 'a' ≤ c ∧ c ≤ 'f' then some (c.toNat - 'a'.toNat + 10)
  else if 'A' ≤ c ∧ c ≤ 'F' then some (c.toNat - 'A'.toNat + 10)
  else none

/-- The character with a code point given in hexadecimal digits. -/
def codePoint? (digits : List Char) : Option Char := do
  let values ← digits.mapM hexDigit?
  let n := values.foldl (fun n d => 16 * n + d) 0
  if n.isValidChar then some (Char.ofNat n) else none

/-- The character that an escape of `count` hexadecimal digits stands for, and the
length of the digits. -/
def codeEscape? (count : Nat) (text : List Char) : Option (Char × Nat) :=
  if count ≤ text.length then (codePoint? (text.take count)).map fun c => (c, count + 1)
  else none

/-- The character that the text behind a backslash stands for, and how many
characters of the text belong to the escape. -/
def escape? : List Char → Option (Char × Nat)
  | '"' :: _ => some ('"', 1)
  | '\\' :: _ => some ('\\', 1)
  | 'b' :: _ => some ('\x08', 1)
  | 't' :: _ => some ('\t', 1)
  | 'n' :: _ => some ('\n', 1)
  | 'f' :: _ => some ('\x0c', 1)
  | 'r' :: _ => some ('\r', 1)
  | 'e' :: _ => some ('\x1b', 1)
  | 'x' :: rest => codeEscape? 2 rest
  | 'u' :: rest => codeEscape? 4 rest
  | 'U' :: rest => codeEscape? 8 rest
  | _ => none

/-- A text and what stands behind it, with one more character in front. -/
def consText (c : Char) (read : List Char × List Char) : List Char × List Char :=
  (c :: read.1, read.2)

/-- The text up to the closing quotation mark. -/
def basic? : List Char → Option (List Char × List Char)
  | [] => none
  | c :: rest =>
    if c = '"' then some ([], rest)
    else if c = '\\' then
      match escape? rest with
      | some (escaped, length) => (basic? (rest.drop length)).map (consText escaped)
      | none => none
    else if isControl c then none
    else (basic? rest).map (consText c)
termination_by text => text.length
decreasing_by all_goals simp only [List.length_drop, List.length_cons]; omega

/-- The text up to the closing apostrophe. -/
def literal? : List Char → Option (List Char × List Char)
  | [] => none
  | c :: rest =>
    if c = '\'' then some ([], rest)
    else if isControl c then none
    else (literal? rest).map (consText c)

/-! ## Texts over several lines -/

/-- The length of a line end at the start of a text. -/
def lineEndLength : List Char → Nat
  | '\n' :: _ => 1
  | '\r' :: '\n' :: _ => 2
  | _ => 0

/-- A text without blanks and line ends at its start. -/
def skipLayout : List Char → List Char
  | ' ' :: rest => skipLayout rest
  | '\t' :: rest => skipLayout rest
  | '\n' :: rest => skipLayout rest
  | '\r' :: '\n' :: rest => skipLayout rest
  | text => text

/-- Whether a backslash ends its line. -/
def endsLine (text : List Char) : Bool :=
  lineEndLength (text.dropWhile isSpace) != 0

/-- What a run of marks does: three to five of them close the text, the surplus
belonging to it. -/
def closing? (mark : Char) (text : List Char) : Option (List Char × List Char) :=
  let run := (text.takeWhile (· == mark)).length
  if run < 3 then none
  else
    let surplus := min (run - 3) 2
    some (List.replicate surplus mark, text.drop (surplus + 3))

theorem length_skipLayout_le (text : List Char) : (skipLayout text).length ≤ text.length := by
  fun_induction skipLayout text <;> simp_all <;> omega

/-- The text up to the closing marks, over several lines; `escapes` says whether a
backslash starts an escape. -/
def multiline? (mark : Char) (escapes : Bool) : List Char → Option (List Char × List Char)
  | [] => none
  | c :: rest =>
    match (if c = mark then closing? mark (c :: rest) else none) with
    | some closed => some closed
    | none =>
      if escapes ∧ c = '\\' then
        if endsLine rest then multiline? mark escapes (skipLayout rest)
        else match escape? rest with
          | some (escaped, length) =>
            (multiline? mark escapes (rest.drop length)).map (consText escaped)
          | none => none
      else
        let length := lineEndLength (c :: rest)
        if length ≠ 0 then (multiline? mark escapes (rest.drop (length - 1))).map (consText '\n')
        else if isControl c then none
        else (multiline? mark escapes rest).map (consText c)
termination_by text => text.length
decreasing_by
  all_goals simp only [List.length_drop, List.length_cons]
  all_goals first
    | omega
    | exact Nat.lt_succ_of_le (length_skipLayout_le rest)

/-- A text over several lines, behind its opening marks. -/
def multilineBody? (mark : Char) (escapes : Bool) (text : List Char) :
    Option (List Char × List Char) :=
  multiline? mark escapes (text.drop (lineEndLength text))

/-- A text on one line, with its marks. -/
def singleLine? : List Char → Option (List Char × List Char)
  | '"' :: rest => basic? rest
  | '\'' :: rest => literal? rest
  | _ => none

/-- A text with its marks. -/
def quoted? : List Char → Option (List Char × List Char)
  | '"' :: '"' :: '"' :: rest => multilineBody? '"' true rest
  | '\'' :: '\'' :: '\'' :: rest => multilineBody? '\'' false rest
  | text => singleLine? text

end Toml
end PrintPath
