import PrintPath.Text.Blank
import PrintPath.Text.Utf8

/-!
# Cutting input into lines

A program arrives as lines that are already in memory, or as bytes.  Both are cut
into pieces, one for each line, that know how much of the input they stand for.
After that the two are read by the same function.

A line in memory stands for its own bytes and one line end, and its text is taken
as it is.  Bytes are cut behind each line feed; a piece stands for its bytes with
their line end, and its text is what they decode to without the line end.
-/

namespace PrintPath

open Text

/-- A line of the input. -/
structure Piece where
  /-- The line without its end. -/
  text : List Char
  /-- How many bytes of the input it stands for. -/
  size : Nat
  deriving DecidableEq

namespace Piece

/-- A line that is in memory. -/
def ofLine (line : String) : Piece :=
  ⟨line.toList, line.utf8ByteSize + 1⟩

/-- Whether a character ends a line. -/
def isLineEnd (c : Char) : Bool :=
  c == '\n' || c == '\r'

/-- A stretch of bytes that holds one line. -/
def ofBytes (bytes : List UInt8) : Piece :=
  ⟨dropEndWhile isLineEnd (Utf8.decode bytes), bytes.length⟩

/-- A byte in front of the stretches of the bytes behind it. -/
def consByte (byte : UInt8) (stretches : List (List UInt8)) : List (List UInt8) :=
  if byte = Utf8.lineFeed then [byte] :: stretches
  else match stretches with
    | [] => [[byte]]
    | stretch :: rest => (byte :: stretch) :: rest

/-- The stretches of bytes that end behind a line feed, and the one behind the last
line feed if there is one. -/
def stretches (bytes : List UInt8) : List (List UInt8) :=
  bytes.foldr consByte []

/-- The pieces of lines that are in memory. -/
def ofLines (lines : List String) : List Piece :=
  lines.map ofLine

/-- The pieces of a byte sequence. -/
def ofContent (bytes : List UInt8) : List Piece :=
  (stretches bytes).map ofBytes

/-- How many bytes of the input some pieces stand for. -/
def totalSize (pieces : List Piece) : Nat :=
  pieces.foldr (fun piece size => piece.size + size) 0

@[simp] theorem stretches_nil : stretches [] = [] := rfl

@[simp] theorem stretches_cons (byte : UInt8) (bytes : List UInt8) :
    stretches (byte :: bytes) = consByte byte (stretches bytes) := rfl

@[simp] theorem flatten_consByte (byte : UInt8) (ls : List (List UInt8)) :
    (consByte byte ls).flatten = byte :: ls.flatten := by
  unfold consByte
  split
  · rfl
  · cases ls <;> rfl

/-- Cutting loses no byte. -/
theorem flatten_stretches (bytes : List UInt8) : (stretches bytes).flatten = bytes := by
  induction bytes with
  | nil => rfl
  | cons byte bytes ih => rw [stretches_cons, flatten_consByte, ih]

/-- Bytes without a line feed are one stretch. -/
theorem stretches_of_notMem {bytes : List UInt8} (h : Utf8.lineFeed ∉ bytes) (hne : bytes ≠ []) :
    stretches bytes = [bytes] := by
  induction bytes with
  | nil => exact absurd rfl hne
  | cons byte rest ih =>
    rw [List.mem_cons, not_or] at h
    rw [stretches_cons]
    unfold consByte
    rw [if_neg fun e => h.1 e.symm]
    cases rest with
    | nil => rfl
    | cons next rest => rw [ih h.2 (List.cons_ne_nil next rest)]

/-- Bytes up to a line feed are the first stretch. -/
theorem stretches_append_lineFeed {bytes : List UInt8} (h : Utf8.lineFeed ∉ bytes)
    (rest : List UInt8) :
    stretches (bytes ++ Utf8.lineFeed :: rest) = (bytes ++ [Utf8.lineFeed]) :: stretches rest := by
  induction bytes with
  | nil =>
    rw [List.nil_append, stretches_cons]
    unfold consByte
    rw [if_pos rfl, List.nil_append]
  | cons byte bytes ih =>
    rw [List.mem_cons, not_or] at h
    rw [List.cons_append, stretches_cons, ih h.2]
    unfold consByte
    rw [if_neg fun e => h.1 e.symm, List.cons_append]

end Piece
end PrintPath
