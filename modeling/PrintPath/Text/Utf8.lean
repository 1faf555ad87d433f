/-!
# Reading bytes as text

Bytes are read as UTF-8 by a machine that takes one byte at a time.  Its state is
the sequence that has begun, if any: how many further bytes it needs, the range
the next byte must lie in, and the value gathered so far.  A byte that cannot
continue the sequence ends it: one replacement character stands for the bytes
read so far, and the byte is then read as the start of something new.  So each
maximal run of bytes that begins a sequence and breaks off becomes a single
replacement character, and so does each byte that can begin nothing.

The range of the second byte is where overlong forms, surrogates and values past
the last code point are refused: they never become a sequence at all.

Because a line feed is never a continuation byte, decoding does not depend on
whether the bytes are cut at line feeds first (`decodeFrom_lineFeed`).
-/

namespace PrintPath
namespace Utf8

/-- The character that stands for bytes that are no UTF-8. -/
def replacement : Char := '\uFFFD'

/-- A sequence that has begun. -/
structure Pending where
  /-- How many bytes follow the next one. -/
  further : Nat
  /-- The least value of the next byte. -/
  low : Nat
  /-- The greatest value of the next byte. -/
  high : Nat
  /-- The bits gathered so far. -/
  value : Nat
  /-- A byte below `0x80` never continues a sequence. -/
  high_bit : 0x80 ≤ low := by decide
  deriving DecidableEq

/-- What the first byte of a character gives: a character at once, a sequence that
has begun, or the replacement for a byte that begins nothing. -/
def start (byte : UInt8) : List Char × Option Pending :=
  let n := byte.toNat
  if n < 0x80 then ([Char.ofNat n], none)
  else if n < 0xC2 then ([replacement], none)
  else if n < 0xE0 then ([], some (.mk 0 0x80 0xBF (n - 0xC0)))
  else if n = 0xE0 then ([], some (.mk 1 0xA0 0xBF 0))
  else if n = 0xED then ([], some (.mk 1 0x80 0x9F 0x0D))
  else if n < 0xF0 then ([], some (.mk 1 0x80 0xBF (n - 0xE0)))
  else if n = 0xF0 then ([], some (.mk 2 0x90 0xBF 0))
  else if n < 0xF4 then ([], some (.mk 2 0x80 0xBF (n - 0xF0)))
  else if n = 0xF4 then ([], some (.mk 2 0x80 0x8F 4))
  else ([replacement], none)

/-- One byte: the characters it completes and the sequence it leaves begun. -/
def step : Option Pending → UInt8 → List Char × Option Pending
  | none, byte => start byte
  | some pending, byte =>
    if pending.low ≤ byte.toNat ∧ byte.toNat ≤ pending.high then
      let value := pending.value * 64 + (byte.toNat - 0x80)
      match pending.further with
      | 0 => ([Char.ofNat value], none)
      | further + 1 => ([], some (.mk further 0x80 0xBF value))
    else (replacement :: (start byte).1, (start byte).2)

/-- What the end of the input makes of a sequence that has begun. -/
def flush : Option Pending → List Char
  | none => []
  | some _ => [replacement]

/-- The characters of the bytes that follow a state. -/
def decodeFrom : Option Pending → List UInt8 → List Char
  | state, [] => flush state
  | state, byte :: rest => (step state byte).1 ++ decodeFrom (step state byte).2 rest

/-- The text of a byte sequence, valid or not. -/
def decode (bytes : List UInt8) : List Char :=
  decodeFrom none bytes

/-- The byte that ends a line. -/
def lineFeed : UInt8 := 0x0A

/-- **A line feed ends whatever sequence has begun and stands for itself.** -/
@[simp] theorem step_lineFeed (state : Option Pending) :
    step state lineFeed = (flush state ++ ['\n'], none) := by
  cases state with
  | none => rfl
  | some p =>
    have hn : ¬ (p.low ≤ lineFeed.toNat ∧ lineFeed.toNat ≤ p.high) := by
      intro h
      have hlow : p.low ≤ 10 := h.1
      have := p.high_bit
      omega
    simp only [step, if_neg hn, flush]
    rfl

/-- Decoding may be cut at a line feed: what stands before it and what stands
behind it are read apart. -/
theorem decodeFrom_lineFeed (state : Option Pending) (front rest : List UInt8) :
    decodeFrom state (front ++ lineFeed :: rest)
      = decodeFrom state front ++ '\n' :: decode rest := by
  induction front generalizing state with
  | nil => simp [decodeFrom, decode]
  | cons byte front ih => simp [decodeFrom, ih]

end Utf8
end PrintPath
