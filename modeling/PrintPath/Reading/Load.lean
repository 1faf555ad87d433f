import PrintPath.Reading.Cursor
import PrintPath.Reading.Pass

/-!
# Reading a program under observation

Reading a program can be observed.  At each layer marker the observer is told which
fraction of the input has been read, and may stop the reading.  It may also note
something, and change a state of its own, whose type `σ` is up to it; what it does
there cannot reach the reading except through its verdict.

A reading that is stopped gives the layers that were complete, without the one
being filled and without totals.  A reading that reaches the end gives a toolpath.
-/

namespace PrintPath

open GCode

/-- What an observer decides. -/
inductive Verdict where
  | proceed
  | stop
  deriving DecidableEq, Repr

/-- What an observer answers. -/
structure Reply (σ : Type) where
  state : σ
  verdict : Verdict
  notes : List Note

/-- An observer answers to the fraction of the input that was read. -/
abbrev Observer (σ : Type) := σ → Float → Reply σ

/-- The observer that lets everything pass. -/
def Observer.silent : Observer Unit :=
  fun state _ => ⟨state, .proceed, []⟩

/-- How a reading ended. -/
inductive Outcome where
  /-- At the end of the input. -/
  | completed (toolpath : Toolpath)
  /-- At a layer marker, by decision of the observer. -/
  | cancelled (layers : Array Layer) (progress : Float)

namespace Outcome

/-- Whether the observer stopped the reading. -/
def isCancelled : Outcome → Bool
  | completed _ => false
  | cancelled _ _ => true

/-- The toolpath of a reading that reached the end. -/
def toolpath? : Outcome → Option Toolpath
  | completed toolpath => some toolpath
  | cancelled _ _ => none

/-- The layers, however the reading ended. -/
def layers : Outcome → Array Layer
  | completed toolpath => toolpath.layers
  | cancelled layers _ => layers

end Outcome

/-- A reading that has ended: its outcome, the observer's state and what
happened. -/
structure Reading (σ : Type) where
  outcome : Outcome
  state : σ
  notes : Array Note

/-- The fraction that `consumed` bytes are of `total`, at most 1.  Of an input
without bytes nothing was read. -/
def fraction (consumed total : Nat) : Float :=
  if total = 0 then 0.0
  else
    let quotient := Float.ofNat consumed / Float.ofNat total
    if 1.0 < quotient then 1.0 else quotient

/-- What taking a line leads to. -/
inductive Turn (σ : Type) where
  /-- The reading goes on with this pass, this many bytes read and this state of the
  observer. -/
  | proceeds (pass : Pass) (consumed : Nat) (state : σ)
  /-- The observer stopped the reading. -/
  | ended (reading : Reading σ)

namespace Pass

/-- The reading that ends here because the input does. -/
def complete {σ : Type} (pass : Pass) (state : σ) : Reading σ :=
  ⟨.completed pass.finish, state, pass.notes.push pass.finishNote⟩

/-- The reading that ends here because the observer stops it. -/
def cancel {σ : Type} (pass : Pass) (progress : Float) (state : σ) : Reading σ :=
  ⟨.cancelled pass.builder.closed progress, state, pass.notes.push (.cancelled progress)⟩

/-- The pass with what the observer noted. -/
def noteAll (pass : Pass) (notes : List Note) : Pass :=
  { pass with notes := pass.notes ++ notes }

/-- Take a piece of an input of `total` bytes, of which `consumed` were read before. -/
def take {σ : Type} (setup : Setup) (total : Nat) (observer : Observer σ) (pass : Pass)
    (consumed : Nat) (state : σ) (piece : Piece) : Turn σ :=
  let line := Line.read piece.text
  let fed := pass.feed setup line
  let reached := consumed + piece.size
  if line.layerBoundary then
    let progress := fraction reached total
    let reply := observer state progress
    let noted := fed.noteAll reply.notes
    match reply.verdict with
    | .stop => .ended (noted.cancel progress reply.state)
    | .proceed => .proceeds noted reached reply.state
  else .proceeds fed reached state

/-- Read the remaining pieces of an input of `total` bytes, of which `consumed` were
read. -/
def readRest {σ : Type} (setup : Setup) (total : Nat) (observer : Observer σ) :
    Pass → Nat → σ → List Piece → Reading σ
  | pass, _, state, [] => pass.complete state
  | pass, consumed, state, piece :: rest =>
    match pass.take setup total observer consumed state piece with
    | .proceeds pass consumed state => readRest setup total observer pass consumed state rest
    | .ended reading => reading

/-- Read at most `count` more lines of a file, whose content depends on the observer's
state. -/
def readOn {σ : Type} (setup : Setup) (total : Nat) (observer : Observer σ)
    (content : σ → ByteArray) : Nat → Pass → Nat → σ → Cursor → Reading σ
  | 0, pass, _, state, _ => pass.complete state
  | count + 1, pass, consumed, state, cursor =>
    match cursor.next (content state) with
    | ([], _) => pass.complete state
    | (line, cursor) =>
      match pass.take setup total observer consumed state (.ofBytes line) with
      | .proceeds pass consumed state =>
        readOn setup total observer content count pass consumed state cursor
      | .ended reading => reading

end Pass

/-- Read a program that was cut into pieces. -/
def readPieces {σ : Type} (setup : Setup) (observer : Observer σ) (state : σ) (total : Nat)
    (pieces : List Piece) : Reading σ :=
  Pass.start.readRest setup total observer 0 state pieces

/-- Read lines that are in memory. -/
def readLines {σ : Type} (setup : Setup) (observer : Observer σ) (state : σ)
    (lines : List String) : Reading σ :=
  let pieces := Piece.ofLines lines
  readPieces setup observer state (Piece.totalSize pieces) pieces

/-- Read bytes, of which there are said to be `total`. -/
def readContent {σ : Type} (setup : Setup) (observer : Observer σ) (state : σ)
    (bytes : List UInt8) (total : Nat) : Reading σ :=
  readPieces setup observer state total (Piece.ofContent bytes)

/-- How many bytes a file may gain while it is read.  No line is empty, so this bounds
the lines too. -/
def growthLimit : Nat := Nat.pow 2 60

/-- Read a file, whose content depends on the observer's state. -/
def readFile {σ : Type} (setup : Setup) (observer : Observer σ) (content : σ → ByteArray)
    (state : σ) : Reading σ :=
  let total := (content state).size
  Pass.start.readOn setup total observer content (growthLimit + total) 0 state .start

/-! ## Files that nobody changes -/

namespace Pass

variable {σ : Type} {setup : Setup} {total : Nat} {observer : Observer σ}

/-- What holds of the observer's state, and goes on to hold after a reply, holds
after a piece. -/
theorem state_of_take {P : σ → Prop} (hreply : ∀ state x, P state → P (observer state x).state)
    {pass next : Pass} {consumed reached : Nat} {state after : σ} {piece : Piece}
    (hstate : P state)
    (h : pass.take setup total observer consumed state piece = .proceeds next reached after) :
    P after := by
  unfold take at h
  simp only at h
  split at h
  · split at h
    · exact absurd h (by simp)
    · rw [Turn.proceeds.injEq] at h
      exact h.2.2 ▸ hreply _ _ hstate
  · rw [Turn.proceeds.injEq] at h
    exact h.2.2 ▸ hstate

/-- Reading on in a file that nobody changes is reading the pieces of the bytes that
are to come. -/
theorem readOn_eq_readRest {P : σ → Prop} {content : σ → ByteArray} {bytes : ByteArray}
    (hcontent : ∀ state, P state → content state = bytes)
    (hreply : ∀ state x, P state → P (observer state x).state)
    (count : Nat) (pass : Pass) (consumed : Nat) {state : σ} (cursor : Cursor)
    (hcount : (cursor.remaining bytes).length ≤ count) (hstate : P state) :
    pass.readOn setup total observer content count consumed state cursor =
      pass.readRest setup total observer consumed state
        (Piece.ofContent (cursor.remaining bytes)) := by
  induction count generalizing pass consumed state cursor with
  | zero =>
    rw [List.eq_nil_of_length_eq_zero (Nat.le_zero.mp hcount)]
    rfl
  | succ count ih =>
    have htakes := cursor.takes_next bytes
    rw [readOn, hcontent state hstate]
    split
    · next cursor' hnext =>
      rw [hnext] at htakes
      rw [htakes.eq_nil]
      rfl
    · next line cursor' hline hnext =>
      simp only [hnext] at htakes
      rw [Piece.ofContent, htakes.stretches_eq hline, List.map_cons, readRest]
      split
      · next next reached after htake =>
        refine ih next reached cursor' ?_ (state_of_take hreply hstate htake)
        exact Nat.le_of_lt_succ (Nat.lt_of_lt_of_le (htakes.length_lt hline) hcount)
      · rfl

end Pass

/-- **A file that nobody changes reads like its bytes.** -/
theorem readFile_eq_readContent {σ : Type} {setup : Setup} {observer : Observer σ}
    {P : σ → Prop} {content : σ → ByteArray} {bytes : ByteArray}
    (hcontent : ∀ state, P state → content state = bytes)
    (hreply : ∀ state x, P state → P (observer state x).state) {state : σ} (hstate : P state) :
    readFile setup observer content state =
      readContent setup observer state bytes.data.toList bytes.size := by
  unfold readFile readContent readPieces
  simp only [hcontent state hstate]
  have hlength : ((Cursor.start).remaining bytes).length ≤ growthLimit + bytes.size := by
    rw [Cursor.remaining, Cursor.start, List.nil_append, List.drop_zero, Array.length_toList,
      ByteArray.size_data]
    exact Nat.le_add_left _ _
  rw [Pass.readOn_eq_readRest hcontent hreply _ _ _ _ hlength hstate]
  rfl

end PrintPath
