import PrintPath.Proofs.Decoding
import PrintPath.Proofs.Observation
import PrintPath.Proofs.Spacing

/-!
# Bytes and lines are read alike

A program may come as bytes or as lines that are in memory.  The two are cut, decoded
and counted in different ways: bytes are cut behind each line feed and decoded stretch
by stretch, and a stretch loses all carriage returns and line feeds at its end; a line
in memory is taken as it is, and one byte is counted for its end.

A reading sees of a piece only what `Line.read` makes of it and its size
(`readRest_congr`).  So agreement is a matter of these two.  The text of a stretch is
the line without some blanks at its end, and those do not matter.  Cutting and decoding
may change places, because a line feed in the text comes from a line feed in the bytes
and from nowhere else (`lines_ofContent`).
-/

namespace PrintPath

open GCode Text

namespace Piece

/-- What a reading sees of a piece. -/
def seen (piece : Piece) : Line × Nat :=
  (piece.line, piece.size)

/-- The bytes of some lines, each followed by a line feed. -/
def contentOf (lines : List String) : List UInt8 :=
  lines.flatMap fun line => line.toUTF8.data.toList ++ [Utf8.lineFeed]

/-- The lines of a byte sequence that is decoded as a whole: what stands between the
line feeds of its text, and before the first and behind the last. -/
def textLines (bytes : List UInt8) : List String :=
  ((Utf8.decode bytes).splitOn '\n').map String.ofList

/-! ## The end of a line -/

theorem isBlank_of_isLineEnd {c : Char} (h : isLineEnd c) : isBlank c := by
  unfold isLineEnd at h
  rw [Bool.or_eq_true, beq_iff_eq, beq_iff_eq] at h
  rcases h with rfl | rfl
  · decide
  · decide

/-- What a line loses at its end are blanks. -/
theorem exists_lineEnd (text : List Char) :
    ∃ blanks, AllBlank blanks ∧ text = dropEndWhile isLineEnd text ++ blanks := by
  obtain ⟨blanks, hblanks, htext⟩ := exists_dropEndWhile_append isLineEnd text
  exact ⟨blanks, fun c hc => isBlank_of_isLineEnd (hblanks c hc), htext⟩

/-- **A line is read alike with its end and without it.** -/
theorem read_dropEndWhile (text : List Char) :
    Line.read (dropEndWhile isLineEnd text) = Line.read text := by
  obtain ⟨blanks, hblanks, htext⟩ := exists_lineEnd text
  have h := Line.read_append_blanks hblanks (dropEndWhile isLineEnd text)
  rw [← htext] at h
  exact h.symm

/-- What is read of a stretch of bytes is what is read of its text. -/
theorem line_ofBytes (bytes : List UInt8) :
    (ofBytes bytes).line = Line.read (Utf8.decode bytes) :=
  read_dropEndWhile (Utf8.decode bytes)

/-- A line feed at the end of a stretch is not seen. -/
theorem line_ofBytes_lineFeed (bytes : List UInt8) :
    (ofBytes (bytes ++ [Utf8.lineFeed])).line = Line.read (Utf8.decode bytes) := by
  have hblank : AllBlank ['\n'] := by
    intro c hc
    rw [List.mem_singleton.mp hc]
    decide
  rw [line_ofBytes, Utf8.decode, Utf8.decodeFrom_lineFeed]
  exact Line.read_append_blanks hblank (Utf8.decode bytes)

/-! ## Lines with their line feeds -/

/-- The bytes of a line without a line feed hold none. -/
theorem lineFeed_notMem_toUTF8 {line : String} (h : '\n' ∉ line.toList) :
    Utf8.lineFeed ∉ line.toUTF8.data.toList := by
  intro hmem
  obtain ⟨front, back, hsplit⟩ := List.append_of_mem hmem
  have hdecode := Utf8.decode_toUTF8 line
  rw [hsplit, Utf8.decode, Utf8.decodeFrom_lineFeed] at hdecode
  refine h ?_
  rw [← hdecode]
  exact List.mem_append_right _ List.mem_cons_self

/-- The stretches of lines that were given line feeds are the lines. -/
theorem stretches_contentOf {lines : List String} (h : ∀ line ∈ lines, '\n' ∉ line.toList) :
    stretches (contentOf lines) =
      lines.map fun line => line.toUTF8.data.toList ++ [Utf8.lineFeed] := by
  induction lines with
  | nil => rfl
  | cons line lines ih =>
    have hline := lineFeed_notMem_toUTF8 (h line List.mem_cons_self)
    have hlines := ih fun other hother => h other (List.mem_cons_of_mem line hother)
    unfold contentOf at hlines ⊢
    rw [List.flatMap_cons, List.append_assoc, List.singleton_append,
      stretches_append_lineFeed hline, hlines, List.map_cons]

/-- **A line is seen alike in memory and as bytes with a line feed.** -/
theorem seen_ofBytes_toUTF8 (line : String) :
    (ofBytes (line.toUTF8.data.toList ++ [Utf8.lineFeed])).seen = (ofLine line).seen := by
  have hsize : (line.toUTF8.data.toList ++ [Utf8.lineFeed]).length = line.utf8ByteSize + 1 := by
    rw [List.length_append, Array.length_toList, ByteArray.size_data,
      String.toUTF8_eq_toByteArray, String.size_toByteArray]
    rfl
  unfold seen
  rw [line_ofBytes_lineFeed, Utf8.decode_toUTF8]
  show (_, (line.toUTF8.data.toList ++ [Utf8.lineFeed]).length) = _
  rw [hsize]
  rfl

theorem seen_ofContent_contentOf {lines : List String}
    (h : ∀ line ∈ lines, '\n' ∉ line.toList) :
    (ofContent (contentOf lines)).map seen = (ofLines lines).map seen := by
  unfold ofContent ofLines
  rw [stretches_contentOf h, List.map_map, List.map_map, List.map_map]
  refine List.map_congr_left fun line _ => ?_
  exact seen_ofBytes_toUTF8 line

theorem totalSize_map_ofBytes (stretches : List (List UInt8)) :
    totalSize (stretches.map ofBytes) = stretches.flatten.length := by
  induction stretches with
  | nil => rfl
  | cons stretch stretches ih =>
    rw [List.flatten_cons, List.length_append, ← ih]
    rfl

/-- The pieces of a byte sequence stand for all of its bytes. -/
theorem totalSize_ofContent (bytes : List UInt8) : totalSize (ofContent bytes) = bytes.length := by
  rw [ofContent, totalSize_map_ofBytes, flatten_stretches]

/-- Pieces in which the same is seen are of the same size. -/
theorem totalSize_congr {pieces others : List Piece} (h : pieces.map seen = others.map seen) :
    totalSize pieces = totalSize others := by
  have hsize : ∀ pieces : List Piece,
      totalSize pieces = (pieces.map seen).foldr (fun seen size => seen.2 + size) 0 := by
    intro pieces
    rw [List.foldr_map]
    rfl
  rw [hsize, hsize, h]

/-! ## A byte sequence decoded as a whole -/

theorem textLines_of_notMem {bytes : List UInt8} (h : Utf8.lineFeed ∉ bytes) :
    textLines bytes = [String.ofList (Utf8.decode bytes)] := by
  unfold textLines
  rw [List.splitOn_eq_singleton (Utf8.newline_notMem_decode h)]
  rfl

/-- The line feed that stands first ends the first line of the text. -/
theorem textLines_append_lineFeed {front : List UInt8} (h : Utf8.lineFeed ∉ front)
    (rest : List UInt8) :
    textLines (front ++ Utf8.lineFeed :: rest) =
      String.ofList (Utf8.decode front) :: textLines rest := by
  unfold textLines
  rw [Utf8.decode, Utf8.decodeFrom_lineFeed]
  show ((Utf8.decode front ++ '\n' :: Utf8.decode rest).splitOn '\n').map String.ofList = _
  rw [List.splitOn_append_cons_self_of_not_mem (Utf8.newline_notMem_decode h), List.map_cons]

theorem line_ofLine_ofList (text : List Char) :
    (ofLine (String.ofList text)).line = Line.read text := by
  show Line.read (String.ofList text).toList = _
  rw [String.toList_ofList]

/-- **Cutting and decoding may change places.**  What is read of the stretches of a byte
sequence is what is read of the lines of its text, but for the empty line that the text
has behind its last line feed.  The induction cuts off the first stretch. -/
theorem lines_ofContent (bytes : List UInt8) :
    (ofLines (textLines bytes)).map line = (ofContent bytes).map line ∨
      (ofLines (textLines bytes)).map line = (ofContent bytes).map line ++ [Line.read []] := by
  induction hlength : bytes.length using Nat.strongRecOn generalizing bytes with
  | ind length ih =>
    by_cases h : Utf8.lineFeed ∈ bytes
    · obtain ⟨front, rest, hsplit, hfront⟩ := List.eq_append_cons_of_mem h
      have hless : rest.length < length := by
        rw [← hlength, hsplit, List.length_append, List.length_cons]
        omega
      have hlines : (ofLines (textLines bytes)).map line =
          Line.read (Utf8.decode front) :: (ofLines (textLines rest)).map line := by
        rw [hsplit, textLines_append_lineFeed hfront]
        show (ofLine _).line :: _ = _
        rw [line_ofLine_ofList]
        rfl
      have hcontent : (ofContent bytes).map line =
          Line.read (Utf8.decode front) :: (ofContent rest).map line := by
        rw [hsplit, ofContent, stretches_append_lineFeed hfront]
        show (ofBytes _).line :: _ = _
        rw [line_ofBytes_lineFeed]
        rfl
      rw [hlines, hcontent]
      rcases ih rest.length hless rest rfl with hrest | hrest
      · exact Or.inl (by rw [hrest])
      · exact Or.inr (by rw [hrest, List.cons_append])
    · rw [textLines_of_notMem h]
      have hlines : (ofLines [String.ofList (Utf8.decode bytes)]).map line =
          [Line.read (Utf8.decode bytes)] := by
        show [(ofLine _).line] = _
        rw [line_ofLine_ofList]
      rw [hlines]
      by_cases hempty : bytes = []
      · rw [hempty]
        exact Or.inr rfl
      · refine Or.inl ?_
        rw [ofContent, stretches_of_notMem h hempty]
        show _ = [(ofBytes bytes).line]
        rw [line_ofBytes]

end Piece

/-! ## Readings -/

namespace Pass

variable {σ : Type} {setup : Setup} {total : Nat} {observer : Observer σ}

/-- **A reading depends on its pieces only through what is seen of them.** -/
theorem readRest_congr {pieces others : List Piece}
    (h : pieces.map Piece.seen = others.map Piece.seen) (pass : Pass) (consumed : Nat)
    (state : σ) :
    pass.readRest setup total observer consumed state pieces =
      pass.readRest setup total observer consumed state others := by
  induction pieces generalizing others pass consumed state with
  | nil =>
    rw [List.map_eq_nil_iff.mp h.symm]
  | cons piece pieces ih =>
    cases others with
    | nil => exact absurd h (by simp)
    | cons other others =>
      obtain ⟨hpiece, hrest⟩ := List.cons.inj h
      obtain ⟨hline, hsize⟩ := Prod.mk.inj hpiece
      have htake : pass.take setup total observer consumed state piece =
          pass.take setup total observer consumed state other := by
        unfold Piece.line at hline
        unfold take
        rw [hline, hsize]
      rw [readRest, readRest, htake]
      split
      · exact ih hrest _ _ _
      · rfl

/-- An empty line announces nothing. -/
theorem announce_empty (m : Machine) : m.announce (Line.read []) = m := by
  unfold Machine.announce
  show { m with pathType := m.pathType, preambleEnded := m.preambleEnded || (false && _) } = m
  rw [Bool.false_and, Bool.or_false]

/-- An empty line is counted, and that is all. -/
theorem feed_empty (setup : Setup) (pass : Pass) :
    pass.feed setup (Line.read []) = { pass with line := pass.line + 1 } := by
  show { pass with line := pass.line + 1, machine := pass.machine.announce (Line.read []) } = _
  rw [announce_empty]

/-- **An empty line at the end of a program leaves no trace in the toolpath.** -/
theorem finish_feedAll_empty (setup : Setup) (pass : Pass) (lines : List Line) :
    (pass.feedAll setup (lines ++ [Line.read []])).finish =
      (pass.feedAll setup lines).finish := by
  rw [feedAll_append]
  show ((pass.feedAll setup lines).feed setup (Line.read [])).finish = _
  rw [feed_empty]
  rfl

end Pass

theorem readPieces_congr {σ : Type} (setup : Setup) (observer : Observer σ) (state : σ)
    {pieces others : List Piece} (h : pieces.map Piece.seen = others.map Piece.seen) :
    readPieces setup observer state (Piece.totalSize pieces) pieces =
      readPieces setup observer state (Piece.totalSize others) others := by
  rw [Piece.totalSize_congr h]
  exact Pass.readRest_congr h _ _ _

/-- **Lines with line feeds are read like the lines**, whoever observes. -/
theorem readContent_contentOf {σ : Type} (setup : Setup) (observer : Observer σ) (state : σ)
    {lines : List String} (h : ∀ line ∈ lines, '\n' ∉ line.toList) :
    readContent setup observer state (Piece.contentOf lines) (Piece.contentOf lines).length =
      readLines setup observer state lines := by
  unfold readContent readLines
  rw [← Piece.totalSize_ofContent]
  exact readPieces_congr setup observer state (Piece.seen_ofContent_contentOf h)

/-- **Any bytes are read like the lines of their text**, if nobody observes. -/
theorem outcome_readContent_silent (setup : Setup) (bytes : List UInt8) (total : Nat) :
    (readContent setup .silent () bytes total).outcome =
      (readLines setup .silent () (Piece.textLines bytes)).outcome := by
  unfold readContent readLines
  rw [outcome_readPieces_silent, outcome_readPieces_silent]
  rcases Piece.lines_ofContent bytes with h | h
  · rw [h]
  · rw [h, Pass.finish_feedAll_empty]

/-- **The way a program arrives does not matter.**  Lines in memory are read like the
bytes of these lines with a line feed behind each: the observer gets the same calls, and
outcome, state and journal are the same.  And any bytes, decodable or not, are read like
the lines of the text that they decode to as a whole. -/
theorem reading_agrees (setup : Setup) :
    (∀ (σ : Type) (observer : Observer σ) (state : σ) (lines : List String),
      (∀ line ∈ lines, '\n' ∉ line.toList) →
        readContent setup observer state (Piece.contentOf lines)
            (Piece.contentOf lines).length =
          readLines setup observer state lines ∧
        (readContent setup observer.recording (state, []) (Piece.contentOf lines)
            (Piece.contentOf lines).length).state.2 =
          (readLines setup observer.recording (state, []) lines).state.2) ∧
      ∀ (bytes : List UInt8) (total : Nat),
        (readContent setup .silent () bytes total).outcome =
          (readLines setup .silent () (Piece.textLines bytes)).outcome := by
  constructor
  · intro σ observer state lines hlines
    constructor
    · exact readContent_contentOf setup observer state hlines
    · rw [readContent_contentOf setup observer.recording (state, []) hlines]
  · intro bytes total
    exact outcome_readContent_silent setup bytes total

/-- Three lines, one with a carriage return, one that is a marker at which the observer
stops, and one with a letter of two bytes. -/
theorem reading_agrees_three_lines :
    (∀ line ∈ ["G1 X1 E1\r", ";LAYER:0", "; é"], '\n' ∉ line.toList) ∧
      readContent ⟨.builtIn, .standard⟩ (fun (calls : Nat) _ => ⟨calls + 1, .stop, []⟩) 0
          (Piece.contentOf ["G1 X1 E1\r", ";LAYER:0", "; é"])
          (Piece.contentOf ["G1 X1 E1\r", ";LAYER:0", "; é"]).length =
        readLines ⟨.builtIn, .standard⟩ (fun (calls : Nat) _ => ⟨calls + 1, .stop, []⟩) 0
          ["G1 X1 E1\r", ";LAYER:0", "; é"] :=
  ⟨by decide, ((reading_agrees ⟨.builtIn, .standard⟩).1 Nat _ 0 _ (by decide)).1⟩

end PrintPath
