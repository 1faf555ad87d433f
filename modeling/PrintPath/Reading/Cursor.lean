import PrintPath.Reading.Piece

/-!
# Taking lines from a file

A file is not read at once.  Its bytes are fetched in blocks, and the next block is
fetched only when the bytes at hand hold no complete line.  Between two lines the
file may be changed, so a block has what the file holds when it is fetched, at the
offset where the block before it ended.

A `Cursor` is a place in a file together with the bytes at hand.  What is to come, in
a file that changes no more, are the bytes at hand and those that were not fetched
(`remaining`).  The main statement, `takes_next`, says that the next line is what
`Piece.stretches` cuts off these bytes first, so the blocks do not show unless the file
changes.
-/

namespace PrintPath

open Text

/-- A place in a file that is being read. -/
structure Cursor where
  /-- How many bytes were fetched. -/
  fetched : Nat
  /-- The bytes at hand: fetched, but not taken. -/
  held : List UInt8

namespace Cursor

/-- The start of a file. -/
def start : Cursor := ⟨0, []⟩

/-- How many bytes are fetched at once. -/
def blockSize : Nat := 8192

/-- The block of a file at an offset. -/
def block (content : ByteArray) (offset : Nat) : List UInt8 :=
  (content.extract offset (offset + blockSize)).data.toList

/-- The bytes up to and with the first line feed, and those behind it.  Without a
line feed these are all bytes, and there is nothing behind them. -/
def cutLine : List UInt8 → List UInt8 × Option (List UInt8)
  | [] => ([], none)
  | byte :: rest =>
    if byte = Utf8.lineFeed then ([byte], some rest)
    else
      let cut := cutLine rest
      (byte :: cut.1, cut.2)

/-- What is to come of a file that changes no more. -/
def remaining (content : ByteArray) (cursor : Cursor) : List UInt8 :=
  cursor.held ++ content.data.toList.drop cursor.fetched

theorem block_eq_take (content : ByteArray) (offset : Nat) :
    block content offset = (content.data.toList.drop offset).take blockSize := by
  rw [block, ByteArray.data_extract, Array.toList_extract, List.extract_eq_take_drop,
    Nat.add_sub_cancel_left]

/-- A block and what is behind it are what stands at its offset. -/
theorem block_append_drop (content : ByteArray) (offset : Nat) :
    block content offset ++ content.data.toList.drop (offset + (block content offset).length) =
      content.data.toList.drop offset := by
  rw [← List.drop_drop]
  conv => rhs; rw [← List.take_append_drop blockSize (content.data.toList.drop offset)]
  rw [block_eq_take, List.length_take]
  congr 1
  rcases Nat.le_total blockSize (content.data.toList.drop offset).length with h | h
  · rw [Nat.min_eq_left h]
  · rw [Nat.min_eq_right h, List.drop_length, List.drop_eq_nil_of_le h]

/-- Only at the end of a file is a block empty. -/
theorem drop_eq_nil_of_block_eq_nil {content : ByteArray} {offset : Nat}
    (h : block content offset = []) : content.data.toList.drop offset = [] := by
  rw [← block_append_drop, h, List.nil_append, List.length_nil, Nat.add_zero]
  rw [block_eq_take, List.take_eq_nil_iff] at h
  exact h.resolve_left (by decide)

/-- Behind a block that is not empty there is less of a file than before. -/
theorem sub_length_block_lt {content : ByteArray} {offset : Nat}
    (h : block content offset ≠ []) :
    content.size - (offset + (block content offset).length) < content.size - offset := by
  refine Nat.sub_lt_sub_left ?_ (Nat.lt_add_of_pos_right (List.length_pos_iff.mpr h))
  rcases Nat.lt_or_ge offset content.size with hlt | hge
  · exact hlt
  · rw [block_eq_take, List.drop_eq_nil_of_le, List.take_nil] at h
    · exact absurd rfl h
    · rw [Array.length_toList, ByteArray.size_data]
      exact hge

/-- The next line of a file, behind bytes of it that hold no line feed, and the place
behind it. -/
def fetchLine (content : ByteArray) (fetched : Nat) : List UInt8 × Cursor :=
  let bytes := block content fetched
  if h : bytes = [] then ([], ⟨fetched, []⟩)
  else
    have := sub_length_block_lt h
    match cutLine bytes with
    | (line, some held) => (line, ⟨fetched + bytes.length, held⟩)
    | (line, none) =>
      let more := fetchLine content (fetched + bytes.length)
      (line ++ more.1, more.2)
termination_by content.size - fetched

/-- The next line of a file and the place behind it.  At the end of the file there is
none, which is to say it is empty. -/
@[inline] def next (content : ByteArray) (cursor : Cursor) : List UInt8 × Cursor :=
  match cutLine cursor.held with
  | (line, some held) => (line, ⟨cursor.fetched, held⟩)
  | (line, none) =>
    let more := fetchLine content cursor.fetched
    (line ++ more.1, more.2)

/-! ## What is taken -/

theorem cutLine_some {bytes line held : List UInt8} (h : cutLine bytes = (line, some held)) :
    ∃ before, Utf8.lineFeed ∉ before ∧ line = before ++ [Utf8.lineFeed] ∧
      bytes = before ++ Utf8.lineFeed :: held := by
  induction bytes generalizing line with
  | nil => simp [cutLine] at h
  | cons byte rest ih =>
    unfold cutLine at h
    by_cases hb : byte = Utf8.lineFeed
    · rw [if_pos hb, Prod.mk.injEq, Option.some.injEq] at h
      exact ⟨[], List.not_mem_nil, by rw [← h.1, hb, List.nil_append], by
        rw [hb, h.2, List.nil_append]⟩
    · rw [if_neg hb, Prod.mk.injEq] at h
      have hcut : cutLine rest = ((cutLine rest).1, some held) := Prod.ext rfl h.2
      obtain ⟨before, hmem, hline, hrest⟩ := ih hcut
      refine ⟨byte :: before, ?_, ?_, ?_⟩
      · rw [List.mem_cons, not_or]
        exact ⟨fun e => hb e.symm, hmem⟩
      · rw [← h.1, hline, List.cons_append]
      · rw [hrest, List.cons_append]

theorem cutLine_none {bytes line : List UInt8} (h : cutLine bytes = (line, none)) :
    line = bytes ∧ Utf8.lineFeed ∉ bytes := by
  induction bytes generalizing line with
  | nil =>
    rw [cutLine, Prod.mk.injEq] at h
    exact ⟨h.1.symm, List.not_mem_nil⟩
  | cons byte rest ih =>
    unfold cutLine at h
    by_cases hb : byte = Utf8.lineFeed
    · rw [if_pos hb, Prod.mk.injEq] at h
      exact absurd h.2 (by simp)
    · rw [if_neg hb, Prod.mk.injEq] at h
      have hcut : cutLine rest = ((cutLine rest).1, none) := Prod.ext rfl h.2
      have hrest := ih hcut
      refine ⟨by rw [← h.1, hrest.1], ?_⟩
      rw [List.mem_cons, not_or]
      exact ⟨fun e => hb e.symm, hrest.2⟩

/-- What a line and the place behind it have to do with the bytes that were to come:
either the line ends with the first line feed among them and the others are still to
come, or there was no line feed, the line is all of them and nothing is to come. -/
def Takes (bytes line rest : List UInt8) : Prop :=
  (∃ before, Utf8.lineFeed ∉ before ∧ line = before ++ [Utf8.lineFeed] ∧
      bytes = before ++ Utf8.lineFeed :: rest) ∨
    (Utf8.lineFeed ∉ bytes ∧ line = bytes ∧ rest = [])

theorem Takes.append_left {bytes line rest front : List UInt8} (h : Takes bytes line rest)
    (hfront : Utf8.lineFeed ∉ front) : Takes (front ++ bytes) (front ++ line) rest := by
  rcases h with ⟨before, hmem, hline, hbytes⟩ | ⟨hmem, hline, hrest⟩
  · refine Or.inl ⟨front ++ before, ?_, ?_, ?_⟩
    · rw [List.mem_append, not_or]
      exact ⟨hfront, hmem⟩
    · rw [hline, List.append_assoc]
    · rw [hbytes, List.append_assoc]
  · refine Or.inr ⟨?_, by rw [hline], hrest⟩
    rw [List.mem_append, not_or]
    exact ⟨hfront, hmem⟩

theorem Takes.of_cutLine {bytes line held : List UInt8} (h : cutLine bytes = (line, some held))
    (behind : List UInt8) : Takes (bytes ++ behind) line (held ++ behind) := by
  obtain ⟨before, hmem, hline, hbytes⟩ := cutLine_some h
  exact Or.inl ⟨before, hmem, hline, by rw [hbytes, List.append_assoc, List.cons_append]⟩

/-- There is no next line only where nothing is to come. -/
theorem Takes.eq_nil {bytes rest : List UInt8} (h : Takes bytes [] rest) : bytes = [] := by
  rcases h with ⟨before, _, hline, _⟩ | ⟨_, hline, _⟩
  · exact absurd hline.symm (List.append_ne_nil_of_right_ne_nil _ (List.cons_ne_nil _ _))
  · exact hline.symm

/-- The next line is the first stretch of the bytes that were to come. -/
theorem Takes.stretches_eq {bytes line rest : List UInt8} (h : Takes bytes line rest)
    (hne : line ≠ []) : Piece.stretches bytes = line :: Piece.stretches rest := by
  rcases h with ⟨before, hmem, hline, hbytes⟩ | ⟨hmem, hline, hrest⟩
  · rw [hbytes, hline, Piece.stretches_append_lineFeed hmem]
  · rw [hrest, hline, Piece.stretches_of_notMem hmem (hline ▸ hne), Piece.stretches_nil]

/-- A line leaves less to come. -/
theorem Takes.length_lt {bytes line rest : List UInt8} (h : Takes bytes line rest)
    (hne : line ≠ []) : rest.length < bytes.length := by
  rcases h with ⟨before, _, _, hbytes⟩ | ⟨_, hline, hrest⟩
  · rw [hbytes, List.length_append, List.length_cons]
    omega
  · rw [hrest, ← hline]
    exact List.length_pos_iff.mpr hne

theorem takes_fetchLine (content : ByteArray) (fetched : Nat) :
    Takes (content.data.toList.drop fetched) (fetchLine content fetched).1
      (remaining content (fetchLine content fetched).2) := by
  fun_induction fetchLine content fetched with
  | case1 fetched bytes h =>
    have hdrop := drop_eq_nil_of_block_eq_nil h
    refine Or.inr ⟨by rw [hdrop]; exact List.not_mem_nil, hdrop.symm, ?_⟩
    rw [remaining, hdrop, List.append_nil]
  | case2 fetched bytes h _ line held hcut =>
    rw [← block_append_drop content fetched]
    exact Takes.of_cutLine hcut _
  | case3 fetched bytes h _ line hcut more ih =>
    rw [← block_append_drop content fetched]
    obtain ⟨hline, hmem⟩ := cutLine_none hcut
    rw [hline]
    exact ih.append_left hmem

/-- The next line takes the bytes up to the first line feed that is to come. -/
theorem takes_next (content : ByteArray) (cursor : Cursor) :
    Takes (cursor.remaining content) (cursor.next content).1
      ((cursor.next content).2.remaining content) := by
  unfold next
  split
  · next line held hcut => exact Takes.of_cutLine hcut _
  · next line hcut =>
    obtain ⟨hline, hmem⟩ := cutLine_none hcut
    rw [hline]
    exact (takes_fetchLine content cursor.fetched).append_left hmem

end Cursor
end PrintPath
