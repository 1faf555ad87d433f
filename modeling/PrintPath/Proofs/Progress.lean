import PrintPath.Number.Nearest
import PrintPath.Proofs.Agreement
import PrintPath.Proofs.History

/-!
# What an observer is told of the progress

At each layer marker the observer is told a fraction.  It is that of the bytes which have been
read, the marker's line and its end included, among all bytes of the input (`markEnds`).  There
are two things to say of these fractions.

* The numbers of bytes rise from marker to marker, because no line is empty, and they end at the
  size of the input (`pairwise_markEnds`).
* A larger number of bytes is no smaller fraction (`fraction_mono`), and no fraction lies below
  zero or above one (`fraction_between`), even if fewer bytes were announced than there are.  For
  this the rounding of numbers and of quotients has to keep their order.

So whoever never stops a reading sees the progress climb (`progress_reading`).
-/

namespace PrintPath

open GCode Number

/-! ## The bytes up to a marker -/

/-- How many bytes have been read when the layer markers among some lines have been: the bytes of
the marker's line and of all lines in front of it. -/
def markEnds {α : Type} (line : α → Line) (size : List α → Nat) (entries : List α) : List Nat :=
  alongHistory
    (fun front entry => if (line entry).layerBoundary then [size (front ++ [entry])] else [])
    entries

/-- The bytes of some lines in memory: those of each line, and one for its end. -/
def sizeOfLines (lines : List String) : Nat :=
  (lines.map fun line => line.utf8ByteSize + 1).sum

/-- The bytes up to the markers of lines in memory. -/
def markEndsOfLines (lines : List String) : List Nat :=
  markEnds (fun line => (Piece.ofLine line).line) sizeOfLines lines

/-- The bytes up to the markers of a byte sequence: those of the stretches that hold the lines,
with their ends. -/
def markEndsOfContent (bytes : List UInt8) : List Nat :=
  markEnds (fun stretch => (Piece.ofBytes stretch).line) (fun front => front.flatten.length)
    (Piece.stretches bytes)

/-- What an observer was told, `calls`, fits the numbers of bytes up to the layer markers,
`ends`, of an input of which there are said to be `total` bytes. -/
structure TellsProgress (ends : List Nat) (total : Nat) (calls : List Float) : Prop where
  /-- Each call gives the fraction of the bytes up to its marker. -/
  calls_eq : calls = ends.map fun reached => fraction reached total
  /-- At each marker more has been read than at the one before. -/
  increasing : ends.Pairwise (· < ·)
  between : ∀ x ∈ calls, 0.0 ≤ x ∧ x ≤ 1.0
  climbing : calls.Pairwise (· ≤ ·)

theorem markEnds_concat {α : Type} (line : α → Line) (size : List α → Nat) (front : List α)
    (entry : α) :
    markEnds line size (front ++ [entry]) =
      markEnds line size front ++
        if (line entry).layerBoundary then [size (front ++ [entry])] else [] :=
  alongHistory_concat _ front entry

theorem markEnds_map {α β : Type} (make : α → β) (line : β → Line) (size : List β → Nat)
    (entries : List α) :
    markEnds line size (entries.map make) =
      markEnds (fun entry => line (make entry)) (fun front => size (front.map make)) entries := by
  induction entries using List.reverseRecOn with
  | nil => rfl
  | append_singleton front entry ih =>
    rw [markEnds_concat, List.map_append, List.map_singleton, markEnds_concat, ih]

namespace Piece

theorem totalSize_concat (front : List Piece) (piece : Piece) :
    totalSize (front ++ [piece]) = totalSize front + piece.size := by
  induction front with
  | nil => exact Nat.add_comm _ _
  | cons other front ih =>
    show other.size + totalSize (front ++ [piece]) = other.size + totalSize front + piece.size
    rw [ih, Nat.add_assoc]

theorem totalSize_ofLines (lines : List String) :
    totalSize (lines.map ofLine) = sizeOfLines lines := by
  induction lines with
  | nil => rfl
  | cons line lines ih =>
    show line.utf8ByteSize + 1 + totalSize (lines.map ofLine) = _
    rw [ih]
    rfl

/-- A line in memory has an end. -/
theorem size_pos_of_mem_ofLines {lines : List String} {piece : Piece}
    (h : piece ∈ ofLines lines) : 0 < piece.size := by
  obtain ⟨line, -, rfl⟩ := List.mem_map.mp h
  exact Nat.succ_pos _

theorem ne_nil_of_mem_consByte {byte : UInt8} {ls : List (List UInt8)} (h : ∀ l ∈ ls, l ≠ [])
    {stretch : List UInt8} (hmem : stretch ∈ consByte byte ls) : stretch ≠ [] := by
  unfold consByte at hmem
  split at hmem
  · rcases List.mem_cons.mp hmem with rfl | hmem
    · exact List.cons_ne_nil _ _
    · exact h stretch hmem
  · split at hmem
    · rw [List.mem_singleton.mp hmem]
      exact List.cons_ne_nil _ _
    · next first rest =>
      rcases List.mem_cons.mp hmem with rfl | hmem
      · exact List.cons_ne_nil _ _
      · exact h stretch (List.mem_cons_of_mem first hmem)

/-- No stretch of bytes is empty. -/
theorem ne_nil_of_mem_stretches {bytes stretch : List UInt8} (h : stretch ∈ stretches bytes) :
    stretch ≠ [] := by
  induction bytes generalizing stretch with
  | nil => exact absurd h List.not_mem_nil
  | cons byte bytes ih => exact ne_nil_of_mem_consByte (fun _ hmem => ih hmem) h

theorem size_pos_of_mem_ofContent {bytes : List UInt8} {piece : Piece}
    (h : piece ∈ ofContent bytes) : 0 < piece.size := by
  obtain ⟨stretch, hstretch, rfl⟩ := List.mem_map.mp h
  exact List.length_pos_iff.mpr (ne_nil_of_mem_stretches hstretch)

/-- A marker at the end adds the fraction of all bytes. -/
theorem markFractions_concat (total consumed : Nat) (front : List Piece) (piece : Piece) :
    markFractions total consumed (front ++ [piece]) =
      markFractions total consumed front ++
        if piece.line.layerBoundary then
          [fraction (consumed + totalSize (front ++ [piece])) total]
        else [] := by
  induction front generalizing consumed with
  | nil => rfl
  | cons other front ih =>
    have hsize : totalSize (other :: (front ++ [piece])) =
        other.size + totalSize (front ++ [piece]) := rfl
    rw [List.cons_append, markFractions, markFractions, ih, hsize, ← Nat.add_assoc]
    split
    · rw [List.cons_append]
    · rfl

/-- **The fractions at the markers are those of the bytes up to the markers.** -/
theorem markFractions_eq (total : Nat) (pieces : List Piece) :
    markFractions total 0 pieces =
      (markEnds line totalSize pieces).map fun reached => fraction reached total := by
  induction pieces using List.reverseRecOn with
  | nil => rfl
  | append_singleton front piece ih =>
    rw [markFractions_concat, markEnds_concat, ih, List.map_append, Nat.zero_add]
    split <;> rfl

/-- **From marker to marker there is more read**, and never more than there is. -/
theorem pairwise_markEnds {pieces : List Piece} (h : ∀ piece ∈ pieces, 0 < piece.size) :
    (markEnds line totalSize pieces).Pairwise (· < ·) ∧
      ∀ reached ∈ markEnds line totalSize pieces, reached ≤ totalSize pieces := by
  induction pieces using List.reverseRecOn with
  | nil => exact ⟨.nil, fun _ hmem => absurd hmem List.not_mem_nil⟩
  | append_singleton front piece ih =>
    obtain ⟨hfront, hmost⟩ := ih fun other hother => h other (List.mem_append_left _ hother)
    have hpos : 0 < piece.size := h piece (List.mem_append_right _ List.mem_cons_self)
    have hsize := totalSize_concat front piece
    rw [markEnds_concat]
    split
    · refine ⟨List.pairwise_append.mpr ⟨hfront, List.pairwise_singleton _ _, ?_⟩, ?_⟩
      · intro reached hreached last hlast
        have hle := hmost reached hreached
        rw [List.mem_singleton.mp hlast]
        omega
      · intro reached hreached
        rcases List.mem_append.mp hreached with hold | hlast
        · have hle := hmost reached hold
          omega
        · rw [List.mem_singleton.mp hlast]
    · rw [List.append_nil]
      refine ⟨hfront, fun reached hreached => ?_⟩
      have hle := hmost reached hreached
      omega

end Piece

/-! ## Fractions -/

section

variable {total : Nat} (htotal : total < 2 ^ 64)

include htotal in
/-- A number of bytes that a 64-bit word holds is far from being too large for a double. -/
theorem cast_le_of_lt : (total : ℝ) ≤ 2 ^ (1023 : ℤ) := by
  have hcast : (total : ℝ) ≤ 2 ^ (64 : ℤ) := by
    exact_mod_cast htotal.le
  exact hcast.trans (zpow_le_zpow_right₀ one_le_two (by norm_num))

include htotal in
/-- A number of bytes to divide by is finite and not below one. -/
theorem one_le_ofNat (hpos : total ≠ 0) :
    (Float.ofNat total).isFinite ∧ 1.0 ≤ Float.ofNat total := by
  have hfinite := isFinite_ofNat (cast_le_of_lt htotal)
  have hone : (1 : ℝ) ≤ total := by
    exact_mod_cast Nat.one_le_iff_ne_zero.mpr hpos
  have hle := (rounds_ofNat total).le 1 (real_one ▸ representable_real rfl) hone
  rw [extended_of_isFinite hfinite, EReal.coe_le_coe_iff] at hle
  refine ⟨hfinite, ?_⟩
  rwa [le_iff_real rfl hfinite, real_one]

include htotal in
/-- A quotient of numbers of bytes is not negative. -/
theorem nonneg_quotient (hpos : total ≠ 0) (reached : Nat) :
    0.0 ≤ Float.ofNat reached / Float.ofNat total := by
  obtain ⟨hfinite, hone⟩ := one_le_ofNat htotal hpos
  refine nonneg_div ((rounds_ofNat reached).nonneg (Nat.cast_nonneg reached)) ?_ hfinite
  rw [le_iff_real rfl hfinite, real_one] at hone
  rw [lt_iff_real rfl hfinite]
  exact one_pos.trans_le hone

include htotal in
/-- **A fraction lies between zero and one**, however many bytes there are said to be. -/
theorem fraction_between (reached : Nat) :
    0.0 ≤ fraction reached total ∧ fraction reached total ≤ 1.0 := by
  unfold fraction
  split
  · exact ⟨by decide, by decide⟩
  · next hpos =>
    have hnonneg := nonneg_quotient htotal hpos reached
    simp only
    split
    · exact ⟨by decide, by decide⟩
    · next hnot =>
      refine ⟨hnonneg, ?_⟩
      rcases not_lt_iff.mp hnot with hnan | hnan | hle
      · exact absurd hnan (by decide)
      · rw [(nonneg_iff_extended.mp hnonneg).1] at hnan
        exact absurd hnan Bool.false_ne_true
      · exact hle

include htotal in
/-- Whoever has read all bytes has read all of them, or more. -/
theorem one_le_quotient (hpos : total ≠ 0) {reached : Nat} (h : total ≤ reached) :
    1.0 ≤ Float.ofNat reached / Float.ofNat total := by
  obtain ⟨hfinite, hone⟩ := one_le_ofNat htotal hpos
  have hself : 1.0 ≤ Float.ofNat total / Float.ofNat total := by
    rw [le_iff_real rfl (isFinite_div hfinite hfinite hone), real_one, real_div_self hfinite hone]
  exact le_of_le_of_le hself
    (div_mono hfinite hfinite hone (ofNat_mono (cast_le_of_lt htotal) h))

/-- Cutting two numbers off at one keeps their order. -/
theorem cut_mono {x y : Float} (h : x ≤ y) :
    (if 1.0 < x then 1.0 else x) ≤ if 1.0 < y then 1.0 else y := by
  by_cases hy : 1.0 < y
  · rw [if_pos hy]
    split
    · decide
    · next hx =>
      rcases not_lt_iff.mp hx with hnan | hnan | hle
      · exact absurd hnan (by decide)
      · rw [(le_iff_extended.mp h).1] at hnan
        exact absurd hnan Bool.false_ne_true
      · exact hle
  · have hx : ¬ 1.0 < x := by
      intro hx
      obtain ⟨hone, -, hlt⟩ := lt_iff_extended.mp hx
      obtain ⟨-, hnumber, hle⟩ := le_iff_extended.mp h
      exact hy (lt_iff_extended.mpr ⟨hone, hnumber, hlt.trans_le hle⟩)
    rw [if_neg hx, if_neg hy]
    exact h

include htotal in
/-- **A larger number of bytes is no smaller fraction.** -/
theorem fraction_mono {few many : Nat} (h : few ≤ many) :
    fraction few total ≤ fraction many total := by
  by_cases hpos : total = 0
  · unfold fraction
    rw [if_pos hpos, if_pos hpos]
    decide
  · obtain ⟨hfinite, hone⟩ := one_le_ofNat htotal hpos
    have hvalue (reached : Nat) : fraction reached total =
        if 1.0 < Float.ofNat reached / Float.ofNat total then 1.0
        else Float.ofNat reached / Float.ofNat total := if_neg hpos
    rcases le_or_gt total many with hall | hless
    · -- all has been read, so that the larger fraction is cut off at one
      have hcut := cut_mono (one_le_quotient htotal hpos hall)
      rw [if_neg (by decide), ← hvalue] at hcut
      exact le_of_le_of_le (fraction_between htotal few).2 hcut
    · have hfew := cast_le_of_lt (lt_of_le_of_lt (h.trans hless.le) htotal)
      rw [hvalue, hvalue]
      exact cut_mono (div_mono (isFinite_ofNat hfew) hfinite hone (ofNat_mono hfew h))

end

/-! ## Readings that nobody stops -/

/-- An observer that never stops a reading is told all fractions. -/
theorem Observer.told_of_proceeds {σ : Type} {observer : Observer σ}
    (h : ∀ state progress, (observer state progress).verdict = .proceed) (state : σ)
    (fractions : List Float) : observer.told state fractions = fractions := by
  induction fractions generalizing state with
  | nil => rfl
  | cons progress rest ih => rw [told_of_proceed rfl (h state progress), ih]

section

variable {σ : Type} (setup : Setup) {observer : Observer σ}
  (hproceeds : ∀ state progress, (observer state progress).verdict = .proceed) (state : σ)

include hproceeds

/-- However an input is cut into pieces, an observer that never stops sees it progress. -/
theorem tellsProgress_readPieces {total : Nat} (htotal : total < 2 ^ 64) {pieces : List Piece}
    (hsize : ∀ piece ∈ pieces, 0 < piece.size) :
    TellsProgress (markEnds Piece.line Piece.totalSize pieces) total
      (readPieces setup observer.recording (state, []) total pieces).state.2 := by
  obtain ⟨hcalls, -⟩ := shows_readPieces setup observer state total pieces
  rw [Observer.told_of_proceeds hproceeds, Piece.markFractions_eq] at hcalls
  have hincreasing := (Piece.pairwise_markEnds hsize).1
  refine ⟨hcalls, hincreasing, ?_, ?_⟩
  · rw [hcalls]
    intro x hx
    obtain ⟨reached, -, rfl⟩ := List.mem_map.mp hx
    exact fraction_between htotal reached
  · rw [hcalls, List.pairwise_map]
    exact hincreasing.imp fun hlt => fraction_mono htotal (Nat.le_of_lt hlt)

/-- **The progress of a reading is told faithfully and climbs.**  An observer that never stops
the reading is told at each layer marker the fraction of the bytes up to the end of its line.
These bytes become more from marker to marker and are never more than there are; and whatever
the number of bytes is said to be, the fractions lie between zero and one and never fall.  That
holds of lines in memory, of bytes, and of a file that nobody changes. -/
theorem progress_reading :
    (∀ lines : List String, sizeOfLines lines < 2 ^ 64 →
      TellsProgress (markEndsOfLines lines) (sizeOfLines lines)
          (readLines setup observer.recording (state, []) lines).state.2 ∧
        ∀ reached ∈ markEndsOfLines lines, reached ≤ sizeOfLines lines) ∧
      (∀ (bytes : List UInt8) (total : Nat), total < 2 ^ 64 →
        TellsProgress (markEndsOfContent bytes) total
            (readContent setup observer.recording (state, []) bytes total).state.2 ∧
          ∀ reached ∈ markEndsOfContent bytes, reached ≤ bytes.length) ∧
      ∀ file : ByteArray, file.size < 2 ^ 64 →
        TellsProgress (markEndsOfContent file.data.toList) file.size
          (readFile setup observer.recording (fun _ => file) (state, [])).state.2 := by
  have hlines (lines : List String) : markEndsOfLines lines =
      markEnds Piece.line Piece.totalSize (Piece.ofLines lines) := by
    rw [Piece.ofLines, markEnds_map]
    simp only [Piece.totalSize_ofLines]
    rfl
  have hcontent (bytes : List UInt8) : markEndsOfContent bytes =
      markEnds Piece.line Piece.totalSize (Piece.ofContent bytes) := by
    rw [Piece.ofContent, markEnds_map]
    simp only [Piece.totalSize_map_ofBytes]
    rfl
  have hread (bytes : List UInt8) (total : Nat) (htotal : total < 2 ^ 64) :
      TellsProgress (markEndsOfContent bytes) total
        (readContent setup observer.recording (state, []) bytes total).state.2 := by
    rw [hcontent]
    exact tellsProgress_readPieces setup hproceeds state htotal
      fun _ => Piece.size_pos_of_mem_ofContent
  refine ⟨?_, ?_, ?_⟩
  · intro lines htotal
    rw [hlines, ← Piece.totalSize_ofLines] at *
    exact ⟨tellsProgress_readPieces setup hproceeds state htotal
      fun _ => Piece.size_pos_of_mem_ofLines,
        (Piece.pairwise_markEnds fun _ => Piece.size_pos_of_mem_ofLines).2⟩
  · intro bytes total htotal
    refine ⟨hread bytes total htotal, ?_⟩
    rw [hcontent, ← Piece.totalSize_ofContent]
    exact (Piece.pairwise_markEnds fun _ => Piece.size_pos_of_mem_ofContent).2
  · intro file htotal
    rw [readFile_eq_readContent (P := fun _ => True) (fun _ _ => rfl) (fun _ _ _ => trivial)
      trivial]
    exact hread _ _ htotal

end

/-- Two markers, the second in a line that ends with a carriage return, and a letter of two bytes
between them. -/
def twoMarkers : List String :=
  ["G1 Z0.2", ";LAYER:0", "; é", ";LAYER:1\r"]

/-- The markers of `twoMarkers` end behind 17 and 32 of 32 bytes, in memory and in a file.  If
there are said to be ten bytes, everything has been read at either marker. -/
theorem progress_reading_twoMarkers :
    let file : ByteArray := ⟨(Piece.contentOf twoMarkers).toArray⟩
    (∀ (state : Unit) progress, (Observer.silent state progress).verdict = .proceed) ∧
      sizeOfLines twoMarkers < 2 ^ 64 ∧ 10 < 2 ^ 64 ∧ file.size < 2 ^ 64 ∧
      (readLines ⟨.builtIn, .standard⟩ Observer.silent.recording ((), []) twoMarkers).state.2 =
        [0.53125, 1.0] ∧
      (readContent ⟨.builtIn, .standard⟩ Observer.silent.recording ((), [])
        (Piece.contentOf twoMarkers) 10).state.2 = [1.0, 1.0] ∧
      (readFile ⟨.builtIn, .standard⟩ Observer.silent.recording (fun _ => file)
        ((), [])).state.2 = [0.53125, 1.0] := by
  intro file
  have hproceeds : ∀ (state : Unit) progress,
      (Observer.silent state progress).verdict = .proceed := fun _ _ => rfl
  obtain ⟨hlines, hcontent, hfile⟩ := progress_reading ⟨.builtIn, .standard⟩ hproceeds ()
  have hends : markEndsOfLines twoMarkers = [17, 32] ∧ sizeOfLines twoMarkers = 32 ∧
      markEndsOfContent (Piece.contentOf twoMarkers) = [17, 32] ∧ file.size = 32 := by
    decide
  have hfractions : fraction 17 32 = 0.53125 ∧ fraction 32 32 = 1.0 ∧ fraction 17 10 = 1.0 ∧
      fraction 32 10 = 1.0 := by
    decide +kernel
  have hsize : sizeOfLines twoMarkers < 2 ^ 64 ∧ file.size < 2 ^ 64 := by
    rw [hends.2.1, hends.2.2.2]
    norm_num
  refine ⟨hproceeds, hsize.1, by norm_num, hsize.2, ?_, ?_, ?_⟩
  · rw [(hlines twoMarkers hsize.1).1.calls_eq, hends.1, hends.2.1]
    simp only [List.map_cons, List.map_nil, hfractions]
  · rw [(hcontent (Piece.contentOf twoMarkers) 10 (by norm_num)).1.calls_eq, hends.2.2.1]
    simp only [List.map_cons, List.map_nil, hfractions]
  · have hcalls := (hfile file hsize.2).calls_eq
    have hsame : markEndsOfContent file.data.toList = [17, 32] := hends.2.2.1
    rw [hcalls, hsame, hends.2.2.2]
    simp only [List.map_cons, List.map_nil, hfractions]

end PrintPath
