import PrintPath.Proofs.Feeding
import PrintPath.Reading.Load

/-!
# Observing a reading does not change it

An observer is told, at each layer marker, which fraction of the input was read.  All it
can do to the reading is to stop it, and then the layers that were complete are the
result.  So two readings of one input are compared here: the observed one, and the one
that nobody observes.

`Observer.Shows` says how the first follows from the second.  The observer is told the
fractions at the markers, in order, up to the one at which it stops.  If it stops at
none, the outcome is the unobserved one.  If it stops at the marker with index `k`, the
outcome is cancelled at the fraction it was told there, with the first `k + 1` layers
of the unobserved one.

There are two reasons for this.

* What an observer notes goes to the journal, and nothing that a pass computes depends
  on the journal: a pass may be stripped of its notes before it goes on (`bare_feed`).
* A complete layer stays what it is.  The layers that were complete at a marker are
  still the first ones at the end, whatever the rest of the marker's own line and the
  lines behind it do (`take_closed_feedAll`).
-/

namespace PrintPath

open GCode

/-! ## What an observer is told and what it decides -/

namespace Observer

variable {σ : Type}

/-- The observer that behaves like another one and writes down what it is told. -/
def recording (observer : Observer σ) : Observer (σ × List Float) :=
  fun state progress =>
    let reply := observer state.1 progress
    ⟨(reply.state, state.2 ++ [progress]), reply.verdict, reply.notes⟩

/-- What an observer decides when it is told some fractions, one after the other. -/
def verdicts (observer : Observer σ) : σ → List Float → List Verdict
  | _, [] => []
  | state, progress :: rest =>
    (observer state progress).verdict :: observer.verdicts (observer state progress).state rest

/-- The index of the first of some fractions at which an observer stops, if it stops. -/
def stopsAt? (observer : Observer σ) (state : σ) (fractions : List Float) : Option Nat :=
  (observer.verdicts state fractions).findIdx? (· = .stop)

/-- The fractions that an observer is told before it has stopped the reading: all of
them, or those up to the one at which it stops. -/
def told (observer : Observer σ) (state : σ) (fractions : List Float) : List Float :=
  match observer.stopsAt? state fractions with
  | none => fractions
  | some k => fractions.take (k + 1)

/-- How an observed reading comes from the reading `full` of the same input that nobody
observes, where `fractions` are the fractions of the input at its layer markers: these
are the calls that the observer gets, and this is the outcome. -/
def Shows (observer : Observer σ) (state : σ) (fractions : List Float) (full : Outcome)
    (calls : List Float) (outcome : Outcome) : Prop :=
  calls = observer.told state fractions ∧
    match observer.stopsAt? state fractions with
    | none => outcome = full
    | some k => ∃ toolpath progress,
        full = .completed toolpath ∧ fractions[k]? = some progress ∧
          k + 1 < toolpath.layers.size ∧
            outcome = .cancelled (toolpath.layers.take (k + 1)) progress

section

variable {observer : Observer σ} {state : σ} {progress : Float} {reply : Reply σ}
  (hreply : observer state progress = reply)

include hreply

theorem stopsAt?_of_stop (h : reply.verdict = .stop) (rest : List Float) :
    observer.stopsAt? state (progress :: rest) = some 0 := by
  unfold stopsAt?
  rw [verdicts, List.findIdx?_cons, hreply, h]
  rfl

theorem stopsAt?_of_proceed (h : reply.verdict = .proceed) (rest : List Float) :
    observer.stopsAt? state (progress :: rest) =
      (observer.stopsAt? reply.state rest).map (· + 1) := by
  unfold stopsAt?
  rw [verdicts, List.findIdx?_cons, hreply, h]
  rfl

theorem told_of_stop (h : reply.verdict = .stop) (rest : List Float) :
    observer.told state (progress :: rest) = [progress] := by
  unfold told
  rw [stopsAt?_of_stop hreply h]
  rfl

theorem told_of_proceed (h : reply.verdict = .proceed) (rest : List Float) :
    observer.told state (progress :: rest) = progress :: observer.told reply.state rest := by
  unfold told
  rw [stopsAt?_of_proceed hreply h]
  cases observer.stopsAt? reply.state rest with
  | none => rfl
  | some k => rfl

end

/-- **Only where an observer stops matters.**  Two observers that stop one reading at the
same marker are shown the same outcome. -/
theorem Shows.outcome_eq {τ : Type} {observer : Observer σ} {other : Observer τ} {state : σ}
    {start : τ} {fractions : List Float} {full : Outcome} {calls calls' : List Float}
    {outcome outcome' : Outcome} (h : observer.Shows state fractions full calls outcome)
    (h' : other.Shows start fractions full calls' outcome')
    (hstops : observer.stopsAt? state fractions = other.stopsAt? start fractions) :
    outcome = outcome' := by
  obtain ⟨-, h⟩ := h
  obtain ⟨-, h'⟩ := h'
  rw [← hstops] at h'
  cases hk : observer.stopsAt? state fractions with
  | none =>
    rw [hk] at h h'
    exact h.trans h'.symm
  | some k =>
    rw [hk] at h h'
    obtain ⟨toolpath, progress, hfull, hprogress, -, houtcome⟩ := h
    obtain ⟨toolpath', progress', hfull', hprogress', -, houtcome'⟩ := h'
    have htoolpath : toolpath = toolpath' := Outcome.completed.inj (hfull.symm.trans hfull')
    have hsame : progress = progress' := Option.some.inj (hprogress.symm.trans hprogress')
    rw [houtcome, houtcome', htoolpath, hsame]

/-- The silent observer never stops. -/
theorem stopsAt?_silent (fractions : List Float) : silent.stopsAt? () fractions = none := by
  induction fractions with
  | nil => rfl
  | cons progress rest ih =>
    rw [stopsAt?_of_proceed rfl rfl, ih]
    rfl

end Observer

namespace Piece

/-- What is read of a piece. -/
def line (piece : Piece) : Line :=
  Line.read piece.text

/-- The fractions of an input of `total` bytes that were read at its layer markers.  The
bytes that were `consumed` before the pieces count, and so does the marker's line. -/
def markFractions (total : Nat) : Nat → List Piece → List Float
  | _, [] => []
  | consumed, piece :: rest =>
    if piece.line.layerBoundary then
      fraction (consumed + piece.size) total :: markFractions total (consumed + piece.size) rest
    else markFractions total (consumed + piece.size) rest

end Piece

namespace Pass

variable (setup : Setup)

/-! ## The notes of a pass -/

/-- A pass without its notes. -/
def bare (pass : Pass) : Pass :=
  { pass with notes := #[] }

@[simp] theorem finish_bare (pass : Pass) : pass.bare.finish = pass.finish := rfl

@[simp] theorem builder_bare (pass : Pass) : pass.bare.builder = pass.builder := rfl

@[simp] theorem builder_noteAll (pass : Pass) (notes : List Note) :
    (pass.noteAll notes).builder = pass.builder := rfl

@[simp] theorem bare_noteAll (pass : Pass) (notes : List Note) :
    (pass.noteAll notes).bare = pass.bare := rfl

theorem bare_announce (pass : Pass) (line : Line) :
    (pass.announce line).bare = (pass.bare.announce line).bare := by
  unfold announce
  simp only
  split <;> rfl

theorem bare_selectTool (pass : Pass) (tool : Option Int) :
    (pass.selectTool setup tool).bare = (pass.bare.selectTool setup tool).bare := by
  cases tool with
  | none => rfl
  | some index =>
    show (if _ then if index.toNat = pass.machine.tool then _ else _ else _ : Pass).bare =
      (if _ then if index.toNat = pass.machine.tool then _ else _ else _ : Pass).bare
    by_cases hfits : Number.FitsUInt32 index
    · rw [if_pos hfits, if_pos hfits]
      by_cases hsame : index.toNat = pass.machine.tool
      · rw [if_pos hsame, if_pos hsame]
        rfl
      · rw [if_neg hsame, if_neg hsame]
        rfl
    · rw [if_neg hfits, if_neg hfits]
      rfl

theorem bare_move (pass : Pass) (target : Axes (Option Float))
    (extrusion feedRate : Option Float) :
    (pass.move setup target extrusion feedRate).bare =
      (pass.bare.move setup target extrusion feedRate).bare := by
  unfold move
  simp only
  split
  · next h =>
    have hbare : target.any Option.isSome ∧
        ¬ 0.0 < (pass.bare.machine.move setup.rule target extrusion feedRate).feedRate := h
    rw [if_pos hbare]
    rfl
  · next h =>
    have hbare : ¬ (target.any Option.isSome ∧
        ¬ 0.0 < (pass.bare.machine.move setup.rule target extrusion feedRate).feedRate) := h
    rw [if_neg hbare]
    rfl

theorem bare_execute (pass : Pass) (command : Option Command) :
    (pass.execute setup command).bare = (pass.bare.execute setup command).bare := by
  rcases command with _ | command
  · rfl
  · cases command with
    | move target extrusion feedRate => exact bare_move setup pass target extrusion feedRate
    | _ => rfl

/-- Steps that do not depend on the notes may be taken one after the other. -/
theorem bare_congr {step : Pass → Pass} (hstep : ∀ pass, (step pass).bare = (step pass.bare).bare)
    {p q : Pass} (h : p.bare = q.bare) : (step p).bare = (step q).bare := by
  rw [hstep p, h, ← hstep q]

/-- **What a line does to a pass does not depend on the notes.** -/
theorem bare_feed (pass : Pass) (line : Line) :
    (pass.feed setup line).bare = (pass.bare.feed setup line).bare := by
  refine bare_congr (fun pass => bare_execute setup pass line.command) ?_
  refine bare_congr (fun pass => bare_selectTool setup pass line.tool) ?_
  exact bare_announce { pass with line := pass.line + 1 } line

/-- Passes that differ in their notes only still do behind some lines. -/
theorem bare_feedAll {p q : Pass} (h : p.bare = q.bare) (lines : List Line) :
    (p.feedAll setup lines).bare = (q.feedAll setup lines).bare := by
  induction lines generalizing p q with
  | nil => exact h
  | cons line lines ih => exact ih (bare_congr (fun pass => bare_feed setup pass line) h)

/-! ## Complete layers -/

/-- **Complete layers stay what they are**, and stay the first ones. -/
theorem take_closed_feedAll (pass : Pass) (lines : List Line) :
    pass.builder.closed.size ≤ (pass.feedAll setup lines).builder.closed.size ∧
      (pass.feedAll setup lines).builder.closed.take pass.builder.closed.size =
        pass.builder.closed := by
  refine builder_feedAll (P := fun b => pass.builder.closed.size ≤ b.closed.size ∧
    b.closed.take pass.builder.closed.size = pass.builder.closed) setup ?_ ?_ lines
  · rintro b operation ⟨hsize, htake⟩
    cases operation with
    | push kind pathType thickness point =>
      show _ ≤ (b.push kind pathType thickness point).closed.size ∧
        (b.push kind pathType thickness point).closed.take _ = _
      rw [Builder.closed_push]
      exact ⟨hsize, htake⟩
    | closeLayer =>
      refine ⟨?_, ?_⟩
      · show _ ≤ (b.closed.push b.openLayer).size
        rw [Array.size_push]
        omega
      · show (b.closed.push b.openLayer).take _ = _
        rw [Array.take, Array.extract_push_of_le hsize]
        exact htake
  · exact ⟨Nat.le_refl _, Array.extract_size⟩

/-! ## Piece by piece -/

section Pieces

variable {setup : Setup} {total : Nat} {σ : Type} {observer : Observer σ}
  {consumed : Nat} {state : σ} {piece : Piece}

/-- A line that is no layer marker is read without a word to the observer. -/
theorem readRest_of_plain (h : ¬ piece.line.layerBoundary) (pass : Pass) (rest : List Piece) :
    pass.readRest setup total observer consumed state (piece :: rest) =
      (pass.feed setup piece.line).readRest setup total observer (consumed + piece.size) state
        rest := by
  unfold Piece.line at h ⊢
  rw [readRest, take]
  simp only
  rw [if_neg h]

variable {reply : Reply σ}
  (hreply : observer state (fraction (consumed + piece.size) total) = reply)

include hreply

/-- At a layer marker the reading goes on if the observer lets it. -/
theorem readRest_of_proceed (h : piece.line.layerBoundary) (hverdict : reply.verdict = .proceed)
    (pass : Pass) (rest : List Piece) :
    pass.readRest setup total observer consumed state (piece :: rest) =
      ((pass.feed setup piece.line).noteAll reply.notes).readRest setup total observer
        (consumed + piece.size) reply.state rest := by
  unfold Piece.line at h ⊢
  rw [readRest, take]
  simp only
  rw [if_pos h, hreply, hverdict]

/-- At a layer marker the reading ends if the observer stops it. -/
theorem readRest_of_stop (h : piece.line.layerBoundary) (hverdict : reply.verdict = .stop)
    (pass : Pass) (rest : List Piece) :
    pass.readRest setup total observer consumed state (piece :: rest) =
      ((pass.feed setup piece.line).noteAll reply.notes).cancel
        (fraction (consumed + piece.size) total) reply.state := by
  unfold Piece.line at h ⊢
  rw [readRest, take]
  simp only
  rw [if_pos h, hreply, hverdict]

end Pieces

/-- How a reading ends from a point on at which `base` layers were complete.  Here `full`
is the pass over everything that was left, `fractions` are the fractions at the markers
that were left, and the last argument is the index of the one at which the observer
stops. -/
def EndsAs (base : Nat) (full : Pass) (fractions : List Float) (outcome : Outcome) :
    Option Nat → Prop
  | none => outcome = .completed full.finish
  | some k => ∃ progress, fractions[k]? = some progress ∧
      base + (k + 1) ≤ full.builder.closed.size ∧
        outcome = .cancelled (full.builder.closed.take (base + (k + 1))) progress

/-- The notes of the full pass do not matter. -/
theorem EndsAs.of_bare {base : Nat} {p q : Pass} {fractions : List Float} {outcome : Outcome}
    {stopsAt : Option Nat} (h : EndsAs base p fractions outcome stopsAt) (hbare : p.bare = q.bare) :
    EndsAs base q fractions outcome stopsAt := by
  have hfinish : p.finish = q.finish := by rw [← finish_bare, hbare, finish_bare]
  have hbuilder : p.builder = q.builder := by rw [← builder_bare, hbare, builder_bare]
  cases stopsAt with
  | none =>
    show outcome = .completed q.finish
    rw [← hfinish]
    exact h
  | some k =>
    obtain ⟨progress, hprogress, hle, houtcome⟩ := h
    rw [hbuilder] at hle houtcome
    exact ⟨progress, hprogress, hle, houtcome⟩

/-- A marker that was passed completed a layer. -/
theorem EndsAs.mark {base : Nat} {full : Pass} {fractions : List Float} {outcome : Outcome}
    {stopsAt : Option Nat} (h : EndsAs (base + 1) full fractions outcome stopsAt)
    (progress : Float) :
    EndsAs base full (progress :: fractions) outcome (stopsAt.map (· + 1)) := by
  cases stopsAt with
  | none => exact h
  | some k =>
    obtain ⟨last, hlast, hle, houtcome⟩ := h
    have hcount : base + 1 + (k + 1) = base + (k + 1 + 1) := by omega
    rw [hcount] at hle houtcome
    exact ⟨last, hlast, hle, houtcome⟩

/-- **How a reading ends, from any point on.**  If the observer does not stop it, all
lines that are left are fed.  If it stops at the marker with index `k`, then `k + 1`
layers more are complete than before, and they are the first ones of those that
feeding all lines would complete. -/
theorem endsAs_readRest {σ : Type} (total : Nat) (observer : Observer σ) (pass : Pass)
    (consumed : Nat) (state : σ) (pieces : List Piece) :
    EndsAs pass.builder.closed.size (pass.feedAll setup (pieces.map Piece.line))
      (Piece.markFractions total consumed pieces)
      (pass.readRest setup total observer consumed state pieces).outcome
      (observer.stopsAt? state (Piece.markFractions total consumed pieces)) := by
  induction pieces generalizing pass consumed state with
  | nil => rfl
  | cons piece rest ih =>
    have hsize := size_closed_feed setup pass piece.line
    rw [Piece.markFractions]
    by_cases h : piece.line.layerBoundary
    · rw [if_pos h] at hsize
      rw [if_pos h]
      obtain ⟨reply, hreply⟩ :
          ∃ reply, observer state (fraction (consumed + piece.size) total) = reply := ⟨_, rfl⟩
      cases hverdict : reply.verdict with
      | stop =>
        rw [Observer.stopsAt?_of_stop hreply hverdict, readRest_of_stop hreply h hverdict]
        obtain ⟨hle, htake⟩ :=
          take_closed_feedAll setup (pass.feed setup piece.line) (rest.map Piece.line)
        rw [hsize] at hle htake
        refine ⟨_, rfl, hle, ?_⟩
        show Outcome.cancelled (pass.feed setup piece.line).builder.closed _ = _
        rw [← htake]
        rfl
      | proceed =>
        rw [Observer.stopsAt?_of_proceed hreply hverdict, readRest_of_proceed hreply h hverdict]
        have hrest := ih ((pass.feed setup piece.line).noteAll reply.notes)
          (consumed + piece.size) reply.state
        rw [builder_noteAll, hsize] at hrest
        exact (hrest.of_bare (bare_feedAll setup (bare_noteAll _ _) _)).mark _
    · rw [if_neg h, Nat.add_zero] at hsize
      rw [if_neg h, readRest_of_plain h, ← hsize]
      exact ih (pass.feed setup piece.line) (consumed + piece.size) state

/-! ## What the observer is told -/

/-- Writing down what an observer is told changes nothing else, and what it is told is
what an observer gets to hear that decides alone. -/
theorem readRest_recording {σ : Type} (total : Nat) (observer : Observer σ) (pass : Pass)
    (consumed : Nat) (state : σ) (calls : List Float) (pieces : List Piece) :
    pass.readRest setup total observer.recording consumed (state, calls) pieces =
      { outcome := (pass.readRest setup total observer consumed state pieces).outcome
        state := ((pass.readRest setup total observer consumed state pieces).state,
          calls ++ observer.told state (Piece.markFractions total consumed pieces))
        notes := (pass.readRest setup total observer consumed state pieces).notes } := by
  induction pieces generalizing pass consumed state calls with
  | nil =>
    show pass.complete (state, calls) = ⟨_, (state, calls ++ []), _⟩
    rw [List.append_nil]
    rfl
  | cons piece rest ih =>
    rw [Piece.markFractions]
    by_cases h : piece.line.layerBoundary
    · rw [if_pos h]
      obtain ⟨reply, hreply⟩ :
          ∃ reply, observer state (fraction (consumed + piece.size) total) = reply := ⟨_, rfl⟩
      have hrecorded : observer.recording (state, calls)
          (fraction (consumed + piece.size) total) =
            ⟨(reply.state, calls ++ [fraction (consumed + piece.size) total]), reply.verdict,
              reply.notes⟩ := by
        rw [← hreply]
        rfl
      cases hverdict : reply.verdict with
      | stop =>
        rw [readRest_of_stop hreply h hverdict, readRest_of_stop hrecorded h hverdict,
          Observer.told_of_stop hreply hverdict]
        rfl
      | proceed =>
        rw [readRest_of_proceed hreply h hverdict, readRest_of_proceed hrecorded h hverdict,
          Observer.told_of_proceed hreply hverdict, ih, List.append_assoc]
        rfl
    · rw [if_neg h, readRest_of_plain h, readRest_of_plain h]
      exact ih (pass.feed setup piece.line) (consumed + piece.size) state calls

end Pass

/-! ## The two readings of an input -/

variable {σ : Type} (setup : Setup) (observer : Observer σ) (state : σ)

/-- A reading that nobody observes gives the toolpath of all lines. -/
theorem outcome_readPieces_silent (total : Nat) (pieces : List Piece) :
    (readPieces setup .silent () total pieces).outcome =
      .completed (Pass.start.feedAll setup (pieces.map Piece.line)).finish := by
  have h := Pass.endsAs_readRest setup total .silent .start 0 () pieces
  rw [Observer.stopsAt?_silent] at h
  exact h

/-- A reading of lines that nobody observes gives the toolpath of the run over them. -/
theorem outcome_readLines_silent (lines : List String) :
    (readLines setup .silent () lines).outcome =
      .completed (Pass.run setup (lines.map String.toList)).finish := by
  unfold readLines Piece.ofLines Pass.run
  rw [outcome_readPieces_silent, List.map_map, List.map_map]
  rfl

/-- However an input is cut into pieces, an observer is shown what it should be. -/
theorem shows_readPieces (total : Nat) (pieces : List Piece) :
    observer.Shows state (Piece.markFractions total 0 pieces)
      (readPieces setup .silent () total pieces).outcome
      (readPieces setup observer.recording (state, []) total pieces).state.2
      (readPieces setup observer state total pieces).outcome := by
  have hends := Pass.endsAs_readRest setup total observer .start 0 state pieces
  refine ⟨?_, ?_⟩
  · unfold readPieces
    rw [Pass.readRest_recording]
    exact List.nil_append _
  · rw [outcome_readPieces_silent]
    cases hstops : observer.stopsAt? state (Piece.markFractions total 0 pieces) with
    | none =>
      rw [hstops] at hends
      exact hends
    | some k =>
      rw [hstops] at hends
      obtain ⟨progress, hprogress, hle, houtcome⟩ := hends
      have hzero : Pass.start.builder.closed.size + (k + 1) = k + 1 := Nat.zero_add (k + 1)
      rw [hzero] at hle houtcome
      refine ⟨_, progress, rfl, hprogress, ?_, ?_⟩
      · show _ < (Builder.layers _).size
        rw [Builder.layers, Array.size_push]
        omega
      · show _ = Outcome.cancelled ((Builder.layers _).take (k + 1)) progress
        rw [Builder.layers, Array.take, Array.extract_push_of_le hle]
        exact houtcome

/-- However a reading is observed, the toolpath of one that reaches the end is that of all
lines. -/
theorem eq_finish_of_mem_toolpath? {setup : Setup} {observer : Observer σ} {state : σ}
    {total : Nat} {pieces : List Piece} {t : Toolpath}
    (h : t ∈ (readPieces setup observer state total pieces).outcome.toolpath?) :
    t = (Pass.start.feedAll setup (pieces.map Piece.line)).finish := by
  obtain ⟨-, hshown⟩ := shows_readPieces setup observer state total pieces
  rw [outcome_readPieces_silent] at hshown
  cases hstops : observer.stopsAt? state (Piece.markFractions total 0 pieces) with
  | none =>
    rw [hstops] at hshown
    simp only at hshown
    rw [hshown] at h
    exact (Option.some.inj h).symm
  | some k =>
    rw [hstops] at hshown
    obtain ⟨_, _, -, -, -, houtcome⟩ := hshown
    rw [houtcome] at h
    exact absurd h (Option.not_mem_none t)

/-- **A reading that is stopped gives a prefix of the full one, and an observer that never
stops it cannot be noticed**, for programs in memory and for bytes. -/
theorem shows_reading :
    (∀ lines : List String,
      observer.Shows state
        (Piece.markFractions (Piece.totalSize (Piece.ofLines lines)) 0 (Piece.ofLines lines))
        (readLines setup .silent () lines).outcome
        (readLines setup observer.recording (state, []) lines).state.2
        (readLines setup observer state lines).outcome) ∧
      ∀ (bytes : List UInt8) (total : Nat),
        observer.Shows state
          (Piece.markFractions total 0 (Piece.ofContent bytes))
          (readContent setup .silent () bytes total).outcome
          (readContent setup observer.recording (state, []) bytes total).state.2
          (readContent setup observer state bytes total).outcome := by
  constructor
  · intro lines
    exact shows_readPieces setup observer state _ (Piece.ofLines lines)
  · intro bytes total
    exact shows_readPieces setup observer state total (Piece.ofContent bytes)

end PrintPath
