import PrintPath.Json.Quotation
import PrintPath.Json.Toolpath
import PrintPath.Proofs.Sizes
import PrintPath.Proofs.Spacing

/-!
# The tags of a toolpath tell its path types apart

A path type is published as its tag.  On all path types that loses something, since `other` of a
tag that has a constructor of its own is published like that constructor.  No toolpath holds such
a value.  The path types that get into a machine are canonical (`PathType.Canonical`): each is
the one that its tag denotes, and the tag has no blank at either end.

There are four ways in: the path type a machine starts with, a tag, a bare word, and the
continuation of a segment behind a layer marker.  So `Pass.Canonical` holds in the beginning, one
line preserves it (`Pass.Canonical.feed`), and so does every reading, whether it is stopped or
not and whatever happens to the file meanwhile.

What follows for the segments of a toolpath is that two of them are published with the same text
for a path type exactly if a move of the one would continue the other, as far as path types go
(`TagsTell`).
-/

namespace PrintPath

open GCode

/-! ## Texts that are trimmed -/

namespace Text

/-- A text with no blank at either end. -/
def Trimmed (text : List Char) : Prop :=
  (∀ c ∈ text.head?, ¬ isBlank c) ∧ ∀ c ∈ text.getLast?, ¬ isBlank c

-- only the characters at the ends are tried, and not all characters there are
instance (text : List Char) : Decidable (Trimmed text) :=
  decidable_of_iff
    ((text.head?.all fun c => !isBlank c) ∧ (text.getLast?.all fun c => !isBlank c)) (by
      unfold Trimmed
      simp only [Option.all_eq_true, Bool.not_eq_true', Bool.not_eq_true, Option.mem_def])

/-- What is left when blanks are dropped does not begin with one. -/
theorem not_isBlank_of_mem_head?_dropWhile {text : List Char} {c : Char}
    (h : c ∈ (text.dropWhile isBlank).head?) : ¬ isBlank c := by
  have hhead := List.head?_dropWhile_not isBlank text
  rw [Option.mem_def.mp h] at hhead
  exact Bool.eq_false_iff.mp hhead

/-- Trimming leaves no blank at either end. -/
theorem trimmed_trim (text : List Char) : Trimmed (trim text) := by
  constructor
  · intro c hc
    obtain ⟨tail, -, htext⟩ := exists_dropEndWhile_append isBlank (trimStart text)
    have hstart : c ∈ (trimStart text).head? := by
      rw [htext]
      exact List.mem_head?_append_of_mem_head? hc
    exact not_isBlank_of_mem_head?_dropWhile hstart
  · intro c hc
    unfold trim dropEndWhile at hc
    rw [List.getLast?_reverse] at hc
    exact not_isBlank_of_mem_head?_dropWhile hc

end Text

/-! ## Canonical path types -/

namespace PathType

/-- The tags of the path types that have a constructor of their own. -/
def knownTags : List String :=
  ["CUSTOM", "WALL-OUTER", "WALL-INNER", "FILL", "SKIN", "SKIRT", "SUPPORT"]

/-- A path type that some announcement can give. -/
structure Canonical (p : PathType) : Prop where
  /-- It is the one that its tag denotes. -/
  ofTag_tag : ofTag p.tag = p
  /-- Its tag has no blank at either end. -/
  trimmed : Text.Trimmed p.tag.toList
  /-- It is no constructor in disguise. -/
  other_notMem : ∀ tag, p = other tag → tag ∉ knownTags

/-- A known tag denotes a constructor of its own. -/
theorem ofTag_ne_other {tag : String} (h : tag ∈ knownTags) : ofTag tag ≠ other tag := by
  have hknown : ∀ tag ∈ knownTags, ofTag tag ≠ other tag := by decide +kernel
  exact hknown tag h

/-- What denotes itself and is trimmed is canonical. -/
theorem canonical_of_ofTag_tag {p : PathType} (h : ofTag p.tag = p)
    (htrimmed : Text.Trimmed p.tag.toList) : p.Canonical where
  ofTag_tag := h
  trimmed := htrimmed
  other_notMem := by
    rintro tag rfl hknown
    exact ofTag_ne_other hknown h

/-- A trimmed tag denotes a canonical path type. -/
theorem canonical_ofTag {tag : String} (h : Text.Trimmed tag.toList) : (ofTag tag).Canonical := by
  refine canonical_of_ofTag_tag ?_ ?_
  · rw [tag_ofTag]
  · rwa [tag_ofTag]

/-- The path types with a constructor of their own are canonical. -/
theorem canonical_of_ne_other {p : PathType} (h : ∀ tag, p ≠ other tag) : p.Canonical := by
  have hconstant : ∀ tag ∈ knownTags, Text.Trimmed tag.toList := by decide +kernel
  have hp : p.tag ∈ knownTags ∧ ofTag p.tag = p := by
    cases p with
    | other tag => exact absurd rfl (h tag)
    | _ => decide +kernel
  exact canonical_of_ofTag_tag hp.2 (hconstant p.tag hp.1)

/-- **Canonical path types are told apart by their tags.** -/
theorem Canonical.tag_eq_iff {p q : PathType} (hp : p.Canonical) (hq : q.Canonical) :
    p.tag = q.tag ↔ p = q := by
  constructor
  · intro h
    rw [← hp.ofTag_tag, ← hq.ofTag_tag, h]
  · exact congrArg tag

/-- Of all path types that does not hold. -/
example : (other "FILL").tag = fill.tag ∧ other "FILL" ≠ fill := by decide

end PathType

/-! ## What a line announces -/

namespace GCode

open Text

theorem canonical_taggedType? {line : List Char} {p : PathType} (h : p ∈ taggedType? line) :
    p.Canonical := by
  obtain ⟨tag, -, rfl⟩ := Option.map_eq_some_iff.mp h
  refine PathType.canonical_ofTag ?_
  rw [String.toList_ofList]
  exact trimmed_trim tag

theorem canonical_keywordType? {comment : List Char} {p : PathType} (h : p ∈ keywordType? comment) :
    p.Canonical := by
  refine PathType.canonical_of_ne_other fun tag htag => ?_
  subst htag
  unfold keywordType? at h
  repeat' split at h
  all_goals simp at h

/-- **A line announces a canonical path type or none.** -/
theorem canonical_pathType_annotate {line : List Char} {p : PathType}
    (h : p ∈ (annotate line).pathType) : p.Canonical := by
  rcases notMem_or_exists_comment line with hline | ⟨code, comment, hcode, rfl⟩
  · rw [annotate_of_notMem hline] at h
    exact absurd h (Option.not_mem_none p)
  · rw [annotate_append hcode] at h
    rcases Option.or_eq_some_iff.mp h with hword | ⟨-, htag⟩
    · exact canonical_keywordType? hword
    · exact canonical_taggedType? htag

end GCode

/-! ## What is recorded -/

/-- All segments of some layers have canonical path types. -/
def CanonicalSegments (layers : Array Layer) : Prop :=
  ∀ s ∈ layerSegments layers, s.pathType.Canonical

namespace Builder

/-- The segments of a growing toolpath that have canonical path types, part by part. -/
theorem canonicalSegments_layers_iff (b : Builder) :
    CanonicalSegments b.layers ↔
      CanonicalSegments b.closed ∧ (∀ s ∈ b.finished.toList, s.pathType.Canonical) ∧
        b.current.pathType.Canonical := by
  unfold CanonicalSegments
  rw [layerSegments_layers, List.forall_mem_append, List.forall_mem_append,
    List.forall_mem_singleton]

/-- A move of a canonical path type leaves no other ones behind. -/
theorem canonicalSegments_push {b : Builder} (h : CanonicalSegments b.layers) (kind : MoveKind)
    {pathType : PathType} (htype : pathType.Canonical) (thickness : Float) (point : Point) :
    CanonicalSegments (b.push kind pathType thickness point).layers := by
  obtain ⟨hclosed, hfinished, hcurrent⟩ := b.canonicalSegments_layers_iff.mp h
  by_cases haccepts : b.current.accepts kind pathType
  · rw [push_of_accepts haccepts]
    exact (canonicalSegments_layers_iff _).mpr ⟨hclosed, hfinished, hcurrent⟩
  · rw [push_of_not_accepts haccepts]
    refine (canonicalSegments_layers_iff _).mpr ⟨hclosed, ?_, htype⟩
    rw [Array.toList_push]
    exact List.forall_mem_append.mpr ⟨hfinished, List.forall_mem_singleton.mpr hcurrent⟩

/-- A continuation behind a layer marker has the path type that it continues. -/
theorem canonicalSegments_mark {b : Builder} (h : CanonicalSegments b.layers) (marker : Bool) :
    CanonicalSegments (b.applyAll (if marker then [.closeLayer] else [])).layers := by
  cases marker with
  | false => exact h
  | true =>
    obtain ⟨-, -, hcurrent⟩ := b.canonicalSegments_layers_iff.mp h
    refine (canonicalSegments_layers_iff b.closeLayer).mpr ⟨h, ?_, hcurrent⟩
    exact fun s hs => absurd hs List.not_mem_nil

end Builder

/-! ## Runs and readings -/

namespace Pass

/-- The path type in force and those of all segments are canonical. -/
structure Canonical (pass : Pass) : Prop where
  current : pass.machine.pathType.Canonical
  segments : CanonicalSegments pass.builder.layers

theorem canonical_start : start.Canonical := by
  have hcustom : PathType.custom.Canonical :=
    PathType.canonical_of_ne_other fun _ => PathType.noConfusion
  refine ⟨hcustom, (Builder.canonicalSegments_layers_iff _).mpr ⟨?_, ?_, hcustom⟩⟩
  · exact fun s hs => absurd hs List.not_mem_nil
  · exact fun s hs => absurd hs List.not_mem_nil

variable {setup : Setup} {pass : Pass}

/-- **One line leaves only canonical path types behind.** -/
theorem Canonical.feed (h : pass.Canonical) (text : List Char) :
    (pass.feed setup (Line.read text)).Canonical := by
  have hcurrent : (pass.feed setup (Line.read text)).machine.pathType.Canonical := by
    rw [machine_feed, Machine.pathType_after]
    cases hannounced : (Line.read text).pathType with
    | none => exact h.current
    | some p => exact canonical_pathType_annotate (Option.mem_def.mpr hannounced)
  refine ⟨hcurrent, ?_⟩
  have hmark := Builder.canonicalSegments_mark h.segments (annotate text).layerBoundary
  by_cases hmove : IsMove text
  · rw [builder_feed_of_isMove setup pass hmove]
    exact Builder.canonicalSegments_push hmark _ hcurrent _ _
  · rw [builder_feed_of_not_isMove setup pass hmove]
    exact hmark

theorem canonical_run (setup : Setup) (texts : List (List Char)) :
    (run setup texts).Canonical := by
  induction texts using List.reverseRecOn with
  | nil => exact canonical_start
  | append_singleton front text ih =>
    rw [run_concat]
    exact ih.feed text

/-- The complete layers, which a stopped reading gives, have canonical path types. -/
theorem Canonical.closed (h : pass.Canonical) : CanonicalSegments pass.builder.closed :=
  (pass.builder.canonicalSegments_layers_iff.mp h.segments).1

end Pass

/-- Where a reading goes on the pass is canonical, and where it ends the outcome is. -/
def Turn.Canonical {σ : Type} : Turn σ → Prop
  | proceeds pass _ _ => pass.Canonical
  | ended reading => CanonicalSegments reading.outcome.layers

namespace Pass

variable {setup : Setup} {total : Nat} {σ : Type} {observer : Observer σ} {pass : Pass}

theorem Canonical.take (h : pass.Canonical) (consumed : Nat) (state : σ) (piece : Piece) :
    (pass.take setup total observer consumed state piece).Canonical := by
  have hfed : (pass.feed setup (Line.read piece.text)).Canonical := h.feed piece.text
  unfold Pass.take
  simp only
  split
  · split
    · exact hfed.closed
    · exact ⟨hfed.current, hfed.segments⟩
  · exact hfed

/-- However a reading goes on, its outcome has canonical path types. -/
theorem Canonical.readRest (h : pass.Canonical) (consumed : Nat) (state : σ)
    (pieces : List Piece) :
    CanonicalSegments
      (pass.readRest setup total observer consumed state pieces).outcome.layers := by
  induction pieces generalizing pass consumed state with
  | nil => exact h.segments
  | cons piece rest ih =>
    have htake : (pass.take setup total observer consumed state piece).Canonical :=
      h.take consumed state piece
    rw [Pass.readRest]
    split
    · next hturn =>
      rw [hturn] at htake
      exact ih htake _ _
    · next hturn =>
      rw [hturn] at htake
      exact htake

/-- So has that of a file, even of one that changes while it is read. -/
theorem Canonical.readOn (h : pass.Canonical) (content : σ → ByteArray) (count consumed : Nat)
    (state : σ) (cursor : Cursor) :
    CanonicalSegments
      (pass.readOn setup total observer content count consumed state cursor).outcome.layers := by
  induction count generalizing pass consumed state cursor with
  | zero => exact h.segments
  | succ count ih =>
    rw [Pass.readOn]
    split
    · exact h.segments
    · next line cursor' _ _ =>
      have htake : (pass.take setup total observer consumed state (.ofBytes line)).Canonical :=
        h.take consumed state (.ofBytes line)
      split
      · next hturn =>
        rw [hturn] at htake
        exact ih htake _ _ _
      · next hturn =>
        rw [hturn] at htake
        exact htake

end Pass

/-! ## What is published -/

/-- The text that is published for a path type is its tag in quotation marks. -/
theorem PathType.compact_toJson (p : PathType) : p.toJson.compact = Json.quote p.tag := by
  unfold toJson
  rw [Json.compact]

/-- The path types of some segments are canonical, and two of the segments are published with the
same text for a path type exactly if the one would go on with a move of its own kind and of the
other's path type. -/
structure TagsTell (layers : Array Layer) : Prop where
  canonical : CanonicalSegments layers
  compact_eq_iff : ∀ s ∈ layerSegments layers, ∀ t ∈ layerSegments layers,
    s.pathType.toJson.compact = t.pathType.toJson.compact ↔ s.accepts s.kind t.pathType

theorem CanonicalSegments.tagsTell {layers : Array Layer} (h : CanonicalSegments layers) :
    TagsTell layers where
  canonical := h
  compact_eq_iff := by
    intro s hs t ht
    have haccepts : s.accepts s.kind t.pathType ↔ s.pathType = t.pathType :=
      Segment.accepts_iff.trans (and_iff_right rfl)
    have hquote : Json.quote s.pathType.tag = Json.quote t.pathType.tag ↔
        s.pathType.tag = t.pathType.tag :=
      ⟨Json.quote_injective, congrArg Json.quote⟩
    rw [PathType.compact_toJson, PathType.compact_toJson, haccepts, hquote]
    exact (h s hs).tag_eq_iff (h t ht)

/-- **The path types of a toolpath are canonical.**  To read a tag and write it again gives the
same tag.  The other way round it gives the same path type for the one in force behind any
program, and for all segments of any toolpath, be the reading stopped or not.  So their tags are
trimmed, no known tag is kept as an unknown one, and two segments are published with the same
path type only if they have the same. -/
theorem canonical_reading (setup : Setup) :
    (∀ tag : String, (PathType.ofTag tag).tag = tag) ∧
      (∀ texts : List (List Char), (Pass.run setup texts).machine.pathType.Canonical ∧
        TagsTell (Pass.run setup texts).finish.layers) ∧
      ∀ (σ : Type) (observer : Observer σ) (state : σ),
        (∀ lines : List String,
          TagsTell (readLines setup observer state lines).outcome.layers) ∧
        (∀ (bytes : List UInt8) (total : Nat),
          TagsTell (readContent setup observer state bytes total).outcome.layers) ∧
        ∀ content : σ → ByteArray,
          TagsTell (readFile setup observer content state).outcome.layers := by
  refine ⟨PathType.tag_ofTag, fun texts => ?_, fun σ observer state => ⟨?_, ?_, ?_⟩⟩
  · have hrun := Pass.canonical_run setup texts
    exact ⟨hrun.current, hrun.segments.tagsTell⟩
  · intro lines
    exact (Pass.canonical_start.readRest 0 state (Piece.ofLines lines)).tagsTell
  · intro bytes total
    exact (Pass.canonical_start.readRest 0 state (Piece.ofContent bytes)).tagsTell
  · intro content
    exact (Pass.canonical_start.readOn content _ 0 state .start).tagsTell

end PrintPath
