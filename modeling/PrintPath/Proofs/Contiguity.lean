import Mathlib.Data.List.Chain
import PrintPath.Proofs.Observation

/-!
# The path of a toolpath is unbroken

A toolpath is divided into layers, and a layer into segments.  Neither division breaks
the path: what comes next starts at the very point where the one before ended.
`Contiguous` says this and says where the divisions are.  Inside a layer a segment ends
because the kind or the path type of the moves changes, and for no other reason.  At the
end of a layer it is the other way round: the next layer goes on with a segment of the
same kind, path type and thickness.

Recording a move changes the last layer only, and completing a layer adds one behind it.
So there are two steps, `Contiguous.replaceLast` and `Contiguous.concat`.  The first of
them rests on this: of a segment that another one leads to, only what it was opened with
counts (`Segment.opening`), and that does not change when moves are added.

A reading that was stopped gives a prefix of the layers, and a prefix of an unbroken
path is unbroken.
-/

namespace PrintPath

namespace Segment

/-- What a segment was opened with. -/
def opening (s : Segment) : MoveKind × PathType × Float × Point :=
  (s.kind, s.pathType, s.thickness, s.seed)

/-- Two segments of a layer that follow each other: the second starts where the first
ends, and is of another kind or path type. -/
def Turns (s t : Segment) : Prop :=
  t.points.head? = s.points.getLast? ∧ (t.kind ≠ s.kind ∨ t.pathType ≠ s.pathType)

/-- Two segments that a layer marker stands between: the second starts where the first
ends, and goes on in the same way. -/
def Resumes (s t : Segment) : Prop :=
  t.points.head? = s.points.getLast? ∧
    t.kind = s.kind ∧ t.pathType = s.pathType ∧ t.thickness = s.thickness

/-- A segment that is opened because another one does not accept a move turns from it. -/
theorem turns_opened {s : Segment} {kind : MoveKind} {pathType : PathType}
    (h : ¬ s.accepts kind pathType) (thickness : Float) (point : Point) :
    s.Turns ((opened kind pathType thickness s.last).push point) := by
  refine ⟨?_, ?_⟩
  · rw [getLast?_points]
    rfl
  · rw [accepts_iff, not_and_or] at h
    rcases h with hkind | htype
    · exact Or.inl (Ne.symm hkind)
    · exact Or.inr (Ne.symm htype)

/-- A continuation resumes its segment. -/
theorem resumes_continuation (s : Segment) : s.Resumes s.continuation := by
  refine ⟨?_, rfl, rfl, rfl⟩
  rw [getLast?_points]
  rfl

variable {s t u : Segment}

theorem Turns.congr_opening (h : s.Turns t) (hopening : u.opening = t.opening) : s.Turns u := by
  unfold opening at hopening
  simp only [Prod.mk.injEq] at hopening
  obtain ⟨hkind, htype, -, hseed⟩ := hopening
  unfold Turns points at h ⊢
  rw [hkind, htype, hseed]
  exact h

theorem Resumes.congr_opening (h : s.Resumes t) (hopening : u.opening = t.opening) :
    s.Resumes u := by
  unfold opening at hopening
  simp only [Prod.mk.injEq] at hopening
  obtain ⟨hkind, htype, hthickness, hseed⟩ := hopening
  unfold Resumes points at h ⊢
  rw [hkind, htype, hthickness, hseed]
  exact h

end Segment

namespace Layer

/-- What the first segment of a layer was opened with. -/
def opening (l : Layer) : Option (MoveKind × PathType × Float × Point) :=
  l.segments.toList.head?.map Segment.opening

/-- Two layers that follow each other: the first segment of the second resumes the last
one of the first. -/
def Resumes (l m : Layer) : Prop :=
  ∃ s t, l.segments.toList.getLast? = some s ∧ m.segments.toList.head? = some t ∧ s.Resumes t

theorem Resumes.congr_opening {l m n : Layer} (h : l.Resumes m)
    (hopening : n.opening = m.opening) : l.Resumes n := by
  obtain ⟨s, t, hs, ht, hst⟩ := h
  unfold opening at hopening
  rw [ht] at hopening
  obtain ⟨u, hu, hut⟩ := Option.map_eq_some_iff.mp hopening
  exact ⟨s, u, hs, hu, hst.congr_opening hut⟩

/-- The first point of a layer. -/
def StartsAt (l : Layer) (point : Point) : Prop :=
  ∃ s, l.segments.toList.head? = some s ∧ s.points.head? = some point

theorem StartsAt.congr_opening {l m : Layer} {point : Point} (h : l.StartsAt point)
    (hopening : m.opening = l.opening) : m.StartsAt point := by
  obtain ⟨s, hs, hpoint⟩ := h
  unfold opening at hopening
  rw [hs] at hopening
  obtain ⟨t, ht, hts⟩ := Option.map_eq_some_iff.mp hopening
  have hseed : t.seed = s.seed := congrArg (fun opening => opening.2.2.2) hts
  refine ⟨t, ht, ?_⟩
  show some t.seed = _
  rw [hseed]
  exact hpoint

/-- A layer whose segments form an unbroken path. -/
structure Contiguous (l : Layer) : Prop where
  /-- There is a segment. -/
  segments_ne_nil : l.segments.toList ≠ []
  /-- Every segment has a point. -/
  points_ne_nil : ∀ s ∈ l.segments.toList, s.points ≠ []
  /-- Each segment turns from the one before. -/
  turns : l.segments.toList.IsChain Segment.Turns

/-- A layer of one segment. -/
theorem Contiguous.single (s : Segment) : Contiguous ⟨#[s]⟩ where
  segments_ne_nil := List.cons_ne_nil _ _
  points_ne_nil _ _ := List.cons_ne_nil _ _
  turns := List.isChain_singleton s

end Layer

/-- The layers of a toolpath whose path is unbroken. -/
structure Contiguous (layers : List Layer) : Prop where
  /-- The path is unbroken in every layer. -/
  within : ∀ l ∈ layers, l.Contiguous
  /-- Each layer resumes the one before. -/
  between : layers.IsChain Layer.Resumes
  /-- The path starts at the origin, without filament and with all of the flow. -/
  origin : ∃ l, layers.head? = some l ∧ l.StartsAt ⟨⟨0.0, 0.0, 0.0⟩, 0.0, 1.0⟩

namespace Contiguous

variable {front layers : List Layer} {l : Layer}

/-- The beginning of an unbroken path is unbroken. -/
theorem of_prefix (h : Contiguous layers) (hfront : front <+: layers) (hne : front ≠ []) :
    Contiguous front := by
  refine ⟨fun m hm => h.within m (hfront.subset hm), h.between.prefix hfront, ?_⟩
  obtain ⟨first, hfirst, hstarts⟩ := h.origin
  obtain ⟨m, rest, rfl⟩ := List.exists_cons_of_ne_nil hne
  obtain ⟨back, rfl⟩ := hfront
  exact ⟨first, hfirst, hstarts⟩

/-- The last layer may be replaced by another one whose first segment was opened with
the same. -/
theorem replaceLast (h : Contiguous (front ++ [l])) {m : Layer} (hm : m.Contiguous)
    (hopening : m.opening = l.opening) : Contiguous (front ++ [m]) := by
  refine ⟨?_, ?_, ?_⟩
  · intro n hn
    rcases List.mem_append.mp hn with hfront | hlast
    · exact h.within n (List.mem_append_left _ hfront)
    · rw [List.mem_singleton.mp hlast]
      exact hm
  · obtain ⟨hfront, -, hresumes⟩ := List.isChain_append.mp h.between
    refine hfront.append (List.isChain_singleton m) ?_
    intro n hn m' hm'
    rw [← Option.some.inj hm']
    exact (hresumes n hn l rfl).congr_opening hopening
  · obtain ⟨first, hfirst, hstarts⟩ := h.origin
    cases front with
    | cons n front => exact ⟨first, hfirst, hstarts⟩
    | nil =>
      rw [← Option.some.inj hfirst] at hstarts
      exact ⟨m, rfl, hstarts.congr_opening hopening⟩

/-- A layer may be added that continues the last segment. -/
theorem concat (h : Contiguous (front ++ [l])) {s : Segment}
    (hs : l.segments.toList.getLast? = some s) :
    Contiguous (front ++ [l] ++ [⟨#[s.continuation]⟩]) := by
  refine ⟨?_, ?_, ?_⟩
  · intro n hn
    rcases List.mem_append.mp hn with hfront | hlast
    · exact h.within n hfront
    · rw [List.mem_singleton.mp hlast]
      exact Layer.Contiguous.single s.continuation
  · refine h.between.append (List.isChain_singleton _) ?_
    intro n hn m hm
    rw [List.getLast?_concat] at hn
    rw [← Option.some.inj hn, ← Option.some.inj hm]
    exact ⟨s, s.continuation, hs, rfl, s.resumes_continuation⟩
  · obtain ⟨first, hfirst, hstarts⟩ := h.origin
    refine ⟨first, ?_, hstarts⟩
    rw [List.head?_append, hfirst]
    rfl

end Contiguous

namespace Builder

/-- A move keeps the path in the layer being filled unbroken. -/
theorem contiguous_push {b : Builder} (h : b.openLayer.Contiguous) (kind : MoveKind)
    (pathType : PathType) (thickness : Float) (point : Point) :
    (b.push kind pathType thickness point).openLayer.Contiguous := by
  have hturns := h.turns
  rw [toList_segments_openLayer] at hturns
  have hpush : (b.push kind pathType thickness point).openLayer.segments.toList.IsChain
      Segment.Turns := by
    by_cases haccepts : b.current.accepts kind pathType
    · rw [push_of_accepts haccepts, toList_segments_openLayer]
      obtain ⟨hfinished, -, hlast⟩ := List.isChain_append.mp hturns
      refine hfinished.append (List.isChain_singleton _) ?_
      intro s hs t ht
      rw [← Option.some.inj ht]
      exact (hlast s hs b.current rfl).congr_opening rfl
    · rw [push_of_not_accepts haccepts, toList_segments_openLayer]
      show (b.finished.push b.current).toList ++ [_] |>.IsChain Segment.Turns
      rw [Array.toList_push]
      refine hturns.append (List.isChain_singleton _) ?_
      intro s hs t ht
      rw [List.getLast?_concat] at hs
      rw [← Option.some.inj hs, ← Option.some.inj ht]
      exact Segment.turns_opened haccepts thickness point
  refine ⟨?_, fun s _ => List.cons_ne_nil _ _, hpush⟩
  rw [toList_segments_openLayer]
  exact List.append_ne_nil_of_right_ne_nil _ (List.cons_ne_nil _ _)

/-- The first segment of the layer being filled is opened once. -/
theorem opening_push (b : Builder) (kind : MoveKind) (pathType : PathType) (thickness : Float)
    (point : Point) :
    (b.push kind pathType thickness point).openLayer.opening = b.openLayer.opening := by
  unfold Layer.opening
  by_cases haccepts : b.current.accepts kind pathType
  · rw [push_of_accepts haccepts, toList_segments_openLayer, toList_segments_openLayer,
      List.head?_append, List.head?_append]
    cases b.finished.toList.head? with
    | none => rfl
    | some s => rfl
  · rw [push_of_not_accepts haccepts, toList_segments_openLayer, toList_segments_openLayer]
    show ((b.finished.push b.current).toList ++ [_]).head?.map _ = _
    rw [Array.toList_push, List.head?_append_of_ne_nil]
    exact List.append_ne_nil_of_right_ne_nil _ (List.cons_ne_nil _ _)

/-- **Every operation keeps the path unbroken.** -/
theorem contiguous_apply (b : Builder) (operation : Operation) (h : Contiguous b.layers.toList) :
    Contiguous (b.apply operation).layers.toList := by
  rw [toList_layers] at h
  cases operation with
  | push kind pathType thickness point =>
    show Contiguous (b.push kind pathType thickness point).layers.toList
    have hopen := h.within b.openLayer (List.mem_append_right _ List.mem_cons_self)
    rw [toList_layers, closed_push]
    exact h.replaceLast (contiguous_push hopen kind pathType thickness point)
      (b.opening_push kind pathType thickness point)
  | closeLayer =>
    have hlast : b.openLayer.segments.toList.getLast? = some b.current := by
      rw [toList_segments_openLayer, List.getLast?_concat]
    show Contiguous b.closeLayer.layers.toList
    rw [toList_layers, closed_closeLayer, Array.toList_push]
    exact h.concat hlast

/-- The toolpath of a program that has not begun. -/
theorem contiguous_start : Contiguous Pass.start.builder.layers.toList where
  within l hl := by
    rw [List.mem_singleton.mp hl]
    exact Layer.Contiguous.single _
  between := List.isChain_singleton _
  origin := ⟨_, rfl, _, rfl, rfl⟩

end Builder

namespace Pass

/-- **The path of a program is unbroken.** -/
theorem contiguous_feedAll (setup : Setup) (lines : List GCode.Line) :
    Contiguous (start.feedAll setup lines).finish.layers.toList :=
  builder_feedAll (P := fun b => Contiguous b.layers.toList) setup Builder.contiguous_apply
    Builder.contiguous_start lines

end Pass

variable {σ : Type} (setup : Setup) (observer : Observer σ) (state : σ)

/-- However an input is cut into pieces and observed, the path is unbroken. -/
theorem contiguous_readPieces (total : Nat) (pieces : List Piece) :
    Contiguous (readPieces setup observer state total pieces).outcome.layers.toList := by
  have hfull := Pass.contiguous_feedAll setup (pieces.map Piece.line)
  obtain ⟨-, hshown⟩ := shows_readPieces setup observer state total pieces
  rw [outcome_readPieces_silent] at hshown
  cases hstops : observer.stopsAt? state (Piece.markFractions total 0 pieces) with
  | none =>
    rw [hstops] at hshown
    simp only at hshown
    rw [hshown]
    exact hfull
  | some k =>
    rw [hstops] at hshown
    obtain ⟨toolpath, progress, htoolpath, -, hless, houtcome⟩ := hshown
    rw [Outcome.completed.inj htoolpath] at hfull
    have htake : (toolpath.layers.take (k + 1)).toList = toolpath.layers.toList.take (k + 1) := by
      rw [Array.take, Array.toList_extract, List.extract_eq_take_drop, List.drop_zero, Nat.sub_zero]
    have hlength : (toolpath.layers.toList.take (k + 1)).length = k + 1 := by
      rw [List.length_take, Array.length_toList]
      omega
    rw [houtcome]
    show Contiguous (toolpath.layers.take (k + 1)).toList
    rw [htake]
    refine hfull.of_prefix (List.take_prefix _ _) ?_
    exact List.ne_nil_of_length_eq_add_one hlength

/-- **The path of every toolpath is unbroken**, whether the reading was stopped or not. -/
theorem contiguous_reading :
    (∀ lines : List String,
      Contiguous (readLines setup observer state lines).outcome.layers.toList) ∧
      ∀ (bytes : List UInt8) (total : Nat),
        Contiguous (readContent setup observer state bytes total).outcome.layers.toList := by
  constructor
  · intro lines
    exact contiguous_readPieces setup observer state _ (Piece.ofLines lines)
  · intro bytes total
    exact contiguous_readPieces setup observer state total (Piece.ofContent bytes)

end PrintPath
