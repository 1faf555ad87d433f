import PrintPath.Number.Sums
import PrintPath.Proofs.Codes
import PrintPath.Proofs.RecordedMoves

/-!
# The offset of the selected tool

Absolute coordinates are shifted by the offset of the tool that is selected, and extruder 0
has none.  But a machine does not look the offset up.  At a change of tools it adds the
difference of the two offsets to what it has, and it takes homing without axes as a reason
to forget what it has.  So it takes an argument that machine and tool are in step
(`Machine.InStep`).

It is an argument about the lines behind the last homing without axes.  If the tool that
was selected there has no offset, as extruder 0 has none, the two are in step at that
place.  From there on they stay in step: a change of tools adds what lies between the
offsets, and nothing else touches the offset, if no line gives the present place new
coordinates.

Differences are rounded, however.  A change from or to extruder 0 is exact in any case
(`exact_toolOffset`), but one between two other tools need not be.  So the exactness of
those changes is a hypothesis of `offset_run`, and `offset_needs_hypotheses` shows that
neither this nor the one on homing can be left out.
-/

namespace PrintPath

open GCode Number

/-! ## Offsets -/

namespace NozzleOffset

/-- Both numbers of the offset are finite. -/
def IsFinite (offset : NozzleOffset) : Prop :=
  offset.x.isFinite ∧ offset.y.isFinite

instance (offset : NozzleOffset) : Decidable offset.IsFinite :=
  inferInstanceAs (Decidable (_ ∧ _))

/-- Both numbers of the offset are zero. -/
def IsZero (offset : NozzleOffset) : Prop :=
  offset.x == 0.0 ∧ offset.y == 0.0

instance (offset : NozzleOffset) : Decidable offset.IsZero :=
  inferInstanceAs (Decidable (_ ∧ _))

/-- What lies between two offsets leads from the one to the other, without an error of
rounding. -/
def Exact (old new : NozzleOffset) : Prop :=
  old.x + (new.x - old.x) == new.x ∧ old.y + (new.y - old.y) == new.y

instance (old new : NozzleOffset) : Decidable (Exact old new) :=
  inferInstanceAs (Decidable (_ ∧ _))

theorem isFinite_zero : zero.IsFinite := by
  decide

/-- The way from no offset to another one is exact. -/
theorem exact_zero_left {new : NozzleOffset} (h : new.IsFinite) : Exact zero new := by
  have hx : (0.0 : Float) + (new.x - 0.0) == new.x := by
    rw [sub_zero]
    exact (agree_zero_add rfl new.x).trans_beq (beq_self_of_isFinite h.1)
  have hy : (0.0 : Float) + (new.y - 0.0) == new.y := by
    rw [sub_zero]
    exact (agree_zero_add rfl new.y).trans_beq (beq_self_of_isFinite h.2)
  exact ⟨hx, hy⟩

/-- The way back to no offset is exact. -/
theorem exact_zero_right {old : NozzleOffset} (h : old.IsFinite) : Exact old zero :=
  ⟨add_zero_sub_beq_zero h.1, add_zero_sub_beq_zero h.2⟩

end NozzleOffset

namespace Profile

/-- All nozzle offsets of a profile are finite. -/
def HasFiniteOffsets (profile : Profile) : Prop :=
  ∀ entry ∈ profile.offsets.entries, entry.2.IsFinite

instance (profile : Profile) : Decidable profile.HasFiniteOffsets :=
  List.decidableBAll _ _

variable {profile : Profile}

/-- What holds of no offset and of all entries of a table holds of whatever is found there. -/
theorem find_of {P : NozzleOffset → Prop} (hzero : P .zero)
    {entries : List (Nat × NozzleOffset)} (h : ∀ entry ∈ entries, P entry.2) (extruder : Nat) :
    P (OffsetTable.find extruder entries) := by
  induction entries with
  | nil => exact hzero
  | cons entry rest ih =>
    unfold OffsetTable.find
    split
    · exact h entry List.mem_cons_self
    · exact ih fun other hother => h other (List.mem_cons_of_mem _ hother)

/-- What holds of no offset and of all that are configured holds of those of all tools. -/
theorem toolOffset_of {P : NozzleOffset → Prop} (hzero : P .zero)
    (h : ∀ entry ∈ profile.offsets.entries, P entry.2) (tool : Nat) :
    P (profile.toolOffset tool) := by
  unfold toolOffset
  split
  · exact hzero
  · exact find_of hzero h tool

theorem isFinite_toolOffset (h : profile.HasFiniteOffsets) (tool : Nat) :
    (profile.toolOffset tool).IsFinite :=
  toolOffset_of NozzleOffset.isFinite_zero h tool

@[simp] theorem toolOffset_zero (profile : Profile) : profile.toolOffset 0 = .zero := rfl

/-- **A change of tools is exact if one of the two is extruder 0.**  Only about the others
something has to be known. -/
theorem exact_toolOffset (hfinite : profile.HasFiniteOffsets) {old new : Nat}
    (h : old ≠ 0 → new ≠ 0 → (profile.toolOffset old).Exact (profile.toolOffset new)) :
    (profile.toolOffset old).Exact (profile.toolOffset new) := by
  by_cases hold : old = 0
  · rw [hold, toolOffset_zero]
    exact NozzleOffset.exact_zero_left (isFinite_toolOffset hfinite new)
  · by_cases hnew : new = 0
    · rw [hnew, toolOffset_zero]
      exact NozzleOffset.exact_zero_right (isFinite_toolOffset hfinite old)
    · exact h hold hnew

end Profile

/-! ## What a line does to tool and offset -/

namespace Machine

/-- The offset of a machine is that of its tool. -/
def InStep (m : Machine) (profile : Profile) : Prop :=
  m.offset.x == (profile.toolOffset m.tool).x ∧ m.offset.y == (profile.toolOffset m.tool).y

variable {m : Machine} {profile : Profile}

/-- A change of tools keeps machine and tool in step if it is exact. -/
theorem inStep_selectTool (h : m.InStep profile) {tool : Nat}
    (hexact : (profile.toolOffset m.tool).Exact (profile.toolOffset tool)) :
    (m.selectTool profile tool).InStep profile :=
  ⟨(agree_add_right h.1 _).trans_beq hexact.1, (agree_add_right h.2 _).trans_beq hexact.2⟩

/-- The tool that a line names is selected, or else nothing changes. -/
theorem selectNamed_eq_or (m : Machine) (profile : Profile) (named : Option Int) :
    m.selectNamed profile named = m ∨
      ∃ tool, m.tool ≠ tool ∧ m.selectNamed profile named = m.selectTool profile tool := by
  cases named with
  | none => exact Or.inl rfl
  | some index =>
    unfold selectNamed
    by_cases hfits : Number.FitsUInt32 index
    · by_cases hsame : index.toNat = m.tool
      · left
        simp only [if_pos hfits, if_pos hsame]
      · right
        refine ⟨index.toNat, fun heq => hsame heq.symm, ?_⟩
        simp only [if_pos hfits, if_neg hsame]
    · left
      simp only [if_neg hfits]

/-- Homing without axes takes the offset away. -/
theorem offset_after_of_isPlainHoming (m : Machine) (setup : Setup) {text : List Char}
    (h : IsPlainHoming text) : (m.after setup (Line.read text)).offset = .origin := by
  unfold after
  rw [command_of_isHoming h.1]
  show ((m.ready setup (Line.read text)).home _).offset = _
  unfold home
  rw [if_neg (by rw [h.2]; exact Bool.false_ne_true)]

/-- **Only homing without axes and new coordinates for the present place change the
offset**, apart from a change of tools. -/
theorem offset_after (m : Machine) (setup : Setup) {text : List Char}
    (hhome : ¬ IsPlainHoming text) (hredefine : ¬ IsRedefinition text) :
    (m.after setup (Line.read text)).offset = (m.ready setup (Line.read text)).offset := by
  unfold after
  cases hcommand : (Line.read text).command with
  | none => rfl
  | some command =>
    generalize m.ready setup (Line.read text) = ready
    show (ready.execute setup.rule command).offset = ready.offset
    cases commandOn_of_command hcommand with
    | home hcode =>
      have hnamed : (axisWords (annotate text).code).any id = true := by
        rw [← Bool.not_eq_false]
        exact fun hnone => hhome ⟨hcode, hnone⟩
      show (ready.home _).offset = _
      unfold home
      rw [if_pos hnamed]
    | redefine hcode => exact absurd hcode hredefine
    | flow hg hcode => cases number? 'S' (annotate text).code <;> rfl
    | _ => rfl

/-- The command of a line finds machine and tool in step if they were in step before, and
if the change of tools on the line is exact. -/
theorem inStep_ready {setup : Setup} (h : m.InStep setup.profile) {line : Line}
    (hexact : m.tool ≠ (m.ready setup line).tool →
      (setup.profile.toolOffset m.tool).Exact
        (setup.profile.toolOffset (m.ready setup line).tool)) :
    (m.ready setup line).InStep setup.profile := by
  unfold ready at hexact ⊢
  have hannounced : (m.announce line).InStep setup.profile := h
  rcases selectNamed_eq_or (m.announce line) setup.profile line.tool with hnone | ⟨tool, hne, htool⟩
  · rw [hnone]
    exact hannounced
  · rw [htool] at hexact ⊢
    exact inStep_selectTool hannounced (hexact hne)

/-- **A line keeps machine and tool in step** if its change of tools is exact. -/
theorem inStep_after {setup : Setup} (h : m.InStep setup.profile) {text : List Char}
    (hhome : ¬ IsPlainHoming text) (hredefine : ¬ IsRedefinition text)
    (hexact : m.tool ≠ (m.after setup (Line.read text)).tool →
      (setup.profile.toolOffset m.tool).Exact
        (setup.profile.toolOffset (m.after setup (Line.read text)).tool)) :
    (m.after setup (Line.read text)).InStep setup.profile := by
  rw [tool_after] at hexact
  have hready := inStep_ready h hexact
  unfold InStep at hready ⊢
  rw [offset_after m setup hhome hredefine, tool_after]
  exact hready

/-- A machine without an offset is in step with a tool that has none. -/
theorem inStep_of_offset_eq_origin (h : m.offset = .origin)
    (htool : (profile.toolOffset m.tool).IsZero) : m.InStep profile := by
  unfold InStep
  rw [h]
  exact ⟨PartialEquivBEq.symm htool.1, PartialEquivBEq.symm htool.2⟩

/-- An absolute move goes to its coordinates in units, shifted by the offset. -/
theorem position_after_of_isMove (m : Machine) (setup : Setup) {text : List Char}
    (h : IsMove text) (habsolute : (m.after setup (Line.read text)).positioning = .absolute) :
    (∀ value ∈ (axisNumbers (annotate text).code).x,
      (m.after setup (Line.read text)).position.x =
        value * (m.after setup (Line.read text)).scale +
          (m.after setup (Line.read text)).offset.x) ∧
      ∀ value ∈ (axisNumbers (annotate text).code).y,
        (m.after setup (Line.read text)).position.y =
          value * (m.after setup (Line.read text)).scale +
            (m.after setup (Line.read text)).offset.y := by
  rw [m.after_of_isMove setup h] at habsolute ⊢
  generalize m.ready setup (Line.read text) = ready at habsolute ⊢
  change ready.positioning = .absolute at habsolute
  constructor
  · intro value hvalue
    show ready.resolve _ _ (axisNumbers (annotate text).code).x = _
    rw [Option.mem_def.mp hvalue, resolve, habsolute]
    rfl
  · intro value hvalue
    show ready.resolve _ _ (axisNumbers (annotate text).code).y = _
    rw [Option.mem_def.mp hvalue, resolve, habsolute]
    rfl

end Machine

/-! ## Homing without axes, and the changes of tools behind it -/

/-- The lines of a program up to the last homing without axes, which is one of them. -/
def linesThroughHoming (texts : List (List Char)) : List (List Char) :=
  texts.rdropWhile fun text => ¬ IsPlainHoming text

/-- The lines of a program behind the last homing without axes. -/
def linesSinceHoming (texts : List (List Char)) : List (List Char) :=
  texts.rtakeWhile fun text => ¬ IsPlainHoming text

/-- The change of tools that a line behind some others makes, if it makes one: the numbers
of the old and the new tool. -/
def toolChange (setup : Setup) (front : List (List Char)) (text : List Char) :
    List (Nat × Nat) :=
  let old := (Pass.run setup front).machine.tool
  let new := (Pass.run setup (front ++ [text])).machine.tool
  if old = new then [] else [(old, new)]

/-- The changes of tools behind the last homing without axes. -/
def toolChangesSinceHoming (setup : Setup) (texts : List (List Char)) : List (Nat × Nat) :=
  alongHistory (fun front text => toolChange setup (linesThroughHoming texts ++ front) text)
    (linesSinceHoming texts)

section

variable (front : List (List Char)) {text : List Char}

theorem linesThroughHoming_concat_of_isPlainHoming (h : IsPlainHoming text) :
    linesThroughHoming (front ++ [text]) = front ++ [text] :=
  List.rdropWhile_concat_neg _ _ _ (by simpa using h)

theorem linesThroughHoming_concat_of_not_isPlainHoming (h : ¬ IsPlainHoming text) :
    linesThroughHoming (front ++ [text]) = linesThroughHoming front :=
  List.rdropWhile_concat_pos _ _ _ (by simpa using h)

theorem linesSinceHoming_concat_of_not_isPlainHoming (h : ¬ IsPlainHoming text) :
    linesSinceHoming (front ++ [text]) = linesSinceHoming front ++ [text] :=
  List.rtakeWhile_concat_pos _ _ _ (by simpa using h)

theorem linesThroughHoming_append_linesSinceHoming (texts : List (List Char)) :
    linesThroughHoming texts ++ linesSinceHoming texts = texts :=
  List.rdropWhile_append_rtakeWhile

/-- One line more makes its change. -/
theorem toolChangesSinceHoming_concat (setup : Setup) (h : ¬ IsPlainHoming text) :
    toolChangesSinceHoming setup (front ++ [text]) =
      toolChangesSinceHoming setup front ++ toolChange setup front text := by
  unfold toolChangesSinceHoming
  rw [linesThroughHoming_concat_of_not_isPlainHoming front h,
    linesSinceHoming_concat_of_not_isPlainHoming front h, alongHistory_concat,
    linesThroughHoming_append_linesSinceHoming]

end

/-! ## Runs -/

namespace Pass

variable (setup : Setup)

/-- **Machine and tool are in step** behind a program with finite offsets, if the tool that
was selected at the last homing without axes has no offset, and if behind that no line
gives the present place new coordinates and every change between two tools other than
extruder 0 is exact. -/
theorem inStep_run {texts : List (List Char)} (hfinite : setup.profile.HasFiniteOffsets)
    (hhome : (setup.profile.toolOffset
      (run setup (linesThroughHoming texts)).machine.tool).IsZero)
    (hredefine : ∀ text ∈ linesSinceHoming texts, ¬ IsRedefinition text)
    (hexact : ∀ change ∈ toolChangesSinceHoming setup texts, change.1 ≠ 0 → change.2 ≠ 0 →
      (setup.profile.toolOffset change.1).Exact (setup.profile.toolOffset change.2)) :
    (run setup texts).machine.InStep setup.profile := by
  induction texts using List.reverseRecOn with
  | nil => exact Machine.inStep_of_offset_eq_origin rfl hhome
  | append_singleton front text ih =>
    by_cases htext : IsPlainHoming text
    · rw [linesThroughHoming_concat_of_isPlainHoming front htext] at hhome
      refine Machine.inStep_of_offset_eq_origin ?_ hhome
      rw [run_concat, machine_feed]
      exact Machine.offset_after_of_isPlainHoming _ setup htext
    · rw [linesThroughHoming_concat_of_not_isPlainHoming front htext] at hhome
      rw [linesSinceHoming_concat_of_not_isPlainHoming front htext] at hredefine
      rw [toolChangesSinceHoming_concat front setup htext] at hexact
      have hfront : (run setup front).machine.InStep setup.profile :=
        ih hhome (fun line hline => hredefine line (List.mem_append_left _ hline))
          fun change hchange => hexact change (List.mem_append_left _ hchange)
      have hlast : ¬ IsRedefinition text :=
        hredefine text (List.mem_append_right _ List.mem_cons_self)
      rw [run_concat, machine_feed]
      refine Machine.inStep_after hfront htext hlast fun hne => ?_
      rw [← machine_feed, ← run_concat] at hne ⊢
      refine Profile.exact_toolOffset hfinite fun hold hnew => ?_
      refine hexact (_, _) (List.mem_append_right _ ?_) hold hnew
      unfold toolChange
      rw [if_neg hne]
      exact List.mem_cons_self

/-- **Extruder 0 has no offset**, under the hypotheses of `inStep_run`, and an absolute move
with it goes to its coordinates in units. -/
theorem offset_run (texts : List (List Char)) (hfinite : setup.profile.HasFiniteOffsets)
    (hhome : (setup.profile.toolOffset
      (run setup (linesThroughHoming texts)).machine.tool).IsZero)
    (hredefine : ∀ text ∈ linesSinceHoming texts, ¬ IsRedefinition text)
    (hexact : ∀ change ∈ toolChangesSinceHoming setup texts, change.1 ≠ 0 → change.2 ≠ 0 →
      (setup.profile.toolOffset change.1).Exact (setup.profile.toolOffset change.2)) :
    let m := (run setup texts).machine
    m.InStep setup.profile ∧
      (m.tool = 0 → m.offset.x == 0.0 ∧ m.offset.y == 0.0) ∧
      ∀ front text, texts = front ++ [text] → IsMove text → m.tool = 0 →
        m.positioning = .absolute →
          (∀ value ∈ (axisNumbers (annotate text).code).x,
            Agree m.position.x (value * m.scale)) ∧
          ∀ value ∈ (axisNumbers (annotate text).code).y,
            Agree m.position.y (value * m.scale) := by
  intro m
  have hstep : m.InStep setup.profile := inStep_run setup hfinite hhome hredefine hexact
  have hzero : m.tool = 0 → m.offset.x == 0.0 ∧ m.offset.y == 0.0 := by
    intro htool
    unfold Machine.InStep at hstep
    rw [htool] at hstep
    exact hstep
  refine ⟨hstep, hzero, ?_⟩
  rintro front text rfl hmove htool habsolute
  obtain ⟨hzeroX, hzeroY⟩ := hzero htool
  have hm : m = (run setup front).machine.after setup (Line.read text) := by
    show (run setup (front ++ [text])).machine = _
    rw [run_concat, machine_feed]
  rw [hm] at habsolute hzeroX hzeroY ⊢
  obtain ⟨hx, hy⟩ := Machine.position_after_of_isMove _ setup hmove habsolute
  constructor
  · intro value hvalue
    rw [hx value hvalue]
    exact agree_add_zero hzeroX _
  · intro value hvalue
    rw [hy value hvalue]
    exact agree_add_zero hzeroY _

end Pass

/-! ## A printer with three nozzles -/

/-- The second nozzle stands 18 mm from the first one, and the third a tenth of a
millimetre. -/
def threeNozzles : Setup :=
  { profile := { filament := .unknown, offsets := .ofEntries [(1, ⟨18.0, 2.0⟩), (2, ⟨0.1, 0.5⟩)] }
    rule := .standard }

/-- A program that comes back to extruder 0, homes there and comes back by way of both
other tools, to make a move. -/
def comingBack : List (List Char) :=
  ["T1", "G28 X", "T0", "G28", "T2 G1 X3", "G28 Y", "T1"].map String.toList

/-- The move behind `comingBack` goes to its coordinates. -/
theorem offset_run_comingBack :
    let texts := comingBack ++ ["T0 G1 X10 Y20".toList]
    let m := (Pass.run threeNozzles texts).machine
    threeNozzles.profile.HasFiniteOffsets ∧
      (threeNozzles.profile.toolOffset
        (Pass.run threeNozzles (linesThroughHoming texts)).machine.tool).IsZero ∧
      (∀ text ∈ linesSinceHoming texts, ¬ IsRedefinition text) ∧
      toolChangesSinceHoming threeNozzles texts = [(0, 2), (2, 1), (1, 0)] ∧
      (threeNozzles.profile.toolOffset 2).Exact (threeNozzles.profile.toolOffset 1) ∧
      m.tool = 0 ∧ (m.offset.x == 0.0 ∧ m.offset.y == 0.0) ∧
      Agree m.position.x (10.0 * m.scale) ∧ Agree m.position.y (20.0 * m.scale) := by
  intro texts m
  have hfinite : threeNozzles.profile.HasFiniteOffsets := by decide
  have hhome : (threeNozzles.profile.toolOffset
      (Pass.run threeNozzles (linesThroughHoming texts)).machine.tool).IsZero := by decide
  have hredefine : ∀ text ∈ linesSinceHoming texts, ¬ IsRedefinition text := by decide
  have hchanges : toolChangesSinceHoming threeNozzles texts = [(0, 2), (2, 1), (1, 0)] := by
    decide
  have hback : (threeNozzles.profile.toolOffset 2).Exact
      (threeNozzles.profile.toolOffset 1) := by decide
  have hexact : ∀ change ∈ toolChangesSinceHoming threeNozzles texts,
      change.1 ≠ 0 → change.2 ≠ 0 → (threeNozzles.profile.toolOffset change.1).Exact
        (threeNozzles.profile.toolOffset change.2) := by
    rw [hchanges]
    decide
  obtain ⟨-, hoffset, hposition⟩ :=
    Pass.offset_run threeNozzles texts hfinite hhome hredefine hexact
  have htool : m.tool = 0 := by decide
  have habsolute : m.positioning = .absolute := by decide
  obtain ⟨hx, hy⟩ := hposition comingBack _ rfl (by decide) htool habsolute
  exact ⟨hfinite, hhome, hredefine, hchanges, hback, htool, hoffset htool,
    hx 10.0 (by decide), hy 20.0 (by decide)⟩

/-- Homing without axes while the second nozzle is in use, and changing between the second
and the third one. -/
def outOfStep : List (List (List Char)) :=
  [["T1", "G28", "T0"].map String.toList, ["T1", "T2", "T0"].map String.toList]

/-- **Finite offsets alone do not keep machine and tool in step.**  Behind each of these
programs extruder 0 is selected and there is an offset, though no line gives the present
place new coordinates. -/
theorem offset_needs_hypotheses :
    threeNozzles.profile.HasFiniteOffsets ∧
      ∀ texts ∈ outOfStep, (∀ text ∈ texts, ¬ IsRedefinition text) ∧
        (Pass.run threeNozzles texts).machine.tool = 0 ∧
        ¬ (Pass.run threeNozzles texts).machine.offset.x == 0.0 := by
  decide

end PrintPath
