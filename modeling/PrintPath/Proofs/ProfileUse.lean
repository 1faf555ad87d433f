import PrintPath.Proofs.Observation

/-!
# What a reading takes from a profile

Much of a profile is of no use to a reading: what the filament is and what it costs, where
extruder 0 stands, and where those extruders stand that the program does not name.  So two
profiles are compared here that agree on the tools that the lines of a program name
(`Profile.AgreeOn`), and may differ in everything else.

The readings with the one and with the other go in step.  A line asks for two offsets at
most, that of the tool it names and that of the tool which is selected.  On the first the
profiles agree by assumption.  On the second they agree because it is extruder 0, which has
no offset whatever a profile says of it, or was named by a line before: this is the
invariant, `Profile.AgreeAt` of the selected tool.
-/

namespace PrintPath

open GCode

namespace Profile

/-- Two profiles have the same offset for the tool that a line names, if it is one that an
extruder can be and not extruder 0. -/
def AgreeOn (p q : Profile) (text : List Char) : Prop :=
  ∀ index ∈ integer? 'T' (annotate text).code, 0 < index → index ≤ 4294967295 →
    p.nozzleOffset index.toNat = q.nozzleOffset index.toNat

/-- Two profiles apply the same offset when a tool is selected or given up. -/
def AgreeAt (p q : Profile) (tool : Nat) : Prop :=
  p.toolOffset tool = q.toolOffset tool

variable {p q : Profile}

/-- Extruder 0 has no offset in any profile. -/
theorem agreeAt_zero : p.AgreeAt q 0 := rfl

/-- Profiles that agree on a line agree at the tool that it selects. -/
theorem AgreeOn.agreeAt {text : List Char} (h : p.AgreeOn q text) {index : Int}
    (hindex : index ∈ (Line.read text).tool) (hfits : Number.FitsUInt32 index) :
    p.AgreeAt q index.toNat := by
  obtain ⟨hleast, hmost⟩ := (Number.fitsUInt32_iff index).mp hfits
  by_cases hzero : index.toNat = 0
  · rw [hzero]
    exact agreeAt_zero
  · unfold AgreeAt toolOffset
    rw [if_neg hzero, if_neg hzero]
    exact h index hindex (by omega) hmost

end Profile

namespace Machine

variable {p q : Profile}

/-- A change of tools asks for no offset but those of the two tools. -/
theorem selectTool_of_agreeAt (m : Machine) {tool : Nat} (hold : p.AgreeAt q m.tool)
    (hnew : p.AgreeAt q tool) : m.selectTool p tool = m.selectTool q tool := by
  unfold Profile.AgreeAt at hold hnew
  unfold selectTool
  rw [hold, hnew]

/-- Behind a line the tool is the one before it, or one that the line names. -/
theorem tool_after_eq_or (m : Machine) (setup : Setup) (line : Line) :
    (m.after setup line).tool = m.tool ∨
      ∃ index ∈ line.tool, Number.FitsUInt32 index ∧
        (m.after setup line).tool = index.toNat := by
  rw [tool_after]
  unfold ready selectNamed
  cases line.tool with
  | none => exact Or.inl rfl
  | some index =>
    by_cases hfits : Number.FitsUInt32 index
    · by_cases hsame : index.toNat = (m.announce line).tool
      · left
        simp only [if_pos hfits, if_pos hsame]
        rfl
      · right
        simp only [if_pos hfits, if_neg hsame]
        exact ⟨index, rfl, hfits, rfl⟩
    · left
      simp only [if_neg hfits]
      rfl

end Machine

namespace Pass

variable {p q : Profile} (rule : ThicknessRule)

/-! ## One line -/

theorem selectTool_of_agreeAt (pass : Pass) {named : Option Int}
    (hold : p.AgreeAt q pass.machine.tool)
    (hnew : ∀ index ∈ named, Number.FitsUInt32 index → p.AgreeAt q index.toNat) :
    pass.selectTool ⟨p, rule⟩ named = pass.selectTool ⟨q, rule⟩ named := by
  cases named with
  | none => rfl
  | some index =>
    unfold selectTool
    by_cases hfits : Number.FitsUInt32 index
    · simp only [if_pos hfits]
      rw [pass.machine.selectTool_of_agreeAt hold (hnew index rfl hfits)]
    · simp only [if_neg hfits]

/-- No command asks for an offset. -/
theorem execute_of_rule (pass : Pass) (command : Option Command) :
    pass.execute ⟨p, rule⟩ command = pass.execute ⟨q, rule⟩ command := by
  rcases command with _ | command
  · rfl
  · cases command <;> rfl

/-- **A line cannot tell two profiles apart** that agree on it and at the selected tool. -/
theorem feed_of_agreeOn (pass : Pass) {text : List Char} (hline : p.AgreeOn q text)
    (htool : p.AgreeAt q pass.machine.tool) :
    pass.feed ⟨p, rule⟩ (Line.read text) = pass.feed ⟨q, rule⟩ (Line.read text) := by
  have hannounced : p.AgreeAt q
      (({ pass with line := pass.line + 1 } : Pass).announce (Line.read text)).machine.tool := by
    rw [machine_announce]
    exact htool
  unfold feed
  simp only
  rw [selectTool_of_agreeAt rule _ hannounced fun _ hindex hfits => hline.agreeAt hindex hfits,
    execute_of_rule]

/-- **The profiles agree at the selected tool behind the line, too.** -/
theorem agreeAt_feed (pass : Pass) {text : List Char} (hline : p.AgreeOn q text)
    (htool : p.AgreeAt q pass.machine.tool) :
    p.AgreeAt q (pass.feed ⟨p, rule⟩ (Line.read text)).machine.tool := by
  rw [machine_feed]
  rcases pass.machine.tool_after_eq_or ⟨p, rule⟩ (Line.read text) with
    hsame | ⟨index, hindex, hfits, hnamed⟩
  · rw [hsame]
    exact htool
  · rw [hnamed]
    exact hline.agreeAt hindex hfits

/-! ## All lines -/

/-- What an observer answers does not touch the machine. -/
theorem machine_of_take {σ : Type} {setup : Setup} {total consumed reached : Nat}
    {observer : Observer σ} {pass next : Pass} {state after : σ} {piece : Piece}
    (h : pass.take setup total observer consumed state piece = .proceeds next reached after) :
    next.machine = (pass.feed setup (Line.read piece.text)).machine := by
  unfold take at h
  simp only at h
  split at h
  · split at h
    · exact absurd h (by simp)
    · rw [Turn.proceeds.injEq] at h
      rw [← h.1]
      rfl
  · rw [Turn.proceeds.injEq] at h
    rw [← h.1]

/-- **A reading cannot tell two profiles apart** that agree on all lines, from any pass on
at whose tool they agree. -/
theorem readRest_of_agreeOn {σ : Type} (total : Nat) (observer : Observer σ) {pieces : List Piece}
    (hlines : ∀ piece ∈ pieces, p.AgreeOn q piece.text) (pass : Pass)
    (htool : p.AgreeAt q pass.machine.tool) (consumed : Nat) (state : σ) :
    pass.readRest ⟨p, rule⟩ total observer consumed state pieces =
      pass.readRest ⟨q, rule⟩ total observer consumed state pieces := by
  induction pieces generalizing pass consumed state with
  | nil => rfl
  | cons piece rest ih =>
    have hline : p.AgreeOn q piece.text := hlines piece List.mem_cons_self
    have htake : pass.take ⟨p, rule⟩ total observer consumed state piece =
        pass.take ⟨q, rule⟩ total observer consumed state piece := by
      unfold take
      simp only [feed_of_agreeOn rule pass hline htool]
    rw [readRest, readRest, ← htake]
    split
    · next next reached after hnext =>
      refine ih (fun other hother => hlines other (List.mem_cons_of_mem _ hother)) next ?_ _ _
      rw [machine_of_take hnext]
      exact agreeAt_feed rule pass hline htool
    · rfl

end Pass

/-- **A reading depends on the profile through the offsets of the tools that the lines
name.**  With two profiles that agree on these tools, and possibly on nothing else, it has
one outcome, and an observer is told the same fractions. -/
theorem reading_congr_profile {p q : Profile} {lines : List String}
    (h : ∀ line ∈ lines, p.AgreeOn q line.toList) (rule : ThicknessRule) {σ : Type}
    (observer : Observer σ) (state : σ) :
    (readLines ⟨p, rule⟩ observer state lines).outcome =
        (readLines ⟨q, rule⟩ observer state lines).outcome ∧
      (readLines ⟨p, rule⟩ observer.recording (state, []) lines).state.2 =
        (readLines ⟨q, rule⟩ observer.recording (state, []) lines).state.2 := by
  have hpieces : ∀ piece ∈ Piece.ofLines lines, p.AgreeOn q piece.text := by
    intro piece hpiece
    obtain ⟨line, hline, rfl⟩ := List.mem_map.mp hpiece
    exact h line hline
  constructor
  · exact congrArg Reading.outcome
      (Pass.readRest_of_agreeOn rule _ observer hpieces .start Profile.agreeAt_zero 0 state)
  · exact congrArg (fun reading => reading.state.2)
      (Pass.readRest_of_agreeOn rule _ observer.recording hpieces .start Profile.agreeAt_zero 0
        (state, []))

/-- A filament about which nothing is known, and three nozzles. -/
def soberProfile : Profile :=
  { filament := .unknown, offsets := .ofEntries [(1, ⟨18.0, 2.0⟩), (2, ⟨3.0, 0.0⟩)] }

/-- Another filament, an offset for extruder 0 and none for extruder 2. -/
def ornateProfile : Profile :=
  { filament := ⟨1.75, 1240.0, 25.0, 0.5⟩
    offsets := .ofEntries [(0, ⟨5.0, 5.0⟩), (1, ⟨18.0, 2.0⟩)] }

/-- A program that leaves extruder 0, names two tools that no extruder can be, and comes
back behind a layer marker. -/
def roundTrip : List String :=
  ["T1 G1 X5", "T-1 G1 Y2", ";LAYER:1", "T4294967296", "T0 G1 X2"]

/-- `roundTrip` has the same outcome with both profiles, though they differ on extruders 0
and 2. -/
theorem reading_congr_profile_roundTrip :
    (∀ line ∈ roundTrip, soberProfile.AgreeOn ornateProfile line.toList) ∧
      ¬ (soberProfile.nozzleOffset 0).x == (ornateProfile.nozzleOffset 0).x ∧
      ¬ (soberProfile.nozzleOffset 2).x == (ornateProfile.nozzleOffset 2).x ∧
      (readLines ⟨soberProfile, .standard⟩ .silent () roundTrip).outcome =
        (readLines ⟨ornateProfile, .standard⟩ .silent () roundTrip).outcome ∧
      (readLines ⟨soberProfile, .standard⟩ Observer.silent.recording ((), []) roundTrip).state.2 =
        (readLines ⟨ornateProfile, .standard⟩ Observer.silent.recording ((), [])
          roundTrip).state.2 := by
  have hnamed : ∀ line ∈ roundTrip, ∀ index ∈ integer? 'T' (annotate line.toList).code,
      0 < index → index ≤ 4294967295 → index = 1 := by
    decide
  have hagree : ∀ line ∈ roundTrip, soberProfile.AgreeOn ornateProfile line.toList := by
    intro line hline index hindex hleast hmost
    rw [hnamed line hline index hindex hleast hmost]
    rfl
  exact ⟨hagree, by decide, by decide,
    reading_congr_profile hagree .standard .silent ()⟩

end PrintPath
