import Mathlib.Data.List.Induction
import Mathlib.Data.List.Sort
import PrintPath.Reading.Reader

/-!
# Of several entries for one extruder the last counts

A written profile lists offsets of extruders, in any order and any of them more than once.  The
profile that it denotes keeps a table, into which the entries are put one after the other.  An
entry replaces an earlier one for the same extruder, so the table lists for each extruder what the
last entry says (`ProfileText.listed?_profile`).

The table has one entry for each extruder and keeps them in order, so it is determined by what it
lists (`OffsetTable.eq_of_listed?`).  It is not enough to ask for offsets there, because an
extruder with the offset zero is not one without an entry.  It follows that the entries of a
written profile may change places, as long as those for one extruder keep their order
(`ProfileText.Reorders`): the profile is the same one, and nothing that is read with it can
differ.
-/

namespace PrintPath

namespace OffsetTable

/-- What a table lists for an extruder, if it lists anything. -/
def listed? (table : OffsetTable) (extruder : Nat) : Option NozzleOffset :=
  table.entries.lookup extruder

theorem lookup_cons_eq_ite (extruder listed : Nat) (offset : NozzleOffset)
    (rest : List (Nat × NozzleOffset)) :
    ((listed, offset) :: rest).lookup extruder =
      if extruder = listed then some offset else rest.lookup extruder := by
  rw [List.lookup_cons]
  by_cases h : extruder = listed
  · rw [if_pos h, beq_iff_eq.mpr h]
  · rw [if_neg h, beq_eq_false_iff_ne.mpr h]

theorem find_eq_lookup (extruder : Nat) (entries : List (Nat × NozzleOffset)) :
    find extruder entries = (entries.lookup extruder).getD .zero := by
  induction entries with
  | nil => rfl
  | cons entry rest ih =>
    obtain ⟨listed, offset⟩ := entry
    rw [find, lookup_cons_eq_ite, ih]
    split <;> rfl

/-- The offset of an extruder is the one that is listed, and zero if there is none. -/
theorem offset_eq_listed? (table : OffsetTable) (extruder : Nat) :
    table.offset extruder = (table.listed? extruder).getD .zero :=
  find_eq_lookup extruder table.entries

theorem lookup_insertEntry (extruder other : Nat) (offset : NozzleOffset)
    (entries : List (Nat × NozzleOffset)) :
    (insertEntry extruder offset entries).lookup other =
      if other = extruder then some offset else entries.lookup other := by
  induction entries with
  | nil => exact lookup_cons_eq_ite other extruder offset []
  | cons entry rest ih =>
    obtain ⟨listed, old⟩ := entry
    rw [insertEntry]
    split
    · exact lookup_cons_eq_ite other extruder offset _
    · split
      · next hsame =>
        -- the entry that is replaced is the one for the same extruder
        obtain rfl : extruder = listed := hsame
        rw [lookup_cons_eq_ite, lookup_cons_eq_ite]
        split <;> rfl
      · next hne =>
        rw [lookup_cons_eq_ite, lookup_cons_eq_ite, ih]
        split
        · next hother => rw [if_neg fun heq => hne (heq.symm.trans hother)]
        · rfl

/-- What is listed after an insertion is the new offset, or what was listed before. -/
theorem listed?_insert (table : OffsetTable) (extruder other : Nat) (offset : NozzleOffset) :
    (table.insert extruder offset).listed? other =
      if other = extruder then some offset else table.listed? other :=
  lookup_insertEntry extruder other offset table.entries

/-- **A table lists what the last entry for an extruder says.** -/
theorem listed?_ofEntries (entries : List (Nat × NozzleOffset)) (extruder : Nat) :
    (ofEntries entries).listed? extruder =
      ((entries.filter fun entry => entry.1 = extruder).getLast?).map Prod.snd := by
  induction entries using List.reverseRecOn with
  | nil => rfl
  | append_singleton front entry ih =>
    have hinsert : ofEntries (front ++ [entry]) = (ofEntries front).insert entry.1 entry.2 := by
      unfold ofEntries
      rw [List.foldl_concat]
    rw [hinsert, listed?_insert, List.filter_append]
    by_cases h : entry.1 = extruder
    · have hlast : [entry].filter (fun entry => decide (entry.1 = extruder)) = [entry] :=
        List.filter_cons_of_pos (decide_eq_true h)
      rw [if_pos h.symm, hlast, List.getLast?_concat]
      rfl
    · have hnone : [entry].filter (fun entry => decide (entry.1 = extruder)) = [] :=
        List.filter_cons_of_neg (by simpa using h)
      rw [if_neg (Ne.symm h), hnone, List.append_nil, ih]

/-- The entries of a table are what it lists. -/
theorem mem_entries_iff (table : OffsetTable) (extruder : Nat) (offset : NozzleOffset) :
    (extruder, offset) ∈ table.entries ↔ table.listed? extruder = some offset := by
  unfold listed?
  rw [List.lookup_eq_some_iff]
  constructor
  · intro h
    obtain ⟨front, back, hentries⟩ := List.append_of_mem h
    refine ⟨front, back, hentries, fun entry hentry => ?_⟩
    have hincreasing := table.increasing
    rw [hentries] at hincreasing
    have hlt := (List.pairwise_append.mp hincreasing).2.2 entry hentry _ List.mem_cons_self
    exact bne_iff_ne.mpr (Nat.ne_of_gt hlt)
  · rintro ⟨front, back, hentries, -⟩
    rw [hentries]
    exact List.mem_append_right _ List.mem_cons_self

/-- **A table is determined by what it lists.** -/
theorem eq_of_listed? {table other : OffsetTable}
    (h : ∀ extruder, table.listed? extruder = other.listed? extruder) : table = other := by
  have hnodup : ∀ table : OffsetTable, table.entries.Nodup := fun table =>
    table.increasing.imp fun hlt heq => absurd (congrArg Prod.fst heq) (Nat.ne_of_lt hlt)
  have hmem : ∀ entry, entry ∈ table.entries ↔ entry ∈ other.entries := by
    rintro ⟨extruder, offset⟩
    rw [mem_entries_iff, mem_entries_iff, h]
  have hperm := (List.perm_ext_iff_of_nodup (hnodup table) (hnodup other)).mpr hmem
  have hentries : table.entries = other.entries :=
    hperm.eq_of_pairwise (fun a b _ _ hlt hgt => absurd hlt (Nat.lt_asymm hgt))
      table.increasing other.increasing
  cases table
  cases other
  exact OffsetTable.mk.injEq .. ▸ hentries

end OffsetTable

namespace ProfileText

/-- The last entry of a written profile for an extruder, if it has one. -/
def lastEntry? (text : ProfileText) (extruder : Nat) : Option ExtruderEntry :=
  (text.extruders.filter fun entry => entry.index = extruder).getLast?

/-- Two written profiles that differ in the order of their entries at most, and not in the order
of those for one extruder. -/
structure Reorders (text other : ProfileText) : Prop where
  filament : text.filament = other.filament
  perm : text.extruders.Perm other.extruders
  order : ∀ extruder,
    (text.extruders.filter fun entry => entry.index = extruder) =
      other.extruders.filter fun entry => entry.index = extruder

/-- The table of a profile lists the offset of the last entry for an extruder. -/
theorem listed?_profile (text : ProfileText) (extruder : Nat) :
    text.profile.offsets.listed? extruder =
      (text.lastEntry? extruder).map ExtruderEntry.offset := by
  unfold profile lastEntry?
  rw [OffsetTable.listed?_ofEntries, List.filter_map, List.getLast?_map, Option.map_map]
  rfl

/-- **The last entry for an extruder counts.** -/
theorem nozzleOffset_profile (text : ProfileText) (extruder : Nat) :
    text.profile.nozzleOffset extruder =
      ((text.lastEntry? extruder).map ExtruderEntry.offset).getD .zero := by
  unfold Profile.nozzleOffset
  rw [OffsetTable.offset_eq_listed?, listed?_profile]

/-- **Entries for different extruders may change places.** -/
theorem Reorders.profile_eq {text other : ProfileText} (h : text.Reorders other) :
    text.profile = other.profile := by
  have hoffsets : text.profile.offsets = other.profile.offsets := by
    refine OffsetTable.eq_of_listed? fun extruder => ?_
    rw [listed?_profile, listed?_profile, lastEntry?, lastEntry?, h.order]
  show (⟨text.filament, text.profile.offsets⟩ : Profile) =
    ⟨other.filament, other.profile.offsets⟩
  rw [h.filament, hoffsets]

/-- Two neighbours may change places if they are for different extruders. -/
theorem Reorders.swap (filament : Filament) (front back : List ExtruderEntry)
    {entry next : ExtruderEntry} (h : entry.index ≠ next.index) :
    Reorders ⟨filament, front ++ entry :: next :: back⟩
      ⟨filament, front ++ next :: entry :: back⟩ where
  filament := rfl
  perm := (List.Perm.swap next entry back).append_left front
  order := by
    intro extruder
    simp only [List.filter_append, List.filter_cons]
    by_cases hentry : entry.index = extruder
    · have hnext : next.index ≠ extruder := fun heq => h (hentry.trans heq.symm)
      simp only [hentry, hnext, decide_true, decide_false, if_true]
      rfl
    · simp only [hentry, decide_false]
      rfl

end ProfileText

/-- **Of several entries for one extruder the last counts, and their order matters for nothing
else.**  In the profile that a written one denotes, the offset of an extruder is that of the last
entry for it, and zero if there is none.  If entries change places, but not those for one
extruder, then the profile is the same one, and so is everything that is read with it. -/
theorem lastEntry_counts :
    (∀ (text : ProfileText) (extruder : Nat),
      text.profile.nozzleOffset extruder =
        ((text.lastEntry? extruder).map ExtruderEntry.offset).getD .zero) ∧
      ∀ text other : ProfileText, text.Reorders other →
        text.profile = other.profile ∧
          ∀ (σ : Type) (rule : ThicknessRule) (observer : Observer σ) (files : σ → Files)
            (input : Input) (state : σ),
            Reader.read ⟨.given text.profile, rule, observer⟩ files input state =
              Reader.read ⟨.given other.profile, rule, observer⟩ files input state := by
  refine ⟨ProfileText.nozzleOffset_profile, fun text other h => ⟨h.profile_eq, ?_⟩⟩
  intro σ rule observer files input state
  rw [h.profile_eq]

/-- Two entries for extruder 1, and one for extruder 2 in between. -/
def nestedEntries : ProfileText :=
  ⟨.unknown, [⟨1, ⟨18.0, 2.0⟩⟩, ⟨2, ⟨3.0, 0.0⟩⟩, ⟨1, ⟨5.0, 1.0⟩⟩]⟩

/-- The same entries, that for extruder 2 first. -/
def sortedOutEntries : ProfileText :=
  ⟨.unknown, [⟨2, ⟨3.0, 0.0⟩⟩, ⟨1, ⟨18.0, 2.0⟩⟩, ⟨1, ⟨5.0, 1.0⟩⟩]⟩

/-- The second of the two entries for extruder 1 counts, wherever that for extruder 2 stands. -/
theorem lastEntry_counts_nested :
    nestedEntries.Reorders sortedOutEntries ∧
      nestedEntries.profile.nozzleOffset 1 = ⟨5.0, 1.0⟩ ∧
      nestedEntries.profile = sortedOutEntries.profile ∧
      Reader.read ⟨.given nestedEntries.profile, .standard, .silent⟩ (fun _ => Files.ofList [])
          (.lines ["T1 G1 X5", "T2 G1 Y2"]) () =
        Reader.read ⟨.given sortedOutEntries.profile, .standard, .silent⟩
          (fun _ => Files.ofList []) (.lines ["T1 G1 X5", "T2 G1 Y2"]) () := by
  have hreorders : nestedEntries.Reorders sortedOutEntries :=
    ProfileText.Reorders.swap .unknown [] [⟨1, ⟨5.0, 1.0⟩⟩] (by decide)
  obtain ⟨hprofile, hread⟩ := lastEntry_counts.2 nestedEntries sortedOutEntries hreorders
  have hlast : nestedEntries.profile.nozzleOffset 1 = ⟨5.0, 1.0⟩ :=
    lastEntry_counts.1 nestedEntries 1
  exact ⟨hreorders, hlast, hprofile, hread Unit .standard .silent _ _ ()⟩

end PrintPath
