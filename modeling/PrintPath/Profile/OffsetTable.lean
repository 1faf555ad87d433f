/-!
# Nozzle offsets

A printer with several extruders mounts their nozzles side by side.  The table of
offsets lists, for each extruder that has one, how far its nozzle stands from that
of extruder 0.

The entries are kept in increasing order of the extruder's number, one for each.
So two tables that answer every look-up alike are equal, in whatever order their
entries were given.
-/

namespace PrintPath

/-- How far a nozzle stands from that of extruder 0, in millimetres. -/
structure NozzleOffset where
  x : Float
  y : Float
  deriving DecidableEq

namespace NozzleOffset

/-- No offset. -/
def zero : NozzleOffset := ⟨0.0, 0.0⟩

end NozzleOffset

/-- The offsets of the extruders that have one. -/
structure OffsetTable where
  /-- Extruder numbers with their offsets. -/
  entries : List (Nat × NozzleOffset)
  /-- No extruder is listed twice, and they are listed in order. -/
  increasing : entries.Pairwise fun a b => a.1 < b.1
  deriving DecidableEq

namespace OffsetTable

/-- The table without entries. -/
def empty : OffsetTable := ⟨[], .nil⟩

/-- Put an entry in its place, instead of the one with the same number if there is
one. -/
def insertEntry (extruder : Nat) (offset : NozzleOffset) :
    List (Nat × NozzleOffset) → List (Nat × NozzleOffset)
  | [] => [(extruder, offset)]
  | entry :: rest =>
    if extruder < entry.1 then (extruder, offset) :: entry :: rest
    else if extruder = entry.1 then (extruder, offset) :: rest
    else entry :: insertEntry extruder offset rest

theorem mem_insertEntry {extruder : Nat} {offset : NozzleOffset} {entry : Nat × NozzleOffset}
    {entries : List (Nat × NozzleOffset)} (h : entry ∈ insertEntry extruder offset entries) :
    entry = (extruder, offset) ∨ entry ∈ entries := by
  induction entries with
  | nil => exact .inl (List.mem_singleton.mp h)
  | cons head rest ih =>
    unfold insertEntry at h
    split at h
    · exact List.mem_cons.mp h
    · split at h
      · exact (List.mem_cons.mp h).imp id (List.mem_cons_of_mem _)
      · rcases List.mem_cons.mp h with rfl | h
        · exact .inr List.mem_cons_self
        · exact (ih h).imp id (List.mem_cons_of_mem _)

theorem pairwise_insertEntry (extruder : Nat) (offset : NozzleOffset)
    {entries : List (Nat × NozzleOffset)} (h : entries.Pairwise fun a b => a.1 < b.1) :
    (insertEntry extruder offset entries).Pairwise fun a b => a.1 < b.1 := by
  induction entries with
  | nil => exact List.pairwise_singleton _ _
  | cons head rest ih =>
    obtain ⟨hhead, hrest⟩ := List.pairwise_cons.mp h
    unfold insertEntry
    split
    next hlt =>
      refine List.pairwise_cons.mpr ⟨?_, h⟩
      intro entry he
      rcases List.mem_cons.mp he with rfl | he
      · exact hlt
      · exact Nat.lt_trans hlt (hhead entry he)
    next hge =>
      split
      next heq => exact List.pairwise_cons.mpr ⟨fun e he => by simpa [heq] using hhead e he, hrest⟩
      next hne =>
        refine List.pairwise_cons.mpr ⟨?_, ih hrest⟩
        intro entry he
        rcases mem_insertEntry he with rfl | he
        · simp only
          omega
        · exact hhead entry he

/-- The table with one more entry; a later entry of the same number wins. -/
def insert (table : OffsetTable) (extruder : Nat) (offset : NozzleOffset) : OffsetTable :=
  ⟨insertEntry extruder offset table.entries,
    pairwise_insertEntry extruder offset table.increasing⟩

/-- The table of entries given one after the other. -/
def ofEntries (entries : List (Nat × NozzleOffset)) : OffsetTable :=
  entries.foldl (fun table entry => table.insert entry.1 entry.2) empty

/-- The offset listed for an extruder.  One that is not listed has none. -/
def find (extruder : Nat) : List (Nat × NozzleOffset) → NozzleOffset
  | [] => .zero
  | entry :: rest => if extruder = entry.1 then entry.2 else find extruder rest

/-- The offset of an extruder. -/
def offset (table : OffsetTable) (extruder : Nat) : NozzleOffset :=
  find extruder table.entries

end OffsetTable
end PrintPath
