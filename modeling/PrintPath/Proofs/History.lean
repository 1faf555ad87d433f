import Mathlib.Data.List.Basic
import Mathlib.Data.List.Induction

/-!
# Lists read with their history

What a line of a program means depends on the lines in front of it.  So a statement
about all lines of a program is a statement about each line *and its history*:
`alongHistory f entries` collects what `f` makes of the entries, one after the other,
where `f` is told the entries in front as well.

Programs grow at the end, and there the definition unfolds (`alongHistory_concat`):
one more entry adds what `f` makes of it and changes nothing that was there.  What was made
last is therefore decided by the last entry of which anything was made
(`getLast?_alongHistory_concat`).  What was made leads back to the entry that made it
(`exists_of_mem_alongHistory`), and where each entry makes one thing, the place leads back to the
entry as well (`exists_of_alongHistory_eq_append`).
-/

namespace PrintPath

variable {α β : Type}

/-- What `f` makes of the entries of a list, each with those in front of it. -/
def alongHistory (f : List α → α → List β) (entries : List α) : List β :=
  entries.zipIdx.flatMap fun entry => f (entries.take entry.2) entry.1

@[simp] theorem alongHistory_nil (f : List α → α → List β) : alongHistory f [] = [] := rfl

/-- One more entry adds what `f` makes of it. -/
theorem alongHistory_concat (f : List α → α → List β) (front : List α) (entry : α) :
    alongHistory f (front ++ [entry]) = alongHistory f front ++ f front entry := by
  unfold alongHistory
  rw [List.zipIdx_append, List.flatMap_append]
  congr 1
  · refine List.flatMap_congr fun old hold => ?_
    have hlt : old.2 < front.length := by
      have := List.snd_lt_of_mem_zipIdx hold
      omega
    rw [List.take_append_of_le_length (Nat.le_of_lt hlt)]
  · rw [List.zipIdx_singleton, List.flatMap_singleton, Nat.zero_add, List.take_left]

/-- What was made along some entries stays when more follow. -/
theorem alongHistory_mono (f : List α → α → List β) {short long : List α}
    (h : short <+: long) : alongHistory f short <+: alongHistory f long := by
  obtain ⟨rest, rfl⟩ := h
  induction rest using List.reverseRecOn with
  | nil => exact ⟨[], by rw [List.append_nil, List.append_nil]⟩
  | append_singleton rest entry ih =>
    rw [← List.append_assoc, alongHistory_concat]
    exact ih.trans (List.prefix_append _ _)

/-- What was made was made by some entry, from those in front of it. -/
theorem exists_of_mem_alongHistory {f : List α → α → List β} {entries : List α} {made : β}
    (h : made ∈ alongHistory f entries) :
    ∃ front entry, front ++ [entry] <+: entries ∧ made ∈ f front entry := by
  induction entries using List.reverseRecOn with
  | nil => exact absurd h List.not_mem_nil
  | append_singleton front entry ih =>
    rw [alongHistory_concat] at h
    rcases List.mem_append.mp h with hfront | hentry
    · obtain ⟨earlier, older, hprefix, hmade⟩ := ih hfront
      exact ⟨earlier, older, hprefix.trans (List.prefix_append _ _), hmade⟩
    · exact ⟨front, entry, List.prefix_rfl, hentry⟩

/-- What was made last is what the last entry made, or else what was made last before. -/
theorem getLast?_alongHistory_concat (f : List α → α → List β) (front : List α) (entry : α) :
    (alongHistory f (front ++ [entry])).getLast? =
      (f front entry).getLast?.or (alongHistory f front).getLast? := by
  rw [alongHistory_concat, List.getLast?_append]

/-- Where each entry makes one thing, what was made in some place was made by the entry in that
place. -/
theorem exists_of_alongHistory_eq_append {f : List α → α → List β}
    (hf : ∀ front entry, ∃ made, f front entry = [made]) {entries : List α}
    {early late : List β} {made : β} (h : alongHistory f entries = early ++ made :: late) :
    ∃ front entry rest, entries = front ++ entry :: rest ∧
      alongHistory f front = early ∧ f front entry = [made] := by
  induction entries using List.reverseRecOn generalizing late with
  | nil => exact absurd h.symm (List.append_ne_nil_of_right_ne_nil _ (List.cons_ne_nil _ _))
  | append_singleton front entry ih =>
    obtain ⟨last, hlast⟩ := hf front entry
    rw [alongHistory_concat, hlast] at h
    rcases List.eq_nil_or_concat late with rfl | ⟨between, final, rfl⟩
    · obtain ⟨hearly, hmade⟩ := List.append_inj' h rfl
      exact ⟨front, entry, [], rfl, hearly, hlast.trans hmade⟩
    · -- something was made behind it, so that it is older than the last entry
      rw [List.concat_eq_append, ← List.cons_append, ← List.append_assoc] at h
      obtain ⟨earlier, older, rest, rfl, hearly, holder⟩ := ih (List.append_inj' h rfl).1
      exact ⟨earlier, older, rest ++ [entry], List.append_assoc _ _ _, hearly, holder⟩

end PrintPath
