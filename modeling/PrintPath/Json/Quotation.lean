import Mathlib.Data.List.Basic
import PrintPath.Json.Basic

/-!
# Quoting a text loses nothing

Between quotation marks most characters stand for themselves.  The others are escaped, by a
backslash and a letter or, if they have no letter, by the digits of their code point.  Which of
the three forms a character has can be seen from what is written, and so can where it ends
(`escape_append_injective`).  So two texts that are quoted alike are the same
(`quote_injective`).
-/

namespace PrintPath
namespace Json

/-- The characters that have an escape of their own, and the letters of those. -/
def shortEscapes : List (Char × Char) :=
  [('"', '"'), ('\\', '\\'), ('\x08', 'b'), ('\x0c', 'f'), ('\n', 'n'), ('\r', 'r'), ('\t', 't')]

/-- A character is written in one of three forms. -/
theorem escape_cases (c : Char) :
    (∃ letter, (c, letter) ∈ shortEscapes ∧ escape c = ['\\', letter]) ∨
      (c.toNat < 0x20 ∧ escape c = ['\\', 'u', '0', '0'] ++ hexPair c.toNat) ∨
      c ≠ '\\' ∧ escape c = [c] := by
  by_cases hshort : ∃ letter, (c, letter) ∈ shortEscapes
  · obtain ⟨letter, hletter⟩ := hshort
    have hescape : ∀ entry ∈ shortEscapes, escape entry.1 = ['\\', entry.2] := by decide
    exact Or.inl ⟨letter, hletter, hescape _ hletter⟩
  · have hne : ∀ entry ∈ shortEscapes, c ≠ entry.1 := by
      rintro entry hentry rfl
      exact hshort ⟨entry.2, hentry⟩
    simp only [shortEscapes, List.forall_mem_cons] at hne
    obtain ⟨hquote, hbackslash, hbackspace, hfeed, hline, hreturn, htab, -⟩ := hne
    unfold escape
    rw [if_neg hquote, if_neg hbackslash, if_neg hbackspace, if_neg hfeed, if_neg hline,
      if_neg hreturn, if_neg htab]
    by_cases hcontrol : c.toNat < 0x20
    · rw [if_pos hcontrol]
      exact Or.inr (Or.inl ⟨hcontrol, rfl⟩)
    · rw [if_neg hcontrol]
      exact Or.inr (Or.inr ⟨hbackslash, rfl⟩)

/-- Small numbers have different digits. -/
theorem hexPair_injective {m n : Nat} (hm : m < 0x20) (hn : n < 0x20)
    (h : hexPair m = hexPair n) : m = n := by
  have hall : ∀ m < 0x20, ∀ n < 0x20, hexPair m = hexPair n → m = n := by decide +kernel
  exact hall m hm n hn h

/-- **What is written for a character tells which one it is and where it ends.** -/
theorem escape_append_injective {c d : Char} {text other : List Char}
    (h : escape c ++ text = escape d ++ other) : c = d ∧ text = other := by
  have hletters : ∀ entry ∈ shortEscapes, ∀ another ∈ shortEscapes,
      entry.2 = another.2 → entry.1 = another.1 := by decide
  have hlong : ∀ entry ∈ shortEscapes, entry.2 ≠ 'u' := by decide
  rcases escape_cases c with ⟨letter, hc, heq⟩ | ⟨hc, heq⟩ | ⟨hc, heq⟩ <;>
    rcases escape_cases d with ⟨another, hd, heq'⟩ | ⟨hd, heq'⟩ | ⟨hd, heq'⟩ <;>
    rw [heq, heq'] at h
  · injection h with _ h
    injection h with hletter htext
    exact ⟨hletters _ hc _ hd hletter, htext⟩
  · injection h with _ h
    injection h with hletter _
    exact absurd hletter (hlong _ hc)
  · injection h with hbackslash _
    exact absurd hbackslash.symm hd
  · injection h with _ h
    injection h with hletter _
    exact absurd hletter.symm (hlong _ hd)
  · rw [List.append_assoc, List.append_assoc] at h
    have hpair := List.append_inj (List.append_cancel_left h) rfl
    exact ⟨Char.toNat_inj.mp (hexPair_injective hc hd hpair.1), hpair.2⟩
  · injection h with hbackslash _
    exact absurd hbackslash.symm hd
  · injection h with hbackslash _
    exact absurd hbackslash hc
  · injection h with hbackslash _
    exact absurd hbackslash hc
  · injection h with hchar htext
    exact ⟨hchar, htext⟩

theorem flatMap_escape_injective {text other : List Char}
    (h : text.flatMap escape = other.flatMap escape) : text = other := by
  have hne : ∀ c, escape c ≠ [] := by
    intro c
    rcases escape_cases c with ⟨letter, -, heq⟩ | ⟨-, heq⟩ | ⟨-, heq⟩ <;>
      rw [heq] <;> exact List.cons_ne_nil _ _
  induction text generalizing other with
  | nil =>
    cases other with
    | nil => rfl
    | cons d other => exact absurd (List.append_eq_nil_iff.mp h.symm).1 (hne d)
  | cons c text ih =>
    cases other with
    | nil => exact absurd (List.append_eq_nil_iff.mp h).1 (hne c)
    | cons d other =>
      rw [List.flatMap_cons, List.flatMap_cons] at h
      obtain ⟨rfl, hrest⟩ := escape_append_injective h
      rw [ih hrest]

/-- **Quoting a text loses nothing.** -/
theorem quote_injective {characters other : String} (h : quote characters = quote other) :
    characters = other := by
  have hlists := congrArg String.toList h
  unfold quote at hlists
  simp only [String.toList_append, String.toList_ofList] at hlists
  have hescaped := List.append_cancel_left (List.append_cancel_right hlists)
  exact String.toList_injective (flatMap_escape_injective hescaped)

end Json
end PrintPath
