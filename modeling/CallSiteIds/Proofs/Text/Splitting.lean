import CallSiteIds.Text.Split
import Mathlib.Data.List.Basic

/-!
# Parts of a split text

Splitting at a separator loses nothing: joined again, the parts are the text
(`intercalate_splitAll`), and two texts that are joined by a separator are split by themselves
(`splitAll_append_sep`).  What follows the last separator is the one part without separators that
ends the text (`isLastPart_iff`).
-/

set_option autoImplicit false

namespace CallSiteIds.Text

theorem splitAll_ne_nil (sep : Char) (cs : List Char) : splitAll sep cs ≠ [] := by
  cases cs with
  | nil => exact List.cons_ne_nil _ _
  | cons c rest =>
    rw [splitAll]
    split
    · exact List.cons_ne_nil _ _
    · split <;> exact List.cons_ne_nil _ _

/-- A character that does not separate goes to the front of the first part. -/
theorem splitAll_cons_of_ne {sep c : Char} (other : c ≠ sep) {rest part : List Char}
    {parts : List (List Char)} (split : splitAll sep rest = part :: parts) :
    splitAll sep (c :: rest) = (c :: part) :: parts := by
  rw [splitAll, if_neg other, split]

theorem splitAll_cons_sep (sep : Char) (rest : List Char) :
    splitAll sep (sep :: rest) = [] :: splitAll sep rest := by
  rw [splitAll, if_pos rfl]

/-- A text that is joined by a separator is split on both sides of it. -/
theorem splitAll_append_sep (sep : Char) (front back : List Char) :
    splitAll sep (front ++ sep :: back) = splitAll sep front ++ splitAll sep back := by
  induction front with
  | nil =>
    rw [List.nil_append, splitAll_cons_sep]
    rfl
  | cons c front ih =>
    rw [List.cons_append]
    by_cases same : c = sep
    · subst same
      rw [splitAll_cons_sep, splitAll_cons_sep, ih, List.cons_append]
    · obtain ⟨part, parts, split⟩ := List.exists_cons_of_ne_nil (splitAll_ne_nil sep front)
      rw [split, List.cons_append] at ih
      rw [splitAll_cons_of_ne same ih, splitAll_cons_of_ne same split, List.cons_append]

/-- The parts of a text, joined again, are the text. -/
theorem intercalate_splitAll (sep : Char) (cs : List Char) :
    List.intercalate [sep] (splitAll sep cs) = cs := by
  induction cs with
  | nil => rfl
  | cons c rest ih =>
    obtain ⟨part, parts, split⟩ := List.exists_cons_of_ne_nil (splitAll_ne_nil sep rest)
    rw [split] at ih
    by_cases same : c = sep
    · subst same
      rw [splitAll_cons_sep, split, List.intercalate_cons_cons, ih]
      rfl
    · rw [splitAll_cons_of_ne same split]
      cases parts with
      | nil =>
        rw [List.intercalate_singleton] at *
        rw [ih]
      | cons next parts =>
        rw [List.intercalate_cons_cons] at *
        rw [← ih]
        rfl

/-- Apart from the separators the parts of a text hold its characters. -/
theorem mem_iff_mem_splitAll {sep c : Char} (other : c ≠ sep) {cs : List Char} :
    c ∈ cs ↔ ∃ part ∈ splitAll sep cs, c ∈ part := by
  induction cs with
  | nil => simp [splitAll]
  | cons d rest ih =>
    by_cases same : d = sep
    · subst same
      rw [splitAll_cons_sep, List.mem_cons, ih]
      simp [other]
    · obtain ⟨part, parts, split⟩ := List.exists_cons_of_ne_nil (splitAll_ne_nil sep rest)
      rw [splitAll_cons_of_ne same split, List.mem_cons, ih, split]
      simp [or_assoc]

/-! ## The last part -/

/-- A part without separators that is the whole text or follows a separator at its end. -/
def IsLastPart (sep : Char) (cs part : List Char) : Prop :=
  sep ∉ part ∧ (cs = part ∨ ∃ before, cs = before ++ sep :: part)

theorem isLastPart_iff {sep : Char} {cs part : List Char} :
    IsLastPart sep cs part ↔ afterLast sep cs = part := by
  constructor
  · rintro ⟨apart, rfl | ⟨before, rfl⟩⟩
    · rw [afterLast, splitLast_eq_none_iff.2 apart]
    · rw [afterLast, splitLast_append before apart]
  · rintro rfl
    cases split : splitLast sep cs with
    | none =>
      have whole : afterLast sep cs = cs := by rw [afterLast, split]
      rw [whole]
      exact ⟨splitLast_eq_none_iff.1 split, Or.inl rfl⟩
    | some sides =>
      have second : afterLast sep cs = sides.2 := by rw [afterLast, split]
      obtain ⟨joined, apart⟩ := eq_append_of_splitLast split
      rw [second]
      exact ⟨apart, Or.inr ⟨sides.1, joined⟩⟩

end CallSiteIds.Text
