import CallSiteIds.Text.Blank

/-!
# What trimming leaves

Trimming a text gives the one part of it that neither begins nor ends with a blank and has only
blanks around it (`isTrimmed_iff`).
-/

set_option autoImplicit false

namespace CallSiteIds.Text

/-- A part of a text that has only blanks around it and neither begins nor ends with one. -/
structure IsTrimmed (cs part : List Char) : Prop where
  around : ∃ front back, cs = front ++ part ++ back ∧ (∀ c ∈ front, isBlank c = true) ∧
    ∀ c ∈ back, isBlank c = true
  first : ∀ c ∈ part.head?, isBlank c = false
  last : ∀ c ∈ part.getLast?, isBlank c = false

section

variable {α : Type} {test : α → Bool}

theorem eq_false_of_head?_dropWhile (xs : List α) :
    ∀ x ∈ (xs.dropWhile test).head?, test x = false := by
  intro x mem
  have first := List.head?_dropWhile_not test xs
  rw [Option.mem_def.1 mem] at first
  exact first

/-- What is dropped in front does not change what is kept. -/
theorem trimBoth_append_left {front : List α} (before : ∀ x ∈ front, test x = true)
    (xs : List α) : trimBoth test (front ++ xs) = trimBoth test xs := by
  rw [trimBoth, List.dropWhile_append_of_pos before, trimBoth]

theorem trimBoth_append_right {back : List α} (after : ∀ x ∈ back, test x = true)
    (xs : List α) : trimBoth test (xs ++ back) = trimBoth test xs := by
  have backwards : ∀ x ∈ back.reverse, test x = true := by simpa using after
  rw [trimBoth, trimBoth, List.dropWhile_append]
  split
  · rename_i none
    rw [List.isEmpty_iff] at none
    have all : (back ++ []).dropWhile test = [].dropWhile test :=
      List.dropWhile_append_of_pos after
    rw [List.append_nil] at all
    rw [all, none]
    rfl
  · rw [List.reverse_append, List.dropWhile_append_of_pos backwards]

/-- What is dropped at the end stands behind what is kept. -/
theorem trimBoth_append_dropped (xs : List α) :
    trimBoth test xs ++ ((xs.dropWhile test).reverse.takeWhile test).reverse =
      xs.dropWhile test := by
  have back := List.takeWhile_append_dropWhile (p := test) (l := (xs.dropWhile test).reverse)
  rw [← List.reverse_inj, List.reverse_append, List.reverse_reverse] at back
  exact back

theorem exists_around_trimBoth (test : α → Bool) (xs : List α) :
    ∃ front back, xs = front ++ trimBoth test xs ++ back ∧ (∀ x ∈ front, test x = true) ∧
      ∀ x ∈ back, test x = true := by
  have dropped {ys : List α} : ∀ x ∈ ys.takeWhile test, test x = true :=
    List.all_eq_true.1 List.all_takeWhile
  refine ⟨xs.takeWhile test, ((xs.dropWhile test).reverse.takeWhile test).reverse, ?_, dropped,
    fun x mem => dropped x (List.mem_reverse.1 mem)⟩
  rw [List.append_assoc, trimBoth_append_dropped, List.takeWhile_append_dropWhile]

end

theorem isTrimmed_trim (cs : List Char) : IsTrimmed cs (trim cs) := by
  refine ⟨exists_around_trimBoth isBlank cs, ?_, ?_⟩
  · intro c mem
    refine eq_false_of_head?_dropWhile cs c ?_
    rw [Option.mem_def] at mem ⊢
    rw [← trimBoth_append_dropped, List.head?_append]
    exact Option.or_eq_some_iff.2 (Or.inl mem)
  · intro c mem
    rw [trim, trimBoth, List.getLast?_reverse] at mem
    exact eq_false_of_head?_dropWhile _ c mem

/-- Trimming gives the part of a text that has only blanks around it and none at its ends. -/
theorem isTrimmed_iff {cs part : List Char} : IsTrimmed cs part ↔ trim cs = part := by
  constructor
  · rintro ⟨⟨front, back, rfl, before, after⟩, first, last⟩
    rw [trim, trimBoth_append_right after, trimBoth_append_left before]
    exact trimBoth_eq_self first last
  · rintro rfl
    exact isTrimmed_trim cs

end CallSiteIds.Text
