/-!
# Splitting at separators

Keys and qualified names are read from the right: what matters is the part after the last
separator.  `splitLast` gives both sides, and recovers any two texts joined by a separator that
the second does not contain (`splitLast_append`).  Paths and lines are split at every separator
(`splitAll`), and no part holds one (`notMem_of_mem_splitAll`).
-/

set_option autoImplicit false

namespace CallSiteIds.Text

/-- Splits a text at its last separator. -/
def splitLast (sep : Char) : List Char → Option (List Char × List Char)
  | [] => none
  | c :: rest =>
    match splitLast sep rest with
    | some (before, after) => some (c :: before, after)
    | none => if c = sep then some ([], rest) else none

/-- The part of a text after its last separator; the whole text if there is none. -/
def afterLast (sep : Char) (cs : List Char) : List Char :=
  match splitLast sep cs with
  | some (_, after) => after
  | none => cs

/-- A text is not split exactly when it lacks the separator. -/
theorem splitLast_eq_none_iff {sep : Char} {cs : List Char} :
    splitLast sep cs = none ↔ sep ∉ cs := by
  induction cs with
  | nil => simp [splitLast]
  | cons c rest ih =>
    rw [splitLast]
    cases hr : splitLast sep rest with
    | some p =>
      have : sep ∈ rest := by simpa [hr] using ih
      simp [this]
    | none =>
      have : sep ∉ rest := by simpa [hr] using ih
      by_cases hc : c = sep
      · simp [hc]
      · simp [hc, this, Ne.symm hc]

/-- The text after the last separator is the part that has none. -/
theorem splitLast_append {sep : Char} (before : List Char) {after : List Char}
    (h : sep ∉ after) : splitLast sep (before ++ sep :: after) = some (before, after) := by
  induction before with
  | nil => simp [splitLast, splitLast_eq_none_iff.2 h]
  | cons c before ih => simp [splitLast, ih]

/-- The two sides of a split make up the text, and the second has no separator. -/
theorem eq_append_of_splitLast {sep : Char} {cs before after : List Char}
    (h : splitLast sep cs = some (before, after)) :
    cs = before ++ sep :: after ∧ sep ∉ after := by
  induction cs generalizing before with
  | nil => simp [splitLast] at h
  | cons c rest ih =>
    rw [splitLast] at h
    cases hr : splitLast sep rest with
    | some p =>
      obtain ⟨b, a⟩ := p
      simp only [hr, Option.some.injEq, Prod.mk.injEq] at h
      obtain ⟨rfl, rfl⟩ := h
      obtain ⟨e, n⟩ := ih hr
      exact ⟨by rw [e]; rfl, n⟩
    | none =>
      simp only [hr] at h
      split at h
      · rename_i hc
        simp only [Option.some.injEq, Prod.mk.injEq] at h
        obtain ⟨rfl, rfl⟩ := h
        exact ⟨by rw [hc]; rfl, splitLast_eq_none_iff.1 hr⟩
      · cases h

/-- Two joined texts are equal only if their parts are, when the second parts lack the
separator. -/
theorem append_cons_inj {sep : Char} {before before' after after' : List Char}
    (h : sep ∉ after) (h' : sep ∉ after')
    (e : before ++ sep :: after = before' ++ sep :: after') :
    before = before' ∧ after = after' := by
  have := splitLast_append before h
  rw [e, splitLast_append before' h', Option.some.injEq, Prod.mk.injEq] at this
  exact ⟨this.1.symm, this.2.symm⟩

/-- Splits a text at every separator; a text without separators is one part. -/
def splitAll (sep : Char) : List Char → List (List Char)
  | [] => [[]]
  | c :: rest =>
    if c = sep then [] :: splitAll sep rest
    else
      match splitAll sep rest with
      | [] => [[c]]
      | part :: parts => (c :: part) :: parts

/-- A text without the separator is one part. -/
theorem splitAll_of_notMem {sep : Char} {cs : List Char} (h : sep ∉ cs) :
    splitAll sep cs = [cs] := by
  induction cs with
  | nil => rfl
  | cons c rest ih =>
    rw [List.mem_cons, not_or] at h
    rw [splitAll, if_neg (Ne.symm h.1), ih h.2]

/-- No part of a split text holds the separator. -/
theorem notMem_of_mem_splitAll {sep : Char} {cs part : List Char}
    (h : part ∈ splitAll sep cs) : sep ∉ part := by
  induction cs generalizing part with
  | nil =>
    obtain rfl : part = [] := by simpa [splitAll] using h
    simp
  | cons c rest ih =>
    rw [splitAll] at h
    split at h
    · rcases List.mem_cons.1 h with rfl | h
      · simp
      · exact ih h
    · rename_i hc
      cases hs : splitAll sep rest with
      | nil =>
        obtain rfl : part = [c] := by simpa [hs] using h
        simpa using fun e => hc e.symm
      | cons p parts =>
        simp only [hs, List.mem_cons] at h
        rcases h with rfl | h
        · have : sep ∉ p := ih (by simp [hs])
          simpa [this] using fun e => hc e.symm
        · exact ih (by simp [hs, h])

end CallSiteIds.Text
