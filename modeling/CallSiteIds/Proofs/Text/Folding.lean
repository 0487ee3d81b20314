import CallSiteIds.Text.Lines

/-!
# Folded line terminators

Folding leaves a text alone exactly when it holds no carriage return (`foldNewlines_eq_self_iff`).
Two texts are folded one by one unless a carriage return at the end of the first meets a line feed
at the start of the second (`foldNewlines_append`), and other characters come out as they went in.
-/

set_option autoImplicit false

namespace CallSiteIds.Text

variable {c : Char} {cs ds : List Char}

theorem foldNewlines_cons (other : c ≠ '\r') : foldNewlines (c :: cs) = c :: foldNewlines cs :=
  foldNewlines.eq_4 c cs (fun _ same _ => other same) other

theorem foldNewlines_return (apart : cs.head? ≠ some '\n') :
    foldNewlines ('\r' :: cs) = '\n' :: foldNewlines cs :=
  foldNewlines.eq_3 cs fun _ same => apart (by rw [same]; rfl)

/-- Texts are folded one by one when no pair of terminators is cut in two. -/
theorem foldNewlines_append (seam : cs.getLast? = some '\r' → ds.head? ≠ some '\n') :
    foldNewlines (cs ++ ds) = foldNewlines cs ++ foldNewlines ds := by
  have last {a : Char} {rest : List Char} (h : rest.getLast? = some '\r') :
      (a :: rest).getLast? = some '\r' := by
    rw [List.getLast?_cons, h, Option.getD_some]
  fun_induction foldNewlines cs with
  | case1 => rfl
  | case2 rest ih =>
    rw [List.cons_append, List.cons_append, foldNewlines, ih fun h => seam (last (last h)),
      List.cons_append]
  | case3 rest apart ih =>
    rw [List.cons_append, foldNewlines_return, ih fun h => seam (last h), List.cons_append]
    cases rest with
    | nil => exact seam rfl
    | cons d rest =>
      intro same
      injection same with same
      exact apart rest (by rw [same])
  | case4 c rest _ other ih =>
    rw [List.cons_append, foldNewlines_cons other, ih fun h => seam (last h), List.cons_append]

theorem return_notMem_foldNewlines (cs : List Char) : '\r' ∉ foldNewlines cs := by
  fun_induction foldNewlines cs with
  | case1 => exact List.not_mem_nil
  | case2 rest ih | case3 rest _ ih => exact List.not_mem_cons_of_ne_of_not_mem (by decide) ih
  | case4 c rest _ other ih => exact List.not_mem_cons_of_ne_of_not_mem (Ne.symm other) ih

theorem foldNewlines_eq_self_iff : foldNewlines cs = cs ↔ '\r' ∉ cs := by
  constructor
  · intro same
    rw [← same]
    exact return_notMem_foldNewlines cs
  · exact foldNewlines_eq_self

theorem foldNewlines_eq_nil_iff : foldNewlines cs = [] ↔ cs = [] := by
  fun_cases foldNewlines cs <;> simp

/-- A character that is no line terminator is neither added nor left out. -/
theorem mem_foldNewlines_iff (noReturn : c ≠ '\r') (noFeed : c ≠ '\n') :
    c ∈ foldNewlines cs ↔ c ∈ cs := by
  fun_induction foldNewlines cs with
  | case1 => rfl
  | case2 rest ih => simp [ih, noReturn, noFeed]
  | case3 rest _ ih => simp [ih, noReturn, noFeed]
  | case4 d rest _ _ ih => rw [List.mem_cons, List.mem_cons, ih]

end CallSiteIds.Text
