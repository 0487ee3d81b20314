import CallSiteIds.Emission

/-!
# The order of records

Records are compared by their place first.  The order is total, and two records that come neither
before nor after each other stand at the same place.  So a list of records at different places
has one sorted form, whatever order its records came in (`sorted_eq_of_perm`).
-/

set_option autoImplicit false

namespace CallSiteIds.CallSiteRecord

open Std (TransCmp OrientedCmp)

/-- The comparison as a chain of comparisons of single fields. -/
theorem compare_eq_compareLex : compare =
    compareLex (compareOn fun r : CallSiteRecord => r.location.path)
      (compareLex (compareOn fun r : CallSiteRecord => r.location.line)
        (compareLex (compareOn fun r : CallSiteRecord => r.location.column)
          (compareLex (compareOn fun r : CallSiteRecord => r.targetType)
            (compareOn fun r : CallSiteRecord => r.methodName)))) := by
  have chain (first second : Ordering) : thenBy first second = first.then second := by
    cases first <;> rfl
  funext a b
  rw [compare, chain, chain, chain, chain]
  rfl

theorem le_iff_isLE {a b : CallSiteRecord} : le a b = true ↔ (compare a b).isLE = true := by
  rw [le]
  cases compare a b <;> decide

theorem le_trans {a b c : CallSiteRecord} (hab : le a b = true) (hbc : le b c = true) :
    le a c = true := by
  rw [le_iff_isLE, compare_eq_compareLex] at *
  exact TransCmp.isLE_trans hab hbc

theorem le_total (a b : CallSiteRecord) : (le a b || le b a) = true := by
  have swap : compare a b = (compare b a).swap := by
    rw [compare_eq_compareLex]
    exact OrientedCmp.eq_swap
  rw [le, le, swap]
  cases compare b a <;> rfl

/-- Records that come neither before nor after each other stand at the same place. -/
theorem location_eq_of_le {a b : CallSiteRecord} (hab : le a b = true) (hba : le b a = true) :
    a.location = b.location := by
  rw [le_iff_isLE, compare_eq_compareLex] at hab hba
  have same := OrientedCmp.isLE_antisymm hab hba
  rw [compareLex_eq_eq, compareLex_eq_eq, compareLex_eq_eq] at same
  obtain ⟨path, line, column, -⟩ := same
  have path := Std.LawfulEqOrd.eq_of_compare path
  have line := Std.LawfulEqOrd.eq_of_compare line
  have column := Std.LawfulEqOrd.eq_of_compare column
  cases ha : a.location
  cases hb : b.location
  simp_all

theorem pairwise_sorted (rs : List CallSiteRecord) :
    (sorted rs).Pairwise fun a b => le a b = true := by
  unfold sorted
  apply List.pairwise_mergeSort
  · intro a b c hab hbc
    exact le_trans hab hbc
  · exact le_total

theorem perm_sorted (rs : List CallSiteRecord) : (sorted rs).Perm rs :=
  List.mergeSort_perm rs le

/-- Records at different places have one sorted form. -/
theorem sorted_eq_of_perm {rs ss : List CallSiteRecord} (perm : rs.Perm ss)
    (apart : ∀ a ∈ rs, ∀ b ∈ rs, a.location = b.location → a = b) : sorted rs = sorted ss := by
  refine List.Perm.eq_of_pairwise ?_ (pairwise_sorted rs) (pairwise_sorted ss)
    ((perm_sorted rs).trans (perm.trans (perm_sorted ss).symm))
  intro a b ha hb hab hba
  have ha := (perm_sorted rs).mem_iff.1 ha
  have hb := perm.mem_iff.2 ((perm_sorted ss).mem_iff.1 hb)
  exact apart a ha b hb (location_eq_of_le hab hba)

end CallSiteIds.CallSiteRecord
