import CallSiteIds.Emission
import CallSiteIds.Proofs.Location.Keys
import Mathlib.Data.List.Forall2

/-!
# Routines and manifest records

A record gives a routine and a manifest record together, and both carry the number of the
routine in their name.  Numbers only grow, and a number is what follows the last underscore of a
name, so no name is given twice.  The literals of the manifest record answer the marked
parameters one by one, and the routine uses them at the same positions.
-/

set_option autoImplicit false

namespace CallSiteIds

open Source

/-! ## Literals -/

namespace CallSiteRecord

/-- An assignment that answers a marked parameter of a record. -/
structure Answers (r : CallSiteRecord) (m : MarkedParameter) (a : LiteralAssignment) : Prop where
  parameter : a.parameter = (r.parameters[m.ordinal]?.map (·.name)).getD ""
  ordinal : a.ordinal = m.ordinal
  lead : a.lead = m.lead
  literal : ∃ f, m.format.resolve = .ok f ∧ a.format = f.displayName ∧
    a.literal = Literal.literal r.locationKey m.ordinal f m.lead

/-- Marked parameters are answered one by one, in order. -/
theorem forall₂_answers_of_literalsOf {r : CallSiteRecord} {ms : List MarkedParameter}
    {assignments : List LiteralAssignment} (h : r.literalsOf ms = .ok assignments) :
    List.Forall₂ r.Answers ms assignments := by
  induction ms generalizing assignments with
  | nil =>
    injection h with h
    subst h
    exact .nil
  | cons m rest ih =>
    rw [literalsOf] at h
    split at h
    · cases h
    · rename_i f resolved
      split at h
      · cases h
      · rename_i others later
        injection h with h
        subst h
        exact .cons ⟨rfl, rfl, rfl, f, resolved, rfl, rfl⟩ (ih later)

theorem answers_of_literalsOf {r : CallSiteRecord} {ms : List MarkedParameter}
    {assignments : List LiteralAssignment} (h : r.literalsOf ms = .ok assignments) :
    (∀ a ∈ assignments, ∃ m ∈ ms, r.Answers m a) ∧
      assignments.map (·.ordinal) = ms.map fun m => (m.ordinal : Int) := by
  have answered := forall₂_answers_of_literalsOf h
  clear h
  induction answered with
  | nil => exact ⟨by simp, rfl⟩
  | cons answers _ ih =>
    obtain ⟨later, ordinals⟩ := ih
    constructor
    · intro a mem
      rcases List.mem_cons.1 mem with rfl | mem
      · exact ⟨_, List.mem_cons_self, answers⟩
      · obtain ⟨n, inside, answers⟩ := later a mem
        exact ⟨n, List.mem_cons_of_mem _ inside, answers⟩
    · rw [List.map_cons, List.map_cons, ordinals, answers.ordinal]

theorem exists_literalsOf {r : CallSiteRecord} {ms : List MarkedParameter}
    (settled : ∀ m ∈ ms, ∃ f, m.format = .settled f) :
    ∃ assignments, r.literalsOf ms = .ok assignments := by
  induction ms with
  | nil => exact ⟨[], rfl⟩
  | cons m rest ih =>
    obtain ⟨f, format⟩ := settled m List.mem_cons_self
    obtain ⟨others, later⟩ := ih fun n mem => settled n (List.mem_cons_of_mem _ mem)
    rw [literalsOf, format, Literal.FormatRequest.resolve]
    simp only [later]
    exact ⟨_, rfl⟩

end CallSiteRecord

/-- The literal at a position is that of the assignment with the position, when no two
assignments share one. -/
theorem literalAt?_eq_some_iff {assignments : List LiteralAssignment}
    (distinct : (assignments.map (·.ordinal)).Nodup) {i : Nat} {text : String} :
    literalAt? assignments i = some text ↔
      ∃ a ∈ assignments, a.ordinal = (i : Int) ∧ a.literal = text := by
  rw [literalAt?, Option.map_eq_some_iff]
  constructor
  · rintro ⟨a, found, rfl⟩
    have same := List.find?_some found
    exact ⟨a, List.mem_reverse.1 (List.mem_of_find?_eq_some found), by simpa using same, rfl⟩
  · rintro ⟨a, mem, ordinal, rfl⟩
    refine ⟨a, ?_, rfl⟩
    have mem := List.mem_reverse.2 mem
    have distinct : (assignments.reverse.map (·.ordinal)).Nodup :=
      ((List.reverse_perm assignments).map _).nodup_iff.2 distinct
    generalize assignments.reverse = as at mem distinct
    induction as with
    | nil => cases mem
    | cons b as ih =>
      rw [List.map_cons, List.nodup_cons] at distinct
      rcases List.mem_cons.1 mem with rfl | mem
      · exact List.find?_cons_of_pos (by simpa using ordinal)
      · rw [List.find?_cons_of_neg]
        · exact ih mem distinct.2
        · intro same
          have same : b.ordinal = a.ordinal := by rw [ordinal]; simpa using same
          exact distinct.1 (same ▸ List.mem_map_of_mem mem)

theorem literalAt?_eq_none_iff {assignments : List LiteralAssignment} {i : Nat} :
    literalAt? assignments i = none ↔ ∀ a ∈ assignments, a.ordinal ≠ (i : Int) := by
  simp [literalAt?]

/-- A routine forwards the parameters of its record with the literals at their positions. -/
theorem CallSiteRecord.getElem?_arguments_routine {r : CallSiteRecord}
    {assignments : List LiteralAssignment} (n k : Nat) :
    (r.routine n assignments).arguments[k]? =
      (r.parameters[k]?).map fun p => ⟨p.name, literalAt? assignments k⟩ := by
  unfold routine
  rw [List.getElem?_map, List.getElem?_zipIdx, Nat.zero_add, Option.map_map]
  rfl

/-! ## What one record gives -/

/-- What is known of a routine and a manifest record that a record gave under a number. -/
structure IsEmittedAs (r : CallSiteRecord) (n : Nat) (made : Routine) (i : InterceptRecord) :
    Prop where
  literals : r.literals = .ok i.literals
  routine : made = r.routine n i.literals
  intercept : i = r.intercept made.name i.literals

theorem isEmittedAs_of_ofRecord {n : Nat} {r : CallSiteRecord} {made : Routine}
    {i : InterceptRecord} (h : Emitted.ofRecord n r = .routine made i) :
    IsEmittedAs r n made i := by
  rw [Emitted.ofRecord] at h
  split at h
  · cases h
  · rename_i assignments literals
    injection h with routine intercept
    subst intercept
    exact ⟨literals, routine.symm, by rw [routine]; rfl⟩

namespace IsEmittedAs

variable {r : CallSiteRecord} {n : Nat} {made : Routine} {i : InterceptRecord}

theorem schemaVersion (h : IsEmittedAs r n made i) :
    i.schemaVersion = CallSiteIds.schemaVersion := by
  rw [h.intercept]
  rfl

theorem locationKey (h : IsEmittedAs r n made i) : i.locationKey = r.locationKey := by
  rw [h.intercept]
  rfl

theorem routineName (h : IsEmittedAs r n made i) : i.routineName = made.name := by
  rw [h.intercept]
  rfl

/-- The name of a routine ends in an underscore and its number. -/
theorem name (h : IsEmittedAs r n made i) : made.name.toList =
    toIdentifier r.methodName.toList ++ '_' :: Decimal.integerText n := by
  rw [h.routine]
  simp [CallSiteRecord.routine, Decimal.integerString]

end IsEmittedAs

theorem underscore_notMem_integerText (i : Int) : '_' ∉ Decimal.integerText i :=
  Decimal.notMem_integerText (by decide) (by decide) i

/-- Routines with different numbers have different names. -/
theorem name_ne_of_number_ne {r s : CallSiteRecord} {m n : Nat} {made other : Routine}
    {i j : InterceptRecord} (h : IsEmittedAs r m made i) (h' : IsEmittedAs s n other j)
    (ne : m ≠ n) : i.routineName ≠ j.routineName := by
  intro same
  rw [h.routineName, h'.routineName] at same
  have texts := congrArg String.toList same
  rw [h.name, h'.name] at texts
  have numbers := (Text.append_cons_inj (underscore_notMem_integerText m)
    (underscore_notMem_integerText n) texts).2
  have := Decimal.integerText_injective numbers
  omega

/-! ## Emitting one record after the other -/

namespace Emission

/-- Where routines and manifest records agree in their names one by one, their lists do. -/
theorem names_eq_of_agree {emitted : List Emitted}
    (agree : ∀ made i, .routine made i ∈ emitted → made.name = i.routineName) :
    (emitted.filterMap Emitted.routine?).map (·.name) =
      (emitted.filterMap Emitted.intercept?).map (·.routineName) := by
  induction emitted with
  | nil => rfl
  | cons e rest ih =>
    have later := ih fun made i mem => agree made i (List.mem_cons_of_mem _ mem)
    cases e with
    | skipped key target error => exact later
    | routine made i =>
      show made.name :: _ = i.routineName :: _
      rw [later, agree made i List.mem_cons_self]

/-- Whatever is emitted comes from a record, with a number that is not below the first. -/
theorem exists_of_mem_emitFrom {index : Nat} {rs : List CallSiteRecord} {e : Emitted}
    (mem : e ∈ emitFrom index rs) : ∃ r ∈ rs, ∃ n, index ≤ n ∧ e = Emitted.ofRecord n r := by
  induction rs generalizing index with
  | nil => cases mem
  | cons r rs ih =>
    rw [emitFrom] at mem
    split at mem
    · rename_i key target error made
      rcases List.mem_cons.1 mem with rfl | mem
      · exact ⟨r, List.mem_cons_self, index, Nat.le_refl _, made.symm⟩
      · obtain ⟨s, inside, n, le, e⟩ := ih mem
        exact ⟨s, List.mem_cons_of_mem _ inside, n, le, e⟩
    · rename_i routine i made
      rcases List.mem_cons.1 mem with rfl | mem
      · exact ⟨r, List.mem_cons_self, index, Nat.le_refl _, made.symm⟩
      · obtain ⟨s, inside, n, le, e⟩ := ih mem
        exact ⟨s, List.mem_cons_of_mem _ inside, n, by omega, e⟩

/-- The manifest of the records that are emitted from a number on. -/
def interceptsFrom (index : Nat) (rs : List CallSiteRecord) : List InterceptRecord :=
  (emitFrom index rs).filterMap Emitted.intercept?

/-- Each manifest record comes with a routine from a record. -/
theorem exists_of_mem_interceptsFrom {index : Nat} {rs : List CallSiteRecord}
    {i : InterceptRecord} (mem : i ∈ interceptsFrom index rs) :
    ∃ r ∈ rs, ∃ n made, index ≤ n ∧ IsEmittedAs r n made i ∧
      .routine made i ∈ emitFrom index rs := by
  obtain ⟨e, inside, kept⟩ := List.mem_filterMap.1 mem
  obtain ⟨r, source, n, le, rfl⟩ := exists_of_mem_emitFrom inside
  cases made : Emitted.ofRecord n r with
  | skipped key target error =>
    rw [made] at kept
    cases kept
  | routine routine j =>
    rw [made] at kept inside
    injection kept with e
    subst e
    exact ⟨r, source, n, routine, le, isEmittedAs_of_ofRecord made, inside⟩

/-- What the next record adds to the manifest. -/
theorem interceptsFrom_cons (index : Nat) (r : CallSiteRecord) (rs : List CallSiteRecord) :
    interceptsFrom index (r :: rs) = interceptsFrom index rs ∨
      ∃ made i, IsEmittedAs r index made i ∧
        interceptsFrom index (r :: rs) = i :: interceptsFrom (index + 1) rs := by
  rw [interceptsFrom, emitFrom]
  split
  · exact Or.inl rfl
  · rename_i made i same
    exact Or.inr ⟨made, i, isEmittedAs_of_ofRecord same, rfl⟩

theorem nodup_names_interceptsFrom (index : Nat) (rs : List CallSiteRecord) :
    ((interceptsFrom index rs).map (·.routineName)).Nodup := by
  induction rs generalizing index with
  | nil => exact List.nodup_nil
  | cons r rs ih =>
    rcases interceptsFrom_cons index r rs with same | ⟨made, i, emitted, same⟩
    · rw [same]
      exact ih index
    · rw [same, List.map_cons, List.nodup_cons]
      refine ⟨?_, ih (index + 1)⟩
      intro mem
      obtain ⟨j, inside, name⟩ := List.mem_map.1 mem
      obtain ⟨s, -, n, other, later, emitted', -⟩ := exists_of_mem_interceptsFrom inside
      exact name_ne_of_number_ne emitted' emitted (by omega) name

/-- The manifest names the routines, in their order. -/
theorem names_routines_ofRecords (options : UnitOptions) (rs : List CallSiteRecord) :
    (ofRecords options rs).routines.map (·.name) =
      (ofRecords options rs).intercepts.map (·.routineName) := by
  apply names_eq_of_agree
  intro made i mem
  obtain ⟨r, -, n, -, same⟩ := exists_of_mem_emitFrom mem
  exact (isEmittedAs_of_ofRecord same.symm).routineName.symm

theorem keys_interceptsFrom (index : Nat) (rs : List CallSiteRecord) :
    ((interceptsFrom index rs).map (·.locationKey)).Sublist (rs.map (·.locationKey)) := by
  induction rs generalizing index with
  | nil => exact List.Sublist.refl _
  | cons r rs ih =>
    rcases interceptsFrom_cons index r rs with same | ⟨made, i, emitted, same⟩
    · rw [same]
      exact (ih index).trans (List.sublist_cons_self _ _)
    · rw [same, List.map_cons, List.map_cons, emitted.locationKey]
      exact (ih (index + 1)).cons_cons _

theorem map_interceptsFrom_of_settled {rs : List CallSiteRecord}
    (settled : ∀ r ∈ rs, ∀ m ∈ r.markedParameters, ∃ f, m.format = .settled f) (index : Nat) :
    (interceptsFrom index rs).map (fun i => (i.locationKey, i.target)) =
      rs.map fun r => (r.locationKey, r.target) := by
  induction rs generalizing index with
  | nil => rfl
  | cons r rs ih =>
    obtain ⟨assignments, literals⟩ :=
      CallSiteRecord.exists_literalsOf (r := r) (settled r List.mem_cons_self)
    have literals : r.literals = .ok assignments := literals
    have later := ih (fun s mem => settled s (List.mem_cons_of_mem _ mem)) (index + 1)
    rw [interceptsFrom, emitFrom, Emitted.ofRecord, literals]
    simp only [List.filterMap_cons, Emitted.intercept?, List.map_cons]
    rw [← later]
    rfl

/-! ## Sorting first -/

/-- Records whose formats are settled are all in the manifest, in sorted order. -/
theorem map_intercepts_of_settled {options : UnitOptions} {rs : List CallSiteRecord}
    (settled : ∀ r ∈ rs, ∀ m ∈ r.markedParameters, ∃ f, m.format = .settled f) :
    (generate options rs).intercepts.map (fun i => (i.locationKey, i.target)) =
      (CallSiteRecord.sorted rs).map fun r => (r.locationKey, r.target) :=
  map_interceptsFrom_of_settled
    (fun r mem => settled r ((List.mergeSort_perm rs _).mem_iff.1 mem)) 0

theorem nodup_names (options : UnitOptions) (rs : List CallSiteRecord) :
    ((generate options rs).intercepts.map (·.routineName)).Nodup :=
  nodup_names_interceptsFrom 0 _

/-- The manifest of sorted records names the routines, in their order. -/
theorem names_routines (options : UnitOptions) (rs : List CallSiteRecord) :
    (generate options rs).routines.map (·.name) =
      (generate options rs).intercepts.map (·.routineName) :=
  names_routines_ofRecords options _

theorem eq_of_name_eq {options : UnitOptions} {rs : List CallSiteRecord} {made other : Routine}
    (mem : made ∈ (generate options rs).routines) (mem' : other ∈ (generate options rs).routines)
    (same : made.name = other.name) : made = other := by
  have distinct : ((generate options rs).routines.map (·.name)).Nodup := by
    rw [names_routines]
    exact nodup_names options rs
  obtain ⟨j, at'⟩ := List.mem_iff_getElem?.1 mem
  obtain ⟨k, at''⟩ := List.mem_iff_getElem?.1 mem'
  obtain ⟨inside, -⟩ := List.getElem?_eq_some_iff.1 at'
  have place : j = k := by
    rw [← List.getElem?_inj (by rwa [List.length_map]) distinct, List.getElem?_map,
      List.getElem?_map, at', at'', Option.map_some, Option.map_some, same]
  rw [place, at''] at at'
  injection at' with e
  exact e.symm

theorem nodup_keys (options : UnitOptions) {rs : List CallSiteRecord}
    (distinct : (rs.map (·.locationKey)).Nodup) :
    ((generate options rs).intercepts.map (·.locationKey)).Nodup := by
  have sorted : ((CallSiteRecord.sorted rs).map (·.locationKey)).Nodup :=
    ((List.mergeSort_perm rs _).map _).nodup_iff.2 distinct
  exact sorted.sublist (keys_interceptsFrom 0 _)

theorem length_intercepts_le (options : UnitOptions) (rs : List CallSiteRecord) :
    (generate options rs).intercepts.length ≤ rs.length := by
  have keys := (keys_interceptsFrom 0 (CallSiteRecord.sorted rs)).length_le
  rw [List.length_map, List.length_map] at keys
  exact Nat.le_trans keys (Nat.le_of_eq (List.mergeSort_perm rs _).length_eq)

/-- Each manifest record comes with a routine from one of the records. -/
theorem exists_of_mem_intercepts {options : UnitOptions} {rs : List CallSiteRecord}
    {i : InterceptRecord} (mem : i ∈ (generate options rs).intercepts) :
    ∃ r ∈ rs, ∃ n made, IsEmittedAs r n made i ∧ made ∈ (generate options rs).routines := by
  obtain ⟨r, source, n, made, -, emitted, inside⟩ := exists_of_mem_interceptsFrom mem
  exact ⟨r, (List.mergeSort_perm rs _).mem_iff.1 source, n, made, emitted,
    List.mem_filterMap.2 ⟨_, inside, rfl⟩⟩

/-- No record that was left out is reported with the number of a line. -/
theorem line_of_mem_failures {e : Emission} {f : RecordFailure} (mem : f ∈ e.failures) :
    f.line = none := by
  obtain ⟨emitted, -, failed⟩ := List.mem_filterMap.1 mem
  cases emitted <;> cases failed
  rfl

end Emission

end CallSiteIds
