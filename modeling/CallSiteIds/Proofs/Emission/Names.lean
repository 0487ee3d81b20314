import CallSiteIds.Proofs.Emission.Isolation
import CallSiteIds.Proofs.Emission.ReadBack

/-!
# Names of routines

The name of a routine is the name of its method, reduced to an identifier, with an underscore and
the number of the routine behind.  What is put behind keeps a name an identifier and makes it no
reserved word, since no reserved word has an underscore.  No two routines have the same number,
and the number is what stands behind the last underscore, however the method is named; so no two
routines have the same name (`nodup_identifiers`).
-/

set_option autoImplicit false

namespace CallSiteIds

open Source

/-- The name of a routine is an identifier and not reserved. -/
theorem IsEmittedAs.isIdentifierText {r : CallSiteRecord} {n : Nat} {made : Routine}
    {i : InterceptRecord} (emitted : IsEmittedAs r n made i) :
    IsIdentifierText i.routineName.toList ∧ i.routineName ∉ reservedWords := by
  have reduced :
      isIdentifier (String.ofList (toIdentifier r.methodName.toList)).toList = true := by
    rw [String.toList_ofList]
    exact isIdentifier_toIdentifier _
  have name : i.routineName =
      String.ofList (toIdentifier r.methodName.toList) ++ "_" ++ Decimal.integerString n := by
    rw [emitted.routineName, emitted.routine]
    rfl
  obtain ⟨identifier, meaningless⟩ := isPlainName_numbered reduced n
  rw [name]
  refine ⟨isIdentifier_iff.1 identifier, fun reserved => meaningless ?_⟩
  exact List.mem_append_left _ reserved

namespace Emission

/-- Whatever the methods of records are called and whichever records fail, the manifest names the
routines, no two by the same name, and each by an identifier that is not reserved.  An identifier
is left as it is when a name is reduced, and so is a name that was reduced before. -/
theorem nodup_identifiers (options : UnitOptions) (rs : List CallSiteRecord) :
    let e := ofRecords options rs
    e.routines.map (·.name) = e.intercepts.map (·.routineName) ∧
      (e.intercepts.map (·.routineName)).Nodup ∧
      (∀ i ∈ e.intercepts, IsIdentifierText i.routineName.toList ∧
        i.routineName ∉ reservedWords) ∧
      (∀ name, toIdentifier (toIdentifier name) = toIdentifier name) ∧
      ∀ name, toIdentifier name = name ↔ IsIdentifierText name := by
  intro e
  refine ⟨names_routines_ofRecords options rs, nodup_names_interceptsFrom 0 rs, ?_,
    toIdentifier_toIdentifier, fun _ => toIdentifier_eq_self_iff⟩
  intro i mem
  obtain ⟨r, -, n, made, -, emitted, -⟩ := exists_of_mem_interceptsFrom mem
  exact emitted.isIdentifierText

/-- Methods whose names look like names of routines, around a record that fails. -/
theorem nodup_identifiers_of_alike :
    let e := ofRecords ⟨"N", "A", true⟩
      [recordOfFormats "A_1" 1 [.settled .guid], recordOfFormats "A" 2 [.written (.int 7)],
        recordOfFormats "A" 3 [.settled .guid], recordOfFormats "1st<é>" 4 [.settled .guid],
        recordOfFormats "" 5 [.settled .guid]]
    e.intercepts.map (·.routineName) = ["A_1_0", "A_1", "_1st____2", "__3"] ∧
      (e.intercepts.map (·.routineName)).Nodup ∧
      ∀ i ∈ e.intercepts, IsIdentifierText i.routineName.toList := by
  intro e
  obtain ⟨-, distinct, identifiers, -⟩ := nodup_identifiers ⟨"N", "A", true⟩ _
  exact ⟨by decide +kernel, distinct, fun i mem => (identifiers i mem).1⟩

end Emission

end CallSiteIds
