import CallSiteIds.Proofs.Record.Validity
import Mathlib.Data.List.Nodup

/-!
# The order of the marked parameters

A record lists its marked parameters in some order, and the manifest keeps that order.  A routine
does not: the literal at a position is that of the marked parameter with the position
(`literalAt?_literals_iff`).  So a record whose marked parameters come in another order gives the
same routine, and a list of records that differ in these orders only gives the same file
(`source_of_reordered`).
-/

set_option autoImplicit false

namespace CallSiteIds

open Source

/-! ## One record -/

namespace CallSiteRecord

variable {r : CallSiteRecord} {assignments : List LiteralAssignment}

/-- The literal at a position is that of the marked parameter with the position. -/
theorem literalAt?_literals_iff (valid : r.IsValid) (h : r.literals = .ok assignments) {k : Nat}
    {text : String} :
    literalAt? assignments k = some text ↔
      ∃ m ∈ r.markedParameters, m.ordinal = k ∧
        ∃ f, m.format.resolve = .ok f ∧ text = Literal.literal r.locationKey k f m.lead := by
  obtain ⟨answered, ordinals⟩ := answers_of_literalsOf h
  rw [literalAt?_eq_some_iff (valid.nodup_ordinals h)]
  constructor
  · rintro ⟨a, mem, ordinal, rfl⟩
    obtain ⟨m, marked, answers⟩ := answered a mem
    obtain ⟨f, resolved, -, literal⟩ := answers.literal
    have position : m.ordinal = k := by
      have := answers.ordinal
      omega
    rw [position] at literal
    exact ⟨m, marked, position, f, resolved, literal⟩
  · rintro ⟨m, marked, rfl, f, resolved, rfl⟩
    have listed : (m.ordinal : Int) ∈ assignments.map (·.ordinal) := by
      rw [ordinals]
      exact List.mem_map.2 ⟨m, marked, rfl⟩
    obtain ⟨a, mem, ordinal⟩ := List.mem_map.1 listed
    obtain ⟨n, other, answers⟩ := answered a mem
    -- No two marked parameters have one position, so the assignment answers this one.
    have same : n = m := by
      apply List.inj_on_of_nodup_map valid.distinct other marked
      have := answers.ordinal
      omega
    subst same
    obtain ⟨g, resolved', -, literal⟩ := answers.literal
    rw [resolved] at resolved'
    injection resolved' with e
    subst e
    exact ⟨a, mem, ordinal, literal⟩

variable {marked : List MarkedParameter}

theorem IsValid.reordered (valid : r.IsValid) (perm : r.markedParameters.Perm marked) :
    IsValid { r with markedParameters := marked } where
  marked := by
    intro empty
    have empty : marked = [] := empty
    exact valid.marked (List.perm_nil.1 (empty ▸ perm))
  inRange := fun m mem => valid.inRange m (perm.mem_iff.2 mem)
  distinct := (perm.map _).nodup_iff.1 valid.distinct
  settled := fun m mem => valid.settled m (perm.mem_iff.2 mem)

/-- A record with its marked parameters in another order gives the same routine. -/
theorem routine_of_reordered (valid : r.IsValid) (perm : r.markedParameters.Perm marked)
    (n : Nat) : (Emitted.ofRecord n { r with markedParameters := marked }).routine? =
      (Emitted.ofRecord n r).routine? := by
  have valid' := valid.reordered perm
  obtain ⟨made, i, emitted⟩ := valid.exists_emitted n
  obtain ⟨made', i', emitted'⟩ := valid'.exists_emitted n
  have from' := isEmittedAs_of_ofRecord emitted'
  have literals (k : Nat) : literalAt? i'.literals k = literalAt? i.literals k := by
    apply Option.ext
    intro text
    rw [literalAt?_literals_iff valid' from'.literals,
      literalAt?_literals_iff valid (isEmittedAs_of_ofRecord emitted).literals]
    constructor
    · rintro ⟨m, mem, rest⟩
      exact ⟨m, perm.mem_iff.2 mem, rest⟩
    · rintro ⟨m, mem, rest⟩
      exact ⟨m, perm.mem_iff.1 mem, rest⟩
  have same : made' = made := by
    rw [from'.routine, (isEmittedAs_of_ofRecord emitted).routine]
    unfold routine
    simp only [literals]
  rw [emitted, emitted', same]
  rfl

/-- What the place and the text of a routine depend on: the record without its marked parameters,
and the routine under each number. -/
def trace (r : CallSiteRecord) : CallSiteRecord × (Nat → Option Routine) :=
  ({ r with markedParameters := [] }, fun n => (Emitted.ofRecord n r).routine?)

theorem trace_of_reordered (valid : r.IsValid) (perm : r.markedParameters.Perm marked) :
    trace { r with markedParameters := marked } = trace r := by
  unfold trace
  rw [funext (routine_of_reordered valid perm)]

end CallSiteRecord

/-! ## A file -/

namespace Emission

open CallSiteRecord (trace)

variable {rs ss : List CallSiteRecord}

/-- What the next record adds to the routines. -/
theorem routines_emitFrom_cons (n : Nat) (r : CallSiteRecord) (rs : List CallSiteRecord) :
    (emitFrom n (r :: rs)).filterMap Emitted.routine? =
      match (Emitted.ofRecord n r).routine? with
      | none => (emitFrom n rs).filterMap Emitted.routine?
      | some made => made :: (emitFrom (n + 1) rs).filterMap Emitted.routine? := by
  rw [emitFrom]
  cases Emitted.ofRecord n r with
  | skipped key target e => rfl
  | routine made i => rfl

theorem routines_emitFrom_eq (same : rs.map trace = ss.map trace) (n : Nat) :
    (emitFrom n rs).filterMap Emitted.routine? = (emitFrom n ss).filterMap Emitted.routine? := by
  induction rs generalizing ss n with
  | nil =>
    cases ss with
    | nil => rfl
    | cons s ss => cases same
  | cons r rs ih =>
    cases ss with
    | nil => cases same
    | cons s ss =>
      rw [List.map_cons, List.map_cons] at same
      injection same with first others
      have made : (Emitted.ofRecord n r).routine? = (Emitted.ofRecord n s).routine? :=
        congrFun (congrArg Prod.snd first) n
      rw [routines_emitFrom_cons, routines_emitFrom_cons, made, ih others n, ih others (n + 1)]

theorem map_sorted (rs : List CallSiteRecord) :
    (CallSiteRecord.sorted rs).map trace =
      (rs.map trace).mergeSort fun a b => CallSiteRecord.le a.1 b.1 := by
  unfold CallSiteRecord.sorted
  apply List.map_mergeSort
  intro a _ b _
  rfl

/-- Records with the same traces give the same file. -/
theorem source_eq_of_map_trace_eq (options : UnitOptions) (same : rs.map trace = ss.map trace) :
    (generate options rs).source = (generate options ss).source := by
  have sorted : (CallSiteRecord.sorted rs).map trace = (CallSiteRecord.sorted ss).map trace := by
    rw [map_sorted, map_sorted, same]
  have routines : (generate options rs).routines = (generate options ss).routines :=
    routines_emitFrom_eq sorted 0
  unfold source
  rw [routines]
  rfl

/-- The order of the marked parameters of a record does not change the file. -/
theorem source_of_reordered {r : CallSiteRecord} {marked : List MarkedParameter}
    (valid : r.IsValid) (perm : r.markedParameters.Perm marked) (options : UnitOptions)
    (before after : List CallSiteRecord) :
    (generate options (before ++ { r with markedParameters := marked } :: after)).source =
      (generate options (before ++ r :: after)).source := by
  apply source_eq_of_map_trace_eq
  rw [List.map_append, List.map_append, List.map_cons, List.map_cons,
    CallSiteRecord.trace_of_reordered valid perm]

end Emission

end CallSiteIds
