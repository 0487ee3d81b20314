import CallSiteIds.Proofs.Collection.Kept
import CallSiteIds.Proofs.Emission.Routines
import CallSiteIds.Proofs.Schema.Bounds

/-!
# Valid records

A record is valid when its marked parameters are parameters, differ from each other and ask for
formats that are known.  Every record that is read from a document is valid (`isValid_of_read`),
and so is every record that is built from a descriptor (`isValid_of_builds`).  The emitter leaves
out a record only when a format is unknown, so it leaves out no valid one
(`failures_of_isValid`).
-/

set_option autoImplicit false

namespace CallSiteIds

open Schema
open Schema.Checked (map_eq_valid seq_eq_valid under_eq_valid andThen_eq_valid)

/-! ## Reading tuples -/

namespace Schema

variable {α : Type} {read : Json.Value → Checked α}

theorem nonemptyTuple_eq_valid {v : Json.Value} {xs : List α}
    (h : nonemptyTuple read v = .valid xs) :
    ∃ vs, v = .array vs ∧ items read 0 vs = .valid xs ∧ xs ≠ [] := by
  cases v with
  | array vs =>
    rw [nonemptyTuple] at h
    split at h
    · rename_i some
      refine ⟨vs, rfl, h, ?_⟩
      intro empty
      have count := length_of_items h
      rw [empty] at count
      rw [List.length_eq_zero_iff.1 count.symm] at some
      cases some
    · -- Without an item that is read the tuple is rejected whatever its items give.
      obtain ⟨_, _, -, rejected, -⟩ := seq_eq_valid h
      cases rejected
  | null => cases h
  | bool b => cases h
  | int n => cases h
  | float x => cases h
  | string s => cases h
  | object fields => cases h

end Schema

/-! ## Records -/

namespace CallSiteRecord

/-- What makes a record valid. -/
structure IsValid (r : CallSiteRecord) : Prop where
  marked : r.markedParameters ≠ []
  inRange : ∀ m ∈ r.markedParameters, m.ordinal < r.parameters.length
  distinct : (r.markedParameters.map (·.ordinal)).Nodup
  settled : ∀ m ∈ r.markedParameters, ∃ f, m.format = .settled f

theorem ordinalViolation?_eq_none_iff {count : Nat} {seen ordinals : List Nat} :
    ordinalViolation? count seen ordinals = none ↔
      (∀ o ∈ ordinals, o < count ∧ o ∉ seen) ∧ ordinals.Nodup := by
  induction ordinals generalizing seen with
  | nil => simp [ordinalViolation?]
  | cons o rest ih =>
    unfold ordinalViolation?
    by_cases outside : count ≤ o
    · have : ¬o < count := by omega
      simp [outside, this]
    by_cases old : o ∈ seen
    · simp [outside, old]
    have inside : o < count := by omega
    rw [if_neg outside, if_neg old, ih, List.nodup_cons, List.forall_mem_cons]
    constructor
    · rintro ⟨later, distinct⟩
      refine ⟨⟨⟨inside, old⟩, ?_⟩, ?_, distinct⟩
      · intro p mem
        have := later p mem
        exact ⟨this.1, fun before => this.2 (List.mem_cons_of_mem _ before)⟩
      · intro again
        exact (later o again).2 List.mem_cons_self
    · rintro ⟨⟨-, later⟩, fresh, distinct⟩
      refine ⟨?_, distinct⟩
      intro p mem
      have := later p mem
      refine ⟨this.1, ?_⟩
      rw [List.mem_cons, not_or]
      exact ⟨fun same => fresh (same ▸ mem), this.2⟩

/-- The check of a record passes exactly when its marked parameters are parameters and differ. -/
theorem checkOrdinals_eq_valid_iff {r s : CallSiteRecord} :
    r.checkOrdinals = .valid s ↔
      r = s ∧ (∀ m ∈ r.markedParameters, m.ordinal < r.parameters.length) ∧
        (r.markedParameters.map (·.ordinal)).Nodup := by
  have passes : ordinalViolation? r.parameters.length [] (r.markedParameters.map (·.ordinal)) =
      none ↔ _ := ordinalViolation?_eq_none_iff
  simp only [List.not_mem_nil, not_false_eq_true, and_true, List.forall_mem_map] at passes
  unfold checkOrdinals
  rw [← passes]
  cases ordinalViolation? r.parameters.length [] (r.markedParameters.map (·.ordinal)) with
  | none => simp
  | some v => simp [Checked.reject]

theorem settled_of_read {v : Json.Value} {m : MarkedParameter}
    (h : MarkedParameter.read v = .valid m) : ∃ f, m.format = .settled f := by
  obtain ⟨fields, -, h⟩ := model_eq_valid h
  obtain ⟨_, deterministic, h₁, -, rfl⟩ := seq_eq_valid h
  obtain ⟨_, lead, h₂, -, rfl⟩ := seq_eq_valid h₁
  obtain ⟨_, format, h₃, readFormat, rfl⟩ := seq_eq_valid h₂
  obtain ⟨ordinal, -, rfl⟩ := map_eq_valid h₃
  rcases fieldOr_eq_valid readFormat with rfl | ⟨w, -, read⟩
  · exact ⟨_, rfl⟩
  · obtain ⟨f, -, rfl⟩ := map_eq_valid read
    exact ⟨f, rfl⟩

/-- Records that are read from documents are valid. -/
theorem isValid_of_read {v : Json.Value} {r : CallSiteRecord} (h : read v = .valid r) :
    r.IsValid := by
  obtain ⟨s, readFields, checked⟩ := andThen_eq_valid h
  obtain ⟨rfl, inRange, distinct⟩ := checkOrdinals_eq_valid_iff.1 checked
  obtain ⟨fields, -, h₀⟩ := model_eq_valid readFields
  obtain ⟨_, marked, h₁, readMarked, rfl⟩ := seq_eq_valid h₀
  obtain ⟨_, parameters, h₂, -, rfl⟩ := seq_eq_valid h₁
  obtain ⟨_, data, h₃, -, rfl⟩ := seq_eq_valid h₂
  obtain ⟨_, key, h₄, -, rfl⟩ := seq_eq_valid h₃
  obtain ⟨_, location, h₅, -, rfl⟩ := seq_eq_valid h₄
  obtain ⟨_, isStatic, h₆, -, rfl⟩ := seq_eq_valid h₅
  obtain ⟨_, returnType, h₇, -, rfl⟩ := seq_eq_valid h₆
  obtain ⟨_, methodName, h₈, -, rfl⟩ := seq_eq_valid h₇
  obtain ⟨targetType, -, rfl⟩ := map_eq_valid h₈
  obtain ⟨w, -, tuple⟩ := field_eq_valid readMarked
  obtain ⟨vs, -, read, nonempty⟩ := nonemptyTuple_eq_valid tuple
  exact ⟨nonempty, inRange, distinct,
    forall_mem_of_items (fun _ _ readOne => settled_of_read readOne) read⟩

/-- Records that are built from descriptors are valid. -/
theorem isValid_of_builds {names : List String} {d : InvocationDescriptor} {r : CallSiteRecord}
    (builds : d.Builds names r) : r.IsValid where
  marked := builds.nonempty
  inRange := by
    intro m mem
    have range := builds.marked.range m mem
    rw [builds.parameters, List.length_map]
    omega
  distinct := builds.marked.increasing.imp fun less => by omega
  settled := builds.marked.settled

theorem isValid_of_mem_records {names : List String} {ds : List InvocationDescriptor}
    {r : CallSiteRecord} (mem : r ∈ (Collection.ofDescriptors names ds).records) : r.IsValid := by
  obtain ⟨d, -, builds⟩ := Collection.exists_builds_of_mem_records mem
  exact isValid_of_builds builds

/-- A valid record is emitted under any number. -/
theorem IsValid.exists_emitted {r : CallSiteRecord} (valid : r.IsValid) (n : Nat) :
    ∃ made i, Emitted.ofRecord n r = .routine made i := by
  obtain ⟨assignments, literals⟩ := exists_literalsOf (r := r) valid.settled
  have literals : r.literals = .ok assignments := literals
  unfold Emitted.ofRecord
  rw [literals]
  exact ⟨_, _, rfl⟩

/-- The ordinals of the assignments are those of the marked parameters, in the same order. -/
theorem ordinals_of_literals {r : CallSiteRecord} {assignments : List LiteralAssignment}
    (h : r.literals = .ok assignments) :
    assignments.map (·.ordinal) = r.markedParameters.map fun m => (m.ordinal : Int) :=
  (answers_of_literalsOf h).2

theorem IsValid.nodup_ordinals {r : CallSiteRecord} {assignments : List LiteralAssignment}
    (valid : r.IsValid) (h : r.literals = .ok assignments) :
    (assignments.map (·.ordinal)).Nodup := by
  rw [ordinals_of_literals h]
  have distinct := valid.distinct
  rw [List.nodup_iff_pairwise_ne, List.pairwise_map] at distinct ⊢
  exact distinct.imp fun ne same => ne (by omega)

end CallSiteRecord

/-! ## Emitting valid records -/

namespace Emission

variable {options : Source.UnitOptions} {rs : List CallSiteRecord}
  (valid : ∀ r ∈ rs, r.IsValid)

include valid

/-- No valid record is left out. -/
theorem failures_of_isValid : (generate options rs).failures = [] := by
  unfold failures
  rw [List.filterMap_eq_nil_iff]
  intro e mem
  obtain ⟨r, inside, n, -, rfl⟩ := exists_of_mem_emitFrom mem
  have inside := (List.mergeSort_perm rs _).mem_iff.1 inside
  obtain ⟨made, i, emitted⟩ := (valid r inside).exists_emitted n
  rw [emitted]
  rfl

/-- The manifest lists the valid records in sorted order. -/
theorem map_intercepts_of_isValid :
    (generate options rs).intercepts.map (fun i => (i.locationKey, i.target)) =
      (CallSiteRecord.sorted rs).map fun r => (r.locationKey, r.target) :=
  map_intercepts_of_settled fun r mem => (valid r mem).settled

theorem length_intercepts_of_isValid : (generate options rs).intercepts.length = rs.length := by
  have listed := congrArg List.length (@map_intercepts_of_isValid options rs valid)
  rw [List.length_map, List.length_map] at listed
  rw [listed]
  exact (List.mergeSort_perm rs _).length_eq

end Emission

end CallSiteIds
