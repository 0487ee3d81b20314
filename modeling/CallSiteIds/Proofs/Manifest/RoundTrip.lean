import CallSiteIds.Manifest
import CallSiteIds.Proofs.Json.RoundTrip

/-!
# The documents of a pass are read back

Manifest records and summaries are written as documents and read by models that look up fields
by name.  As long as every number has at most 64 bits, a document that was written with sorted
fields is read as the record it was made from.
-/

set_option autoImplicit false

namespace CallSiteIds

open Schema
open Json (Value IsPlain sortFields field? nesting)

/-! ## Reading fields of a sorted object -/

namespace Schema

/-- Reading items that are read one by one. -/
theorem items_map {α : Type} {read : Value → Checked α} {text : α → Value} {xs : List α}
    (h : ∀ x ∈ xs, read (text x) = .valid x) (i : Nat) :
    items read i (xs.map text) = .valid xs := by
  induction xs generalizing i with
  | nil => rfl
  | cons x xs ih =>
    have later := ih (fun y mem => h y (List.mem_cons_of_mem _ mem)) (i + 1)
    rw [List.map_cons, items, h x List.mem_cons_self, later]
    rfl

theorem nullable_string_textOrNull (s : Option String) :
    nullable string (sortFields (textOrNull s)) = .valid s := by
  cases s <;> rfl

theorem nullable_integer_numberOrNull (n : Option Int) :
    nullable integer (sortFields (numberOrNull n)) = .valid n := by
  cases n <;> rfl

end Schema

/-! ## Literal assignments -/

theorem isPlain_textOrNull (s : Option String) : IsPlain (textOrNull s) := by
  cases s <;> trivial

theorem nesting_textOrNull (s : Option String) : nesting (textOrNull s) = 0 := by
  cases s <;> rfl

theorem isPlain_numberOrNull {n : Option Int} (fits : ∀ i ∈ n, Json.fitsWord i = true) :
    IsPlain (numberOrNull n) := by
  cases n with
  | none => trivial
  | some i => exact fits i rfl

theorem nesting_numberOrNull (n : Option Int) : nesting (numberOrNull n) = 0 := by
  cases n <;> rfl

namespace LiteralAssignment

theorem isPlain_toJson {a : LiteralAssignment} (fits : Json.fitsWord a.ordinal = true) :
    IsPlain a.toJson := by
  refine ⟨by simp, ?_⟩
  simp only [Json.HavePlainValues, IsPlain, fits, true_and, and_true]
  exact isPlain_textOrNull a.lead

theorem nesting_toJson (a : LiteralAssignment) : nesting a.toJson = 1 := by
  simp [toJson, nesting, Json.nestingOfFields, nesting_textOrNull]

/-- A written literal assignment is read back. -/
theorem read_toJson (a : LiteralAssignment) : read (sortFields a.toJson) = .valid a := by
  rw [toJson, sortFields, read]
  have look := Json.field?_sortFields [("parameter", .string a.parameter),
    ("ordinal", .int a.ordinal), ("format", .string a.format), ("prefix", textOrNull a.lead),
    ("literal", .string a.literal)] (by simp)
  simp only [model, field, fieldOr, look]
  simp [field?, sortFields, string, integer, nullable_string_textOrNull, Checked.under]
  rfl

end LiteralAssignment

/-! ## Manifest records -/

namespace InterceptRecord

/-- The numbers of a manifest record have at most 64 bits. -/
def FitsWord (r : InterceptRecord) : Prop :=
  Json.fitsWord r.schemaVersion = true ∧ ∀ a ∈ r.literals, Json.fitsWord a.ordinal = true

theorem isPlain_toJson {r : InterceptRecord} (fits : r.FitsWord) : IsPlain r.toJson := by
  have literals : Json.ArePlain (r.literals.map LiteralAssignment.toJson) := by
    rw [Json.arePlain_iff]
    intro v mem
    obtain ⟨a, inside, rfl⟩ := List.mem_map.1 mem
    exact LiteralAssignment.isPlain_toJson (fits.2 a inside)
  refine ⟨by simp, ?_⟩
  simp only [Json.HavePlainValues, IsPlain, fits.1, literals, true_and, and_true]
  exact isPlain_textOrNull r.interceptsData

theorem nesting_toJson_le (r : InterceptRecord) : nesting r.toJson ≤ 3 := by
  have literals : Json.nestingOfItems (r.literals.map LiteralAssignment.toJson) ≤ 1 := by
    rw [Json.nestingOfItems_le_iff]
    intro v mem
    obtain ⟨a, -, rfl⟩ := List.mem_map.1 mem
    exact Nat.le_of_eq a.nesting_toJson
  simp only [toJson, nesting, Json.nestingOfFields, nesting_textOrNull]
  omega

/-- A written manifest record is read back. -/
theorem read_toJson (r : InterceptRecord) : read (sortFields r.toJson) = .valid r := by
  rw [toJson, sortFields, read]
  have look := Json.field?_sortFields [("schema_version", .int r.schemaVersion),
    ("routine_name", .string r.routineName), ("target", .string r.target),
    ("return_type", .string r.returnType), ("location_key", .string r.locationKey),
    ("intercepts_data", textOrNull r.interceptsData),
    ("literals", .array (r.literals.map LiteralAssignment.toJson))] (by simp)
  have literals : items LiteralAssignment.read 0
      ((r.literals.map LiteralAssignment.toJson).map sortFields) = .valid r.literals := by
    rw [List.map_map]
    exact items_map (fun a _ => LiteralAssignment.read_toJson a) 0
  simp only [model, field, fieldOr, look]
  simp [field?, sortFields, string, integer, nullable_string_textOrNull, Checked.under, list,
    Json.sortFieldsOfItems_eq_map, literals, -List.map_map]
  rfl

end InterceptRecord

/-! ## Summaries -/

namespace RecordFailure

/-- The number of a failure has at most 64 bits. -/
def FitsWord (f : RecordFailure) : Prop :=
  ∀ n ∈ f.line, Json.fitsWord n = true

theorem isPlain_toJson {f : RecordFailure} (fits : f.FitsWord) : IsPlain f.toJson := by
  refine ⟨by simp, ?_⟩
  simp only [Json.HavePlainValues, IsPlain, and_true]
  exact ⟨isPlain_textOrNull _, isPlain_textOrNull _, isPlain_numberOrNull fits⟩

theorem nesting_toJson (f : RecordFailure) : nesting f.toJson = 1 := by
  simp [toJson, nesting, Json.nestingOfFields, nesting_textOrNull, nesting_numberOrNull]

/-- A written failure is read back. -/
theorem read_toJson (f : RecordFailure) : read (sortFields f.toJson) = .valid f := by
  rw [toJson, sortFields, read]
  have look := Json.field?_sortFields [("location_key", textOrNull f.locationKey),
    ("target", textOrNull f.target), ("line", numberOrNull f.line),
    ("reason", .string f.reason)] (by simp)
  simp only [model, field, fieldOr, look]
  simp [field?, sortFields, string, nullable_string_textOrNull, nullable_integer_numberOrNull,
    Checked.under]
  rfl

end RecordFailure

namespace GenerationSummary

/-- The numbers of a summary have at most 64 bits. -/
structure FitsWord (s : GenerationSummary) : Prop where
  schemaVersion : Json.fitsWord s.schemaVersion = true
  candidateCount : Json.fitsWord s.candidateCount = true
  recordCount : Json.fitsWord s.recordCount = true
  routineCount : Json.fitsWord s.routineCount = true
  dropped : ∀ f ∈ s.dropped, f.FitsWord
  failures : ∀ f ∈ s.failures, f.FitsWord

theorem arePlain_failures {fs : List RecordFailure} (fits : ∀ f ∈ fs, f.FitsWord) :
    Json.ArePlain (fs.map RecordFailure.toJson) := by
  rw [Json.arePlain_iff]
  intro v mem
  obtain ⟨f, inside, rfl⟩ := List.mem_map.1 mem
  exact RecordFailure.isPlain_toJson (fits f inside)

theorem nestingOfItems_failures_le (fs : List RecordFailure) :
    Json.nestingOfItems (fs.map RecordFailure.toJson) ≤ 1 := by
  rw [Json.nestingOfItems_le_iff]
  intro v mem
  obtain ⟨f, -, rfl⟩ := List.mem_map.1 mem
  exact Nat.le_of_eq f.nesting_toJson

theorem items_failures (fs : List RecordFailure) :
    items RecordFailure.read 0 ((fs.map RecordFailure.toJson).map sortFields) = .valid fs := by
  rw [List.map_map]
  exact items_map (fun f _ => RecordFailure.read_toJson f) 0

theorem isPlain_toJson {s : GenerationSummary} (fits : s.FitsWord) : IsPlain s.toJson := by
  refine ⟨by simp, ?_⟩
  simp only [Json.HavePlainValues, IsPlain, fits.schemaVersion, fits.candidateCount,
    fits.recordCount, fits.routineCount, true_and, and_true]
  exact ⟨arePlain_failures fits.dropped, arePlain_failures fits.failures⟩

theorem nesting_toJson_le (s : GenerationSummary) : nesting s.toJson ≤ 3 := by
  have dropped := nestingOfItems_failures_le s.dropped
  have failures := nestingOfItems_failures_le s.failures
  simp only [toJson, nesting, Json.nestingOfFields]
  omega

/-- A written summary is read back. -/
theorem read_toJson (s : GenerationSummary) : read (sortFields s.toJson) = .valid s := by
  rw [toJson, sortFields, read]
  have look := Json.field?_sortFields [("schema_version", .int s.schemaVersion),
    ("source_name", .string s.sourceName), ("candidate_count", .int s.candidateCount),
    ("record_count", .int s.recordCount), ("routine_count", .int s.routineCount),
    ("dropped", .array (s.dropped.map RecordFailure.toJson)),
    ("failures", .array (s.failures.map RecordFailure.toJson))] (by simp)
  simp only [model, field, fieldOr, look]
  simp [field?, sortFields, string, integer, Checked.under, list, Json.sortFieldsOfItems_eq_map,
    items_failures, -List.map_map]
  rfl

end GenerationSummary

end CallSiteIds
