import CallSiteIds.Proofs.Manifest.RoundTrip
import CallSiteIds.Proofs.Record.Validity

/-!
# Records as documents

A record that is read from a document has passed every check of its models, but one that is built
from a descriptor has not been looked at.  The document that says the same as a record is read
back as that record exactly when the record is valid and its location has a path
(`read_document_iff`), so for a record that was built this is what it means that no check would
have stopped it.
-/

set_option autoImplicit false

namespace CallSiteIds

open Schema
open Json (Value)
open Schema.Checked (map_eq_valid seq_eq_valid andThen_eq_valid)

/-! ## Parts of a record -/

def SourceLocation.document (l : SourceLocation) : Value :=
  .object [("path", .string l.path), ("line", .int l.line), ("column", .int l.column)]

def ParameterInfo.document (p : ParameterInfo) : Value :=
  .object
    [("name", .string p.name), ("type", .string p.type), ("has_default", .bool p.hasDefault),
      ("default_literal", textOrNull p.defaultLiteral)]

/-- The value that stands for a requested format: the number of a settled one. -/
def Literal.FormatRequest.document : Literal.FormatRequest → Value
  | .settled f => .int f.code
  | .written v => v

def MarkedParameter.document (m : MarkedParameter) : Value :=
  .object
    [("ordinal", .int m.ordinal), ("format", m.format.document), ("prefix", textOrNull m.lead),
      ("deterministic", .bool m.deterministic)]

theorem Schema.nullable_string_of_textOrNull (s : Option String) :
    nullable string (textOrNull s) = .valid s := by
  cases s <;> rfl

theorem Schema.natural_int (n : Nat) : natural (.int n) = .valid n := by
  have : ¬(n : Int) < 0 := by omega
  simp only [natural, integer, Checked.andThen, if_neg this, Int.toNat_natCast]

theorem Schema.literalFormat_code (f : Literal.Format) : literalFormat (.int f.code) = .valid f := by
  simp [literalFormat, numberOf?]

theorem Schema.nonemptyString_eq_valid_iff {s t : String} :
    nonemptyString (.string s) = .valid t ↔ s = t ∧ s ≠ "" := by
  by_cases empty : s = ""
  · simp [nonemptyString, string, Checked.andThen, Checked.reject, empty]
  · simp [nonemptyString, string, Checked.andThen, empty]

theorem SourceLocation.path_ne_of_read_document {l l' : SourceLocation}
    (h : read l.document = .valid l') : l.path ≠ "" := by
  obtain ⟨_, column, h₁, -, -⟩ := seq_eq_valid h
  obtain ⟨_, line, h₂, -, -⟩ := seq_eq_valid h₁
  obtain ⟨path, h₃, -⟩ := map_eq_valid h₂
  obtain ⟨v, found, h₄⟩ := field_eq_valid h₃
  obtain rfl : .string l.path = v := Option.some.inj found
  exact (nonemptyString_eq_valid_iff.1 h₄).2

/-- A location with a path is read back, for its line and its column are never negative. -/
theorem SourceLocation.read_document {l : SourceLocation} (known : l.path ≠ "") :
    read l.document = .valid l := by
  have path : nonemptyString (.string l.path) = .valid l.path :=
    nonemptyString_eq_valid_iff.2 ⟨rfl, known⟩
  simp [read, document, model, field, Json.field?, path, natural_int, Checked.under]
  rfl

theorem ParameterInfo.read_document (p : ParameterInfo) : read p.document = .valid p := by
  simp [read, document, model, field, fieldOr, Json.field?, string, boolean,
    nullable_string_of_textOrNull, Checked.under]
  rfl

/-- A marked parameter whose format is settled is read back. -/
theorem MarkedParameter.read_document {m : MarkedParameter} {f : Literal.Format}
    (settled : m.format = .settled f) : read m.document = .valid m := by
  obtain ⟨ordinal, format, lead, deterministic⟩ := m
  obtain rfl : format = .settled f := settled
  simp [read, document, model, field, fieldOr, Json.field?, boolean, natural_int,
    Literal.FormatRequest.document, literalFormat_code, nullable_string_of_textOrNull,
    Checked.under]
  rfl

/-! ## The record -/

namespace CallSiteRecord

def document (r : CallSiteRecord) : Value :=
  .object
    [("target_type", .string r.targetType), ("method_name", .string r.methodName),
      ("return_type", .string r.returnType), ("is_static", .bool r.isStatic),
      ("location", r.location.document), ("location_key", .string r.locationKey),
      ("intercepts_data", textOrNull r.interceptsData),
      ("parameters", .array (r.parameters.map ParameterInfo.document)),
      ("marked_parameters", .array (r.markedParameters.map MarkedParameter.document))]

/-- As long as its marked parameters are not compared with its parameters, a record is read back
when its parts are. -/
theorem readFields_document {r : CallSiteRecord} (path : r.location.path ≠ "")
    (marked : r.markedParameters ≠ [])
    (settled : ∀ m ∈ r.markedParameters, ∃ f, m.format = .settled f) :
    readFields r.document = .valid r := by
  have location := SourceLocation.read_document path
  have parameters : tuple ParameterInfo.read (.array (r.parameters.map ParameterInfo.document)) =
      .valid r.parameters := items_map (fun p _ => p.read_document) 0
  have each : ∀ m ∈ r.markedParameters, MarkedParameter.read m.document = .valid m := by
    intro m mem
    obtain ⟨f, format⟩ := settled m mem
    exact MarkedParameter.read_document format
  have markedParameters : nonemptyTuple MarkedParameter.read
      (.array (r.markedParameters.map MarkedParameter.document)) = .valid r.markedParameters := by
    obtain ⟨m, mem⟩ := List.exists_mem_of_ne_nil _ marked
    have readable : (r.markedParameters.map MarkedParameter.document).any
        (Schema.succeeds MarkedParameter.read) = true := by
      refine List.any_eq_true.2 ⟨_, List.mem_map_of_mem mem, ?_⟩
      unfold Schema.succeeds
      rw [each m mem]
    rw [nonemptyTuple, if_pos readable]
    exact items_map each 0
  simp [readFields, document, model, field, fieldOr, Json.field?, string, boolean, location,
    nullable_string_of_textOrNull, parameters, markedParameters, Checked.under, -List.map_map]
  rfl

/-- The document of a record is read back exactly when the record is valid and its location has a
path. -/
theorem read_document_iff {r : CallSiteRecord} :
    read r.document = .valid r ↔ r.IsValid ∧ r.location.path ≠ "" := by
  constructor
  · intro h
    refine ⟨isValid_of_read h, ?_⟩
    obtain ⟨s, fields, -⟩ := andThen_eq_valid h
    obtain ⟨_, marked, h₁, -, -⟩ := seq_eq_valid fields
    obtain ⟨_, parameters, h₂, -, -⟩ := seq_eq_valid h₁
    obtain ⟨_, data, h₃, -, -⟩ := seq_eq_valid h₂
    obtain ⟨_, key, h₄, -, -⟩ := seq_eq_valid h₃
    obtain ⟨_, location, -, h₅, -⟩ := seq_eq_valid h₄
    obtain ⟨v, found, h₆⟩ := field_eq_valid h₅
    obtain rfl : r.location.document = v := Option.some.inj found
    exact SourceLocation.path_ne_of_read_document h₆
  · rintro ⟨valid, path⟩
    have fields := readFields_document path valid.marked valid.settled
    rw [read, fields]
    exact checkOrdinals_eq_valid_iff.2 ⟨rfl, valid.inRange, valid.distinct⟩

end CallSiteRecord

end CallSiteIds
