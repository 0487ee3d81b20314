import CallSiteIds.Schema.Scalar

/-!
# The manifest and the summary of a pass

A pass leaves a manifest, with one record per emitted routine, and a summary that counts what
happened and lists what was left out.  Both are documents: they are written from these records
and read back by validation.
-/

set_option autoImplicit false

namespace CallSiteIds

open Schema
open Json (Value)

/-- The version of the documents that a pass writes. -/
def schemaVersion : Int := 1

/-- The literal that a routine puts in for one parameter. -/
structure LiteralAssignment where
  parameter : String
  ordinal : Int
  format : String
  lead : Option String
  literal : String
deriving DecidableEq, Repr

/-- What the manifest says of one routine. -/
structure InterceptRecord where
  schemaVersion : Int
  routineName : String
  target : String
  returnType : String
  locationKey : String
  interceptsData : Option String
  literals : List LiteralAssignment
deriving DecidableEq, Repr

/-- Something that was left out, and why. -/
structure RecordFailure where
  locationKey : Option String
  target : Option String
  /-- The line of the descriptor file, when the line itself was unreadable. -/
  line : Option Int
  reason : String
deriving DecidableEq, Repr

/-- What a pass did. -/
structure GenerationSummary where
  schemaVersion : Int
  sourceName : String
  candidateCount : Int
  recordCount : Int
  routineCount : Int
  dropped : List RecordFailure
  failures : List RecordFailure
deriving DecidableEq, Repr

/-- What a failure is about: its call site, or the line of the descriptor file, or else the
given text. -/
def RecordFailure.subject (f : RecordFailure) (unknown : String) : String :=
  let line :=
    match f.line with
    | some n => if n = 0 then unknown else "descriptor line " ++ Decimal.integerString n
    | none => unknown
  match f.locationKey with
  | some key => if key = "" then line else key
  | none => line

/-! ## As documents -/

/-- A text that may be absent. -/
def textOrNull : Option String → Value
  | some s => .string s
  | none => .null

/-- A number that may be absent. -/
def numberOrNull : Option Int → Value
  | some n => .int n
  | none => .null

/-- A literal assignment as a document. -/
def LiteralAssignment.toJson (a : LiteralAssignment) : Value :=
  .object
    [("parameter", .string a.parameter), ("ordinal", .int a.ordinal),
      ("format", .string a.format), ("prefix", textOrNull a.lead), ("literal", .string a.literal)]

/-- A manifest record as a document. -/
def InterceptRecord.toJson (r : InterceptRecord) : Value :=
  .object
    [("schema_version", .int r.schemaVersion), ("routine_name", .string r.routineName),
      ("target", .string r.target), ("return_type", .string r.returnType),
      ("location_key", .string r.locationKey), ("intercepts_data", textOrNull r.interceptsData),
      ("literals", .array (r.literals.map LiteralAssignment.toJson))]

/-- A failure as a document. -/
def RecordFailure.toJson (f : RecordFailure) : Value :=
  .object
    [("location_key", textOrNull f.locationKey), ("target", textOrNull f.target),
      ("line", numberOrNull f.line), ("reason", .string f.reason)]

/-- A summary as a document. -/
def GenerationSummary.toJson (s : GenerationSummary) : Value :=
  .object
    [("schema_version", .int s.schemaVersion), ("source_name", .string s.sourceName),
      ("candidate_count", .int s.candidateCount), ("record_count", .int s.recordCount),
      ("routine_count", .int s.routineCount),
      ("dropped", .array (s.dropped.map RecordFailure.toJson)),
      ("failures", .array (s.failures.map RecordFailure.toJson))]

/-! ## Reading the documents -/

def LiteralAssignment.read : Value → Checked LiteralAssignment :=
  model fun o =>
    LiteralAssignment.mk <$> field "parameter" string o
      <*> field "ordinal" integer o
      <*> field "format" string o
      <*> fieldOr "prefix" none (nullable string) o
      <*> field "literal" string o

def InterceptRecord.read : Value → Checked InterceptRecord :=
  model fun o =>
    InterceptRecord.mk <$> fieldOr "schema_version" CallSiteIds.schemaVersion integer o
      <*> field "routine_name" string o
      <*> field "target" string o
      <*> field "return_type" string o
      <*> field "location_key" string o
      <*> fieldOr "intercepts_data" none (nullable string) o
      <*> field "literals" (list LiteralAssignment.read) o

def RecordFailure.read : Value → Checked RecordFailure :=
  model fun o =>
    RecordFailure.mk <$> fieldOr "location_key" none (nullable string) o
      <*> fieldOr "target" none (nullable string) o
      <*> fieldOr "line" none (nullable integer) o
      <*> field "reason" string o

def GenerationSummary.read : Value → Checked GenerationSummary :=
  model fun o =>
    GenerationSummary.mk <$> fieldOr "schema_version" CallSiteIds.schemaVersion integer o
      <*> field "source_name" string o
      <*> field "candidate_count" integer o
      <*> field "record_count" integer o
      <*> field "routine_count" integer o
      <*> fieldOr "dropped" [] (list RecordFailure.read) o
      <*> fieldOr "failures" [] (list RecordFailure.read) o

end CallSiteIds
