import CallSiteIds.Decimal.Integer

/-!
# What a schema finds wrong

Reading a document as a model either succeeds or lists everything that is wrong with it, each
issue with the place where it was found.  The issues of the fields come in the order in which
the model declares them, and those inside a field at the place of the field.
-/

set_option autoImplicit false

namespace CallSiteIds.Schema

/-- One step from a document to a part of it. -/
inductive Step where
  | field (name : String)
  | index (i : Nat)
deriving DecidableEq, Repr

/-- A rule of a model that goes beyond the kinds of its fields. -/
inductive Violation where
  /-- A parameter has a default but does not say so. -/
  | defaultWithoutFlag (parameter : String)
  | ordinalOutOfRange (ordinal count : Nat)
  | duplicateOrdinal (ordinal : Nat)
  | noMarkerNames
  | namespaceNotDotted (text : String)
  | classNotIdentifier (text : String)
  | sourceNotFileName
deriving DecidableEq, Repr

/-- What can be wrong with a part of a document. -/
inductive Cause where
  | missing
  | extraForbidden
  | stringType
  | stringTooShort
  | intType
  | intFromFloat
  | intParsing
  | intParsingSize
  | belowMinimum
  | boolType
  | boolParsing
  | listType
  | tupleType
  | tooShort
  | objectType
  | modelType
  | enumeration
  | violation (v : Violation)
deriving DecidableEq, Repr

/-- Something wrong with a part of a document. -/
structure Issue where
  path : List Step
  cause : Cause
deriving DecidableEq, Repr

/-- The issues of a document that was read as a model. -/
structure Failure where
  model : String
  issues : List Issue
deriving DecidableEq, Repr

/-! ## Wording -/

/-- The wording of a step. -/
def Step.text : Step → String
  | .field name => name
  | .index i => String.ofList (Decimal.naturalText i)

/-- The wording of a violated rule. -/
def Violation.message : Violation → String
  | .defaultWithoutFlag parameter =>
    "Parameter '" ++ parameter ++ "' has a default literal but has_default is false"
  | .ordinalOutOfRange ordinal count =>
    "Marked ordinal " ++ Decimal.integerString ordinal ++ " out of range for " ++
      Decimal.integerString count ++ " parameters"
  | .duplicateOrdinal ordinal => "Duplicate marked ordinal " ++ Decimal.integerString ordinal
  | .noMarkerNames => "marker_names must name at least one attribute"
  | .namespaceNotDotted text => "namespace '" ++ text ++ "' is not a valid dotted identifier"
  | .classNotIdentifier text => "class_name '" ++ text ++ "' is not a valid identifier"
  | .sourceNotFileName => "source_name must be a plain file name"

/-- The wording of a cause. -/
def Cause.text : Cause → String
  | .missing => "missing"
  | .extraForbidden => "extra_forbidden"
  | .stringType => "string_type"
  | .stringTooShort => "string_too_short"
  | .intType => "int_type"
  | .intFromFloat => "int_from_float"
  | .intParsing => "int_parsing"
  | .intParsingSize => "int_parsing_size"
  | .belowMinimum => "greater_than_equal"
  | .boolType => "bool_type"
  | .boolParsing => "bool_parsing"
  | .listType => "list_type"
  | .tupleType => "tuple_type"
  | .tooShort => "too_short"
  | .objectType => "dict_type"
  | .modelType => "model_type"
  | .enumeration => "enum"
  | .violation v => "value_error: " ++ v.message

/-- The wording of an issue: where it is and what is wrong. -/
def Issue.text (issue : Issue) : String :=
  let place := if issue.path.isEmpty then "<root>"
    else ".".intercalate (issue.path.map Step.text)
  place ++ " [" ++ issue.cause.text ++ "]"

/-- The wording of a failed reading. -/
def Failure.message (failure : Failure) : String :=
  failure.model ++ "(" ++ "; ".intercalate (failure.issues.map Issue.text) ++ ")"

end CallSiteIds.Schema
