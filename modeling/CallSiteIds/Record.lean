import CallSiteIds.Schema.Scalar

/-!
# Call-site records

A record says all that is needed to intercept one call: the method that is called, where the
call stands, the parameters of the method, and which of them want a literal.
-/

set_option autoImplicit false

namespace CallSiteIds

open Schema

/-- Where a call stands in the source. -/
structure SourceLocation where
  path : String
  line : Nat
  column : Nat
deriving DecidableEq, Repr

/-- A declared parameter.  A default without a literal is null. -/
structure ParameterInfo where
  name : String
  type : String
  hasDefault : Bool
  defaultLiteral : Option String
deriving DecidableEq, Repr

/-- A parameter that wants a literal: its position, the format, and a text to put in front.
Every literal is deterministic, whatever the flag says. -/
structure MarkedParameter where
  ordinal : Nat
  format : Literal.FormatRequest
  lead : Option String
  deterministic : Bool

/-- An intercepted call. -/
structure CallSiteRecord where
  targetType : String
  methodName : String
  returnType : String
  isStatic : Bool
  location : SourceLocation
  locationKey : String
  interceptsData : Option String
  parameters : List ParameterInfo
  markedParameters : List MarkedParameter

namespace CallSiteRecord

/-- The name of the called method with its type. -/
def target (r : CallSiteRecord) : String :=
  r.targetType ++ "." ++ r.methodName

/-- The first marked parameter that lies outside the parameters or repeats an earlier one. -/
def ordinalViolation? (count : Nat) : List Nat → List Nat → Option Violation
  | _, [] => none
  | seen, ordinal :: rest =>
    if count ≤ ordinal then some (.ordinalOutOfRange ordinal count)
    else if ordinal ∈ seen then some (.duplicateOrdinal ordinal)
    else ordinalViolation? count (ordinal :: seen) rest

/-- Checks that the marked parameters are parameters and differ from each other. -/
def checkOrdinals (r : CallSiteRecord) : Checked CallSiteRecord :=
  match ordinalViolation? r.parameters.length [] (r.markedParameters.map (·.ordinal)) with
  | some v => .reject (.violation v)
  | none => .valid r

end CallSiteRecord

/-! ## Reading records -/

def SourceLocation.read : Json.Value → Checked SourceLocation :=
  model fun o =>
    SourceLocation.mk <$> field "path" nonemptyString o
      <*> field "line" natural o
      <*> field "column" natural o

/-- Reads a declared parameter. -/
def ParameterInfo.read : Json.Value → Checked ParameterInfo :=
  model fun o =>
    ParameterInfo.mk <$> field "name" string o
      <*> field "type" string o
      <*> fieldOr "has_default" false boolean o
      <*> fieldOr "default_literal" none (nullable string) o

def MarkedParameter.read : Json.Value → Checked MarkedParameter :=
  model fun o =>
    MarkedParameter.mk <$> field "ordinal" natural o
      <*> fieldOr "format" (.settled .guid) (fun v => .settled <$> literalFormat v) o
      <*> fieldOr "prefix" none (nullable string) o
      <*> fieldOr "deterministic" true boolean o

/-- Reads a record without checking its marked parameters against its parameters. -/
def CallSiteRecord.readFields : Json.Value → Checked CallSiteRecord :=
  model fun o =>
    CallSiteRecord.mk <$> field "target_type" string o
      <*> field "method_name" string o
      <*> field "return_type" string o
      <*> fieldOr "is_static" true boolean o
      <*> field "location" SourceLocation.read o
      <*> field "location_key" string o
      <*> fieldOr "intercepts_data" none (nullable string) o
      <*> field "parameters" (tuple ParameterInfo.read) o
      <*> field "marked_parameters" (nonemptyTuple MarkedParameter.read) o

def CallSiteRecord.read (v : Json.Value) : Checked CallSiteRecord :=
  (CallSiteRecord.readFields v).andThen CallSiteRecord.checkOrdinals

end CallSiteIds
