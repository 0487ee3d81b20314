import CallSiteIds.Record

/-!
# Call descriptors

A compiler host describes each call that it sees: the method, the place as far as it is known,
and the parameters with their attributes.  A descriptor is data only; nothing here interprets
an attribute.
-/

set_option autoImplicit false

namespace CallSiteIds

open Schema

/-- An attribute of a parameter with its arguments. -/
structure AttributeDescriptor where
  name : String
  arguments : List Json.Value
  namedArguments : List (String × Json.Value)

/-- A parameter of the called method. -/
structure ParameterDescriptor where
  name : String
  type : String
  hasDefault : Bool
  defaultLiteral : Option String
  attributes : List AttributeDescriptor

/-- The place of a call, as far as it is known. -/
structure LocationDescriptor where
  path : Option String
  line : Option Int
  column : Option Int
deriving DecidableEq, Repr

/-- A call that the host has seen. -/
structure InvocationDescriptor where
  targetType : String
  methodName : String
  returnType : String
  isStatic : Bool
  location : Option LocationDescriptor
  interceptsData : Option String
  parameters : List ParameterDescriptor

namespace LocationDescriptor

/-- The location, when every part is known and none is empty or negative. -/
def resolve? (l : LocationDescriptor) : Option SourceLocation :=
  match l.path, l.line, l.column with
  | some path, some line, some column =>
    if path.isEmpty ∨ line < 0 ∨ column < 0 then none
    else some ⟨path, line.toNat, column.toNat⟩
  | _, _, _ => none

end LocationDescriptor

namespace InvocationDescriptor

/-- The name of the called method with its type. -/
def target (d : InvocationDescriptor) : String :=
  d.targetType ++ "." ++ d.methodName

/-- Where the call stands, if that is known. -/
def sourceLocation? (d : InvocationDescriptor) : Option SourceLocation :=
  d.location.bind LocationDescriptor.resolve?

end InvocationDescriptor

/-- The parameter as a record lists it. -/
def ParameterDescriptor.info (p : ParameterDescriptor) : ParameterInfo :=
  ⟨p.name, p.type, p.hasDefault, p.defaultLiteral⟩

/-! ## Reading descriptors -/

def AttributeDescriptor.read : Json.Value → Checked AttributeDescriptor :=
  model fun o =>
    AttributeDescriptor.mk <$> field "name" string o
      <*> fieldOr "arguments" [] (list anything) o
      <*> fieldOr "named_arguments" [] object o

/-- Checks that a parameter with a default literal says that it has a default. -/
def ParameterDescriptor.checkDefault (p : ParameterDescriptor) : Checked ParameterDescriptor :=
  if p.defaultLiteral.isSome && !p.hasDefault then
    .reject (.violation (.defaultWithoutFlag p.name))
  else .valid p

def ParameterDescriptor.read (v : Json.Value) : Checked ParameterDescriptor :=
  (model (fun o =>
    ParameterDescriptor.mk <$> field "name" string o
      <*> field "type" string o
      <*> fieldOr "has_default" false boolean o
      <*> fieldOr "default_literal" none (nullable string) o
      <*> fieldOr "attributes" [] (list AttributeDescriptor.read) o) v).andThen
    ParameterDescriptor.checkDefault

/-- Reads the place of a call. -/
def LocationDescriptor.read : Json.Value → Checked LocationDescriptor :=
  model fun o =>
    LocationDescriptor.mk <$> fieldOr "path" none (nullable string) o
      <*> fieldOr "line" none (nullable integer) o
      <*> fieldOr "column" none (nullable integer) o

def InvocationDescriptor.read : Json.Value → Checked InvocationDescriptor :=
  model fun o =>
    InvocationDescriptor.mk <$> field "target_type" string o
      <*> field "method_name" string o
      <*> field "return_type" string o
      <*> fieldOr "is_static" true boolean o
      <*> fieldOr "location" none (nullable LocationDescriptor.read) o
      <*> fieldOr "intercepts_data" none (nullable string) o
      <*> fieldOr "parameters" [] (list ParameterDescriptor.read) o

end CallSiteIds
