import CallSiteIds.Descriptor.Basic

/-!
# The marker attribute

A parameter is marked by an attribute with a known name.  Its arguments fill three slots, by
position or by name: the format of the literal, a text to put in front of it, and a flag.  The
decoder first assigns arguments to slots and then looks at what was assigned, so only the
assignment matters and not the form in which it was written.
-/

set_option autoImplicit false

namespace CallSiteIds.Marker

open Json (Value)

/-! ## Recognising the marker -/

/-- The names of the marker, unless others are configured. -/
def defaultNames : List String :=
  ["UniqueIdAttribute", "UniqueId"]

def rootQualifier : List Char := "global::".toList

/-- A text without a beginning that it may have. -/
def dropLead (lead cs : List Char) : List Char :=
  if lead.isPrefixOf cs then cs.drop lead.length else cs

/-- An attribute name without blanks and qualifiers. -/
def simpleName (name : String) : List Char :=
  Text.afterLast '.' (dropLead rootQualifier (Text.trim name.toList))

/-- Tells whether an attribute name is one of the marker's. -/
def isMarkerName (names : List String) (name : String) : Bool :=
  names.any fun n => simpleName name == simpleName n

/-- The first marker among the attributes of a parameter. -/
def find? (names : List String) (p : ParameterDescriptor) : Option AttributeDescriptor :=
  p.attributes.find? fun a => isMarkerName names a.name

/-! ## Slots -/

/-- The arguments of the marker, in the order of their positions. -/
inductive Slot where
  | format
  | lead
  | deterministic
deriving DecidableEq, Repr

namespace Slot

/-- The slots in the order of positional arguments. -/
def all : List Slot :=
  [format, lead, deterministic]

def name : Slot → String
  | format => "format"
  | lead => "prefix"
  | deterministic => "deterministic"

/-- The key of a named argument with its first letter in lower case. -/
def lowerFirst : List Char → List Char
  | [] => []
  | c :: rest => c.toLower :: rest

/-- The slot that a named argument fills. -/
def ofKey? (key : String) : Option Slot :=
  all.find? fun s => s.name.toList == lowerFirst key.toList

end Slot

/-- Why the arguments of a marker cannot be decoded. -/
inductive ArgumentError where
  | tooMany (count : Nat)
  | unknown (key : String)
  | repeated (slot : Slot)
  | format (e : Literal.FormatError)
  | leadNotText (value : Value)
  | flagNotBoolean (value : Value)

/-- The wording of an argument error. -/
def ArgumentError.message : ArgumentError → String
  | .tooMany count =>
    "Marker takes at most 3 arguments, got " ++ Decimal.integerString count
  | .unknown key => "Unknown marker argument '" ++ key ++ "'"
  | .repeated slot => "Marker argument '" ++ slot.name ++ "' given twice"
  | .format e => e.message
  | .leadNotText value => "Marker prefix must be a string, got " ++ Json.describe value
  | .flagNotBoolean value =>
    "Marker deterministic flag must be a boolean, got " ++ Json.describe value

/-- Arguments with the slots they fill. -/
abbrev Assignment := List (Slot × Value)

def Assignment.get? (a : Assignment) (slot : Slot) : Option Value :=
  (a.find? fun p => p.1 == slot).map Prod.snd

/-- Assigns named arguments to slots that are still free. -/
def assignNamed : Assignment → List (String × Value) → Except ArgumentError Assignment
  | assigned, [] => .ok assigned
  | assigned, (key, value) :: rest =>
    match Slot.ofKey? key with
    | none => .error (.unknown key)
    | some slot =>
      if assigned.any fun p => p.1 == slot then .error (.repeated slot)
      else assignNamed (assigned ++ [(slot, value)]) rest

/-- Assigns all arguments of an attribute to slots. -/
def assign (a : AttributeDescriptor) : Except ArgumentError Assignment :=
  if Slot.all.length < a.arguments.length then .error (.tooMany a.arguments.length)
  else assignNamed (Slot.all.zip a.arguments) a.namedArguments

/-! ## Decoding -/

/-- What a marker asks for. -/
structure Config where
  format : Literal.Format
  lead : Option String
  deterministic : Bool
deriving DecidableEq, Repr

/-- The format in an assignment; an absent one is the default, a null one is not. -/
def readFormat : Option Value → Except ArgumentError Literal.Format
  | none => .ok .guid
  | some v =>
    match Literal.Format.ofValue v with
    | .ok f => .ok f
    | .error e => .error (.format e)

/-- The lead in an assignment. -/
def readLead : Option Value → Except ArgumentError (Option String)
  | none => .ok none
  | some .null => .ok none
  | some (.string s) => .ok (some s)
  | some v => .error (.leadNotText v)

/-- The flag in an assignment. -/
def readFlag : Option Value → Except ArgumentError Bool
  | none => .ok true
  | some (.bool b) => .ok b
  | some v => .error (.flagNotBoolean v)

/-- What an assignment asks for. -/
def Config.ofAssignment (a : Assignment) : Except ArgumentError Config := do
  let format ← readFormat (a.get? .format)
  let lead ← readLead (a.get? .lead)
  let deterministic ← readFlag (a.get? .deterministic)
  return ⟨format, lead, deterministic⟩

/-- What a marker attribute asks for. -/
def decode (a : AttributeDescriptor) : Except ArgumentError Config := do
  Config.ofAssignment (← assign a)

end CallSiteIds.Marker
