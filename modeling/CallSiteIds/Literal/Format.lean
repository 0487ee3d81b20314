import CallSiteIds.Json.Diagnostic
import CallSiteIds.Text.Blank
import CallSiteIds.Text.Split

/-!
# Literal formats

A marked parameter asks for its literal in one of four formats.  A format is requested by its
number or by one of its two names; a name may be qualified, and only the part after the last
dot counts.
-/

set_option autoImplicit false

namespace CallSiteIds.Literal

/-- The formats of a literal. -/
inductive Format where
  | guid
  | htmlId
  | timestamp
  | shortHash
deriving DecidableEq, Repr

/-- Why a value names no format. -/
inductive FormatError where
  /-- The value is neither an integer nor a string. -/
  | notAFormat (value : Json.Value)
  | outOfRange (n : Int)
  | unknownName (name : String)

/-- The wording of a format error. -/
def FormatError.message : FormatError → String
  | .notAFormat value => "Invalid unique-id format: " ++ Json.describe value
  | .outOfRange n => "Unique-id format value out of range: " ++ Decimal.integerString n
  | .unknownName name => "Unknown unique-id format name: " ++ Text.quoted name

namespace Format

/-- The formats in the order of their numbers. -/
def all : List Format :=
  [guid, htmlId, timestamp, shortHash]

/-- The number of a format. -/
def code : Format → Nat
  | guid => 0
  | htmlId => 1
  | timestamp => 2
  | shortHash => 3

/-- The name of a format in the generated language. -/
def displayName : Format → String
  | guid => "Guid"
  | htmlId => "HtmlId"
  | timestamp => "Timestamp"
  | shortHash => "ShortHash"

def capitalName : Format → String
  | guid => "GUID"
  | htmlId => "HTML_ID"
  | timestamp => "TIMESTAMP"
  | shortHash => "SHORT_HASH"

/-- What the format adds to the text that is hashed. -/
def salt : Format → String
  | guid => "guid"
  | htmlId => "htmlid"
  | timestamp => "timestamp"
  | shortHash => "shorthash"

/-- The format with a number. -/
def ofCode? (n : Int) : Option Format :=
  all.find? fun f => (f.code : Int) == n

def ofName? (name : List Char) : Option Format :=
  all.find? fun f => name == f.displayName.toList || name == f.capitalName.toList

/-- The format that a string requests. -/
def ofString (s : String) : Except FormatError Format :=
  match ofName? (Text.afterLast '.' (Text.trim s.toList)) with
  | some f => .ok f
  | none => .error (.unknownName s)

/-- The format that a value requests. -/
def ofValue : Json.Value → Except FormatError Format
  | .int n =>
    match ofCode? n with
    | some f => .ok f
    | none => .error (.outOfRange n)
  | .string s => ofString s
  | value => .error (.notAFormat value)

/-- A format is the one with its number. -/
@[simp] theorem ofCode?_code (f : Format) : ofCode? f.code = some f := by
  cases f <;> decide

/-- A format is requested by its display name. -/
@[simp] theorem ofString_displayName (f : Format) : ofString f.displayName = .ok f := by
  cases f <;> rfl

end Format

/-- A format as a record asks for it: settled, or still as it was written. -/
inductive FormatRequest where
  | settled (format : Format)
  | written (value : Json.Value)

/-- The format that is asked for. -/
def FormatRequest.resolve : FormatRequest → Except FormatError Format
  | .settled f => .ok f
  | .written v => Format.ofValue v

end CallSiteIds.Literal
