import CallSiteIds.Toml.Scalar
import CallSiteIds.Toml.Table

/-!
# Keys and values of TOML

Dotted keys, arrays and inline tables.  An array may spread over lines and hold comments; an
inline table may not.  Once an inline table has a container in a field, no later key of that
table leads into it.
-/

set_option autoImplicit false

namespace CallSiteIds.Toml

open Json (Value)

/-! ## Keys -/

/-- A character of a bare key. -/
def isKeyChar (c : Char) : Bool :=
  c.isAlphanum || c == '-' || c == '_'

def readKeyPart : Reader String
  | [] => .error .malformed
  | '"' :: rest =>
    (readBasic false .nothing rest).map fun (text, rest) => (String.ofList text, rest)
  | '\'' :: rest => (readLiteral rest).map fun (text, rest) => (String.ofList text, rest)
  | c :: rest =>
    if isKeyChar c then
      .ok (String.ofList (c :: rest.takeWhile isKeyChar), rest.dropWhile isKeyChar)
    else .error .malformed

/-- Reads a key of at most `fuel` parts and the blanks after it. -/
def readParts : Nat → Reader Key
  | 0, _ => .error .malformed
  | fuel + 1, cs => do
    let (part, rest) ← readKeyPart cs
    match skipGap rest with
    | '.' :: rest =>
      let (key, rest) ← readParts fuel (skipGap rest)
      return (part :: key, rest)
    | rest => return ([part], rest)

/-- Reads a key and the blanks after it. -/
def readKey (cs : List Char) : Except Fault (Key × List Char) :=
  readParts (cs.length + 1) cs

/-! ## Fillers -/

/-- Skips blanks, line ends and comments; `inComment` tells whether a comment is open. -/
def skipFiller (inComment : Bool) : List Char → Except Fault (List Char)
  | [] => .ok []
  | c :: rest =>
    if inComment then
      if c = '\n' then skipFiller false rest
      else if isForbidden false c then .error .malformed
      else skipFiller true rest
    else if isGap c ∨ c = '\n' then skipFiller false rest
    else if c = '#' then skipFiller true rest
    else .ok (c :: rest)

/-! ## Values -/

/-- Tells whether a value is an array or a table. -/
def isContainer : Value → Bool
  | .array _ => true
  | .object _ => true
  | _ => false

/-- An inline table while it is read: its fields, and the keys that no other key may extend. -/
structure InlineTable where
  fields : Table
  closed : List Key

/-- Adds a field to an inline table. -/
def InlineTable.add (t : InlineTable) (key : Key) (value : Value) : Option InlineTable :=
  match key.getLast? with
  | none => none
  | some stem =>
    if t.closed.any fun k => k.isPrefixOf key then none
    else do
      let fields ← within false (insertNew stem value) key.dropLast t.fields
      return ⟨fields, if isContainer value then key :: t.closed else t.closed⟩

/-- Succeeds with the value of an option. -/
def orMalformed {α : Type} : Option α → Except Fault α
  | some a => .ok a
  | none => .error .malformed

mutual

/-- Reads a value.  `fuel` bounds the number of steps, of which a character needs at most
two. -/
def readValue : Nat → Reader Value
  | 0, _ => .error .malformed
  | fuel + 1, cs =>
    match cs with
    | '[' :: rest => do
      let rest ← skipFiller false rest
      match rest with
      | ']' :: rest => return (.array [], rest)
      | rest =>
        let (values, rest) ← readItems fuel rest
        return (.array values, rest)
    | '{' :: rest =>
      match skipGap rest with
      | '}' :: rest => .ok (.object [], rest)
      | rest => readFields fuel ⟨[], []⟩ rest
    | cs => readScalar cs

/-- Reads the items of an array that has at least one, and its closing bracket. -/
def readItems : Nat → Reader (List Value)
  | 0, _ => .error .malformed
  | fuel + 1, cs => do
    let (value, rest) ← readValue fuel cs
    let rest ← skipFiller false rest
    match rest with
    | ']' :: rest => return ([value], rest)
    | ',' :: rest =>
      let rest ← skipFiller false rest
      match rest with
      | ']' :: rest => return ([value], rest)
      | rest =>
        let (values, rest) ← readItems fuel rest
        return (value :: values, rest)
    | _ => throw .malformed

/-- Reads the fields of an inline table that has at least one more, and its closing brace. -/
def readFields : Nat → InlineTable → Reader Value
  | 0, _, _ => .error .malformed
  | fuel + 1, table, cs => do
    let (key, rest) ← readKey cs
    match rest with
    | '=' :: rest =>
      let (value, rest) ← readValue fuel (skipGap rest)
      let table ← orMalformed (table.add key value)
      match skipGap rest with
      | '}' :: rest => return (.object table.fields, rest)
      | ',' :: rest => readFields fuel table (skipGap rest)
      | _ => throw .malformed
    | _ => throw .malformed

end

/-- Reads a key, an equals sign and a value. -/
def readPair (cs : List Char) : Except Fault ((Key × Value) × List Char) := do
  let (key, rest) ← readKey cs
  match rest with
  | '=' :: rest =>
    let (value, rest) ← readValue (2 * rest.length + 2) (skipGap rest)
    return ((key, value), rest)
  | _ => throw .malformed

end CallSiteIds.Toml
