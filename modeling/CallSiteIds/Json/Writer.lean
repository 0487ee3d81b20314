import CallSiteIds.Decimal.Shortest
import CallSiteIds.Json.Value
import CallSiteIds.Text.Hex

/-!
# Writing JSON

Documents are written in one form only, so that equal values give equal bytes: fields sorted
by key, no blanks in the compact form, two columns of indentation per level in the indented
form, and no escape where none is needed.
-/

set_option autoImplicit false

namespace CallSiteIds.Json

/-- Numbers are written without an exponent while the point stands at most sixteen digits to
the right of the first digit or four zeros to its left; an exponent is plain. -/
def numberLayout : Decimal.Layout where
  leastPoint := -4
  greatestPoint := 16
  exponentText e := 'e' :: Decimal.integerText e
  infinityText := "null"
  undefinedText := "null"

/-- One character of a string. -/
def stringChar (c : Char) : List Char :=
  if c = '"' then ['\\', '"']
  else if c = '\\' then ['\\', '\\']
  else if c.toNat = 0x08 then ['\\', 'b']
  else if c = '\t' then ['\\', 't']
  else if c = '\n' then ['\\', 'n']
  else if c.toNat = 0x0c then ['\\', 'f']
  else if c = '\r' then ['\\', 'r']
  else if c.toNat < 0x20 then '\\' :: 'u' :: Text.hexDigits 4 c.toNat
  else [c]

/-- A string in quotes. -/
def stringText (s : String) : List Char :=
  '"' :: s.toList.flatMap stringChar ++ ['"']

/-- The text of a value that is no container. -/
def scalarText : Value → List Char
  | .null => "null".toList
  | .bool true => "true".toList
  | .bool false => "false".toList
  | .int n => Decimal.integerText n
  | .float x => if x.isFinite then x.text numberLayout else "null".toList
  | .string s => stringText s
  | .array _ => []
  | .object _ => []

/-- The order of keys: by code point, which is also the order of their encoded bytes. -/
def keyLe (a b : String × List Char) : Bool :=
  a.1 ≤ b.1

/-! ## The compact form -/

mutual

/-- A document on one line without blanks. -/
def compact : Value → List Char
  | .array items => '[' :: [','].intercalate (compactItems items) ++ [']']
  | .object fields =>
    let texts := (compactFields fields).mergeSort keyLe
    '{' :: [','].intercalate (texts.map Prod.snd) ++ ['}']
  | v => scalarText v

/-- The items of an array. -/
def compactItems : List Value → List (List Char)
  | [] => []
  | v :: vs => compact v :: compactItems vs

/-- The fields of an object, each with its key. -/
def compactFields : List (String × Value) → List (String × List Char)
  | [] => []
  | (k, v) :: fields => (k, stringText k ++ ':' :: compact v) :: compactFields fields

end

/-! ## The indented form -/

/-- A new line indented for a level. -/
def newLine (level : Nat) : List Char :=
  '\n' :: List.replicate (2 * level) ' '

/-- A container with its items on lines of their own. -/
def block (opening closing : Char) (level : Nat) (items : List (List Char)) : List Char :=
  if items.isEmpty then [opening, closing]
  else
    opening :: newLine (level + 1) ++ (',' :: newLine (level + 1)).intercalate items ++
      newLine level ++ [closing]

mutual

/-- A document on several lines, its first at the given level. -/
def indented (level : Nat) : Value → List Char
  | .array items => block '[' ']' level (indentedItems (level + 1) items)
  | .object fields =>
    block '{' '}' level
      (((indentedFields (level + 1) fields).mergeSort keyLe).map Prod.snd)
  | v => scalarText v

/-- The items of an array. -/
def indentedItems (level : Nat) : List Value → List (List Char)
  | [] => []
  | v :: vs => indented level v :: indentedItems level vs

/-- The fields of an object, each with its key. -/
def indentedFields (level : Nat) : List (String × Value) → List (String × List Char)
  | [] => []
  | (k, v) :: fields =>
    (k, stringText k ++ ':' :: ' ' :: indented level v) :: indentedFields level fields

end

/-! ## Nesting -/

mutual

/-- The greatest number of containers of a document that lie inside each other. -/
def nesting : Value → Nat
  | .array items => nestingOfItems items + 1
  | .object fields => nestingOfFields fields + 1
  | _ => 0

/-- The greatest nesting among the items of an array. -/
def nestingOfItems : List Value → Nat
  | [] => 0
  | v :: vs => max (nesting v) (nestingOfItems vs)

/-- The greatest nesting among the fields of an object. -/
def nestingOfFields : List (String × Value) → Nat
  | [] => 0
  | (_, v) :: fields => max (nesting v) (nestingOfFields fields)

end

/-- A document nested more deeply than this cannot be written. -/
def nestingLimit : Nat := 255

/-- Tells whether a document can be written. -/
def isWritable (v : Value) : Bool :=
  nesting v ≤ nestingLimit

/-! ## Files -/

/-- The text of a file that holds one document. -/
def documentText (v : Value) : List Char :=
  indented 0 v

/-- The text of a file that holds one document per line. -/
def linesText (vs : List Value) : List Char :=
  vs.flatMap fun v => compact v ++ ['\n']

end CallSiteIds.Json
