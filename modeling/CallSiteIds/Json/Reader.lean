import CallSiteIds.Decimal.Integer
import CallSiteIds.Json.Value
import CallSiteIds.Text.Hex
import CallSiteIds.Text.Units
import CallSiteIds.Text.Utf8

/-!
# Reading JSON

A strict reader: the whole input is one value, surrounded by nothing but blanks.  What differs
between the two places that read JSON is stated by `Rules`: whether integers are limited to 64
bits, whether numbers without a finite value are accepted, and how deep containers may nest.
A reading function returns the value together with the text that follows it.
-/

set_option autoImplicit false

namespace CallSiteIds.Json

/-- What a reader accepts beyond the common grammar. -/
structure Rules where
  /-- Integers of any size stay integers; otherwise a wide one becomes a binary number. -/
  wideIntegers : Bool
  /-- The names of the non-finite numbers, and numbers too great to be finite, are accepted. -/
  nonFinite : Bool
  /-- How many containers may be open at once. -/
  depthLimit : Nat

/-- The rules for documents that are exchanged: finite numbers, 64-bit integers. -/
def Rules.strict : Rules := ⟨false, false, 1024⟩

/-- The rules for single values given by hand: integers of any size, any number. -/
def Rules.generous : Rules := ⟨true, true, 100000⟩

/-- A blank between two tokens. -/
def isGap (c : Char) : Bool :=
  c == ' ' || c == '\t' || c == '\n' || c == '\r'

/-- Skips blanks. -/
def skipGap (cs : List Char) : List Char :=
  cs.dropWhile isGap

/-! ## Strings -/

/-- Reads the characters of a string up to its closing quote.  Escapes for the two halves of a
pair are kept apart as code units. -/
def readUnits : List Char → Option (List Nat × List Char)
  | [] => none
  | '"' :: rest => some ([], rest)
  | '\\' :: 'u' :: a :: b :: c :: d :: rest => do
    let unit ← Text.hexNumber? [a, b, c, d]
    let (units, rest) ← readUnits rest
    return (unit :: units, rest)
  | '\\' :: c :: rest => do
    let unit ← match c with
      | '"' => some 0x22
      | '\\' => some 0x5c
      | '/' => some 0x2f
      | 'b' => some 0x08
      | 'f' => some 0x0c
      | 'n' => some 0x0a
      | 'r' => some 0x0d
      | 't' => some 0x09
      | _ => none
    let (units, rest) ← readUnits rest
    return (unit :: units, rest)
  | c :: rest =>
    if c.toNat < 0x20 || c == '\\' then none
    else do
      let (units, rest) ← readUnits rest
      return (c.toNat :: units, rest)

/-- Reads a string whose opening quote has been read. -/
def readString (cs : List Char) : Option (String × List Char) := do
  let (units, rest) ← readUnits cs
  let text ← Text.ofUnits? units
  return (String.ofList text, rest)

/-! ## Numbers -/

/-- Reads a sign and the digits of the integral part, which has no leading zeros. -/
def readIntegral (cs : List Char) : Option (Bool × List Char × List Char) :=
  let (negative, cs) := match cs with
    | '-' :: rest => (true, rest)
    | _ => (false, cs)
  let digits := cs.takeWhile Char.isDigit
  let rest := cs.dropWhile Char.isDigit
  match digits with
  | [] => none
  | '0' :: _ :: _ => none
  | _ => some (negative, digits, rest)

/-- Reads the digits after a decimal point, if there is one. -/
def readFraction : List Char → Option (Option (List Char) × List Char)
  | '.' :: rest =>
    match rest.takeWhile Char.isDigit with
    | [] => none
    | digits => some (some digits, rest.dropWhile Char.isDigit)
  | cs => some (none, cs)

/-- Reads an exponent, if there is one. -/
def readExponent : List Char → Option (Option Int × List Char)
  | [] => some (none, [])
  | mark :: rest =>
    if mark = 'e' ∨ mark = 'E' then
      let (negative, rest) := match rest with
        | '-' :: r => (true, r)
        | '+' :: r => (false, r)
        | _ => (false, rest)
      match rest.takeWhile Char.isDigit with
      | [] => none
      | digits =>
        let n : Int := Decimal.ofDigits (digits.map fun c => c.toNat - 48)
        some (some (if negative then -n else n), rest.dropWhile Char.isDigit)
    else some (none, mark :: rest)

/-- The least and the greatest integer that a 64-bit document keeps as an integer. -/
def fitsWord (n : Int) : Bool :=
  -9223372036854775808 ≤ n && n ≤ 18446744073709551615

/-- A binary number as a document value, if the rules admit it. -/
def floatValue? (rules : Rules) (x : Decimal.Binary64) : Option Value :=
  if x.isFinite || rules.nonFinite then some (.float x) else none

def readNumber (rules : Rules) (cs : List Char) : Option (Value × List Char) := do
  let (negative, whole, rest) ← readIntegral cs
  let (fraction, rest) ← readFraction rest
  let (exponent, rest) ← readExponent rest
  let places := fraction.getD []
  let digits := Decimal.ofDigits ((whole ++ places).map fun c => c.toNat - 48)
  let n : Int := if negative then -(digits : Int) else digits
  let isInteger := fraction.isNone && exponent.isNone
  let value ←
    if isInteger && (rules.wideIntegers || fitsWord n) then some (.int n)
    else
      let power := exponent.getD 0 - (places.length : Int)
      floatValue? rules (Decimal.Binary64.ofDecimal negative digits power)
  return (value, rest)

/-! ## Values -/

/-- The rest of a text after a given beginning. -/
def dropLiteral : List Char → List Char → Option (List Char)
  | [], cs => some cs
  | _ :: _, [] => none
  | x :: xs, c :: cs => if x = c then dropLiteral xs cs else none

/-- The words that stand for a value. -/
def namedValues (rules : Rules) : List (String × Value) :=
  [("null", .null), ("true", .bool true), ("false", .bool false)] ++
    if rules.nonFinite then
      [("NaN", .float .undefined), ("Infinity", .float (.infinite false)),
        ("-Infinity", .float (.infinite true))]
    else []

/-- Reads a word that stands for a value. -/
def readNamed (rules : Rules) (cs : List Char) : Option (Value × List Char) :=
  (namedValues rules).findSome? fun (name, value) =>
    (dropLiteral name.toList cs).map fun rest => (value, rest)

mutual

/-- Reads a value that begins at once.  `depth` is the number of containers that may still be
opened; `fuel` bounds the number of steps, of which a character needs at most two. -/
def readValue (rules : Rules) : Nat → Nat → List Char → Option (Value × List Char)
  | 0, _, _ => none
  | fuel + 1, depth, cs =>
    match cs with
    | '"' :: rest => (readString rest).map fun (s, rest) => (.string s, rest)
    | '[' :: rest =>
      match depth with
      | 0 => none
      | depth + 1 =>
        match skipGap rest with
        | ']' :: rest => some (.array [], rest)
        | rest => (readItems rules fuel depth rest).map fun (vs, rest) => (.array vs, rest)
    | '{' :: rest =>
      match depth with
      | 0 => none
      | depth + 1 =>
        match skipGap rest with
        | '}' :: rest => some (.object [], rest)
        | rest => (readMembers rules fuel depth rest).map fun (ms, rest) =>
            (.object (fieldsOfMembers ms), rest)
    | cs => (readNamed rules cs).or (readNumber rules cs)

/-- Reads the items of an array that has at least one, and its closing bracket. -/
def readItems (rules : Rules) : Nat → Nat → List Char → Option (List Value × List Char)
  | 0, _, _ => none
  | fuel + 1, depth, cs =>
    match readValue rules fuel depth cs with
    | none => none
    | some (v, rest) =>
      match skipGap rest with
      | ']' :: rest => some ([v], rest)
      | ',' :: rest => (readItems rules fuel depth (skipGap rest)).map fun (vs, rest) =>
          (v :: vs, rest)
      | _ => none

/-- Reads the members of an object that has at least one, and its closing brace. -/
def readMembers (rules : Rules) :
    Nat → Nat → List Char → Option (List (String × Value) × List Char)
  | 0, _, _ => none
  | fuel + 1, depth, cs =>
    match cs with
    | '"' :: rest =>
      match readString rest with
      | none => none
      | some (key, rest) =>
        match skipGap rest with
        | ':' :: rest =>
          match readValue rules fuel depth (skipGap rest) with
          | none => none
          | some (v, rest) =>
            match skipGap rest with
            | '}' :: rest => some ([(key, v)], rest)
            | ',' :: rest => (readMembers rules fuel depth (skipGap rest)).map
                fun (ms, rest) => ((key, v) :: ms, rest)
            | _ => none
        | _ => none
    | _ => none

end

/-- The document that a text is, if it is one. -/
def parse? (rules : Rules) (cs : List Char) : Option Value :=
  match readValue rules (2 * cs.length + 2) rules.depthLimit (skipGap cs) with
  | some (v, rest) => if (skipGap rest).isEmpty then some v else none
  | none => none

/-- The document that a string is, if it is one. -/
def parseString? (rules : Rules) (s : String) : Option Value :=
  parse? rules s.toList

/-- The document that bytes are, if they are one under the strict rules. -/
def parseBytes? (bytes : List UInt8) : Option Value :=
  (Text.decodeUtf8? bytes).bind (parse? .strict)

end CallSiteIds.Json
