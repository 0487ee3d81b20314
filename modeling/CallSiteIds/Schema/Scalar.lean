import CallSiteIds.Literal.Format
import CallSiteIds.Schema.Checked

/-!
# Lenient readings of single values

Strings must be strings, but numbers and truth values are read from whatever plainly means
one: an integer also from a truth value, an integral binary number or a text, a truth value
also from zero, one and a few words.
-/

set_option autoImplicit false

namespace CallSiteIds.Schema

open CallSiteIds.Json (Value)
open Checked

/-- Reads any value. -/
def anything (v : Value) : Checked Value :=
  valid v

/-- Reads a string. -/
def string : Value → Checked String
  | .string s => valid s
  | _ => reject .stringType

/-- Reads a string that is not empty. -/
def nonemptyString (v : Value) : Checked String :=
  (string v).andThen fun s => if s.isEmpty then reject .stringTooShort else valid s

/-- Reads an object as its fields. -/
def object : Value → Checked Fields
  | .object fields => valid fields
  | _ => reject .objectType

/-! ## Integers -/

/-- The values of ASCII digits with single underscores between them. -/
def asciiDigits? : List Char → Option (List Nat)
  | [] => none
  | [c] => if c.isDigit then some [c.toNat - 48] else none
  | c :: '_' :: rest =>
    if c.isDigit then (asciiDigits? rest).map ((c.toNat - 48) :: ·) else none
  | c :: d :: rest =>
    if c.isDigit then (asciiDigits? (d :: rest)).map ((c.toNat - 48) :: ·) else none

/-- Drops a decimal point that only zeros follow. -/
def dropZeroFraction (cs : List Char) : List Char :=
  let whole := cs.takeWhile (· != '.')
  let fraction := (cs.dropWhile (· != '.')).drop 1
  if !fraction.isEmpty && fraction.all (· == '0') then whole else cs

/-- Splits off a sign. -/
def signOf : List Char → Bool × List Char
  | '-' :: rest => (true, rest)
  | '+' :: rest => (false, rest)
  | cs => (false, cs)

/-- Reads an integer from a text. -/
def integerOfText (s : String) : Checked Int :=
  let (negative, rest) := signOf (Text.trimBoth Text.isWhiteSpace s.toList)
  match asciiDigits? (dropZeroFraction rest) with
  | none => reject .intParsing
  | some ds =>
    if Decimal.digitLimit < ds.length then reject .intParsingSize
    else
      let n : Int := Decimal.ofDigits ds
      valid (if negative then -n else n)

/-- Tells whether the integer that a binary number is can be taken for an integer. -/
def fitsWord (n : Int) : Bool :=
  n.natAbs < 0x8000000000000000

/-- Reads an integer. -/
def integer : Value → Checked Int
  | .int n => valid n
  | .bool b => valid (if b then 1 else 0)
  | .float x =>
    match x.toInt? with
    | none => reject .intFromFloat
    | some n => if fitsWord n then valid n else reject .intParsingSize
  | .string s => integerOfText s
  | _ => reject .intType

/-- Reads an integer that is not negative. -/
def natural (v : Value) : Checked Nat :=
  (integer v).andThen fun n => if n < 0 then reject .belowMinimum else valid n.toNat

/-! ## Truth values -/

/-- The words for the two truth values. -/
def truthWords : List (String × Bool) :=
  [("0", false), ("off", false), ("f", false), ("false", false), ("n", false), ("no", false),
    ("1", true), ("on", true), ("t", true), ("true", true), ("y", true), ("yes", true)]

/-- Tells whether an integer has 64 bits with its sign. -/
def isWord (n : Int) : Bool :=
  -0x8000000000000000 ≤ n && n < 0x8000000000000000

/-- Reads a truth value from an integer. -/
def truthOfInteger (n : Int) : Checked Bool :=
  if n = 0 then valid false else if n = 1 then valid true else reject .boolParsing

/-- Reads a truth value. -/
def boolean : Value → Checked Bool
  | .bool b => valid b
  | .int n => if isWord n then truthOfInteger n else reject .boolType
  | .float x =>
    match x.toInt? with
    | some n => if fitsWord n then truthOfInteger n else reject .boolType
    | none => reject .boolType
  | .string s =>
    let word := String.ofList (s.toList.map Char.toLower)
    match truthWords.find? fun p => p.1 == word with
    | some p => valid p.2
    | none => reject .boolParsing
  | _ => reject .boolType

/-! ## Formats -/

/-- The number that a value equals, if it equals one. -/
def numberOf? : Value → Option Int
  | .int n => some n
  | .bool b => some (if b then 1 else 0)
  | .float x => x.toInt?
  | .string s => (["0", "1", "2", "3"].findIdx? (· == s)).map fun i => (i : Int)
  | _ => none

/-- Reads the number of a format. -/
def literalFormat (v : Value) : Checked Literal.Format :=
  match (numberOf? v).bind Literal.Format.ofCode? with
  | some f => valid f
  | none => reject .enumeration

end CallSiteIds.Schema
