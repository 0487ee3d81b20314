import CallSiteIds.Decimal.Integer
import CallSiteIds.Json.Value
import CallSiteIds.Text.Hex

/-!
# Scalars of TOML

Strings in their four forms, numbers, truth values, dates and times.  A reading function takes
the text that lies ahead and returns what it read with the text that follows, or the fault
that it found.  Dates and times have no counterpart among document values: they are checked
and read as null.
-/

set_option autoImplicit false

namespace CallSiteIds.Toml

open Json (Value)

/-- Why a text is not read. -/
inductive Fault where
  /-- The text is no TOML document. -/
  | malformed
  /-- A decimal integer has more digits than integers may have. -/
  | longInteger (digits : Nat)
deriving DecidableEq, Repr

/-- Reads something at the start of a text. -/
abbrev Reader (α : Type) := List Char → Except Fault (α × List Char)

/-- A blank within a line. -/
def isGap (c : Char) : Bool :=
  c == ' ' || c == '\t'

/-- Skips blanks within a line. -/
def skipGap (cs : List Char) : List Char :=
  cs.dropWhile isGap

/-- A control character that no string or comment of one line may hold. -/
def isControl (c : Char) : Bool :=
  (c.toNat < 0x20 && c != '\t') || c.toNat == 0x7f

/-! ## Strings -/

/-- A control character that a string may not hold; `lines` tells whether it may have several
lines. -/
def isForbidden (lines : Bool) (c : Char) : Bool :=
  isControl c && !(lines && c == '\n')

/-- Reads a literal string of one line after its opening quote. -/
def readLiteral : Reader (List Char)
  | [] => .error .malformed
  | c :: rest =>
    if c = '\'' then .ok ([], rest)
    else if isForbidden false c then .error .malformed
    else do
      let (text, rest) ← readLiteral rest
      return (c :: text, rest)

/-- Reads a literal string of several lines after its opening quotes. -/
def readLiteralLines : Reader (List Char)
  | '\'' :: '\'' :: '\'' :: rest => .ok ([], rest)
  | [] => .error .malformed
  | c :: rest =>
    if isForbidden true c then .error .malformed
    else do
      let (text, rest) ← readLiteralLines rest
      return (c :: text, rest)

/-- What an escape letter stands for. -/
def escaped? : Char → Option Char
  | 'b' => some '\x08'
  | 't' => some '\t'
  | 'n' => some '\n'
  | 'f' => some '\x0c'
  | 'r' => some '\r'
  | '"' => some '"'
  | '\\' => some '\\'
  | _ => none

/-- The character with a number in hexadecimal digits. -/
def scalar? (digits : List Char) : Option Char :=
  match Text.hexNumber? digits with
  | some n => if n.isValidChar then some (Char.ofNat n) else none
  | none => none

/-- What a reader of a basic string skips: nothing, the blanks between a backslash and the end
of its line, or the blanks and line ends that follow. -/
inductive Skip where
  | nothing
  | toLineEnd
  | blanks
deriving DecidableEq

/-- Reads a basic string after its opening quotes; `lines` tells whether it may have several
lines. -/
def readBasic (lines : Bool) : Skip → Reader (List Char)
  | _, [] => .error .malformed
  | skip, c :: rest =>
    let more (d : Char) (next : Except Fault (List Char × List Char)) :
        Except Fault (List Char × List Char) :=
      next.map fun (text, rest) => (d :: text, rest)
    if skip = .toLineEnd then
      if isGap c then readBasic lines .toLineEnd rest
      else if c = '\n' then readBasic lines .blanks rest
      else .error .malformed
    else if skip = .blanks ∧ (isGap c ∨ c = '\n') then readBasic lines .blanks rest
    else if c = '"' then
      if lines then
        match rest with
        | '"' :: '"' :: after => .ok ([], after)
        | _ => more c (readBasic lines .nothing rest)
      else .ok ([], rest)
    else if c = '\\' then
      match rest with
      | 'u' :: a :: b :: c :: d :: rest =>
        match scalar? [a, b, c, d] with
        | some x => more x (readBasic lines .nothing rest)
        | none => .error .malformed
      | 'U' :: a :: b :: c :: d :: e :: f :: g :: h :: rest =>
        match scalar? [a, b, c, d, e, f, g, h] with
        | some x => more x (readBasic lines .nothing rest)
        | none => .error .malformed
      | e :: rest =>
        if lines ∧ isGap e then readBasic lines .toLineEnd rest
        else if lines ∧ e = '\n' then readBasic lines .blanks rest
        else
          match escaped? e with
          | some x => more x (readBasic lines .nothing rest)
          | none => .error .malformed
      | [] => .error .malformed
    else if isForbidden lines c then .error .malformed
    else more c (readBasic lines .nothing rest)

/-- Adds up to two quotes that stand directly after the closing ones: they belong to the
text. -/
def withLastQuotes (quote : Char) (text rest : List Char) : List Char × List Char :=
  match rest with
  | a :: b :: rest =>
    if a = quote then
      if b = quote then (text ++ [quote, quote], rest) else (text ++ [quote], b :: rest)
    else (text, a :: b :: rest)
  | [a] => if a = quote then (text ++ [quote], []) else (text, [a])
  | [] => (text, [])

/-- Drops a line end directly after opening quotes. -/
def dropFirstFeed : List Char → List Char
  | '\n' :: rest => rest
  | cs => cs

/-- Reads a string, if one lies ahead. -/
def readString? : List Char → Option (Except Fault (String × List Char))
  | '"' :: '"' :: '"' :: rest =>
    some ((readBasic true .nothing (dropFirstFeed rest)).map fun (text, rest) =>
      let (text, rest) := withLastQuotes '"' text rest
      (String.ofList text, rest))
  | '"' :: rest =>
    some ((readBasic false .nothing rest).map fun (text, rest) => (String.ofList text, rest))
  | '\'' :: '\'' :: '\'' :: rest =>
    some ((readLiteralLines (dropFirstFeed rest)).map fun (text, rest) =>
      let (text, rest) := withLastQuotes '\'' text rest
      (String.ofList text, rest))
  | '\'' :: rest =>
    some ((readLiteral rest).map fun (text, rest) => (String.ofList text, rest))
  | _ => none

/-! ## Dates and times -/

/-- The number of two digits. -/
def twoDigits? (a b : Char) : Option Nat :=
  if a.isDigit && b.isDigit then some (10 * (a.toNat - 48) + (b.toNat - 48)) else none

/-- The number of two digits, if it lies within bounds. -/
def twoDigitsWithin? (least greatest : Nat) (a b : Char) : Option Nat :=
  (twoDigits? a b).bind fun n => if least ≤ n ∧ n ≤ greatest then some n else none

/-- Skips the fraction of a second, if one lies ahead. -/
def skipFraction : List Char → List Char
  | '.' :: c :: rest => if c.isDigit then rest.dropWhile Char.isDigit else '.' :: c :: rest
  | cs => cs

/-- The text after a time of day, if one lies ahead. -/
def afterTime? : List Char → Option (List Char)
  | a :: b :: ':' :: c :: d :: ':' :: e :: f :: rest => do
    let _ ← twoDigitsWithin? 0 23 a b
    let _ ← twoDigitsWithin? 0 59 c d
    let _ ← twoDigitsWithin? 0 59 e f
    return skipFraction rest
  | _ => none

/-- Skips the offset of a time, if one lies ahead. -/
def skipOffset : List Char → List Char
  | 'Z' :: rest => rest
  | 'z' :: rest => rest
  | sign :: a :: b :: ':' :: c :: d :: rest =>
    if (sign == '+' || sign == '-') && (twoDigitsWithin? 0 23 a b).isSome
        && (twoDigitsWithin? 0 59 c d).isSome then rest
    else sign :: a :: b :: ':' :: c :: d :: rest
  | cs => cs

/-- Tells whether a year has a leap day. -/
def isLeap (year : Nat) : Bool :=
  year % 4 == 0 && (year % 100 != 0 || year % 400 == 0)

/-- The number of days of a month. -/
def daysOf (year month : Nat) : Nat :=
  if month = 2 then if isLeap year then 29 else 28
  else if month = 4 ∨ month = 6 ∨ month = 9 ∨ month = 11 then 30 else 31

/-- Reads a date, if one lies ahead; tells also whether the calendar has it. -/
def readDate? : List Char → Option (Bool × List Char)
  | a :: b :: c :: d :: '-' :: e :: f :: '-' :: g :: h :: rest => do
    let high ← twoDigits? a b
    let low ← twoDigits? c d
    let month ← twoDigitsWithin? 1 12 e f
    let day ← twoDigitsWithin? 1 31 g h
    let year := 100 * high + low
    return (decide (1 ≤ year ∧ day ≤ daysOf year month), rest)
  | _ => none

/-- Skips the time of a date, if one lies ahead. -/
def skipDateTime : List Char → List Char
  | c :: rest =>
    if c == 'T' || c == 't' || c == ' ' then
      match afterTime? rest with
      | some rest => skipOffset rest
      | none => c :: rest
    else c :: rest
  | [] => []

/-- Reads a date or a time, if one lies ahead. -/
def readMoment? (cs : List Char) : Option (Except Fault (Value × List Char)) :=
  match readDate? cs with
  | some (exists_, rest) =>
    some (if exists_ then .ok (.null, skipDateTime rest) else .error .malformed)
  | none => (afterTime? cs).map fun rest => .ok (.null, rest)

/-! ## Numbers -/

/-- Reads what follows the first of some digits: more of them, with single underscores
between. -/
def digitsAfter (test : Char → Bool) : List Char → List Char × List Char
  | [] => ([], [])
  | ['_'] => ([], ['_'])
  | '_' :: c :: rest =>
    if test c then
      let (digits, rest) := digitsAfter test rest
      (c :: digits, rest)
    else ([], '_' :: c :: rest)
  | c :: rest =>
    if test c then
      let (digits, rest) := digitsAfter test rest
      (c :: digits, rest)
    else ([], c :: rest)

/-- Reads digits with single underscores between, if any lie ahead. -/
def readDigits? (test : Char → Bool) : List Char → Option (List Char × List Char)
  | [] => none
  | c :: rest =>
    if test c then
      let (digits, rest) := digitsAfter test rest
      some (c :: digits, rest)
    else none

def valueOfDigits (base : Nat) (digits : List Char) : Nat :=
  digits.foldl (fun n c => base * n + (Text.hexValue? c).getD 0) 0

/-- The bases that a letter after a zero stands for, with their digits. -/
def baseOf? : Char → Option (Nat × (Char → Bool))
  | 'x' => some (16, fun c => (Text.hexValue? c).isSome)
  | 'o' => some (8, fun c => '0' ≤ c && c ≤ '7')
  | 'b' => some (2, fun c => c == '0' || c == '1')
  | _ => none

/-- Reads an integer to a base other than ten, if one lies ahead. -/
def readBased? : List Char → Option (Value × List Char)
  | '0' :: letter :: rest => do
    let (base, test) ← baseOf? letter
    let (digits, rest) ← readDigits? test rest
    return (.int (valueOfDigits base digits), rest)
  | _ => none

/-- Reads a sign, if one lies ahead. -/
def readSign : List Char → Option Bool × List Char
  | '+' :: rest => (some false, rest)
  | '-' :: rest => (some true, rest)
  | cs => (none, cs)

/-- Reads the integral part of a number, if one lies ahead: a zero stands alone. -/
def readWhole? : List Char → Option (List Char × List Char)
  | '0' :: rest => some (['0'], rest)
  | cs => readDigits? Char.isDigit cs

/-- Reads the places after a point, if there are any. -/
def readPlaces : List Char → Option (List Char) × List Char
  | '.' :: rest =>
    match readDigits? Char.isDigit rest with
    | some (digits, rest) => (some digits, rest)
    | none => (none, '.' :: rest)
  | cs => (none, cs)

/-- Reads an exponent, if there is one. -/
def readPower : List Char → Option Int × List Char
  | [] => (none, [])
  | mark :: rest =>
    if mark = 'e' ∨ mark = 'E' then
      let (sign, after) := readSign rest
      match readDigits? Char.isDigit after with
      | some (digits, rest) =>
        let n : Int := valueOfDigits 10 digits
        (some (if sign = some true then -n else n), rest)
      | none => (none, mark :: rest)
    else (none, mark :: rest)

/-- Reads a decimal number, if one lies ahead. -/
def readDecimal? (cs : List Char) : Option (Except Fault (Value × List Char)) := do
  let (sign, rest) := readSign cs
  let (whole, rest) ← readWhole? rest
  let (places, rest) := readPlaces rest
  let (power, rest) := readPower rest
  let negative := sign = some true
  if places.isNone ∧ power.isNone then
    if Decimal.digitLimit < whole.length then return .error (.longInteger whole.length)
    let n : Int := valueOfDigits 10 whole
    return .ok (.int (if negative then -n else n), rest)
  let places := places.getD []
  let digits := valueOfDigits 10 (whole ++ places)
  return .ok (.float (.ofDecimal negative digits (power.getD 0 - places.length)), rest)

/-- Reads a word that stands for a value, if one lies ahead. -/
def readWord? : List Char → Option (Value × List Char)
  | 't' :: 'r' :: 'u' :: 'e' :: rest => some (.bool true, rest)
  | 'f' :: 'a' :: 'l' :: 's' :: 'e' :: rest => some (.bool false, rest)
  | _ => none

/-- Reads the name of a number that is not finite, if one lies ahead. -/
def readNonFinite? (cs : List Char) : Option (Value × List Char) :=
  let (sign, rest) := readSign cs
  match rest with
  | 'i' :: 'n' :: 'f' :: rest => some (.float (.infinite (sign = some true)), rest)
  | 'n' :: 'a' :: 'n' :: rest => some (.float .undefined, rest)
  | _ => none

/-- Reads a value that is neither an array nor a table. -/
def readScalar (cs : List Char) : Except Fault (Value × List Char) :=
  match readString? cs with
  | some read => read.map fun (s, rest) => (.string s, rest)
  | none =>
    match readWord? cs with
    | some read => .ok read
    | none =>
      match readMoment? cs with
      | some read => read
      | none =>
        match readBased? cs with
        | some read => .ok read
        | none =>
          match readDecimal? cs with
          | some read => read
          | none =>
            match readNonFinite? cs with
            | some read => .ok read
            | none => .error .malformed

end CallSiteIds.Toml
