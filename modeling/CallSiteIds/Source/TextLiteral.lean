import CallSiteIds.Text.Hex

/-!
# String literals of the generated source

Two forms are in use.  A regular literal escapes quotes, backslashes, control characters and
line terminators; a verbatim literal, which shows a path as it is, doubles its quotes.  Both
are written and read here.  A reading starts after the opening quote and returns what the
literal stands for together with the text after its closing quote.
-/

set_option autoImplicit false

namespace CallSiteIds.Source

/-! ## Regular literals -/

/-- The letter of the escape of a character that has one of its own. -/
def escapeLetter? (c : Char) : Option Char :=
  match c.toNat with
  | 0x00 => some '0'
  | 0x07 => some 'a'
  | 0x08 => some 'b'
  | 0x09 => some 't'
  | 0x0a => some 'n'
  | 0x0b => some 'v'
  | 0x0c => some 'f'
  | 0x0d => some 'r'
  | 0x22 => some '"'
  | 0x5c => some '\\'
  | _ => none

/-- A character that a regular literal escapes by its number. -/
def isNumbered (c : Char) : Bool :=
  c.toNat < 0x20 || (0x7f ≤ c.toNat && c.toNat < 0xa0) || c.toNat == 0x2028 || c.toNat == 0x2029

/-- One character of a regular literal. -/
def literalChar (c : Char) : List Char :=
  match escapeLetter? c with
  | some letter => ['\\', letter]
  | none => if isNumbered c then '\\' :: 'u' :: Text.hexDigits 4 c.toNat else [c]

def regularLiteral (cs : List Char) : List Char :=
  '"' :: cs.flatMap literalChar ++ ['"']

/-- A character that ends a line of source text. -/
def isLineTerminator (c : Char) : Bool :=
  c == '\n' || c == '\r' || c.toNat == 0x85 || c.toNat == 0x2028 || c.toNat == 0x2029

/-- The number that a simple escape stands for. -/
def simpleEscape? (letter : Char) : Option Nat :=
  match letter with
  | '\'' => some 0x27
  | '"' => some 0x22
  | '\\' => some 0x5c
  | '0' => some 0x00
  | 'a' => some 0x07
  | 'b' => some 0x08
  | 'e' => some 0x1b
  | 'f' => some 0x0c
  | 'n' => some 0x0a
  | 'r' => some 0x0d
  | 't' => some 0x09
  | 'v' => some 0x0b
  | _ => none

/-- Reads one escape whose backslash has been read: its number and the text after it. -/
def readEscape : List Char → Option (Nat × List Char)
  | [] => none
  | 'u' :: rest =>
    if (rest.take 4).length = 4 then
      (Text.hexNumber? (rest.take 4)).map fun n => (n, rest.drop 4)
    else none
  | 'U' :: rest =>
    if (rest.take 8).length = 8 then
      (Text.hexNumber? (rest.take 8)).bind fun n =>
        if n < 0x110000 then some (n, rest.drop 8) else none
    else none
  | 'x' :: rest =>
    let digits := (rest.take 4).takeWhile fun c => (Text.hexValue? c).isSome
    if digits.isEmpty then none
    else (Text.hexNumber? digits).map fun n => (n, rest.drop digits.length)
  | letter :: rest => (simpleEscape? letter).map fun n => (n, rest)

/-- Reads a literal that ends with the given quote: the numbers of its characters and escapes,
and the text after the quote.  `fuel` bounds the number of characters. -/
def readQuoted (quote : Char) : Nat → List Char → Option (List Nat × List Char)
  | 0, _ => none
  | _ + 1, [] => none
  | fuel + 1, c :: rest =>
    if c = quote then some ([], rest)
    else if c = '\\' then
      match readEscape rest with
      | none => none
      | some (n, rest) => (readQuoted quote fuel rest).map fun (ns, rest) => (n :: ns, rest)
    else if isLineTerminator c then none
    else (readQuoted quote fuel rest).map fun (ns, rest) => (c.toNat :: ns, rest)

def readRegular (cs : List Char) : Option (List Nat × List Char) :=
  readQuoted '"' (cs.length + 1) cs

/-! ## Verbatim literals -/

/-- One character of a verbatim literal. -/
def verbatimChar (c : Char) : List Char :=
  if c = '"' then ['"', '"'] else [c]

def verbatimLiteral (cs : List Char) : List Char :=
  '@' :: '"' :: cs.flatMap verbatimChar ++ ['"']

def readVerbatim : List Char → Option (List Char × List Char)
  | [] => none
  | '"' :: '"' :: rest => (readVerbatim rest).map fun (cs, rest) => ('"' :: cs, rest)
  | '"' :: rest => some ([], rest)
  | c :: rest => (readVerbatim rest).map fun (cs, rest) => (c :: cs, rest)

end CallSiteIds.Source
