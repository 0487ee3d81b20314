import CallSiteIds.Source.TextLiteral
import CallSiteIds.Text.Blank
import CallSiteIds.Text.WordCharacter

/-!
# Lexemes of source text

Source text is cut into words, numbers, text literals, symbols and directives.  A lexeme keeps
the blanks and comments in front of it, so that a run of lexemes can be shown as it was
written, and the number of its line.  The closing angle bracket is always a symbol of its own,
since it may close a list of type arguments.
-/

set_option autoImplicit false

namespace CallSiteIds.Source

/-- The kinds of a lexeme. -/
inductive LexemeKind where
  | word
  | number
  | text
  | symbol
  /-- A line for the compiler, such as `#nullable enable`. -/
  | directive
deriving DecidableEq, Repr

/-- A lexeme: its kind, its text, the blanks and comments in front of it, and its line. -/
structure Lexeme where
  kind : LexemeKind
  text : List Char
  lead : List Char
  line : Nat
deriving DecidableEq, Repr

namespace Lexeme

/-! ## Blanks and comments -/

/-- A blank between lexemes. -/
def isSpace (c : Char) : Bool :=
  Text.isWhiteSpace c || c.toNat == 0xfeff

/-- The text after a comment that ends with a star and a slash. -/
def skipBlockComment : List Char → Option (List Char)
  | [] => none
  | '*' :: '/' :: rest => some rest
  | _ :: rest => skipBlockComment rest

/-- The text from the end of the line on. -/
def skipLine : List Char → List Char
  | [] => []
  | '\n' :: rest => '\n' :: rest
  | '\r' :: rest => '\r' :: rest
  | _ :: rest => skipLine rest

/-- The beginning of a text that a rest completes. -/
def before (cs rest : List Char) : List Char :=
  cs.take (cs.length - rest.length)

/-- The text after blanks and comments; none when a comment is not closed.  `fuel` bounds the
number of blanks and comments. -/
def skipLead : Nat → List Char → Option (List Char)
  | 0, _ => none
  | fuel + 1, cs =>
    match cs with
    | '/' :: '/' :: rest => skipLead fuel (skipLine rest)
    | '/' :: '*' :: rest =>
      match skipBlockComment rest with
      | none => none
      | some rest => skipLead fuel rest
    | c :: rest => if isSpace c then skipLead fuel rest else some (c :: rest)
    | [] => some []

/-! ## Text literals -/

/-- The text after a run of quotes, and the length of the run. -/
def quoteRun : List Char → Nat × List Char
  | '"' :: rest => let (n, rest) := quoteRun rest; (n + 1, rest)
  | cs => (0, cs)

/-- The text after a raw literal whose opening run of quotes has been read: it ends with the
first run that is as long. -/
def skipRaw (count : Nat) : Nat → List Char → Option (List Char)
  | 0, _ => none
  | _ + 1, [] => none
  | fuel + 1, c :: rest =>
    if c = '"' then
      let (n, after) := quoteRun (c :: rest)
      if count ≤ n then some after else skipRaw count fuel after
    else skipRaw count fuel rest

/-- The text after an interpolated literal whose opening quote has been read.  `depth` counts
the open braces of a hole; outside a hole it is zero. -/
def skipInterpolated (verbatim : Bool) : Nat → Nat → List Char → Option (List Char)
  | 0, _, _ => none
  | fuel + 1, depth, cs =>
    match depth, cs with
    | _, [] => none
    | 0, '\x7b' :: '\x7b' :: rest => skipInterpolated verbatim fuel 0 rest
    | 0, '\x7b' :: rest => skipInterpolated verbatim fuel 1 rest
    | 0, '\x7d' :: '\x7d' :: rest => skipInterpolated verbatim fuel 0 rest
    | 0, '\x7d' :: _ => none
    | 0, '"' :: '"' :: rest =>
      if verbatim then skipInterpolated verbatim fuel 0 rest else some ('"' :: rest)
    | 0, '"' :: rest => some rest
    | 0, '\\' :: c :: rest =>
      if verbatim then skipInterpolated verbatim fuel 0 (c :: rest)
      else skipInterpolated verbatim fuel 0 rest
    | 0, c :: rest =>
      if !verbatim && isLineTerminator c then none else skipInterpolated verbatim fuel 0 rest
    | depth + 1, '\x7b' :: rest => skipInterpolated verbatim fuel (depth + 2) rest
    | depth + 1, '\x7d' :: rest => skipInterpolated verbatim fuel depth rest
    | depth + 1, '"' :: rest =>
      match readRegular rest with
      | none => none
      | some (_, rest) => skipInterpolated verbatim fuel (depth + 1) rest
    | depth + 1, '@' :: '"' :: rest =>
      match readVerbatim rest with
      | none => none
      | some (_, rest) => skipInterpolated verbatim fuel (depth + 1) rest
    | depth + 1, '$' :: '"' :: rest =>
      match skipInterpolated false fuel 0 rest with
      | none => none
      | some rest => skipInterpolated verbatim fuel (depth + 1) rest
    | depth + 1, _ :: rest => skipInterpolated verbatim fuel (depth + 1) rest

/-- The text after the mark of an encoded literal, if there is one. -/
def skipEncoding : List Char → List Char
  | 'u' :: '8' :: rest => rest
  | 'U' :: '8' :: rest => rest
  | cs => cs

/-- The text after a literal that begins with a quote. -/
def skipQuoted (cs : List Char) : Option (List Char) :=
  let (n, rest) := quoteRun cs
  if 3 ≤ n then (skipRaw n (rest.length + 1) rest).map skipEncoding
  else (readRegular (cs.drop 1)).map fun (_, rest) => skipEncoding rest

/-- The text after an interpolated literal that begins with dollar signs. -/
def skipDollar (cs : List Char) : Option (List Char) :=
  match cs.dropWhile (· == '$') with
  | '@' :: '"' :: rest => skipInterpolated true (rest.length + 1) 0 rest
  | rest =>
    let (n, after) := quoteRun rest
    if 3 ≤ n then skipRaw n (after.length + 1) after
    else
      match rest with
      | '"' :: rest => skipInterpolated false (rest.length + 1) 0 rest
      | _ => none

/-- The text after a character literal whose opening quote has been read. -/
def skipCharacter (cs : List Char) : Option (List Char) :=
  match readQuoted '\'' (cs.length + 1) cs with
  | some ([_], rest) => some rest
  | _ => none

/-! ## Words, numbers and symbols -/

/-- A digit of a number, or a separator between digits. -/
def isDigitOrGap (c : Char) : Bool :=
  c.isDigit || c == '_'

/-- The text after an exponent, if there is one. -/
def skipExponent : List Char → List Char
  | mark :: rest =>
    if mark == 'e' || mark == 'E' then
      let digits := match rest with
        | '+' :: r => r
        | '-' :: r => r
        | _ => rest
      match digits with
      | d :: _ => if d.isDigit then digits.dropWhile isDigitOrGap else mark :: rest
      | [] => mark :: rest
    else mark :: rest
  | [] => []

/-- The text after a fraction, if there is one. -/
def skipFraction : List Char → List Char
  | '.' :: d :: rest => if d.isDigit then rest.dropWhile isDigitOrGap else '.' :: d :: rest
  | cs => cs

/-- A letter that may follow a number. -/
def isNumberSuffix (c : Char) : Bool :=
  "uUlLfFdDmM".toList.contains c

/-- The text after a number. -/
def skipNumber (cs : List Char) : List Char :=
  let body := match cs with
    | '0' :: 'x' :: rest => rest.dropWhile fun c => (Text.hexValue? c).isSome || c == '_'
    | '0' :: 'X' :: rest => rest.dropWhile fun c => (Text.hexValue? c).isSome || c == '_'
    | '0' :: 'b' :: rest => rest.dropWhile isDigitOrGap
    | '0' :: 'B' :: rest => rest.dropWhile isDigitOrGap
    | _ => skipExponent (skipFraction (cs.dropWhile isDigitOrGap))
  body.dropWhile isNumberSuffix

/-- The symbols of more than one character, the longest first. -/
def longSymbols : List (List Char) :=
  [ "<<=", "??=", "=>", "==", "!=", "<=", ">=", "&&", "||", "++", "--", "+=", "-=", "*=", "/=",
    "%=", "&=", "|=", "^=", "->", "::", "..", "<<", "??" ].map String.toList

/-- The symbols of one character. -/
def shortSymbols : List Char :=
  "()[]\x7b\x7d<>,;:.?+-*/%&|^!~=".toList

/-- The text after a symbol. -/
def skipSymbol (cs : List Char) : Option (List Char) :=
  match longSymbols.find? fun s => s.isPrefixOf cs with
  | some s => some (cs.drop s.length)
  | none =>
    match cs with
    | c :: rest => if shortSymbols.contains c then some rest else none
    | [] => none

/-- The kind of the lexeme that a text begins with, and the text after it. -/
def skipLexeme (cs : List Char) : Option (LexemeKind × List Char) :=
  match cs with
  | [] => none
  | '"' :: _ => (skipQuoted cs).map fun rest => (.text, rest)
  | '\'' :: rest => (skipCharacter rest).map fun rest => (.text, rest)
  | '$' :: _ => (skipDollar cs).map fun rest => (.text, rest)
  | '@' :: '"' :: rest => (readVerbatim rest).map fun (_, rest) => (.text, skipEncoding rest)
  | '@' :: '$' :: '"' :: rest =>
    (skipInterpolated true (rest.length + 1) 0 rest).map fun rest => (.text, rest)
  | '@' :: c :: rest =>
    if Text.startsWord c then some (.word, rest.dropWhile Text.continuesWord) else none
  | '#' :: rest => some (.directive, skipLine rest)
  | c :: rest =>
    if Text.startsWord c then some (.word, rest.dropWhile Text.continuesWord)
    else if c.isDigit then some (.number, skipNumber cs)
    else
      match c, rest with
      | '.', d :: _ => if d.isDigit then some (.number, skipNumber cs)
        else (skipSymbol cs).map fun rest => (.symbol, rest)
      | _, _ => (skipSymbol cs).map fun rest => (.symbol, rest)

/-- The number of line feeds in a text. -/
def feeds (cs : List Char) : Nat :=
  cs.count '\n'

/-- Cuts a text that begins on the given line into lexemes; none when some part of it is no
lexeme.  `fuel` bounds the number of lexemes. -/
def scan : Nat → Nat → List Char → Option (List Lexeme)
  | 0, _, _ => none
  | fuel + 1, line, cs =>
    match skipLead (cs.length + 1) cs with
    | none => none
    | some [] => some []
    | some start =>
      match skipLexeme start with
      | none => none
      | some (kind, rest) =>
        let lead := before cs start
        let text := before start rest
        let here := line + feeds lead
        (scan fuel (here + feeds text) rest).map (⟨kind, text, lead, here⟩ :: ·)

def ofText? (cs : List Char) : Option (List Lexeme) :=
  if cs.contains '\x00' then none else scan (cs.length + 1) 1 cs

/-! ## Directives -/

def directiveWord (l : Lexeme) : String :=
  let body := (l.text.drop 1).dropWhile fun c => c == ' ' || c == '\t'
  String.ofList (body.takeWhile Char.isAlpha)

/-- The directives that stand alone. -/
def plainDirectives : List String :=
  ["define", "undef", "warning", "error", "line", "nullable", "region", "endregion", "pragma"]

/-- Checks that conditional directives are closed in order, with the given number open. -/
def directivesMatch : Nat → List String → Bool
  | depth, [] => depth == 0
  | depth, word :: rest =>
    if word = "if" then directivesMatch (depth + 1) rest
    else if word = "elif" ∨ word = "else" then depth != 0 && directivesMatch depth rest
    else if word = "endif" then depth != 0 && directivesMatch (depth - 1) rest
    else plainDirectives.contains word && directivesMatch depth rest

/-- The lexemes of a source text without its directives, which must match. -/
def ofSource? (cs : List Char) : Option (List Lexeme) :=
  match ofText? cs with
  | none => none
  | some ls =>
    let directives := ls.filter fun l => l.kind == .directive
    if directivesMatch 0 (directives.map directiveWord) then
      some (ls.filter fun l => l.kind != .directive)
    else none

end Lexeme

end CallSiteIds.Source
