import CallSiteIds.Text.DecimalDigit

/-!
# Words of a command line

A command line is a list of words.  Before any of them is used, each is classified: it is an
operand, an option with or without a value of its own, a request for help, or the divider after
which every word is an operand.  Options may be shortened as long as one option only fits.
-/

set_option autoImplicit false

namespace CallSiteIds.CommandLine

/-- Why a command line is not carried out. -/
inductive Stop where
  /-- Help is asked for. -/
  | help
  /-- The words do not fit the command. -/
  | usage
deriving DecidableEq, Repr

/-- An option: its name and the values that it accepts. -/
structure OptionRule where
  name : String
  accepts : String → Bool

/-- A word after classification. -/
inductive Word where
  | divider
  | operand (text : String)
  /-- An option, perhaps with a value joined by an equals sign. -/
  | option (rule : OptionRule) (value : Option String)
  /-- A request for help, which is well formed or not. -/
  | help (wellFormed : Bool)
  | unknown

namespace Word

/-- The long and the short name of the option that asks for help. -/
def helpNames : List String := ["-h", "--help"]

/-- Tells whether a text is a minus sign and a number; one line feed may follow. -/
def isNegativeNumber (cs : List Char) : Bool :=
  let isDigit (c : Char) : Bool := (Text.digitValue? c).isSome
  match cs with
  | '-' :: rest =>
    let rest := if rest.getLast? = some '\n' then rest.dropLast else rest
    let after := rest.dropWhile isDigit
    match after with
    | [] => !rest.isEmpty
    | '.' :: places => !places.isEmpty && places.all isDigit
    | _ => false
  | _ => false

/-- Splits a word at its first equals sign. -/
def splitValue (cs : List Char) : List Char × Option (List Char) :=
  match cs.dropWhile (· != '=') with
  | [] => (cs, none)
  | _ :: value => (cs.takeWhile (· != '='), some value)

/-- Tells whether a request for help is well formed, from what follows its short name.  Further
short names may be joined; the first that asks for nothing known ends the word. -/
def isHelpTail (joined : Bool) : List Char → Bool
  | [] => false
  | c :: rest =>
    if joined || c == '-' then false
    else if c == 'h' then
      match rest with
      | [] => true
      | '=' :: rest => isHelpTail true rest
      | c :: rest => isHelpTail false (c :: rest)
    else true

/-- A word that names no option in full. -/
def ofShortened (rules : List OptionRule) (cs : List Char) : Except Stop Word :=
  let other : Word :=
    if isNegativeNumber cs || cs.contains ' ' then .operand (String.ofList cs) else .unknown
  match cs with
  | '-' :: '-' :: _ =>
    let (start, value) := splitValue cs
    let fits (name : String) : Bool := start.isPrefixOf name.toList
    let helps := helpNames.filter fits
    match helps, rules.filter fun r => fits r.name with
    | [], [] => .ok other
    | [_], [] => .ok (.help value.isNone)
    | [], [r] => .ok (.option r (value.map String.ofList))
    | _, _ => .error .usage
  | '-' :: 'h' :: tail => .ok (.help (isHelpTail false tail))
  | _ => .ok other

/-- Classifies a word before any divider. -/
def ofText (rules : List OptionRule) (text : String) : Except Stop Word :=
  match text.toList with
  | '-' :: c :: rest =>
    let cs := '-' :: c :: rest
    let (start, value) := splitValue cs
    let name := String.ofList start
    if helpNames.contains name then .ok (.help value.isNone)
    else
      match rules.find? fun r => r.name == name with
      | some r => .ok (.option r (value.map String.ofList))
      | none => ofShortened rules cs
  | _ => .ok (.operand text)

def classify (rules : List OptionRule) : List String → Except Stop (List Word)
  | [] => .ok []
  | text :: rest =>
    if text = "--" then .ok (.divider :: rest.map .operand)
    else
      match ofText rules text with
      | .error e => .error e
      | .ok word =>
        match classify rules rest with
        | .error e => .error e
        | .ok words => .ok (word :: words)

end Word

end CallSiteIds.CommandLine
