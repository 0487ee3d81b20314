import CallSiteIds.CommandLine.Word

/-!
# Options and operands of a command

A command has rules for its options and its operands.  Its words are used from left to right,
so that the first word that asks for help or does not fit decides; only words that are left
over, and operands that are missing, are noticed at the end.  Of an option that is repeated the
last value counts.
-/

set_option autoImplicit false

namespace CallSiteIds.CommandLine

/-- An operand: whether it must be given, and the texts that it accepts. -/
structure OperandRule where
  required : Bool
  accepts : String → Bool

/-- The rules of a command. -/
structure Rules where
  options : List OptionRule
  operands : List OperandRule

/-- What the words of a command give. -/
structure Given where
  /-- The values of options, in order. -/
  options : List (String × String)
  operands : List String
  /-- Some word was not used. -/
  leftOver : Bool
deriving DecidableEq, Repr

namespace Given

/-- What no words give. -/
def nothing : Given := ⟨[], [], false⟩

def addOption (g : Given) (name value : String) : Given :=
  { g with options := g.options ++ [(name, value)] }

def addOperand (g : Given) (text : String) : Given :=
  { g with operands := g.operands ++ [text] }

/-- Notes that a word was not used. -/
def addLeftOver (g : Given) : Given :=
  { g with leftOver := true }

/-- The value of an option, if it was given. -/
def value? (g : Given) (name : String) : Option String :=
  (g.options.reverse.find? fun p => p.1 == name).map Prod.snd

/-- The operand at an index, if it was given. -/
def operand? (g : Given) (i : Nat) : Option String :=
  g.operands[i]?

/-- Uses words.  `taken` tells whether the word just before was used as an operand: a divider
after it belongs to it. -/
def useWords : List OperandRule → Bool → Given → List Word → Except Stop Given
  | rules, _, g, [] => if rules.any (·.required) then .error .usage else .ok g
  | rules, _, g, .operand text :: rest =>
    match rules with
    | [] => useWords [] false g.addLeftOver rest
    | r :: rules =>
      if r.accepts text then useWords rules true (g.addOperand text) rest else .error .usage
  | rules, taken, g, .divider :: rest =>
    let used :=
      taken ||
        match rules with
        | [] => false
        | r :: _ => !r.required || !rest.isEmpty
    useWords rules false (if used then g else g.addLeftOver) rest
  | rules, _, g, .option r (some value) :: rest =>
    if r.accepts value then useWords rules false (g.addOption r.name value) rest
    else .error .usage
  | rules, _, g, .option r none :: .operand value :: rest =>
    if r.accepts value then useWords rules false (g.addOption r.name value) rest
    else .error .usage
  | _, _, _, .option _ none :: _ => .error .usage
  | _, _, _, .help wellFormed :: _ => .error (if wellFormed then .help else .usage)
  | rules, _, g, .unknown :: rest => useWords rules false g.addLeftOver rest

/-- What the words of a command give under its rules. -/
def ofWords (rules : Rules) (texts : List String) : Except Stop Given := do
  let words ← Word.classify rules.options texts
  useWords rules.operands false nothing words

end Given

end CallSiteIds.CommandLine
