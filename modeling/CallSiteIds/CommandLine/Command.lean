import CallSiteIds.CommandLine.Operands
import CallSiteIds.Decimal.Integer
import CallSiteIds.Journal
import CallSiteIds.Literal.Format

/-!
# Commands

The four commands and how their words are read.  Options before the name of the command are for
all commands; those after it belong to the command.
-/

set_option autoImplicit false

namespace CallSiteIds.CommandLine

/-- What a command line asks for.  Paths are as they were written. -/
inductive Command where
  | generate (root : String) (descriptors outputDirectory : Option String)
  | validate (root : String) (artifacts : Option String)
  | verify (root : String) (descriptors artifacts : Option String)
  | literal (file : String) (line column ordinal : Int) (format : String) (lead : Option String)
deriving DecidableEq, Repr

/-- A command line: the mildest severity of log lines to show, and the command. -/
structure Invocation where
  severity : Severity
  command : Command
deriving DecidableEq, Repr

/-! ## Rules -/

/-- Accepts any text. -/
def anyText (_ : String) : Bool := true

def isInteger (text : String) : Bool :=
  (Decimal.readInteger? text.toList).isSome

def integerOf (text : String) : Int :=
  (Decimal.readInteger? text.toList).getD 0

def severityNamed? (name : String) : Option Severity :=
  Severity.all.find? fun s => s.name == name

/-- The option for the severity of log lines. -/
def severityOption : OptionRule :=
  ⟨"--log-level", fun name => (severityNamed? name).isSome⟩

/-- The option for the descriptor file. -/
def descriptorsOption : OptionRule := ⟨"--descriptors", anyText⟩

/-- The option for the output directory. -/
def outputOption : OptionRule := ⟨"--out-dir", anyText⟩

/-- The option for the directory of an earlier pass. -/
def artifactsOption : OptionRule := ⟨"--artifacts-dir", anyText⟩

/-- The option for the position of the parameter. -/
def ordinalOption : OptionRule := ⟨"--ordinal", isInteger⟩

/-- The option for the format of the literal. -/
def formatOption : OptionRule := ⟨"--format", anyText⟩

/-- The option for the text in front of the literal. -/
def leadOption : OptionRule := ⟨"--prefix", anyText⟩

/-- The operand for the project. -/
def rootOperand : OperandRule := ⟨false, anyText⟩

/-- The rules of a command by its name. -/
def rulesOf? : String → Option Rules
  | "generate" => some ⟨[descriptorsOption, outputOption], [rootOperand]⟩
  | "validate" => some ⟨[artifactsOption], [rootOperand]⟩
  | "verify" => some ⟨[descriptorsOption, artifactsOption], [rootOperand]⟩
  | "literal" =>
    some ⟨[ordinalOption, formatOption, leadOption],
      [⟨true, anyText⟩, ⟨true, isInteger⟩, ⟨true, isInteger⟩]⟩
  | _ => none

/-! ## Reading -/

/-- The command of a name with what its words give. -/
def commandOf? (name : String) (g : Given) : Option Command :=
  let root := (g.operand? 0).getD "."
  match name with
  | "generate" =>
    some (.generate root (g.value? descriptorsOption.name) (g.value? outputOption.name))
  | "validate" => some (.validate root (g.value? artifactsOption.name))
  | "verify" =>
    some (.verify root (g.value? descriptorsOption.name) (g.value? artifactsOption.name))
  | "literal" =>
    some (.literal ((g.operand? 0).getD "") (integerOf ((g.operand? 1).getD ""))
      (integerOf ((g.operand? 2).getD "")) (integerOf ((g.value? ordinalOption.name).getD "0"))
      ((g.value? formatOption.name).getD Literal.Format.guid.displayName)
      (g.value? leadOption.name))
  | _ => none

/-- Reads the name of a command and its words. -/
def readCommand (name : String) (texts : List String) : Except Stop Command :=
  match rulesOf? name with
  | none => .error .usage
  | some rules =>
    match Given.ofWords rules texts with
    | .error e => .error e
    | .ok g =>
      if g.leftOver then .error .usage
      else
        match commandOf? name g with
        | some c => .ok c
        | none => .error .usage

/-- Uses the classified words before the name of the command.  The words after it are read as
the command rules, so each word comes with its text.  `leftOver` tells whether a word was not
used. -/
def readWords (severity : Severity) (leftOver : Bool) :
    List (Word × String) → Except Stop Invocation
  | [] => .error .usage
  | (.operand name, _) :: rest =>
    match readCommand name (rest.map Prod.snd) with
    | .error e => .error e
    | .ok c => if leftOver then .error .usage else .ok ⟨severity, c⟩
  | (.divider, _) :: _ => .error .usage
  | (.option _ (some value), _) :: rest =>
    match severityNamed? value with
    | some s => readWords s leftOver rest
    | none => .error .usage
  | (.option _ none, _) :: (.operand value, _) :: rest =>
    match severityNamed? value with
    | some s => readWords s leftOver rest
    | none => .error .usage
  | (.option _ none, _) :: _ => .error .usage
  | (.help wellFormed, _) :: _ => .error (if wellFormed then .help else .usage)
  | (.unknown, _) :: rest => readWords severity true rest

def read (texts : List String) : Except Stop Invocation :=
  match Word.classify [severityOption] texts with
  | .error e => .error e
  | .ok words => readWords .warning false (words.zip texts)

end CallSiteIds.CommandLine
