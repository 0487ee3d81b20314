import CallSiteIds.Decimal.Integer
import CallSiteIds.Text.Quoted
import CallSiteIds.Text.Split

/-!
# Location keys

A location key names one call site: the identity of the file, the line and the column, joined
by colons.  The file is embedded as it is and may hold colons of its own; line and column
never do, so a key is read back by splitting it at its last two colons.
-/

set_option autoImplicit false

namespace CallSiteIds.Location

/-- The position of a call: a file, a line and a column. -/
structure Position where
  file : String
  line : Int
  column : Int
deriving DecidableEq, Repr

/-- Why a position has no key, or a text is no key. -/
inductive KeyError where
  | negativePosition (line column : Int)
  | notAKey (text : String)
deriving DecidableEq, Repr

/-- The wording of a key error. -/
def KeyError.message : KeyError → String
  | .negativePosition line column =>
    "Source positions must be non-negative, got line=" ++ Decimal.integerString line ++
      " column=" ++ Decimal.integerString column
  | .notAKey text => "Not a location key: " ++ Text.quoted text

/-- The character between the parts of a key. -/
def separator : Char := ':'

/-- The characters of the key of a position. -/
def keyText (file : List Char) (line column : Int) : List Char :=
  file ++ separator :: (Decimal.integerText line ++ separator :: Decimal.integerText column)

/-- The key of a position, whose line and column must not be negative. -/
def Position.key (p : Position) : Except KeyError String :=
  if p.line < 0 ∨ p.column < 0 then .error (.negativePosition p.line p.column)
  else .ok (String.ofList (keyText p.file.toList p.line p.column))

/-- The three parts of a key. -/
def keyParts? (key : List Char) : Option (List Char × Int × Int) := do
  let (front, column) ← Text.splitLast separator key
  let (file, line) ← Text.splitLast separator front
  return (file, ← Decimal.readInteger? line, ← Decimal.readInteger? column)

/-- Reads a key back. -/
def Position.ofKey (key : String) : Except KeyError Position :=
  match keyParts? key.toList with
  | some (file, line, column) => .ok ⟨String.ofList file, line, column⟩
  | none => .error (.notAKey key)

end CallSiteIds.Location
