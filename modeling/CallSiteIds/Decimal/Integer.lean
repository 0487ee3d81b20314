import CallSiteIds.Text.Blank
import CallSiteIds.Text.DecimalDigit

/-!
# Integers in decimal

Integers are written plainly: a minus sign where needed and digits without leading zeros.
They are read more generously: white space around the number, a sign of either kind, digits of
any script, leading zeros, and single underscores between digits are all accepted, up to a fixed
number of digits.  The four information separators are no white space here.
-/

set_option autoImplicit false

namespace CallSiteIds.Decimal

/-- The decimal digits of a natural number. -/
def naturalText (n : Nat) : List Char :=
  Nat.toDigits 10 n

def integerText : Int → List Char
  | .ofNat n => naturalText n
  | .negSucc n => '-' :: naturalText (n + 1)

def integerString (i : Int) : String :=
  String.ofList (integerText i)

/-- The greatest number of digits that the reader accepts. -/
def digitLimit : Nat := 4300

/-- The number with the given digits, the most significant first. -/
def ofDigits (ds : List Nat) : Nat :=
  ds.foldl (fun n d => 10 * n + d) 0

/-- The values of a non-empty run of digits with single underscores between them. -/
def digitRun? : List Char → Option (List Nat)
  | [] => none
  | [c] => (Text.digitValue? c).map ([·])
  | c :: '_' :: rest => do return (← Text.digitValue? c) :: (← digitRun? rest)
  | c :: d :: rest => do return (← Text.digitValue? c) :: (← digitRun? (d :: rest))

/-- The natural number written by a run of digits within the limit. -/
def readNatural? (cs : List Char) : Option Nat := do
  let ds ← digitRun? cs
  if ds.length ≤ digitLimit then some (ofDigits ds) else none

/-- The integer written by a text, with the generosity described above. -/
def readInteger? (cs : List Char) : Option Int :=
  match Text.trimBoth Text.isWhiteSpace cs with
  | '-' :: rest => (readNatural? rest).map fun n => -(n : Int)
  | '+' :: rest => (readNatural? rest).map fun n => (n : Int)
  | rest => (readNatural? rest).map fun n => (n : Int)

end CallSiteIds.Decimal
