/-!
# Log lines

What happens on the way is reported in lines of a severity and a source.  A reader sees the
lines from a chosen severity on.
-/

set_option autoImplicit false

namespace CallSiteIds

/-- The severities of a log line, the mildest first. -/
inductive Severity where
  | debug
  | info
  | warning
  | error
deriving DecidableEq, Repr

namespace Severity

/-- The severities in order. -/
def all : List Severity :=
  [debug, info, warning, error]

/-- The place of a severity in the order. -/
def rank : Severity → Nat
  | debug => 0
  | info => 1
  | warning => 2
  | error => 3

def name : Severity → String
  | debug => "DEBUG"
  | info => "INFO"
  | warning => "WARNING"
  | error => "ERROR"

end Severity

/-- A log line. -/
structure LogLine where
  severity : Severity
  source : String
  text : String
deriving DecidableEq, Repr

def LogLine.shown (l : LogLine) : String :=
  l.severity.name ++ " " ++ l.source ++ ": " ++ l.text

/-- The lines that are shown from a severity on. -/
def shownFrom (least : Severity) (lines : List LogLine) : List String :=
  (lines.filter fun l => least.rank ≤ l.severity.rank).map LogLine.shown

end CallSiteIds
