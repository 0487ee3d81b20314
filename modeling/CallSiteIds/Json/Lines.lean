import CallSiteIds.Json.Reader
import CallSiteIds.Text.Blank
import CallSiteIds.Text.Lines

/-!
# Files with one document per line

A file may hold one document per line.  Lines end with a line feed, blank lines are skipped,
and one line that is no document makes the whole file unreadable.
-/

set_option autoImplicit false

namespace CallSiteIds.Json

/-- The documents on the given lines. -/
def documentsOnLines? : List (List UInt8) → Option (List Value)
  | [] => some []
  | raw :: rest =>
    let line := Text.trimBoth Text.isBlankByte raw
    if line.isEmpty then documentsOnLines? rest
    else
      match parseBytes? line with
      | none => none
      | some v => (documentsOnLines? rest).map (v :: ·)

/-- Tells whether a document is an object. -/
def isObject : Value → Bool
  | .object _ => true
  | _ => false

/-- The objects of a file; documents of other kinds are skipped. -/
def objectLines? (bytes : List UInt8) : Option (List Value) :=
  (documentsOnLines? (Text.splitFeeds bytes)).map (·.filter isObject)

end CallSiteIds.Json
