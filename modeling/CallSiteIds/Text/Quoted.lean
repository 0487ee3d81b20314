import CallSiteIds.Text.Hex
import CallSiteIds.Text.Printable

/-!
# Quoted text in diagnostics

A diagnostic quotes a text in single quotes, or in double quotes when the text has a single
quote and no double one.  The quote in use and the backslash are escaped, as is every
character without a visible form, so a quoted text is one line.
-/

set_option autoImplicit false

namespace CallSiteIds.Text

/-- The quote that surrounds a text in a diagnostic. -/
def quoteFor (cs : List Char) : Char :=
  if cs.contains '\'' && !cs.contains '"' then '"' else '\''

/-- One character of a quoted text. -/
def quotedChar (quote c : Char) : List Char :=
  if c = quote ∨ c = '\\' then ['\\', c]
  else if c = '\n' then ['\\', 'n']
  else if c = '\r' then ['\\', 'r']
  else if c = '\t' then ['\\', 't']
  else if isPrintable c then [c]
  else if c.toNat < 0x100 then '\\' :: 'x' :: hexDigits 2 c.toNat
  else if c.toNat < 0x10000 then '\\' :: 'u' :: hexDigits 4 c.toNat
  else '\\' :: 'U' :: hexDigits 8 c.toNat

/-- A text as a diagnostic shows it. -/
def quoted (s : String) : String :=
  let cs := s.toList
  let quote := quoteFor cs
  String.ofList (quote :: cs.flatMap (quotedChar quote) ++ [quote])

end CallSiteIds.Text
