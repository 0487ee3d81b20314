import CallSiteIds.Digest.Base64
import CallSiteIds.Digest.Sha256
import CallSiteIds.Literal.Format
import CallSiteIds.Text.Hex
import CallSiteIds.Text.Utf8

/-!
# Deriving literals

A literal is a function of the key of its call site, the position of its parameter and its
format.  The three are joined into one text whose digest is rendered in the format, so the
same request always gives the same literal and formats never share a digest.
-/

set_option autoImplicit false

namespace CallSiteIds.Literal

/-- The least timestamp. -/
def timestampBase : Nat := 1700000000000

/-- The number of timestamps. -/
def timestampWindow : Nat := 100000000000

def shortHashLength : Nat := 8

/-- The characters that are hashed for a request. -/
def requestText (key : List Char) (ordinal : Int) (format : Format) : List Char :=
  key ++ ':' :: (Decimal.integerText ordinal ++ ':' :: format.salt.toList)

/-- The text that is hashed for a request. -/
def request (key : String) (ordinal : Int) (format : Format) : String :=
  String.ofList (requestText key.toList ordinal format)

/-- The digest of a request. -/
def digest (key : String) (ordinal : Int) (format : Format) : List UInt8 :=
  Digest.sha256 (Text.utf8 (request key ordinal format))

/-! ## Renderings -/

/-- The order in which a Guid shows the bytes of a digest: its first three fields of four, two
and two bytes are little-endian, the other eight bytes follow as they are. -/
def guidOrder : List Nat :=
  [3, 2, 1, 0, 5, 4, 7, 6, 8, 9, 10, 11, 12, 13, 14, 15]

/-- The Guid of a digest in hexadecimal. -/
def guidText (bytes : List UInt8) : List Char :=
  guidOrder.flatMap fun i => Text.hexDigits 2 (bytes.getD i 0).toNat

/-- A Base64 character in the alphabet of letters and digits; padding has none. -/
def alphanumeric? (c : Char) : Option Char :=
  if c = '+' then some 'a'
  else if c = '/' then some 'b'
  else if c = '=' then none
  else some c

/-- The short hash of a digest. -/
def shortHashText (bytes : List UInt8) : List Char :=
  ((Digest.base64 bytes).filterMap alphanumeric?).take shortHashLength

/-- The short hash of a digest, with a letter in front if it does not start with one. -/
def htmlIdText (bytes : List UInt8) : List Char :=
  match shortHashText bytes with
  | [] => ['x']
  | c :: rest => if c.isAlpha then c :: rest else 'x' :: c :: rest

/-- The little-endian number of a list of bytes. -/
def littleEndian : List UInt8 → Nat
  | [] => 0
  | b :: rest => b.toNat + 256 * littleEndian rest

/-- The signed reading of a number below `2 ^ 64`. -/
def signedWord (n : Nat) : Int :=
  if n < 0x8000000000000000 then n else (n : Int) - 0x10000000000000000

/-- The timestamp of a digest. -/
def timestampText (bytes : List UInt8) : List Char :=
  let word := signedWord (littleEndian (bytes.take 8))
  Decimal.naturalText (timestampBase + word.natAbs % timestampWindow)

/-- A digest in a format. -/
def render : Format → List UInt8 → List Char
  | .guid => guidText
  | .htmlId => htmlIdText
  | .timestamp => timestampText
  | .shortHash => shortHashText

/-- The literal of a request, with a lead in front if there is one. -/
def literal (key : String) (ordinal : Int) (format : Format) (lead : Option String) : String :=
  lead.getD "" ++ String.ofList (render format (digest key ordinal format))

/-- A Guid has thirty-two digits. -/
theorem length_guidText (bytes : List UInt8) : (guidText bytes).length = 32 := by
  simp [guidText, guidOrder]

end CallSiteIds.Literal
