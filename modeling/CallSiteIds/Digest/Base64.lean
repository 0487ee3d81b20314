/-!
# Base64

Three bytes are written as four characters of six bits each.  The last group is padded with
equals signs.
-/

set_option autoImplicit false

namespace CallSiteIds.Digest

/-- The character for six bits. -/
def base64Digit (n : Nat) : Char :=
  if n < 26 then Char.ofNat (65 + n)
  else if n < 52 then Char.ofNat (71 + n)
  else if n < 62 then Char.ofNat (n - 4)
  else if n = 62 then '+'
  else '/'

/-- The Base64 text of a list of bytes. -/
def base64 : List UInt8 → List Char
  | a :: b :: c :: rest =>
    let n := 65536 * a.toNat + 256 * b.toNat + c.toNat
    base64Digit (n / 262144) :: base64Digit (n / 4096 % 64) :: base64Digit (n / 64 % 64) ::
      base64Digit (n % 64) :: base64 rest
  | [a, b] =>
    let n := 1024 * a.toNat + 4 * b.toNat
    [base64Digit (n / 4096), base64Digit (n / 64 % 64), base64Digit (n % 64), '=']
  | [a] => [base64Digit (a.toNat / 4), base64Digit (16 * a.toNat % 64), '=', '=']
  | [] => []

end CallSiteIds.Digest
