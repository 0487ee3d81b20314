/-!
# Binary floating-point numbers

The numbers of the 64-bit binary format, as exact data: a finite number is a mantissa times a
power of two with a sign.  `ofDecimal` rounds a decimal to the nearest of them, a tie going to
the even mantissa, in exact arithmetic on natural numbers.
-/

set_option autoImplicit false

namespace CallSiteIds.Decimal

/-- A number of the 64-bit binary format.  A finite one stands for
`mantissa * 2 ^ exponent`, with `mantissa < 2 ^ 53` and `-1074 ≤ exponent`. -/
inductive Binary64 where
  | finite (negative : Bool) (mantissa : Nat) (exponent : Int)
  | infinite (negative : Bool)
  | undefined
deriving DecidableEq, Repr

namespace Binary64

/-- The exponent of the smallest positive number. -/
def leastExponent : Int := -1074

/-- The exponent of the greatest finite numbers. -/
def greatestExponent : Int := 971

/-- The least mantissa of a number that is not small: `2 ^ 52`. -/
def leastNormal : Nat := 0x10000000000000

/-- The quotient of two natural numbers rounded to the nearest, a tie going to the even one. -/
def roundQuotient (numerator denominator : Nat) : Nat :=
  let q := numerator / denominator
  let r := numerator % denominator
  if 2 * r < denominator then q
  else if denominator < 2 * r then q + 1
  else if q % 2 = 0 then q else q + 1

/-- The number nearest to `numerator / denominator`. -/
def ofQuotient (negative : Bool) (numerator denominator : Nat) : Binary64 :=
  if numerator = 0 then .finite negative 0 leastExponent
  else
    let scaled (e : Int) : Nat × Nat :=
      if 0 ≤ e then (numerator, denominator * Nat.pow 2 e.toNat)
      else (numerator * Nat.pow 2 (-e).toNat, denominator)
    let guess : Int := (Nat.log2 numerator : Int) - (Nat.log2 denominator : Int) - 52
    let low := scaled guess
    let normal := if low.1 / low.2 < leastNormal then guess - 1 else guess
    let e := max normal leastExponent
    let parts := scaled e
    let m := roundQuotient parts.1 parts.2
    let (m, e) := if m = 2 * leastNormal then (leastNormal, e + 1) else (m, e)
    if greatestExponent < e then .infinite negative else .finite negative m e

/-- The number nearest to `digits * 10 ^ power`.  A decimal far outside the range is settled
by its magnitude alone, so that no huge power is formed. -/
def ofDecimal (negative : Bool) (digits : Nat) (power : Int) : Binary64 :=
  let magnitude : Int := power + (Nat.toDigits 10 digits).length
  if digits = 0 ∨ magnitude < -330 then .finite negative 0 leastExponent
  else if 400 < magnitude then .infinite negative
  else if 0 ≤ power then ofQuotient negative (digits * Nat.pow 10 power.toNat) 1
  else ofQuotient negative digits (Nat.pow 10 (-power).toNat)

/-- The integer that a number is, if it is one. -/
def toInt? : Binary64 → Option Int
  | .finite negative m e =>
    let magnitude? : Option Nat :=
      if 0 ≤ e then some (m * Nat.pow 2 e.toNat)
      else if m % Nat.pow 2 (-e).toNat = 0 then some (m / Nat.pow 2 (-e).toNat) else none
    magnitude?.map fun n => if negative then -(n : Int) else (n : Int)
  | _ => none

/-- Tells whether a number is finite. -/
def isFinite : Binary64 → Bool
  | .finite .. => true
  | _ => false

end Binary64

end CallSiteIds.Decimal
