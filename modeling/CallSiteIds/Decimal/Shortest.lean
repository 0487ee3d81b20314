import CallSiteIds.Decimal.Binary64
import CallSiteIds.Decimal.Integer

/-!
# The shortest decimal of a binary number

A binary number is written with the fewest digits that are read back as the same number, and
among those with the digits nearest to it.  For each count of digits the two neighbours of the
number on that decimal grid are tried, a tie between them going to the even one; the reals that round to the number form an interval
whose ends belong to it when the mantissa is even.  Where the point goes and how an exponent
looks are decisions of the format that is written (`Layout`).
-/

set_option autoImplicit false

namespace CallSiteIds.Decimal

/-- A decimal: `digits * 10 ^ power`. -/
structure Scaled where
  digits : Nat
  power : Int
deriving DecidableEq, Repr

/-- How a format writes a number: the range of positions of the decimal point, counted from
the first digit, in which it writes no exponent; how it writes an exponent; and what it
writes for the numbers that have no digits. -/
structure Layout where
  leastPoint : Int
  greatestPoint : Int
  exponentText : Int → List Char
  infinityText : String
  undefinedText : String

namespace Binary64

/-- The two ends of the interval of reals that round to `mantissa * 2 ^ exponent`, in units
of `2 ^ (exponent - 2)`. -/
def interval (mantissa : Nat) (exponent : Int) : Nat × Nat :=
  let below := if mantissa = leastNormal ∧ leastExponent < exponent then 1 else 2
  (4 * mantissa - below, 4 * mantissa + 2)

/-- The point of the grid `10 ^ power` that is inside the interval and nearest to the number,
if one of the number's two neighbours on the grid is inside. -/
def gridPoint? (mantissa : Nat) (exponent : Int) (power : Int) : Option Nat :=
  let shift := exponent - 2
  -- The number is `a / b` and a unit of the interval is `u / b`, both in grid steps.
  let twos := Nat.pow 2 shift.natAbs
  let tens := Nat.pow 10 power.natAbs
  let u := (if 0 ≤ shift then twos else 1) * (if 0 ≤ power then 1 else tens)
  let b := (if 0 ≤ shift then 1 else twos) * (if 0 ≤ power then tens else 1)
  let (low, high) := interval mantissa exponent
  let a := 4 * mantissa * u
  let inside (d : Nat) : Bool :=
    if mantissa % 2 = 0 then low * u ≤ d * b && d * b ≤ high * u
    else low * u < d * b && d * b < high * u
  let d := a / b
  match inside d, inside (d + 1) with
  | true, true =>
    let below := a - d * b
    let above := (d + 1) * b - a
    some (if below < above ∨ (below = above ∧ d % 2 = 0) then d else d + 1)
  | true, false => some d
  | false, true => some (d + 1)
  | false, false => none

/-- The position of the decimal point counted from the first digit of a positive number: the
least `k` such that the number is below `10 ^ k`. -/
def pointPosition (mantissa : Nat) (exponent : Int) : Int :=
  if 0 ≤ exponent then (Nat.toDigits 10 (mantissa * Nat.pow 2 exponent.toNat)).length
  else
    let scale := Nat.pow 2 (-exponent).toNat
    if scale ≤ mantissa then (Nat.toDigits 10 (mantissa / scale)).length
    else 1 - ((Nat.toDigits 10 ((scale - 1) / mantissa)).length : Int)

/-- Moves trailing zeros of the digits into the power, looking at no more than `fuel`. -/
def dropZeros : Nat → Scaled → Scaled
  | 0, s => s
  | fuel + 1, s =>
    if s.digits % 10 = 0 ∧ s.digits ≠ 0 then dropZeros fuel ⟨s.digits / 10, s.power + 1⟩ else s

/-- The shortest decimal that reads back as the positive number `mantissa * 2 ^ exponent`. -/
def shortest (mantissa : Nat) (exponent : Int) : Scaled :=
  let k := pointPosition mantissa exponent
  let candidates := (List.range 17).filterMap fun (n : Nat) =>
    let power := k - (n + 1 : Nat)
    (gridPoint? mantissa exponent power).map fun d => (⟨d, power⟩ : Scaled)
  dropZeros 20 (candidates.head?.getD ⟨0, 0⟩)

/-- A decimal in the layout of a format. -/
def layOut (layout : Layout) (s : Scaled) : List Char :=
  let ds := naturalText s.digits
  let count : Int := ds.length
  let point := count + s.power
  if layout.leastPoint ≤ point ∧ point ≤ layout.greatestPoint then
    if point ≤ 0 then '0' :: '.' :: List.replicate (-point).toNat '0' ++ ds
    else if count ≤ point then ds ++ List.replicate (point - count).toNat '0' ++ ['.', '0']
    else ds.take point.toNat ++ '.' :: ds.drop point.toNat
  else
    let rest := ds.drop 1
    ds.take 1 ++ (if rest.isEmpty then [] else '.' :: rest) ++ layout.exponentText (point - 1)

/-- A binary number in the layout of a format. -/
def text (layout : Layout) : Binary64 → List Char
  | .undefined => layout.undefinedText.toList
  | .infinite negative => (if negative then ['-'] else []) ++ layout.infinityText.toList
  | .finite negative m e =>
    (if negative then ['-'] else []) ++
      (if m = 0 then ['0', '.', '0'] else layOut layout (shortest m e))

end Binary64

end CallSiteIds.Decimal
