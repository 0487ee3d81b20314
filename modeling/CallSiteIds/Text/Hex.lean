/-!
# Hexadecimal digits

Escapes and identifiers are written in lower-case hexadecimal of a fixed width; escapes are
read in either case.  Reading a written digit gives it back (`hexValue?_hexDigit`).
-/

set_option autoImplicit false

namespace CallSiteIds.Text

/-- The lower-case hexadecimal digit of a number below sixteen. -/
def hexDigit (n : Nat) : Char :=
  if n < 10 then Char.ofNat (48 + n) else Char.ofNat (87 + n)

/-- The last `width` hexadecimal digits of a number, the most significant first. -/
def hexDigits : Nat → Nat → List Char
  | 0, _ => []
  | width + 1, n => hexDigits width (n / 16) ++ [hexDigit (n % 16)]

/-- The value of a hexadecimal digit of either case. -/
def hexValue? (c : Char) : Option Nat :=
  if '0' ≤ c ∧ c ≤ '9' then some (c.toNat - 48)
  else if 'a' ≤ c ∧ c ≤ 'f' then some (c.toNat - 87)
  else if 'A' ≤ c ∧ c ≤ 'F' then some (c.toNat - 55)
  else none

/-- The number written by hexadecimal digits, if they all are. -/
def hexNumber? (cs : List Char) : Option Nat :=
  cs.foldl (fun n? c => do return 16 * (← n?) + (← hexValue? c)) (some 0)

@[simp] theorem length_hexDigits (width n : Nat) : (hexDigits width n).length = width := by
  induction width generalizing n with
  | zero => rfl
  | succ width ih => simp [hexDigits, ih]

/-- What holds of the sixteen digits holds of every digit of a written number. -/
theorem forall_mem_hexDigits {P : Char → Prop} (each : ∀ m : Fin 16, P (hexDigit m))
    (width n : Nat) : ∀ c ∈ hexDigits width n, P c := by
  induction width generalizing n with
  | zero => exact List.forall_mem_nil _
  | succ width ih =>
    exact List.forall_mem_append.2 ⟨ih (n / 16),
      List.forall_mem_singleton.2 (each ⟨n % 16, Nat.mod_lt n (by decide)⟩)⟩

theorem hexValue?_hexDigit {n : Nat} (h : n < 16) : hexValue? (hexDigit n) = some n := by
  have small : ∀ m : Fin 16, hexValue? (hexDigit m.val) = some m.val := by decide
  exact small ⟨n, h⟩

theorem hexNumber?_append_singleton (cs : List Char) (c : Char) :
    hexNumber? (cs ++ [c]) = do return 16 * (← hexNumber? cs) + (← hexValue? c) := by
  simp [hexNumber?]

/-- Reading a number written with enough digits gives it back. -/
theorem hexNumber?_hexDigits {width n : Nat} (h : n < Nat.pow 16 width) :
    hexNumber? (hexDigits width n) = some n := by
  induction width generalizing n with
  | zero =>
    obtain rfl : n = 0 := by simpa using h
    rfl
  | succ width ih =>
    have quotient : n / 16 < Nat.pow 16 width := by
      rw [Nat.div_lt_iff_lt_mul (by decide)]
      simpa [Nat.pow_succ] using h
    rw [hexDigits, hexNumber?_append_singleton, ih quotient,
      hexValue?_hexDigit (Nat.mod_lt _ (by decide))]
    simp [Nat.div_add_mod]

end CallSiteIds.Text
