/-!
# Code units of escapes

An escape names either a character or one half of a pair that stands for a character beyond
the first plane.  A text with escapes is first read as a list of numbers, and the pairs are
joined afterwards.
-/

set_option autoImplicit false

namespace CallSiteIds.Text

/-- A code unit that opens a pair. -/
def opensPair (unit : Nat) : Bool := 0xd800 ≤ unit && unit < 0xdc00

/-- A code unit that closes a pair. -/
def closesPair (unit : Nat) : Bool := 0xdc00 ≤ unit && unit < 0xe000

/-- The text that code units stand for; a half of a pair must not stand alone. -/
def ofUnits? : List Nat → Option (List Char)
  | [] => some []
  | [unit] => if opensPair unit || closesPair unit then none else some [Char.ofNat unit]
  | unit :: next :: rest =>
    if opensPair unit then
      if closesPair next then
        (ofUnits? rest).map
          (Char.ofNat (0x10000 + 1024 * (unit - 0xd800) + (next - 0xdc00)) :: ·)
      else none
    else if closesPair unit then none
    else (ofUnits? (next :: rest)).map (Char.ofNat unit :: ·)

/-- No character is a half of a pair. -/
theorem not_half_toNat (c : Char) : opensPair c.toNat = false ∧ closesPair c.toNat = false := by
  have valid : c.toNat < 0xd800 ∨ (0xdfff < c.toNat ∧ c.toNat < 0x110000) := c.valid
  simp only [opensPair, closesPair, Bool.and_eq_false_iff, decide_eq_false_iff_not]
  omega

/-- The numbers of characters stand for those characters. -/
theorem ofUnits?_map_toNat (cs : List Char) : ofUnits? (cs.map Char.toNat) = some cs := by
  induction cs with
  | nil => rfl
  | cons c rest ih =>
    obtain ⟨ho, hc⟩ := not_half_toNat c
    cases rest with
    | nil => simp [ofUnits?, ho, hc]
    | cons d rest =>
      simp only [List.map_cons] at ih ⊢
      simp [ofUnits?, ho, hc, ih]

end CallSiteIds.Text
