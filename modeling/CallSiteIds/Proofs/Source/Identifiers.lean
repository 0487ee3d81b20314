import CallSiteIds.Source.Identifier

/-!
# Plain identifiers

An identifier begins with a letter of the ASCII range or an underscore and goes on with letters,
digits and underscores (`isIdentifier_iff`).  Every text is reduced to an identifier, and a text
is left as it is exactly when it is one (`toIdentifier_eq_self_iff`).
-/

set_option autoImplicit false

namespace CallSiteIds.Source

/-! ## The texts that are identifiers -/

/-- A letter of the ASCII range, or an underscore. -/
def BeginsIdentifier (c : Char) : Prop :=
  'A' ≤ c ∧ c ≤ 'Z' ∨ 'a' ≤ c ∧ c ≤ 'z' ∨ c = '_'

/-- A character that may follow the first one: also a digit of the ASCII range. -/
def ContinuesIdentifier (c : Char) : Prop :=
  BeginsIdentifier c ∨ '0' ≤ c ∧ c ≤ '9'

inductive IsIdentifierText : List Char → Prop where
  | mk {c : Char} {cs : List Char} (begins : BeginsIdentifier c)
      (continues : ∀ d ∈ cs, ContinuesIdentifier d) : IsIdentifierText (c :: cs)

theorem beginsIdentifier_iff {c : Char} :
    (c.isAlpha || c == '_') = true ↔ BeginsIdentifier c := by
  have upper : c.isUpper = decide ('A' ≤ c ∧ c ≤ 'Z') := rfl
  have lower : c.isLower = (decide ('a' ≤ c) && decide (c ≤ 'z')) := rfl
  have letter : c.isAlpha = (c.isUpper || c.isLower) := rfl
  rw [letter, upper, lower]
  simp only [BeginsIdentifier, Bool.or_eq_true, Bool.and_eq_true, decide_eq_true_eq, beq_iff_eq,
    or_assoc]

theorem continuesIdentifier_iff {c : Char} :
    isNameChar c = true ↔ ContinuesIdentifier c := by
  have begins := @beginsIdentifier_iff c
  rw [Bool.or_eq_true] at begins
  have digit : c.isDigit = true ↔ '0' ≤ c ∧ c ≤ '9' := by
    simp only [Char.isDigit, Bool.and_eq_true, decide_eq_true_eq, ge_iff_le, Char.le_def]
  rw [ContinuesIdentifier, ← begins, ← digit, isNameChar, Char.isAlphanum, Bool.or_eq_true,
    Bool.or_eq_true, or_right_comm]

theorem isIdentifier_iff {cs : List Char} : isIdentifier cs = true ↔ IsIdentifierText cs := by
  cases cs with
  | nil => exact iff_of_false Bool.false_ne_true nofun
  | cons c cs =>
    rw [isIdentifier, Bool.and_eq_true, beginsIdentifier_iff, List.all_eq_true]
    simp only [continuesIdentifier_iff]
    constructor
    · rintro ⟨begins, continues⟩
      exact .mk begins continues
    · rintro ⟨begins, continues⟩
      exact ⟨begins, continues⟩

theorem notMem_of_isIdentifierText {cs : List Char} (h : IsIdentifierText cs) {c : Char}
    (other : isNameChar c = false) : c ∉ cs := by
  intro mem
  have name := List.all_eq_true.1 (all_of_isIdentifier (isIdentifier_iff.2 h)) c mem
  rw [other] at name
  cases name

/-! ## Reducing a text to an identifier -/

/-- Every text is reduced to an identifier. -/
theorem isIdentifier_toIdentifier (cs : List Char) : isIdentifier (toIdentifier cs) = true := by
  have each : ∀ c ∈ replaceOthers cs, isNameChar c = true := by
    intro c mem
    obtain ⟨d, -, rfl⟩ := List.mem_map.1 mem
    split
    · assumption
    · decide
  unfold toIdentifier leadName
  split
  · decide
  · rename_i c rest same
    rw [same] at each
    obtain ⟨first, others⟩ := List.forall_mem_cons.1 each
    split
    · simp only [isIdentifier, Bool.and_eq_true, List.all_eq_true]
      exact ⟨by decide, each⟩
    · rename_i digit
      simp only [isIdentifier, Bool.and_eq_true, List.all_eq_true]
      refine ⟨?_, others⟩
      simpa [isNameChar, Char.isAlphanum, digit] using first

/-- A text that does not begin with a digit needs nothing in front. -/
theorem leadName_of_isIdentifier {cs : List Char} (h : isIdentifier cs = true) :
    leadName cs = cs := by
  cases cs with
  | nil => cases h
  | cons c cs =>
    have begins := (Bool.and_eq_true_iff.1 h).1
    have digit : c.isDigit = false := by
      rw [Bool.eq_false_iff]
      intro digit
      rw [beginsIdentifier_iff, BeginsIdentifier] at begins
      simp only [Char.isDigit, Bool.and_eq_true, decide_eq_true_eq, ge_iff_le] at digit
      obtain ⟨-, most⟩ := digit
      rcases begins with ⟨least, -⟩ | ⟨least, -⟩ | rfl
      · exact absurd (UInt32.le_trans least most) (by decide)
      · exact absurd (UInt32.le_trans least most) (by decide)
      · exact absurd most (by decide)
    rw [leadName, digit]
    rfl

/-- A text is left as it is exactly when it is an identifier. -/
theorem toIdentifier_eq_self_iff {cs : List Char} :
    toIdentifier cs = cs ↔ IsIdentifierText cs := by
  rw [← isIdentifier_iff]
  constructor
  · intro same
    rw [← same]
    exact isIdentifier_toIdentifier cs
  · intro identifier
    rw [toIdentifier, replaceOthers_eq_self (all_of_isIdentifier identifier),
      leadName_of_isIdentifier identifier]

theorem toIdentifier_toIdentifier (cs : List Char) :
    toIdentifier (toIdentifier cs) = toIdentifier cs :=
  toIdentifier_eq_self_iff.2 (isIdentifier_iff.1 (isIdentifier_toIdentifier cs))

end CallSiteIds.Source
