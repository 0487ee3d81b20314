/-!
# Blanks

Two sets of blanks are in use.  Text is trimmed of every white-space character of Unicode
together with the four information separators; raw lines of a file are trimmed of the ASCII
blanks only.  `trim` removes blanks at both ends and nothing inside.
-/

set_option autoImplicit false

namespace CallSiteIds.Text

/-- A white-space character of Unicode. -/
def isWhiteSpace (c : Char) : Bool :=
  (0x09 ≤ c.toNat && c.toNat ≤ 0x0d) || c.toNat == 0x20 || c.toNat == 0x85 ||
    c.toNat == 0xa0 || c.toNat == 0x1680 || (0x2000 ≤ c.toNat && c.toNat ≤ 0x200a) ||
    c.toNat == 0x2028 || c.toNat == 0x2029 || c.toNat == 0x202f || c.toNat == 0x205f ||
    c.toNat == 0x3000

/-- A white-space character or one of the four information separators. -/
def isBlank (c : Char) : Bool :=
  isWhiteSpace c || (0x1c ≤ c.toNat && c.toNat ≤ 0x1f)

/-- Every character that the core library takes for white space is a blank. -/
theorem isBlank_of_isWhitespace {c : Char} (h : c.isWhitespace = true) : isBlank c = true := by
  simp only [Char.isWhitespace, Bool.or_eq_true, decide_eq_true_eq] at h
  rcases h with ((rfl | rfl) | rfl) | rfl <;> decide

/-- Removes the elements at both ends that satisfy the test. -/
def trimBoth {α : Type} (test : α → Bool) (xs : List α) : List α :=
  ((xs.dropWhile test).reverse.dropWhile test).reverse

/-- Removes blanks at both ends. -/
def trim (cs : List Char) : List Char :=
  trimBoth isBlank cs

/-- Removes blanks at both ends of a string. -/
def trimString (s : String) : String :=
  String.ofList (trim s.toList)

/-- A list that neither begins nor ends with a blank is left as it is. -/
theorem trimBoth_eq_self {α : Type} {test : α → Bool} {xs : List α}
    (first : ∀ x ∈ xs.head?, test x = false) (last : ∀ x ∈ xs.getLast?, test x = false) :
    trimBoth test xs = xs := by
  have front : xs.dropWhile test = xs := by
    cases xs with
    | nil => rfl
    | cons x r => simp [first x (by simp)]
  have back : xs.reverse.dropWhile test = xs.reverse := by
    cases h : xs.reverse with
    | nil => rfl
    | cons x r =>
      have : x ∈ xs.getLast? := by rw [← List.head?_reverse, h]; rfl
      simp [last x this]
  rw [trimBoth, front, back, List.reverse_reverse]

end CallSiteIds.Text
