import CallSiteIds.Decimal.Integer

/-!
# Written integers

What a written integer looks like: digits, none of them a leading zero, with a minus sign in
front of a negative one.  So a written integer holds no separator of any format in which it
stands, and different integers are written differently.  The generous reader gives a written
integer back as long as it has no more digits than the reader accepts
(`readInteger?_integerText`).
-/

set_option autoImplicit false

namespace CallSiteIds.Decimal

/-- The value of an ASCII digit. -/
def digitOf (c : Char) : Nat := c.toNat - 48

/-! ## Natural numbers -/

theorem isDigit_of_mem_naturalText {n : Nat} {c : Char} (h : c ∈ naturalText n) :
    c.isDigit = true :=
  Nat.isDigit_of_mem_toDigits (by decide) (by decide) h

theorem naturalText_ne_nil (n : Nat) : naturalText n ≠ [] :=
  Nat.toDigits_ne_nil

/-- A number made up of digits is less than the power of ten with as many zeros. -/
theorem ofDigits_lt {ds : List Nat} (h : ∀ d ∈ ds, d < 10) :
    ofDigits ds < Nat.pow 10 ds.length := by
  have along : ∀ n, ds.foldl (fun n d => 10 * n + d) n < (n + 1) * 10 ^ ds.length := by
    induction ds with
    | nil => simp
    | cons d ds ih =>
      intro n
      have small : d < 10 := h d List.mem_cons_self
      have later := ih (fun e mem => h e (List.mem_cons_of_mem _ mem)) (10 * n + d)
      rw [List.foldl_cons, List.length_cons, Nat.pow_succ]
      calc ds.foldl (fun n d => 10 * n + d) (10 * n + d)
          < (10 * n + d + 1) * 10 ^ ds.length := later
        _ ≤ (10 * (n + 1)) * 10 ^ ds.length := Nat.mul_le_mul_right _ (by omega)
        _ = (n + 1) * (10 ^ ds.length * 10) := by
          rw [Nat.mul_comm 10, Nat.mul_assoc, Nat.mul_comm 10]
  simpa [ofDigits] using along 0

theorem ofDigits_naturalText (n : Nat) : ofDigits ((naturalText n).map digitOf) = n := by
  have := Nat.ofDigitChars_ten_toDigits (n := n)
  rw [Nat.ofDigitChars_eq_foldl] at this
  rw [ofDigits, List.foldl_map]
  exact this

theorem naturalText_injective : Function.Injective naturalText := by
  intro m n h
  rw [← ofDigits_naturalText m, h, ofDigits_naturalText]

/-- An integer that is written with no more digits than the reader accepts. -/
def HasFewDigits (i : Int) : Prop :=
  (naturalText i.natAbs).length ≤ digitLimit

/-- A number below a power of ten that is within the limit has few digits. -/
theorem hasFewDigits_of_lt {i : Int} {k : Nat} (small : i.natAbs < Nat.pow 10 k)
    (few : k ≤ digitLimit) : HasFewDigits i := by
  -- The limit is a variable here, for its power of ten is not to be evaluated.
  have bounded : ∀ limit, k ≤ limit → 0 < limit → (naturalText i.natAbs).length ≤ limit := by
    intro limit few positive
    have most : Nat.pow 10 k ≤ Nat.pow 10 limit := Nat.pow_le_pow_right (by decide) few
    exact (Nat.length_toDigits_le_iff (by decide) positive).2 (Nat.lt_of_lt_of_le small most)
  exact bounded digitLimit few (by decide)

theorem length_naturalText {n k : Nat} (positive : 0 < k) (least : Nat.pow 10 k ≤ n)
    (less : n < Nat.pow 10 (k + 1)) : (naturalText n).length = k + 1 := by
  have most : (naturalText n).length ≤ k + 1 :=
    (Nat.length_toDigits_le_iff (by decide) (by omega)).2 less
  have many : ¬(naturalText n).length ≤ k := by
    intro few
    exact Nat.not_lt.2 least ((Nat.length_toDigits_le_iff (by decide) positive).1 few)
  omega

/-- A written number that starts with a zero is zero. -/
theorem eq_nil_of_naturalText_eq_zero_cons {n : Nat} {rest : List Char}
    (h : naturalText n = '0' :: rest) : rest = [] := by
  induction n using Nat.strongRecOn generalizing rest with
  | ind n ih =>
    rw [naturalText, Nat.toDigits_eq_if (by decide)] at h
    split at h
    · injection h with _ h
      exact h.symm
    · rename_i large
      -- The leading digit is that of the quotient, which is not zero.
      have smaller : n / 10 < n := by omega
      cases hq : naturalText (n / 10) with
      | nil => exact absurd hq (naturalText_ne_nil _)
      | cons d ds =>
        rw [naturalText] at hq
        rw [hq, List.cons_append] at h
        injection h with hd _
        subst hd
        obtain rfl := ih (n / 10) smaller hq
        have zero : naturalText (n / 10) = naturalText 0 := by
          rw [naturalText, hq]
          rfl
        have := naturalText_injective zero
        omega

/-! ## Integers -/

/-- A written integer is made of digits and a minus sign. -/
theorem isDigit_or_minus_of_mem_integerText {i : Int} {c : Char} (h : c ∈ integerText i) :
    c.isDigit = true ∨ c = '-' := by
  cases i with
  | ofNat n => exact Or.inl (isDigit_of_mem_naturalText h)
  | negSucc n =>
    rcases List.mem_cons.1 h with rfl | h
    · exact Or.inr rfl
    · exact Or.inl (isDigit_of_mem_naturalText h)

/-- A written integer holds no character that is neither a digit nor a minus sign. -/
theorem notMem_integerText {c : Char} (digit : c.isDigit = false) (minus : c ≠ '-') (i : Int) :
    c ∉ integerText i := by
  intro h
  rcases isDigit_or_minus_of_mem_integerText h with h | h
  · rw [digit] at h
    cases h
  · exact minus h

theorem minus_notMem_naturalText (n : Nat) : '-' ∉ naturalText n := by
  intro h
  exact absurd (isDigit_of_mem_naturalText h) (by decide)

theorem integerText_injective : Function.Injective integerText := by
  intro i j h
  cases i with
  | ofNat m =>
    cases j with
    | ofNat n => rw [naturalText_injective h]
    | negSucc n =>
      refine absurd ?_ (minus_notMem_naturalText m)
      show '-' ∈ integerText (Int.ofNat m)
      rw [h]
      exact List.mem_cons_self
  | negSucc m =>
    cases j with
    | ofNat n =>
      refine absurd ?_ (minus_notMem_naturalText n)
      show '-' ∈ integerText (Int.ofNat n)
      rw [← h]
      exact List.mem_cons_self
    | negSucc n =>
      injection h with _ h
      have := naturalText_injective h
      rw [Nat.succ.inj this]

/-! ## Reading back -/

theorem toNat_of_isDigit {c : Char} (h : c.isDigit = true) : 48 ≤ c.toNat ∧ c.toNat ≤ 57 := by
  simp only [Char.isDigit, Bool.and_eq_true, decide_eq_true_eq, UInt32.le_iff_toNat_le] at h
  exact h

theorem isWhiteSpace_of_isDigit {c : Char} (h : c.isDigit = true) :
    Text.isWhiteSpace c = false := by
  have := toNat_of_isDigit h
  simp only [Text.isWhiteSpace, Bool.or_eq_false_iff, Bool.and_eq_false_iff,
    decide_eq_false_iff_not, beq_eq_false_iff_ne]
  omega

theorem digitValue?_of_isDigit {c : Char} (h : c.isDigit = true) :
    Text.digitValue? c = some (digitOf c) := by
  have := toNat_of_isDigit h
  have first : (decide (0x30 ≤ c.toNat) && decide (c.toNat < 0x30 + 10)) = true := by
    simp only [Bool.and_eq_true, decide_eq_true_eq]
    omega
  rw [Text.digitValue?, Text.zeroDigits, List.find?_cons, first]
  rfl

/-- A run of ASCII digits is read digit by digit. -/
theorem digitRun?_of_isDigit {cs : List Char} (nonempty : cs ≠ [])
    (digits : ∀ c ∈ cs, c.isDigit = true) : digitRun? cs = some (cs.map digitOf) := by
  induction cs with
  | nil => exact absurd rfl nonempty
  | cons c rest ih =>
    have hc := digitValue?_of_isDigit (digits c List.mem_cons_self)
    cases rest with
    | nil => simp [digitRun?, hc]
    | cons d rest =>
      have hrest := ih (by simp) fun e he => digits e (List.mem_cons_of_mem _ he)
      have hd : d ≠ '_' := by
        rintro rfl
        exact absurd (digits '_' (by simp)) (by decide)
      rw [digitRun?]
      · simp [hc, hrest]
      · intro e
        exact hd e

theorem readNatural?_naturalText (n : Nat) :
    readNatural? (naturalText n) =
      if (naturalText n).length ≤ digitLimit then some n else none := by
  have run := digitRun?_of_isDigit (naturalText_ne_nil n) fun _ => isDigit_of_mem_naturalText
  rw [readNatural?, run]
  simp only [Option.bind_eq_bind, Option.bind_some, List.length_map]
  rw [ofDigits_naturalText]

theorem trimBoth_integerText (i : Int) :
    Text.trimBoth Text.isWhiteSpace (integerText i) = integerText i := by
  have solid : ∀ c ∈ integerText i, Text.isWhiteSpace c = false := by
    intro c hc
    rcases isDigit_or_minus_of_mem_integerText hc with h | rfl
    · exact isWhiteSpace_of_isDigit h
    · decide
  exact Text.trimBoth_eq_self (fun c hc => solid c (List.mem_of_mem_head? hc))
    fun c hc => solid c (List.mem_of_mem_getLast? hc)

/-- A written number has no sign. -/
theorem readInteger?_naturalText (n : Nat) :
    readInteger? (naturalText n) = (readNatural? (naturalText n)).map Int.ofNat := by
  have trimmed := trimBoth_integerText (.ofNat n)
  rw [integerText] at trimmed
  rw [readInteger?, trimmed]
  split
  · rename_i rest heq
    exact absurd (heq ▸ List.mem_cons_self) (minus_notMem_naturalText n)
  · rename_i rest heq
    have plus : '+' ∈ naturalText n := heq ▸ List.mem_cons_self
    exact absurd (isDigit_of_mem_naturalText plus) (by decide)
  · cases readNatural? (naturalText n) <;> rfl

/-- A written integer within the limit is read back. -/
theorem readInteger?_integerText {i : Int} (h : HasFewDigits i) :
    readInteger? (integerText i) = some i := by
  cases i with
  | ofNat n =>
    have few : (naturalText n).length ≤ digitLimit := h
    rw [integerText, readInteger?_naturalText, readNatural?_naturalText, if_pos few]
    rfl
  | negSucc n =>
    have few : (naturalText (n + 1)).length ≤ digitLimit := h
    rw [readInteger?, trimBoth_integerText]
    simp only [integerText, readNatural?_naturalText, if_pos few]
    rfl

end CallSiteIds.Decimal
