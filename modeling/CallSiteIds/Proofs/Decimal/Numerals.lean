import CallSiteIds.Proofs.Decimal.Digits
import CallSiteIds.Proofs.Text.Trimming

/-!
# Texts that stand for integers

The reader of integers takes exactly the numerals: digits of any script, with single underscores
between some of them, perhaps a sign in front, and white space around
(`readInteger?_eq_some_iff`).  Of the many numerals of a natural number one is plain: it has ASCII
digits only and no leading zero, and so it is the one that is written (`isPlainNumeral_iff`).
-/

set_option autoImplicit false

namespace CallSiteIds.Decimal

/-! ## Runs of digits -/

/-- Digits of any script with single underscores between some of them, and their values. -/
inductive IsDigitRun : List Char → List Nat → Prop where
  | last {c : Char} {d : Nat} (digit : Text.digitValue? c = some d) : IsDigitRun [c] [d]
  | digit {c : Char} {d : Nat} {cs : List Char} {ds : List Nat}
      (digit : Text.digitValue? c = some d) (later : IsDigitRun cs ds) :
      IsDigitRun (c :: cs) (d :: ds)
  | underscore {c : Char} {d : Nat} {cs : List Char} {ds : List Nat}
      (digit : Text.digitValue? c = some d) (later : IsDigitRun cs ds) :
      IsDigitRun (c :: '_' :: cs) (d :: ds)

theorem ne_of_digitValue? {c other : Char} {d : Nat} (digit : Text.digitValue? c = some d)
    (none : Text.digitValue? other = none) : c ≠ other := by
  rintro rfl
  rw [none] at digit
  cases digit

/-- A run begins with a digit. -/
theorem IsDigitRun.head {cs : List Char} {ds : List Nat} (run : IsDigitRun cs ds) :
    ∃ c rest d, cs = c :: rest ∧ Text.digitValue? c = some d := by
  cases run with
  | last digit => exact ⟨_, _, _, rfl, digit⟩
  | digit digit _ => exact ⟨_, _, _, rfl, digit⟩
  | underscore digit _ => exact ⟨_, _, _, rfl, digit⟩

theorem isDigitRun_of_digitRun? {cs : List Char} {ds : List Nat} (h : digitRun? cs = some ds) :
    IsDigitRun cs ds := by
  induction cs using digitRun?.induct generalizing ds with
  | case1 => cases h
  | case2 c =>
    obtain ⟨d, digit, rfl⟩ := Option.map_eq_some_iff.1 h
    exact .last digit
  | case3 c rest ih =>
    simp only [digitRun?, Option.bind_eq_bind, Option.bind_eq_some_iff, Option.pure_def,
      Option.some.injEq] at h
    obtain ⟨d, digit, ds, later, rfl⟩ := h
    exact .underscore digit (ih later)
  | case4 c d rest other ih =>
    rw [digitRun?] at h
    · simp only [Option.bind_eq_bind, Option.bind_eq_some_iff, Option.pure_def,
        Option.some.injEq] at h
      obtain ⟨d, digit, ds, later, rfl⟩ := h
      exact .digit digit (ih later)
    · exact other

theorem digitRun?_of_isDigitRun {cs : List Char} {ds : List Nat} (h : IsDigitRun cs ds) :
    digitRun? cs = some ds := by
  induction h with
  | last digit => rw [digitRun?, digit, Option.map_some]
  | digit digit later ih =>
    obtain ⟨c, rest, e, rfl, first⟩ := later.head
    rw [digitRun?]
    · simp [digit, ih]
    · exact ne_of_digitValue? first (by decide)
  | underscore digit later ih => simp [digitRun?, digit, ih]

/-- No script has a digit that is white space. -/
theorem isWhiteSpace_of_digitValue? {c : Char} {d : Nat} (h : Text.digitValue? c = some d) :
    Text.isWhiteSpace c = false := by
  obtain ⟨start, found, -⟩ := Option.map_eq_some_iff.1 h
  have within := List.find?_some found
  simp only [Bool.and_eq_true, decide_eq_true_eq] at within
  -- The ten digits of a script lie in one of the gaps between the white-space characters.
  have gaps : ∀ n ∈ Text.zeroDigits, 0x21 ≤ n ∧ n + 10 ≤ 0x85 ∨
      0xa1 ≤ n ∧ n + 10 ≤ 0x1680 ∨ 0x1681 ≤ n ∧ n + 10 ≤ 0x2000 ∨ 0x3001 ≤ n := by
    decide
  have gap := gaps start (List.mem_of_find?_eq_some found)
  simp only [Text.isWhiteSpace, Bool.or_eq_false_iff, Bool.and_eq_false_iff,
    decide_eq_false_iff_not, beq_eq_false_iff_ne]
  omega

theorem IsDigitRun.isWhiteSpace_of_mem {cs : List Char} {ds : List Nat} (run : IsDigitRun cs ds) :
    ∀ c ∈ cs, Text.isWhiteSpace c = false := by
  induction run with
  | last digit => exact List.forall_mem_singleton.2 (isWhiteSpace_of_digitValue? digit)
  | digit digit _ ih => exact List.forall_mem_cons.2 ⟨isWhiteSpace_of_digitValue? digit, ih⟩
  | underscore digit _ ih =>
    exact List.forall_mem_cons.2
      ⟨isWhiteSpace_of_digitValue? digit, List.forall_mem_cons.2 ⟨by decide, ih⟩⟩

theorem IsDigitRun.lt_of_mem {cs : List Char} {ds : List Nat} (run : IsDigitRun cs ds) :
    ∀ d ∈ ds, d < 10 := by
  induction run with
  | last digit => exact List.forall_mem_singleton.2 (Text.digitValue?_lt digit)
  | digit digit _ ih => exact List.forall_mem_cons.2 ⟨Text.digitValue?_lt digit, ih⟩
  | underscore digit _ ih => exact List.forall_mem_cons.2 ⟨Text.digitValue?_lt digit, ih⟩

theorem readNatural?_eq_some_iff {cs : List Char} {n : Nat} :
    readNatural? cs = some n ↔
      ∃ ds, IsDigitRun cs ds ∧ ds.length ≤ digitLimit ∧ ofDigits ds = n := by
  simp only [readNatural?, Option.bind_eq_bind, Option.bind_eq_some_iff,
    Option.ite_none_right_eq_some, Option.some.injEq]
  constructor
  · rintro ⟨ds, run, few, value⟩
    exact ⟨ds, isDigitRun_of_digitRun? run, few, value⟩
  · rintro ⟨ds, run, few, value⟩
    exact ⟨ds, digitRun?_of_isDigitRun run, few, value⟩

/-! ## Numerals -/

/-- A sign in front of a number, if there is one, and the integer that they make. -/
inductive IsSign : List Char → Nat → Int → Prop where
  | none (n : Nat) : IsSign [] n n
  | plus (n : Nat) : IsSign ['+'] n n
  | minus (n : Nat) : IsSign ['-'] n (-n)

/-- A text that stands for an integer: digits, not more than the reader accepts, perhaps with a
sign in front, and white space around. -/
inductive IsNumeral : List Char → Int → Prop where
  | mk {front sign digits back : List Char} {ds : List Nat} {i : Int}
      (before : ∀ c ∈ front, Text.isWhiteSpace c = true) (signed : IsSign sign (ofDigits ds) i)
      (run : IsDigitRun digits ds) (few : ds.length ≤ digitLimit)
      (after : ∀ c ∈ back, Text.isWhiteSpace c = true) :
      IsNumeral (front ++ (sign ++ digits) ++ back) i

/-- What is left of a numeral without the white space around it is read by its sign. -/
theorem readInteger?_of_trimBoth {cs part : List Char} {i : Int}
    (trimmed : Text.trimBoth Text.isWhiteSpace cs = part) :
    readInteger? cs = some i ↔ ∃ sign digits n, part = sign ++ digits ∧ IsSign sign n i ∧
      readNatural? digits = some n := by
  rw [readInteger?, trimmed]
  constructor
  · intro h
    split at h
    all_goals
      simp only [Option.map_eq_some_iff, Option.bind_eq_bind, Option.bind_eq_some_iff,
        Option.pure_def, Option.some.injEq] at h
      obtain ⟨_, ⟨n, read, rfl⟩, rfl⟩ := h
    · exact ⟨['-'], _, n, rfl, .minus n, read⟩
    · exact ⟨['+'], _, n, rfl, .plus n, read⟩
    · exact ⟨[], _, n, rfl, .none n, read⟩
  · rintro ⟨sign, digits, n, rfl, signed, read⟩
    cases signed with
    | none =>
      obtain ⟨ds, run, -⟩ := readNatural?_eq_some_iff.1 read
      obtain ⟨c, rest, d, rfl, digit⟩ := run.head
      have minus : c ≠ '-' := ne_of_digitValue? digit (by decide)
      have plus : c ≠ '+' := ne_of_digitValue? digit (by decide)
      simp [read, minus, plus]
    | plus => simp [read]
    | minus => simp [read]

/-- The reader of integers takes exactly the numerals. -/
theorem readInteger?_eq_some_iff {cs : List Char} {i : Int} :
    readInteger? cs = some i ↔ IsNumeral cs i := by
  constructor
  · intro h
    obtain ⟨front, back, around, before, after⟩ :=
      Text.exists_around_trimBoth Text.isWhiteSpace cs
    obtain ⟨sign, digits, n, part, signed, read⟩ := (readInteger?_of_trimBoth rfl).1 h
    obtain ⟨ds, run, few, rfl⟩ := readNatural?_eq_some_iff.1 read
    rw [around, part]
    exact .mk before signed run few after
  · rintro ⟨before, signed, run, few, after⟩
    rename_i front sign digits back ds
    have solid : ∀ c ∈ sign ++ digits, Text.isWhiteSpace c = false := by
      refine List.forall_mem_append.2 ⟨?_, run.isWhiteSpace_of_mem⟩
      cases signed with
      | none => exact List.forall_mem_nil _
      | plus => exact List.forall_mem_singleton.2 (by decide)
      | minus => exact List.forall_mem_singleton.2 (by decide)
    have trimmed : Text.trimBoth Text.isWhiteSpace (front ++ (sign ++ digits) ++ back) =
        sign ++ digits := by
      rw [Text.trimBoth_append_right after, Text.trimBoth_append_left before]
      exact Text.trimBoth_eq_self (fun c mem => solid c (List.mem_of_mem_head? mem))
        fun c mem => solid c (List.mem_of_mem_getLast? mem)
    exact (readInteger?_of_trimBoth trimmed).2
      ⟨sign, digits, _, rfl, signed, readNatural?_eq_some_iff.2 ⟨ds, run, few, rfl⟩⟩

theorem IsSign.natAbs_eq {sign : List Char} {n : Nat} {i : Int} (signed : IsSign sign n i) :
    i.natAbs = n := by
  cases signed <;> simp

/-- The integer that a numeral stands for is written with no more digits than the reader
accepts. -/
theorem IsNumeral.hasFewDigits {cs : List Char} {i : Int} (numeral : IsNumeral cs i) :
    HasFewDigits i := by
  obtain ⟨-, signed, run, few, -⟩ := numeral
  refine hasFewDigits_of_lt ?_ few
  rw [signed.natAbs_eq]
  exact ofDigits_lt run.lt_of_mem

/-! ## Plain numerals -/

/-- A natural number as it is written: ASCII digits without a leading zero. -/
structure IsPlainNumeral (cs : List Char) : Prop where
  nonempty : cs ≠ []
  digits : ∀ c ∈ cs, c.isDigit = true
  leading : ∀ rest, cs = '0' :: rest → rest = []

theorem naturalText_digitOf {c : Char} (digit : c.isDigit = true) :
    naturalText (digitOf c) = [c] := by
  have bounds := toNat_of_isDigit digit
  have small : digitOf c < 10 := by
    rw [digitOf]
    omega
  rw [naturalText, Nat.toDigits_of_lt_base small]
  have same : (Nat.digitChar (digitOf c)).toNat = c.toNat := by
    rw [Nat.toNat_digitChar_of_lt_ten small, digitOf]
    omega
  rw [Char.toNat_inj.1 same]

/-- Digits behind a written number that is not zero go on writing it. -/
theorem naturalText_append_digits {n : Nat} (positive : 0 < n) {cs : List Char}
    (digits : ∀ c ∈ cs, c.isDigit = true) :
    naturalText n ++ cs =
      naturalText ((cs.map digitOf).foldl (fun m d => 10 * m + d) n) := by
  induction cs generalizing n with
  | nil => rw [List.append_nil, List.map_nil, List.foldl_nil]
  | cons c cs ih =>
    obtain ⟨digit, digits⟩ := List.forall_mem_cons.1 digits
    have small : digitOf c < 10 := by
      have bounds := toNat_of_isDigit digit
      rw [digitOf]
      omega
    have next : naturalText n ++ [c] = naturalText (10 * n + digitOf c) := by
      rw [← naturalText_digitOf digit]
      exact Nat.toDigits_append_toDigits (by decide) positive small
    rw [List.map_cons, List.foldl_cons, ← ih (by omega) digits, ← next, List.append_assoc,
      List.singleton_append]

/-- The plain numerals are the texts that natural numbers are written as. -/
theorem isPlainNumeral_iff {cs : List Char} : IsPlainNumeral cs ↔ ∃ n, naturalText n = cs := by
  constructor
  · rintro ⟨nonempty, digits, leading⟩
    obtain ⟨c, rest, rfl⟩ := List.exists_cons_of_ne_nil nonempty
    obtain ⟨digit, digits⟩ := List.forall_mem_cons.1 digits
    by_cases zero : c = '0'
    · subst zero
      exact ⟨0, by rw [leading rest rfl]; rfl⟩
    · have positive : 0 < digitOf c := by
        have bounds := toNat_of_isDigit digit
        have other : c.toNat ≠ '0'.toNat := fun same => zero (Char.toNat_inj.1 same)
        have code : '0'.toNat = 48 := rfl
        rw [digitOf]
        omega
      refine ⟨_, (naturalText_append_digits positive digits).symm.trans ?_⟩
      rw [naturalText_digitOf digit, List.singleton_append]
  · rintro ⟨n, rfl⟩
    exact ⟨naturalText_ne_nil n, fun _ => isDigit_of_mem_naturalText,
      fun _ => eq_nil_of_naturalText_eq_zero_cons⟩

theorem readInteger?_naturalText_eq_some_iff {n : Nat} {i : Int} :
    readInteger? (naturalText n) = some i ↔ (naturalText n).length ≤ digitLimit ∧ i = n := by
  rw [readInteger?_naturalText, readNatural?_naturalText]
  split
  · rename_i few
    simp [few, eq_comm]
  · rename_i many
    simp [many]

/-- A numeral is plain exactly when it is what the integer that it stands for is written as, and
that is not negative. -/
theorem IsNumeral.isPlainNumeral_iff {cs : List Char} {i : Int} (numeral : IsNumeral cs i) :
    IsPlainNumeral cs ↔ 0 ≤ i ∧ integerText i = cs := by
  rw [Decimal.isPlainNumeral_iff]
  constructor
  · rintro ⟨n, rfl⟩
    obtain ⟨-, rfl⟩ := readInteger?_naturalText_eq_some_iff.1 (readInteger?_eq_some_iff.2 numeral)
    exact ⟨Int.natCast_nonneg n, rfl⟩
  · rintro ⟨positive, rfl⟩
    obtain ⟨n, rfl⟩ := Int.eq_ofNat_of_zero_le positive
    exact ⟨n, rfl⟩

end CallSiteIds.Decimal
