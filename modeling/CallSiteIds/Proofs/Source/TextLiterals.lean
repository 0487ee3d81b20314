import CallSiteIds.Source.Lexeme
import CallSiteIds.Source.Routine
import CallSiteIds.Text.Units

/-!
# Text literals are read back

Whatever a text holds, its regular literal and its verbatim literal stand for that text and for
nothing more: a reader that follows the lexical rules finds the text, and the quote at which it
stops is the last character of the literal (`literals_read_back`).  So a text that comes from
outside, such as a lead, a token of the host or a path, cannot end its literal and go on as
source.

The argument goes character by character.  One character of the text becomes a few characters of
the literal, and the reader takes exactly those, whatever comes next.
-/

set_option autoImplicit false

namespace CallSiteIds

/-- A text in a joined list stands between what comes before it and what comes after it. -/
theorem Text.intercalate_append_cons {α : Type} (sep : List α) (xs : List (List α)) (y : List α)
    (ys : List (List α)) :
    sep.intercalate (xs ++ y :: ys) =
      xs.flatMap (· ++ sep) ++ (y ++ ys.flatMap (sep ++ ·)) := by
  induction xs with
  | nil =>
    induction ys generalizing y with
    | nil => simp [List.intercalate]
    | cons z ys ih =>
      have later := ih z
      simp only [List.nil_append, List.flatMap_nil, List.flatMap_cons] at later ⊢
      simp only [List.intercalate, List.intersperse, List.flatten_cons] at later ⊢
      rw [later, List.append_assoc]
  | cons x xs ih =>
    simp only [List.cons_append, List.flatMap_cons, List.append_assoc]
    rw [← ih]
    cases xs <;> simp [List.intercalate]

namespace Source

open Text (hexDigits hexNumber? hexNumber?_hexDigits length_hexDigits ofUnits? ofUnits?_map_toNat)

/-! ## What literals stand for -/

/-- A control character. -/
def isControl (c : Char) : Bool :=
  c.toNat < 0x20 || (0x7f ≤ c.toNat && c.toNat < 0xa0)

/-- Reads a regular literal with its quotes: the text it stands for, and what follows. -/
def regularValue? : List Char → Option (List Char × List Char)
  | '"' :: cs =>
    match readRegular cs with
    | none => none
    | some (units, rest) => (ofUnits? units).map fun value => (value, rest)
  | _ => none

/-- Reads a verbatim literal with its mark and quotes: the text it stands for, and what
follows. -/
def verbatimValue? : List Char → Option (List Char × List Char)
  | '@' :: '"' :: cs => readVerbatim cs
  | _ => none

/-- A text that does not go on with a literal in front of it: a quote would, and so would the
letter of an encoding mark. -/
def StandsApart (cs : List Char) : Prop :=
  ∀ c ∈ cs.head?, c ≠ '"' ∧ c ≠ 'u' ∧ c ≠ 'U'

/-! ## Regular literals -/

/-- The escape of a character is read as that character, and is none of the numbered ones. -/
theorem simpleEscape?_of_escapeLetter? {c letter : Char} (h : escapeLetter? c = some letter) :
    simpleEscape? letter = some c.toNat ∧ letter ≠ 'u' ∧ letter ≠ 'U' ∧ letter ≠ 'x' := by
  unfold escapeLetter? at h
  split at h <;> rename_i number <;> cases h
  all_goals
    rw [number]
    decide

theorem toNat_lt_of_isNumbered {c : Char} (h : isNumbered c = true) :
    c.toNat < Nat.pow 16 4 := by
  have width : Nat.pow 16 4 = 0x10000 := rfl
  simp only [isNumbered, Bool.or_eq_true, Bool.and_eq_true, decide_eq_true_eq, beq_iff_eq] at h
  omega

theorem readEscape_letter {c letter : Char} (h : escapeLetter? c = some letter)
    (rest : List Char) : readEscape (letter :: rest) = some (c.toNat, rest) := by
  obtain ⟨value, notShort, notLong, notHex⟩ := simpleEscape?_of_escapeLetter? h
  unfold readEscape
  split
  · contradiction
  · rename_i same
    injection same with same
    exact absurd same notShort
  · rename_i same
    injection same with same
    exact absurd same notLong
  · rename_i same
    injection same with same
    exact absurd same notHex
  · rename_i same
    injection same with letters tails
    rw [← letters, ← tails, value]
    rfl

theorem readEscape_numbered {n : Nat} (small : n < Nat.pow 16 4) (rest : List Char) :
    readEscape ('u' :: (hexDigits 4 n ++ rest)) = some (n, rest) := by
  have front : (hexDigits 4 n ++ rest).take 4 = hexDigits 4 n :=
    List.take_left' (length_hexDigits 4 n)
  have back : (hexDigits 4 n ++ rest).drop 4 = rest :=
    List.drop_left' (length_hexDigits 4 n)
  simp only [readEscape, front, back, length_hexDigits, if_true, hexNumber?_hexDigits small,
    Option.map_some]

/-- A character that is written as it is neither ends a literal nor begins an escape. -/
theorem plain_of_literalChar {c : Char} (letter : escapeLetter? c = none)
    (numbered : isNumbered c = false) :
    c ≠ '"' ∧ c ≠ '\\' ∧ isLineTerminator c = false ∧ isControl c = false := by
  have quote : c ≠ '"' := by
    rintro rfl
    exact absurd letter (by decide)
  have backslash : c ≠ '\\' := by
    rintro rfl
    exact absurd letter (by decide)
  refine ⟨quote, backslash, ?_, ?_⟩
  · have feed : c ≠ '\n' := by
      rintro rfl
      exact absurd numbered (by decide)
    have carriage : c ≠ '\r' := by
      rintro rfl
      exact absurd numbered (by decide)
    simp only [isNumbered, Bool.or_eq_false_iff, Bool.and_eq_false_iff, decide_eq_false_iff_not,
      beq_eq_false_iff_ne] at numbered
    simp only [isLineTerminator, Bool.or_eq_false_iff, beq_eq_false_iff_ne]
    refine ⟨⟨⟨⟨feed, carriage⟩, ?_⟩, ?_⟩, ?_⟩ <;> omega
  · simp only [isNumbered, Bool.or_eq_false_iff] at numbered
    simp only [isControl, Bool.or_eq_false_iff]
    exact numbered.1.1

/-- The reader takes what one character was written as, whatever comes next. -/
theorem readQuoted_literalChar (fuel : Nat) (c : Char) (rest : List Char) :
    readQuoted '"' (fuel + 1) (literalChar c ++ rest) =
      (readQuoted '"' fuel rest).map fun (units, rest) => (c.toNat :: units, rest) := by
  unfold literalChar
  cases letter : escapeLetter? c with
  | some l =>
    have escape := readEscape_letter letter rest
    simp [readQuoted, escape]
  | none =>
    cases numbered : isNumbered c with
    | true =>
      have escape := readEscape_numbered (toNat_lt_of_isNumbered numbered) rest
      simp [readQuoted, escape]
    | false =>
      obtain ⟨quote, backslash, terminator, -⟩ := plain_of_literalChar letter numbered
      simp [readQuoted, quote, backslash, terminator]

theorem readQuoted_flatMap_literalChar {fuel : Nat} {cs : List Char} (enough : cs.length < fuel)
    (rest : List Char) :
    readQuoted '"' fuel (cs.flatMap literalChar ++ '"' :: rest) =
      some (cs.map Char.toNat, rest) := by
  induction cs generalizing fuel with
  | nil =>
    obtain ⟨fuel, rfl⟩ := Nat.exists_eq_add_of_lt enough
    simp [readQuoted]
  | cons c cs ih =>
    obtain ⟨fuel, rfl⟩ : ∃ n, fuel = n + 1 := ⟨fuel - 1, by omega⟩
    have later : readQuoted '"' fuel _ = _ := ih (by simpa using enough)
    rw [List.flatMap_cons, List.append_assoc, readQuoted_literalChar, later]
    rfl

/-- No character is written as nothing, so a literal is at least as long as its text. -/
theorem length_le_length_flatMap_literalChar (cs : List Char) :
    cs.length ≤ (cs.flatMap literalChar).length := by
  induction cs with
  | nil => exact Nat.le_refl _
  | cons c cs ih =>
    have one : 1 ≤ (literalChar c).length := by
      unfold literalChar
      split
      · simp
      · split <;> simp
    rw [List.flatMap_cons, List.length_append, List.length_cons]
    omega

theorem readRegular_flatMap_literalChar (cs rest : List Char) :
    readRegular (cs.flatMap literalChar ++ '"' :: rest) = some (cs.map Char.toNat, rest) := by
  apply readQuoted_flatMap_literalChar
  have longer := length_le_length_flatMap_literalChar cs
  simp only [List.length_append, List.length_cons]
  omega

theorem regularLiteral_append (cs rest : List Char) :
    regularLiteral cs ++ rest = '"' :: (cs.flatMap literalChar ++ '"' :: rest) := by
  simp [regularLiteral]

theorem regularValue?_regularLiteral (cs rest : List Char) :
    regularValue? (regularLiteral cs ++ rest) = some (cs, rest) := by
  rw [regularLiteral_append, regularValue?, readRegular_flatMap_literalChar]
  simp only [ofUnits?_map_toNat, Option.map_some]

/-- A regular literal is on one line and holds no control character. -/
theorem visible_of_mem_regularLiteral {cs : List Char} {c : Char} (mem : c ∈ regularLiteral cs) :
    isLineTerminator c = false ∧ isControl c = false := by
  have digits := Text.forall_mem_hexDigits
    (P := fun d => isLineTerminator d = false ∧ isControl d = false) (by decide) 4
  have escapes {a letter : Char} (h : escapeLetter? a = some letter) :
      isLineTerminator letter = false ∧ isControl letter = false := by
    unfold escapeLetter? at h
    split at h <;> cases h <;> decide
  have marks : ∀ d ∈ ['"', '\\', 'u'], isLineTerminator d = false ∧ isControl d = false := by
    intro d mem
    simp only [List.mem_cons, List.not_mem_nil, or_false] at mem
    rcases mem with rfl | rfl | rfl <;> decide
  rw [regularLiteral, List.mem_append, List.mem_cons, List.mem_flatMap] at mem
  rcases mem with (rfl | ⟨a, -, mem⟩) | mem
  · exact marks _ (by simp)
  · unfold literalChar at mem
    split at mem
    · rename_i letter escape
      simp only [List.mem_cons, List.not_mem_nil, or_false] at mem
      rcases mem with rfl | rfl
      · exact marks _ (by simp)
      · exact escapes escape
    · rename_i letter
      split at mem
      · simp only [List.mem_cons] at mem
        rcases mem with rfl | rfl | mem
        · exact marks _ (by simp)
        · exact marks _ (by simp)
        · exact digits _ _ mem
      · rename_i numbered
        have plain := plain_of_literalChar letter (by simpa using numbered)
        obtain rfl := List.mem_singleton.1 mem
        exact plain.2.2
  · obtain rfl := List.mem_singleton.1 mem
    exact marks _ (by simp)

/-! ## Verbatim literals -/

theorem readVerbatim_quote {rest : List Char} (apart : ∀ c ∈ rest.head?, c ≠ '"') :
    readVerbatim ('"' :: rest) = some ([], rest) := by
  cases rest with
  | nil => rfl
  | cons d rest =>
    have other : d ≠ '"' := apart d rfl
    unfold readVerbatim
    split
    · contradiction
    · rename_i same
      injection same with _ same
      injection same with same _
      exact absurd same other
    · rename_i same
      injection same with _ same
      rw [← same]
    · rename_i plain same
      injection same with same _
      exact absurd same.symm plain

/-- The reader takes what one character was written as, whatever comes next. -/
theorem readVerbatim_verbatimChar (c : Char) (rest : List Char) :
    readVerbatim (verbatimChar c ++ rest) =
      (readVerbatim rest).map fun (cs, rest) => (c :: cs, rest) := by
  unfold verbatimChar
  by_cases quote : c = '"'
  · subst quote
    simp [readVerbatim]
  · rw [if_neg quote]
    simp [readVerbatim, quote]

theorem readVerbatim_flatMap_verbatimChar (cs : List Char) {rest : List Char}
    (apart : ∀ c ∈ rest.head?, c ≠ '"') :
    readVerbatim (cs.flatMap verbatimChar ++ '"' :: rest) = some (cs, rest) := by
  induction cs with
  | nil => exact readVerbatim_quote apart
  | cons c cs ih =>
    rw [List.flatMap_cons, List.append_assoc, readVerbatim_verbatimChar, ih]
    rfl

theorem verbatimLiteral_append (cs rest : List Char) :
    verbatimLiteral cs ++ rest = '@' :: '"' :: (cs.flatMap verbatimChar ++ '"' :: rest) := by
  simp [verbatimLiteral]

theorem verbatimValue?_verbatimLiteral (cs : List Char) {rest : List Char}
    (apart : ∀ c ∈ rest.head?, c ≠ '"') :
    verbatimValue? (verbatimLiteral cs ++ rest) = some (cs, rest) := by
  rw [verbatimLiteral_append, verbatimValue?, readVerbatim_flatMap_verbatimChar cs apart]

/-! ## Literals as lexemes -/

theorem skipEncoding_of_standsApart {rest : List Char} (apart : StandsApart rest) :
    Lexeme.skipEncoding rest = rest := by
  unfold Lexeme.skipEncoding
  split
  · exact absurd rfl (apart 'u' rfl).2.1
  · exact absurd rfl (apart 'U' rfl).2.2
  · rfl

theorem quoteRun_of_standsApart {rest : List Char} (apart : ∀ c ∈ rest.head?, c ≠ '"') :
    Lexeme.quoteRun rest = (0, rest) := by
  unfold Lexeme.quoteRun
  split
  · exact absurd rfl (apart '"' rfl)
  · rfl

/-- A regular literal does not look like the beginning of a raw one. -/
theorem quoteRun_regularLiteral (cs : List Char) {rest : List Char} (apart : StandsApart rest) :
    (Lexeme.quoteRun (regularLiteral cs ++ rest)).1 < 3 := by
  rw [regularLiteral_append]
  cases cs with
  | nil =>
    have none := quoteRun_of_standsApart fun c mem => (apart c mem).1
    simp [Lexeme.quoteRun, none]
  | cons c cs =>
    have first : ∀ d ∈ ((c :: cs).flatMap literalChar ++ '"' :: rest).head?, d ≠ '"' := by
      rw [List.flatMap_cons]
      unfold literalChar
      cases letter : escapeLetter? c with
      | some l => simp
      | none =>
        cases numbered : isNumbered c with
        | true => simp
        | false => simpa using (plain_of_literalChar letter numbered).1
    have none := quoteRun_of_standsApart first
    simp only [Lexeme.quoteRun, none]
    decide

theorem skipLexeme_regularLiteral (cs : List Char) {rest : List Char} (apart : StandsApart rest) :
    Lexeme.skipLexeme (regularLiteral cs ++ rest) = some (.text, rest) := by
  have few : ¬3 ≤ (Lexeme.quoteRun (regularLiteral cs ++ rest)).1 := by
    have := quoteRun_regularLiteral cs apart
    omega
  have quoted : Lexeme.skipQuoted (regularLiteral cs ++ rest) = some rest := by
    have body : readRegular ((regularLiteral cs ++ rest).drop 1) =
        some (cs.map Char.toNat, rest) := by
      rw [regularLiteral_append, List.drop_one, List.tail_cons, readRegular_flatMap_literalChar]
    unfold Lexeme.skipQuoted
    simp only [if_neg few, body, Option.map_some, skipEncoding_of_standsApart apart]
  rw [regularLiteral_append] at quoted ⊢
  simp only [Lexeme.skipLexeme, quoted, Option.map_some]

theorem skipLexeme_verbatimLiteral (cs : List Char) {rest : List Char}
    (apart : StandsApart rest) :
    Lexeme.skipLexeme (verbatimLiteral cs ++ rest) = some (.text, rest) := by
  have quote : ∀ c ∈ rest.head?, c ≠ '"' := fun c mem => (apart c mem).1
  rw [verbatimLiteral_append]
  simp only [Lexeme.skipLexeme, readVerbatim_flatMap_verbatimChar cs quote, Option.map_some,
    skipEncoding_of_standsApart apart]

/-! ## Literals in their places -/

/-- A text from outside is written as a literal into a frame that does not depend on it, and the
literal ends where the frame goes on. -/
def IsFramed (frame : String → String) (literal : List Char → List Char)
    (value? : List Char → Option (List Char × List Char)) : Prop :=
  ∃ front back, StandsApart back ∧ ∀ v : String,
    (frame v).toList = front ++ (literal v.toList ++ back) ∧
      value? (literal v.toList ++ back) = some (v.toList, back)

theorem isFramed_token (l : SourceLocation) :
    IsFramed (fun token => tagText l (some token)) regularLiteral regularValue? := by
  refine ⟨("[" ++ tagAttribute ++ "(1, ").toList, [')', ']'], by simp [StandsApart], ?_⟩
  intro v
  refine ⟨?_, regularValue?_regularLiteral _ _⟩
  simp [tagText, tagArguments]

theorem isFramed_path (line column : Nat) :
    IsFramed (fun path => tagText ⟨path, line, column⟩ none) verbatimLiteral verbatimValue? := by
  refine ⟨("[" ++ tagAttribute ++ "(").toList,
    (", " ++ Decimal.integerString line ++ ", " ++ Decimal.integerString column ++ ")]").toList,
    ?_, ?_⟩
  · simp [StandsApart]
  · intro v
    refine ⟨?_, verbatimValue?_verbatimLiteral _ (by simp)⟩
    simp [tagText, tagArguments]

theorem isFramed_fallback (callee name : String) (before after : List Argument) :
    IsFramed (fun literal => Call.text ⟨callee, before ++ .orLiteral name literal :: after⟩)
      regularLiteral regularValue? := by
  let written (as : List Argument) : List (List Char) := as.map fun a => a.text.toList
  refine ⟨callee.toList ++ '(' :: ((written before).flatMap (· ++ [',', ' ']) ++
      (escapeName name ++ " ?? ").toList),
    (written after).flatMap ([',', ' '] ++ ·) ++ [')', ';'], ?_, ?_⟩
  · cases after <;> simp [StandsApart, written]
  · intro v
    refine ⟨?_, regularValue?_regularLiteral _ _⟩
    have joined := Text.intercalate_append_cons [',', ' '] (written before)
      (Argument.text (.orLiteral name v)).toList (written after)
    simp only [Call.text, String.toList_append, String.toList_intercalate, List.map_append,
      List.map_cons, List.map_map]
    rw [show ", ".toList = [',', ' '] from rfl]
    simp only [written, Function.comp_def] at joined ⊢
    rw [joined]
    simp [Argument.text]

/-- A text is read back from its regular literal, which is on one line and holds no control
character, and from its verbatim literal.  In both the closing quote is the last character, and
what follows the literal is left as it is.  Where a token of the host, a path or the literal of a
parameter is written into the source, what follows it does not depend on it. -/
theorem literals_read_back (v : String) :
    regularValue? (regularLiteral v.toList) = some (v.toList, []) ∧
    (∀ c ∈ regularLiteral v.toList, isLineTerminator c = false ∧ isControl c = false) ∧
    verbatimValue? (verbatimLiteral v.toList) = some (v.toList, []) ∧
    (∀ rest, regularValue? (regularLiteral v.toList ++ rest) = some (v.toList, rest)) ∧
    (∀ rest, (∀ c ∈ rest.head?, c ≠ '"') →
      verbatimValue? (verbatimLiteral v.toList ++ rest) = some (v.toList, rest)) ∧
    (∀ rest, StandsApart rest →
      Lexeme.skipLexeme (regularLiteral v.toList ++ rest) = some (.text, rest) ∧
      Lexeme.skipLexeme (verbatimLiteral v.toList ++ rest) = some (.text, rest)) ∧
    (∀ l, IsFramed (fun token => tagText l (some token)) regularLiteral regularValue?) ∧
    (∀ line column,
      IsFramed (fun path => tagText ⟨path, line, column⟩ none) verbatimLiteral verbatimValue?) ∧
    ∀ callee name before after,
      IsFramed (fun literal => Call.text ⟨callee, before ++ .orLiteral name literal :: after⟩)
        regularLiteral regularValue? := by
  have regular := regularValue?_regularLiteral v.toList
  have verbatim (rest : List Char) (apart : ∀ c ∈ rest.head?, c ≠ '"') :
      verbatimValue? (verbatimLiteral v.toList ++ rest) = some (v.toList, rest) :=
    verbatimValue?_verbatimLiteral v.toList apart
  refine ⟨?_, ?_, ?_, regular, verbatim, ?_, isFramed_token, isFramed_path, isFramed_fallback⟩
  · have whole := regular []
    rwa [List.append_nil] at whole
  · intro c mem
    exact visible_of_mem_regularLiteral mem
  · have whole := verbatim [] (by simp)
    rwa [List.append_nil] at whole
  · intro rest apart
    exact ⟨skipLexeme_regularLiteral _ apart, skipLexeme_verbatimLiteral _ apart⟩

/-- A text with a backslash in front of a quote, a zero in front of a digit, a line separator and
a quote at its end is read back between parentheses. -/
theorem literals_read_back_hostile :
    let v := "\\\"\x001\u2028\"); Evil(\""
    StandsApart [')'] ∧
      verbatimValue? (verbatimLiteral v.toList ++ [')']) = some (v.toList, [')']) ∧
      Lexeme.skipLexeme (regularLiteral v.toList ++ [')']) = some (.text, [')']) ∧
      Lexeme.skipLexeme (verbatimLiteral v.toList ++ [')']) = some (.text, [')']) := by
  intro v
  have apart : StandsApart [')'] := by simp [StandsApart]
  obtain ⟨-, -, -, -, verbatim, lexeme, -⟩ := literals_read_back v
  exact ⟨apart, verbatim _ (by simp), lexeme _ apart⟩

end Source

end CallSiteIds
