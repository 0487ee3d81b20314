import CallSiteIds.Json.Reader
import CallSiteIds.Json.Writer
import CallSiteIds.Proofs.Decimal.Digits

/-!
# Documents as a grammar

A text may stand for a document in several ways: the compact form and the indented form differ
in the blanks between tokens.  This file states once which texts stand for which document, and
proves that the strict reader finds the document back in each of them.  The reader is fuelled,
so the main induction is on the fuel, for values, items and members together.

Numbers that are not integers have no place in the grammar: no document of a pass holds one.
-/

set_option autoImplicit false

namespace CallSiteIds.Json

open Decimal (naturalText integerText)

/-! ## Strings -/

/-- A character that needs no escape is read as itself. -/
theorem readUnits_plain {c : Char} (small : ¬c.toNat < 0x20) (quote : c ≠ '"')
    (slash : c ≠ '\\') (rest : List Char) :
    readUnits (c :: rest) = (readUnits rest).map fun p => (c.toNat :: p.1, p.2) := by
  rw [readUnits.eq_def]
  split
  · rename_i empty
    cases empty
  · rename_i heq
    injection heq with head _
    exact absurd head quote
  · rename_i heq
    injection heq with head _
    exact absurd head slash
  · rename_i heq
    injection heq with head _
    exact absurd head slash
  · rename_i heq
    injection heq with head tail
    subst head tail
    rw [if_neg (by simp [small, slash])]
    cases readUnits rest <;> rfl

/-- Reading the text of one character of a string gives its number. -/
theorem readUnits_stringChar (c : Char) (rest : List Char) :
    readUnits (stringChar c ++ rest) =
      (readUnits rest).map fun p => (c.toNat :: p.1, p.2) := by
  unfold stringChar
  split
  · subst c
    cases h : readUnits rest <;> simp [readUnits, h]
  split
  · subst c
    cases h : readUnits rest <;> simp [readUnits, h]
  split
  · rename_i backspace
    cases h : readUnits rest <;> simp [readUnits, h, backspace]
  split
  · subst c
    cases h : readUnits rest <;> simp [readUnits, h]
  split
  · subst c
    cases h : readUnits rest <;> simp [readUnits, h]
  split
  · rename_i formFeed
    cases h : readUnits rest <;> simp [readUnits, h, formFeed]
  split
  · subst c
    cases h : readUnits rest <;> simp [readUnits, h]
  split
  · have value : Text.hexNumber? (Text.hexDigits 4 c.toNat) = some c.toNat := by
      apply Text.hexNumber?_hexDigits
      show c.toNat < 65536
      omega
    match hd : Text.hexDigits 4 c.toNat, Text.length_hexDigits 4 c.toNat with
    | [a, b, d, e], _ =>
      rw [hd] at value
      cases h : readUnits rest <;> simp [readUnits, h, value]
  · exact readUnits_plain ‹_› ‹_› ‹_› rest

/-- The characters of a string and its closing quote are read as their numbers. -/
theorem readUnits_flatMap_stringChar (cs rest : List Char) :
    readUnits (cs.flatMap stringChar ++ '"' :: rest) = some (cs.map Char.toNat, rest) := by
  induction cs with
  | nil => simp [readUnits]
  | cons c cs ih =>
    rw [List.flatMap_cons, List.append_assoc, readUnits_stringChar, ih]
    rfl

theorem readString_stringText (s : String) (rest : List Char) :
    ∃ body, stringText s ++ rest = '"' :: body ∧ readString body = some (s, rest) := by
  refine ⟨s.toList.flatMap stringChar ++ '"' :: rest, by simp [stringText], ?_⟩
  simp [readString, readUnits_flatMap_stringChar, Text.ofUnits?_map_toNat]

/-! ## Numbers -/

/-- A text that does not go on a number that ends before it. -/
def EndsNumber (cs : List Char) : Prop :=
  ∀ c ∈ cs.head?, c.isDigit = false ∧ c ≠ '.' ∧ c ≠ 'e' ∧ c ≠ 'E'

/-- The digits before a text that does not go on a number are split off whole. -/
theorem takeWhile_isDigit {digits rest : List Char} (h : ∀ c ∈ digits, c.isDigit = true)
    (stop : EndsNumber rest) :
    (digits ++ rest).takeWhile Char.isDigit = digits ∧
      (digits ++ rest).dropWhile Char.isDigit = rest := by
  rw [List.takeWhile_append_of_pos h, List.dropWhile_append_of_pos h]
  cases rest with
  | nil => simp
  | cons c rest => simp [(stop c rfl).1]

theorem naturalText_append_ne_minus (n : Nat) (rest tail : List Char) :
    naturalText n ++ rest ≠ '-' :: tail := by
  intro e
  cases hn : naturalText n with
  | nil => exact Decimal.naturalText_ne_nil n hn
  | cons d ds =>
    rw [hn, List.cons_append] at e
    injection e with hd _
    subst hd
    exact Decimal.minus_notMem_naturalText n (hn ▸ List.mem_cons_self)

/-- A written natural number is read as an integral part, with or without a sign. -/
theorem readIntegral_naturalText (n : Nat) {rest : List Char} (stop : EndsNumber rest) :
    readIntegral (naturalText n ++ rest) = some (false, naturalText n, rest) ∧
      readIntegral ('-' :: (naturalText n ++ rest)) = some (true, naturalText n, rest) := by
  obtain ⟨take, drop⟩ :=
    takeWhile_isDigit (fun _ => Decimal.isDigit_of_mem_naturalText (n := n)) stop
  -- The digits are neither missing nor led by a zero, which settles both readings.
  have nonempty := Decimal.naturalText_ne_nil n
  have unpadded : ∀ d ds, naturalText n ≠ '0' :: d :: ds := by
    intro d ds padded
    cases Decimal.eq_nil_of_naturalText_eq_zero_cons padded
  constructor
  · have plain := naturalText_append_ne_minus n rest
    simp only [readIntegral, take, drop]
  · simp only [readIntegral, take, drop]

theorem readFraction_of_endsNumber {rest : List Char} (stop : EndsNumber rest) :
    readFraction rest = some (none, rest) := by
  cases rest with
  | nil => rfl
  | cons c rest =>
    obtain ⟨-, point, -⟩ := stop c rfl
    rw [readFraction]
    intro _ e
    injection e with e _
    exact point e

theorem readExponent_of_endsNumber {rest : List Char} (stop : EndsNumber rest) :
    readExponent rest = some (none, rest) := by
  cases rest with
  | nil => rfl
  | cons c rest =>
    obtain ⟨-, -, lower, upper⟩ := stop c rfl
    rw [readExponent.eq_def]
    simp only
    rw [if_neg (by simp [lower, upper])]

/-- Digits that nothing goes on are read as an integer if that has at most 64 bits. -/
theorem readNumber_of_readIntegral {cs whole rest : List Char} {negative : Bool} {n : Int}
    (integral : readIntegral cs = some (negative, whole, rest)) (stop : EndsNumber rest)
    (value : (if negative then -(Decimal.ofDigits (whole.map fun c => c.toNat - 48) : Int)
      else Decimal.ofDigits (whole.map fun c => c.toNat - 48)) = n)
    (fits : fitsWord n = true) :
    readNumber .strict cs = some (.int n, rest) := by
  have whether : (Option.isNone (none : Option (List Char)) && Option.isNone (none : Option Int) &&
      (Rules.strict.wideIntegers || fitsWord n)) = true := by
    rw [fits, Bool.or_true]
    rfl
  rw [readNumber, integral]
  simp only [Option.bind_eq_bind, Option.bind_some, readFraction_of_endsNumber stop,
    readExponent_of_endsNumber stop, Option.getD_none, List.append_nil, value]
  rw [if_pos whether]
  rfl

theorem readNumber_integerText {n : Int} (fits : fitsWord n = true) {rest : List Char}
    (stop : EndsNumber rest) :
    readNumber .strict (integerText n ++ rest) = some (.int n, rest) := by
  have digits (m : Nat) : Decimal.ofDigits ((naturalText m).map fun c => c.toNat - 48) = m :=
    Decimal.ofDigits_naturalText m
  cases n with
  | ofNat m =>
    refine readNumber_of_readIntegral (readIntegral_naturalText m stop).1 stop ?_ fits
    rw [digits]
    rfl
  | negSucc m =>
    refine readNumber_of_readIntegral (readIntegral_naturalText (m + 1) stop).2 stop ?_ fits
    rw [digits]
    rfl

/-! ## The grammar -/

/-- A text of blanks. -/
def IsGapText (cs : List Char) : Prop :=
  ∀ c ∈ cs, isGap c = true

mutual

/-- `Written v cs`: the text `cs` stands for the document `v`. -/
inductive Written : Value → List Char → Prop where
  | null : Written .null "null".toList
  | true : Written (.bool true) "true".toList
  | false : Written (.bool false) "false".toList
  | int {n : Int} (fits : fitsWord n = true) : Written (.int n) (integerText n)
  | string (s : String) : Written (.string s) (stringText s)
  | emptyArray : Written (.array []) ['[', ']']
  | array {vs : List Value} {gap cs : List Char} (blank : IsGapText gap)
      (items : WrittenItems vs cs) : Written (.array vs) ('[' :: (gap ++ cs))
  | emptyObject : Written (.object []) ['{', '}']
  | object {ms : List (String × Value)} {gap cs : List Char} (blank : IsGapText gap)
      (distinct : (ms.map Prod.fst).Nodup) (members : WrittenMembers ms cs) :
      Written (.object ms) ('{' :: (gap ++ cs))

/-- `WrittenItems vs cs`: the text `cs` gives the items `vs` and closes their array. -/
inductive WrittenItems : List Value → List Char → Prop where
  | last {v : Value} {cs gap : List Char} (item : Written v cs) (blank : IsGapText gap) :
      WrittenItems [v] (cs ++ (gap ++ [']']))
  | more {v : Value} {vs : List Value} {cs gap ds : List Char} (item : Written v cs)
      (blank : IsGapText gap) (items : WrittenItems vs ds) :
      WrittenItems (v :: vs) (cs ++ ',' :: (gap ++ ds))

/-- `WrittenMembers ms cs`: the text `cs` gives the members `ms` and closes their object. -/
inductive WrittenMembers : List (String × Value) → List Char → Prop where
  | last (key : String) {v : Value} {cs lead gap : List Char} (blankLead : IsGapText lead)
      (value : Written v cs) (blank : IsGapText gap) :
      WrittenMembers [(key, v)] (stringText key ++ ':' :: (lead ++ (cs ++ (gap ++ ['}']))))
  | more (key : String) {v : Value} {ms : List (String × Value)} {cs lead gap ds : List Char}
      (blankLead : IsGapText lead) (value : Written v cs) (blank : IsGapText gap)
      (members : WrittenMembers ms ds) :
      WrittenMembers ((key, v) :: ms)
        (stringText key ++ ':' :: (lead ++ (cs ++ ',' :: (gap ++ ds))))

end

theorem skipGap_token {c : Char} (token : isGap c = false) (rest : List Char) :
    skipGap (c :: rest) = c :: rest :=
  List.dropWhile_cons_of_neg (by simp [token])

theorem skipGap_append {gap : List Char} (blank : IsGapText gap) {c : Char}
    (token : isGap c = false) (rest : List Char) :
    skipGap (gap ++ c :: rest) = c :: rest := by
  rw [skipGap, List.dropWhile_append_of_pos blank]
  exact skipGap_token token rest

/-- A token that begins a value: no blank, and nothing that closes a container. -/
def IsHead (c : Char) : Prop :=
  isGap c = false ∧ c ≠ ']' ∧ c ≠ '}'

theorem head_integerText (n : Int) : ∃ c rest, integerText n = c :: rest ∧
    (c.isDigit = true ∨ c = '-') := by
  cases h : integerText n with
  | nil =>
    cases n with
    | ofNat m => exact absurd h (Decimal.naturalText_ne_nil m)
    | negSucc m => cases h
  | cons c rest =>
    exact ⟨c, rest, rfl, Decimal.isDigit_or_minus_of_mem_integerText (h ▸ List.mem_cons_self)⟩

theorem ne_of_isDigit_or_minus {c d : Char} (h : c.isDigit = true ∨ c = '-')
    (digit : d.isDigit = false) (minus : d ≠ '-') : c ≠ d := by
  rintro rfl
  rcases h with h | h
  · rw [h] at digit
    cases digit
  · exact minus h

theorem isHead_of_isDigit_or_minus {c : Char} (h : c.isDigit = true ∨ c = '-') : IsHead c := by
  refine ⟨?_, ne_of_isDigit_or_minus h rfl (by decide), ne_of_isDigit_or_minus h rfl (by decide)⟩
  simp only [isGap, Bool.or_eq_false_iff, beq_eq_false_iff_ne]
  exact ⟨⟨⟨ne_of_isDigit_or_minus h rfl (by decide), ne_of_isDigit_or_minus h rfl (by decide)⟩,
    ne_of_isDigit_or_minus h rfl (by decide)⟩, ne_of_isDigit_or_minus h rfl (by decide)⟩

/-- A written value begins with a token that begins values. -/
theorem Written.head {v : Value} {cs : List Char} (h : Written v cs) :
    ∃ c rest, cs = c :: rest ∧ IsHead c := by
  cases h with
  | null => exact ⟨'n', _, rfl, by simp [IsHead, isGap]⟩
  | true => exact ⟨'t', _, rfl, by simp [IsHead, isGap]⟩
  | false => exact ⟨'f', _, rfl, by simp [IsHead, isGap]⟩
  | @int n fits =>
    obtain ⟨c, rest, e, number⟩ := head_integerText n
    exact ⟨c, rest, e, isHead_of_isDigit_or_minus number⟩
  | string s => exact ⟨'"', _, rfl, by simp [IsHead, isGap]⟩
  | emptyArray => exact ⟨'[', _, rfl, by simp [IsHead, isGap]⟩
  | array => exact ⟨'[', _, rfl, by simp [IsHead, isGap]⟩
  | emptyObject => exact ⟨'{', _, rfl, by simp [IsHead, isGap]⟩
  | object => exact ⟨'{', _, rfl, by simp [IsHead, isGap]⟩


/-! ## The reader finds every written document -/

/-- A comma or a closing bracket does not go on a number. -/
theorem endsNumber_cons {c : Char} (stop : c.isDigit = false ∧ c ≠ '.' ∧ c ≠ 'e' ∧ c ≠ 'E')
    (rest : List Char) : EndsNumber (c :: rest) := by
  intro d hd
  injection hd with hd
  subst hd
  exact stop

theorem endsNumber_gap {gap : List Char} (blank : IsGapText gap) {c : Char}
    (stop : c.isDigit = false ∧ c ≠ '.' ∧ c ≠ 'e' ∧ c ≠ 'E') (rest : List Char) :
    EndsNumber (gap ++ c :: rest) := by
  cases gap with
  | nil => exact endsNumber_cons stop rest
  | cons b gap =>
    intro d hd
    injection hd with hd
    subst hd
    have blank := blank b List.mem_cons_self
    simp only [isGap, Bool.or_eq_true, beq_iff_eq] at blank
    rcases blank with ((rfl | rfl) | rfl) | rfl <;> decide

theorem readValue_integerText {n : Int} (fits : fitsWord n = true) {rest : List Char}
    (stop : EndsNumber rest) (fuel depth : Nat) :
    readValue .strict (fuel + 1) depth (integerText n ++ rest) = some (.int n, rest) := by
  obtain ⟨c, digits, e, number⟩ := head_integerText n
  have unnamed : readNamed .strict (integerText n ++ rest) = none := by
    have null : 'n' ≠ c := (ne_of_isDigit_or_minus number rfl (by decide)).symm
    have true : 't' ≠ c := (ne_of_isDigit_or_minus number rfl (by decide)).symm
    have false : 'f' ≠ c := (ne_of_isDigit_or_minus number rfl (by decide)).symm
    rw [e]
    simp [readNamed, namedValues, Rules.strict, dropLiteral, null, true, false]
  rw [readValue.eq_def]
  simp only
  rw [e, List.cons_append]
  split
  · rename_i quote
    injection quote with quote _
    exact absurd quote (ne_of_isDigit_or_minus number rfl (by decide))
  · rename_i bracket
    injection bracket with bracket _
    exact absurd bracket (ne_of_isDigit_or_minus number rfl (by decide))
  · rename_i brace
    injection brace with brace _
    exact absurd brace (ne_of_isDigit_or_minus number rfl (by decide))
  · rw [← List.cons_append, ← e, unnamed, Option.none_or, readNumber_integerText fits stop]

theorem WrittenItems.head {vs : List Value} {cs : List Char} (h : WrittenItems vs cs) :
    ∃ c rest, cs = c :: rest ∧ IsHead c := by
  cases h with
  | last item =>
    obtain ⟨c, rest, rfl, head⟩ := item.head
    exact ⟨c, _, rfl, head⟩
  | more item =>
    obtain ⟨c, rest, rfl, head⟩ := item.head
    exact ⟨c, _, rfl, head⟩

theorem WrittenMembers.head {ms : List (String × Value)} {cs : List Char}
    (h : WrittenMembers ms cs) : ∃ rest, cs = '"' :: rest := by
  cases h <;> exact ⟨_, rfl⟩

/-- The members of an object with distinct keys are its fields. -/
theorem foldl_putField (fields : List (String × Value)) {ms : List (String × Value)}
    (distinct : ((fields ++ ms).map Prod.fst).Nodup) :
    ms.foldl (fun fields (k, v) => putField k v fields) fields = fields ++ ms := by
  induction ms generalizing fields with
  | nil => simp
  | cons m ms ih =>
    obtain ⟨key, v⟩ := m
    have fresh : ∀ p ∈ fields, p.1 ≠ key := by
      intro p hp e
      rw [List.map_append, List.nodup_append] at distinct
      exact distinct.2.2 _ (List.mem_map_of_mem hp) _ List.mem_cons_self e
    rw [List.foldl_cons]
    show ms.foldl _ (putField key v fields) = _
    rw [putField_of_notMem fresh, ih _ (by simpa using distinct)]
    simp

theorem fieldsOfMembers_of_nodup {ms : List (String × Value)}
    (distinct : (ms.map Prod.fst).Nodup) : fieldsOfMembers ms = ms :=
  foldl_putField [] distinct

/-! ### Single steps of the reader -/

section Steps

variable {rules : Rules} {fuel depth : Nat} {v : Value} {vs : List Value} {key : String}
  {ms : List (String × Value)} {cs body after gapped next rest : List Char} {c : Char}

theorem readValue_array (skip : skipGap body = c :: next) (opened : c ≠ ']')
    (found : readItems rules fuel depth (c :: next) = some (vs, rest)) :
    readValue rules (fuel + 1) (depth + 1) ('[' :: body) = some (.array vs, rest) := by
  rw [readValue]
  simp only [skip]
  split
  · rename_i closed
    injection closed with closed _
    exact absurd closed opened
  · rw [found]
    rfl

theorem readValue_object (skip : skipGap body = c :: next) (opened : c ≠ '}')
    (found : readMembers rules fuel depth (c :: next) = some (ms, rest)) :
    readValue rules (fuel + 1) (depth + 1) ('{' :: body) =
      some (.object (fieldsOfMembers ms), rest) := by
  rw [readValue]
  simp only [skip]
  split
  · rename_i closed
    injection closed with closed _
    exact absurd closed opened
  · rw [found]
    rfl

theorem readItems_last (item : readValue rules fuel depth cs = some (v, after))
    (skip : skipGap after = ']' :: rest) :
    readItems rules (fuel + 1) depth cs = some ([v], rest) := by
  rw [readItems, item]
  simp only [skip]

theorem readItems_more (item : readValue rules fuel depth cs = some (v, after))
    (skip : skipGap after = ',' :: gapped) (skipNext : skipGap gapped = next)
    (found : readItems rules fuel depth next = some (vs, rest)) :
    readItems rules (fuel + 1) depth cs = some (v :: vs, rest) := by
  rw [readItems, item]
  simp only [skip, skipNext, found]
  rfl

theorem readMembers_last (name : readString cs = some (key, ':' :: gapped))
    (skipValue : skipGap gapped = body)
    (value : readValue rules fuel depth body = some (v, after))
    (skip : skipGap after = '}' :: rest) :
    readMembers rules (fuel + 1) depth ('"' :: cs) = some ([(key, v)], rest) := by
  have colon : skipGap (':' :: gapped) = ':' :: gapped := rfl
  rw [readMembers]
  simp only [name, colon, skipValue, value, skip]

theorem readMembers_more {spaced : List Char}
    (name : readString cs = some (key, ':' :: spaced)) (skipValue : skipGap spaced = body)
    (value : readValue rules fuel depth body = some (v, after))
    (skip : skipGap after = ',' :: gapped) (skipNext : skipGap gapped = next)
    (found : readMembers rules fuel depth next = some (ms, rest)) :
    readMembers rules (fuel + 1) depth ('"' :: cs) = some ((key, v) :: ms, rest) := by
  have colon : skipGap (':' :: spaced) = ':' :: spaced := rfl
  rw [readMembers]
  simp only [name, colon, skipValue, value, skip, skipNext, found]
  rfl

end Steps

/-! ### All steps together -/

/-- With the given fuel every written value is found that is short enough. -/
def FindsValues (fuel : Nat) : Prop :=
  ∀ {v : Value} {cs : List Char}, Written v cs → ∀ (depth : Nat) (rest : List Char),
    2 * cs.length ≤ fuel → nesting v ≤ depth → EndsNumber rest →
      readValue .strict fuel depth (cs ++ rest) = some (v, rest)

/-- With the given fuel all written items are found that are short enough. -/
def FindsItems (fuel : Nat) : Prop :=
  ∀ {vs : List Value} {cs : List Char}, WrittenItems vs cs → ∀ (depth : Nat) (rest : List Char),
    2 * cs.length + 1 ≤ fuel → nestingOfItems vs ≤ depth →
      readItems .strict fuel depth (cs ++ rest) = some (vs, rest)

/-- With the given fuel all written members are found that are short enough. -/
def FindsMembers (fuel : Nat) : Prop :=
  ∀ {ms : List (String × Value)} {cs : List Char}, WrittenMembers ms cs →
    ∀ (depth : Nat) (rest : List Char),
      2 * cs.length + 1 ≤ fuel → nestingOfFields ms ≤ depth →
        readMembers .strict fuel depth (cs ++ rest) = some (ms, rest)

theorem findsValues_succ {fuel : Nat} (items : FindsItems fuel) (members : FindsMembers fuel) :
    FindsValues (fuel + 1) := by
  intro v cs written depth rest steps deep stop
  cases written with
  | null => simp [readValue, readNamed, namedValues, dropLiteral]
  | true => simp [readValue, readNamed, namedValues, dropLiteral]
  | false => simp [readValue, readNamed, namedValues, dropLiteral]
  | int fits => exact readValue_integerText fits stop fuel depth
  | string s =>
    obtain ⟨body, e, read⟩ := readString_stringText s rest
    rw [e]
    simp [readValue, read]
  | emptyArray =>
    simp only [nesting, nestingOfItems] at deep
    obtain ⟨depth, rfl⟩ := Nat.exists_eq_add_of_le' deep
    simp [readValue, skipGap, isGap]
  | @array vs gap cs blank written =>
    simp only [nesting, List.length_cons, List.length_append] at deep steps
    obtain ⟨depth, rfl⟩ := Nat.exists_eq_add_of_le' (Nat.le_trans (Nat.le_add_left 1 _) deep)
    have found := items written depth rest (by omega) (by omega)
    obtain ⟨c, tail, rfl, head, opened, -⟩ := written.head
    have skip := skipGap_append blank head (tail ++ rest)
    rw [List.cons_append, List.append_assoc]
    exact readValue_array skip opened found
  | emptyObject =>
    simp only [nesting, nestingOfFields] at deep
    obtain ⟨depth, rfl⟩ := Nat.exists_eq_add_of_le' deep
    simp [readValue, skipGap, isGap]
  | @object ms gap cs blank distinct written =>
    simp only [nesting, List.length_cons, List.length_append] at deep steps
    obtain ⟨depth, rfl⟩ := Nat.exists_eq_add_of_le' (Nat.le_trans (Nat.le_add_left 1 _) deep)
    have found := members written depth rest (by omega) (by omega)
    obtain ⟨tail, rfl⟩ := written.head
    have skip := skipGap_append blank (c := '"') rfl (tail ++ rest)
    rw [List.cons_append, List.append_assoc, ← fieldsOfMembers_of_nodup distinct]
    exact readValue_object skip (by decide) found

theorem findsItems_succ {fuel : Nat} (value : FindsValues fuel) (items : FindsItems fuel) :
    FindsItems (fuel + 1) := by
  intro vs cs written depth rest steps deep
  cases written with
  | @last v cs gap item blank =>
    simp only [nestingOfItems, List.length_append] at deep steps
    have skip := skipGap_append blank (c := ']') rfl rest
    have read := value item depth (gap ++ ']' :: rest) (by omega)
      (by omega) (endsNumber_gap blank (by decide) rest)
    rw [List.append_assoc, List.append_assoc]
    exact readItems_last read skip
  | @more v vs cs gap ds item blank written =>
    simp only [nestingOfItems, List.length_append, List.length_cons] at deep steps
    have found := items written depth rest (by omega) (by omega)
    obtain ⟨c, tail, rfl, head, -⟩ := written.head
    have skip := skipGap_append blank head (tail ++ rest)
    have read := value item depth (',' :: (gap ++ (c :: tail ++ rest)))
      (by omega) (by omega) (endsNumber_cons (by decide) _)
    rw [List.append_assoc, List.cons_append, List.append_assoc]
    exact readItems_more read rfl skip found

theorem findsMembers_succ {fuel : Nat} (value : FindsValues fuel) (members : FindsMembers fuel) :
    FindsMembers (fuel + 1) := by
  intro ms cs written depth rest steps deep
  cases written with
  | @last key v cs lead gap blankLead item blank =>
    simp only [nestingOfFields, List.length_append, List.length_cons] at deep steps
    obtain ⟨body, e, name⟩ :=
      readString_stringText key (':' :: (lead ++ (cs ++ (gap ++ '}' :: rest))))
    have skip := skipGap_append blank (c := '}') rfl rest
    have read := value item depth (gap ++ '}' :: rest) (by omega)
      (by omega) (endsNumber_gap blank (by decide) rest)
    obtain ⟨c, tail, rfl, head, -⟩ := item.head
    have skipLead := skipGap_append blankLead head (tail ++ (gap ++ '}' :: rest))
    simp only [List.append_assoc, List.cons_append, List.nil_append] at e read name ⊢
    rw [e]
    exact readMembers_last name skipLead read skip
  | @more key v ms cs lead gap ds blankLead item blank written =>
    simp only [nestingOfFields, List.length_append, List.length_cons] at deep steps
    obtain ⟨body, e, name⟩ :=
      readString_stringText key (':' :: (lead ++ (cs ++ ',' :: (gap ++ (ds ++ rest)))))
    have found := members written depth rest (by omega) (by omega)
    have read := value item depth (',' :: (gap ++ (ds ++ rest)))
      (by omega) (by omega) (endsNumber_cons (by decide) _)
    obtain ⟨tail, rfl⟩ := written.head
    have skip := skipGap_append blank (c := '"') rfl (tail ++ rest)
    obtain ⟨c, text, rfl, head, -⟩ := item.head
    have skipLead := skipGap_append blankLead head (text ++ ',' :: (gap ++ ('"' :: tail ++ rest)))
    simp only [List.append_assoc, List.cons_append] at e read name found skip skipLead ⊢
    rw [e]
    exact readMembers_more name skipLead read rfl skip found

/-- Two steps for each character are fuel enough. -/
theorem finds_all (fuel : Nat) : FindsValues fuel ∧ FindsItems fuel ∧ FindsMembers fuel := by
  induction fuel with
  | zero =>
    refine ⟨?_, fun _ _ _ steps => absurd steps (by omega),
      fun _ _ _ steps => absurd steps (by omega)⟩
    intro v cs written depth rest steps
    obtain ⟨c, tail, rfl, -⟩ := written.head
    simp at steps
  | succ fuel ih =>
    obtain ⟨value, items, members⟩ := ih
    exact ⟨findsValues_succ items members, findsItems_succ value items,
      findsMembers_succ value members⟩

/-- The strict reader finds a document of moderate depth in every text that stands for it. -/
theorem parse?_of_written {v : Value} {cs : List Char} (written : Written v cs)
    (deep : nesting v ≤ Rules.strict.depthLimit) : parse? .strict cs = some v := by
  have found := (finds_all (2 * cs.length + 2)).1 written _ [] (by omega) deep
    (by simp [EndsNumber])
  obtain ⟨c, tail, rfl, head, -⟩ := written.head
  rw [List.append_nil] at found
  rw [parse?, skipGap_token head, found]
  rfl

end CallSiteIds.Json
