import CallSiteIds.Toml.Document
import Mathlib.Data.List.Basic

/-!
# Faults of TOML texts

A text is faulty because it is no TOML, or because one of its integers is too long.  What a reader
leaves of a text is an end of it, so the digits of a long integer are digits of the text
(`longInteger_of_read`).  A text with no more digits than an integer may have is never faulty for
an integer, and with one digit more it may be (`read_onesText`).
-/

set_option autoImplicit false

namespace CallSiteIds.Toml

open Json (Value)

/-- The number of decimal digits in a text. -/
def digitCount (cs : List Char) : Nat :=
  (cs.filter Char.isDigit).length

theorem digitCount_le {cs ds : List Char} (part : ds.Sublist cs) : digitCount ds ≤ digitCount cs :=
  (part.filter _).length_le

/-! ## Results of readers -/

section

variable {α β : Type} {cs ds : List Char} {left : α → List Char} {next : β → List Char}
  {x : Except Fault α}

/-- A result that was read from a text: what is left is an end of the text, and an integer that is
too long is made of its digits. -/
structure IsReadFrom (cs : List Char) (left : α → List Char) (x : Except Fault α) : Prop where
  suffix : ∀ a, x = .ok a → left a <:+ cs
  long : ∀ digits, x = .error (.longInteger digits) →
    Decimal.digitLimit < digits ∧ digits ≤ digitCount cs

namespace IsReadFrom

theorem ok {a : α} (h : left a <:+ cs) : IsReadFrom cs left (.ok a) where
  suffix := by
    rintro _ ⟨⟩
    exact h
  long := by
    rintro _ ⟨⟩

theorem malformed : IsReadFrom cs left (.error .malformed) where
  suffix := by
    rintro _ ⟨⟩
  long := by
    rintro _ ⟨⟩

/-- What is read from an end of a text is read from the text. -/
theorem mono (h : IsReadFrom ds left x) (later : ds <:+ cs) : IsReadFrom cs left x where
  suffix := fun a read => (h.suffix a read).trans later
  long := fun digits read =>
    ⟨(h.long digits read).1, Nat.le_trans (h.long digits read).2 (digitCount_le later.sublist)⟩

/-- A fault is the same wherever the reading would have gone on. -/
theorem error {e : Fault} (h : IsReadFrom cs left (.error e : Except Fault α)) :
    IsReadFrom cs next (.error e) where
  suffix := by
    rintro _ ⟨⟩
  long := by
    rintro digits ⟨⟩
    exact h.long digits rfl

theorem bind {f : α → Except Fault β} (h : IsReadFrom cs left x)
    (later : ∀ a, IsReadFrom (left a) next (f a)) : IsReadFrom cs next (x >>= f) := by
  cases x with
  | ok a => exact (later a).mono (h.suffix a rfl)
  | error e => exact h.error

theorem map {f : α → β} (h : IsReadFrom cs left x) (later : ∀ a, next (f a) <:+ left a) :
    IsReadFrom cs next (x.map f) := by
  cases x with
  | ok a => exact ok ((later a).trans (h.suffix a rfl))
  | error e => exact h.error

/-- What is made of the value leaves what follows as it is. -/
theorem mapFst {y : Except Fault (α × List Char)} (h : IsReadFrom cs Prod.snd y) (f : α → β) :
    IsReadFrom cs Prod.snd (y.map fun (a, rest) => (f a, rest)) :=
  h.map fun _ => List.suffix_refl _

end IsReadFrom

end

open IsReadFrom (malformed)

/-! ## Strings -/

theorem isReadFrom_readLiteral (cs : List Char) : IsReadFrom cs Prod.snd (readLiteral cs) := by
  induction cs with
  | nil => exact malformed
  | cons c rest ih =>
    rw [readLiteral]
    split
    · exact .ok (List.suffix_cons _ _)
    · split
      · exact malformed
      · refine (ih.bind ?_).mono (List.suffix_cons _ _)
        exact fun _ => .ok (List.suffix_refl _)

theorem isReadFrom_readLiteralLines (cs : List Char) :
    IsReadFrom cs Prod.snd (readLiteralLines cs) := by
  fun_induction readLiteralLines cs with
  | case1 rest => exact .ok ⟨['\'', '\'', '\''], rfl⟩
  | case2 => exact malformed
  | case3 => exact malformed
  | case4 c rest _ _ ih =>
    refine (ih.bind ?_).mono (List.suffix_cons _ _)
    exact fun _ => .ok (List.suffix_refl _)

theorem isReadFrom_readBasic (lines : Bool) (skip : Skip) (cs : List Char) :
    IsReadFrom cs Prod.snd (readBasic lines skip cs) := by
  fun_induction readBasic lines skip cs with
  | case1 | case4 | case10 | case12 | case16 | case17 | case18 => exact malformed
  -- A character is skipped, or two after a backslash.
  | case2 _ _ _ ih | case3 _ _ ih | case5 _ _ _ _ _ ih =>
    exact ih.mono (List.suffix_cons _ _)
  | case13 _ _ e _ _ _ _ _ _ ih | case14 _ _ e _ _ _ _ _ _ _ ih =>
    exact ih.mono ⟨['\\', e], rfl⟩
  -- The string ends.
  | case6 => exact .ok ⟨['"', '"', '"'], rfl⟩
  | case8 => exact .ok (List.suffix_cons _ _)
  -- A character is kept, as it is or as what an escape stands for.
  | case7 _ _ _ _ _ _ _ ih | case19 _ _ _ _ _ _ _ _ _ ih =>
    exact (ih.mapFst _).mono (List.suffix_cons _ _)
  | case9 _ _ _ a b c d _ _ _ _ _ ih => exact (ih.mapFst _).mono ⟨['\\', 'u', a, b, c, d], rfl⟩
  | case11 _ _ _ a b c d e f g h _ _ _ _ _ ih =>
    exact (ih.mapFst _).mono ⟨['\\', 'U', a, b, c, d, e, f, g, h], rfl⟩
  | case15 _ _ _ e _ _ _ _ _ _ _ _ _ ih => exact (ih.mapFst _).mono ⟨['\\', e], rfl⟩

theorem suffix_withLastQuotes (quote : Char) (text rest : List Char) :
    (withLastQuotes quote text rest).2 <:+ rest := by
  fun_cases withLastQuotes quote text rest with
  | case1 rest => exact ⟨[quote, quote], rfl⟩
  | case2 b rest => exact List.suffix_cons _ _
  | case4 => exact List.suffix_cons _ _
  | case3 | case5 | case6 => exact List.suffix_refl _

theorem suffix_dropFirstFeed (cs : List Char) : dropFirstFeed cs <:+ cs := by
  fun_cases dropFirstFeed cs with
  | case1 => exact List.suffix_cons _ _
  | case2 => exact List.suffix_refl _

theorem isReadFrom_readString? {cs : List Char} {x : Except Fault (String × List Char)}
    (h : readString? cs = some x) : IsReadFrom cs Prod.snd x := by
  unfold readString? at h
  split at h <;> cases h
  · rename_i rest
    refine .mono (.map (isReadFrom_readBasic true .nothing _) fun a => ?_) ?_
    · exact suffix_withLastQuotes '"' a.1 a.2
    · exact (suffix_dropFirstFeed rest).trans ⟨['"', '"', '"'], rfl⟩
  · exact ((isReadFrom_readBasic false .nothing _).mapFst String.ofList).mono
      (List.suffix_cons _ _)
  · rename_i rest
    refine .mono (.map (isReadFrom_readLiteralLines _) fun a => ?_) ?_
    · exact suffix_withLastQuotes '\'' a.1 a.2
    · exact (suffix_dropFirstFeed rest).trans ⟨['\'', '\'', '\''], rfl⟩
  · exact ((isReadFrom_readLiteral _).mapFst String.ofList).mono (List.suffix_cons _ _)

/-! ## Dates and times -/

theorem suffix_skipFraction (cs : List Char) : skipFraction cs <:+ cs := by
  fun_cases skipFraction cs with
  | case1 c rest => exact (List.dropWhile_suffix _).trans ⟨['.', c], rfl⟩
  | case2 | case3 => exact List.suffix_refl _

theorem suffix_of_afterTime? {cs rest : List Char} (h : afterTime? cs = some rest) :
    rest <:+ cs := by
  unfold afterTime? at h
  split at h
  · rename_i a b c d e f after
    simp only [Option.bind_eq_bind, Option.bind_eq_some_iff] at h
    obtain ⟨_, -, _, -, _, -, h⟩ := h
    injection h with h
    subst h
    exact (suffix_skipFraction after).trans ⟨[a, b, ':', c, d, ':', e, f], rfl⟩
  · cases h

theorem suffix_skipOffset (cs : List Char) : skipOffset cs <:+ cs := by
  fun_cases skipOffset cs with
  | case1 | case2 => exact List.suffix_cons _ _
  | case3 sign a b c d rest => exact ⟨[sign, a, b, ':', c, d], rfl⟩
  | case4 | case5 => exact List.suffix_refl _

theorem suffix_skipDateTime (cs : List Char) : skipDateTime cs <:+ cs := by
  fun_cases skipDateTime cs with
  | case1 c rest _ after read =>
    exact ((suffix_skipOffset after).trans (suffix_of_afterTime? read)).trans
      (List.suffix_cons _ _)
  | case2 | case3 | case4 => exact List.suffix_refl _

theorem suffix_of_readDate? {cs rest : List Char} {exists_ : Bool}
    (h : readDate? cs = some (exists_, rest)) : rest <:+ cs := by
  unfold readDate? at h
  split at h
  · simp only [Option.bind_eq_bind, Option.bind_eq_some_iff] at h
    obtain ⟨_, -, _, -, _, -, _, -, h⟩ := h
    injection h with h
    injection h with _ h
    subst h
    exact ⟨_ :: _ :: _ :: _ :: '-' :: _ :: _ :: '-' :: _ :: [_], rfl⟩
  · cases h

theorem isReadFrom_readMoment? {cs : List Char} {x : Except Fault (Value × List Char)}
    (h : readMoment? cs = some x) : IsReadFrom cs Prod.snd x := by
  unfold readMoment? at h
  split at h
  · rename_i exists_ rest date
    injection h with h
    subst h
    split
    · exact .ok ((suffix_skipDateTime rest).trans (suffix_of_readDate? date))
    · exact malformed
  · obtain ⟨rest, time, rfl⟩ := Option.map_eq_some_iff.1 h
    exact .ok (suffix_of_afterTime? time)

/-! ## Numbers -/

theorem digitsAfter_spec (test : Char → Bool) (cs : List Char) :
    (digitsAfter test cs).2 <:+ cs ∧ (digitsAfter test cs).1.Sublist (cs.filter test) := by
  fun_induction digitsAfter test cs with
  | case1 => exact ⟨List.suffix_refl _, List.nil_sublist _⟩
  | case2 => exact ⟨List.suffix_refl _, List.nil_sublist _⟩
  | case3 c rest passes digits after same ih =>
    rw [same] at ih
    refine ⟨ih.1.trans ⟨['_', c], rfl⟩, ?_⟩
    have kept : (c :: rest).filter test = c :: rest.filter test := List.filter_cons_of_pos passes
    have later := (List.sublist_cons_self '_' (c :: rest)).filter test
    rw [kept] at later
    exact (ih.2.cons_cons c).trans later
  | case4 => exact ⟨List.suffix_refl _, List.nil_sublist _⟩
  | case5 c rest _ _ passes digits after same ih =>
    rw [same] at ih
    refine ⟨ih.1.trans (List.suffix_cons _ _), ?_⟩
    rw [List.filter_cons_of_pos passes]
    exact ih.2.cons_cons c
  | case6 => exact ⟨List.suffix_refl _, List.nil_sublist _⟩

theorem spec_of_readDigits? {test : Char → Bool} {cs digits rest : List Char}
    (h : readDigits? test cs = some (digits, rest)) :
    rest <:+ cs ∧ digits.Sublist (cs.filter test) := by
  unfold readDigits? at h
  split at h
  · cases h
  · rename_i c cs
    split at h
    · rename_i passes
      injection h with h
      injection h with front back
      subst front back
      have spec := digitsAfter_spec test cs
      rw [List.filter_cons_of_pos passes]
      exact ⟨spec.1.trans (List.suffix_cons _ _), spec.2.cons_cons c⟩
    · cases h

theorem suffix_of_readBased? {cs rest : List Char} {v : Value}
    (h : readBased? cs = some (v, rest)) : rest <:+ cs := by
  unfold readBased? at h
  split at h
  · rename_i letter cs
    simp only [Option.bind_eq_bind, Option.bind_eq_some_iff] at h
    obtain ⟨_, -, ⟨digits, after⟩, read, h⟩ := h
    injection h with h
    injection h with _ h
    subst h
    exact (spec_of_readDigits? read).1.trans ⟨['0', letter], rfl⟩
  · cases h

theorem suffix_readSign (cs : List Char) : (readSign cs).2 <:+ cs := by
  fun_cases readSign cs with
  | case1 | case2 => exact List.suffix_cons _ _
  | case3 => exact List.suffix_refl _

theorem spec_of_readWhole? {cs digits rest : List Char}
    (h : readWhole? cs = some (digits, rest)) :
    rest <:+ cs ∧ digits.Sublist (cs.filter Char.isDigit) := by
  unfold readWhole? at h
  split at h
  · rename_i after
    injection h with h
    injection h with front back
    subst front back
    rw [List.filter_cons_of_pos (by decide)]
    exact ⟨List.suffix_cons _ _, (List.nil_sublist _).cons_cons '0'⟩
  · exact spec_of_readDigits? h

theorem suffix_readPlaces (cs : List Char) : (readPlaces cs).2 <:+ cs := by
  fun_cases readPlaces cs with
  | case1 rest digits after read =>
    exact (spec_of_readDigits? read).1.trans (List.suffix_cons _ _)
  | case2 | case3 => exact List.suffix_refl _

theorem suffix_readPower (cs : List Char) : (readPower cs).2 <:+ cs := by
  fun_cases readPower cs with
  | case2 mark rest _ sign after signed digits back read =>
    have signs := suffix_readSign rest
    rw [signed] at signs
    exact ((spec_of_readDigits? read).1.trans signs).trans (List.suffix_cons _ _)
  | case1 | case3 | case4 => exact List.suffix_refl _

theorem isReadFrom_readDecimal? {cs : List Char} {x : Except Fault (Value × List Char)}
    (h : readDecimal? cs = some x) : IsReadFrom cs Prod.snd x := by
  unfold readDecimal? at h
  simp only [Option.bind_eq_bind, Option.bind_eq_some_iff] at h
  obtain ⟨⟨whole, after⟩, read, h⟩ := h
  obtain ⟨back, digits⟩ := spec_of_readWhole? read
  have number := back.trans (suffix_readSign cs)
  have ending : (readPower (readPlaces after).2).2 <:+ cs :=
    ((suffix_readPower _).trans (suffix_readPlaces _)).trans number
  have counted : whole.length ≤ digitCount cs :=
    Nat.le_trans digits.length_le (digitCount_le (suffix_readSign cs).sublist)
  split at h
  · split at h
    · rename_i tooLong
      injection h with h
      subst h
      refine ⟨?_, ?_⟩
      · rintro _ ⟨⟩
      · rintro _ ⟨⟩
        exact ⟨tooLong, counted⟩
    · injection h with h
      subst h
      exact .ok ending
  · injection h with h
    subst h
    exact .ok ending

theorem suffix_of_readWord? {cs rest : List Char} {v : Value}
    (h : readWord? cs = some (v, rest)) : rest <:+ cs := by
  unfold readWord? at h
  split at h <;> cases h
  · exact ⟨['t', 'r', 'u', 'e'], rfl⟩
  · exact ⟨['f', 'a', 'l', 's', 'e'], rfl⟩

theorem suffix_of_readNonFinite? {cs rest : List Char} {v : Value}
    (h : readNonFinite? cs = some (v, rest)) : rest <:+ cs := by
  have signs := suffix_readSign cs
  unfold readNonFinite? at h
  simp only at h
  split at h <;> rename_i same
  · cases h
    rw [same] at signs
    exact List.IsSuffix.trans ⟨['i', 'n', 'f'], rfl⟩ signs
  · cases h
    rw [same] at signs
    exact List.IsSuffix.trans ⟨['n', 'a', 'n'], rfl⟩ signs
  · cases h

theorem isReadFrom_readScalar (cs : List Char) : IsReadFrom cs Prod.snd (readScalar cs) := by
  unfold readScalar
  split
  · rename_i text read
    exact (isReadFrom_readString? read).mapFst Value.string
  split
  · rename_i read
    exact .ok (suffix_of_readWord? read)
  split
  · rename_i read
    exact isReadFrom_readMoment? read
  split
  · rename_i read
    exact .ok (suffix_of_readBased? read)
  split
  · rename_i read
    exact isReadFrom_readDecimal? read
  split
  · rename_i read
    exact .ok (suffix_of_readNonFinite? read)
  · exact malformed

/-! ## Keys and values -/

theorem suffix_skipGap (cs : List Char) : skipGap cs <:+ cs :=
  List.dropWhile_suffix _

theorem isReadFrom_readKeyPart (cs : List Char) : IsReadFrom cs Prod.snd (readKeyPart cs) := by
  unfold readKeyPart
  split
  · exact malformed
  · exact ((isReadFrom_readBasic false .nothing _).mapFst String.ofList).mono
      (List.suffix_cons _ _)
  · exact ((isReadFrom_readLiteral _).mapFst String.ofList).mono (List.suffix_cons _ _)
  · split
    · exact .ok ((List.dropWhile_suffix _).trans (List.suffix_cons _ _))
    · exact malformed

theorem isReadFrom_readParts (fuel : Nat) (cs : List Char) :
    IsReadFrom cs Prod.snd (readParts fuel cs) := by
  induction fuel generalizing cs with
  | zero => exact malformed
  | succ fuel ih =>
    rw [readParts]
    refine (isReadFrom_readKeyPart cs).bind ?_
    rintro ⟨part, rest⟩
    have gap := suffix_skipGap rest
    simp only
    split <;> rename_i same
    · rw [same] at gap
      have next := ((suffix_skipGap _).trans (List.suffix_cons _ _)).trans gap
      refine ((ih _).bind ?_).mono next
      exact fun _ => .ok (List.suffix_refl _)
    · exact .ok gap

theorem isReadFrom_readKey (cs : List Char) : IsReadFrom cs Prod.snd (readKey cs) :=
  isReadFrom_readParts _ cs

theorem isReadFrom_skipFiller (inComment : Bool) (cs : List Char) :
    IsReadFrom cs id (skipFiller inComment cs) := by
  fun_induction skipFiller inComment cs with
  | case1 => exact .ok (List.suffix_refl _)
  | case3 => exact malformed
  | case2 _ ih | case4 _ _ _ _ ih | case5 _ _ _ _ _ ih | case6 _ _ _ _ ih =>
    exact ih.mono (List.suffix_cons _ _)
  | case7 => exact .ok (List.suffix_refl _)

/-- What is decided without reading leaves the text as it is. -/
theorem isReadFrom_orMalformed {α : Type} (cs : List Char) (x : Option α) :
    IsReadFrom cs (fun _ => cs) (orMalformed x) := by
  cases x with
  | none => exact malformed
  | some a => exact .ok (List.suffix_refl _)

section

variable {fuel : Nat}

/-- A value is read in one step from the readers of items and fields. -/
theorem isReadFrom_readValue_succ
    (items : ∀ cs, IsReadFrom cs Prod.snd (readItems fuel cs))
    (fields : ∀ table cs, IsReadFrom cs Prod.snd (readFields fuel table cs)) (cs : List Char) :
    IsReadFrom cs Prod.snd (readValue (fuel + 1) cs) := by
  unfold readValue
  split
  · refine ((isReadFrom_skipFiller false _).bind ?_).mono (List.suffix_cons _ _)
    intro rest
    split
    · exact .ok (List.suffix_cons _ _)
    · exact (items _).bind fun _ => .ok (List.suffix_refl _)
  · rename_i rest
    have gap := (suffix_skipGap rest).trans (List.suffix_cons '{' rest)
    split <;> rename_i same
    · rw [same] at gap
      exact .ok ((List.suffix_cons _ _).trans gap)
    · exact (fields _ _).mono gap
  · exact isReadFrom_readScalar _

theorem isReadFrom_readItems_succ
    (value : ∀ cs, IsReadFrom cs Prod.snd (readValue fuel cs))
    (items : ∀ cs, IsReadFrom cs Prod.snd (readItems fuel cs)) (cs : List Char) :
    IsReadFrom cs Prod.snd (readItems (fuel + 1) cs) := by
  rw [readItems]
  refine (value cs).bind ?_
  rintro ⟨first, rest⟩
  refine (isReadFrom_skipFiller false rest).bind ?_
  intro rest
  simp only [id_eq]
  split
  · exact .ok (List.suffix_cons _ _)
  · refine ((isReadFrom_skipFiller false _).bind ?_).mono (List.suffix_cons _ _)
    intro rest
    split
    · exact .ok (List.suffix_cons _ _)
    · exact (items _).bind fun _ => .ok (List.suffix_refl _)
  · exact malformed

theorem isReadFrom_readFields_succ
    (value : ∀ cs, IsReadFrom cs Prod.snd (readValue fuel cs))
    (fields : ∀ table cs, IsReadFrom cs Prod.snd (readFields fuel table cs))
    (table : InlineTable) (cs : List Char) :
    IsReadFrom cs Prod.snd (readFields (fuel + 1) table cs) := by
  rw [readFields]
  refine (isReadFrom_readKey cs).bind ?_
  rintro ⟨key, rest⟩
  simp only
  split
  · refine ((value _).bind ?_).mono ((suffix_skipGap _).trans (List.suffix_cons _ _))
    rintro ⟨first, rest⟩
    refine (isReadFrom_orMalformed rest _).bind ?_
    intro table
    have gap := suffix_skipGap rest
    simp only
    split <;> rename_i same
    · rw [same] at gap
      exact .ok ((List.suffix_cons _ _).trans gap)
    · rw [same] at gap
      exact (fields _ _).mono (((suffix_skipGap _).trans (List.suffix_cons _ _)).trans gap)
    · exact malformed
  · exact malformed

end

/-- Values, items and fields are read from their texts, whatever the fuel. -/
theorem isReadFrom_readValue_readItems_readFields (fuel : Nat) :
    (∀ cs, IsReadFrom cs Prod.snd (readValue fuel cs)) ∧
      (∀ cs, IsReadFrom cs Prod.snd (readItems fuel cs)) ∧
      ∀ table cs, IsReadFrom cs Prod.snd (readFields fuel table cs) := by
  induction fuel with
  | zero =>
    simp only [readValue, readItems, readFields]
    exact ⟨fun _ => malformed, fun _ => malformed, fun _ _ => malformed⟩
  | succ fuel ih =>
    obtain ⟨value, items, fields⟩ := ih
    exact ⟨isReadFrom_readValue_succ items fields, isReadFrom_readItems_succ value items,
      isReadFrom_readFields_succ value fields⟩

theorem isReadFrom_readPair (cs : List Char) : IsReadFrom cs Prod.snd (readPair cs) := by
  unfold readPair
  refine (isReadFrom_readKey cs).bind ?_
  rintro ⟨key, rest⟩
  simp only
  split
  · refine (((isReadFrom_readValue_readItems_readFields _).1 _).bind ?_).mono
      ((suffix_skipGap _).trans (List.suffix_cons _ _))
    exact fun _ => .ok (List.suffix_refl _)
  · exact malformed

/-! ## Documents -/

theorem isReadFrom_readStatement (s : State) (cs : List Char) :
    IsReadFrom cs Prod.snd (readStatement s cs) := by
  unfold readStatement
  split
  · exact .ok (List.suffix_refl _)
  · rename_i rest
    refine ((isReadFrom_readKey _).bind ?_).mono ((suffix_skipGap rest).trans ⟨['[', '['], rfl⟩)
    rintro ⟨key, rest⟩
    refine (isReadFrom_orMalformed rest _).bind ?_
    intro s
    split
    · exact .ok ⟨[']', ']'], rfl⟩
    · exact malformed
  · rename_i rest _
    refine ((isReadFrom_readKey _).bind ?_).mono
      ((suffix_skipGap rest).trans (List.suffix_cons _ _))
    rintro ⟨key, rest⟩
    refine (isReadFrom_orMalformed rest _).bind ?_
    intro s
    split
    · exact .ok (List.suffix_cons _ _)
    · exact malformed
  · refine (isReadFrom_readPair cs).bind ?_
    rintro ⟨⟨key, value⟩, rest⟩
    refine (isReadFrom_orMalformed rest _).bind ?_
    exact fun _ => .ok (List.suffix_refl _)

theorem isReadFrom_skipComment (cs : List Char) : IsReadFrom cs id (skipComment cs) := by
  unfold skipComment
  split
  · split
    · exact malformed
    · exact .ok ((List.dropWhile_suffix _).trans (List.suffix_cons _ _))
  · exact .ok (List.suffix_refl _)

/-- Nothing is left of a text that is read to its end. -/
theorem isReadFrom_readStatements (fuel : Nat) (s : State) (cs : List Char) :
    IsReadFrom cs (fun _ => []) (readStatements fuel s cs) := by
  induction fuel generalizing s cs with
  | zero => exact malformed
  | succ fuel ih =>
    rw [readStatements]
    have gap := suffix_skipGap cs
    split <;> rename_i same
    · exact .ok (List.nil_suffix)
    · rw [same] at gap
      exact (ih _ _).mono ((List.suffix_cons _ _).trans gap)
    · refine ((isReadFrom_readStatement s _).bind ?_).mono gap
      rintro ⟨s, rest⟩
      refine ((isReadFrom_skipComment _).bind ?_).mono (suffix_skipGap rest)
      intro rest
      simp only [id_eq]
      split
      · exact .ok (List.nil_suffix)
      · exact (ih _ _).mono (List.suffix_cons _ _)
      · exact malformed

theorem foldPairs_sublist (cs : List Char) : (foldPairs cs).Sublist cs := by
  fun_induction foldPairs cs with
  | case1 => exact List.Sublist.refl _
  | case2 rest ih => exact (ih.cons_cons '\n').cons '\r'
  | case3 c rest _ ih => exact ih.cons_cons c

/-- An integer that is too long has as many digits as the text at the most. -/
theorem longInteger_of_read {cs : List Char} {digits : Nat}
    (h : read cs = .error (.longInteger digits)) :
    Decimal.digitLimit < digits ∧ digits ≤ digitCount cs := by
  obtain ⟨tooLong, counted⟩ := (isReadFrom_readStatements _ _ _).long digits h
  exact ⟨tooLong, Nat.le_trans counted (digitCount_le (foldPairs_sublist cs))⟩

/-! ## Integers that are too long -/

/-- The text that sets a field to an integer of a number of ones. -/
def onesText (n : Nat) : List Char :=
  'x' :: '=' :: List.replicate n '1'

theorem digitsAfter_replicate (n : Nat) :
    digitsAfter Char.isDigit (List.replicate n '1') = (List.replicate n '1', []) := by
  induction n with
  | zero => rfl
  | succ n ih =>
    rw [List.replicate_succ, digitsAfter]
    · rw [if_pos (by decide), ih]
    · rintro ⟨⟩ 
    · rintro _ _ ⟨⟩ 

theorem readDecimal?_replicate {n : Nat} (long : Decimal.digitLimit < n) :
    readDecimal? (List.replicate n '1') = some (.error (.longInteger n)) := by
  obtain ⟨n, rfl⟩ := Nat.exists_eq_succ_of_ne_zero (Nat.ne_of_gt (Nat.zero_lt_of_lt long))
  have whole : readWhole? ('1' :: List.replicate n '1') =
      some (List.replicate (n + 1) '1', []) := by
    rw [readWhole?, readDigits?, if_pos (by decide), digitsAfter_replicate, List.replicate_succ]
    rintro _ ⟨⟩
  have sign : readSign ('1' :: List.replicate n '1') = (none, '1' :: List.replicate n '1') := by
    rw [readSign]
    · rintro _ ⟨⟩
    · rintro _ ⟨⟩
  rw [List.replicate_succ, readDecimal?, sign]
  simp only [whole]
  simp [readPlaces, readPower, long]

theorem readScalar_replicate {n : Nat} (long : Decimal.digitLimit < n) :
    readScalar (List.replicate n '1') = .error (.longInteger n) := by
  have decimal := readDecimal?_replicate long
  obtain ⟨n, rfl⟩ : ∃ m, n = m + 5 := ⟨n - 5, by rw [Decimal.digitLimit] at long; omega⟩
  have string : readString? (List.replicate (n + 5) '1') = none := rfl
  have word : readWord? (List.replicate (n + 5) '1') = none := rfl
  have moment : readMoment? (List.replicate (n + 5) '1') = none := rfl
  have based : readBased? (List.replicate (n + 5) '1') = none := rfl
  simp only [readScalar, string, word, moment, based, decimal]

theorem foldPairs_replicate (n : Nat) :
    foldPairs (List.replicate n '1') = List.replicate n '1' := by
  induction n with
  | zero => rfl
  | succ n ih =>
    rw [List.replicate_succ, foldPairs, ih]
    rintro _ ⟨⟩

/-- Every number of digits that is too large is reached. -/
theorem read_onesText {n : Nat} (long : Decimal.digitLimit < n) :
    read (onesText n) = .error (.longInteger n) := by
  have scalar := readScalar_replicate long
  obtain ⟨n, rfl⟩ := Nat.exists_eq_succ_of_ne_zero (Nat.ne_of_gt (Nat.zero_lt_of_lt long))
  have folded : foldPairs (onesText (n + 1)) = onesText (n + 1) :=
    congrArg (fun cs => 'x' :: '=' :: cs) (foldPairs_replicate (n + 1))
  have key : readKey (onesText (n + 1)) = .ok (["x"], '=' :: List.replicate (n + 1) '1') := rfl
  have gap : skipGap (List.replicate (n + 1) '1') = List.replicate (n + 1) '1' := rfl
  have value (fuel : Nat) : readValue (fuel + 1) (List.replicate (n + 1) '1') =
      .error (.longInteger (n + 1)) := by
    rw [← scalar, List.replicate_succ, readValue]
    · rintro _ ⟨⟩
    · rintro _ ⟨⟩
  have pair : readPair (onesText (n + 1)) = .error (.longInteger (n + 1)) := by
    simp only [readPair, key, bind, Except.bind, gap, value]
  have statement : readStatement .start (onesText (n + 1)) = .error (.longInteger (n + 1)) := by
    obtain ⟨later, step⟩ : ∃ later, readStatement .start (onesText (n + 1)) =
        (readPair (onesText (n + 1))).bind later := ⟨_, rfl⟩
    rw [step, pair]
    rfl
  obtain ⟨later, step⟩ : ∃ later,
      readStatements ((onesText (n + 1)).length + 1) .start (onesText (n + 1)) =
        (readStatement .start (onesText (n + 1))).bind later := ⟨_, rfl⟩
  rw [read, folded, step, statement]
  rfl

theorem digitCount_onesText (n : Nat) : digitCount (onesText n) = n := by
  simp [digitCount, onesText]

end CallSiteIds.Toml
