import CallSiteIds.Proofs.Decimal.Numerals
import CallSiteIds.Proofs.Location.Keys

/-!
# Which texts are read as keys

A text is read as a key when numerals stand behind its last two separators (`ofKey_eq_ok_iff`).
There are more numerals than integers, so more texts are read than positions have keys: the keys
are the texts that are read and whose numerals are plain (`ofKey_inverts_iff`).  These are also the
texts that are the key of the position that they are read as, and no two of them are read as one
position.  A sign or a zero in front is enough to leave them (`reads_other_texts`).
-/

set_option autoImplicit false

namespace CallSiteIds.Location

open Decimal (IsNumeral IsPlainNumeral HasFewDigits)

/-- A text divided at its last two separators. -/
structure IsDivided (key : String) (file line column : List Char) : Prop where
  joined : key.toList = file ++ separator :: (line ++ separator :: column)
  line : separator ∉ line
  column : separator ∉ column

/-- A text that ends with two plain numerals, each behind a separator. -/
def IsPlain (key : String) : Prop :=
  ∃ file line column, IsDivided key file line column ∧ IsPlainNumeral line ∧ IsPlainNumeral column

theorem IsDivided.unique {key : String} {file file' line line' column column' : List Char}
    (h : IsDivided key file line column) (h' : IsDivided key file' line' column') :
    file = file' ∧ line = line' ∧ column = column' :=
  fields_inj h.line h'.line h.column h'.column (h.joined.symm.trans h'.joined)

/-- The key of a position is divided into its file, its line and its column. -/
theorem isDivided_keyText (file : List Char) (line column : Int) :
    IsDivided (String.ofList (keyText file line column)) file (Decimal.integerText line)
      (Decimal.integerText column) where
  joined := String.toList_ofList
  line := separator_notMem_integerText line
  column := separator_notMem_integerText column

theorem keyParts?_eq_some_iff {cs file : List Char} {line column : Int} :
    keyParts? cs = some (file, line, column) ↔
      ∃ first second, cs = file ++ separator :: (first ++ separator :: second) ∧
        separator ∉ first ∧ separator ∉ second ∧
        Decimal.readInteger? first = some line ∧ Decimal.readInteger? second = some column := by
  simp only [keyParts?, Option.bind_eq_bind, Option.bind_eq_some_iff, Option.pure_def,
    Option.some.injEq, Prod.mk.injEq]
  constructor
  · rintro ⟨⟨front, second⟩, last, ⟨_, first⟩, inner, _, read, _, read', rfl, rfl, rfl⟩
    obtain ⟨rfl, free⟩ := Text.eq_append_of_splitLast last
    obtain ⟨rfl, free'⟩ := Text.eq_append_of_splitLast inner
    exact ⟨first, second, by simp, free', free, read, read'⟩
  · rintro ⟨first, second, rfl, free, free', read, read'⟩
    refine ⟨(file ++ separator :: first, second), ?_, (file, first),
      Text.splitLast_append file free, line, read, column, read', rfl, rfl, rfl⟩
    rw [← List.cons_append, ← List.append_assoc]
    exact Text.splitLast_append _ free'

/-- The texts that are read as keys are those with numerals behind their last two separators. -/
theorem ofKey_eq_ok_iff {key : String} {p : Position} :
    Position.ofKey key = .ok p ↔ ∃ line column, IsDivided key p.file.toList line column ∧
      IsNumeral line p.line ∧ IsNumeral column p.column := by
  have parts : Position.ofKey key = .ok p ↔
      keyParts? key.toList = some (p.file.toList, p.line, p.column) := by
    rw [Position.ofKey]
    split
    · rename_i file line column same
      rw [same]
      obtain ⟨f, l, c⟩ := p
      simp only [Except.ok.injEq, Position.mk.injEq, Option.some.injEq, Prod.mk.injEq]
      rw [← String.toList_inj, String.toList_ofList]
    · rename_i none
      simp [none]
  rw [parts, keyParts?_eq_some_iff]
  simp only [Decimal.readInteger?_eq_some_iff]
  constructor
  · rintro ⟨line, column, joined, free, free', numerals⟩
    exact ⟨line, column, ⟨joined, free, free'⟩, numerals⟩
  · rintro ⟨line, column, ⟨joined, free, free'⟩, numerals⟩
    exact ⟨line, column, joined, free, free', numerals⟩

theorem isPlainNumeral_integerText {i : Int} (positive : 0 ≤ i) :
    IsPlainNumeral (Decimal.integerText i) := by
  obtain ⟨n, rfl⟩ := Int.eq_ofNat_of_zero_le positive
  exact Decimal.isPlainNumeral_iff.2 ⟨n, rfl⟩

theorem isPlain_of_key_eq {p : Position} {key : String} (made : p.key = .ok key) :
    IsPlain key := by
  obtain ⟨⟨line, column⟩, rfl⟩ := key_eq_ok_iff.1 made
  exact ⟨_, _, _, isDivided_keyText _ _ _, isPlainNumeral_integerText line,
    isPlainNumeral_integerText column⟩

/-- A text that is read as a position is the key of that position exactly when its numerals are
plain. -/
theorem isPlain_iff_key_eq {p : Position} {key : String} (read : Position.ofKey key = .ok p) :
    IsPlain key ↔ 0 ≤ p.line ∧ 0 ≤ p.column ∧ p.key = .ok key := by
  constructor
  · rintro ⟨_, _, _, divided, plainLine, plainColumn⟩
    obtain ⟨line, column, divided', isLine, isColumn⟩ := ofKey_eq_ok_iff.1 read
    obtain ⟨-, rfl, rfl⟩ := divided.unique divided'
    obtain ⟨positive, rfl⟩ := isLine.isPlainNumeral_iff.1 plainLine
    obtain ⟨positive', rfl⟩ := isColumn.isPlainNumeral_iff.1 plainColumn
    refine ⟨positive, positive', key_eq_ok_iff.2 ⟨⟨positive, positive'⟩, ?_⟩⟩
    rw [← String.toList_inj, String.toList_ofList, divided'.joined, keyText]
  · rintro ⟨-, -, made⟩
    exact isPlain_of_key_eq made

/-- A text whose first numeral has a character that is no digit is not the key of a position. -/
theorem key_ne_of_mem {key : String} {file line column : List Char}
    (divided : IsDivided key file line column) {c : Char} (other : c.isDigit = false)
    (mem : c ∈ line) (p : Position) : p.key ≠ .ok key := by
  intro made
  obtain ⟨_, _, _, divided', plain, -⟩ := isPlain_of_key_eq made
  obtain ⟨-, rfl, -⟩ := divided.unique divided'
  have digit := plain.digits c mem
  rw [other] at digit
  cases digit

/-- A text is read as the positions whose parts its last two separators divide.  The reading undoes
the making of keys exactly where the two numerals are plain: then the text is the key of what it is
read as, and only then.  The keys of positions, as long as the reader accepts their numbers, are the
texts with plain numerals that are read, and two of them are never read as one position. -/
theorem ofKey_inverts_iff (key : String) :
    (∀ p, Position.ofKey key = .ok p ↔ ∃ line column, IsDivided key p.file.toList line column ∧
      IsNumeral line p.line ∧ IsNumeral column p.column) ∧
    (∀ p, Position.ofKey key = .ok p →
      (IsPlain key ↔ 0 ≤ p.line ∧ 0 ≤ p.column ∧ p.key = .ok key)) ∧
    ((∃ p : Position, HasFewDigits p.line ∧ HasFewDigits p.column ∧ p.key = .ok key) ↔
      IsPlain key ∧ ∃ p, Position.ofKey key = .ok p) ∧
    ∀ other p, Position.ofKey key = .ok p → Position.ofKey other = .ok p → IsPlain key →
      IsPlain other → key = other := by
  refine ⟨fun _ => ofKey_eq_ok_iff, fun _ => isPlain_iff_key_eq, ⟨?_, ?_⟩, ?_⟩
  · rintro ⟨p, line, column, made⟩
    exact ⟨isPlain_of_key_eq made, p, ofKey_key made line column⟩
  · rintro ⟨plain, p, read⟩
    obtain ⟨-, -, made⟩ := (isPlain_iff_key_eq read).1 plain
    obtain ⟨_, _, -, line, column⟩ := ofKey_eq_ok_iff.1 read
    exact ⟨p, line.hasFewDigits, column.hasFewDigits, made⟩
  · intro other p read read' plain plain'
    obtain ⟨-, -, made⟩ := (isPlain_iff_key_eq read).1 plain
    obtain ⟨-, -, made'⟩ := (isPlain_iff_key_eq read').1 plain'
    exact Except.ok.inj (made.symm.trans made')

/-- A key whose file ends like a position itself. -/
theorem ofKey_inverts_nested :
    let key := "C:\\é:7:08:10:5"
    Position.ofKey key = .ok ⟨"C:\\é:7:08", 10, 5⟩ ∧ IsPlain key ∧
      (⟨"C:\\é:7:08", 10, 5⟩ : Position).key = .ok key := by
  intro key
  have few {i : Int} (small : i.natAbs < Nat.pow 10 2) : HasFewDigits i :=
    Decimal.hasFewDigits_of_lt small (by decide)
  have made : (⟨"C:\\é:7:08", 10, 5⟩ : Position).key = .ok key := rfl
  have read : Position.ofKey key = .ok ⟨"C:\\é:7:08", 10, 5⟩ :=
    ofKey_key made (few (by decide)) (few (by decide))
  obtain ⟨-, inverse, -⟩ := ofKey_inverts_iff key
  exact ⟨read, (inverse _ read).2 ⟨by decide, by decide, made⟩, made⟩

/-- Texts that are the key of no position are read: one as a position that has another key, and one
as a position that has none. -/
theorem reads_other_texts :
    Position.ofKey "a.cs:+3:07" = .ok ⟨"a.cs", 3, 7⟩ ∧
      Position.ofKey "a.cs:3:7" = .ok ⟨"a.cs", 3, 7⟩ ∧
      Position.ofKey "a.cs:-1:5" = .ok ⟨"a.cs", -1, 5⟩ ∧
      ∀ p : Position, p.key ≠ .ok "a.cs:+3:07" ∧ p.key ≠ .ok "a.cs:-1:5" := by
  have signed : IsDivided "a.cs:+3:07" "a.cs".toList ['+', '3'] ['0', '7'] :=
    ⟨by decide, by decide, by decide⟩
  have negative : IsDivided "a.cs:-1:5" "a.cs".toList ['-', '1'] ['5'] :=
    ⟨by decide, by decide, by decide⟩
  exact ⟨rfl, rfl, rfl, fun p => ⟨key_ne_of_mem signed (c := '+') (by decide) (by decide) p,
    key_ne_of_mem negative (c := '-') (by decide) (by decide) p⟩⟩

end CallSiteIds.Location
