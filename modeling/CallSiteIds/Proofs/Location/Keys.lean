import CallSiteIds.Location.Key
import CallSiteIds.Proofs.Decimal.Digits

/-!
# Location keys name positions

A key determines its position: the line and the column hold no separator, so the last two
separators of a key are the ones that were put there, whatever the file is called
(`keyText_injective`).  A key whose numbers are within the limit of the reader is read back as the
position it was made of (`ofKey_key`), so the way from a position to its key and back loses nothing
(`exists_key_read_back`).
-/

set_option autoImplicit false

namespace CallSiteIds.Location

theorem separator_notMem_integerText (i : Int) : separator ∉ Decimal.integerText i :=
  Decimal.notMem_integerText (by decide) (by decide) i

/-- A text determines what stands before and behind its last two separators. -/
theorem fields_inj {file file' line line' column column' : List Char}
    (apart : separator ∉ line) (apart' : separator ∉ line')
    (last : separator ∉ column) (last' : separator ∉ column')
    (h : file ++ separator :: (line ++ separator :: column) =
      file' ++ separator :: (line' ++ separator :: column')) :
    file = file' ∧ line = line' ∧ column = column' := by
  have regroup (f l c : List Char) : f ++ separator :: (l ++ separator :: c) =
      (f ++ separator :: l) ++ separator :: c := by
    simp
  rw [regroup, regroup] at h
  obtain ⟨front, same⟩ := Text.append_cons_inj last last' h
  obtain ⟨first, second⟩ := Text.append_cons_inj apart apart' front
  exact ⟨first, second, same⟩

theorem keyText_injective {file file' : List Char} {line line' column column' : Int}
    (h : keyText file line column = keyText file' line' column') :
    file = file' ∧ line = line' ∧ column = column' := by
  obtain ⟨hf, hl, hc⟩ := fields_inj (separator_notMem_integerText line)
    (separator_notMem_integerText line') (separator_notMem_integerText column)
    (separator_notMem_integerText column') h
  exact ⟨hf, Decimal.integerText_injective hl, Decimal.integerText_injective hc⟩

/-- A position has a key exactly when its line and its column are not negative. -/
theorem key_eq_ok_iff {p : Position} {key : String} :
    p.key = .ok key ↔
      (0 ≤ p.line ∧ 0 ≤ p.column) ∧
        key = String.ofList (keyText p.file.toList p.line p.column) := by
  rw [Position.key]
  split
  · rename_i negative
    constructor
    · intro h
      cases h
    · rintro ⟨valid, -⟩
      omega
  · rename_i valid
    rw [Except.ok.injEq]
    constructor
    · rintro rfl
      exact ⟨by omega, rfl⟩
    · rintro ⟨-, rfl⟩
      rfl

theorem eq_of_key_eq {p q : Position} {key : String} (hp : p.key = .ok key)
    (hq : q.key = .ok key) : p = q := by
  obtain ⟨-, rfl⟩ := key_eq_ok_iff.1 hp
  obtain ⟨-, e⟩ := key_eq_ok_iff.1 hq
  obtain ⟨hf, hl, hc⟩ := keyText_injective (String.ofList_injective e)
  cases p
  cases q
  simp_all [String.toList_inj]

/-- The parts of a key are found where they were put. -/
theorem keyParts?_keyText (file : List Char) {line column : Int}
    (hl : Decimal.HasFewDigits line) (hc : Decimal.HasFewDigits column) :
    keyParts? (keyText file line column) = some (file, line, column) := by
  have last : Text.splitLast separator (keyText file line column) =
      some (file ++ separator :: Decimal.integerText line, Decimal.integerText column) := by
    rw [keyText, ← List.cons_append, ← List.append_assoc]
    exact Text.splitLast_append _ (separator_notMem_integerText column)
  rw [keyParts?, last]
  simp only [Option.bind_eq_bind, Option.bind_some]
  rw [Text.splitLast_append _ (separator_notMem_integerText line)]
  simp only [Option.bind_some, Decimal.readInteger?_integerText hl,
    Decimal.readInteger?_integerText hc, Option.pure_def]

/-- A key is read back as its position when the reader accepts its numbers. -/
theorem ofKey_key {p : Position} {key : String} (h : p.key = .ok key)
    (hl : Decimal.HasFewDigits p.line) (hc : Decimal.HasFewDigits p.column) :
    Position.ofKey key = .ok p := by
  obtain ⟨-, rfl⟩ := key_eq_ok_iff.1 h
  rw [Position.ofKey, String.toList_ofList, keyParts?_keyText _ hl hc]
  simp only [String.ofList_toList]

/-- Every position in the source has a key, which is read back as the position.  The file may be
any text at all, for only the line and the column must be free of the separator. -/
theorem exists_key_read_back (p : Position) (line : 0 ≤ p.line) (column : 0 ≤ p.column)
    (shortLine : Decimal.HasFewDigits p.line) (shortColumn : Decimal.HasFewDigits p.column) :
    ∃ key, p.key = .ok key ∧
      key.toList = p.file.toList ++
        separator :: (Decimal.integerText p.line ++ separator :: Decimal.integerText p.column) ∧
      Position.ofKey key = .ok p := by
  have made : p.key = .ok (String.ofList (keyText p.file.toList p.line p.column)) :=
    key_eq_ok_iff.2 ⟨⟨line, column⟩, rfl⟩
  exact ⟨_, made, String.toList_ofList, ofKey_key made shortLine shortColumn⟩

/-- A file that ends like a position itself. -/
theorem exists_key_read_back_nested :
    let p : Position := ⟨" C:\\é\n:7:08", 10, 5⟩
    ∃ key, p.key = .ok key ∧ key = " C:\\é\n:7:08:10:5" ∧ Position.ofKey key = .ok p := by
  intro p
  have few {i : Int} (small : i.natAbs < Nat.pow 10 2) : Decimal.HasFewDigits i :=
    Decimal.hasFewDigits_of_lt small (by decide)
  obtain ⟨key, made, text, read⟩ := exists_key_read_back p (by decide) (by decide)
    (few (by decide)) (few (by decide))
  exact ⟨key, made, String.toList_inj.1 (text.trans (by decide)), read⟩

end CallSiteIds.Location
