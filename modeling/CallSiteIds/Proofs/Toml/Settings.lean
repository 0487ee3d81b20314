import CallSiteIds.Proofs.Toml.Faults

/-!
# Documents of settings

Every text can be written as a basic string of one line, with escapes for quotes, backslashes and
control characters, and is read back from it (`readBasic_flatMap_basicChar`).  So a document that
sets each of some bare keys to a text, one a line, is read as these settings
(`read_settingsText`).
-/

set_option autoImplicit false

namespace CallSiteIds.Toml

open Json (Value field? putField)

/-! ## Basic strings -/

/-- A character as it is written in a basic string of one line. -/
def basicChar (c : Char) : List Char :=
  if c = '"' ∨ c = '\\' then ['\\', c]
  else if isForbidden false c then '\\' :: 'u' :: Text.hexDigits 4 c.toNat
  else [c]

/-- A text as a basic string of one line. -/
def basicText (cs : List Char) : List Char :=
  '"' :: (cs.flatMap basicChar ++ ['"'])

theorem toNat_lt_of_isForbidden {c : Char} (h : isForbidden false c = true) : c.toNat < 0x80 := by
  simp only [isForbidden, isControl, Bool.false_and, Bool.not_false, Bool.and_true, Bool.or_eq_true,
    Bool.and_eq_true, decide_eq_true_eq, beq_iff_eq] at h
  omega

theorem readBasic_quote (rest : List Char) :
    readBasic false .nothing ('"' :: rest) = .ok ([], rest) := by
  rw [readBasic.eq_def]
  rfl

/-- A written character is read as the character, whatever follows. -/
theorem readBasic_basicChar (c : Char) (rest : List Char) :
    readBasic false .nothing (basicChar c ++ rest) =
      (readBasic false .nothing rest).map fun (text, rest) => (c :: text, rest) := by
  unfold basicChar
  split
  · rename_i special
    rcases special with rfl | rfl
    all_goals
      rw [List.cons_append, readBasic.eq_def]
      rfl
  rename_i plain
  rw [not_or] at plain
  split
  · rename_i forbidden
    have value : Text.hexNumber? (Text.hexDigits 4 c.toNat) = some c.toNat := by
      apply Text.hexNumber?_hexDigits
      exact Nat.lt_trans (toNat_lt_of_isForbidden forbidden) (by decide)
    have four : ∃ p q r s, Text.hexDigits 4 c.toNat = [p, q, r, s] := by
      simpa only [List.length_eq_four] using Text.length_hexDigits 4 c.toNat
    obtain ⟨p, q, r, s, digits⟩ := four
    have read : scalar? [p, q, r, s] = some c := by
      have valid : c.toNat.isValidChar := c.valid
      rw [← digits, scalar?, value]
      simp only [valid, if_true, Char.ofNat_toNat]
    rw [digits, List.cons_append, readBasic.eq_def]
    simp [read]
  · rename_i allowed
    rw [List.singleton_append, readBasic.eq_def]
    simp [plain, allowed]

/-- The characters of a text and a closing quote are read as the text. -/
theorem readBasic_flatMap_basicChar (cs rest : List Char) :
    readBasic false .nothing (cs.flatMap basicChar ++ '"' :: rest) = .ok (cs, rest) := by
  induction cs with
  | nil => exact readBasic_quote rest
  | cons c cs ih =>
    rw [List.flatMap_cons, List.append_assoc, readBasic_basicChar, ih]
    rfl

theorem head_flatMap_basicChar (cs rest tail : List Char) :
    cs.flatMap basicChar ++ '"' :: '\n' :: rest ≠ '"' :: '"' :: tail := by
  cases cs with
  | nil => simp
  | cons c cs =>
    unfold basicChar
    rw [List.flatMap_cons]
    split
    · simp
    · split
      · simp
      · rename_i plain _
        rw [not_or] at plain
        simp [plain]

/-- A basic string at the end of a line is read as its text. -/
theorem readString?_basicText (cs rest : List Char) :
    readString? (basicText cs ++ '\n' :: rest) =
      some (.ok (String.ofList cs, '\n' :: rest)) := by
  have joined : basicText cs ++ '\n' :: rest =
      '"' :: (cs.flatMap basicChar ++ '"' :: '\n' :: rest) := by
    simp [basicText]
  rw [joined, readString?]
  · rw [readBasic_flatMap_basicChar]
    rfl
  · exact head_flatMap_basicChar cs rest

/-! ## Documents -/

/-- A text that can stand as a key without quotes. -/
structure IsBareKey (name : String) : Prop where
  nonempty : name.toList ≠ []
  keyChars : ∀ c ∈ name.toList, isKeyChar c = true

/-- A line that sets a key to a text. -/
def settingLine (name value : String) : List Char :=
  name.toList ++ '=' :: (basicText value.toList ++ ['\n'])

/-- A document that sets keys to texts. -/
def settingsText (settings : List (String × String)) : List Char :=
  settings.flatMap fun s => settingLine s.1 s.2

theorem readKeyPart_bare {name : String} (bare : IsBareKey name) (rest : List Char) :
    readKeyPart (name.toList ++ '=' :: rest) = .ok (name, '=' :: rest) := by
  obtain ⟨nonempty, keyChars⟩ := bare
  obtain ⟨c, cs, text⟩ := List.exists_cons_of_ne_nil nonempty
  rw [text] at keyChars
  obtain ⟨first, others⟩ := List.forall_mem_cons.1 keyChars
  have named : String.ofList (c :: cs) = name := by
    rw [← text, String.ofList_toList]
  rw [text, List.cons_append, readKeyPart, if_pos first, List.takeWhile_append_of_pos others,
    List.dropWhile_append_of_pos others]
  · simp [isKeyChar, named]
  · rintro rfl
    exact absurd first (by decide)
  · rintro rfl
    exact absurd first (by decide)

theorem readPair_settingLine {name : String} (bare : IsBareKey name) (value : String)
    (rest : List Char) :
    readPair (settingLine name value ++ rest) =
      .ok (([name], .string value), '\n' :: rest) := by
  have joined : settingLine name value ++ rest =
      name.toList ++ '=' :: (basicText value.toList ++ '\n' :: rest) := by
    simp [settingLine]
  have key : readKey (name.toList ++ '=' :: (basicText value.toList ++ '\n' :: rest)) =
      .ok ([name], '=' :: (basicText value.toList ++ '\n' :: rest)) := by
    rw [readKey, readParts, readKeyPart_bare bare]
    rfl
  have string : readScalar (basicText value.toList ++ '\n' :: rest) =
      .ok (.string value, '\n' :: rest) := by
    rw [readScalar, readString?_basicText, String.ofList_toList]
    rfl
  have read (fuel : Nat) : readValue (fuel + 1) (basicText value.toList ++ '\n' :: rest) =
      .ok (.string value, '\n' :: rest) := by
    rw [← string, basicText, List.cons_append, readValue]
    · rintro _ ⟨⟩
    · rintro _ ⟨⟩
  have gap : skipGap (basicText value.toList ++ '\n' :: rest) =
      basicText value.toList ++ '\n' :: rest := rfl
  rw [joined, readPair, key]
  simp only [bind, Except.bind, gap, read]
  rfl

/-- The state of a document in which only fields of the top table were set to scalars. -/
def State.flat (fields : Table) : State :=
  ⟨fields, [], [], [], []⟩

theorem assign_flat {fields : Table} {name : String} (fresh : ∀ p ∈ fields, p.1 ≠ name)
    (value : String) :
    (State.flat fields).assign [name] (.string value) =
      some (State.flat (fields ++ [(name, .string value)])) := by
  have absent : field? name fields = none := by
    induction fields with
    | nil => rfl
    | cons p rest ih =>
      obtain ⟨other, later⟩ := List.forall_mem_cons.1 fresh
      rw [field?, if_neg other, ih later]
  have inserted : insertNew name (.string value) fields =
      some (fields ++ [(name, .string value)]) := by
    rw [insertNew, absent]
    simp only [Json.putField_of_notMem fresh]
  simp [State.assign, State.flat, State.between, State.isClosed, within_nil, inserted, isContainer]

/-- A line that sets a field is a statement of the document. -/
theorem readStatements_settingLine {fields : Table} {name : String} (bare : IsBareKey name)
    (fresh : ∀ p ∈ fields, p.1 ≠ name) (value : String) (rest : List Char) (fuel : Nat) :
    readStatements (fuel + 1) (.flat fields) (settingLine name value ++ rest) =
      readStatements fuel (.flat (fields ++ [(name, .string value)])) rest := by
  have pair := readPair_settingLine bare value rest
  obtain ⟨c, cs, text⟩ := List.exists_cons_of_ne_nil bare.nonempty
  have first {d : Char} (other : isKeyChar d = false) : c ≠ d := by
    have isKey := bare.keyChars c (by rw [text]; exact List.mem_cons_self)
    rintro rfl
    rw [isKey] at other
    cases other
  have joined : settingLine name value ++ rest =
      c :: (cs ++ '=' :: (basicText value.toList ++ ['\n']) ++ rest) := by
    simp [settingLine, text]
  rw [joined] at pair ⊢
  generalize cs ++ '=' :: (basicText value.toList ++ ['\n']) ++ rest = tail at pair ⊢
  have gap : skipGap (c :: tail) = c :: tail := by
    refine List.dropWhile_cons_of_neg ?_
    have space := first (d := ' ') (by decide)
    have tab := first (d := '\t') (by decide)
    simp [isGap, space, tab]
  have statement : readStatement (.flat fields) (c :: tail) =
      .ok (.flat (fields ++ [(name, .string value)]), '\n' :: rest) := by
    rw [readStatement, pair]
    · simp only [bind, Except.bind, assign_flat fresh, orMalformed]
      rfl
    all_goals
      intro _ same
      exact first (by decide) (List.cons.inj same).1
  rw [readStatements, gap]
  split
  · rename_i same
    cases same
  · rename_i same
    exact absurd (List.cons.inj same).1 (first (by decide))
  · rw [statement]
    rfl

/-- The settings are read one after the other, and each adds its field. -/
theorem readStatements_settingsText (settings : List (String × String)) {fields : Table}
    {fuel : Nat} (enough : settings.length < fuel) (bare : ∀ s ∈ settings, IsBareKey s.1)
    (distinct : (settings.map Prod.fst).Nodup)
    (fresh : ∀ s ∈ settings, ∀ p ∈ fields, p.1 ≠ s.1) :
    readStatements fuel (.flat fields) (settingsText settings) =
      .ok (fields ++ settings.map fun s => (s.1, .string s.2)) := by
  obtain ⟨fuel, rfl⟩ := Nat.exists_eq_succ_of_ne_zero (Nat.ne_of_gt (Nat.zero_lt_of_lt enough))
  induction settings generalizing fields fuel with
  | nil =>
    rw [List.map_nil, List.append_nil]
    rfl
  | cons s settings ih =>
    obtain ⟨name, value⟩ := s
    obtain ⟨bareName, bare⟩ := List.forall_mem_cons.1 bare
    obtain ⟨freshName, fresh⟩ := List.forall_mem_cons.1 fresh
    rw [List.map_cons, List.nodup_cons] at distinct
    have later : ∀ s ∈ settings, ∀ p ∈ fields ++ [(name, .string value)], p.1 ≠ s.1 := by
      intro s mem
      rw [List.forall_mem_append, List.forall_mem_singleton]
      exact ⟨fresh s mem, fun same => distinct.1 (List.mem_map.2 ⟨s, mem, same.symm⟩)⟩
    have more := Nat.lt_of_succ_lt_succ enough
    obtain ⟨fuel, rfl⟩ := Nat.exists_eq_succ_of_ne_zero (Nat.ne_of_gt (Nat.zero_lt_of_lt more))
    have others := ih bare distinct.2 later fuel more
    rw [settingsText, List.flatMap_cons, readStatements_settingLine bareName freshName]
    rw [settingsText] at others
    rw [others, List.append_assoc]
    rfl

theorem foldPairs_of_notMem {cs : List Char} (plain : '\r' ∉ cs) : foldPairs cs = cs := by
  induction cs with
  | nil => rfl
  | cons c rest ih =>
    rw [List.mem_cons, not_or] at plain
    rw [foldPairs, ih plain.2]
    rintro _ rfl
    exact absurd rfl plain.1

theorem return_notMem_settingsText {settings : List (String × String)}
    (bare : ∀ s ∈ settings, IsBareKey s.1) : '\r' ∉ settingsText settings := by
  have value (cs : List Char) : '\r' ∉ cs.flatMap basicChar := by
    rw [List.mem_flatMap]
    rintro ⟨c, -, mem⟩
    unfold basicChar at mem
    split at mem
    · rename_i special
      rcases special with rfl | rfl <;> simp at mem
    · split at mem
      · simp only [List.mem_cons] at mem
        rcases mem with mem | mem | mem
        · cases mem
        · cases mem
        · exact Text.forall_mem_hexDigits (P := (· ≠ '\r')) (by decide) _ _ _ mem rfl
      · rename_i allowed
        obtain rfl := List.mem_singleton.1 mem
        exact allowed (by decide)
  rw [settingsText, List.mem_flatMap]
  rintro ⟨s, inside, mem⟩
  rw [settingLine, List.mem_append] at mem
  rcases mem with mem | mem
  · exact absurd ((bare s inside).keyChars _ mem) (by decide)
  · simp [basicText, value] at mem

theorem length_le_settingsText (settings : List (String × String)) :
    settings.length ≤ (settingsText settings).length := by
  induction settings with
  | nil => exact Nat.zero_le _
  | cons s settings ih =>
    have line : 1 ≤ (settingLine s.1 s.2).length := by
      rw [settingLine, List.length_append, List.length_cons]
      omega
    rw [settingsText, List.flatMap_cons, List.length_append, List.length_cons]
    rw [settingsText] at ih
    omega

/-- A document of settings is read as these. -/
theorem read_settingsText {settings : List (String × String)}
    (bare : ∀ s ∈ settings, IsBareKey s.1) (distinct : (settings.map Prod.fst).Nodup) :
    read (settingsText settings) = .ok (settings.map fun s => (s.1, .string s.2)) := by
  have enough := Nat.lt_succ_of_le (length_le_settingsText settings)
  rw [read, foldPairs_of_notMem (return_notMem_settingsText bare)]
  exact readStatements_settingsText settings enough bare distinct (by simp)

end CallSiteIds.Toml
