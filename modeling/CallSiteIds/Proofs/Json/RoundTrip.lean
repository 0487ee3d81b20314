import CallSiteIds.Proofs.Json.Documents
import CallSiteIds.Proofs.Json.Grammar
import CallSiteIds.Proofs.Text.Encoding
import CallSiteIds.Text.Lines

/-!
# Written documents are read back

Both forms of a plain document, the compact one and the indented one, are texts that stand for
the document with sorted fields.  The reader therefore finds that document in each of them.  The
compact form holds no control character, so it never runs over the end of a line.
-/

set_option autoImplicit false

namespace CallSiteIds.Json

/-! ## Containers -/

theorem intercalate_singleton (sep cs : List Char) : sep.intercalate [cs] = cs := by
  simp [List.intercalate]

theorem intercalate_cons_cons (sep cs ds : List Char) (rest : List (List Char)) :
    sep.intercalate (cs :: ds :: rest) = cs ++ (sep ++ sep.intercalate (ds :: rest)) := by
  simp [List.intercalate]

section Containers

variable {between lead trail : List Char}

/-- Texts of values with commas and blanks between them are written items. -/
theorem writtenItems_intercalate (blank : IsGapText between) (blankTrail : IsGapText trail)
    {α : Type} {value : α → Value} (text : α → List Char) {xs : List α} (nonempty : xs ≠ [])
    (written : ∀ x ∈ xs, Written (value x) (text x)) :
    WrittenItems (xs.map value)
      ((',' :: between).intercalate (xs.map text) ++ (trail ++ [']'])) := by
  induction xs with
  | nil => exact absurd rfl nonempty
  | cons x rest ih =>
    have first := written x List.mem_cons_self
    cases rest with
    | nil =>
      simp only [List.map_cons, List.map_nil, intercalate_singleton]
      exact .last first blankTrail
    | cons y rest =>
      have later := ih (by simp) fun z mem => written z (List.mem_cons_of_mem _ mem)
      simp only [List.map_cons] at later ⊢
      rw [intercalate_cons_cons, List.append_assoc, List.append_assoc, List.cons_append]
      exact .more first blank later

/-- Texts of members with commas and blanks between them are written members. -/
theorem writtenMembers_intercalate (blank : IsGapText between) (blankLead : IsGapText lead)
    (blankTrail : IsGapText trail) (value : String × Value → Value)
    (text : String × Value → List Char) {ms : List (String × Value)} (nonempty : ms ≠ [])
    (written : ∀ m ∈ ms, Written (value m) (text m)) :
    WrittenMembers (ms.map fun m => (m.1, value m))
      ((',' :: between).intercalate (ms.map fun m => stringText m.1 ++ ':' :: (lead ++ text m)) ++
        (trail ++ ['}'])) := by
  induction ms with
  | nil => exact absurd rfl nonempty
  | cons m rest ih =>
    have first := written m List.mem_cons_self
    cases rest with
    | nil =>
      simp only [List.map_cons, List.map_nil, intercalate_singleton]
      have last := WrittenMembers.last m.1 blankLead first blankTrail
      simpa only [List.append_assoc, List.cons_append] using last
    | cons n rest =>
      have later := ih (by simp) fun z mem => written z (List.mem_cons_of_mem _ mem)
      simp only [List.map_cons] at later ⊢
      rw [intercalate_cons_cons]
      have more := WrittenMembers.more m.1 blankLead first blank later
      simpa only [List.append_assoc, List.cons_append] using more

end Containers

/-! ## The two forms -/

theorem compactItems_eq_map (vs : List Value) : compactItems vs = vs.map compact := by
  induction vs with
  | nil => rfl
  | cons v vs ih => rw [compactItems, ih, List.map_cons]

theorem compactFields_eq_map (fields : List (String × Value)) :
    compactFields fields =
      fields.map fun p => (p.1, stringText p.1 ++ ':' :: compact p.2) := by
  induction fields with
  | nil => rfl
  | cons p fields ih => rw [compactFields, ih, List.map_cons]

theorem indentedItems_eq_map (level : Nat) (vs : List Value) :
    indentedItems level vs = vs.map (indented level) := by
  induction vs with
  | nil => rfl
  | cons v vs ih => rw [indentedItems, ih, List.map_cons]

theorem indentedFields_eq_map (level : Nat) (fields : List (String × Value)) :
    indentedFields level fields =
      fields.map fun p => (p.1, stringText p.1 ++ ':' :: ' ' :: indented level p.2) := by
  induction fields with
  | nil => rfl
  | cons p fields ih => rw [indentedFields, ih, List.map_cons]

/-- Sorting the texts of fields by key is sorting the fields. -/
theorem mergeSort_keyLe_map (text : String × Value → List Char)
    (fields : List (String × Value)) :
    ((fields.map fun p => (p.1, text p)).mergeSort keyLe).map Prod.snd =
      (fields.mergeSort fieldLe).map text := by
  have sorted : (fields.map fun p => (p.1, text p)).mergeSort keyLe =
      (fields.mergeSort fieldLe).map fun p => (p.1, text p) := by
    symm
    apply List.map_mergeSort
    intro p _ q _
    rfl
  rw [sorted, List.map_map]
  rfl

theorem nodup_keys_sorted {fields : List (String × Value)}
    (distinct : (fields.map Prod.fst).Nodup) :
    ((fields.mergeSort fieldLe).map fun p => (p.1, sortFields p.2)).map Prod.fst |>.Nodup := by
  rw [List.map_map]
  exact ((List.mergeSort_perm fields fieldLe).map Prod.fst).nodup_iff.2 distinct

theorem isGapText_nil : IsGapText [] := by
  intro c mem
  cases mem

/-- The compact form of a plain document stands for it. -/
theorem written_compact {v : Value} (plain : IsPlain v) : Written (sortFields v) (compact v) := by
  induction v using Value.induction with
  | null => exact .null
  | bool b => cases b <;> constructor
  | int n => exact .int plain
  | float x => exact absurd plain (by simp [IsPlain])
  | string s => exact .string s
  | array items ih =>
    rw [IsPlain, arePlain_iff] at plain
    rw [sortFields, compact, sortFieldsOfItems_eq_map, compactItems_eq_map]
    cases items with
    | nil => exact .emptyArray
    | cons v rest =>
      have items := writtenItems_intercalate isGapText_nil isGapText_nil compact
        (List.cons_ne_nil v rest) fun w mem => ih w mem (plain w mem)
      have whole := Written.array isGapText_nil items
      exact whole
  | object fields ih =>
    obtain ⟨distinct, plain⟩ := plain
    rw [havePlainValues_iff] at plain
    have perm := List.mergeSort_perm fields fieldLe
    rw [sortFields, compact, mergeSort_sortFieldsOfValues, compactFields_eq_map]
    rw [mergeSort_keyLe_map fun p => stringText p.1 ++ ':' :: compact p.2]
    by_cases empty : fields.mergeSort fieldLe = []
    · rw [empty]
      exact .emptyObject
    · have members := writtenMembers_intercalate isGapText_nil isGapText_nil isGapText_nil
        (fun p => sortFields p.2) (fun p => compact p.2) empty fun p mem =>
          ih p (perm.mem_iff.1 mem) (plain p (perm.mem_iff.1 mem))
      have whole := Written.object isGapText_nil (nodup_keys_sorted distinct) members
      exact whole

theorem isGapText_newLine (level : Nat) : IsGapText (newLine level) := by
  intro c mem
  rcases List.mem_cons.1 mem with rfl | mem
  · rfl
  · rw [(List.mem_replicate.1 mem).2]
    rfl

theorem written_indented {v : Value} (plain : IsPlain v) (level : Nat) :
    Written (sortFields v) (indented level v) := by
  have inner := isGapText_newLine (level + 1)
  have outer := isGapText_newLine level
  induction v using Value.induction generalizing level with
  | null => exact .null
  | bool b => cases b <;> constructor
  | int n => exact .int plain
  | float x => exact absurd plain (by simp [IsPlain])
  | string s => exact .string s
  | array items ih =>
    rw [IsPlain, arePlain_iff] at plain
    rw [sortFields, indented, sortFieldsOfItems_eq_map, indentedItems_eq_map]
    cases items with
    | nil => exact .emptyArray
    | cons v rest =>
      have items := writtenItems_intercalate inner outer (indented (level + 1))
        (List.cons_ne_nil v rest) fun w mem =>
          ih w mem (plain w mem) (level + 1) (isGapText_newLine _) inner
      have whole := Written.array inner items
      simpa [block] using whole
  | object fields ih =>
    obtain ⟨distinct, plain⟩ := plain
    rw [havePlainValues_iff] at plain
    have perm := List.mergeSort_perm fields fieldLe
    rw [sortFields, indented, mergeSort_sortFieldsOfValues, indentedFields_eq_map]
    rw [mergeSort_keyLe_map fun p => stringText p.1 ++ ':' :: ' ' :: indented (level + 1) p.2]
    by_cases empty : fields.mergeSort fieldLe = []
    · rw [empty]
      exact .emptyObject
    · have blank : IsGapText [' '] := by
        intro c mem
        rw [List.mem_singleton.1 mem]
        rfl
      have members := writtenMembers_intercalate inner blank outer
        (fun p => sortFields p.2) (fun p => indented (level + 1) p.2) empty
        fun p mem => ih p (perm.mem_iff.1 mem) (plain p (perm.mem_iff.1 mem)) (level + 1)
          (isGapText_newLine _) inner
      have whole := Written.object inner (nodup_keys_sorted distinct) members
      simpa [block, empty] using whole

/-! ## Reading back -/

/-- The compact form of a plain document is read back with its fields sorted. -/
theorem parse?_compact {v : Value} (plain : IsPlain v)
    (deep : nesting v ≤ Rules.strict.depthLimit) :
    parse? .strict (compact v) = some (sortFields v) :=
  parse?_of_written (written_compact plain) (Nat.le_trans (nesting_sortFields_le v) deep)

theorem parse?_documentText {v : Value} (plain : IsPlain v)
    (deep : nesting v ≤ Rules.strict.depthLimit) :
    parse? .strict (documentText v) = some (sortFields v) :=
  parse?_of_written (written_indented plain 0) (Nat.le_trans (nesting_sortFields_le v) deep)

/-! ## The compact form is one line -/

/-- A text without control characters. -/
def IsOneLine (cs : List Char) : Prop :=
  ∀ c ∈ cs, 0x20 ≤ c.toNat

theorem isOneLine_of_all {cs : List Char} (h : cs.all (0x20 ≤ ·.toNat) = true) :
    IsOneLine cs := by
  intro c mem
  have wide := List.all_eq_true.1 h c mem
  exact of_decide_eq_true wide

theorem IsOneLine.append {cs ds : List Char} (h : IsOneLine cs) (h' : IsOneLine ds) :
    IsOneLine (cs ++ ds) := by
  intro c mem
  rcases List.mem_append.1 mem with mem | mem
  · exact h c mem
  · exact h' c mem

theorem IsOneLine.cons {c : Char} {cs : List Char} (h : 0x20 ≤ c.toNat) (h' : IsOneLine cs) :
    IsOneLine (c :: cs) := by
  intro d mem
  rcases List.mem_cons.1 mem with rfl | mem
  · exact h
  · exact h' d mem

theorem isOneLine_intercalate {texts : List (List Char)} (h : ∀ cs ∈ texts, IsOneLine cs) :
    IsOneLine ([','].intercalate texts) := by
  induction texts with
  | nil =>
    intro c mem
    cases mem
  | cons cs rest ih =>
    have later := ih fun ds mem => h ds (List.mem_cons_of_mem _ mem)
    cases rest with
    | nil =>
      rw [intercalate_singleton]
      exact h cs List.mem_cons_self
    | cons ds rest =>
      rw [intercalate_cons_cons]
      exact (h cs List.mem_cons_self).append (later.cons (by decide))

theorem isOneLine_hexDigits (width n : Nat) : IsOneLine (Text.hexDigits width n) :=
  Text.forall_mem_hexDigits (by decide) width n

theorem isOneLine_stringChar (c : Char) : IsOneLine (stringChar c) := by
  have pair : ∀ d e : Char, 0x20 ≤ d.toNat → 0x20 ≤ e.toNat → IsOneLine [d, e] := by
    intro d e hd he
    exact IsOneLine.cons hd (IsOneLine.cons he fun _ mem => by cases mem)
  unfold stringChar
  iterate 7
    split
    · exact pair _ _ (by decide) (by decide)
  split
  · exact IsOneLine.cons (by decide) (IsOneLine.cons (by decide) (isOneLine_hexDigits 4 _))
  · exact IsOneLine.cons (by omega) fun _ mem => by cases mem

theorem isOneLine_stringText (s : String) : IsOneLine (stringText s) := by
  have quote : IsOneLine ['"'] := IsOneLine.cons (by decide) fun _ mem => by cases mem
  refine IsOneLine.append (IsOneLine.cons (by decide) ?_) quote
  intro c mem
  obtain ⟨d, -, mem⟩ := List.mem_flatMap.1 mem
  exact isOneLine_stringChar d c mem

theorem isOneLine_integerText (n : Int) : IsOneLine (Decimal.integerText n) := by
  intro c mem
  rcases Decimal.isDigit_or_minus_of_mem_integerText mem with digit | rfl
  · have := Decimal.toNat_of_isDigit digit
    omega
  · decide

theorem isOneLine_naturalText (n : Nat) : IsOneLine (Decimal.naturalText n) := by
  intro c mem
  have := Decimal.toNat_of_isDigit (Decimal.isDigit_of_mem_naturalText mem)
  omega

theorem isOneLine_replicate {c : Char} (h : 0x20 ≤ c.toNat) (n : Nat) :
    IsOneLine (List.replicate n c) := by
  intro d mem
  rw [(List.mem_replicate.1 mem).2]
  exact h

theorem isOneLine_nil : IsOneLine [] := by
  intro c mem
  cases mem

theorem isOneLine_layOut (s : Decimal.Scaled) :
    IsOneLine (Decimal.Binary64.layOut numberLayout s) := by
  have digits := isOneLine_naturalText s.digits
  have front (n : Nat) : IsOneLine ((Decimal.naturalText s.digits).take n) :=
    fun c mem => digits c (List.mem_of_mem_take mem)
  have back (n : Nat) : IsOneLine ((Decimal.naturalText s.digits).drop n) :=
    fun c mem => digits c (List.mem_of_mem_drop mem)
  have zeros (n : Nat) : IsOneLine (List.replicate n '0') := isOneLine_replicate (by decide) n
  have point {cs : List Char} (h : IsOneLine cs) : IsOneLine ('.' :: cs) := h.cons (by decide)
  simp only [Decimal.Binary64.layOut]
  split
  · split
    · exact ((point (zeros _)).append digits).cons (by decide)
    · split
      · exact (digits.append (zeros _)).append (isOneLine_of_all (by decide))
      · exact (front _).append (point (back _))
  · refine ((front _).append ?_).append ((isOneLine_integerText _).cons (by decide))
    split
    · exact isOneLine_nil
    · exact point (back _)

theorem isOneLine_binaryText (x : Decimal.Binary64) : IsOneLine (x.text numberLayout) := by
  have sign (negative : Bool) : IsOneLine (if negative then ['-'] else []) := by
    cases negative
    · exact isOneLine_nil
    · exact isOneLine_of_all (by decide)
  cases x with
  | undefined => exact isOneLine_of_all (by decide)
  | infinite negative => exact (sign negative).append (isOneLine_of_all (by decide))
  | finite negative m e =>
    refine (sign negative).append ?_
    split
    · exact isOneLine_of_all (by decide)
    · exact isOneLine_layOut _

/-- The compact form holds no control character. -/
theorem isOneLine_compact (v : Value) : IsOneLine (compact v) := by
  induction v using Value.induction with
  | null => exact isOneLine_of_all rfl
  | bool b =>
    cases b with
    | false => exact isOneLine_of_all rfl
    | true => exact isOneLine_of_all rfl
  | int n => exact isOneLine_integerText n
  | float x =>
    rw [compact, scalarText]
    split
    · exact isOneLine_binaryText x
    · exact isOneLine_of_all (by decide)
    all_goals simp
  | string s => exact isOneLine_stringText s
  | array items ih =>
    rw [compact, compactItems_eq_map]
    refine IsOneLine.append (IsOneLine.cons (by decide) (isOneLine_intercalate ?_))
      (isOneLine_nil.cons (by decide))
    intro cs mem
    obtain ⟨v, inside, rfl⟩ := List.mem_map.1 mem
    exact ih v inside
  | object fields ih =>
    have perm := List.mergeSort_perm fields fieldLe
    rw [compact, compactFields_eq_map]
    rw [mergeSort_keyLe_map fun p => stringText p.1 ++ ':' :: compact p.2]
    refine IsOneLine.append (IsOneLine.cons (by decide) (isOneLine_intercalate ?_))
      (isOneLine_nil.cons (by decide))
    intro cs mem
    obtain ⟨p, inside, rfl⟩ := List.mem_map.1 mem
    have inside := perm.mem_iff.1 inside
    exact (isOneLine_stringText p.1).append ((ih p inside).cons (by decide))

/-! ## Bytes -/

/-- The lines of a file with one document per line are the compact forms. -/
theorem splitFeeds_linesText (vs : List Value) :
    Text.splitFeeds (Text.encodeUtf8 (linesText vs)) =
      vs.map fun v => Text.encodeUtf8 (compact v) := by
  induction vs with
  | nil => rfl
  | cons v vs ih =>
    have feedless : '\n' ∉ compact v := by
      intro mem
      have := isOneLine_compact v _ mem
      exact absurd this (by decide)
    have feed : Text.encodeUtf8 ['\n'] = [Text.lineFeed] := rfl
    rw [linesText, List.flatMap_cons, Text.encodeUtf8_append, Text.encodeUtf8_append, feed,
      List.append_assoc, List.singleton_append,
      Text.splitFeeds_append fun b mem => Text.ne_lineFeed_of_mem_encodeUtf8 feedless mem,
      List.map_cons]
    exact congrArg _ ih

/-- A line that holds an object neither begins nor ends with a blank. -/
theorem trimBoth_object (fields : List (String × Value)) :
    Text.trimBoth Text.isBlankByte (Text.encodeUtf8 (compact (.object fields))) =
      Text.encodeUtf8 (compact (.object fields)) := by
  have opening : Text.encodeUtf8 ['{'] = [123] := rfl
  have closing : Text.encodeUtf8 ['}'] = [125] := rfl
  rw [compact, Text.encodeUtf8_append, ← List.singleton_append, Text.encodeUtf8_append, opening,
    closing]
  apply Text.trimBoth_eq_self
  · intro b mem
    injection mem with mem
    subst mem
    rfl
  · intro b mem
    rw [List.getLast?_concat] at mem
    injection mem with mem
    subst mem
    rfl

/-- A line with a plain document is read back. -/
theorem parseBytes?_compact {v : Value} (plain : IsPlain v)
    (deep : nesting v ≤ Rules.strict.depthLimit) :
    parseBytes? (Text.encodeUtf8 (compact v)) = some (sortFields v) := by
  rw [parseBytes?, Text.decodeUtf8?_encodeUtf8, Option.bind_some, parse?_compact plain deep]

theorem parseBytes?_documentText {v : Value} (plain : IsPlain v)
    (deep : nesting v ≤ Rules.strict.depthLimit) :
    parseBytes? (Text.encodeUtf8 (documentText v)) = some (sortFields v) := by
  rw [parseBytes?, Text.decodeUtf8?_encodeUtf8, Option.bind_some,
    parse?_documentText plain deep]

end CallSiteIds.Json
