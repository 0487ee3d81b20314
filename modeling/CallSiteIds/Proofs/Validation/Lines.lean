import CallSiteIds.Validation

/-!
# What is wrong with the lines of a manifest

Validation goes through the lines of a manifest with the records of the lines before.  What it
finds on a line depends on that line and on those records alone (`mem_readRecords_iff`), and a
line that holds no record adds none, so it has no say in what is found elsewhere.  Nothing is
found exactly when each line that is not blank holds a record of the current version and no name
and no key comes twice (`readRecords_eq_nil_iff`).
-/

set_option autoImplicit false

namespace CallSiteIds.Validation

open Schema

/-! ## Single lines -/

/-- A line without the blanks at its ends. -/
def content (raw : List UInt8) : List UInt8 :=
  Text.trimBoth Text.isBlankByte raw

/-- The record on a line, whatever its version; a blank or unreadable line holds none. -/
def recordOn? (raw : List UInt8) : Option InterceptRecord :=
  match Json.parseBytes? (content raw) with
  | none => none
  | some v =>
    match InterceptRecord.read v with
    | .valid r => some r
    | .invalid _ => none

/-- The records on lines, in order. -/
def recordsOn (lines : List (List UInt8)) : List InterceptRecord :=
  lines.filterMap recordOn?

/-- What is wrong with a line after lines with the given records. -/
inductive IsFault (before : List InterceptRecord) (raw : List UInt8) : Finding → Prop where
  | notJson (visible : content raw ≠ []) (unreadable : Json.parseBytes? (content raw) = none) :
      IsFault before raw .notJson
  | notModel {v : Json.Value} {issues : List Issue} (visible : content raw ≠ [])
      (document : Json.parseBytes? (content raw) = some v)
      (invalid : InterceptRecord.read v = .invalid issues) :
      IsFault before raw (.notModel ⟨"InterceptRecord", issues⟩)
  | version {r : InterceptRecord} (held : recordOn? raw = some r)
      (other : r.schemaVersion ≠ schemaVersion) :
      IsFault before raw (.versionMismatch r.schemaVersion)
  | name {r b : InterceptRecord} (held : recordOn? raw = some r) (mem : b ∈ before)
      (same : b.routineName = r.routineName) :
      IsFault before raw (.duplicateRoutine r.routineName)
  | key {r b : InterceptRecord} (held : recordOn? raw = some r) (mem : b ∈ before)
      (same : b.locationKey = r.locationKey) :
      IsFault before raw (.interceptedTwice r.locationKey)

/-- A record that is current and unlike the records before. -/
structure IsNew (before : List InterceptRecord) (r : InterceptRecord) : Prop where
  version : r.schemaVersion = schemaVersion
  name : ∀ b ∈ before, b.routineName ≠ r.routineName
  key : ∀ b ∈ before, b.locationKey ≠ r.locationKey

theorem recordOn?_eq_none_of_unreadable {raw : List UInt8}
    (unreadable : Json.parseBytes? (content raw) = none) : recordOn? raw = none := by
  rw [recordOn?, unreadable]

theorem recordOn?_eq_none_of_blank {raw : List UInt8} (blank : content raw = []) :
    recordOn? raw = none :=
  recordOn?_eq_none_of_unreadable (by rw [blank]; rfl)

theorem recordOn?_eq_some_iff {raw : List UInt8} {r : InterceptRecord} :
    recordOn? raw = some r ↔
      ∃ v, Json.parseBytes? (content raw) = some v ∧ InterceptRecord.read v = .valid r := by
  rw [recordOn?]
  cases Json.parseBytes? (content raw) with
  | none => simp
  | some v => cases read : InterceptRecord.read v <;> simp [read]

theorem mem_versionFindings_iff {version : Int} {f : Finding} :
    f ∈ versionFindings version ↔ version ≠ schemaVersion ∧ f = .versionMismatch version := by
  unfold versionFindings
  split
  · rename_i current
    simp [current]
  · rename_i other
    simp [other]

section Faults

variable {before : List InterceptRecord} {raw : List UInt8} {f : Finding}

/-- With a line that holds no record, the trouble is with the document. -/
theorem isFault_iff_of_absent (absent : recordOn? raw = none) :
    IsFault before raw f ↔ content raw ≠ [] ∧
      ((Json.parseBytes? (content raw) = none ∧ f = .notJson) ∨
        ∃ v issues, Json.parseBytes? (content raw) = some v ∧
          InterceptRecord.read v = .invalid issues ∧ f = .notModel ⟨"InterceptRecord", issues⟩) := by
  constructor
  · intro fault
    cases fault with
    | notJson visible unreadable => exact ⟨visible, .inl ⟨unreadable, rfl⟩⟩
    | notModel visible document invalid => exact ⟨visible, .inr ⟨_, _, document, invalid, rfl⟩⟩
    | version held | name held | key held =>
      rw [absent] at held
      cases held
  · rintro ⟨visible, ⟨unreadable, rfl⟩ | ⟨v, issues, document, invalid, rfl⟩⟩
    · exact .notJson visible unreadable
    · exact .notModel visible document invalid

/-- A record is at fault when it is not current, and for its name and its key when one of the
records before has them. -/
theorem isFault_iff_of_held {r : InterceptRecord} (held : recordOn? raw = some r) :
    IsFault before raw f ↔
      (r.schemaVersion ≠ schemaVersion ∧ f = .versionMismatch r.schemaVersion) ∨
        ((∃ b ∈ before, b.routineName = r.routineName) ∧ f = .duplicateRoutine r.routineName) ∨
        ((∃ b ∈ before, b.locationKey = r.locationKey) ∧ f = .interceptedTwice r.locationKey) := by
  obtain ⟨v, document, valid⟩ := recordOn?_eq_some_iff.1 held
  constructor
  · intro fault
    cases fault with
    | notJson _ unreadable =>
      rw [document] at unreadable
      cases unreadable
    | notModel _ document' invalid =>
      rw [document] at document'
      cases document'
      rw [valid] at invalid
      cases invalid
    | version held' other =>
      cases held.symm.trans held'
      exact .inl ⟨other, rfl⟩
    | name held' mem same =>
      cases held.symm.trans held'
      exact .inr (.inl ⟨⟨_, mem, same⟩, rfl⟩)
    | key held' mem same =>
      cases held.symm.trans held'
      exact .inr (.inr ⟨⟨_, mem, same⟩, rfl⟩)
  · rintro (⟨other, rfl⟩ | ⟨⟨b, mem, same⟩, rfl⟩ | ⟨⟨b, mem, same⟩, rfl⟩)
    · exact .version held other
    · exact .name held mem same
    · exact .key held mem same

theorem not_isFault_of_blank (blank : content raw = []) : ¬IsFault before raw f := by
  rw [isFault_iff_of_absent (recordOn?_eq_none_of_blank blank)]
  exact fun fault => fault.1 blank

/-- Reading a line that is not blank gives its record, and finds what is wrong with it. -/
theorem readRecord_content (visible : content raw ≠ []) (before : List InterceptRecord) :
    (readRecord before (content raw)).1 = recordOn? raw ∧
      ∀ f, f ∈ (readRecord before (content raw)).2 ↔ IsFault before raw f := by
  cases document : Json.parseBytes? (content raw) with
  | none =>
    have absent := recordOn?_eq_none_of_unreadable document
    rw [readRecord, document, absent]
    refine ⟨rfl, fun f => ?_⟩
    simp [isFault_iff_of_absent absent, visible, document]
  | some v =>
    cases read : InterceptRecord.read v with
    | invalid issues =>
      have absent : recordOn? raw = none := by
        rw [recordOn?, document]
        simp only [read]
      rw [readRecord, document, absent]
      simp only [read, Checked.toExcept, true_and]
      intro f
      simp [isFault_iff_of_absent absent, visible, document, read]
    | valid r =>
      have held := recordOn?_eq_some_iff.2 ⟨v, document, read⟩
      rw [readRecord, document, held]
      simp only [read, Checked.toExcept, true_and]
      intro f
      have repeated {p : InterceptRecord → Bool} {g : Finding} :
          (f ∈ if before.any p then [g] else []) ↔ (∃ b ∈ before, p b = true) ∧ f = g := by
        rw [← List.any_eq_true]
        cases before.any p <;> simp
      rw [isFault_iff_of_held held, List.mem_append, List.mem_append, mem_versionFindings_iff,
        repeated, repeated, or_assoc]
      simp only [beq_iff_eq]

/-- Nothing is wrong with a line exactly when it is blank or holds a new record. -/
theorem forall_not_isFault_iff :
    (∀ f, ¬IsFault before raw f) ↔
      (content raw ≠ [] → ∃ r, recordOn? raw = some r) ∧
        ∀ r, recordOn? raw = some r → IsNew before r := by
  cases held : recordOn? raw with
  | some r =>
    simp only [isFault_iff_of_held held]
    constructor
    · intro sound
      refine ⟨fun _ => ⟨r, rfl⟩, ?_⟩
      rintro _ ⟨⟩
      refine ⟨?_, ?_, ?_⟩
      · exact Decidable.byContradiction fun other => sound _ (.inl ⟨other, rfl⟩)
      · exact fun b mem same => sound _ (.inr (.inl ⟨⟨b, mem, same⟩, rfl⟩))
      · exact fun b mem same => sound _ (.inr (.inr ⟨⟨b, mem, same⟩, rfl⟩))
    · rintro ⟨-, new⟩ f (⟨other, -⟩ | ⟨⟨b, mem, same⟩, -⟩ | ⟨⟨b, mem, same⟩, -⟩)
      · exact other (new r rfl).version
      · exact (new r rfl).name b mem same
      · exact (new r rfl).key b mem same
  | none =>
    simp only [isFault_iff_of_absent held]
    constructor
    · intro sound
      refine ⟨fun visible => ?_, by rintro _ ⟨⟩⟩
      cases document : Json.parseBytes? (content raw) with
      | none => exact absurd ⟨visible, .inl ⟨document, rfl⟩⟩ (sound .notJson)
      | some v =>
        cases read : InterceptRecord.read v with
        | invalid issues =>
          exact absurd ⟨visible, .inr ⟨v, issues, document, read, rfl⟩⟩ (sound _)
        | valid r =>
          rw [recordOn?_eq_some_iff.2 ⟨v, document, read⟩] at held
          cases held
    · rintro ⟨readable, -⟩ f ⟨visible, -⟩
      obtain ⟨r, ⟨⟩⟩ := readable visible

end Faults

/-! ## All lines -/

theorem recordsOn_cons (raw : List UInt8) (rest : List (List UInt8)) :
    recordsOn (raw :: rest) = (recordOn? raw).toList ++ recordsOn rest := by
  rw [recordsOn, List.filterMap_cons]
  cases recordOn? raw <;> rfl

theorem readRecords_of_blank {raw : List UInt8} (blank : content raw = []) (number : Nat)
    (before : List InterceptRecord) (rest : List (List UInt8)) :
    readRecords number before (raw :: rest) = readRecords (number + 1) before rest := by
  have empty : (Text.trimBoth Text.isBlankByte raw).isEmpty = true := List.isEmpty_iff.2 blank
  simp only [readRecords, empty, if_true]

theorem readRecords_of_visible {raw : List UInt8} (visible : content raw ≠ []) (number : Nat)
    (before : List InterceptRecord) (rest : List (List UInt8)) :
    readRecords number before (raw :: rest) =
      let (r, findings) := readRecord before (content raw)
      let (records, later) := readRecords (number + 1) (before ++ r.toList) rest
      (r.toList ++ records, findings.map (fun f => (number, f)) ++ later) := by
  have nonempty : ¬(Text.trimBoth Text.isBlankByte raw).isEmpty = true :=
    fun empty => visible (List.isEmpty_iff.1 empty)
  simp only [readRecords, if_neg nonempty, content]

/-- The records of a manifest are those on its lines. -/
theorem records_readRecords (number : Nat) (before : List InterceptRecord)
    (lines : List (List UInt8)) :
    (readRecords number before lines).1 = recordsOn lines := by
  induction lines generalizing number before with
  | nil => rfl
  | cons raw rest ih =>
    by_cases blank : content raw = []
    · rw [readRecords_of_blank blank, ih, recordsOn_cons, recordOn?_eq_none_of_blank blank]
      rfl
    · rw [readRecords_of_visible blank, recordsOn_cons, ← (readRecord_content blank before).1,
        ← ih (number + 1) (before ++ (readRecord before (content raw)).1.toList)]

/-- What is found is what is wrong with the lines, each at its own number.  The induction is on
the lines, with the records on the lines before. -/
theorem mem_readRecords_iff {start : Nat} {before : List InterceptRecord}
    {lines : List (List UInt8)} {number : Nat} {f : Finding} :
    (number, f) ∈ (readRecords start before lines).2 ↔
      ∃ k raw, lines[k]? = some raw ∧ number = start + k ∧
        IsFault (before ++ recordsOn (lines.take k)) raw f := by
  induction lines generalizing start before with
  | nil => simp [readRecords]
  | cons raw rest ih =>
    -- A line is the first one, or it is one of the others and has the records of the first before.
    have split : (∃ k line, (raw :: rest)[k]? = some line ∧ number = start + k ∧
        IsFault (before ++ recordsOn ((raw :: rest).take k)) line f) ↔
        (number = start ∧ IsFault before raw f) ∨
          ∃ k line, rest[k]? = some line ∧ number = start + 1 + k ∧
            IsFault (before ++ (recordOn? raw).toList ++ recordsOn (rest.take k)) line f := by
      have further (k : Nat) : before ++ recordsOn ((raw :: rest).take (k + 1)) =
          before ++ (recordOn? raw).toList ++ recordsOn (rest.take k) := by
        rw [List.take_succ_cons, recordsOn_cons, List.append_assoc]
      constructor
      · rintro ⟨k, line, at', rfl, fault⟩
        cases k with
        | zero =>
          cases at'
          exact Or.inl ⟨rfl, by simpa [recordsOn] using fault⟩
        | succ k =>
          rw [further] at fault
          exact Or.inr ⟨k, line, at', by omega, fault⟩
      · rintro (⟨rfl, fault⟩ | ⟨k, line, at', rfl, fault⟩)
        · exact ⟨0, raw, rfl, rfl, by simpa [recordsOn] using fault⟩
        · rw [← further] at fault
          exact ⟨k + 1, line, at', by omega, fault⟩
    rw [split]
    by_cases blank : content raw = []
    · rw [readRecords_of_blank blank, ih, recordOn?_eq_none_of_blank blank]
      simp only [not_isFault_of_blank blank, Option.toList_none, List.append_nil, and_false,
        false_or]
    · obtain ⟨record, found⟩ := readRecord_content blank before
      rw [readRecords_of_visible blank]
      simp only [record, List.mem_append, ih, List.mem_map, Prod.mk.injEq]
      constructor
      · rintro (⟨g, mem, rfl, rfl⟩ | later)
        · exact Or.inl ⟨rfl, (found g).1 mem⟩
        · exact Or.inr later
      · rintro (⟨rfl, fault⟩ | later)
        · exact Or.inl ⟨f, (found f).2 fault, rfl, rfl⟩
        · exact Or.inr later

/-- Lines of a manifest in which nothing is wrong. -/
structure AreSound (lines : List (List UInt8)) : Prop where
  readable : ∀ raw ∈ lines, content raw ≠ [] → ∃ r, recordOn? raw = some r
  versions : ∀ r ∈ recordsOn lines, r.schemaVersion = schemaVersion
  names : ((recordsOn lines).map (·.routineName)).Nodup
  keys : ((recordsOn lines).map (·.locationKey)).Nodup

/-- Elements that differ from all elements before them are distinct. -/
theorem nodup_map_filterMap_iff {α β : Type} {f : List UInt8 → Option α} {g : α → β}
    {lines : List (List UInt8)} :
    ((lines.filterMap f).map g).Nodup ↔
      ∀ (k : Nat) raw, lines[k]? = some raw → ∀ r, f raw = some r →
        ∀ b ∈ (lines.take k).filterMap f, g b ≠ g r := by
  rw [List.nodup_iff_pairwise_ne, List.pairwise_map, List.pairwise_filterMap,
    List.pairwise_iff_getElem]
  constructor
  · intro apart k raw at' r held b mem
    obtain ⟨line, inside, built⟩ := List.mem_filterMap.1 mem
    obtain ⟨j, small, rfl⟩ := List.mem_iff_getElem.1 inside
    obtain ⟨below, rfl⟩ := List.getElem?_eq_some_iff.1 at'
    rw [List.length_take] at small
    rw [List.getElem_take] at built
    exact apart j k (by omega) below (by omega) b built r held
  · intro apart j k _ below less b built r held
    refine apart k _ (List.getElem?_eq_getElem below) r held b (List.mem_filterMap.2 ⟨_, ?_, built⟩)
    rw [List.mem_iff_getElem]
    refine ⟨j, by rw [List.length_take]; omega, ?_⟩
    rw [List.getElem_take]

/-- Nothing is found on the lines of a manifest exactly when nothing is wrong with them. -/
theorem readRecords_eq_nil_iff {start : Nat} {lines : List (List UInt8)} :
    (readRecords start [] lines).2 = [] ↔ AreSound lines := by
  have lineByLine : (readRecords start [] lines).2 = [] ↔
      ∀ (k : Nat) raw, lines[k]? = some raw → ∀ f, ¬IsFault (recordsOn (lines.take k)) raw f := by
    rw [List.eq_nil_iff_forall_not_mem]
    constructor
    · intro none k raw at' f fault
      exact none (start + k, f) (mem_readRecords_iff.2 ⟨k, raw, at', rfl, fault⟩)
    · rintro sound ⟨number, f⟩ mem
      obtain ⟨k, raw, at', -, fault⟩ := mem_readRecords_iff.1 mem
      exact sound k raw at' f fault
  rw [lineByLine]
  simp only [forall_not_isFault_iff]
  constructor
  · intro sound
    refine ⟨?_, ?_, ?_, ?_⟩
    · intro raw mem
      obtain ⟨k, at'⟩ := List.mem_iff_getElem?.1 mem
      exact (sound k raw at').1
    · intro r mem
      obtain ⟨raw, inside, held⟩ := List.mem_filterMap.1 mem
      obtain ⟨k, at'⟩ := List.mem_iff_getElem?.1 inside
      exact ((sound k raw at').2 r held).version
    · exact nodup_map_filterMap_iff.2 fun k raw at' r held => ((sound k raw at').2 r held).name
    · exact nodup_map_filterMap_iff.2 fun k raw at' r held => ((sound k raw at').2 r held).key
  · rintro ⟨readable, versions, names, keys⟩ k raw at'
    have mem := List.mem_iff_getElem?.2 ⟨k, at'⟩
    refine ⟨readable raw mem, fun r held => ⟨?_, ?_, ?_⟩⟩
    · exact versions r (List.mem_filterMap.2 ⟨raw, mem, held⟩)
    · exact nodup_map_filterMap_iff.1 names k raw at' r held
    · exact nodup_map_filterMap_iff.1 keys k raw at' r held

end CallSiteIds.Validation
