import CallSiteIds.Proofs.Collection.Fates
import CallSiteIds.Proofs.Pass.Calls
import CallSiteIds.Proofs.Record.Documents
import Mathlib.Data.List.Sort

/-!
# What becomes of one call

Building a record from a descriptor ends in one of three ways, and the descriptor settles in
which: the first marker that cannot be decoded is reported, whether the place is known or not;
otherwise there is no record when no parameter is marked or the place is not known; otherwise
there is the one record that says what the descriptor says (`IsRecordOf`).  The scan of the
parameters keeps the positions in increasing order, and a place that is resolved is neither empty
nor negative, so the record passes every check of its models and its place has a key
(`building_settled`).
-/

set_option autoImplicit false

namespace CallSiteIds

namespace InvocationDescriptor

variable {names : List String} {d : InvocationDescriptor}

/-! ## The first malformed marker -/

/-- The first marker of a parameter cannot be decoded. -/
def FailsWith (names : List String) (p : ParameterDescriptor) (e : Marker.ArgumentError) : Prop :=
  ∃ a, Marker.find? names p = some a ∧ Marker.decode a = .error e

/-- The report of the first parameter whose marker cannot be decoded. -/
def IsFirstMalformed (names : List String) (target : String) (ps : List ParameterDescriptor)
    (m : MalformedMarker) : Prop :=
  ∃ before p after e, ps = before ++ p :: after ∧ (∀ q ∈ before, ∀ e', ¬FailsWith names q e') ∧
    FailsWith names p e ∧ m = ⟨p.name, target, e⟩

/-- A parameter that does not fail leaves the report to those after it. -/
theorem isFirstMalformed_cons_iff {target : String} {p : ParameterDescriptor}
    {ps : List ParameterDescriptor} {m : MalformedMarker} (fine : ∀ e, ¬FailsWith names p e) :
    IsFirstMalformed names target (p :: ps) m ↔ IsFirstMalformed names target ps m := by
  constructor
  · rintro ⟨before, q, after, e, split, earlier, fails, rfl⟩
    cases before with
    | nil =>
      injection split with same
      exact absurd (same ▸ fails) (fine e)
    | cons r before =>
      injection split with same later
      exact ⟨before, q, after, e, later, fun s mem => earlier s (List.mem_cons_of_mem _ mem),
        fails, rfl⟩
  · rintro ⟨before, q, after, e, rfl, earlier, fails, rfl⟩
    refine ⟨p :: before, q, after, e, rfl, ?_, fails, rfl⟩
    rw [List.forall_mem_cons]
    exact ⟨fine, earlier⟩

theorem isFirstMalformed_cons_of_failsWith {target : String} {p : ParameterDescriptor}
    {ps : List ParameterDescriptor} {m : MalformedMarker} {e : Marker.ArgumentError}
    (fails : FailsWith names p e) :
    IsFirstMalformed names target (p :: ps) m ↔ m = ⟨p.name, target, e⟩ := by
  constructor
  · rintro ⟨before, q, after, e', split, earlier, other, rfl⟩
    cases before with
    | nil =>
      injection split with same
      subst same
      obtain ⟨a, found, decoded⟩ := fails
      obtain ⟨b, found', decoded'⟩ := other
      rw [found, Option.some.injEq] at found'
      rw [← found', decoded, Except.error.injEq] at decoded'
      rw [decoded']
    | cons r before =>
      injection split with same
      exact absurd (same ▸ fails) (earlier r List.mem_cons_self e)
  · rintro rfl
    exact ⟨[], p, ps, e, rfl, by simp, fails, rfl⟩

/-- The scan of the parameters stops at the first one whose marker cannot be decoded. -/
theorem markedFrom_eq_error_iff {target : String} {start : Nat} {ps : List ParameterDescriptor}
    {m : MalformedMarker} :
    markedFrom names target start ps = .error m ↔ IsFirstMalformed names target ps m := by
  induction ps generalizing start with
  | nil =>
    refine iff_of_false (by simp [markedFrom]) ?_
    rintro ⟨before, p, after, e, split, -⟩
    cases before <;> cases split
  | cons p ps ih =>
    have later := @ih (start + 1)
    rw [markedFrom]
    cases found : Marker.find? names p with
    | none =>
      rw [isFirstMalformed_cons_iff, ← later]
      rintro e ⟨a, marked, -⟩
      rw [found] at marked
      cases marked
    | some a =>
      cases decoded : Marker.decode a with
      | error e =>
        simp only [decoded]
        rw [isFirstMalformed_cons_of_failsWith ⟨a, found, decoded⟩, Except.error.injEq, eq_comm]
      | ok config =>
        rw [isFirstMalformed_cons_iff, ← later]
        · simp only [decoded]
          cases markedFrom names target (start + 1) ps <;> simp
        · rintro e ⟨b, marked, fails⟩
          rw [found, Option.some.injEq] at marked
          rw [← marked, decoded] at fails
          cases fails

/-! ## The place -/

/-- Some part of the place of a call is not known: there is none, its path is absent or empty, or
its line or column is absent or negative. -/
def LacksPlace (d : InvocationDescriptor) : Prop :=
  ∀ l ∈ d.location, (∀ path ∈ l.path, path = "") ∨ (∀ line ∈ l.line, line < 0) ∨
    ∀ column ∈ l.column, column < 0

theorem sourceLocation?_eq_some_iff {l : SourceLocation} :
    d.sourceLocation? = some l ↔
      d.location = some ⟨some l.path, some l.line, some l.column⟩ ∧ l.path ≠ "" := by
  rw [sourceLocation?, Option.bind_eq_some_iff]
  simp only [resolve?_eq_some_iff]
  constructor
  · rintro ⟨_, located, rfl, path⟩
    exact ⟨located, path⟩
  · rintro ⟨located, path⟩
    exact ⟨_, located, rfl, path⟩

theorem sourceLocation?_eq_none_iff : d.sourceLocation? = none ↔ d.LacksPlace := by
  rw [← not_iff_not, ← ne_eq, Option.ne_none_iff_exists']
  simp only [sourceLocation?_eq_some_iff]
  constructor
  · rintro ⟨l, located, path⟩ lacks
    rcases lacks _ located with empty | negative | negative
    · exact path (empty _ rfl)
    · have := negative _ rfl
      omega
    · have := negative _ rfl
      omega
  · intro known
    simp only [LacksPlace, not_forall, not_or] at known
    obtain ⟨⟨path, line, column⟩, located, ⟨s, hs, known⟩, ⟨i, hi, atLine⟩, ⟨j, hj, atColumn⟩⟩ :=
      known
    obtain ⟨rfl, rfl, rfl⟩ : path = some s ∧ line = some i ∧ column = some j := ⟨hs, hi, hj⟩
    refine ⟨⟨s, i.toNat, j.toNat⟩, ?_, known⟩
    rw [Int.toNat_of_nonneg (Int.not_lt.1 atLine), Int.toNat_of_nonneg (Int.not_lt.1 atColumn)]
    exact located

/-! ## The record -/

/-- What the record of a call says: what the descriptor says of the method, the place with its key,
and for each parameter with a marker what the first marker asks for. -/
structure IsRecordOf (names : List String) (d : InvocationDescriptor) (r : CallSiteRecord) :
    Prop where
  targetType : r.targetType = d.targetType
  methodName : r.methodName = d.methodName
  returnType : r.returnType = d.returnType
  isStatic : r.isStatic = d.isStatic
  interceptsData : r.interceptsData = d.interceptsData
  location : d.location =
    some ⟨some r.location.path, some r.location.line, some r.location.column⟩
  path : r.location.path ≠ ""
  key : (Location.Position.mk r.location.path r.location.line r.location.column).key =
    .ok r.locationKey
  parameters : r.parameters = d.parameters.map ParameterDescriptor.info
  increasing : (r.markedParameters.map (·.ordinal)).Pairwise (· < ·)
  positions : ∀ o, o ∈ r.markedParameters.map (·.ordinal) ↔
    ∃ p, d.parameters[o]? = some p ∧ (Marker.find? names p).isSome = true
  decoded : ∀ m ∈ r.markedParameters, ∃ p a config, d.parameters[m.ordinal]? = some p ∧
    Marker.find? names p = some a ∧ Marker.decode a = .ok config ∧
      m = ⟨m.ordinal, .settled config.format, config.lead, config.deterministic⟩

/-- Each marked parameter is what the first marker at its position asks for. -/
theorem exists_decode_of_markedFrom {target : String} {start : Nat}
    {ps : List ParameterDescriptor} {ms : List MarkedParameter}
    (h : markedFrom names target start ps = .ok ms) :
    ∀ m ∈ ms, ∃ i p a config, ps[i]? = some p ∧ Marker.find? names p = some a ∧
      Marker.decode a = .ok config ∧
        m = ⟨start + i, .settled config.format, config.lead, config.deterministic⟩ := by
  induction ps generalizing start ms with
  | nil =>
    injection h with h
    subst h
    intro m mem
    cases mem
  | cons p ps ih =>
    -- What holds after the first parameter holds one position further on.
    have further {ms : List MarkedParameter}
        (h : markedFrom names target (start + 1) ps = .ok ms) (m : MarkedParameter)
        (mem : m ∈ ms) : ∃ i q a config, (p :: ps)[i]? = some q ∧ Marker.find? names q = some a ∧
          Marker.decode a = .ok config ∧
            m = ⟨start + i, .settled config.format, config.lead, config.deterministic⟩ := by
      obtain ⟨i, q, a, config, at', found, decoded, rfl⟩ := ih h m mem
      exact ⟨i + 1, q, a, config, at', found, decoded, by rw [Nat.add_right_comm, Nat.add_assoc]⟩
    obtain ⟨-, read⟩ | ⟨a, config, later, found, decoded, read, rfl⟩ :=
      markedFrom_cons_eq_ok_iff.1 h
    · exact further read
    · rw [List.forall_mem_cons]
      exact ⟨⟨0, p, a, config, rfl, found, decoded, rfl⟩, further read⟩

theorem marked_eq_nil_iff {ms : List MarkedParameter} (h : d.marked names = .ok ms) :
    ms = [] ↔ ∀ p ∈ d.parameters, Marker.find? names p = none := by
  have marked := areMarked_of_markedFrom h
  constructor
  · rintro rfl p mem
    obtain ⟨i, at'⟩ := List.mem_iff_getElem?.1 mem
    rw [← Option.not_isSome_iff_eq_none]
    intro found
    obtain ⟨m, inside, -⟩ := marked.complete i p at' found
    cases inside
  · intro plain
    refine List.eq_nil_iff_forall_not_mem.2 ?_
    intro m mem
    obtain ⟨i, p, a, config, at', found, -⟩ := exists_decode_of_markedFrom h m mem
    rw [plain p (List.mem_of_getElem? at')] at found
    cases found

theorem record?_eq_error_iff {m : MalformedMarker} :
    d.record? names = .error m ↔ d.marked names = .error m := by
  cases h : d.marked names with
  | error e => rw [record?_of_error h, Except.error.injEq, Except.error.injEq]
  | ok ms => simp [record?_of_marked h]

/-- There is no record when no parameter is marked or the place is not known. -/
theorem record?_eq_none_iff :
    d.record? names = .ok none ↔ ¬d.IsMalformed names ∧
      ((∀ p ∈ d.parameters, Marker.find? names p = none) ∨ d.LacksPlace) := by
  cases h : d.marked names with
  | error m =>
    rw [record?_of_error h]
    exact iff_of_false (by simp) fun fine => fine.1 (isMalformed_iff.2 ⟨m, h⟩)
  | ok ms =>
    rw [record?_of_marked h, ← sourceLocation?_eq_none_iff, ← marked_eq_nil_iff h]
    have fine := not_isMalformed_of_marked h
    by_cases none : ms = [] <;> simp [none, fine]

theorem isRecordOf_recordWith {ms : List MarkedParameter} {l : SourceLocation}
    (h : d.marked names = .ok ms) (located : d.sourceLocation? = some l) :
    d.IsRecordOf names (d.recordWith ms l) := by
  have marked := areMarked_of_markedFrom h
  have decoded := exists_decode_of_markedFrom h
  obtain ⟨location, path⟩ := sourceLocation?_eq_some_iff.1 located
  refine ⟨rfl, rfl, rfl, rfl, rfl, location, path, l.key_eq, rfl, marked.increasing, ?_, ?_⟩
  · intro o
    constructor
    · intro mem
      obtain ⟨m, inside, rfl⟩ := List.mem_map.1 mem
      obtain ⟨i, p, a, config, at', found, -, rfl⟩ := decoded m inside
      exact ⟨p, by simpa using at', by rw [found]; rfl⟩
    · rintro ⟨p, at', found⟩
      obtain ⟨m, mem, ordinal⟩ := marked.complete o p at' found
      exact List.mem_map.2 ⟨m, mem, by omega⟩
  · intro m mem
    obtain ⟨i, p, a, config, at', found, read, rfl⟩ := decoded m mem
    exact ⟨p, a, config, by simpa using at', found, read, rfl⟩

namespace IsRecordOf

variable {r s : CallSiteRecord} (hr : d.IsRecordOf names r) (hs : d.IsRecordOf names s)

include hr hs

theorem location_eq : r.location = s.location := by
  have same := hr.location.symm.trans hs.location
  simp only [Option.some.injEq, LocationDescriptor.mk.injEq, Int.natCast_inj] at same
  obtain ⟨path, line, column⟩ := same
  cases hl : r.location
  cases hl' : s.location
  simp_all

/-- A marked parameter is fixed by its position. -/
theorem eq_of_ordinal_eq {m n : MarkedParameter} (hm : m ∈ r.markedParameters)
    (hn : n ∈ s.markedParameters) (same : m.ordinal = n.ordinal) : m = n := by
  obtain ⟨p, a, config, at', found, read, made⟩ := hr.decoded m hm
  obtain ⟨q, b, config', at'', found', read', made'⟩ := hs.decoded n hn
  rw [same, at'', Option.some.injEq] at at'
  subst at'
  rw [found, Option.some.injEq] at found'
  subst found'
  rw [read, Except.ok.injEq] at read'
  rw [made, made', read', same]

/-- The positions are the same and in the same order, so the marked parameters are the same. -/
theorem markedParameters_eq : r.markedParameters = s.markedParameters := by
  have ordinals : r.markedParameters.map (·.ordinal) = s.markedParameters.map (·.ordinal) :=
    hr.increasing.eq_of_mem_iff hs.increasing fun o => by
      rw [hr.positions, hs.positions]
  refine List.ext_getElem (by simpa using congrArg List.length ordinals) ?_
  intro i hi hi'
  refine eq_of_ordinal_eq hr hs (List.getElem_mem hi) (List.getElem_mem hi') ?_
  have same := congrArg (·[i]?) ordinals
  simpa [hi, hi'] using same

/-- A descriptor has at most one record. -/
theorem unique : r = s := by
  have location := location_eq hr hs
  have key : r.locationKey = s.locationKey := by
    have same := hr.key
    rw [location, hs.key, Except.ok.injEq] at same
    exact same.symm
  have marked := markedParameters_eq hr hs
  cases r
  cases s
  simp only [CallSiteRecord.mk.injEq]
  exact ⟨hr.targetType.trans hs.targetType.symm, hr.methodName.trans hs.methodName.symm,
    hr.returnType.trans hs.returnType.symm, hr.isStatic.trans hs.isStatic.symm, location, key,
    hr.interceptsData.trans hs.interceptsData.symm, hr.parameters.trans hs.parameters.symm, marked⟩

end IsRecordOf

/-- The record of a call passes every check of its models. -/
theorem read_document_of_record? {r : CallSiteRecord} (made : d.record? names = .ok (some r)) :
    CallSiteRecord.read r.document = .valid r := by
  have builds := builds_of_built? (built?_eq_some_iff.2 made)
  have known := sourceLocation?_eq_some_iff.1 builds.location
  exact CallSiteRecord.read_document_iff.2 ⟨CallSiteRecord.isValid_of_builds builds, known.2⟩

/-- A record is made exactly when no marker fails, some parameter is marked and the place is
known. -/
theorem exists_record?_eq_some_iff :
    (∃ r, d.record? names = .ok (some r)) ↔ ¬d.IsMalformed names ∧
      (∃ p ∈ d.parameters, Marker.find? names p ≠ none) ∧ ¬d.LacksPlace := by
  cases h : d.marked names with
  | error m =>
    rw [record?_of_error h]
    exact iff_of_false (by simp) fun fine => fine.1 (isMalformed_iff.2 ⟨m, h⟩)
  | ok ms =>
    have fine := not_isMalformed_of_marked h
    have some : (∃ p ∈ d.parameters, Marker.find? names p ≠ none) ↔ ms ≠ [] := by
      rw [ne_eq, marked_eq_nil_iff h]
      simp
    rw [record?_of_marked h, some, ← sourceLocation?_eq_none_iff]
    by_cases none : ms = []
    · simp [none]
    · cases located : d.sourceLocation? <;> simp [none, fine]

theorem isRecordOf_of_record? {r : CallSiteRecord} (made : d.record? names = .ok (some r)) :
    d.IsRecordOf names r := by
  cases h : d.marked names with
  | error m =>
    rw [record?_of_error h] at made
    cases made
  | ok ms =>
    rw [record?_of_marked h, Except.ok.injEq] at made
    split at made
    · cases made
    · obtain ⟨l, located, rfl⟩ := Option.map_eq_some_iff.1 made
      exact isRecordOf_recordWith h located

/-! ## All outcomes -/

/-- The first marker that cannot be decoded is reported, wherever the call stands; otherwise there
is no record exactly when no parameter is marked or the place is not known; otherwise there is the
one record that says what the descriptor says.  No check of its models stops that record, its place
has a key, and the numbers of a place that was read from a file are short enough to be written. -/
theorem building_settled (names : List String) (d : InvocationDescriptor) :
    (∀ m, d.record? names = .error m ↔ IsFirstMalformed names d.target d.parameters m) ∧
    ((∃ m, d.record? names = .error m) ↔ d.IsMalformed names) ∧
    (d.record? names = .ok none ↔ ¬d.IsMalformed names ∧
      ((∀ p ∈ d.parameters, Marker.find? names p = none) ∨ d.LacksPlace)) ∧
    ((∃ r, d.record? names = .ok (some r)) ↔ ¬d.IsMalformed names ∧
      (∃ p ∈ d.parameters, Marker.find? names p ≠ none) ∧ ¬d.LacksPlace) ∧
    ∀ r, d.record? names = .ok (some r) →
      (d.IsRecordOf names r ∧ ∀ s, d.IsRecordOf names s → s = r) ∧
      CallSiteRecord.read r.document = .valid r ∧
      ∀ bytes, d ∈ (DescriptorBatch.ofBytes bytes).descriptors →
        Decimal.HasFewDigits r.location.line ∧ Decimal.HasFewDigits r.location.column := by
  refine ⟨?_, ?_, record?_eq_none_iff, exists_record?_eq_some_iff, ?_⟩
  · intro m
    rw [record?_eq_error_iff]
    exact markedFrom_eq_error_iff
  · simp only [record?_eq_error_iff]
    exact isMalformed_iff.symm
  · intro r made
    have recorded := isRecordOf_of_record? made
    refine ⟨⟨recorded, fun s other => other.unique recorded⟩, read_document_of_record? made, ?_⟩
    intro bytes mem
    exact (DescriptorBatch.isMeasured_of_mem_descriptors mem).position _
      (sourceLocation?_eq_some_iff.2 ⟨recorded.location, recorded.path⟩)

/-- A call that is read from a file has a record, the same call without a place has none, and with
a malformed marker it is reported even without a place. -/
theorem building_settled_markedDescriptor :
    let names := Config.usual.markerNames
    let d := markedDescriptor "F" 1
    let r := markedRecord "F" 1
    d.record? names = .ok (some r) ∧ d.IsRecordOf names r ∧
      CallSiteRecord.read r.document = .valid r ∧
      d ∈ (DescriptorBatch.ofBytes (callFile [("F", 1)])).descriptors ∧
      Decimal.HasFewDigits r.location.line ∧
      { d with location := none }.record? names = .ok none ∧
      ∃ m, (Collection.callWith "F" [.null] none).record? names = .error m ∧
        IsFirstMalformed names "N.A.F" (Collection.callWith "F" [.null] none).parameters m := by
  intro names d r
  have made : d.record? names = .ok (some r) := rfl
  have mem : d ∈ (DescriptorBatch.ofBytes (callFile [("F", 1)])).descriptors := by
    rw [descriptors_callFile (by decide)]
    exact List.mem_singleton.2 rfl
  obtain ⟨-, -, -, -, recorded⟩ := building_settled names d
  obtain ⟨⟨mirrors, -⟩, passes, short⟩ := recorded r made
  obtain ⟨reported, -⟩ := building_settled names (Collection.callWith "F" [.null] none)
  exact ⟨made, mirrors, passes, mem, (short _ mem).1, rfl, _, rfl, (reported _).1 rfl⟩

end InvocationDescriptor

end CallSiteIds
