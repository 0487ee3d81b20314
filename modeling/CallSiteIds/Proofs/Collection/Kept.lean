import CallSiteIds.Collection

/-!
# The call sites that are kept

Of the candidates that build a record with the same key the first is kept, and no other
candidate has a say.  So the kept records are fixed by the first record that is built for each
key (`firstWith?_records`), their keys are distinct, and each comes from a descriptor.
-/

set_option autoImplicit false

namespace CallSiteIds

/-! ## Marked parameters -/

/-- What the marker of a parameter asks for: none when there is no marker, or a malformed one. -/
def Marker.asked? (names : List String) (p : ParameterDescriptor) : Option Marker.Config :=
  (Marker.find? names p).bind fun a =>
    match Marker.decode a with
    | .ok config => some config
    | .error _ => none

theorem Marker.isSome_find?_of_asked? {names : List String} {p : ParameterDescriptor}
    {config : Config} (h : asked? names p = some config) : (find? names p).isSome = true := by
  obtain ⟨a, found, -⟩ := Option.bind_eq_some_iff.1 h
  rw [found]
  rfl

namespace InvocationDescriptor

section Scan

variable {names : List String} {target : String} {start : Nat} {p : ParameterDescriptor}
  {rest : List ParameterDescriptor}

/-- One step of the scan that succeeds: the parameter is plain, or its marker is decoded. -/
theorem markedFrom_cons_eq_ok_iff {ms : List MarkedParameter} :
    markedFrom names target start (p :: rest) = .ok ms ↔
      (Marker.find? names p = none ∧ markedFrom names target (start + 1) rest = .ok ms) ∨
        ∃ a config later, Marker.find? names p = some a ∧ Marker.decode a = .ok config ∧
          markedFrom names target (start + 1) rest = .ok later ∧
            ms = ⟨start, .settled config.format, config.lead, config.deterministic⟩ :: later := by
  rw [markedFrom]
  cases found : Marker.find? names p with
  | none => simp
  | some a =>
    cases decoded : Marker.decode a with
    | error e => simp [decoded]
    | ok config =>
      cases markedFrom names target (start + 1) rest with
      | error m => simp [decoded]
      | ok later => simp [decoded, eq_comm]

/-- One step of the scan that fails: here, or further on behind a parameter that is fine. -/
theorem markedFrom_cons_eq_error_iff {m : MalformedMarker} :
    markedFrom names target start (p :: rest) = .error m ↔
      (∃ a e, Marker.find? names p = some a ∧ Marker.decode a = .error e ∧
        m = ⟨p.name, target, e⟩) ∨
        (∀ a, Marker.find? names p = some a → ∃ config, Marker.decode a = .ok config) ∧
          markedFrom names target (start + 1) rest = .error m := by
  rw [markedFrom]
  cases found : Marker.find? names p with
  | none => simp
  | some a =>
    cases decoded : Marker.decode a with
    | error e => simp [decoded, eq_comm]
    | ok config =>
      cases markedFrom names target (start + 1) rest with
      | error m => simp [decoded]
      | ok later => simp [decoded]

end Scan

/-- A marked parameter that keeps the position and the marker of one of the parameters, the
first of which has a given position. -/
def IsOneOf (names : List String) (ps : List ParameterDescriptor) (start : Nat)
    (m : MarkedParameter) : Prop :=
  ∃ i p config, m.ordinal = start + i ∧ ps[i]? = some p ∧ Marker.asked? names p = some config ∧
    m.format = .settled config.format ∧ m.lead = config.lead

/-- What the marked parameters of a list of parameters are, when the first parameter has a given
position. -/
structure AreMarked (names : List String) (ps : List ParameterDescriptor) (start : Nat)
    (ms : List MarkedParameter) : Prop where
  asked : ∀ m ∈ ms, IsOneOf names ps start m
  complete : ∀ i p, ps[i]? = some p → (Marker.find? names p).isSome = true →
    ∃ m ∈ ms, m.ordinal = start + i
  increasing : (ms.map (·.ordinal)).Pairwise (· < ·)

namespace AreMarked

variable {names : List String} {p : ParameterDescriptor} {ps : List ParameterDescriptor}
  {start : Nat} {ms : List MarkedParameter}

theorem range (h : AreMarked names ps start ms) :
    ∀ m ∈ ms, start ≤ m.ordinal ∧ m.ordinal < start + ps.length := by
  intro m mem
  obtain ⟨i, p, config, ordinal, at', -⟩ := h.asked m mem
  obtain ⟨small, -⟩ := List.getElem?_eq_some_iff.1 at'
  omega

theorem settled (h : AreMarked names ps start ms) :
    ∀ m ∈ ms, ∃ f, m.format = .settled f := by
  intro m mem
  obtain ⟨i, p, config, -, -, -, format, -⟩ := h.asked m mem
  exact ⟨_, format⟩

theorem isOneOf_cons {m : MarkedParameter} (h : IsOneOf names ps (start + 1) m) :
    IsOneOf names (p :: ps) start m := by
  obtain ⟨i, q, config, ordinal, rest⟩ := h
  exact ⟨i + 1, q, config, by omega, rest⟩

/-- A parameter without a marker in front adds nothing. -/
theorem cons_plain (plain : Marker.find? names p = none)
    (h : AreMarked names ps (start + 1) ms) : AreMarked names (p :: ps) start ms where
  asked := fun m mem => isOneOf_cons (h.asked m mem)
  complete := by
    intro i q at' found
    cases i with
    | zero =>
      injection at' with e
      subst e
      rw [plain] at found
      cases found
    | succ i =>
      obtain ⟨m, mem, ordinal⟩ := h.complete i q at' found
      exact ⟨m, mem, by omega⟩
  increasing := h.increasing

/-- A parameter with a well-formed marker in front is marked. -/
theorem cons_marked {config : Marker.Config} (asked : Marker.asked? names p = some config)
    (h : AreMarked names ps (start + 1) ms) :
    AreMarked names (p :: ps) start
      (⟨start, .settled config.format, config.lead, config.deterministic⟩ :: ms) where
  asked := by
    intro m mem
    rcases List.mem_cons.1 mem with rfl | mem
    · exact ⟨0, p, config, rfl, rfl, asked, rfl, rfl⟩
    · exact isOneOf_cons (h.asked m mem)
  complete := by
    intro i q at' found
    cases i with
    | zero => exact ⟨_, List.mem_cons_self, rfl⟩
    | succ i =>
      obtain ⟨m, mem, ordinal⟩ := h.complete i q at' found
      exact ⟨m, List.mem_cons_of_mem _ mem, by omega⟩
  increasing := by
    rw [List.map_cons, List.pairwise_cons]
    refine ⟨?_, h.increasing⟩
    intro o mem
    obtain ⟨m, inside, rfl⟩ := List.mem_map.1 mem
    have := h.range m inside
    show start < m.ordinal
    omega

end AreMarked

theorem areMarked_of_markedFrom {names : List String} {target : String} {start : Nat}
    {ps : List ParameterDescriptor} {ms : List MarkedParameter}
    (h : markedFrom names target start ps = .ok ms) : AreMarked names ps start ms := by
  induction ps generalizing start ms with
  | nil =>
    injection h with h
    subst h
    exact ⟨by simp, by simp, .nil⟩
  | cons p rest ih =>
    obtain ⟨plain, read⟩ | ⟨a, config, later, found, decoded, read, rfl⟩ :=
      markedFrom_cons_eq_ok_iff.1 h
    · exact (ih read).cons_plain plain
    · refine (ih read).cons_marked ?_
      simp only [Marker.asked?, found, Option.bind_some, decoded]

/-! ## Building a record -/

/-- The record that a descriptor builds, if it builds one. -/
def built? (names : List String) (d : InvocationDescriptor) : Option CallSiteRecord :=
  match d.record? names with
  | .ok r => r
  | .error _ => none

/-- What a record says that was built from a descriptor. -/
structure Builds (names : List String) (d : InvocationDescriptor) (r : CallSiteRecord) : Prop where
  location : d.sourceLocation? = some r.location
  key : r.locationKey = r.location.key
  parameters : r.parameters = d.parameters.map ParameterDescriptor.info
  marked : AreMarked names d.parameters 0 r.markedParameters
  nonempty : r.markedParameters ≠ []

/-- The record of a call from its marked parameters and its place. -/
def recordWith (d : InvocationDescriptor) (ms : List MarkedParameter) (l : SourceLocation) :
    CallSiteRecord where
  targetType := d.targetType
  methodName := d.methodName
  returnType := d.returnType
  isStatic := d.isStatic
  location := l
  locationKey := l.key
  interceptsData := d.interceptsData
  parameters := d.parameters.map ParameterDescriptor.info
  markedParameters := ms

theorem record?_of_error {names : List String} {d : InvocationDescriptor} {m : MalformedMarker}
    (h : d.marked names = .error m) : d.record? names = .error m := by
  rw [record?, h]

/-- Once the markers are read, the record is settled by what they give and by the place. -/
theorem record?_of_marked {names : List String} {d : InvocationDescriptor}
    {ms : List MarkedParameter} (h : d.marked names = .ok ms) :
    d.record? names =
      .ok (if ms = [] then none else d.sourceLocation?.map (d.recordWith ms)) := by
  rw [record?, h]
  cases ms with
  | nil => rfl
  | cons m ms =>
    rw [if_neg (List.cons_ne_nil m ms)]
    rfl

theorem built?_eq_some_iff {names : List String} {d : InvocationDescriptor} {r : CallSiteRecord} :
    d.built? names = some r ↔ d.record? names = .ok (some r) := by
  rw [built?]
  cases d.record? names <;> simp

theorem builds_of_built? {names : List String} {d : InvocationDescriptor} {r : CallSiteRecord}
    (h : d.built? names = some r) : d.Builds names r := by
  rw [built?_eq_some_iff] at h
  cases marked : d.marked names with
  | error m =>
    rw [record?_of_error marked] at h
    cases h
  | ok ms =>
    rw [record?_of_marked marked, Except.ok.injEq] at h
    split at h
    · cases h
    · rename_i nonempty
      obtain ⟨location, known, rfl⟩ := Option.map_eq_some_iff.1 h
      exact ⟨known, rfl, rfl, areMarked_of_markedFrom marked, nonempty⟩

theorem built?_of_not_isCandidate {names : List String} {d : InvocationDescriptor}
    (h : d.isCandidate names = false) : d.built? names = none := by
  cases made : d.built? names with
  | none => rfl
  | some r =>
    have builds := builds_of_built? made
    obtain ⟨m, mem⟩ := List.exists_mem_of_ne_nil _ builds.nonempty
    obtain ⟨i, p, config, -, at', asked, -⟩ := builds.marked.asked m mem
    have candidate : d.isCandidate names = true :=
      List.any_eq_true.2 ⟨p, List.mem_of_getElem? at', Marker.isSome_find?_of_asked? asked⟩
    rw [h] at candidate
    cases candidate

end InvocationDescriptor

/-! ## Keeping the first of each key -/

namespace Collection

open InvocationDescriptor (Builds built?_eq_some_iff builds_of_built? built?_of_not_isCandidate)

variable {names : List String}

/-- The records of the candidates that are kept after candidates with the given keys were kept. -/
def recordsFrom (names seen : List String) (ds : List InvocationDescriptor) :
    List CallSiteRecord :=
  (fatesFrom names seen ds).filterMap Fate.record?

/-- A descriptor that builds a record with a new key is kept. -/
theorem recordsFrom_cons_new {d : InvocationDescriptor} {r : CallSiteRecord}
    (built : d.built? names = some r) {seen : List String} (new : r.locationKey ∉ seen)
    (ds : List InvocationDescriptor) :
    recordsFrom names seen (d :: ds) = r :: recordsFrom names (r.locationKey :: seen) ds := by
  have candidate : d.isCandidate names = true := by
    cases h : d.isCandidate names with
    | true => rfl
    | false =>
      rw [built?_of_not_isCandidate h] at built
      cases built
  have made := built?_eq_some_iff.1 built
  have kept : Fate.ofCandidate names seen d = .kept r := by
    rw [Fate.ofCandidate, made]
    exact if_neg new
  rw [recordsFrom, fatesFrom, if_pos candidate]
  simp only [kept]
  rfl

/-- Any other descriptor leaves no trace among the kept records. -/
theorem recordsFrom_cons_old {d : InvocationDescriptor} {seen : List String}
    (old : ∀ r, d.built? names = some r → r.locationKey ∈ seen)
    (ds : List InvocationDescriptor) :
    recordsFrom names seen (d :: ds) = recordsFrom names seen ds := by
  rw [recordsFrom, fatesFrom]
  split
  · cases made : d.record? names with
    | error marker => simp only [Fate.ofCandidate, made, List.filterMap_cons, Fate.record?]; rfl
    | ok r =>
      cases r with
      | none => simp only [Fate.ofCandidate, made, List.filterMap_cons, Fate.record?]; rfl
      | some r =>
        have seen := old r (by rw [InvocationDescriptor.built?, made])
        simp only [Fate.ofCandidate, made, if_pos seen, List.filterMap_cons, Fate.record?]
        rfl
  · rfl

/-- The records that descriptors build, kept or not. -/
def builtBy (names : List String) (ds : List InvocationDescriptor) : List CallSiteRecord :=
  ds.filterMap (InvocationDescriptor.built? names)

def firstWith? (key : String) (rs : List CallSiteRecord) : Option CallSiteRecord :=
  rs.find? fun r => r.locationKey == key

/-- Kept records have new keys, and no two of them have the same key. -/
theorem keys_recordsFrom (names : List String) (seen : List String)
    (ds : List InvocationDescriptor) :
    (∀ r ∈ recordsFrom names seen ds, r.locationKey ∉ seen) ∧
      ((recordsFrom names seen ds).map (·.locationKey)).Nodup := by
  induction ds generalizing seen with
  | nil =>
    refine ⟨?_, List.nodup_nil⟩
    intro r mem
    cases mem
  | cons d ds ih =>
    by_cases old : ∀ r, d.built? names = some r → r.locationKey ∈ seen
    · rw [recordsFrom_cons_old old]
      exact ih seen
    · simp only [Classical.not_forall] at old
      obtain ⟨r, built, new⟩ := old
      obtain ⟨fresh, distinct⟩ := ih (r.locationKey :: seen)
      rw [recordsFrom_cons_new built new]
      constructor
      · intro s mem
        rcases List.mem_cons.1 mem with rfl | mem
        · exact new
        · exact fun inside => fresh s mem (List.mem_cons_of_mem _ inside)
      · rw [List.map_cons, List.nodup_cons]
        refine ⟨?_, distinct⟩
        intro mem
        obtain ⟨s, inside, e⟩ := List.mem_map.1 mem
        exact fresh s inside (e ▸ List.mem_cons_self)

/-- The kept record with a new key is the first one that was built for the key. -/
theorem firstWith?_recordsFrom {key : String} {seen : List String} (new : key ∉ seen)
    (ds : List InvocationDescriptor) :
    firstWith? key (recordsFrom names seen ds) = firstWith? key (builtBy names ds) := by
  induction ds generalizing seen with
  | nil => rfl
  | cons d ds ih =>
    cases built : d.built? names with
    | none =>
      rw [recordsFrom_cons_old (by simp [built]), ih new, builtBy, builtBy,
        List.filterMap_cons_none built]
    | some r =>
      rw [builtBy, List.filterMap_cons_some built]
      by_cases same : r.locationKey = key
      · subst same
        rw [recordsFrom_cons_new built new, firstWith?, firstWith?,
          List.find?_cons_of_pos (by simp), List.find?_cons_of_pos (by simp)]
      · have skip (rs : List CallSiteRecord) : firstWith? key (r :: rs) = firstWith? key rs :=
          List.find?_cons_of_neg (by simpa using same)
        rw [skip]
        by_cases old : r.locationKey ∈ seen
        · rw [recordsFrom_cons_old (by simp [built, old])]
          exact ih new
        · rw [recordsFrom_cons_new built old, skip]
          exact ih (by simp [new, Ne.symm same])

theorem nodup_keys_records (names : List String) (ds : List InvocationDescriptor) :
    ((ofDescriptors names ds).records.map (·.locationKey)).Nodup :=
  (keys_recordsFrom names [] ds).2

theorem firstWith?_records (key : String) (ds : List InvocationDescriptor) :
    firstWith? key (ofDescriptors names ds).records = firstWith? key (builtBy names ds) :=
  firstWith?_recordsFrom (by simp) ds

/-- A record is kept exactly when it is the first that is built for its key. -/
theorem mem_records_iff {ds : List InvocationDescriptor} {r : CallSiteRecord} :
    r ∈ (ofDescriptors names ds).records ↔
      firstWith? r.locationKey (builtBy names ds) = some r := by
  rw [← firstWith?_records]
  constructor
  · intro mem
    have distinct := nodup_keys_records names ds
    generalize (ofDescriptors names ds).records = rs at mem distinct
    induction rs with
    | nil => cases mem
    | cons s rs ih =>
      rw [List.map_cons, List.nodup_cons] at distinct
      rcases List.mem_cons.1 mem with rfl | mem
      · exact List.find?_cons_of_pos (by simp)
      · rw [firstWith?, List.find?_cons_of_neg]
        · exact ih mem distinct.2
        · intro same
          have same : s.locationKey = r.locationKey := by simpa using same
          exact distinct.1 (same ▸ List.mem_map_of_mem mem)
  · exact List.mem_of_find?_eq_some

/-- Every kept record is built by one of the descriptors. -/
theorem exists_builds_of_mem_records {ds : List InvocationDescriptor} {r : CallSiteRecord}
    (mem : r ∈ (ofDescriptors names ds).records) : ∃ d ∈ ds, Builds names d r := by
  have mem := List.mem_of_find?_eq_some (mem_records_iff.1 mem)
  obtain ⟨d, inside, built⟩ := List.mem_filterMap.1 mem
  exact ⟨d, inside, builds_of_built? built⟩

theorem settled_of_mem_records {ds : List InvocationDescriptor} {r : CallSiteRecord}
    (mem : r ∈ (ofDescriptors names ds).records) :
    ∀ m ∈ r.markedParameters, ∃ f, m.format = .settled f := by
  obtain ⟨d, -, builds⟩ := exists_builds_of_mem_records mem
  exact builds.marked.settled

/-! ## Counts -/

theorem candidateCount_le (names : List String) (ds : List InvocationDescriptor) :
    (ofDescriptors names ds).candidateCount ≤ ds.length := by
  have along : ∀ seen, (fatesFrom names seen ds).length ≤ ds.length := by
    induction ds with
    | nil => exact fun _ => Nat.le_refl _
    | cons d ds ih =>
      intro seen
      rw [fatesFrom]
      split
      · exact Nat.succ_le_succ (ih _)
      · exact Nat.le_succ_of_le (ih _)
  exact along []

theorem length_records_le (c : Collection) : c.records.length ≤ c.candidateCount :=
  List.length_filterMap_le _ _

/-- Neither a dropped nor a malformed candidate is reported with the number of a line. -/
theorem line_of_mem_reports {c : Collection} {f : RecordFailure}
    (mem : f ∈ c.dropped ∨ f ∈ c.failures) : f.line = none := by
  rcases mem with mem | mem
  · obtain ⟨fate, -, dropped⟩ := List.mem_filterMap.1 mem
    cases fate with
    | unlocated target =>
      cases dropped
      rfl
    | repeated key target =>
      cases dropped
      rfl
    | _ => cases dropped
  · obtain ⟨fate, -, failed⟩ := List.mem_filterMap.1 mem
    cases fate with
    | malformed key marker =>
      cases failed
      rfl
    | _ => cases failed

end Collection

end CallSiteIds
