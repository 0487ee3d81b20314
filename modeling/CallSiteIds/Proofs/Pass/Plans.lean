import CallSiteIds.Pass
import CallSiteIds.Proofs.Collection.Kept
import CallSiteIds.Proofs.Descriptor.Bounds
import CallSiteIds.Proofs.Emission.Routines
import CallSiteIds.Proofs.Manifest.RoundTrip

/-!
# Plans

A plan comes from an accepted configuration and the bytes of one descriptor file.  Its manifest
names no routine and no call site twice, and all its numbers are bounded by the size of that
file.
-/

set_option autoImplicit false

namespace CallSiteIds

open Schema
open Schema.Checked (map_eq_valid seq_eq_valid andThen_eq_valid toExcept_eq_ok)

/-- The least number of bytes that is too large for the size of a file. -/
def FileTree.sizeLimit : Nat := 0x8000000000000000

/-! ## Accepted configurations -/

namespace Config

/-- A configuration that some settings give. -/
def IsAccepted (c : Config) : Prop :=
  ∃ v, read v = .valid c

theorem isAccepted_usual : usual.IsAccepted :=
  ⟨.object [], rfl⟩

theorem isAccepted_of_ofBytes {file : Place} {bytes : List UInt8} {c : Config}
    (h : ofBytes file bytes = .ok c) : c.IsAccepted := by
  rw [ofBytes] at h
  split at h
  · cases h
  · split at h
    · cases h
    · cases h
    · split at h
      · cases h
      · rename_i d read
        injection h with h
        subst h
        exact ⟨_, toExcept_eq_ok read⟩

theorem isAccepted_of_load {t : FileTree} {root : Place} {c : Config}
    (h : load t root = .ok c) : c.IsAccepted := by
  simp only [load] at h
  split at h
  · cases h
  · exact isAccepted_of_ofBytes h
  · injection h with h
    subst h
    exact isAccepted_usual

/-- A configuration is loaded from the configuration file, or it is the usual one and no such file
is found. -/
theorem load_eq_ok_iff {t : FileTree} {root : Place} {c : Config} :
    load t root = .ok c ↔
      ∃ entry, t.status (root ++ [fileName]) = .ok entry ∧
        ((∃ bytes, entry = some (.file bytes) ∧ ofBytes (root ++ [fileName]) bytes = .ok c) ∨
          (∀ bytes, entry ≠ some (.file bytes)) ∧ c = usual) := by
  simp only [load]
  cases status : t.status (root ++ [fileName]) with
  | error e => simp
  | ok entry =>
    cases entry with
    | none => simp [eq_comm]
    | some entry => cases entry <;> simp [eq_comm]

theorem ensure_eq_valid_iff {α : Type} {test : α → Bool} {violation : α → Violation}
    {read : Checked α} {x : α} :
    ensure test violation read = .valid x ↔ read = .valid x ∧ test x = true := by
  constructor
  · intro h
    obtain ⟨y, same, h⟩ := andThen_eq_valid h
    split at h
    · rename_i passed
      injection h with h
      subst h
      exact ⟨same, passed⟩
    · cases h
  · rintro ⟨rfl, passed⟩
    exact if_pos passed

/-- The conditions on the settings of a configuration. -/
structure IsValid (c : Config) : Prop where
  markers : c.markerNames ≠ []
  namespaceName : isNamespace c.namespaceName.toList = true
  className : isClassName c.className.toList = true
  sourceName : isFileName c.sourceName = true

theorem isValid_usual : usual.IsValid where
  markers := by decide
  namespaceName := by decide
  className := by decide
  sourceName := by decide

/-- A setting that is read from a field, or left as usual, meets its condition if the usual one
does. -/
theorem test_of_fieldOr {α : Type} (test : α → Bool) {name : String} {usual x : α}
    {fields : Fields} {violation : α → Violation} {read : Json.Value → Checked α}
    (h : fieldOr name usual (fun v => ensure test violation (read v)) fields = .valid x)
    (default : test usual = true) : test x = true := by
  rcases fieldOr_eq_valid h with rfl | ⟨v, -, read⟩
  · exact default
  · exact (ensure_eq_valid_iff.1 read).2

/-- An accepted configuration meets all conditions. -/
theorem isValid_of_isAccepted {c : Config} (h : c.IsAccepted) : c.IsValid := by
  obtain ⟨v, h⟩ := h
  obtain ⟨fields, -, h₀⟩ := model_eq_valid h
  obtain ⟨_, _, h₁, -, rfl⟩ := seq_eq_valid h₀
  obtain ⟨_, h₂, rfl⟩ := map_eq_valid h₁
  obtain ⟨_, declares, h₃, -, rfl⟩ := seq_eq_valid h₂
  obtain ⟨_, source, h₄, readSource, rfl⟩ := seq_eq_valid h₃
  obtain ⟨_, className, h₅, readClass, rfl⟩ := seq_eq_valid h₄
  obtain ⟨_, namespaceName, h₆, readNamespace, rfl⟩ := seq_eq_valid h₅
  obtain ⟨_, markers, h₇, readMarkers, rfl⟩ := seq_eq_valid h₆
  obtain ⟨_, descriptors, h₈, -, rfl⟩ := seq_eq_valid h₇
  obtain ⟨output, -, rfl⟩ := map_eq_valid h₈
  have markersTest : (!markers.isEmpty) = true :=
    test_of_fieldOr (fun names : List String => !names.isEmpty) readMarkers rfl
  have namespaceTest : isNamespace namespaceName.toList = true :=
    test_of_fieldOr (fun s : String => isNamespace s.toList) readNamespace
      isValid_usual.namespaceName
  have classTest : isClassName className.toList = true :=
    test_of_fieldOr (fun s : String => isClassName s.toList) readClass isValid_usual.className
  have sourceTest : isFileName source = true :=
    test_of_fieldOr isFileName readSource isValid_usual.sourceName
  refine ⟨?_, namespaceTest, classTest, sourceTest⟩
  rintro rfl
  cases markersTest

/-- The source of an accepted configuration is named like a file. -/
theorem isFileName_of_isAccepted {c : Config} (h : c.IsAccepted) :
    isFileName c.sourceName = true :=
  (isValid_of_isAccepted h).sourceName

end Config

/-- A file name is a path of one part. -/
theorem Path.ofString_of_isFileName {s : String} (h : Config.isFileName s = true) :
    Path.ofString s = ⟨.relative, [s]⟩ := by
  simp only [Config.isFileName, Bool.and_eq_true, bne_iff_ne, ne_eq, Bool.not_eq_true',
    List.contains_eq_mem, decide_eq_false_iff_not] at h
  obtain ⟨⟨⟨⟨nonempty, slashless⟩, -⟩, dot⟩, -⟩ := h
  have front : s.toList.takeWhile (· == '/') = [] := by
    cases cs : s.toList with
    | nil => rfl
    | cons c rest =>
      rw [cs, List.mem_cons, not_or] at slashless
      exact List.takeWhile_cons_of_neg (by simpa using Ne.symm slashless.1)
  have step : Path.isStep s = true := by
    simp [Path.isStep, nonempty, dot]
  simp only [Path.ofString, front, Text.splitAll_of_notMem slashless]
  simp [step]

/-! ## The records of a file -/

/-- The records that a pass keeps of the descriptors in a file. -/
def keptRecords (config : Config) (bytes : List UInt8) : List CallSiteRecord :=
  (Collection.ofDescriptors config.markerNames (DescriptorBatch.ofBytes bytes).descriptors).records

/-- The records that the descriptors in a file build, in the order of their lines. -/
def builtRecords (config : Config) (bytes : List UInt8) : List CallSiteRecord :=
  Collection.builtBy config.markerNames (DescriptorBatch.ofBytes bytes).descriptors

/-- What a pass emits for the descriptors in a file. -/
def passEmission (config : Config) (bytes : List UInt8) : Emission :=
  Emission.generate config.unitOptions (keptRecords config bytes)

/-! ## How a plan is made -/

namespace Plan

def configOf (t : FileTree) (r : PassRequest) : Except Problem Config :=
  match r.config with
  | some config => .ok config
  | none => Config.load t r.root

/-- The output directory of a request. -/
def outputOf (r : PassRequest) (config : Config) : Except Problem Place :=
  match r.outputDirectory with
  | some place => .ok place
  | none => Config.resolveOutput r.root config.outputDirectory

/-- The descriptor file of a request. -/
def descriptorsOf (s : Surroundings) (r : PassRequest) (config : Config) :
    Except Problem Place :=
  match r.descriptors with
  | some place => .ok place
  | none => Config.resolveDescriptors s r.root config.descriptors

/-- A plan is made in three steps before the descriptors are read. -/
theorem make_eq_bind (s : Surroundings) (t : FileTree) (r : PassRequest) :
    make s t r =
      (configOf t r).bind fun config =>
        (outputOf r config).bind fun output =>
          (descriptorsOf s r config).bind fun descriptors =>
            match t.read descriptors with
            | .error e => .error (.descriptors descriptors e)
            | .ok bytes => .ok (ofBatch config output descriptors (.ofBytes bytes)) := by
  unfold make configOf outputOf descriptorsOf
  cases r.config <;> cases r.outputDirectory <;> cases r.descriptors <;> rfl

theorem bind_eq_ok {ε α β : Type} {x : Except ε α} {f : α → Except ε β} {b : β}
    (h : x.bind f = .ok b) : ∃ a, x = .ok a ∧ f a = .ok b := by
  cases x with
  | error e => cases h
  | ok a => exact ⟨a, rfl, h⟩

theorem bind_eq_error {ε α β : Type} {x : Except ε α} {f : α → Except ε β} {e : ε}
    (h : x.bind f = .error e) : x = .error e ∨ ∃ a, x = .ok a ∧ f a = .error e := by
  cases x with
  | error e' =>
    injection h with h
    exact .inl (congrArg _ h)
  | ok a => exact .inr ⟨a, rfl, h⟩

/-- A plan is made from the configuration of the request, the places that both name, and the bytes
of a file. -/
theorem make_eq_ok_iff {s : Surroundings} {t : FileTree} {r : PassRequest} {p : Plan} :
    make s t r = .ok p ↔
      ∃ (config : Config) (output descriptors : Place) (bytes : List UInt8),
        configOf t r = .ok config ∧ outputOf r config = .ok output ∧
          descriptorsOf s r config = .ok descriptors ∧ t.read descriptors = .ok bytes ∧
          p = ofBatch config output descriptors (.ofBytes bytes) := by
  rw [make_eq_bind]
  constructor
  · intro h
    obtain ⟨config, configured, h₁⟩ := bind_eq_ok h
    obtain ⟨output, chosen, h₂⟩ := bind_eq_ok h₁
    obtain ⟨descriptors, described, h₃⟩ := bind_eq_ok h₂
    split at h₃
    · cases h₃
    · rename_i bytes read
      injection h₃ with h₃
      exact ⟨config, output, descriptors, bytes, configured, chosen, described, read, h₃.symm⟩
  · rintro ⟨config, output, descriptors, bytes, configured, chosen, described, read, rfl⟩
    simp only [configured, chosen, described, read, Except.bind]

/-- A plan is made from the configuration of the request and the bytes of a file. -/
theorem exists_batch_of_make {s : Surroundings} {t : FileTree} {r : PassRequest} {p : Plan}
    (h : make s t r = .ok p) :
    ∃ (config : Config) (descriptors : Place) (bytes : List UInt8),
      configOf t r = .ok config ∧ descriptorsOf s r config = .ok descriptors ∧
        t.read descriptors = .ok bytes ∧
        p = ofBatch config p.outputDirectory descriptors (.ofBytes bytes) := by
  obtain ⟨config, output, descriptors, bytes, configured, -, described, read, rfl⟩ :=
    make_eq_ok_iff.1 h
  exact ⟨config, descriptors, bytes, configured, described, read, rfl⟩

theorem isAccepted_of_configOf {t : FileTree} {r : PassRequest} {config : Config}
    (accepted : ∀ c ∈ r.config, c.IsAccepted) (h : configOf t r = .ok config) :
    config.IsAccepted := by
  rw [configOf] at h
  split at h
  · rename_i c given
    injection h with e
    subst e
    exact accepted c given
  · exact Config.isAccepted_of_load h

/-- A plan is made from an accepted configuration and the bytes of a file. -/
theorem exists_of_make {s : Surroundings} {t : FileTree} {r : PassRequest} {p : Plan}
    (accepted : ∀ c ∈ r.config, c.IsAccepted) (h : make s t r = .ok p) :
    ∃ (config : Config) (descriptors : Place) (bytes : List UInt8),
      config.IsAccepted ∧ t.read descriptors = .ok bytes ∧
        p = ofBatch config p.outputDirectory descriptors (.ofBytes bytes) := by
  obtain ⟨config, descriptors, bytes, configured, -, read, same⟩ := exists_batch_of_make h
  exact ⟨config, descriptors, bytes, isAccepted_of_configOf accepted configured, read, same⟩

/-! ## What a plan holds -/

section OfBatch

variable (config : Config) (output descriptors : Place) (bytes : List UInt8)

theorem nodup_names_ofBatch :
    ((ofBatch config output descriptors (.ofBytes bytes)).intercepts.map (·.routineName)).Nodup :=
  Emission.nodup_names _ _

theorem nodup_keys_ofBatch :
    ((ofBatch config output descriptors (.ofBytes bytes)).intercepts.map (·.locationKey)).Nodup :=
  Emission.nodup_keys _ (Collection.nodup_keys_records _ _)

/-- The manifest lists the kept records in sorted order, and leaves none out. -/
theorem map_intercepts_ofBatch :
    (ofBatch config output descriptors (.ofBytes bytes)).intercepts.map
        (fun i => (i.locationKey, i.target)) =
      (CallSiteRecord.sorted (keptRecords config bytes)).map fun r => (r.locationKey, r.target) :=
  Emission.map_intercepts_of_settled fun _ mem => Collection.settled_of_mem_records mem

/-- The numbers that a file with fewer bytes can give have at most 64 bits. -/
theorem fitsWord_of_le {n : Nat} {i : Nat} (countable : n < FileTree.sizeLimit) (le : i ≤ n) :
    Json.fitsWord (i : Int) = true := by
  simp only [Json.fitsWord, Bool.and_eq_true, decide_eq_true_eq]
  rw [FileTree.sizeLimit] at countable
  omega

/-- Manifest records are of the current version, and they hold small numbers if no descriptor has
very many parameters. -/
theorem fits_intercepts (names : List String) (options : Source.UnitOptions)
    {ds : List InvocationDescriptor} (few : ∀ d ∈ ds, d.parameters.length < FileTree.sizeLimit) :
    ∀ i ∈ (Emission.generate options (Collection.ofDescriptors names ds).records).intercepts,
      i.schemaVersion = schemaVersion ∧ i.FitsWord := by
  intro i mem
  obtain ⟨r, kept, n, made, emitted, -⟩ := Emission.exists_of_mem_intercepts mem
  obtain ⟨d, inside, builds⟩ := Collection.exists_builds_of_mem_records kept
  refine ⟨emitted.schemaVersion, ?_, ?_⟩
  · rw [emitted.schemaVersion]
    rfl
  · intro a assigned
    obtain ⟨m, marked, answers⟩ :=
      (CallSiteRecord.answers_of_literalsOf emitted.literals).1 a assigned
    have range := builds.marked.range m marked
    rw [answers.ordinal]
    exact fitsWord_of_le (few d inside) (by omega)

theorem fits_intercepts_ofBatch (countable : bytes.length < FileTree.sizeLimit) :
    ∀ i ∈ (ofBatch config output descriptors (.ofBytes bytes)).intercepts,
      i.schemaVersion = schemaVersion ∧ i.FitsWord :=
  fits_intercepts _ _ fun _ mem =>
    Nat.lt_of_le_of_lt (DescriptorBatch.isMeasured_of_mem_descriptors mem).parameters countable

theorem fits_summary_ofBatch (countable : bytes.length < FileTree.sizeLimit) :
    (ofBatch config output descriptors (.ofBytes bytes)).summary.FitsWord := by
  have descriptorCount := DescriptorBatch.length_descriptors_le bytes
  have candidates := Collection.candidateCount_le config.markerNames
    (DescriptorBatch.ofBytes bytes).descriptors
  have records := Collection.length_records_le
    (.ofDescriptors config.markerNames (DescriptorBatch.ofBytes bytes).descriptors)
  have routines := Emission.length_intercepts_le config.unitOptions
    (Collection.ofDescriptors config.markerNames
      (DescriptorBatch.ofBytes bytes).descriptors).records
  have unnumbered {f : RecordFailure} (none : f.line = none) : f.FitsWord := by
    intro n mem
    rw [none] at mem
    cases mem
  exact {
    schemaVersion := rfl
    candidateCount := fitsWord_of_le countable (Nat.le_trans candidates descriptorCount)
    recordCount := fitsWord_of_le countable (by omega)
    routineCount := fitsWord_of_le countable (Nat.le_trans routines (by omega))
    dropped := fun f mem => unnumbered (Collection.line_of_mem_reports (Or.inl mem))
    failures := by
      intro f mem
      rw [ofBatch, List.mem_append, List.mem_append] at mem
      rcases mem with (mem | mem) | mem
      · obtain ⟨line, number, le⟩ := DescriptorBatch.line_le_of_mem_errors mem
        intro n inside
        rw [number] at inside
        injection inside with e
        subst e
        exact fitsWord_of_le countable le
      · exact unnumbered (Collection.line_of_mem_reports (Or.inr mem))
      · exact unnumbered (Emission.line_of_mem_failures mem) }

end OfBatch

end Plan

end CallSiteIds
