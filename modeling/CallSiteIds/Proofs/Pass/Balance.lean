import CallSiteIds.Proofs.Collection.Fates
import CallSiteIds.Proofs.Descriptor.Lines
import CallSiteIds.Proofs.FileTree.Writing
import CallSiteIds.Proofs.Record.Validity
import CallSiteIds.Proofs.Validation.Output

/-!
# The summary balances

A pass counts three times: lines when the descriptor file is read, candidates when call sites are
collected, and routines when they are emitted.  Every stage hands on all that it does not report,
and the last one has nothing to report, because kept records are valid.  So what goes into a pass
comes out of it (`Balances`): a visible line is a descriptor or a report, and a candidate is a
routine, a dropped call or a report.
-/

set_option autoImplicit false

namespace CallSiteIds

/-! ## Malformed candidates -/

namespace InvocationDescriptor

/-- The report of a descriptor with a malformed marker. -/
def malformedReport? (names : List String) (d : InvocationDescriptor) : Option RecordFailure :=
  match d.marked names with
  | .error m => some ⟨d.locationKey?, some d.target, none, m.message⟩
  | .ok _ => none

theorem isCandidate_of_isMalformed {names : List String} {d : InvocationDescriptor}
    (malformed : d.IsMalformed names) : d.isCandidate names = true := by
  obtain ⟨p, mem, a, found, -⟩ := malformed
  unfold isCandidate
  rw [List.any_eq_true]
  exact ⟨p, mem, by rw [found]; rfl⟩

theorem malformedReport?_eq_none {names : List String} {d : InvocationDescriptor}
    (wellFormed : ¬d.IsMalformed names) : d.malformedReport? names = none := by
  unfold malformedReport?
  cases marked : d.marked names with
  | error m => exact absurd (isMalformed_iff.2 ⟨m, marked⟩) wellFormed
  | ok ms => rfl

end InvocationDescriptor

namespace Collection

open InvocationDescriptor (malformedReport? malformedReport?_eq_none isCandidate_of_isMalformed)

/-- The malformed descriptors are reported, and no others. -/
theorem failures_ofDescriptors (names : List String) (ds : List InvocationDescriptor) :
    (ofDescriptors names ds).failures = ds.filterMap (malformedReport? names) := by
  have along (seen : List String) :
      (fatesFrom names seen ds).filterMap Fate.failure? =
        ds.filterMap (malformedReport? names) := by
    induction ds generalizing seen with
    | nil => rfl
    | cons d ds ih =>
      cases candidate : d.isCandidate names with
      | false =>
        have wellFormed : ¬d.IsMalformed names := by
          intro malformed
          rw [isCandidate_of_isMalformed malformed] at candidate
          cases candidate
        rw [fatesFrom_cons_other candidate, ih,
          List.filterMap_cons_none (malformedReport?_eq_none wellFormed)]
      | true =>
        rw [fatesFrom_cons_candidate candidate]
        have step := Fate.settles_ofCandidate candidate seen
        generalize Fate.ofCandidate names seen d = fate at step ⊢
        cases step with
        | @failed marker malformed marked target =>
          have report : d.malformedReport? names =
              some ⟨d.locationKey?, some d.target, none, marker.message⟩ := by
            unfold malformedReport?
            rw [marked]
          rw [List.filterMap_cons_some report, ← target, ← ih]
          rfl
        | unlocated wellFormed =>
          rw [List.filterMap_cons_none (malformedReport?_eq_none wellFormed), ← ih]
          rfl
        | repeated wellFormed =>
          rw [List.filterMap_cons_none (malformedReport?_eq_none wellFormed), ← ih]
          rfl
        | kept wellFormed =>
          rw [List.filterMap_cons_none (malformedReport?_eq_none wellFormed), ← ih]
          rfl
  exact along []

end Collection

/-! ## The balance of a plan -/

open DescriptorBatch (visibleLines unreadableLines)

/-- How a plan and the bytes of its manifest account for the bytes of a descriptor file. -/
structure Balances (config : Config) (bytes manifest : List UInt8) (p : Plan) : Prop where
  /-- Every visible line is loaded or unreadable. -/
  lines : (visibleLines bytes).length =
    (DescriptorBatch.ofBytes bytes).descriptors.length + (unreadableLines bytes).length
  candidates : p.summary.candidateCount =
    ((DescriptorBatch.ofBytes bytes).descriptors.filter
      (InvocationDescriptor.isCandidate config.markerNames)).length
  /-- Every kept record passes the checks of a record, so the emitter leaves none out. -/
  valid : ∀ r ∈ keptRecords config bytes, r.IsValid
  complete : (passEmission config bytes).failures = []
  intercepts : p.intercepts.map (fun i => (i.locationKey, i.target)) =
    (CallSiteRecord.sorted (keptRecords config bytes)).map fun r => (r.locationKey, r.target)
  recordCount : p.summary.recordCount = (keptRecords config bytes).length
  routineCount : p.summary.routineCount = p.summary.recordCount
  routines : p.source = (passEmission config bytes).source ∧
    ((passEmission config bytes).routines.length : Int) = p.summary.routineCount
  manifestLines : ((Text.splitFeeds manifest).length : Int) = p.summary.routineCount
  /-- Candidates and unreadable lines end as routines, dropped calls or failures. -/
  balance : p.summary.candidateCount + (unreadableLines bytes).length =
    p.summary.routineCount + p.summary.dropped.length + p.summary.failures.length
  /-- Unreadable lines are reported before malformed candidates, both in the order of the file. -/
  failures : ∃ unreadable, List.Forall₂ DescriptorLine.Reports (unreadableLines bytes) unreadable ∧
    p.summary.failures = unreadable ++ (visibleLines bytes).filterMap fun l =>
      (DescriptorLine.descriptorOf? l.1).bind
        (InvocationDescriptor.malformedReport? config.markerNames)

namespace Plan

variable (config : Config) (output descriptors : Place) (bytes : List UInt8)

theorem valid_of_mem_keptRecords : ∀ r ∈ keptRecords config bytes, r.IsValid :=
  fun _ mem => CallSiteRecord.isValid_of_mem_records mem

/-- What a plan reports: unreadable lines and malformed candidates. -/
theorem failures_ofBatch :
    (ofBatch config output descriptors (.ofBytes bytes)).summary.failures =
      (DescriptorBatch.ofBytes bytes).errors ++
        (DescriptorBatch.ofBytes bytes).descriptors.filterMap
          (InvocationDescriptor.malformedReport? config.markerNames) := by
  have complete : (passEmission config bytes).failures = [] :=
    Emission.failures_of_isValid (valid_of_mem_keptRecords config bytes)
  rw [← Collection.failures_ofDescriptors, ← List.append_nil (_ ++ _), ← complete]
  rfl

theorem length_intercepts_ofBatch :
    (ofBatch config output descriptors (.ofBytes bytes)).intercepts.length =
      (keptRecords config bytes).length :=
  Emission.length_intercepts_of_isValid (valid_of_mem_keptRecords config bytes)

/-- The manifest has one line for each record that it lists. -/
theorem length_splitFeeds_manifestBytes (p : Plan) :
    (Text.splitFeeds p.manifestBytes).length = p.intercepts.length := by
  unfold manifestBytes
  rw [Json.splitFeeds_linesText, List.length_map, List.length_map]

/-- A plan balances with its own manifest. -/
theorem balances_ofBatch :
    let p := ofBatch config output descriptors (.ofBytes bytes)
    Balances config bytes p.manifestBytes p := by
  intro p
  obtain ⟨loaded, reports, lines⟩ := DescriptorBatch.accounts_for_lines bytes
  have unreadable := reports.length_eq
  have routines := length_intercepts_ofBatch config output descriptors bytes
  have failures := failures_ofBatch config output descriptors bytes
  have collected := Collection.candidateCount_eq
    (.ofDescriptors config.markerNames (DescriptorBatch.ofBytes bytes).descriptors)
  rw [Collection.failures_ofDescriptors] at collected
  have candidates := Collection.candidateCount_ofDescriptors config.markerNames
    (DescriptorBatch.ofBytes bytes).descriptors
  exact {
    lines := by rw [lines, unreadable]
    candidates := congrArg Nat.cast candidates
    valid := valid_of_mem_keptRecords config bytes
    complete := Emission.failures_of_isValid (valid_of_mem_keptRecords config bytes)
    intercepts := map_intercepts_ofBatch config output descriptors bytes
    recordCount := rfl
    routineCount := congrArg Nat.cast routines
    routines := by
      have named := congrArg List.length
        (Emission.names_routines config.unitOptions (keptRecords config bytes))
      rw [List.length_map, List.length_map] at named
      exact ⟨rfl, congrArg Nat.cast named⟩
    manifestLines := congrArg Nat.cast (length_splitFeeds_manifestBytes p)
    balance := by
      have total : p.summary.failures.length = (DescriptorBatch.ofBytes bytes).errors.length +
          ((DescriptorBatch.ofBytes bytes).descriptors.filterMap
            (InvocationDescriptor.malformedReport? config.markerNames)).length := by
        rw [failures, List.length_append]
      have candidates : p.summary.candidateCount =
          ((keptRecords config bytes).length + p.summary.dropped.length +
            ((DescriptorBatch.ofBytes bytes).descriptors.filterMap
              (InvocationDescriptor.malformedReport? config.markerNames)).length : Nat) :=
        congrArg Nat.cast collected
      have routines : p.summary.routineCount = (keptRecords config bytes).length :=
        congrArg Nat.cast routines
      rw [candidates, routines, total, unreadable]
      omega
    failures := by
      refine ⟨_, reports, ?_⟩
      rw [failures, loaded, List.filterMap_filterMap] }

end Plan

/-! ## A whole pass -/

/-- The summary of every pass that is completed balances, with the manifest that the pass leaves
behind.  The emitter has nothing to report, for it leaves out no valid record, and whatever passes
the validation of records is valid. -/
theorem balances_generate {s : Surroundings} {t : FileTree} {r : PassRequest} {p : Plan}
    (done : (generate s t r).result = .ok p) :
    (∃ (config : Config) (descriptors : Place) (bytes manifest : List UInt8),
      Plan.configOf t r = .ok config ∧ Plan.descriptorsOf s r config = .ok descriptors ∧
      t.read descriptors = .ok bytes ∧
      (generate s t r).tree.read p.manifestPlace = .ok manifest ∧
      Balances config bytes manifest p) ∧
    (∀ v record, CallSiteRecord.read v = .valid record → record.IsValid) ∧
    ∀ options (records : List CallSiteRecord), (∀ record ∈ records, record.IsValid) →
      (Emission.generate options records).failures = [] := by
  obtain ⟨made, carried, tree⟩ := carried_of_generate done
  have leaves := Plan.leaves_of_carryOut carried
  obtain ⟨config, descriptors, bytes, configured, described, read, plan⟩ :=
    Plan.exists_batch_of_make made
  have balances := Plan.balances_ofBatch config p.outputDirectory descriptors bytes
  rw [← plan] at balances
  refine ⟨⟨config, descriptors, bytes, p.manifestBytes, configured, described, read,
    tree ▸ leaves.manifest.2, balances⟩, ?_, ?_⟩
  · intro v record read
    exact CallSiteRecord.isValid_of_read read
  · intro options records valid
    exact Emission.failures_of_isValid valid

/-- Of a call and a line that is no document the first ends as a routine and the second as a
failure. -/
theorem balances_generate_callLines :
    let outcome := generate ⟨[], fun _ => none, ["tmp"]⟩ (callTree callLines) callRequest
    ∃ p manifest, outcome.result = .ok p ∧
      outcome.tree.read p.manifestPlace = .ok manifest ∧ Balances .usual callLines manifest p ∧
      (visibleLines callLines).length = 2 ∧ (unreadableLines callLines).length = 1 ∧
      (Text.splitFeeds manifest).length = 1 := by
  intro outcome
  have done := generate_callTree ⟨[], fun _ => none, ["tmp"]⟩ callLines
  obtain ⟨⟨config, descriptors, bytes, manifest, configured, described, read, kept, balances⟩, -⟩ :=
    balances_generate done
  injection configured with configured
  subst configured
  injection described with described
  subst described
  injection read with read
  subst read
  have counts : (visibleLines callLines).length = 2 ∧ (unreadableLines callLines).length = 1 ∧
      (keptRecords .usual callLines).length = 1 := by decide +kernel
  obtain ⟨visible, unreadable, routines⟩ := counts
  refine ⟨_, manifest, done, kept, balances, visible, unreadable, ?_⟩
  have lines := balances.manifestLines
  rw [balances.routineCount, balances.recordCount, routines] at lines
  exact Int.ofNat_inj.1 lines

end CallSiteIds
