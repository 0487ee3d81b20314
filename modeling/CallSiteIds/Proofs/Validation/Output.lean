import CallSiteIds.Proofs.FileTree.WellFormed
import CallSiteIds.Proofs.FileTree.Writing
import CallSiteIds.Proofs.Manifest.Reading
import CallSiteIds.Proofs.Pass.Plans
import CallSiteIds.Proofs.Validation.Files

/-!
# The output of a pass is consistent

Validation of a directory that a pass has written finds nothing wrong with the manifest or the
summary (`validate_generate`).  The pass leaves both files behind as it planned them, reading
them gives back what was planned, and what was planned repeats no name and no call site and
counts its routines.  Nothing is said of the source, which validation parses on its own.
-/

set_option autoImplicit false

namespace CallSiteIds

open Validation

/-- A tree whose files have sizes, so that whatever they count fits into a document. -/
def FileTree.IsCountable (t : FileTree) : Prop :=
  ∀ place bytes, (place, Entry.file bytes) ∈ t.entries → bytes.length < sizeLimit

theorem FileTree.mem_entries_of_read {t : FileTree} {parts : List String} {bytes : List UInt8}
    (h : t.read parts = .ok bytes) : ∃ place, (place, Entry.file bytes) ∈ t.entries := by
  obtain ⟨place, -, held⟩ := read_eq_ok_iff.1 h
  rw [get?] at held
  split at held
  · cases held
  · exact ⟨place, mem_of_findAt? held⟩

/-! ## The directory -/

namespace Validation

variable {t : FileTree} {p : Plan}

theorem parts_within (output : Place) {name : String} (h : Config.isFileName name = true) :
    ((Path.ofPlace output).within (Path.ofString name)).parts = output ++ [name] := by
  rw [Path.ofString_of_isFileName h]
  rfl

/-- The remark that a pass has left out a call. -/
def leftOutRemark (p : Plan) (f : RecordFailure) : Remark :=
  ⟨.summary, Place.text p.summaryPlace, none,
    .notIntercepted (f.subject "unknown call site") f.reason⟩

/-- A directory whose manifest and summary are read as they were planned is reported on with
remarks about the source only, and with one warning for each call that was left out. -/
theorem directoryReport_of_leaves (leaves : p.Leaves t)
    (named : Config.isFileName p.summary.sourceName = true)
    (manifest : readManifest p.manifestBytes = (p.intercepts, []))
    (summary : readSummary p.summaryBytes = (some p.summary, []))
    (counted : p.summary.routineCount = p.intercepts.length) :
    ∃ report, directoryReport t (.ofPlace p.outputDirectory) none = .ok report ∧
      (∀ e ∈ report.errors, e.artifact = .source) ∧
      report.warnings = p.summary.failures.map (leftOutRemark p) := by
  obtain ⟨entry, sourceStatus⟩ := leaves.source
  have manifestName : Config.isFileName Artifact.manifestName = true := by decide
  have summaryName : Config.isFileName Artifact.summaryName = true := by decide
  have summaryParts : ((Path.ofPlace p.outputDirectory).within
      (Path.ofString Artifact.summaryName)).parts = p.summaryPlace := parts_within _ summaryName
  have manifestParts : ((Path.ofPlace p.outputDirectory).within
      (Path.ofString Artifact.manifestName)).parts = p.manifestPlace := parts_within _ manifestName
  have sourceParts : ((Path.ofPlace p.outputDirectory).within
      (Path.ofString p.summary.sourceName)).parts = p.sourcePlace := parts_within _ named
  have summaryRead := summaryOf_of_read (summaryParts.symm ▸ leaves.summary.2)
  have manifestRead := manifestOf_of_read (manifestParts.symm ▸ leaves.manifest.2)
  rw [summary] at summaryRead
  rw [manifest] at manifestRead
  obtain ⟨found, sourceRead⟩ :=
    exists_sourceOf (sourceParts.symm ▸ sourceStatus) (some p.intercepts)
  have count : countFindings p.summary (some p.intercepts) = [] := if_pos counted
  have leftOut (path : Path) (text : path.text = Place.text p.summaryPlace) :
      remarks .summary path (whole (failureFindings p.summary)) =
        p.summary.failures.map (leftOutRemark p) := by
    simp only [remarks, whole, failureFindings, List.map_map, text]
    rfl
  have text : ((Path.ofPlace p.outputDirectory).within
      (Path.ofString Artifact.summaryName)).text = Place.text p.summaryPlace := by
    rw [Path.ofString_of_isFileName summaryName]
    rfl
  simp only [directoryReport, summaryRead, manifestRead, bind, Except.bind, sourceName]
  rw [sourceRead]
  refine ⟨_, rfl, ?_, ?_⟩
  · intro e mem
    simp only [Option.toList_some, List.flatMap_cons, List.flatMap_nil, count, List.map_nil,
      List.append_nil] at mem
    simp only [remarks, whole, List.map_nil, List.nil_append, List.append_nil] at mem
    obtain ⟨⟨line, finding⟩, -, rfl⟩ := List.mem_map.1 mem
    rfl
  · simp only [Option.toList_some, List.flatMap_cons, List.flatMap_nil, List.append_nil]
    exact leftOut _ text

end Validation

/-! ## A pass over one file -/

/-- A tree with descriptors at the top and nothing else. -/
def callTree (bytes : List UInt8) : FileTree :=
  ⟨[(["calls"], .file bytes)], by simp⟩

/-- The request for a pass over these descriptors with the usual configuration. -/
def callRequest : PassRequest :=
  ⟨[], some ["out"], some ["calls"], some .usual⟩

/-- A pass over a tree with descriptors at the top is carried out, whatever they are. -/
theorem generate_callTree (s : Surroundings) (bytes : List UInt8) :
    (generate s (callTree bytes) callRequest).result =
      .ok (Plan.ofBatch .usual ["out"] ["calls"] (.ofBytes bytes)) := by
  have made : Plan.make s (callTree bytes) callRequest =
      .ok (Plan.ofBatch .usual ["out"] ["calls"] (.ofBytes bytes)) := rfl
  simp only [generate, made]
  -- Only the names of the files matter, so their contents are hidden from the evaluation.
  generalize plan : Plan.ofBatch .usual ["out"] ["calls"] (.ofBytes bytes) = p
  have directory : p.outputDirectory = ["out"] := by
    rw [← plan]
    rfl
  have name : p.summary.sourceName = Config.usual.sourceName := by
    rw [← plan]
    rfl
  have carried : (p.carryOut (callTree bytes)).result = .ok () := by
    apply Plan.carryOut_of_writes
    · rw [directory]
      rfl
    · rw [Plan.sourcePlace, directory, name]
      rfl
    · rw [Plan.manifestPlace, directory]
      rfl
    · rw [Plan.summaryPlace, directory]
      rfl
  rw [carried]
  rfl

/-- A line that describes a call with one marked parameter, and a line that is malformed. -/
def callLines : List UInt8 :=
  Text.utf8 ("\x7b\"target_type\":\"N.A\",\"method_name\":\"F\",\"return_type\":\"void\"," ++
    "\"location\":\x7b\"path\":\"a.cs\",\"line\":1,\"column\":2\x7d," ++
    "\"parameters\":[\x7b\"name\":\"id\",\"type\":\"string\"," ++
    "\"attributes\":[\x7b\"name\":\"UniqueId\"\x7d]\x7d]\x7d\n?\n")

theorem isCountable_callTree {bytes : List UInt8} (small : bytes.length < FileTree.sizeLimit) :
    (callTree bytes).IsCountable := by
  intro place held mem
  obtain ⟨-, held⟩ := Prod.mk.inj (List.mem_singleton.1 mem)
  injection held with held
  rw [held]
  exact small

/-! ## The whole output -/

/-- Validation of what a pass has written finds nothing wrong with the manifest or the summary,
and gives one warning for each call that was left out.  Both files are read back as they were
planned: no name and no call site comes twice, the versions are current, and the routines are
counted. -/
theorem validate_generate {s : Surroundings} {t : FileTree} {r : PassRequest} {p : Plan}
    (accepted : ∀ c ∈ r.config, c.IsAccepted) (countable : t.IsCountable)
    (done : (generate s t r).result = .ok p) :
    (∃ report, validate (generate s t r).tree (.ofPlace p.outputDirectory) none = .ok report ∧
      (∀ e ∈ report.errors, e.artifact ≠ .summary ∧ e.artifact ≠ .manifest) ∧
      report.warnings = p.summary.failures.map (Validation.leftOutRemark p)) ∧
    (∃ bytes, (generate s t r).tree.read p.manifestPlace = .ok bytes ∧
      readManifest bytes = (p.intercepts, [])) ∧
    (∃ bytes, (generate s t r).tree.read p.summaryPlace = .ok bytes ∧
      readSummary bytes = (some p.summary, [])) ∧
    (p.intercepts.map (·.routineName)).Nodup ∧
    (p.intercepts.map (·.locationKey)).Nodup ∧
    (∀ i ∈ p.intercepts, i.schemaVersion = schemaVersion) ∧
    p.summary.schemaVersion = schemaVersion ∧
    p.summary.routineCount = p.intercepts.length := by
  obtain ⟨made, carried, tree⟩ := carried_of_generate done
  have leaves := Plan.leaves_of_carryOut carried
  rw [tree]
  obtain ⟨config, descriptors, bytes, acceptable, read, plan⟩ := Plan.exists_of_make accepted made
  obtain ⟨place, mem⟩ := FileTree.mem_entries_of_read read
  have small := countable place bytes mem
  have fits := Plan.fits_intercepts_ofBatch config p.outputDirectory descriptors bytes small
  have names := Plan.nodup_names_ofBatch config p.outputDirectory descriptors bytes
  have keys := Plan.nodup_keys_ofBatch config p.outputDirectory descriptors bytes
  have summaryFits := Plan.fits_summary_ofBatch config p.outputDirectory descriptors bytes small
  have named : Config.isFileName p.summary.sourceName = true := by
    rw [plan]
    exact Config.isFileName_of_isAccepted acceptable
  have version : p.summary.schemaVersion = schemaVersion := by
    rw [plan]
    rfl
  have counted : p.summary.routineCount = p.intercepts.length := by
    rw [plan]
    rfl
  rw [← plan] at fits names keys summaryFits
  have versions : ∀ i ∈ p.intercepts, i.schemaVersion = schemaVersion :=
    fun i mem => (fits i mem).1
  have manifest : readManifest p.manifestBytes = (p.intercepts, []) :=
    readManifest_linesText (fun i mem => (fits i mem).2) versions names keys
  have summary : readSummary p.summaryBytes = (some p.summary, []) :=
    readSummary_documentText summaryFits version
  obtain ⟨report, reported, errors, warnings⟩ :=
    directoryReport_of_leaves leaves named manifest summary counted
  refine ⟨⟨report, ?_, ?_, warnings⟩, ⟨_, leaves.manifest.2, manifest⟩,
    ⟨_, leaves.summary.2, summary⟩, names, keys, versions, version, counted⟩
  · rw [validate]
    simp only [Path.ofPlace, leaves.directory]
    exact reported
  · intro e mem
    rw [errors e mem]
    exact ⟨by decide, by decide⟩

/-- Validation after a pass over a call and a malformed line. -/
theorem validate_generate_callLines :
    let s : Surroundings := ⟨[], fun _ => none, ["tmp"]⟩
    let outcome := generate s (callTree callLines) callRequest
    (∀ c ∈ callRequest.config, c.IsAccepted) ∧ (callTree callLines).IsCountable ∧
      ∃ p report, outcome.result = .ok p ∧
        validate outcome.tree (.ofPlace p.outputDirectory) none = .ok report ∧
        (∀ e ∈ report.errors, e.artifact ≠ .summary ∧ e.artifact ≠ .manifest) ∧
        report.warnings = p.summary.failures.map (Validation.leftOutRemark p) := by
  intro s outcome
  have accepted : ∀ c ∈ callRequest.config, c.IsAccepted := by
    intro c given
    injection given with given
    rw [← given]
    exact Config.isAccepted_usual
  have countable : (callTree callLines).IsCountable :=
    isCountable_callTree (by decide +kernel)
  have done := generate_callTree s callLines
  obtain ⟨⟨report, reported, errors, warnings⟩, -⟩ := validate_generate accepted countable done
  exact ⟨accepted, countable, _, report, done, reported, errors, warnings⟩

end CallSiteIds
