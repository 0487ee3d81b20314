import CallSiteIds.Proofs.FileTree.Writing
import CallSiteIds.Proofs.Pass.Plans
import CallSiteIds.Proofs.Validation.Files
import CallSiteIds.Proofs.Validation.Lines

/-!
# What validation accepts

Validation finds nothing wrong with a directory exactly when its three files belong together:
the summary and every line of the manifest are current documents of their kinds, no name and no
key comes twice, the source is well formed, its tagged methods and the manifest name the same
routines, each record finds its own tag, and the summary counts the records.  What is found on a
line of the manifest is what is wrong with that line after the records on the lines before
(`isClean_validate_iff`).
-/

set_option autoImplicit false

namespace CallSiteIds

open Validation
open Plan (bind_eq_ok)

namespace FileTree

variable {t : FileTree} {parts : List String} {bytes : List UInt8}

/-- A path that leads to a file leads through a directory. -/
theorem status_of_read_append {name : String} (h : t.read (parts ++ [name]) = .ok bytes) :
    t.status parts = .ok (some .directory) := by
  obtain ⟨place, reached, -⟩ := read_eq_ok_iff.1 h
  obtain ⟨base, front, held, -⟩ := reach_append_singleton reached
  exact status_eq_some_iff.2 ⟨base, front, held⟩

end FileTree

namespace Validation

/-! ## Consistent directories -/

/-- The path of a file in a directory. -/
def fileIn (directory : Path) (name : String) : Path :=
  directory.within (Path.ofString name)

/-- The bytes of a summary: a document of its kind with the current version. -/
structure IsSummary (bytes : List UInt8) (s : GenerationSummary) : Prop where
  document : ∃ v, Json.parseBytes? bytes = some v ∧ GenerationSummary.read v = .valid s
  version : s.schemaVersion = schemaVersion

/-- The bytes of a well-formed source with the given tagged methods. -/
def IsSource (bytes : List UInt8) (methods : List Source.TaggedMethod) : Prop :=
  ∃ cs, Text.decodeUtf8? bytes = some cs ∧
    Source.taggedMethods? (Text.foldNewlines cs) = some methods

/-- The last of the methods with a name. -/
def IsLastNamed (methods : List Source.TaggedMethod) (name : String)
    (m : Source.TaggedMethod) : Prop :=
  m.name = name ∧ ∃ before after, methods = before ++ m :: after ∧ ∀ n ∈ after, n.name ≠ name

/-- The tag that a record expects: that of the place of its key, or of the token of the host. -/
def Expects (r : InterceptRecord) (tag : String) : Prop :=
  ∃ p, Location.Position.ofKey r.locationKey = .ok p ∧
    tag = Source.tagArguments p.file p.line p.column r.interceptsData

/-- The last method with the name of a record carries the tag that the record expects. -/
def HasTag (methods : List Source.TaggedMethod) (r : InterceptRecord) : Prop :=
  ∃ m tag, IsLastNamed methods r.routineName m ∧ Expects r tag ∧ tag ∈ m.tags

/-- A directory whose files belong together: a summary, a manifest with the given lines, and a
source with the given tagged methods. -/
structure IsConsistent (t : FileTree) (directory : Path) (asked : Option String)
    (summary : GenerationSummary) (lines : List (List UInt8))
    (methods : List Source.TaggedMethod) : Prop where
  isDirectory : t.status directory.parts = .ok (some .directory)
  holdsSummary : ∃ bytes, t.read (fileIn directory Artifact.summaryName).parts = .ok bytes ∧
    IsSummary bytes summary
  holdsManifest : ∃ bytes, t.read (fileIn directory Artifact.manifestName).parts = .ok bytes ∧
    Text.splitFeeds bytes = lines
  sound : AreSound lines
  holdsSource : ∃ bytes,
    t.read (fileIn directory (asked.getD summary.sourceName)).parts = .ok bytes ∧
      IsSource bytes methods
  tagged : ∀ r ∈ recordsOn lines, HasTag methods r
  listed : ∀ m ∈ methods, ∃ r ∈ recordsOn lines, r.routineName = m.name
  counted : summary.routineCount = (recordsOn lines).length

/-- What the files of a directory hold is one summary, one manifest and one source. -/
theorem IsConsistent.unique {t : FileTree} {directory : Path} {asked : Option String}
    {summary summary' : GenerationSummary} {lines lines' : List (List UInt8)}
    {methods methods' : List Source.TaggedMethod}
    (c : IsConsistent t directory asked summary lines methods)
    (c' : IsConsistent t directory asked summary' lines' methods') :
    summary = summary' ∧ lines = lines' ∧ methods = methods' := by
  obtain ⟨bytes, read, ⟨v, document, valid⟩, -⟩ := c.holdsSummary
  obtain ⟨bytes', read', ⟨v', document', valid'⟩, -⟩ := c'.holdsSummary
  rw [read] at read'
  cases read'
  rw [document] at document'
  cases document'
  rw [valid] at valid'
  cases valid'
  obtain ⟨manifest, read, rfl⟩ := c.holdsManifest
  obtain ⟨manifest', read', rfl⟩ := c'.holdsManifest
  rw [read] at read'
  cases read'
  obtain ⟨source, read, cs, decoded, tagged⟩ := c.holdsSource
  obtain ⟨source', read', cs', decoded', tagged'⟩ := c'.holdsSource
  rw [read] at read'
  cases read'
  rw [decoded] at decoded'
  cases decoded'
  rw [tagged] at tagged'
  cases tagged'
  exact ⟨rfl, rfl, rfl⟩

/-! ## Files that must exist -/

variable {t : FileTree} {directory : Path} {asked : Option String}

theorem versionFindings_eq_nil_iff {version : Int} :
    versionFindings version = [] ↔ version = schemaVersion := by
  unfold versionFindings
  split <;> simp [*]

theorem readSummary_eq_iff {bytes : List UInt8} {s : GenerationSummary} :
    readSummary bytes = (some s, []) ↔ IsSummary bytes s := by
  rw [readSummary]
  constructor
  · intro h
    split at h
    · cases h
    · rename_i v document
      cases read : GenerationSummary.read v with
      | invalid issues =>
        rw [read] at h
        cases h
      | valid r =>
        rw [read] at h
        injection h with same found
        injection same with same
        exact ⟨⟨v, document, same ▸ read⟩, same ▸ versionFindings_eq_nil_iff.1 found⟩
  · rintro ⟨⟨v, document, read⟩, version⟩
    rw [document]
    simp only [read, Schema.Checked.toExcept, versionFindings_eq_nil_iff.2 version]

/-- Without a summary something is found. -/
theorem exists_of_readSummary {bytes : List UInt8} (h : (readSummary bytes).2 = []) :
    ∃ s, readSummary bytes = (some s, []) := by
  rw [readSummary] at h ⊢
  split
  · rename_i none
    rw [none] at h
    cases h
  · rename_i v document
    rw [document] at h
    cases read : GenerationSummary.read v with
    | invalid issues =>
      simp only [read, Schema.Checked.toExcept] at h
      cases h
    | valid s =>
      simp only [read, Schema.Checked.toExcept] at h ⊢
      exact ⟨s, by rw [h]⟩

theorem summaryOf_eq_iff {path : Path} {summary : Option GenerationSummary} :
    summaryOf t path = .ok (summary, []) ↔
      ∃ bytes s, summary = some s ∧ t.read path.parts = .ok bytes ∧ IsSummary bytes s := by
  constructor
  · intro h
    obtain ⟨bytes, read, h⟩ := (bind_requiredBytes_eq_ok_iff (by simp)).1 h
    obtain ⟨s, found⟩ := exists_of_readSummary (by rw [h])
    rw [found] at h
    injection h with h
    exact ⟨bytes, s, h.symm, read, readSummary_eq_iff.1 found⟩
  · rintro ⟨bytes, s, rfl, read, summary⟩
    rw [summaryOf_of_read read, readSummary_eq_iff.2 summary]

theorem records_readManifest (bytes : List UInt8) :
    (readManifest bytes).1 = recordsOn (Text.splitFeeds bytes) :=
  records_readRecords 1 [] _

theorem manifestOf_eq_iff {path : Path} {records : Option (List InterceptRecord)} :
    manifestOf t path = .ok (records, []) ↔
      ∃ bytes, records = some (recordsOn (Text.splitFeeds bytes)) ∧
        t.read path.parts = .ok bytes ∧ AreSound (Text.splitFeeds bytes) := by
  constructor
  · intro h
    obtain ⟨bytes, read, h⟩ := (bind_requiredBytes_eq_ok_iff (by simp)).1 h
    injection h with same found
    rw [List.map_eq_nil_iff] at found
    exact ⟨bytes, same.symm.trans (congrArg some (records_readManifest bytes)), read,
      readRecords_eq_nil_iff.1 found⟩
  · rintro ⟨bytes, rfl, read, sound⟩
    have found : (readManifest bytes).2 = [] := readRecords_eq_nil_iff.2 sound
    rw [manifestOf_of_read read, records_readManifest, found]
    rfl

/-! ## The source against the manifest -/

section Source

variable {methods : List Source.TaggedMethod} {records : List InterceptRecord}

theorem methodNamed?_eq_some_iff {name : String} {m : Source.TaggedMethod} :
    methodNamed? methods name = some m ↔ IsLastNamed methods name m := by
  rw [methodNamed?, List.find?_eq_some_iff_append, IsLastNamed, beq_iff_eq]
  refine and_congr_right fun _ => ?_
  constructor
  · rintro ⟨after, before, same, others⟩
    refine ⟨before.reverse, after.reverse, ?_, ?_⟩
    · rw [← List.reverse_reverse methods, same]
      simp
    · intro n mem
      simpa using others n (List.mem_reverse.1 mem)
  · rintro ⟨before, after, rfl, others⟩
    refine ⟨after.reverse, before.reverse, by simp, ?_⟩
    intro n mem
    simpa using others n (List.mem_reverse.1 mem)

theorem tagFindings_eq_nil_iff {r : InterceptRecord} {m : Source.TaggedMethod} :
    tagFindings r m = [] ↔ ∃ tag, Expects r tag ∧ tag ∈ m.tags := by
  unfold tagFindings
  constructor
  · intro h
    split at h
    · cases h
    · rename_i p key
      refine ⟨_, ⟨p, key, rfl⟩, Decidable.byContradiction fun absent => ?_⟩
      rw [← List.contains_iff_mem] at absent
      rw [if_neg absent] at h
      cases h
  · rintro ⟨tag, ⟨p, key, rfl⟩, mem⟩
    rw [key]
    exact if_pos (List.contains_iff_mem.2 mem)

theorem routineFindings_eq_nil_iff {r : InterceptRecord} :
    routineFindings methods r = [] ↔ HasTag methods r := by
  unfold routineFindings
  cases named : methodNamed? methods r.routineName with
  | none =>
    refine iff_of_false (List.cons_ne_nil _ _) ?_
    rintro ⟨m, tag, last, -⟩
    rw [methodNamed?_eq_some_iff.2 last] at named
    cases named
  | some m =>
    simp only [List.map_eq_nil_iff, tagFindings_eq_nil_iff]
    constructor
    · rintro ⟨tag, expects, mem⟩
      exact ⟨m, tag, methodNamed?_eq_some_iff.1 named, expects, mem⟩
    · rintro ⟨n, tag, last, expects, mem⟩
      rw [methodNamed?_eq_some_iff.2 last] at named
      injection named with same
      exact ⟨tag, expects, same ▸ mem⟩

theorem mem_sortedNames_iff {name : String} :
    name ∈ sortedNames methods ↔ ∃ m ∈ methods, m.name = name := by
  rw [sortedNames, List.mem_mergeSort, List.mem_eraseDups, List.mem_map]

theorem unlistedFindings_eq_nil_iff :
    unlistedFindings records methods = [] ↔
      ∀ m ∈ methods, ∃ r ∈ records, r.routineName = m.name := by
  have each (name : String) : (if records.any fun r => r.routineName == name then none
      else some ((methodNamed? methods name).map (·.line), Finding.routineUnlisted name)) = none ↔
      ∃ r ∈ records, r.routineName = name := by
    cases found : records.any fun r => r.routineName == name with
    | true => simpa using found
    | false => simpa using found
  rw [unlistedFindings, List.filterMap_eq_nil_iff]
  simp only [each, mem_sortedNames_iff]
  constructor
  · intro listed m mem
    exact listed m.name ⟨m, mem, rfl⟩
  · rintro listed name ⟨m, mem, rfl⟩
    exact listed m mem

theorem sourceFindings_eq_nil_iff {bytes : List UInt8} :
    sourceFindings bytes (some records) = [] ↔
      ∃ methods, IsSource bytes methods ∧ (∀ r ∈ records, HasTag methods r) ∧
        ∀ m ∈ methods, ∃ r ∈ records, r.routineName = m.name := by
  have agree (methods : List Source.TaggedMethod) :
      records.flatMap (routineFindings methods) ++ unlistedFindings records methods = [] ↔
        (∀ r ∈ records, HasTag methods r) ∧
          ∀ m ∈ methods, ∃ r ∈ records, r.routineName = m.name := by
    rw [List.append_eq_nil_iff, List.flatMap_eq_nil_iff, unlistedFindings_eq_nil_iff]
    simp only [routineFindings_eq_nil_iff]
  unfold sourceFindings
  constructor
  · intro h
    split at h
    · cases h
    · rename_i cs decoded
      split at h
      · cases h
      · rename_i methods wellFormed
        exact ⟨methods, ⟨cs, decoded, wellFormed⟩, (agree methods).1 h⟩
  · rintro ⟨methods, ⟨cs, decoded, wellFormed⟩, agrees⟩
    simp only [decoded, wellFormed]
    exact (agree methods).2 agrees

theorem sourceOf_eq_iff {path : Path} :
    sourceOf t path (some records) = .ok [] ↔
      ∃ bytes methods, t.read path.parts = .ok bytes ∧ IsSource bytes methods ∧
        (∀ r ∈ records, HasTag methods r) ∧
        ∀ m ∈ methods, ∃ r ∈ records, r.routineName = m.name := by
  have nothing : sourceOf t path (some records) = .ok [] ↔
      ∃ bytes, t.read path.parts = .ok bytes ∧ sourceFindings bytes (some records) = [] :=
    bind_requiredBytes_eq_ok_iff (by simp)
  rw [nothing]
  simp only [sourceFindings_eq_nil_iff, exists_and_left]

end Source

theorem countFindings_eq_nil_iff {summary : GenerationSummary} {records : List InterceptRecord} :
    countFindings summary (some records) = [] ↔ summary.routineCount = records.length := by
  unfold countFindings
  simp only
  split <;> simp [*]

/-! ## The whole directory -/

/-- What a report on a directory is made of. -/
structure IsReport (t : FileTree) (directory : Path) (asked : Option String) (report : Report)
    (summary : Option GenerationSummary) (records : Option (List InterceptRecord))
    (summaryFound : List Finding) (manifestFound sourceFound : List (Option Nat × Finding)) :
    Prop where
  ofSummary : summaryOf t (fileIn directory Artifact.summaryName) = .ok (summary, summaryFound)
  ofManifest : manifestOf t (fileIn directory Artifact.manifestName) = .ok (records, manifestFound)
  ofSource : sourceOf t (fileIn directory (sourceName asked summary)) records = .ok sourceFound
  errors : report.errors =
    remarks .summary (fileIn directory Artifact.summaryName) (whole summaryFound) ++
      remarks .manifest (fileIn directory Artifact.manifestName) manifestFound ++
      remarks .source (fileIn directory (sourceName asked summary)) sourceFound ++
      remarks .summary (fileIn directory Artifact.summaryName)
        (whole (summary.toList.flatMap fun s => countFindings s records))

theorem exists_isReport {report : Report} (h : directoryReport t directory asked = .ok report) :
    ∃ summary records summaryFound manifestFound sourceFound,
      IsReport t directory asked report summary records summaryFound manifestFound
        sourceFound := by
  obtain ⟨⟨summary, summaryFound⟩, ofSummary, h₁⟩ := bind_eq_ok h
  obtain ⟨⟨records, manifestFound⟩, ofManifest, h₂⟩ := bind_eq_ok h₁
  obtain ⟨sourceFound, ofSource, h₃⟩ := bind_eq_ok h₂
  injection h₃ with h₃
  exact ⟨summary, records, summaryFound, manifestFound, sourceFound, ofSummary, ofManifest,
    ofSource, by rw [← h₃]; rfl⟩

theorem remarks_eq_nil_iff {artifact : Artifact} {path : Path}
    {findings : List (Option Nat × Finding)} :
    remarks artifact path findings = [] ↔ findings = [] :=
  List.map_eq_nil_iff

theorem whole_eq_nil_iff {findings : List Finding} : whole findings = [] ↔ findings = [] :=
  List.map_eq_nil_iff

theorem isClean_iff {report : Report} : report.isClean = true ↔ report.errors = [] :=
  List.isEmpty_iff

theorem validate_of_directory (h : t.status directory.parts = .ok (some .directory)) :
    validate t directory asked = directoryReport t directory asked := by
  rw [validate, h]

/-- A report without errors is one on a directory. -/
theorem status_of_isClean {report : Report} (h : validate t directory asked = .ok report)
    (clean : report.isClean = true) : t.status directory.parts = .ok (some .directory) := by
  rw [validate] at h
  split at h
  · cases h
  · injection h with h
    subst h
    cases clean
  · injection h with h
    subst h
    cases clean
  · assumption

/-- What a report without errors was made from. -/
theorem exists_isConsistent {report : Report} (h : validate t directory asked = .ok report)
    (clean : report.isClean = true) :
    ∃ summary lines methods, IsConsistent t directory asked summary lines methods := by
  have status := status_of_isClean h clean
  rw [validate_of_directory status] at h
  obtain ⟨summary, records, summaryFound, manifestFound, sourceFound, made⟩ := exists_isReport h
  have errors := made.errors
  rw [isClean_iff.1 clean, eq_comm] at errors
  simp only [List.append_eq_nil_iff, remarks_eq_nil_iff, whole_eq_nil_iff,
    List.flatMap_eq_nil_iff] at errors
  obtain ⟨⟨⟨rfl, rfl⟩, rfl⟩, counted⟩ := errors
  obtain ⟨summaryBytes, s, rfl, readSummary, isSummary⟩ := summaryOf_eq_iff.1 made.ofSummary
  obtain ⟨bytes, rfl, readManifest, sound⟩ := manifestOf_eq_iff.1 made.ofManifest
  have named : sourceName asked (some s) = asked.getD s.sourceName := by cases asked <;> rfl
  obtain ⟨sourceBytes, methods, readSource, isSource, tagged, listed⟩ :=
    sourceOf_eq_iff.1 made.ofSource
  exact ⟨s, Text.splitFeeds bytes, methods, status, ⟨summaryBytes, readSummary, isSummary⟩,
    ⟨bytes, readManifest, rfl⟩, sound, ⟨sourceBytes, named ▸ readSource, isSource⟩, tagged, listed,
    countFindings_eq_nil_iff.1 (counted s (List.mem_singleton_self s))⟩

/-- A report comes of whatever is found in the single files. -/
theorem exists_report {summary : Option GenerationSummary}
    {records : Option (List InterceptRecord)} {summaryFound : List Finding}
    {manifestFound sourceFound : List (Option Nat × Finding)}
    (ofSummary : summaryOf t (fileIn directory Artifact.summaryName) = .ok (summary, summaryFound))
    (ofManifest :
      manifestOf t (fileIn directory Artifact.manifestName) = .ok (records, manifestFound))
    (ofSource :
      sourceOf t (fileIn directory (sourceName asked summary)) records = .ok sourceFound) :
    ∃ report, directoryReport t directory asked = .ok report ∧
      IsReport t directory asked report summary records summaryFound manifestFound
        sourceFound := by
  have made : ∃ report, directoryReport t directory asked = .ok report := by
    simp only [fileIn] at ofSummary ofManifest ofSource
    simp only [directoryReport, ofSummary, ofManifest, ofSource, bind, Except.bind]
    exact ⟨_, rfl⟩
  obtain ⟨report, made⟩ := made
  obtain ⟨s, r, found₁, found₂, found₃, parts⟩ := exists_isReport made
  have first := parts.ofSummary
  rw [ofSummary] at first
  cases first
  have second := parts.ofManifest
  rw [ofManifest] at second
  cases second
  have third := parts.ofSource
  rw [ofSource] at third
  cases third
  exact ⟨report, made, parts⟩

/-- Nothing is found in a directory whose files belong together. -/
theorem exists_isClean {summary : GenerationSummary} {lines : List (List UInt8)}
    {methods : List Source.TaggedMethod}
    (consistent : IsConsistent t directory asked summary lines methods) :
    ∃ report, validate t directory asked = .ok report ∧ report.isClean = true := by
  obtain ⟨status, ⟨summaryBytes, readSummary, isSummary⟩, ⟨bytes, readManifest, rfl⟩, sound,
    ⟨sourceBytes, readSource, isSource⟩, tagged, listed, counted⟩ := consistent
  have named : sourceName asked (some summary) = asked.getD summary.sourceName := by
    cases asked <;> rfl
  obtain ⟨report, made, parts⟩ := exists_report
    (summaryOf_eq_iff.2 ⟨summaryBytes, summary, rfl, readSummary, isSummary⟩)
    (manifestOf_eq_iff.2 ⟨bytes, rfl, readManifest, sound⟩)
    (sourceOf_eq_iff.2 ⟨sourceBytes, methods, named ▸ readSource, isSource, tagged, listed⟩)
  refine ⟨report, (validate_of_directory status).trans made, isClean_iff.2 ?_⟩
  rw [parts.errors]
  simp [remarks, whole, countFindings_eq_nil_iff.2 counted]

/-- The errors about the lines of the manifest are what is wrong with those lines. -/
theorem mem_errors_iff {report : Report} {bytes : List UInt8} {number : Nat} {f : Finding}
    (h : validate t directory asked = .ok report)
    (read : t.read (fileIn directory Artifact.manifestName).parts = .ok bytes) :
    ⟨.manifest, (fileIn directory Artifact.manifestName).text, some number, f⟩ ∈ report.errors ↔
      ∃ k raw, (Text.splitFeeds bytes)[k]? = some raw ∧ number = k + 1 ∧
        IsFault (recordsOn ((Text.splitFeeds bytes).take k)) raw f := by
  have isFile : Config.isFileName Artifact.manifestName = true := by decide
  have inside : (fileIn directory Artifact.manifestName).parts =
      directory.parts ++ [Artifact.manifestName] := by
    rw [fileIn, Path.ofString_of_isFileName isFile]
    rfl
  rw [validate_of_directory (FileTree.status_of_read_append (inside ▸ read))] at h
  obtain ⟨summary, records, summaryFound, manifestFound, sourceFound, parts⟩ := exists_isReport h
  have found := parts.ofManifest
  rw [manifestOf_of_read read] at found
  injection found with found
  injection found with _ found
  have placed : (some number, f) ∈ manifestFound ↔ (number, f) ∈ (readManifest bytes).2 := by
    rw [← found]
    simp [readManifest]
  have first : (∃ k raw, (Text.splitFeeds bytes)[k]? = some raw ∧ number = k + 1 ∧
      IsFault (recordsOn ((Text.splitFeeds bytes).take k)) raw f) ↔
        (number, f) ∈ (readManifest bytes).2 := by
    rw [readManifest, mem_readRecords_iff]
    simp only [Nat.add_comm 1, List.nil_append]
  rw [first, ← placed, parts.errors]
  simp [remarks]

/-- The records before a line that stays are the same when a line that holds none is replaced by
another that holds none. -/
theorem recordsOn_take_set {lines : List (List UInt8)} {j : Nat} {raw other : List UInt8}
    (at' : lines[j]? = some raw) (absent : recordOn? raw = none) (absent' : recordOn? other = none)
    (k : Nat) : recordsOn ((lines.set j other).take k) = recordsOn (lines.take k) := by
  induction lines generalizing j k with
  | nil => rfl
  | cons first rest ih =>
    cases k with
    | zero => rfl
    | succ k =>
      cases j with
      | zero =>
        cases at'
        rw [List.set_cons_zero, List.take_succ_cons, List.take_succ_cons, recordsOn_cons,
          recordsOn_cons, absent, absent']
      | succ j =>
        rw [List.set_cons_succ, List.take_succ_cons, List.take_succ_cons, recordsOn_cons,
          recordsOn_cons, ih at']

/-! ## Trees with the files of one pass -/

/-- A tree with the three files of a pass at its top. -/
def topTree (summary manifest source : List UInt8) : FileTree :=
  ⟨[([Artifact.summaryName], .file summary), ([Artifact.manifestName], .file manifest),
    ([Artifact.usualSourceName], .file source)],
    by simp [Artifact.summaryName, Artifact.manifestName, Artifact.usualSourceName]⟩

/-- The top as a path. -/
def top : Path :=
  .ofPlace []

/-- The summary of a pass with one routine. -/
def oneSummary : List UInt8 :=
  Text.utf8 ("\x7b\"source_name\":\"PraefixumInterceptor.g.cs\",\"candidate_count\":1," ++
    "\"record_count\":1,\"routine_count\":1\x7d")

/-- The manifest of a pass with one routine, and a second line. -/
def oneManifest (second : String) : List UInt8 :=
  Text.utf8 ("\x7b\"routine_name\":\"R\",\"target\":\"N.A.F\",\"return_type\":\"void\"," ++
    "\"location_key\":\"a.cs:1:2\",\"literals\":[]\x7d\n" ++ second ++ "\n")

/-- The source of a pass with one routine. -/
def oneSource : String :=
  "class C \x7b [InterceptsLocation(@\"a.cs\", 1, 2)] void R() \x7b \x7d \x7d"

/-- A directory with the files of one routine. -/
def oneTree (second : String) : FileTree :=
  topTree oneSummary (oneManifest second) (Text.utf8 oneSource)

/-- The files at the top belong together when the methods that are found in the source and the
records that are found in the manifest do. -/
theorem isConsistent_topTree {summaryBytes manifestBytes sourceBytes : List UInt8}
    {summary : GenerationSummary} {methods : List Source.TaggedMethod}
    (isSummary : readSummary summaryBytes = (some summary, []))
    (named : summary.sourceName = Artifact.usualSourceName)
    (sound : (readManifest manifestBytes).2 = []) (isSource : IsSource sourceBytes methods)
    (tagged : ∀ r ∈ recordsOn (Text.splitFeeds manifestBytes), HasTag methods r)
    (listed : ∀ m ∈ methods,
      ∃ r ∈ recordsOn (Text.splitFeeds manifestBytes), r.routineName = m.name)
    (counted : summary.routineCount = (recordsOn (Text.splitFeeds manifestBytes)).length) :
    IsConsistent (topTree summaryBytes manifestBytes sourceBytes) top none summary
      (Text.splitFeeds manifestBytes) methods where
  isDirectory := rfl
  holdsSummary := ⟨summaryBytes, rfl, readSummary_eq_iff.1 isSummary⟩
  holdsManifest := ⟨manifestBytes, rfl, rfl⟩
  sound := readRecords_eq_nil_iff.1 sound
  holdsSource := ⟨sourceBytes, by rw [Option.getD_none, named]; rfl, isSource⟩
  tagged := tagged
  listed := listed
  counted := counted

theorem isConsistent_oneRoutine :
    IsConsistent (oneTree "") top none
      ⟨1, Artifact.usualSourceName, 1, 1, 1, [], []⟩ (Text.splitFeeds (oneManifest ""))
      [⟨"R", 1, ["(@\"a.cs\", 1, 2)"]⟩] := by
  have records : recordsOn (Text.splitFeeds (oneManifest "")) =
      [⟨1, "R", "N.A.F", "void", "a.cs:1:2", none, []⟩] := by decide +kernel
  refine isConsistent_topTree (by decide +kernel) rfl (by decide +kernel)
    ⟨oneSource.toList, by decide +kernel, by decide +kernel⟩ ?_ ?_ (by rw [records]; rfl)
  · rw [records]
    intro r mem
    rw [List.mem_singleton.1 mem]
    exact ⟨_, _, ⟨rfl, [], [], rfl, by simp⟩, ⟨⟨"a.cs", 1, 2⟩, rfl, rfl⟩, by decide +kernel⟩
  · rw [records]
    intro m mem
    rw [List.mem_singleton.1 mem]
    exact ⟨_, List.mem_singleton_self _, rfl⟩

end Validation

/-! ## Acceptance -/

/-- Validation finds nothing wrong exactly in the directories whose files belong together.  What
it finds on the lines of the manifest is what is wrong with each of them after the records on
the lines before, at the number of the line, and a line without a record has no say in what is
found on the others. -/
theorem isClean_validate_iff (t : FileTree) (directory : Path) (asked : Option String) :
    ((∃ report, validate t directory asked = .ok report ∧ report.isClean = true) ↔
      ∃ summary lines methods, IsConsistent t directory asked summary lines methods) ∧
    ∀ report bytes, validate t directory asked = .ok report →
      t.read (fileIn directory Artifact.manifestName).parts = .ok bytes →
      (∀ number f,
        ⟨.manifest, (fileIn directory Artifact.manifestName).text, some number, f⟩ ∈
            report.errors ↔
          ∃ k raw, (Text.splitFeeds bytes)[k]? = some raw ∧ number = k + 1 ∧
            IsFault (recordsOn ((Text.splitFeeds bytes).take k)) raw f) ∧
      ∀ t' report' bytes' j raw other, validate t' directory asked = .ok report' →
        t'.read (fileIn directory Artifact.manifestName).parts = .ok bytes' →
        (Text.splitFeeds bytes)[j]? = some raw → recordOn? raw = none → recordOn? other = none →
        Text.splitFeeds bytes' = (Text.splitFeeds bytes).set j other →
        ∀ number f, number ≠ j + 1 →
          (⟨.manifest, (fileIn directory Artifact.manifestName).text, some number, f⟩ ∈
              report.errors ↔
            ⟨.manifest, (fileIn directory Artifact.manifestName).text, some number, f⟩ ∈
              report'.errors) := by
  refine ⟨⟨?_, ?_⟩, ?_⟩
  · rintro ⟨report, done, clean⟩
    exact exists_isConsistent done clean
  · rintro ⟨summary, lines, methods, consistent⟩
    exact exists_isClean consistent
  · intro report bytes done read
    refine ⟨fun number f => mem_errors_iff done read, ?_⟩
    intro t' report' bytes' j raw other done' read' at' absent absent' replaced number f elsewhere
    rw [mem_errors_iff done read, mem_errors_iff done' read', replaced]
    -- Off the replaced line the lines are the same, and so are the records before them.
    constructor
    · rintro ⟨k, line, here, rfl, fault⟩
      refine ⟨k, line, ?_, rfl, ?_⟩
      · rw [List.getElem?_set_ne (by omega), here]
      · rwa [recordsOn_take_set at' absent absent']
    · rintro ⟨k, line, here, rfl, fault⟩
      refine ⟨k, line, ?_, rfl, ?_⟩
      · rwa [List.getElem?_set_ne (by omega)] at here
      · rwa [recordsOn_take_set at' absent absent'] at fault

/-- The files of one routine belong together, and an unreadable line after that routine is
found where it stands and nowhere else. -/
theorem isClean_validate_oneRoutine :
    (∃ report, validate (oneTree "") top none = .ok report ∧
      report.isClean = true) ∧
    ∃ report, validate (oneTree "?") top none = .ok report ∧
      ⟨.manifest, "/intercepts.jsonl", some 2, .notJson⟩ ∈ report.errors ∧
      ∀ number f, number ≠ 2 →
        ⟨.manifest, "/intercepts.jsonl", some number, f⟩ ∉ report.errors := by
  obtain ⟨accepted, -⟩ :=
    isClean_validate_iff (oneTree "") top none
  have clean := accepted.2 ⟨_, _, _, isConsistent_oneRoutine⟩
  refine ⟨clean, ?_⟩
  obtain ⟨before, done, isClean⟩ := clean
  obtain ⟨report, done'⟩ : ∃ report,
      validate (oneTree "?") top none = .ok report := by
    cases outcome : validate (oneTree "?") top none with
    | ok report => exact ⟨report, rfl⟩
    | error e =>
      have isOk : (validate (oneTree "?") top none).isOk =
        true := by decide +kernel
      rw [outcome] at isOk
      cases isOk
  obtain ⟨-, lines⟩ := isClean_validate_iff (oneTree "?") top none
  obtain ⟨places, others⟩ := lines report _ done' rfl
  refine ⟨report, done', (places 2 _).2 ⟨1, Text.utf8 "?", by decide +kernel, rfl, ?_⟩, ?_⟩
  · exact .notJson (by decide +kernel) (by decide +kernel)
  · intro number f elsewhere mem
    have same := others (oneTree "") before
      (oneManifest "") 1 (Text.utf8 "?") [] done rfl (by decide +kernel) (by decide +kernel)
      (by decide +kernel) (by decide +kernel) number f elsewhere
    have errors := same.1 mem
    rw [isClean_iff.1 isClean] at errors
    cases errors

end CallSiteIds
