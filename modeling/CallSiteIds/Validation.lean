import CallSiteIds.Artifact
import CallSiteIds.Config
import CallSiteIds.Json.Reader
import CallSiteIds.Location.Key
import CallSiteIds.Manifest
import CallSiteIds.Source.Member
import CallSiteIds.Source.Routine
import CallSiteIds.Text.Lines

/-!
# Validation

Validation reads the files that a pass left behind and compares them with each other: the
summary and the manifest must be documents of their kinds, the source must be well formed, and
every routine of the manifest must stand in the source with the tag of its call site.  What is
wrong is a finding about one artifact; what was left out on purpose is a warning.
-/

set_option autoImplicit false

namespace CallSiteIds

/-- What validation can find. -/
inductive Finding where
  | directoryMissing
  | directoryIsFile
  | fileMissing
  | summaryUnreadable (path : String) (error : FileError)
  | fileUnreadable (path : String) (error : FileError)
  | fileUndecodable
  | notJson
  | notModel (failure : Schema.Failure)
  | versionMismatch (found : Int)
  | duplicateRoutine (name : String)
  | interceptedTwice (key : String)
  | notWellFormed
  | routineMissing (name key : String)
  | routineUnlisted (name : String)
  | routineUncheckable (name : String) (error : Location.KeyError)
  | wrongTag (name found key expected : String)
  | countMismatch (count : Int) (listed : Nat)
  | notIntercepted (call reason : String)
deriving DecidableEq, Repr

/-- The wording of a finding. -/
def Finding.message : Finding → String
  | .directoryMissing => "Artifacts directory does not exist."
  | .directoryIsFile => "Artifacts path is not a directory."
  | .fileMissing => "Required artifact file is missing."
  | .summaryUnreadable path error => "Invalid JSON: " ++ error.message path ++ "."
  | .fileUnreadable path error => "Failed to read file: " ++ error.message path ++ "."
  | .fileUndecodable => "Failed to read file."
  | .notJson => "Invalid JSON."
  | .notModel failure => "Schema validation failed: " ++ failure.message ++ "."
  | .versionMismatch found =>
    "Schema version mismatch: expected " ++ Decimal.integerString schemaVersion ++ ", got " ++
      Decimal.integerString found ++ "."
  | .duplicateRoutine name => "Duplicate routine name " ++ Text.quoted name ++ "."
  | .interceptedTwice key => "Call site " ++ Text.quoted key ++ " intercepted twice."
  | .notWellFormed => "The source is not well formed."
  | .routineMissing name key =>
    "Routine " ++ Text.quoted name ++ " for " ++ key ++
      " is missing or has no InterceptsLocation tag."
  | .routineUnlisted name =>
    "Routine " ++ Text.quoted name ++ " is not listed in " ++ Artifact.manifestName ++ "."
  | .routineUncheckable name error =>
    "Routine " ++ Text.quoted name ++ " cannot be checked: " ++ error.message ++ "."
  | .wrongTag name found key expected =>
    "Routine " ++ Text.quoted name ++ " is tagged " ++ found ++ " but intercepts " ++ key ++
      "; expected " ++ expected ++ "."
  | .countMismatch count listed =>
    "routine_count is " ++ Decimal.integerString count ++ " but the manifest lists " ++
      Decimal.integerString listed ++ " routines."
  | .notIntercepted call reason => "No interceptor for " ++ call ++ ": " ++ reason

/-- A finding with the place it is about. -/
structure Remark where
  artifact : Artifact
  path : String
  line : Option Nat
  finding : Finding
deriving DecidableEq, Repr

/-- The place of a remark as it is written. -/
def Remark.location (r : Remark) : String :=
  match r.line with
  | none => r.path
  | some line => r.path ++ ":" ++ Decimal.integerString line

/-- What validation reports. -/
structure Report where
  errors : List Remark
  warnings : List Remark
deriving DecidableEq, Repr

/-- Tells whether nothing is wrong. -/
def Report.isClean (r : Report) : Bool :=
  r.errors.isEmpty

namespace Validation

/-! ## Single files -/

/-- The version of a document, if it is not the one that is written. -/
def versionFindings (version : Int) : List Finding :=
  if version = schemaVersion then [] else [.versionMismatch version]

/-- What reading a summary gives. -/
def readSummary (bytes : List UInt8) : Option GenerationSummary × List Finding :=
  match Json.parseBytes? bytes with
  | none => (none, [.notJson])
  | some v =>
    match (GenerationSummary.read v).toExcept "GenerationSummary" with
    | .error failure => (none, [.notModel failure])
    | .ok summary => (some summary, versionFindings summary.schemaVersion)

/-- What reading one line of a manifest gives, after the records on the lines before. -/
def readRecord (before : List InterceptRecord) (line : List UInt8) :
    Option InterceptRecord × List Finding :=
  match Json.parseBytes? line with
  | none => (none, [.notJson])
  | some v =>
    match (InterceptRecord.read v).toExcept "InterceptRecord" with
    | .error failure => (none, [.notModel failure])
    | .ok r =>
      (some r,
        versionFindings r.schemaVersion ++
          (if before.any fun b => b.routineName == r.routineName then
            [.duplicateRoutine r.routineName] else []) ++
          (if before.any fun b => b.locationKey == r.locationKey then
            [.interceptedTwice r.locationKey] else []))

/-- What reading the lines of a manifest gives: the records of all readable lines, and the
findings with the numbers of their lines. -/
def readRecords : Nat → List InterceptRecord → List (List UInt8) →
    List InterceptRecord × List (Nat × Finding)
  | _, _, [] => ([], [])
  | number, before, raw :: rest =>
    let line := Text.trimBoth Text.isBlankByte raw
    if line.isEmpty then readRecords (number + 1) before rest
    else
      let (r, findings) := readRecord before line
      let (records, later) := readRecords (number + 1) (before ++ r.toList) rest
      (r.toList ++ records, findings.map (fun f => (number, f)) ++ later)

/-- What reading a manifest gives. -/
def readManifest (bytes : List UInt8) : List InterceptRecord × List (Nat × Finding) :=
  readRecords 1 [] (Text.splitFeeds bytes)

/-! ## Routines and their tags -/

/-- The tagged method of a name; of several the last counts. -/
def methodNamed? (methods : List Source.TaggedMethod) (name : String) :
    Option Source.TaggedMethod :=
  methods.reverse.find? fun m => m.name == name

/-- Compares the tags of a routine with the call site that the manifest gives it. -/
def tagFindings (r : InterceptRecord) (m : Source.TaggedMethod) : List Finding :=
  match Location.Position.ofKey r.locationKey with
  | .error e => [.routineUncheckable r.routineName e]
  | .ok p =>
    let expected := Source.tagArguments p.file p.line p.column r.interceptsData
    if m.tags.contains expected then []
    else [.wrongTag r.routineName (", ".intercalate m.tags) r.locationKey expected]

/-- Looks for the routine of a manifest record. -/
def routineFindings (methods : List Source.TaggedMethod) (r : InterceptRecord) :
    List (Option Nat × Finding) :=
  match methodNamed? methods r.routineName with
  | none => [(none, .routineMissing r.routineName r.locationKey)]
  | some m => (tagFindings r m).map fun f => (some m.line, f)

/-- The names of tagged methods, each once, in order. -/
def sortedNames (methods : List Source.TaggedMethod) : List String :=
  (methods.map (·.name)).eraseDups.mergeSort fun a b => decide (a ≤ b)

/-- The tagged methods that the manifest does not list. -/
def unlistedFindings (records : List InterceptRecord) (methods : List Source.TaggedMethod) :
    List (Option Nat × Finding) :=
  (sortedNames methods).filterMap fun name =>
    if records.any fun r => r.routineName == name then none
    else some ((methodNamed? methods name).map (·.line), .routineUnlisted name)

/-- Compares a source with the manifest. -/
def sourceFindings (bytes : List UInt8) (records : Option (List InterceptRecord)) :
    List (Option Nat × Finding) :=
  match Text.decodeUtf8? bytes with
  | none => [(none, .fileUndecodable)]
  | some cs =>
    match Source.taggedMethods? (Text.foldNewlines cs) with
    | none => [(none, .notWellFormed)]
    | some methods =>
      match records with
      | none => []
      | some records => records.flatMap (routineFindings methods) ++
          unlistedFindings records methods

/-! ## The summary against the manifest -/

/-- Compares the count of the summary with the manifest. -/
def countFindings (summary : GenerationSummary) (records : Option (List InterceptRecord)) :
    List Finding :=
  match records with
  | none => []
  | some records =>
    if summary.routineCount = records.length then []
    else [.countMismatch summary.routineCount records.length]

/-- The warnings for what a pass left out. -/
def failureFindings (summary : GenerationSummary) : List Finding :=
  summary.failures.map fun f => .notIntercepted (f.subject "unknown call site") f.reason

/-! ## The directory -/

/-- The remarks about one artifact. -/
def remarks (artifact : Artifact) (path : Path) (findings : List (Option Nat × Finding)) :
    List Remark :=
  findings.map fun (line, finding) => ⟨artifact, path.text, line, finding⟩

/-- The bytes of a file that must exist, or what to report instead. -/
def requiredBytes (t : FileTree) (path : Path) (unreadable : String → FileError → Finding) :
    Except Problem (Except Finding (List UInt8)) :=
  match t.status path.parts with
  | .error e => .error (.file path.text e)
  | .ok none => .ok (.error .fileMissing)
  | .ok (some _) =>
    match t.read path.parts with
    | .error e => .ok (.error (unreadable path.text e))
    | .ok bytes => .ok (.ok bytes)

/-- Findings about a file as a whole. -/
def whole (findings : List Finding) : List (Option Nat × Finding) :=
  findings.map fun f => (none, f)

/-- What the summary of a directory gives. -/
def summaryOf (t : FileTree) (path : Path) :
    Except Problem (Option GenerationSummary × List Finding) := do
  match ← requiredBytes t path .summaryUnreadable with
  | .error f => return (none, [f])
  | .ok bytes => return readSummary bytes

/-- What the manifest of a directory gives. -/
def manifestOf (t : FileTree) (path : Path) :
    Except Problem (Option (List InterceptRecord) × List (Option Nat × Finding)) := do
  match ← requiredBytes t path .fileUnreadable with
  | .error f => return (none, [(none, f)])
  | .ok bytes =>
    let (records, findings) := readManifest bytes
    return (some records, findings.map fun (line, f) => (some line, f))

/-- What the source of a directory gives. -/
def sourceOf (t : FileTree) (path : Path) (records : Option (List InterceptRecord)) :
    Except Problem (List (Option Nat × Finding)) := do
  match ← requiredBytes t path .fileUnreadable with
  | .error f => return [(none, f)]
  | .ok bytes => return sourceFindings bytes records

/-- The name of the source: the one that is asked for, or the one that the summary says, or the
usual one. -/
def sourceName (asked : Option String) (summary : Option GenerationSummary) : String :=
  match asked, summary with
  | some name, _ => name
  | none, some summary => summary.sourceName
  | none, none => Artifact.usualSourceName

def directoryReport (t : FileTree) (directory : Path) (asked : Option String) :
    Except Problem Report := do
  let file (name : String) : Path := directory.within (Path.ofString name)
  let summaryPath := file Artifact.summaryName
  let manifestPath := file Artifact.manifestName
  let (summary, summaryFound) ← summaryOf t summaryPath
  let (records, manifestFound) ← manifestOf t manifestPath
  let sourcePath := file (sourceName asked summary)
  let sourceFound ← sourceOf t sourcePath records
  let counted := summary.toList.flatMap fun s => countFindings s records
  let leftOut := summary.toList.flatMap failureFindings
  return {
    errors :=
      remarks .summary summaryPath (whole summaryFound) ++
        remarks .manifest manifestPath manifestFound ++
        remarks .source sourcePath sourceFound ++
        remarks .summary summaryPath (whole counted)
    warnings := remarks .summary summaryPath (whole leftOut) }

end Validation

/-- Validates the output of a pass in a directory, whose source may be asked for by name. -/
def validate (t : FileTree) (directory : Path) (asked : Option String) :
    Except Problem Report :=
  match t.status directory.parts with
  | .error e => .error (.file directory.text e)
  | .ok none => .ok ⟨[⟨.directory, directory.text, none, .directoryMissing⟩], []⟩
  | .ok (some (.file _)) => .ok ⟨[⟨.directory, directory.text, none, .directoryIsFile⟩], []⟩
  | .ok (some .directory) => Validation.directoryReport t directory asked

end CallSiteIds
