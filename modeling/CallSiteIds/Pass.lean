import CallSiteIds.Artifact
import CallSiteIds.Collection
import CallSiteIds.Config
import CallSiteIds.Descriptor.Batch
import CallSiteIds.Emission
import CallSiteIds.Json.Writer

/-!
# Generation passes

A pass reads the descriptors of a project and writes three files: the generated source, the
manifest and the summary.  It is decided in full before anything is written (`Plan.make`), and
what is written depends on the configuration and the descriptors alone (`Plan.ofBatch`).
-/

set_option autoImplicit false

namespace CallSiteIds

/-- What a pass is run on.  Places that are not given are those of the configuration, and a
configuration that is not given is that of the project. -/
structure PassRequest where
  root : Place
  outputDirectory : Option Place
  descriptors : Option Place
  config : Option Config

/-- What a pass will write, and what it reports. -/
structure Plan where
  outputDirectory : Place
  source : String
  intercepts : List InterceptRecord
  summary : GenerationSummary
  log : List LogLine

namespace Plan

/-- The plan for descriptors that were read from a file. -/
def ofBatch (config : Config) (outputDirectory descriptors : Place) (batch : DescriptorBatch) :
    Plan :=
  let collection := Collection.ofDescriptors config.markerNames batch.descriptors
  let emission := Emission.generate config.unitOptions collection.records
  { outputDirectory
    source := emission.source
    intercepts := emission.intercepts
    summary :=
      { schemaVersion
        sourceName := config.sourceName
        candidateCount := collection.candidateCount
        recordCount := collection.records.length
        routineCount := emission.intercepts.length
        dropped := collection.dropped
        failures := batch.errors ++ collection.failures ++ emission.failures }
    log := batch.logLines descriptors.text ++ collection.logLines ++ emission.logLines }

/-- Decides a pass: reads the configuration and the descriptors. -/
def make (s : Surroundings) (t : FileTree) (r : PassRequest) : Except Problem Plan := do
  let config ← match r.config with
    | some config => .ok config
    | none => Config.load t r.root
  let outputDirectory ← match r.outputDirectory with
    | some place => .ok place
    | none => Config.resolveOutput r.root config.outputDirectory
  let descriptors ← match r.descriptors with
    | some place => .ok place
    | none => Config.resolveDescriptors s r.root config.descriptors
  match t.read descriptors with
  | .error e => .error (.descriptors descriptors e)
  | .ok bytes => .ok (ofBatch config outputDirectory descriptors (.ofBytes bytes))

/-- The place of the generated source. -/
def sourcePlace (p : Plan) : Place :=
  p.outputDirectory ++ [p.summary.sourceName]

def manifestPlace (p : Plan) : Place :=
  p.outputDirectory ++ [Artifact.manifestName]

def summaryPlace (p : Plan) : Place :=
  p.outputDirectory ++ [Artifact.summaryName]

def manifestBytes (p : Plan) : List UInt8 :=
  Text.encodeUtf8 (Json.linesText (p.intercepts.map InterceptRecord.toJson))

def summaryBytes (p : Plan) : List UInt8 :=
  Text.encodeUtf8 (Json.documentText p.summary.toJson)

/-- The files of a plan in the order in which they are written. -/
def files (p : Plan) : List (Place × List UInt8) :=
  [(p.sourcePlace, Text.utf8 p.source), (p.manifestPlace, p.manifestBytes),
    (p.summaryPlace, p.summaryBytes)]

/-- Tells whether nothing failed. -/
def isClean (p : Plan) : Bool :=
  p.summary.failures.isEmpty

/-- The log line of a plan that was carried out. -/
def closingLine (p : Plan) : LogLine :=
  ⟨.info, "artifacts.write",
    "Wrote " ++ Decimal.integerString p.summary.routineCount ++ " interceptors to " ++
      Place.text p.sourcePlace ++ " (" ++ Decimal.integerString p.summary.dropped.length ++
      " dropped, " ++ Decimal.integerString p.summary.failures.length ++ " failed)"⟩

end Plan

/-! ## Carrying out a plan -/

/-- The outcome of something done to a file tree: the tree afterwards, the log lines, and what
came out of it. -/
structure Outcome (α : Type) where
  tree : FileTree
  log : List LogLine
  result : Except Problem α

/-- Writes files one after the other, up to the first that cannot be written. -/
def writeAll (t : FileTree) : List (Place × List UInt8) → FileTree × Except Problem Unit
  | [] => (t, .ok ())
  | (place, bytes) :: rest =>
    match t.write place bytes with
    | .error e => (t, .error (.file (Place.text place) e))
    | .ok t => writeAll t rest

/-- Carries out a plan. -/
def Plan.carryOut (p : Plan) (t : FileTree) : Outcome Unit :=
  match t.makeDirectory p.outputDirectory with
  | .error e => ⟨t, p.log, .error (.file (Place.text p.outputDirectory) e)⟩
  | .ok t =>
    match writeAll t p.files with
    | (t, .error e) => ⟨t, p.log, .error e⟩
    | (t, .ok ()) => ⟨t, p.log ++ [p.closingLine], .ok ()⟩

/-- Runs a pass. -/
def generate (s : Surroundings) (t : FileTree) (r : PassRequest) : Outcome Plan :=
  match Plan.make s t r with
  | .error e => ⟨t, [], .error e⟩
  | .ok p =>
    let outcome := p.carryOut t
    ⟨outcome.tree, outcome.log, outcome.result.map fun _ => p⟩

/-- A pass that is not decided changes nothing. -/
theorem generate_of_make_error {s : Surroundings} {t : FileTree} {r : PassRequest}
    {e : Problem} (h : Plan.make s t r = .error e) : (generate s t r).tree = t := by
  simp [generate, h]

end CallSiteIds
