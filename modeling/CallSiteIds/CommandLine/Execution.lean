import CallSiteIds.CommandLine.Command
import CallSiteIds.Literal.Derivation
import CallSiteIds.Validation
import CallSiteIds.Verification

/-!
# Carrying out commands

A command acts on a file tree and ends with an exit status: zero when all is well, one when
something was left out or differs, two when the command could not be carried out.  A problem
that is not about the project ends the command without a status.
-/

set_option autoImplicit false

namespace CallSiteIds.CommandLine

/-- What a command does: the tree afterwards, what it prints, and how it ends. -/
structure Answer where
  tree : FileTree
  /-- The lines of the result. -/
  output : List String
  /-- The log lines and messages. -/
  notes : List String
  /-- The exit status, unless a problem ends the command without one. -/
  ending : Except Problem Nat

namespace Answer

/-- A command that printed notes and ended with a status. -/
def ended (t : FileTree) (notes : List String) (status : Nat) : Answer :=
  ⟨t, [], notes, .ok status⟩

/-- A command that was stopped by a problem, which is reported if it is about the
configuration. -/
def stopped (t : FileTree) (notes : List String) (problem : Problem) : Answer :=
  match problem with
  | .config e => ended t (notes ++ ["config error: " ++ e.message]) 2
  | e => ⟨t, [], notes, .error e⟩

end Answer

/-- The place that a text on the command line names. -/
def locate (s : Surroundings) (text : String) : Except Problem Place :=
  match (Path.ofString text).locate s with
  | .error e => .error (.path e)
  | .ok place => .ok place

/-- The place that an option names, if it is given. -/
def locateOption (s : Surroundings) : Option String → Except Problem (Option Place)
  | none => .ok none
  | some text => (locate s text).map some

/-- The directory of an earlier pass: the one that is named or the one of the configuration. -/
def locateArtifacts (s : Surroundings) (t : FileTree) (root : Place) :
    Option String → Except Problem Place
  | some text => locate s text
  | none => do
    let config ← Config.load t root
    Config.resolveOutput root config.outputDirectory

/-! ## Generating -/

/-- The message about a failure. -/
def failureNote (f : RecordFailure) : String :=
  f.subject "<unknown location>" ++ ": " ++ f.reason

def ofPass (severity : Severity) (outcome : Outcome Plan) : Answer :=
  let notes := shownFrom severity outcome.log
  match outcome.result with
  | .ok plan =>
    .ended outcome.tree (notes ++ plan.summary.failures.map failureNote)
      (if plan.isClean then 0 else 1)
  | .error (.descriptors place e) =>
    .ended outcome.tree (notes ++ ["error: " ++ (Problem.descriptors place e).message]) 2
  | .error e => .stopped outcome.tree notes e

/-- Generates the output of a project. -/
def runGenerate (s : Surroundings) (t : FileTree) (severity : Severity) (root : String)
    (descriptors outputDirectory : Option String) : Answer :=
  let request : Except Problem PassRequest := do
    let root ← locate s root
    let outputDirectory ← locateOption s outputDirectory
    let descriptors ← locateOption s descriptors
    return ⟨root, outputDirectory, descriptors, none⟩
  match request with
  | .error e => .stopped t [] e
  | .ok request => ofPass severity (generate s t request)

/-! ## Validating -/

/-- The message about a remark. -/
def errorNote (r : Remark) : String :=
  r.location ++ ": " ++ r.finding.message

/-- The message about a remark that is only a warning. -/
def warningNote (r : Remark) : String :=
  r.location ++ ": warning: " ++ r.finding.message

def ofReport (t : FileTree) (report : Report) : Answer :=
  .ended t (report.warnings.map warningNote ++ report.errors.map errorNote)
    (if report.isClean then 0 else 1)

/-- Validates the output of a project. -/
def runValidate (s : Surroundings) (t : FileTree) (root : String)
    (artifacts : Option String) : Answer :=
  let report : Except Problem Report := do
    let root ← locate s root
    let directory ← locateArtifacts s t root artifacts
    validate t (.ofPlace directory) none
  match report with
  | .error e => .stopped t [] e
  | .ok report => ofReport t report

/-! ## Verifying -/

/-- The messages about a comparison. -/
def comparisonNotes (c : Comparison) : List String :=
  c.missing.map ("missing: " ++ ·) ++ c.extra.map ("extra: " ++ ·) ++
    c.mismatches.map ("mismatches: " ++ ·)

/-- Tells whether a problem of a pass is reported with the directory that is verified. -/
def isReported : Problem → Bool
  | .descriptors .. => true
  | .file _ .notFound => true
  | .file _ .notADirectory => true
  | _ => false

/-- The answer to a verification of a directory. -/
def ofVerification (t : FileTree) (severity : Severity) (directory : Place)
    (verified : List LogLine × Except VerificationError Comparison) : Answer :=
  let notes := shownFrom severity verified.1
  let reported (message : String) : Answer :=
    .ended t (notes ++ ["artifacts-dir: " ++ directory.text, "error: " ++ message]) 2
  match verified.2 with
  | .ok c => .ended t (notes ++ comparisonNotes c) (if c.isEqual then 0 else 1)
  | .error (.problem p) => if isReported p then reported p.message else .stopped t notes p
  | .error e => reported e.message

/-- Verifies the output of a project. -/
def runVerify (s : Surroundings) (t : FileTree) (severity : Severity) (root : String)
    (descriptors artifacts : Option String) : Answer :=
  let inputs : Except Problem (Place × PassRequest) := do
    let root ← locate s root
    let directory ← locateArtifacts s t root artifacts
    let descriptors ← locateOption s descriptors
    return (directory, ⟨root, none, descriptors, none⟩)
  match inputs with
  | .error e => .stopped t [] e
  | .ok (directory, request) =>
    ofVerification t severity directory (verify s t (.ofPlace directory) request)

/-! ## Printing a literal -/

/-- The literal of one parameter of a call, or what is wrong with the request. -/
def literalOf (file : String) (line column ordinal : Int) (format : String)
    (lead : Option String) : Except String String :=
  match (Location.Position.mk file line column).key with
  | .error e => .error e.message
  | .ok key =>
    match Literal.Format.ofString format with
    | .error e => .error e.message
    | .ok f => .ok (Literal.literal key ordinal f lead)

/-- Carries out a command. -/
def Invocation.run (i : Invocation) (s : Surroundings) (t : FileTree) : Answer :=
  match i.command with
  | .generate root descriptors outputDirectory =>
    runGenerate s t i.severity root descriptors outputDirectory
  | .validate root artifacts => runValidate s t root artifacts
  | .verify root descriptors artifacts => runVerify s t i.severity root descriptors artifacts
  | .literal file line column ordinal format lead =>
    match literalOf file line column ordinal format lead with
    | .ok text => ⟨t, [text], [], .ok 0⟩
    | .error message => .ended t ["error: " ++ message] 2

end CallSiteIds.CommandLine
