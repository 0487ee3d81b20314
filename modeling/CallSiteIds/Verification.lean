import CallSiteIds.Pass

/-!
# Verification

Verification runs a pass again, into a directory that is thrown away, and compares the files
byte by byte with those that are there.  A path is missing from the new files, extra in them,
or mismatched, and each of the three lists is sorted.
-/

set_option autoImplicit false

namespace CallSiteIds

/-- How the files of two directories differ. -/
structure Comparison where
  /-- The files that only the first directory has. -/
  missing : List String
  /-- The files that only the second directory has. -/
  extra : List String
  /-- The files with different bytes. -/
  mismatches : List String
deriving DecidableEq, Repr

namespace Comparison

/-- Tells whether the directories do not differ. -/
def isEqual (c : Comparison) : Bool :=
  c.missing.isEmpty && c.extra.isEmpty && c.mismatches.isEmpty

/-- The bytes of a file among files. -/
def bytesOf? (way : Place) (files : List (Place × List UInt8)) : Option (List UInt8) :=
  (files.find? fun f => f.1 == way).map Prod.snd

/-- The names of ways through directories, in order. -/
def sortedNames (ways : List Place) : List String :=
  (ways.map fun way => "/".intercalate way).mergeSort fun a b => decide (a ≤ b)

/-- Compares the files of two directories. -/
def ofFiles (first second : List (Place × List UInt8)) : Comparison where
  missing := sortedNames ((first.map Prod.fst).filter fun way => (bytesOf? way second).isNone)
  extra := sortedNames ((second.map Prod.fst).filter fun way => (bytesOf? way first).isNone)
  mismatches := sortedNames <|
    (first.filter fun f =>
      match bytesOf? f.1 second with
      | some bytes => bytes != f.2
      | none => false).map Prod.fst

end Comparison

/-- Why verification ends early. -/
inductive VerificationError where
  | directoryMissing (path : String)
  | directoryIsFile (path : String)
  | problem (problem : Problem)
deriving DecidableEq, Repr

/-- The wording of an early end. -/
def VerificationError.message : VerificationError → String
  | .directoryMissing path => "Artifacts directory does not exist: " ++ path
  | .directoryIsFile path => "Artifacts path is not a directory: " ++ path
  | .problem p => p.message

/-- Verifies a directory: compares it with what a pass would write now.  Nothing that lasts is
changed; the log lines of the pass are kept. -/
def verify (s : Surroundings) (t : FileTree) (directory : Path) (r : PassRequest) :
    List LogLine × Except VerificationError Comparison :=
  match t.status directory.parts with
  | .error e => ([], .error (.problem (.file directory.text e)))
  | .ok none => ([], .error (.directoryMissing directory.text))
  | .ok (some (.file _)) => ([], .error (.directoryIsFile directory.text))
  | .ok (some .directory) =>
    let outcome := generate s (t.erase s.temporary) { r with outputDirectory := s.temporary }
    match outcome.result with
    | .error e => (outcome.log, .error (.problem e))
    | .ok _ =>
      match outcome.tree.reach directory.parts with
      | .error e => (outcome.log, .error (.problem (.file directory.text e)))
      | .ok place =>
        (outcome.log, .ok (.ofFiles (outcome.tree.filesBelow place)
          (outcome.tree.filesBelow s.temporary)))

end CallSiteIds
