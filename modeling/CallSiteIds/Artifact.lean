/-!
# The output of a pass

A pass leaves three files in one directory.  The manifest and the summary have fixed names;
the name of the generated source is a setting.
-/

set_option autoImplicit false

namespace CallSiteIds

/-- The parts of the output of a pass. -/
inductive Artifact where
  | directory
  | summary
  | manifest
  | source
deriving DecidableEq, Repr

namespace Artifact

/-- The name of a part of the output. -/
def name : Artifact → String
  | directory => "artifacts_dir"
  | summary => "summary"
  | manifest => "manifest"
  | source => "source"

/-- The file name of the manifest. -/
def manifestName : String := "intercepts.jsonl"

/-- The file name of the summary. -/
def summaryName : String := "generation_summary.json"

/-- The file name of the generated source, where nothing else is set. -/
def usualSourceName : String := "PraefixumInterceptor.g.cs"

end Artifact

end CallSiteIds
