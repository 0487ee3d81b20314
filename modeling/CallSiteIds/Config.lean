import CallSiteIds.Artifact
import CallSiteIds.FileTree
import CallSiteIds.Marker
import CallSiteIds.Schema.Scalar
import CallSiteIds.Source.Identifier
import CallSiteIds.Source.Unit
import CallSiteIds.Text.Utf8
import CallSiteIds.Toml.Document

/-!
# Configuration

A project may say in a file where descriptors are read and output is written, which markers
count, and what the generated file declares.  Every setting has a default, and no other setting
is accepted.  The output directory must lie within the project (`resolveOutput`).
-/

set_option autoImplicit false

namespace CallSiteIds

open Schema
open Json (Value)

/-- What a project can set. -/
structure Config where
  outputDirectory : String
  descriptors : String
  markerNames : List String
  namespaceName : String
  className : String
  sourceName : String
  declaresAttribute : Bool
deriving DecidableEq, Repr

/-- Why a configuration is not usable. -/
inductive ConfigError where
  | notToml (file : Place)
  | invalid (file : Place) (failure : Schema.Failure)
  | outputEmpty
  | outputNotRelative
  | outputEscapes (text : String)
deriving DecidableEq, Repr

/-- The wording of a configuration error. -/
def ConfigError.message : ConfigError → String
  | .notToml place => "Invalid TOML in " ++ place.text
  | .invalid place failure => "Invalid config in " ++ place.text ++ ": " ++ failure.message
  | .outputEmpty => "output_dir must be a non-empty relative path"
  | .outputNotRelative => "output_dir must be a relative path within the project root"
  | .outputEscapes text => "output_dir '" ++ text ++ "' escapes the project root"

/-- Why a pass or the reading of its configuration ends early. -/
inductive Problem where
  | config (error : ConfigError)
  /-- The configuration file is no text. -/
  | undecodable
  /-- The configuration file has an integer with too many digits. -/
  | longInteger (digits : Nat)
  | path (error : PathError)
  /-- The descriptor file cannot be read. -/
  | descriptors (file : Place) (error : FileError)
  /-- Another operation on the file at a path failed. -/
  | file (path : String) (error : FileError)
deriving DecidableEq, Repr

/-- The wording of a reason to end early. -/
def Problem.message : Problem → String
  | .config error => error.message
  | .undecodable => "The configuration file is not encoded as UTF-8"
  | .longInteger digits =>
    "The configuration file has an integer of " ++ Decimal.integerString digits ++ " digits"
  | .path error => error.message
  | .descriptors place error =>
    "Failed to read descriptors from " ++ place.text ++ ": " ++ error.message place.text
  | .file place error => error.message place

namespace Config

/-- The name of the configuration file in a project. -/
def fileName : String := "praefixum.toml"

/-- The configuration of a project that sets nothing. -/
def usual : Config where
  outputDirectory := ".praefixum"
  descriptors := "callsites.jsonl"
  markerNames := Marker.defaultNames
  namespaceName := Source.UnitOptions.usual.namespaceName
  className := Source.UnitOptions.usual.className
  sourceName := Artifact.usualSourceName
  declaresAttribute := true

/-! ## Reading settings -/

/-- A text without one line feed at its end. -/
def withoutLastFeed (cs : List Char) : List Char :=
  if cs.getLast? = some '\n' then cs.dropLast else cs

/-- Tells whether a text is accepted as the name of a class: an identifier, and perhaps a line
feed. -/
def isClassName (cs : List Char) : Bool :=
  Source.isIdentifier (withoutLastFeed cs)

/-- Tells whether a text is accepted as a namespace: identifiers joined by dots, and perhaps a
line feed. -/
def isNamespace (cs : List Char) : Bool :=
  (Text.splitAll '.' (withoutLastFeed cs)).all Source.isIdentifier

/-- Tells whether a text is accepted as the name of the generated file. -/
def isFileName (s : String) : Bool :=
  s != "" && !s.toList.contains '/' && !s.toList.contains '\\' && s != "." && s != ".."

/-- Goes on with what was read if it passes a test, and reports a violation otherwise. -/
def ensure {α : Type} (test : α → Bool) (violation : α → Violation) (read : Checked α) :
    Checked α :=
  read.andThen fun a => if test a then .valid a else .reject (.violation (violation a))

/-- Reads the names of markers. -/
def markerList (v : Value) : Checked (List String) :=
  ensure (fun names => !names.isEmpty) (fun _ => .noMarkerNames) (list string v)

/-- Reads a namespace. -/
def namespaceText (v : Value) : Checked String :=
  ensure (fun s => isNamespace s.toList) .namespaceNotDotted (string v)

/-- Reads the name of a class. -/
def classText (v : Value) : Checked String :=
  ensure (fun s => isClassName s.toList) .classNotIdentifier (string v)

/-- Reads the name of the generated file. -/
def sourceText (v : Value) : Checked String :=
  ensure isFileName (fun _ => .sourceNotFileName) (string v)

def settingNames : List String :=
  ["output_dir", "descriptors", "marker_names", "namespace", "class_name", "source_name",
    "emit_attribute_polyfill"]

/-- Reports every field that is not a setting. -/
def onlySettings (o : Fields) : Checked Unit :=
  match o.filter fun p => !settingNames.contains p.1 with
  | [] => .valid ()
  | others => .invalid (others.map fun p => ⟨[.field p.1], .extraForbidden⟩)

/-- Reads a configuration from its settings. -/
def read : Value → Checked Config :=
  model fun o =>
    (fun c (_ : Unit) => c) <$>
      (Config.mk <$> fieldOr "output_dir" usual.outputDirectory string o
        <*> fieldOr "descriptors" usual.descriptors string o
        <*> fieldOr "marker_names" usual.markerNames markerList o
        <*> fieldOr "namespace" usual.namespaceName namespaceText o
        <*> fieldOr "class_name" usual.className classText o
        <*> fieldOr "source_name" usual.sourceName sourceText o
        <*> fieldOr "emit_attribute_polyfill" usual.declaresAttribute boolean o)
      <*> onlySettings o

/-- Reads a configuration from the bytes of a file. -/
def ofBytes (file : Place) (bytes : List UInt8) : Except Problem Config :=
  match Text.decodeUtf8? bytes with
  | none => .error .undecodable
  | some cs =>
    match Toml.read cs with
    | .error .malformed => .error (.config (.notToml file))
    | .error (.longInteger digits) => .error (.longInteger digits)
    | .ok settings =>
      match (read (.object settings)).toExcept "PraefixumConfig" with
      | .error failure => .error (.config (.invalid file failure))
      | .ok c => .ok c

/-- The configuration of a project.  A project without a configuration file has the usual
one. -/
def load (t : FileTree) (root : Place) : Except Problem Config :=
  let file := root ++ [fileName]
  match t.status file with
  | .error e => .error (.file (Place.text file) e)
  | .ok (some (.file bytes)) => ofBytes file bytes
  | .ok _ => .ok usual

/-- How the generated file is laid out. -/
def unitOptions (c : Config) : Source.UnitOptions :=
  ⟨c.namespaceName, c.className, c.declaresAttribute⟩

/-! ## Places -/

/-- The place of an output directory, which must lie within the project. -/
def resolveOutput (root : Place) (text : String) : Except Problem Place :=
  if text = "" then .error (.config .outputEmpty)
  else if text.toList.head? = some '~' then .error (.config .outputNotRelative)
  else
    let path := Path.ofString text
    if path.isAbsolute then .error (.config .outputNotRelative)
    else
      match path.resolve root with
      | .error e => .error (.path e)
      | .ok place =>
        if root.isPrefixOf place then .ok place else .error (.config (.outputEscapes text))

/-- The place of the descriptor file, which may lie anywhere. -/
def resolveDescriptors (s : Surroundings) (root : Place) (text : String) :
    Except Problem Place :=
  match (Path.ofString text).locate { s with workingDirectory := root } with
  | .error e => .error (.path e)
  | .ok place => .ok place

end Config

end CallSiteIds
