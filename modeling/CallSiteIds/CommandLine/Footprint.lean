import CallSiteIds.CommandLine.Execution

/-!
# What a command looks at

A command is carried out on a file tree, and a program that carries it out on real files needs
to know which of them to read first.  The footprint of a command lists their places.  It grows
as more of the tree is known, because the configuration names further places, and so does the
summary of an earlier pass; after three rounds of reading nothing is added.
-/

set_option autoImplicit false

namespace CallSiteIds.CommandLine

/-- How many rounds of reading settle what a command looks at. -/
def footprintRounds : Nat := 3

/-- The places of a reading that succeeded. -/
def placesOf (place : Except Problem Place) : List Place :=
  match place with
  | .ok p => [p]
  | .error _ => []

/-- The places that a setting names, as far as the configuration is known. -/
def settingPlaces (t : FileTree) (root : Place)
    (resolve : Config → Except Problem Place) : List Place :=
  placesOf ((Config.load t root).bind resolve)

/-- The place that an option names, or else a setting. -/
def namedPlaces (s : Surroundings) (t : FileTree) (root : Place) (text : Option String)
    (resolve : Config → Except Problem Place) : List Place :=
  match text with
  | some text => placesOf (locate s text)
  | none => settingPlaces t root resolve

/-- The place of the source that the summary in a directory names. -/
def sourcePlaces (t : FileTree) (directory : Place) : List Place :=
  match Validation.summaryOf t (.ofPlace (directory ++ [Artifact.summaryName])) with
  | .ok (some summary, _) =>
    let source := (Path.ofPlace directory).within (Path.ofString summary.sourceName)
    [Path.follow [] source.parts]
  | _ => []

/-- The places that a command looks at, as far as the tree is known. -/
def Invocation.footprint (i : Invocation) (s : Surroundings) (t : FileTree) : List Place :=
  let output (root : Place) (c : Config) : Except Problem Place :=
    Config.resolveOutput root c.outputDirectory
  let input (root : Place) (c : Config) : Except Problem Place :=
    Config.resolveDescriptors s root c.descriptors
  let ofRoot (text : String) (places : Place → List Place) : List Place :=
    match locate s text with
    | .error _ => []
    | .ok root => (root ++ [Config.fileName]) :: places root
  match i.command with
  | .generate root descriptors directory => ofRoot root fun root =>
    namedPlaces s t root descriptors (input root) ++ namedPlaces s t root directory (output root)
  | .validate root artifacts => ofRoot root fun root =>
    let directories := namedPlaces s t root artifacts (output root)
    directories ++ directories.flatMap (sourcePlaces t)
  | .verify root descriptors artifacts => ofRoot root fun root =>
    namedPlaces s t root descriptors (input root) ++ namedPlaces s t root artifacts (output root)
  | .literal .. => []

end CallSiteIds.CommandLine
