import CallSiteIds.Proofs.Pass.Effects
import CallSiteIds.Proofs.Text.Encoding

/-!
# The files of a pass and its inputs

A pass that follows the configuration of a project writes three files into the output directory.
They are three different files exactly when the source is not named like the manifest or the
summary; the configuration file is one of them exactly when the output directory is the project
and the source is named like it.  Where the files differ from each other and from the inputs, each
holds what it is for, and the inputs stay (`ownFiles_of_generate`).  Some accepted configurations
do name one file twice, and then a pass overwrites what it has written or read
(`overwrites_of_besideInputs`).
-/

set_option autoImplicit false

namespace CallSiteIds

open FileTree (placed)
open Place (IsName)

/-! ## The three places -/

namespace Config

/-- The places of the files that a pass writes into a directory. -/
def artifactPlaces (c : Config) (output : Place) : List Place :=
  [output ++ [c.sourceName], output ++ [Artifact.manifestName], output ++ [Artifact.summaryName]]

variable {c : Config} {root output : Place}

theorem mem_artifactPlaces_iff {place : Place} :
    place ∈ c.artifactPlaces output ↔
      ∃ name ∈ [c.sourceName, Artifact.manifestName, Artifact.summaryName],
        place = output ++ [name] := by
  simp [artifactPlaces]

/-- The files differ exactly when the source is not named like one of the others. -/
theorem nodup_artifactPlaces_iff :
    (c.artifactPlaces output).Nodup ↔
      c.sourceName ≠ Artifact.manifestName ∧ c.sourceName ≠ Artifact.summaryName := by
  have fixed : Artifact.manifestName ≠ Artifact.summaryName := by decide
  simp [artifactPlaces, fixed]

/-- The configuration file of a project is written exactly when the source is named like it and
the output directory is the project. -/
theorem file_mem_artifactPlaces_iff :
    root ++ [fileName] ∈ c.artifactPlaces output ↔ output = root ∧ c.sourceName = fileName := by
  have manifest : Artifact.manifestName ≠ fileName := by decide
  have summary : Artifact.summaryName ≠ fileName := by decide
  rw [mem_artifactPlaces_iff]
  constructor
  · rintro ⟨name, mem, same⟩
    obtain ⟨rfl, last⟩ := List.append_inj' same rfl
    injection last with last
    subst last
    simp only [List.mem_cons, List.not_mem_nil, or_false, manifest.symm, summary.symm] at mem
    exact ⟨rfl, mem.symm⟩
  · rintro ⟨rfl, named⟩
    exact ⟨c.sourceName, List.mem_cons_self, by rw [named]⟩

/-! ## Loading -/

/-- A project without a configuration file has the usual configuration. -/
theorem eq_usual_of_load {t : FileTree} (proper : root.IsProper)
    (free : t.AdmitsDirectory (root ++ [fileName])) (h : load t root = .ok c) : c = usual := by
  have named : IsName fileName := by decide
  obtain ⟨entry, status, ⟨bytes, rfl, -⟩ | ⟨-, same⟩⟩ := load_eq_ok_iff.1 h
  · have held := FileTree.get?_of_status (Place.isProper_append_singleton.2 ⟨proper, named⟩) status
    exact absurd held (free bytes)
  · exact same

/-- The usual output directory is one of the project. -/
theorem resolveOutput_usual (root : Place) :
    resolveOutput root usual.outputDirectory = .ok (root ++ [".praefixum"]) := by
  have read : Path.ofString ".praefixum" = ⟨.relative, [".praefixum"]⟩ := by decide
  have plain : [".praefixum"].any Path.holdsNull = false := by decide
  have within : root.isPrefixOf (root ++ [".praefixum"]) = true :=
    List.isPrefixOf_iff_prefix.2 (List.prefix_append _ _)
  unfold resolveOutput usual
  simp only
  rw [if_neg (by decide), if_neg (by decide), read]
  simp [Path.isAbsolute, Path.resolve, Path.follow, Path.step, Path.above, plain, within]

end Config

/-! ## What the files hold -/

/-- A generated source starts with a slash. -/
theorem Source.head?_unitText (options : Source.UnitOptions) (routines : List (List String)) :
    (Source.unitText options routines).toList.head? = some '/' := by
  unfold Source.unitText
  split
  · rfl
  · unfold Source.unitLines
    simp only [List.cons_append, String.intercalate_cons_cons, String.toList_append,
      List.head?_append]
    rfl

/-- A manifest that is not empty starts with a brace. -/
theorem Json.head?_linesText_ne (is : List InterceptRecord) :
    (Json.linesText (is.map InterceptRecord.toJson)).head? ≠ some '/' := by
  cases is with
  | nil => simp [Json.linesText]
  | cons i is => simp [Json.linesText, InterceptRecord.toJson, Json.compact]

/-- A summary starts with a brace. -/
theorem Json.head?_documentText_ne (s : GenerationSummary) :
    (Json.documentText s.toJson).head? ≠ some '/' := by
  simp only [Json.documentText, GenerationSummary.toJson, Json.indented, Json.block]
  split <;> simp

namespace Plan

theorem head?_source (config : Config) (output descriptors : Place) (batch : DescriptorBatch) :
    (ofBatch config output descriptors batch).source.toList.head? = some '/' :=
  Source.head?_unitText _ _

/-- A generated source is neither a manifest nor a summary. -/
theorem source_ne (config : Config) (output descriptors : Place) (batch : DescriptorBatch) :
    let p := ofBatch config output descriptors batch
    Text.utf8 p.source ≠ p.manifestBytes ∧ Text.utf8 p.source ≠ p.summaryBytes := by
  intro p
  have head : p.source.toList.head? = some '/' := head?_source config output descriptors batch
  constructor
  · intro same
    have texts := Text.encodeUtf8_injective same
    rw [texts] at head
    exact Json.head?_linesText_ne _ head
  · intro same
    have texts := Text.encodeUtf8_injective same
    rw [texts] at head
    exact Json.head?_documentText_ne _ head

end Plan

/-! ## A pass that follows the configuration -/

/-- A generated source is no configuration. -/
theorem Toml.read_slash (rest : List Char) : Toml.read ('/' :: rest) = .error .malformed := by
  have folded : Toml.foldPairs ('/' :: rest) = '/' :: Toml.foldPairs rest := by
    simp [Toml.foldPairs]
  rw [Toml.read, folded]
  rfl

/-- The request for a pass that takes all places from the configuration of a project. -/
def projectRequest (root : Place) : PassRequest :=
  ⟨root, none, none, none⟩

/-- What the places of a pass hold after it, and what becomes of its inputs. -/
structure HoldsFiles (config : Config) (root output descriptors : Place) (p : Plan)
    (t t' : FileTree) : Prop where
  places : p.files.map Prod.fst = config.artifactPlaces output
  manifest : t'.read p.manifestPlace = .ok p.manifestBytes
  summary : t'.read p.summaryPlace = .ok p.summaryBytes
  /-- The source is there exactly when no other file was written over it. -/
  source : t'.read p.sourcePlace = .ok (Text.utf8 p.source) ↔ (config.artifactPlaces output).Nodup
  /-- The configuration file stays exactly when it is not one of the files. -/
  configuration : t'.get? (root ++ [Config.fileName]) = t.get? (root ++ [Config.fileName]) ↔
    root ++ [Config.fileName] ∉ config.artifactPlaces output
  /-- The descriptor file stays when it is not one of the files. -/
  descriptors : descriptors ∉ config.artifactPlaces output →
    t'.get? descriptors = t.get? descriptors
  /-- Each of the places holds one of the files, whatever it held before. -/
  written : ∀ place ∈ config.artifactPlaces output,
    ∃ bytes ∈ p.files.map Prod.snd, t'.get? place = some (.file bytes)

namespace Plan

variable {p : Plan} {t t' : FileTree}

/-- The source is read as it was planned exactly when it has a name of its own. -/
theorem Effect.read_source_iff (effect : p.Effect t t') (writable : p.IsWritable t)
    (proper : p.IsProper) (different : Text.utf8 p.source ≠ p.manifestBytes ∧
      Text.utf8 p.source ≠ p.summaryBytes) :
    t'.read p.sourcePlace = .ok (Text.utf8 p.source) ↔
      p.summary.sourceName ≠ Artifact.manifestName ∧
        p.summary.sourceName ≠ Artifact.summaryName := by
  have written := p.written?_eq p.summary.sourceName
  have read {bytes : List UInt8} (held : p.written? p.summary.sourceName = some bytes) :
      t'.read p.sourcePlace = .ok bytes := (effect.read writable proper held).2
  split at written
  · rename_i same
    rw [read written]
    simp [same, different.2.symm]
  · split at written
    · rename_i same
      rw [read written]
      simp [same, different.1.symm]
    · rename_i summary manifest
      rw [if_pos rfl] at written
      rw [read written]
      simp [summary, manifest]

end Plan

section Project

variable {config : Config} {root output descriptors : Place} {p : Plan} {t t' : FileTree}

/-- No configuration is loaded from a text that starts with a slash. -/
theorem Config.ofBytes_ne_of_head? {text : String} (head : text.toList.head? = some '/')
    (file : Place) (c : Config) : ofBytes file (Text.utf8 text) ≠ .ok c := by
  obtain ⟨rest, whole⟩ := List.head?_eq_some_iff.1 head
  simp [ofBytes, Text.utf8, Text.decodeUtf8?_encodeUtf8, whole, Toml.read_slash]

/-- The configuration file holds what it held exactly when it is not one of the files. -/
theorem Plan.Effect.configuration_iff (effect : p.Effect t t') (writable : p.IsWritable t)
    (proper : root.IsProper) (loaded : Config.load t root = .ok config)
    (chosen : Config.resolveOutput root config.outputDirectory = .ok p.outputDirectory)
    (named : p.summary.sourceName = config.sourceName)
    (head : p.source.toList.head? = some '/') :
    t'.get? (root ++ [Config.fileName]) = t.get? (root ++ [Config.fileName]) ↔
      ¬(p.outputDirectory = root ∧ config.sourceName = Config.fileName) := by
  have fileProper : Place.IsProper (root ++ [Config.fileName]) :=
    Place.isProper_append_singleton.2 ⟨proper, by decide⟩
  constructor
  · rintro same ⟨rfl, source⟩
    have here : p.summary.sourceName = Config.fileName := named.trans source
    have written := Plan.written?_sourceName (p := p) (by rw [here]; decide) (by rw [here]; decide)
    rw [here] at written
    rw [effect.holds written] at same
    -- The configuration was not loaded from that source, and the usual one names another.
    obtain ⟨entry, status, ⟨bytes, rfl, read⟩ | ⟨-, rfl⟩⟩ := Config.load_eq_ok_iff.1 loaded
    · rw [FileTree.get?_of_status fileProper status] at same
      injection same with same
      injection same with same
      exact Config.ofBytes_ne_of_head? head _ _ (same ▸ read)
    · exact absurd source (by decide)
  · intro apart
    have unwritten : ∀ name, p.written? name ≠ none →
        root ++ [Config.fileName] ≠ p.outputDirectory ++ [name] :=
      fun name => Plan.fileName_ne_of_written (named ▸ apart)
    cases held : t.get? (root ++ [Config.fileName]) with
    | some entry =>
      cases entry with
      | directory => exact effect.directory writable held
      | file bytes => exact effect.file writable held unwritten
    | none =>
      -- Without a configuration file the output directory lies elsewhere.
      have usual := Config.eq_usual_of_load proper (fun bytes => by simp [held]) loaded
      rw [usual, Config.resolveOutput_usual] at chosen
      injection chosen with chosen
      rw [effect.get?_eq ?_ unwritten, held]
      rw [← chosen]
      intro before
      have last := before.eq_of_length (by simp)
      exact absurd (List.append_cancel_left last) (by decide)

/-- A pass that follows a configuration that was loaded has a proper plan. -/
theorem Plan.isProper_ofBatch (proper : root.IsProper) (loaded : Config.load t root = .ok config)
    (chosen : Config.resolveOutput root config.outputDirectory = .ok output)
    (batch : DescriptorBatch) : (ofBatch config output descriptors batch).IsProper :=
  ⟨Config.isProper_of_resolveOutput proper chosen,
    Config.isName_of_isAccepted (Config.isAccepted_of_load loaded)⟩

/-- What a pass leaves when it follows a configuration that was loaded. -/
theorem Plan.Effect.holdsFiles {bytes : List UInt8} (proper : root.IsProper)
    (loaded : Config.load t root = .ok config)
    (chosen : Config.resolveOutput root config.outputDirectory = .ok output)
    (input : descriptors.IsProper) (read : t.read descriptors = .ok bytes)
    (effect : (Plan.ofBatch config output descriptors (.ofBytes bytes)).Effect t t')
    (writable : (Plan.ofBatch config output descriptors (.ofBytes bytes)).IsWritable t) :
    HoldsFiles config root output descriptors
      (Plan.ofBatch config output descriptors (.ofBytes bytes)) t t' := by
  have head := Plan.head?_source config output descriptors (.ofBytes bytes)
  have different := Plan.source_ne config output descriptors (.ofBytes bytes)
  have planProper : (Plan.ofBatch config output descriptors (.ofBytes bytes)).IsProper :=
    Plan.isProper_ofBatch proper loaded chosen _
  have places {place : Place} : place ∈ config.artifactPlaces output ↔
      ∃ name, (Plan.ofBatch config output descriptors (.ofBytes bytes)).written? name ≠ none ∧
        place = output ++ [name] := by
    simp only [Config.mem_artifactPlaces_iff, Plan.written?_ne_none_iff]
    rfl
  have readBack {name : String} {content : List UInt8}
      (held : (Plan.ofBatch config output descriptors (.ofBytes bytes)).written? name =
        some content) : t'.read (output ++ [name]) = .ok content :=
    (effect.read writable planProper held).2
  exact {
    places := rfl
    manifest := readBack (Plan.written?_manifestName _)
    summary := readBack (Plan.written?_summaryName _)
    source := by
      rw [Config.nodup_artifactPlaces_iff]
      exact effect.read_source_iff writable planProper different
    configuration := by
      rw [Config.file_mem_artifactPlaces_iff]
      exact effect.configuration_iff writable proper loaded chosen rfl head
    descriptors := by
      intro away
      obtain ⟨-, held⟩ := FileTree.get?_of_read input read
      rw [held]
      exact effect.file writable held fun name written same => away (places.2 ⟨name, written, same⟩)
    written := by
      intro place mem
      obtain ⟨name, written, rfl⟩ := places.1 mem
      obtain ⟨content, written⟩ := Option.ne_none_iff_exists'.1 written
      have file := List.mem_map_of_mem (f := placed output) (FileTree.mem_of_lastOf? written)
      exact ⟨content, List.mem_map.2 ⟨_, file, rfl⟩, effect.holds written⟩ }

/-- What a completed pass leaves when it follows the configuration of a project. -/
theorem holdsFiles_of_generate {s : Surroundings} (proper : root.IsProper)
    (loaded : Config.load t root = .ok config)
    (chosen : Config.resolveOutput root config.outputDirectory = .ok output)
    (described : Config.resolveDescriptors s root config.descriptors = .ok descriptors)
    (done : (generate s t (projectRequest root)).result = .ok p) :
    HoldsFiles config root output descriptors p t
      (generate s t (projectRequest root)).tree := by
  obtain ⟨made, carried, tree⟩ := carried_of_generate done
  obtain ⟨config', output', descriptors', bytes, configured, placed, found, read, rfl⟩ :=
    Plan.make_eq_ok_iff.1 made
  obtain rfl : config = config' := Except.ok.inj (loaded.symm.trans configured)
  obtain rfl : output = output' := Except.ok.inj (chosen.symm.trans placed)
  obtain rfl : descriptors = descriptors' := Except.ok.inj (described.symm.trans found)
  have planProper : (Plan.ofBatch config output descriptors (.ofBytes bytes)).IsProper :=
    Plan.isProper_ofBatch proper loaded chosen _
  rw [tree]
  exact Plan.Effect.holdsFiles proper loaded chosen
    (Config.isProper_of_resolveDescriptors proper described) read
    (Plan.effect_of_carryOut planProper carried) ((Plan.carryOut_eq_ok_iff planProper).1 carried)

end Project

/-- The files of a pass that follows the configuration of a project differ exactly when the source
has a name of its own, and the configuration file is one of them exactly when the source takes its
place.  A pass that is completed leaves the manifest and the summary, leaves the source where the
files differ, and keeps each input that is not one of the files. -/
theorem ownFiles_of_generate {s : Surroundings} {t : FileTree} {root output descriptors : Place}
    {config : Config} (proper : root.IsProper) (loaded : Config.load t root = .ok config)
    (chosen : Config.resolveOutput root config.outputDirectory = .ok output)
    (described : Config.resolveDescriptors s root config.descriptors = .ok descriptors) :
    ((config.artifactPlaces output).Nodup ↔
      config.sourceName ≠ Artifact.manifestName ∧ config.sourceName ≠ Artifact.summaryName) ∧
    (root ++ [Config.fileName] ∈ config.artifactPlaces output ↔
      output = root ∧ config.sourceName = Config.fileName) ∧
    ∀ p, (generate s t (projectRequest root)).result = .ok p →
      HoldsFiles config root output descriptors p t (generate s t (projectRequest root)).tree :=
  ⟨Config.nodup_artifactPlaces_iff, Config.file_mem_artifactPlaces_iff,
    fun _ done => holdsFiles_of_generate proper loaded chosen described done⟩

/-! ## Two projects -/

theorem generate_projectRequest {s : Surroundings} {t : FileTree} {root output descriptors : Place}
    {config : Config} {bytes : List UInt8} (proper : root.IsProper)
    (loaded : Config.load t root = .ok config)
    (chosen : Config.resolveOutput root config.outputDirectory = .ok output)
    (described : Config.resolveDescriptors s root config.descriptors = .ok descriptors)
    (read : t.read descriptors = .ok bytes)
    (writable : (Plan.ofBatch config output descriptors (.ofBytes bytes)).IsWritable t) :
    (generate s t (projectRequest root)).result =
      .ok (Plan.ofBatch config output descriptors (.ofBytes bytes)) := by
  have planProper : (Plan.ofBatch config output descriptors (.ofBytes bytes)).IsProper :=
    Plan.isProper_ofBatch proper loaded chosen _
  exact generate_eq_ok_iff.2
    ⟨Plan.make_eq_ok_iff.2
        ⟨config, output, descriptors, bytes, loaded, chosen, described, read, rfl⟩,
      (Plan.carryOut_eq_ok_iff planProper).2 writable⟩

/-- A project that sets nothing, with its descriptors where they are looked for. -/
def usualProject (lines : List UInt8) : FileTree :=
  ⟨[(["p"], .directory), (["p", "callsites.jsonl"], .file lines)], by simp⟩

/-- The usual configuration keeps all files apart. -/
theorem ownFiles_of_usualProject :
    let s : Surroundings := ⟨[], fun _ => none, ["tmp"]⟩
    let t := usualProject (Text.utf8 "?\n")
    let outcome := generate s t (projectRequest ["p"])
    Place.IsProper ["p"] ∧ Config.load t ["p"] = .ok .usual ∧
      Config.resolveOutput ["p"] Config.usual.outputDirectory = .ok ["p", ".praefixum"] ∧
      Config.resolveDescriptors s ["p"] Config.usual.descriptors = .ok ["p", "callsites.jsonl"] ∧
      ∃ p, outcome.result = .ok p ∧
        HoldsFiles .usual ["p"] ["p", ".praefixum"] ["p", "callsites.jsonl"] p t outcome.tree := by
  intro s t outcome
  have proper : Place.IsProper ["p"] := by decide
  have loaded : Config.load t ["p"] = .ok .usual := rfl
  have chosen := Config.resolveOutput_usual ["p"]
  have described : Config.resolveDescriptors s ["p"] Config.usual.descriptors =
      .ok ["p", "callsites.jsonl"] := rfl
  have formed : t.IsWellFormed := by decide
  have held : t.get? ["p"] = some .directory := rfl
  have done := generate_projectRequest proper loaded chosen described rfl
    (Plan.isWritable_of_new formed rfl held rfl (by decide))
  exact ⟨proper, loaded, chosen, described, _, done,
    (ownFiles_of_generate proper loaded chosen described).2.2 _ done⟩

/-- A project whose output goes beside its inputs, with the source under a name of its choice. -/
def besideInputs (sourceName : String) : FileTree :=
  ⟨[(["p"], .directory),
    (["p", "praefixum.toml"], .file (Text.utf8
      ("output_dir = \".\"\ndescriptors = \"intercepts.jsonl\"\nsource_name = \"" ++ sourceName ++
        "\"\n"))),
    (["p", "intercepts.jsonl"], .file (Text.utf8 "/"))], by simp⟩

/-- What such a project sets. -/
def besideConfig (sourceName : String) : Config :=
  { Config.usual with
    outputDirectory := "."
    descriptors := "intercepts.jsonl"
    sourceName }

/-- A pass of such a project is completed. -/
theorem holdsFiles_of_besideInputs {s : Surroundings} {sourceName : String}
    (loaded : Config.load (besideInputs sourceName) ["p"] = .ok (besideConfig sourceName))
    (fit : FileTree.Fit ["p", sourceName]) :
    let t := besideInputs sourceName
    ∃ p, (generate s t (projectRequest ["p"])).result = .ok p ∧
      HoldsFiles (besideConfig sourceName) ["p"] ["p"] ["p", "intercepts.jsonl"] p t
        (generate s t (projectRequest ["p"])).tree := by
  intro t
  have proper : Place.IsProper ["p"] := by decide
  have chosen : Config.resolveOutput ["p"] "." = .ok ["p"] := by decide
  have described : Config.resolveDescriptors s ["p"] "intercepts.jsonl" =
      .ok ["p", "intercepts.jsonl"] := rfl
  have writable : (Plan.ofBatch (besideConfig sourceName) ["p"] ["p", "intercepts.jsonl"]
      (.ofBytes (Text.utf8 "/"))).IsWritable t := by
    refine Plan.isWritable_of_isOpen ?_ ?_ fit
    · intro above before
      rcases List.prefix_cons_iff.1 before with rfl | ⟨way, rfl, rest⟩
      · rfl
      · rw [List.prefix_nil.1 rest]
        rfl
    · intro name _ held
      have mem := (FileTree.get?_eq_some_iff (List.cons_ne_nil _ _)).1 held
      simp [t, besideInputs] at mem
  have done := generate_projectRequest proper loaded chosen described rfl writable
  exact ⟨_, done, holdsFiles_of_generate proper loaded chosen described done⟩

/-- A project whose source is named like its configuration file loses both inputs, and one whose
source is named like the manifest loses the source. -/
theorem overwrites_of_besideInputs :
    let s : Surroundings := ⟨[], fun _ => none, ["tmp"]⟩
    let t := besideInputs
    let outcome := fun name => generate s (t name) (projectRequest ["p"])
    (∃ p, (outcome "praefixum.toml").result = .ok p) ∧
      (outcome "praefixum.toml").tree.get? ["p", "praefixum.toml"] ≠
        (t "praefixum.toml").get? ["p", "praefixum.toml"] ∧
      (outcome "praefixum.toml").tree.get? ["p", "intercepts.jsonl"] ≠
        (t "praefixum.toml").get? ["p", "intercepts.jsonl"] ∧
      ∃ p, (outcome "intercepts.jsonl").result = .ok p ∧ ¬(p.files.map Prod.fst).Nodup ∧
        (outcome "intercepts.jsonl").tree.read p.sourcePlace ≠ .ok (Text.utf8 p.source) := by
  intro s t outcome
  have loaded : Config.load (t "praefixum.toml") ["p"] = .ok (besideConfig "praefixum.toml") := by
    decide +kernel
  have loaded' : Config.load (t "intercepts.jsonl") ["p"] =
      .ok (besideConfig "intercepts.jsonl") := by
    decide +kernel
  obtain ⟨p, done, holds⟩ := holdsFiles_of_besideInputs (s := s) loaded (by decide)
  obtain ⟨q, done', holds'⟩ := holdsFiles_of_besideInputs (s := s) loaded' (by decide)
  have shared : ¬((besideConfig "intercepts.jsonl").artifactPlaces ["p"]).Nodup := by
    rw [Config.nodup_artifactPlaces_iff]
    exact fun different => different.1 rfl
  refine ⟨⟨p, done⟩, fun same => ?_, fun same => ?_, q, done', ?_, ?_⟩
  · exact holds.configuration.1 same List.mem_cons_self
  · -- The manifest stands where the descriptors were, and it does not start with a slash.
    have places : p.manifestPlace = ["p", "intercepts.jsonl"] :=
      (List.cons.inj (List.cons.inj holds.places).2).1
    obtain ⟨-, held⟩ := FileTree.get?_of_read (by rw [places]; decide) holds.manifest
    rw [places, same] at held
    have mem := (FileTree.get?_eq_some_iff (List.cons_ne_nil _ _)).1 held
    have bytes : Text.utf8 "/" = p.manifestBytes := by simpa [t, besideInputs, eq_comm] using mem
    have head := Json.head?_linesText_ne p.intercepts
    rw [← Text.encodeUtf8_injective bytes] at head
    exact head rfl
  · rw [holds'.places]
    exact shared
  · intro read
    exact shared (holds'.source.1 read)

end CallSiteIds
