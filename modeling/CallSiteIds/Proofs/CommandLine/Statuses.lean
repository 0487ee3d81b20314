import CallSiteIds.Proofs.CommandLine.Endings

/-!
# What the configuration file does to the statuses

What the configuration file holds can end a command without a status, and it is said here exactly
when it does: when the file is not readable, when the place of the output or of the descriptors
cannot be resolved, and when the output cannot be written (`statuses_of_configuration`).
-/

set_option autoImplicit false

namespace CallSiteIds

namespace CommandLine

variable {s : Surroundings} {t : FileTree} {root : String}
  {descriptors outputDirectory artifacts : Option String} {place : Place}

/-! ## What the commands use of a configuration file -/

/-- The directory of an earlier pass can be located, and something holds of it.  It is the one that
is named, or the one of the configuration: then the configuration file is readable, and its text
for the directory can be resolved or is rejected. -/
def HasUsableDirectory (s : Surroundings) (t : FileTree) (place : Place) (entry : Option Entry)
    (holds : Place → Prop) : Option String → Prop
  | some text => ∃ directory, locate s text = .ok directory ∧ holds directory
  | none =>
    (∀ bytes, entry = some (.file bytes) → Config.IsReadable bytes) ∧
      (∀ c, Config.load t place = .ok c → Config.IsOutputText c.outputDirectory) ∧
      ∀ c directory, Config.load t place = .ok c →
        Config.resolveOutput place c.outputDirectory = .ok directory → holds directory

theorem hasUsableDirectory_iff {entry : Option Entry} {holds : Place → Prop}
    (found : t.status (place ++ [Config.fileName]) = .ok entry) :
    HasUsableDirectory s t place entry holds artifacts ↔
      IsSettled (locateArtifacts s t place artifacts) ∧
        ∀ directory, locateArtifacts s t place artifacts = .ok directory → holds directory := by
  cases artifacts with
  | some text =>
    simp only [HasUsableDirectory, locateArtifacts, locate]
    cases (Path.ofString text).locate s with
    | ok directory =>
      constructor
      · rintro ⟨_, ⟨⟩, held⟩
        refine ⟨isSettled_ok _, ?_⟩
        rintro _ ⟨⟩
        exact held
      · exact fun h => ⟨directory, rfl, h.2 directory rfl⟩
    | error e =>
      constructor
      · rintro ⟨_, ⟨⟩, -⟩
      · rintro ⟨⟨_, ⟨⟩⟩ | ⟨_, ⟨⟩⟩, -⟩
  | none =>
    have bound : locateArtifacts s t place none = (Config.load t place).bind fun config =>
        Config.resolveOutput place config.outputDirectory := rfl
    rw [HasUsableDirectory, bound, isSettled_bind_iff, Config.isSettled_load_iff found, and_assoc]
    simp only [Config.isSettled_resolveOutput_iff]
    refine and_congr_right fun _ => and_congr_right fun _ => ?_
    constructor
    · intro h directory located
      obtain ⟨c, loaded, resolved⟩ := Plan.bind_eq_ok located
      exact h c directory loaded resolved
    · intro h c directory loaded resolved
      refine h directory ?_
      rw [loaded]
      exact resolved

/-- What must hold of the configuration file of a project, and of the settings in it that a pass
uses, so that the settings of the pass are settled. -/
structure HasUsableSettings (s : Surroundings) (t : FileTree) (r : PassRequest)
    (entry : Option Entry) : Prop where
  readable : ∀ bytes, entry = some (.file bytes) → Config.IsReadable bytes
  output : ∀ c, Config.load t r.root = .ok c → r.outputDirectory = none →
    Config.IsOutputText c.outputDirectory
  descriptors : ∀ c output, Config.load t r.root = .ok c → Plan.outputOf r c = .ok output →
    r.descriptors = none → Config.IsInputText s c.descriptors

theorem isSettled_settingsOf_iff_usable {r : PassRequest} {entry : Option Entry}
    (bare : r.config = none) (found : t.status (r.root ++ [Config.fileName]) = .ok entry) :
    IsSettled (Plan.settingsOf s t r) ↔ HasUsableSettings s t r entry := by
  rw [Plan.isSettled_settingsOf_iff bare, Config.isSettled_load_iff found]
  constructor
  · rintro ⟨readable, settings⟩
    exact ⟨readable, fun c loaded => (settings c loaded).1,
      fun c output loaded chosen => (settings c loaded).2 ⟨output, chosen⟩⟩
  · rintro ⟨readable, output, descriptors⟩
    exact ⟨readable, fun c loaded =>
      ⟨output c loaded, fun ⟨place, chosen⟩ => descriptors c place loaded chosen⟩⟩

/-! ## The statuses -/

/-- What is known of the loading of a configuration from the bytes of its file. -/
structure LoadsOrEscapes (file : Place) (bytes : List UInt8) : Prop where
  valid : ∀ c, Config.ofBytes file bytes = .ok c → c.IsValid
  settled : IsSettled (Config.ofBytes file bytes) ↔ Config.IsReadable bytes
  readable : ∀ cs, Text.decodeUtf8? bytes = some cs → Toml.digitCount cs ≤ Decimal.digitLimit →
    Config.IsReadable bytes
  /-- Bytes that are not readable are no text, or hold an integer with too many digits. -/
  escapes : ¬Config.IsReadable bytes →
    Text.decodeUtf8? bytes = none ∧ Config.ofBytes file bytes = .error .undecodable ∨
      ∃ cs digits, Text.decodeUtf8? bytes = some cs ∧
        Config.ofBytes file bytes = .error (.longInteger digits) ∧
        Decimal.digitLimit < digits ∧ digits ≤ Toml.digitCount cs

/-- When the commands of a project end with a status, by what its configuration file is. -/
structure CommandsEnd (s : Surroundings) (t : FileTree) (root : String) (place : Place)
    (entry : Option Entry) : Prop where
  /-- A pass ends with a status when its settings are usable and its output can be written. -/
  generate : ∀ severity descriptors outputDirectory request,
    requestOf s root descriptors outputDirectory = .ok request →
      ((runGenerate s t severity root descriptors outputDirectory).HasStatus ↔
        HasUsableSettings s t request entry ∧
          ∀ p, Plan.make s t request = .ok p → p.IsWritable t)
  /-- A validation uses the output directory alone, and looks up the files in it. -/
  validate : ∀ artifacts, (runValidate s t root artifacts).HasStatus ↔
    HasUsableDirectory s t place entry
      (fun directory => ∃ report, validate t (.ofPlace directory) none = .ok report) artifacts
  /-- A verification uses the output directory too, and if this is there, it writes the output
  elsewhere under the name of the source. -/
  verify : ∀ severity descriptors artifacts file, locateOption s descriptors = .ok file →
    ((runVerify s t severity root descriptors artifacts).HasStatus ↔
      HasUsableDirectory s t place entry
        (fun directory => ∃ held, t.status directory = .ok held ∧ (held = some .directory →
          HasUsableSettings s t ⟨place, some s.temporary, file, none⟩ entry ∧
            ∀ p, Plan.make s t ⟨place, some s.temporary, file, none⟩ = .ok p →
              FileTree.Fit [p.summary.sourceName])) artifacts)

/-- A configuration file is loaded or its error is reported exactly when it is readable, the two
paths in it are resolved under conditions on their texts, and a problem with the path of the
descriptors is never reported as one of the configuration.  So the commands of a project end with
a status exactly when what they use of the configuration file meets these conditions, the files of
the output can be looked up, and the output can be written. -/
theorem statuses_of_configuration {entry : Option Entry} (working : s.workingDirectory.IsProper)
    (formed : t.IsWellFormed) (offers : s.OffersTemporary t)
    (rooted : locate s root = .ok place)
    (found : t.status (place ++ [Config.fileName]) = .ok entry) :
    (∀ file bytes, LoadsOrEscapes file bytes) ∧
      (∀ root text, IsSettled (Config.resolveOutput root text) ↔ Config.IsOutputText text) ∧
      (∀ root text, (IsSettled (Config.resolveDescriptors s root text) ↔
          Config.IsInputText s text) ∧
        ∀ e, Config.resolveDescriptors s root text ≠ .error (.config e)) ∧
      CommandsEnd s t root place entry := by
  refine ⟨?_, fun _ _ => Config.isSettled_resolveOutput_iff, ?_, ?_⟩
  · intro file bytes
    exact {
      valid := fun c loaded => Config.isValid_of_isAccepted (Config.isAccepted_of_ofBytes loaded)
      settled := Config.isSettled_ofBytes_iff
      readable := fun cs => Config.isReadable_of_digitCount_le
      escapes := Config.ofBytes_of_not_isReadable }
  · intro root text
    refine ⟨Config.isSettled_resolveDescriptors_iff, ?_⟩
    intro e failed
    rw [Config.resolveDescriptors] at failed
    split at failed <;> cases failed
  · refine ⟨?_, ?_, ?_⟩
    · intro severity descriptors outputDirectory request asked
      obtain ⟨_, output, file, again, -, -, rfl⟩ := requestOf_eq_ok_iff.1 asked
      obtain rfl := Except.ok.inj (rooted.symm.trans again)
      rw [hasStatus_runGenerate_iff working asked, isSettled_settingsOf_iff_usable rfl found]
    · intro artifacts
      rw [hasStatus_runValidate_iff rooted, hasUsableDirectory_iff found]
    · intro severity descriptors artifacts file described
      rw [hasStatus_runVerify_iff formed offers rooted described, hasUsableDirectory_iff found,
        isSettled_settingsOf_iff_usable rfl found]

/-- A project whose configuration cannot be loaded ends every command that loads it with the same
problem. -/
theorem ending_of_load_error {severity : Severity} {e : Problem} {request : PassRequest}
    (asked : requestOf s root descriptors outputDirectory = .ok request)
    (failed : Config.load t request.root = .error e) (other : ∀ c, e ≠ .config c) :
    (runGenerate s t severity root descriptors outputDirectory).ending = .error e ∧
      (runValidate s t root none).ending = .error e ∧
      (runVerify s t severity root descriptors none).ending = .error e := by
  obtain ⟨place, output, file, rooted, -, -, rfl⟩ := requestOf_eq_ok_iff.1 asked
  have unreported := isReported_of_load failed
  have stopped (t : FileTree) (notes : List String) :
      (Answer.stopped t notes e).ending = .error e := by
    cases e with
    | config c => exact absurd rfl (other c)
    | _ => rfl
  refine ⟨?_, ?_, ?_⟩
  · have made : Plan.make s t ⟨place, output, file, none⟩ = .error e :=
      make_of_load_error rfl failed
    have result : (generate s t ⟨place, output, file, none⟩).result = .error e := by
      rw [generate, made]
    rw [runGenerate_eq, asked]
    simp only [ofPass, result]
    cases e with
    | descriptors file kind => cases unreported
    | _ => exact stopped _ _
  · simp only [runValidate, rooted, locateArtifacts, failed, bind, Except.bind]
    exact stopped t []
  · simp only [runVerify, rooted, locateArtifacts, failed, bind, Except.bind]
    exact stopped t []

/-! ## Projects that consist of a configuration file -/

/-- A tree that holds a configuration file only. -/
def configured (bytes : List UInt8) : FileTree :=
  FileTree.empty.put [Config.fileName] (.file bytes)

/-- Where the commands are run in such a tree: no home directory is known. -/
def homeless : Surroundings :=
  ⟨[], fun _ => none, ["tmp"]⟩

/-- All commands end with a status in a project that sets its output directory. -/
theorem statuses_of_output_directory :
    let s := homeless
    let bytes := Text.utf8 "output_dir = \"out\"\n"
    let t := configured bytes
    s.workingDirectory.IsProper ∧ t.IsWellFormed ∧ s.OffersTemporary t ∧
      locate s "/" = .ok [] ∧ t.status ([] ++ [Config.fileName]) = .ok (some (.file bytes)) ∧
      (runGenerate s t .warning "/" none none).HasStatus ∧
      (runValidate s t "/" none).HasStatus ∧
      (runVerify s t .warning "/" none none).HasStatus := by
  intro s bytes t
  have working : s.workingDirectory.IsProper := by decide
  have formed : t.IsWellFormed := by decide +kernel
  have offers : s.OffersTemporary t := ⟨by decide, by decide, by decide +kernel, by decide +kernel⟩
  have rooted : locate s "/" = .ok [] := by decide
  have found : t.status ([] ++ [Config.fileName]) = .ok (some (.file bytes)) := by decide +kernel
  obtain ⟨loading, -, -, commands⟩ := statuses_of_configuration working formed offers rooted found
  have loaded : Config.load t [] = .ok { Config.usual with outputDirectory := "out" } := by
    decide +kernel
  have readable : ∀ b, some (Entry.file bytes) = some (.file b) → Config.IsReadable b := by
    rintro _ ⟨⟩
    exact (loading [] bytes).readable _ (Text.decodeUtf8?_encodeUtf8 _) (by decide)
  have settled : ∀ c, Config.load t [] = .ok c → Config.IsOutputText c.outputDirectory := by
    intro c same
    rw [loaded] at same
    cases same
    exact .inl (by decide)
  have input : Config.IsInputText s Config.usual.descriptors :=
    ⟨by decide, by rintro _ ⟨⟩⟩
  have vacant : ∀ c directory, Config.load t [] = .ok c →
      Config.resolveOutput [] c.outputDirectory = .ok directory →
        t.status directory = .ok none := by
    intro c directory same resolved
    rw [loaded] at same
    cases same
    have output : Config.resolveOutput [] "out" = .ok ["out"] := by decide
    obtain rfl := Except.ok.inj (output.symm.trans resolved)
    decide +kernel
  -- The descriptor file is missing, so nothing is written.
  have missing : ∀ p, Plan.make s t ⟨[], none, none, none⟩ ≠ .ok p := by
    have settings : Plan.settingsOf s t ⟨[], none, none, none⟩ =
        .ok ({ Config.usual with outputDirectory := "out" }, ["out"], ["callsites.jsonl"]) := by
      decide +kernel
    have read : t.read ["callsites.jsonl"] = .error .notFound := by decide +kernel
    rw [Plan.make_eq_settings, settings]
    simp only [Except.bind, read]
    rintro _ ⟨⟩
  refine ⟨working, formed, offers, rooted, found, ?_, ?_, ?_⟩
  · refine (commands.generate .warning none none ⟨[], none, none, none⟩ rfl).2 ⟨?_, ?_⟩
    · refine ⟨readable, fun c same _ => settled c same, ?_⟩
      intro c _ same _ _
      rw [loaded] at same
      cases same
      exact input
    · exact fun p made => absurd made (missing p)
  · exact (commands.validate none).2 ⟨readable, settled, fun c directory same resolved =>
      ⟨⟨[⟨.directory, _, none, .directoryMissing⟩], []⟩, by
        rw [validate, show (Path.ofPlace directory).parts = directory from rfl,
          vacant c directory same resolved]⟩⟩
  · refine (commands.verify .warning none none none rfl).2 ⟨readable, settled, ?_⟩
    exact fun c directory same resolved =>
      ⟨none, vacant c directory same resolved, by rintro ⟨⟩⟩

theorem load_configured_ones {n : Nat} (long : Decimal.digitLimit < n) :
    Config.load (configured (Text.encodeUtf8 (Toml.onesText n))) [] =
      .error (.longInteger n) := by
  have loaded (bytes : List UInt8) :
      Config.load (configured bytes) [] = Config.ofBytes [Config.fileName] bytes := rfl
  simp only [loaded, Config.ofBytes, Text.decodeUtf8?_encodeUtf8, Toml.read_onesText long]

/-- What a configuration file holds can end the commands without a status: bytes that are no text,
an integer that is too long, a null character in the text for the output, and a home directory
that is not known. -/
theorem endings_without_status :
    let s := homeless
    let generated (bytes : List UInt8) :=
      (runGenerate s (configured bytes) .warning "/" none none).ending
    let validated (bytes : List UInt8) := (runValidate s (configured bytes) "/" none).ending
    let verified (bytes : List UInt8) :=
      (runVerify s (configured bytes) .warning "/" none none).ending
    let long := Text.encodeUtf8 (Toml.onesText 4301)
    let null := Text.utf8 "output_dir = \"\\u0000\"\n"
    let home := Text.utf8 "descriptors = \"~who/x\"\n"
    (generated [0xff] = .error .undecodable ∧ validated [0xff] = .error .undecodable ∧
        verified [0xff] = .error .undecodable) ∧
      (generated long = .error (.longInteger 4301) ∧ validated long = .error (.longInteger 4301) ∧
        verified long = .error (.longInteger 4301)) ∧
      (generated null = .error (.path .nullCharacter) ∧
        validated null = .error (.path .nullCharacter) ∧
        verified null = .error (.path .nullCharacter)) ∧
      generated home = .error (.path .unknownHome) := by
  intro s generated validated verified long null home
  have tooLong : Config.load (configured long) [] = .error (.longInteger 4301) :=
    load_configured_ones (by decide)
  refine ⟨by decide +kernel, ending_of_load_error rfl tooLong ?_, by decide +kernel,
    by decide +kernel⟩
  rintro _ ⟨⟩

end CommandLine

end CallSiteIds
