import CallSiteIds.Proofs.CommandLine.Verifying
import CallSiteIds.Proofs.Pass.Settings
import CallSiteIds.Proofs.Validation.Files

/-!
# Commands that end with a status

A command ends with a status when all that goes wrong is reported: an error of the configuration,
a descriptor file that cannot be read, a directory that is missing.  For each command this is taken
apart into what must hold of its settings and of the files that it looks up and writes
(`hasStatus_runGenerate_iff`, `hasStatus_runValidate_iff`, `hasStatus_runVerify_iff`).
-/

set_option autoImplicit false

namespace CallSiteIds

open Plan (bind_eq_error)

namespace CommandLine

variable {s : Surroundings} {t : FileTree} {severity : Severity} {root : String}
  {descriptors outputDirectory artifacts : Option String} {place : Place}

/-- A command that ends with a status. -/
def Answer.HasStatus (a : Answer) : Prop :=
  ∃ n, n ≤ 2 ∧ a.ending = .ok n

theorem hasStatus_ended {n : Nat} (le : n ≤ 2) (t : FileTree) (notes : List String) :
    (Answer.ended t notes n).HasStatus :=
  ⟨n, le, rfl⟩

theorem hasStatus_stopped_iff {notes : List String} {e : Problem} :
    (Answer.stopped t notes e).HasStatus ↔ ∃ c, e = .config c := by
  cases e with
  | config c => exact iff_of_true (hasStatus_ended (by decide) _ _) ⟨c, rfl⟩
  | _ =>
    constructor
    · rintro ⟨_, -, ⟨⟩⟩
    · rintro ⟨_, ⟨⟩⟩

/-- A configuration is not loaded for a reason that verification does not report. -/
theorem isReported_of_load {e : Problem} (failed : Config.load t place = .error e) :
    isReported e = false := by
  simp only [Config.load] at failed
  split at failed
  · rename_i kind status
    injection failed with failed
    subst failed
    rw [(FileTree.status_eq_error_iff.1 status).1]
    rfl
  · rename_i bytes _
    by_cases readable : Config.IsReadable bytes
    · obtain ⟨c, rfl⟩ := isSettled_iff.1 (Config.isSettled_ofBytes_iff.2 readable) e failed
      rfl
    · rcases Config.ofBytes_of_not_isReadable readable with ⟨-, same⟩ | ⟨_, _, -, same, -⟩
      all_goals
        rw [same] at failed
        injection failed with failed
        subst failed
        rfl
  · cases failed

theorem isReported_of_resolveOutput {text : String} {e : Problem}
    (failed : Config.resolveOutput place text = .error e) : isReported e = false := by
  unfold Config.resolveOutput at failed
  split at failed
  · cases failed
    rfl
  · split at failed
    · cases failed
      rfl
    · simp only at failed
      split at failed
      · cases failed
        rfl
      · split at failed
        · cases failed
          rfl
        · split at failed <;> cases failed
          rfl

/-- The settings of a pass never fail for a reason that verification reports. -/
theorem isReported_of_settingsOf {r : PassRequest} {e : Problem}
    (failed : Plan.settingsOf s t r = .error e) : isReported e = false := by
  rw [Plan.settingsOf] at failed
  rcases bind_eq_error failed with failed | ⟨config, -, failed⟩
  · rw [Plan.configOf] at failed
    split at failed
    · cases failed
    · exact isReported_of_load failed
  rcases bind_eq_error failed with failed | ⟨output, -, failed⟩
  · rw [Plan.outputOf] at failed
    split at failed
    · cases failed
    · exact isReported_of_resolveOutput failed
  rcases bind_eq_error failed with failed | ⟨file, -, failed⟩
  · rw [Plan.descriptorsOf] at failed
    split at failed
    · cases failed
    · rw [Config.resolveDescriptors] at failed
      split at failed <;> cases failed
      rfl
  · cases failed

/-! ## Generating -/

/-- The answer to a pass has a status unless the pass failed for a reason that is reported
neither as an error of the configuration nor as one of the descriptor file. -/
theorem hasStatus_ofPass_iff {outcome : Outcome Plan} :
    (ofPass severity outcome).HasStatus ↔ ∀ e, outcome.result = .error e →
      (∃ c, e = .config c) ∨ ∃ file kind, e = .descriptors file kind := by
  rw [ofPass]
  cases outcome.result with
  | ok p =>
    refine iff_of_true ?_ (by rintro _ ⟨⟩)
    simp only
    split <;> exact hasStatus_ended (by decide) _ _
  | error e =>
    have same : (∀ e', (Except.error e : Except Problem Plan) = .error e' →
        (∃ c, e' = .config c) ∨ ∃ file kind, e' = .descriptors file kind) ↔
          (∃ c, e = .config c) ∨ ∃ file kind, e = .descriptors file kind :=
      ⟨fun h => h e rfl, by rintro h _ ⟨⟩; exact h⟩
    rw [same]
    cases e with
    | descriptors file kind =>
      exact iff_of_true (hasStatus_ended (by decide) _ _) (.inr ⟨file, kind, rfl⟩)
    | _ => simp [hasStatus_stopped_iff]

/-- Settings that fail do so for an error of the configuration or for one that no command
reports. -/
theorem not_descriptors_of_settingsOf {r : PassRequest} {e : Problem}
    (failed : Plan.settingsOf s t r = .error e) : ¬∃ file kind, e = .descriptors file kind := by
  rintro ⟨file, kind, rfl⟩
  cases isReported_of_settingsOf failed

/-- A pass fails for tolerated problems only, when its settings are settled and its plan does.
Errors of the configuration and of the descriptor file are tolerated, and of the problems with
the settings no others are. -/
theorem result_generate_iff {request : PassRequest} {tolerated : Problem → Prop}
    {writes : Plan → Prop} (config : ∀ c, tolerated (.config c))
    (descriptors : ∀ file kind, tolerated (.descriptors file kind))
    (others : ∀ e, Plan.settingsOf s t request = .error e → tolerated e → ∃ c, e = .config c)
    (carried : ∀ p, Plan.make s t request = .ok p →
      ((∀ e, (generate s t request).result = .error e → tolerated e) ↔ writes p)) :
    (∀ e, (generate s t request).result = .error e → tolerated e) ↔
      IsSettled (Plan.settingsOf s t request) ∧
        ∀ p, Plan.make s t request = .ok p → writes p := by
  have make := Plan.make_eq_settings s t request
  cases settings : Plan.settingsOf s t request with
  | error e =>
    rw [settings] at make
    have result : (generate s t request).result = .error e := by
      rw [generate, make]
      rfl
    rw [result, isSettled_error_iff]
    constructor
    · exact fun h => ⟨others e settings (h e rfl), by rw [make]; rintro _ ⟨⟩⟩
    · rintro ⟨⟨c, rfl⟩, -⟩ _ ⟨⟩
      exact config c
  | ok x =>
    obtain ⟨c, output, file⟩ := x
    rw [settings] at make
    simp only [Except.bind] at make
    cases read : t.read file with
    | error kind =>
      rw [read] at make
      have result : (generate s t request).result = .error (.descriptors file kind) := by
        rw [generate, make]
      rw [result]
      refine iff_of_true ?_ ⟨isSettled_ok _, by rw [make]; rintro _ ⟨⟩⟩
      rintro _ ⟨⟩
      exact descriptors file kind
    | ok bytes =>
      rw [read] at make
      rw [carried _ make, make]
      constructor
      · intro done
        refine ⟨isSettled_ok _, ?_⟩
        rintro _ ⟨⟩
        exact done
      · exact fun h => h.2 _ rfl

/-- A pass from the command line ends with a status exactly when its settings are settled and its
output can be written. -/
theorem hasStatus_runGenerate_iff {request : PassRequest} (working : s.workingDirectory.IsProper)
    (asked : requestOf s root descriptors outputDirectory = .ok request) :
    (runGenerate s t severity root descriptors outputDirectory).HasStatus ↔
      IsSettled (Plan.settingsOf s t request) ∧
        ∀ p, Plan.make s t request = .ok p → p.IsWritable t := by
  rw [runGenerate_eq, asked]
  simp only
  rw [hasStatus_ofPass_iff]
  apply result_generate_iff
  · exact fun c => .inl ⟨c, rfl⟩
  · exact fun file kind => .inr ⟨file, kind, rfl⟩
  · exact fun e failed answered => answered.resolve_right (not_descriptors_of_settingsOf failed)
  · intro p made
    have proper := isProper_of_requestOf working asked made
    rw [← Plan.carryOut_eq_ok_iff proper, generate, made]
    simp only
    cases carried : (p.carryOut t).result with
    | ok u => exact iff_of_true (by rintro _ ⟨⟩) rfl
    | error e =>
      obtain ⟨path, kind, rfl, -⟩ := Plan.error_of_carryOut proper carried
      constructor
      · intro h
        rcases h _ rfl with ⟨_, ⟨⟩⟩ | ⟨_, _, ⟨⟩⟩
      · rintro ⟨⟩

/-! ## Validating -/

/-- Validation fails only for a file that cannot be looked up. -/
theorem file_of_validate {path : Path} {asked : Option String} {e : Problem}
    (failed : validate t path asked = .error e) : ∃ text kind, e = .file text kind := by
  rw [validate] at failed
  split at failed
  · rename_i kind _
    injection failed with failed
    exact ⟨_, kind, failed.symm⟩
  · cases failed
  · cases failed
  · rw [Validation.directoryReport] at failed
    rcases bind_eq_error failed with failed | ⟨summary, -, failed⟩
    · obtain ⟨kind, -, same⟩ := Validation.summaryOf_eq_error_iff.1 failed
      exact ⟨_, kind, same⟩
    rcases bind_eq_error failed with failed | ⟨records, -, failed⟩
    · obtain ⟨kind, -, same⟩ := Validation.manifestOf_eq_error_iff.1 failed
      exact ⟨_, kind, same⟩
    rcases bind_eq_error failed with failed | ⟨source, -, failed⟩
    · obtain ⟨kind, -, same⟩ := Validation.sourceOf_eq_error_iff.1 failed
      exact ⟨_, kind, same⟩
    · cases failed

/-- A validation ends with a status exactly when its directory is settled and its files can be
looked up. -/
theorem hasStatus_runValidate_iff (rooted : locate s root = .ok place) :
    (runValidate s t root artifacts).HasStatus ↔
      IsSettled (locateArtifacts s t place artifacts) ∧
        ∀ directory, locateArtifacts s t place artifacts = .ok directory →
          ∃ report, validate t (.ofPlace directory) none = .ok report := by
  cases chosen : locateArtifacts s t place artifacts with
  | error e =>
    have run : runValidate s t root artifacts = .stopped t [] e := by
      simp only [runValidate, rooted, chosen, bind, Except.bind]
    rw [run, hasStatus_stopped_iff, isSettled_error_iff]
    exact ⟨fun config => ⟨config, by rintro _ ⟨⟩⟩, fun h => h.1⟩
  | ok directory =>
    cases validated : validate t (.ofPlace directory) none with
    | ok report =>
      have run : runValidate s t root artifacts = ofReport t report := by
        simp only [runValidate, rooted, chosen, validated, bind, Except.bind]
      rw [run]
      refine iff_of_true ?_ ⟨isSettled_ok _, ?_⟩
      · simp only [ofReport]
        split <;> exact hasStatus_ended (by decide) _ _
      · rintro _ ⟨⟩
        exact ⟨report, validated⟩
    | error e =>
      have run : runValidate s t root artifacts = .stopped t [] e := by
        simp only [runValidate, rooted, chosen, validated, bind, Except.bind]
      obtain ⟨text, kind, rfl⟩ := file_of_validate validated
      rw [run, hasStatus_stopped_iff]
      constructor
      · rintro ⟨_, ⟨⟩⟩
      · rintro ⟨-, h⟩
        obtain ⟨report, found⟩ := h directory rfl
        rw [validated] at found
        cases found

/-! ## Verifying -/

/-- The answer to a verification has a status unless it ended early with a problem that is neither
reported with the directory nor an error of the configuration. -/
theorem hasStatus_ofVerification_iff {directory : Place}
    {verified : List LogLine × Except VerificationError Comparison} :
    (ofVerification t severity directory verified).HasStatus ↔
      ∀ q, verified.2 = .error (.problem q) → isReported q = true ∨ ∃ c, q = .config c := by
  simp only [ofVerification]
  cases verified.2 with
  | ok c =>
    refine iff_of_true ?_ (by rintro _ ⟨⟩)
    simp only
    split <;> exact hasStatus_ended (by decide) _ _
  | error e =>
    cases e with
    | directoryMissing path | directoryIsFile path =>
      exact iff_of_true (hasStatus_ended (by decide) _ _) (by rintro _ ⟨⟩)
    | problem q =>
      simp only
      by_cases reported : isReported q = true
      · rw [if_pos reported]
        refine iff_of_true (hasStatus_ended (by decide) _ _) ?_
        rintro _ ⟨⟩
        exact .inl reported
      · rw [if_neg reported, hasStatus_stopped_iff]
        constructor
        · rintro config _ ⟨⟩
          exact .inr config
        · exact fun h => (h q rfl).resolve_left reported

section

variable {request : PassRequest}

/-- The plan of a verification is carried out in the temporary directory when the name of the
source fits, and what stops it is not reported otherwise. -/
theorem result_generate_into_iff {p : Plan} (formed : t.IsWellFormed)
    (offers : s.OffersTemporary t) (proper : p.IsProper) (output : p.outputDirectory = s.temporary)
    (made : Plan.make s t request = .ok p) :
    (∀ e, (generate s t request).result = .error e → isReported e = true ∨ ∃ c, e = .config c) ↔
      FileTree.Fit [p.summary.sourceName] := by
  rw [generate, made]
  simp only
  constructor
  · intro h
    cases carried : (p.carryOut t).result with
    | ok u =>
      exact (FileTree.fit_append.1 ((Plan.carryOut_eq_ok_iff proper).1 carried).fit).2
    | error e =>
      obtain ⟨path, kind, rfl, other⟩ := Plan.error_of_carryOut proper carried
      obtain ⟨notFound, notADirectory⟩ := other (output ▸ offers.exists_makeDirectory formed)
      rw [carried] at h
      rcases h _ rfl with reported | ⟨_, ⟨⟩⟩
      cases kind <;> contradiction
  · intro fit
    have writable := offers.isWritable formed output fit
    rw [(Plan.carryOut_eq_ok_iff proper).2 writable]
    rintro _ ⟨⟩

/-- The pass of a verification fails for what has a status only, when its settings are settled and
the name of the source fits. -/
theorem result_into_iff (formed : t.IsWellFormed) (offers : s.OffersTemporary t)
    (accepted : ∀ c ∈ request.config, c.IsAccepted) :
    (∀ e, (generate s t (request.into s.temporary)).result = .error e →
      isReported e = true ∨ ∃ c, e = .config c) ↔
        IsSettled (Plan.settingsOf s t (request.into s.temporary)) ∧
          ∀ p, Plan.make s t (request.into s.temporary) = .ok p →
            FileTree.Fit [p.summary.sourceName] := by
  apply result_generate_iff
  · exact fun c => .inr ⟨c, rfl⟩
  · exact fun _ _ => .inl rfl
  · intro e failed answered
    refine answered.resolve_left ?_
    rw [isReported_of_settingsOf failed]
    decide
  · intro p made
    exact result_generate_into_iff formed offers
      (Plan.isProper_of_make_into offers.proper accepted made)
      (Plan.outputDirectory_of_make made) made

/-- A directory that is there before the pass of a verification is there after it. -/
theorem exists_reach_of_generate {p : Plan} {parts : List String} {entry : Entry}
    (accepted : ∀ c ∈ request.config, c.IsAccepted) (temporary : s.temporary.IsProper)
    (held : t.status parts = .ok (some entry))
    (done : (generate s t (request.into s.temporary)).result = .ok p) :
    ∃ place, (generate s t (request.into s.temporary)).tree.reach parts = .ok place := by
  obtain ⟨place, reached, -⟩ := FileTree.status_eq_some_iff.1 held
  obtain ⟨made, carried, tree⟩ := carried_of_generate done
  have proper := Plan.isProper_of_make_into temporary accepted made
  have writable := (Plan.carryOut_eq_ok_iff proper).1 carried
  rw [tree]
  exact ⟨place, (Plan.effect_of_carryOut proper carried).reach writable reached⟩

/-- A verification of a directory that is there ends early with the problems of its pass. -/
theorem problem_of_verify_iff {directory : Place} {q : Problem} (formed : t.IsWellFormed)
    (offers : s.OffersTemporary t) (accepted : ∀ c ∈ request.config, c.IsAccepted)
    (held : t.status directory = .ok (some .directory)) :
    (verify s t (.ofPlace directory) request).2 = .error (.problem q) ↔
      (generate s t (request.into s.temporary)).result = .error q := by
  have parts : (Path.ofPlace directory).parts = directory := rfl
  cases result : (generate s t (request.into s.temporary)).result with
  | error e =>
    rw [verify_of_error (.ofPlace directory) formed offers.fresh (parts ▸ held) result]
    simp
  | ok p =>
    obtain ⟨place, reached⟩ := exists_reach_of_generate accepted offers.proper held result
    rw [PassRequest.into] at result reached
    rw [verify, formed.erase_eq_self offers.fresh, parts, held]
    simp [result, reached]

/-- A verification of a directory ends with a status exactly when the directory can be looked up
and, if it is there, the settings of the pass are settled and the name of the source fits. -/
theorem hasStatus_verify_iff {directory : Place} (formed : t.IsWellFormed)
    (offers : s.OffersTemporary t) (bare : request.config = none) :
    (ofVerification t severity directory (verify s t (.ofPlace directory) request)).HasStatus ↔
      ∃ held, t.status directory = .ok held ∧
        (held = some .directory →
          IsSettled (Plan.settingsOf s t (request.into s.temporary)) ∧
            ∀ p, Plan.make s t (request.into s.temporary) = .ok p →
              FileTree.Fit [p.summary.sourceName]) := by
  have accepted : ∀ c ∈ request.config, c.IsAccepted := by simp [bare]
  rw [hasStatus_ofVerification_iff]
  have parts : (Path.ofPlace directory).parts = directory := rfl
  cases held : t.status directory with
  | error kind =>
    rw [(FileTree.status_eq_error_iff.1 held).1] at held
    rw [verify, parts, held]
    constructor
    · intro h
      rcases h _ rfl with reported | ⟨_, ⟨⟩⟩
      cases reported
    · rintro ⟨_, ⟨⟩, -⟩
  | ok entry =>
    by_cases there : entry = some .directory
    · subst there
      simp only [problem_of_verify_iff formed offers accepted held]
      rw [result_into_iff formed offers accepted]
      exact ⟨fun h => ⟨_, rfl, fun _ => h⟩, by rintro ⟨_, ⟨⟩, h⟩; exact h rfl⟩
    · -- A directory that is missing or a file is reported.
      refine iff_of_true ?_ ⟨entry, rfl, fun same => absurd same there⟩
      rw [verify, parts, held]
      cases entry with
      | none => rintro _ ⟨⟩
      | some entry =>
        cases entry with
        | file bytes => rintro _ ⟨⟩
        | directory => exact absurd rfl there

end

/-- A verification from the command line ends with a status exactly when its directory is settled
and the verification of this directory does. -/
theorem hasStatus_runVerify_iff {file : Option Place} (formed : t.IsWellFormed)
    (offers : s.OffersTemporary t) (rooted : locate s root = .ok place)
    (described : locateOption s descriptors = .ok file) :
    (runVerify s t severity root descriptors artifacts).HasStatus ↔
      IsSettled (locateArtifacts s t place artifacts) ∧
        ∀ directory, locateArtifacts s t place artifacts = .ok directory →
          ∃ held, t.status directory = .ok held ∧
            (held = some .directory →
              IsSettled (Plan.settingsOf s t ⟨place, some s.temporary, file, none⟩) ∧
                ∀ p, Plan.make s t ⟨place, some s.temporary, file, none⟩ = .ok p →
                  FileTree.Fit [p.summary.sourceName]) := by
  cases chosen : locateArtifacts s t place artifacts with
  | error e =>
    have run : runVerify s t severity root descriptors artifacts = .stopped t [] e := by
      simp only [runVerify, rooted, chosen, bind, Except.bind]
    rw [run, hasStatus_stopped_iff, isSettled_error_iff]
    exact ⟨fun config => ⟨config, by rintro _ ⟨⟩⟩, fun h => h.1⟩
  | ok directory =>
    rw [runVerify_eq severity rooted chosen described, hasStatus_verify_iff formed offers rfl]
    constructor
    · intro h
      refine ⟨isSettled_ok _, ?_⟩
      rintro _ ⟨⟩
      exact h
    · exact fun h => h.2 directory rfl

end CommandLine

end CallSiteIds
