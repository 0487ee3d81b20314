import CallSiteIds.Proofs.CommandLine.Generating
import CallSiteIds.Proofs.Verification.Reproduction

/-!
# Verifying from the command line

What a pass wrote into a directory that was empty or not there is verified with the status zero,
and a second pass changes nothing (`verify_of_generate`).  The one exception is a project whose
place has a name that does not fit into a directory: as long as that directory is missing, there is
no configuration file, but when the pass itself has made it, looking the file up is an error
(`verify_of_long_name`).
-/

set_option autoImplicit false

namespace CallSiteIds

/-- The temporary directory of the surroundings can be made in a tree: its name is free in a
directory, and all names fit. -/
structure Surroundings.OffersTemporary (s : Surroundings) (t : FileTree) : Prop where
  proper : s.temporary.IsProper
  fit : FileTree.Fit s.temporary
  fresh : t.get? s.temporary = none
  parent : t.get? s.temporary.dropLast = some .directory

variable {s : Surroundings} {t t' : FileTree} {r : PassRequest} {p : Plan}

namespace Surroundings.OffersTemporary

theorem exists_name (offers : s.OffersTemporary t) :
    ∃ name, s.temporary = s.temporary.dropLast ++ [name] := by
  have lower : s.temporary ≠ [] := by
    intro top
    have fresh := offers.fresh
    rw [top, FileTree.get?_nil] at fresh
    cases fresh
  exact ⟨_, (List.dropLast_concat_getLast lower).symm⟩

/-- The temporary directory can be made. -/
theorem exists_makeDirectory (offers : s.OffersTemporary t) (formed : t.IsWellFormed) :
    ∃ t₀, t.makeDirectory s.temporary = .ok t₀ := by
  obtain ⟨name, new⟩ := offers.exists_name
  refine FileTree.exists_makeDirectory_iff.2 ⟨fun n mem => (offers.fit n mem).2, ?_⟩
  intro above before bytes file
  rw [new] at before
  rcases List.prefix_concat_iff.1 before with here | before
  · rw [here, ← new, offers.fresh] at file
    cases file
  · rw [formed.isOpen_iff.2 offers.parent above before] at file
    cases file

theorem isWritable (offers : s.OffersTemporary t)
    (formed : t.IsWellFormed) (output : p.outputDirectory = s.temporary)
    (fit : FileTree.Fit [p.summary.sourceName]) : p.IsWritable t := by
  obtain ⟨name, new⟩ := offers.exists_name
  refine Plan.isWritable_of_new formed (output.trans new) offers.parent ?_ ?_
  · rw [output, offers.fresh]
  · exact FileTree.fit_append.2 ⟨output ▸ offers.fit, fit⟩

end Surroundings.OffersTemporary

/-- A pass without a configuration fails like the loading of one. -/
theorem make_of_load_error {e : Problem} (bare : r.config = none)
    (failed : Config.load t r.root = .error e) : Plan.make s t r = .error e := by
  rw [Plan.make_eq_bind, Plan.configOf, bare, failed]
  rfl

/-- A verification whose pass fails ends with the same problem. -/
theorem verify_of_error (directory : Path) {e : Problem} (formed : t.IsWellFormed)
    (fresh : t.get? s.temporary = none)
    (held : t.status directory.parts = .ok (some .directory))
    (failed : (generate s t (r.into s.temporary)).result = .error e) :
    (verify s t directory r).2 = .error (.problem e) := by
  rw [PassRequest.into] at failed
  rw [verify, held]
  simp only
  rw [formed.erase_eq_self fresh, failed]

namespace Plan

/-- A directory that a plan has written into is found. -/
theorem Effect.status_output (effect : p.Effect t t') (writable : p.IsWritable t)
    (proper : p.IsProper) : t'.status p.outputDirectory = .ok (some .directory) := by
  have held := effect.isOpen _ (List.prefix_refl _)
  have reached : t'.reach p.outputDirectory = .ok p.outputDirectory :=
    (FileTree.reach_proper_iff proper.directory).2
      ⟨rfl, (FileTree.fit_append.1 writable.fit).1,
        fun above before _ => effect.isOpen above before⟩
  rw [FileTree.status, reached]
  exact congrArg Except.ok held

end Plan

namespace CommandLine

variable {root : String} {descriptors outputDirectory artifacts : Option String}
variable {request : PassRequest}

theorem runVerify_eq (severity : Severity) {place directory : Place} {file : Option Place}
    (located : locate s root = .ok place)
    (chosen : locateArtifacts s t place artifacts = .ok directory)
    (described : locateOption s descriptors = .ok file) :
    runVerify s t severity root descriptors artifacts =
      ofVerification t severity directory
        (verify s t (.ofPlace directory) ⟨place, none, file, none⟩) := by
  simp only [runVerify, located, chosen, described, bind, Except.bind, pure, Except.pure]

/-- A pass that ends with the status zero or one is completed. -/
theorem exists_generate_of_ending {severity : Severity}
    (completed : (runGenerate s t severity root descriptors outputDirectory).ending = .ok 0 ∨
      (runGenerate s t severity root descriptors outputDirectory).ending = .ok 1) :
    ∃ request p, requestOf s root descriptors outputDirectory = .ok request ∧
      (generate s t request).result = .ok p ∧
      (runGenerate s t severity root descriptors outputDirectory).tree =
        (generate s t request).tree := by
  have other {answer : Answer} (kept : Keeps answer.tree answer)
      (completed : answer.ending = .ok 0 ∨ answer.ending = .ok 1) : False := by
    rcases kept.ending with ending | ⟨e, ending⟩ <;> simp [ending] at completed
  rw [runGenerate_eq severity] at completed ⊢
  cases asked : requestOf s root descriptors outputDirectory with
  | error e =>
    rw [asked] at completed
    exact absurd completed (fun done => other ⟨rfl, (keeps_stopped t [] e).ending⟩ done)
  | ok request =>
    rw [asked] at completed
    simp only at completed ⊢
    cases result : (generate s t request).result with
    | error e =>
      exact absurd completed fun done =>
        other ⟨rfl, (keeps_ofPass severity result).ending⟩ done
    | ok p =>
      exact ⟨request, p, rfl, result, tree_ofPass severity _⟩

/-- Verification of what a pass wrote ends with the status zero, if the configuration file can be
looked up. -/
theorem ending_runVerify (severity : Severity) {entry : Option Entry} (formed : t.IsWellFormed)
    (working : s.workingDirectory.IsProper)
    (asked : requestOf s root descriptors outputDirectory = .ok request)
    (made : Plan.make s t request = .ok p) (vacant : t.IsVacant p.outputDirectory)
    (apart : ¬p.outputDirectory <+: s.temporary) (carried : (p.carryOut t).result = .ok ())
    (offers : s.OffersTemporary (p.carryOut t).tree)
    (located : locateArtifacts s (p.carryOut t).tree request.root artifacts =
      .ok p.outputDirectory)
    (found : (p.carryOut t).tree.status (request.root ++ [Config.fileName]) = .ok entry) :
    (runVerify s (p.carryOut t).tree severity root descriptors artifacts).ending = .ok 0 := by
  have proper := isProper_of_requestOf working asked made
  have writable := (Plan.carryOut_eq_ok_iff proper).1 carried
  have effect := Plan.effect_of_carryOut proper carried
  have formed' := Plan.isWellFormed_carryOut proper formed carried
  obtain ⟨place, output, file, rooted, chosen, described, rfl⟩ := requestOf_eq_ok_iff.1 asked
  obtain ⟨config, _, input, bytes, configured, -, named, read, same⟩ :=
    effect.exists_inputs writable vacant formed rfl (isProper_of_locate working rooted)
      (isProper_of_locateOption working described) made found
  -- The pass in the temporary directory has the same files.
  have remade : Plan.make s (p.carryOut t).tree
      (PassRequest.into ⟨place, none, file, none⟩ s.temporary) =
        .ok (.ofBatch config s.temporary input (.ofBytes bytes)) :=
    Plan.make_eq_ok_iff.2 ⟨config, s.temporary, input, bytes, configured, rfl, named, read, rfl⟩
  have files : (Plan.ofBatch config s.temporary input (.ofBytes bytes)).fileOf? = p.fileOf? := by
    rw [same]
    rfl
  have source : FileTree.Fit [config.sourceName] := by
    have fit := (FileTree.fit_append.1 writable.fit).2
    rwa [same] at fit
  have accepted : ∀ c ∈ (none : Option Config), c.IsAccepted := by simp
  have planProper := Plan.isProper_of_make_into offers.proper accepted remade
  have done := generate_eq_ok_iff.2
    ⟨remade, (Plan.carryOut_eq_ok_iff planProper).2 (offers.isWritable formed' rfl source)⟩
  have held := effect.status_output writable proper
  have reaches (q : Place) (reached : (p.carryOut t).tree.reach p.outputDirectory = .ok q) :
      q = p.outputDirectory := ((FileTree.reach_proper_iff proper.directory).1 reached).1
  obtain ⟨q, c, reached, compared, described'⟩ :=
    exists_comparison_of_verify (.ofPlace p.outputDirectory) formed' accepted
      offers.proper offers.fresh held (fun q reached => reaches q reached ▸ apart) done
  obtain rfl := reaches q reached
  have equal : c.isEqual = true := by
    rw [described'.equal, files]
    exact effect.fileBelow?_output vacant
  rw [runVerify_eq severity rooted located described, ofVerification, compared]
  simp only [Answer.ended, equal, if_true]

/-- If the configuration file cannot be looked up, verification ends without a status. -/
theorem ending_runVerify_of_lost (severity : Severity) {place directory : Place}
    {file : Option Place} {path : String}
    (formed : t.IsWellFormed) (fresh : t.get? s.temporary = none)
    (rooted : locate s root = .ok place)
    (located : locateArtifacts s t place artifacts = .ok directory)
    (described : locateOption s descriptors = .ok file)
    (held : t.status directory = .ok (some .directory))
    (failed : Config.load t place = .error (.file path .nameTooLong)) :
    (runVerify s t severity root descriptors artifacts).ending =
      .error (.file path .nameTooLong) := by
  have unmade : Plan.make s t (PassRequest.into ⟨place, none, file, none⟩ s.temporary) =
      .error (.file path .nameTooLong) := make_of_load_error rfl failed
  have stopped := verify_of_error (.ofPlace directory) formed fresh held
    (by rw [generate, unmade])
  rw [runVerify_eq severity rooted located described, ofVerification, stopped]
  rfl

/-- A second pass leaves all places as they are. -/
theorem get?_runGenerate_again (severity : Severity) (formed : t.IsWellFormed)
    (working : s.workingDirectory.IsProper)
    (asked : requestOf s root descriptors outputDirectory = .ok request)
    (made : Plan.make s t request = .ok p) (vacant : t.IsVacant p.outputDirectory)
    (carried : (p.carryOut t).result = .ok ()) :
    (runGenerate s (p.carryOut t).tree severity root descriptors outputDirectory).tree.get? =
      (p.carryOut t).tree.get? := by
  have proper := isProper_of_requestOf working asked made
  have writable := (Plan.carryOut_eq_ok_iff proper).1 carried
  have effect := Plan.effect_of_carryOut proper carried
  have tree : (runGenerate s (p.carryOut t).tree severity root descriptors outputDirectory).tree =
      (generate s (p.carryOut t).tree request).tree := by
    rw [runGenerate_eq, asked]
    exact tree_ofPass severity _
  rw [tree]
  obtain ⟨place, output, file, rooted, chosen, described, rfl⟩ := requestOf_eq_ok_iff.1 asked
  cases found : (p.carryOut t).tree.status (place ++ [Config.fileName]) with
  | error e =>
    have failed : Config.load (p.carryOut t).tree place =
        .error (.file (Place.text (place ++ [Config.fileName])) e) := by
      simp only [Config.load, found]
    rw [generate_of_make_error (make_of_load_error rfl failed)]
  | ok entry =>
    obtain ⟨config, _, input, bytes, configured, given, named, read, same⟩ :=
      effect.exists_inputs writable vacant formed rfl (isProper_of_locate working rooted)
        (isProper_of_locateOption working described) made found
    have remade : Plan.make s (p.carryOut t).tree ⟨place, output, file, none⟩ = .ok p :=
      Plan.make_eq_ok_iff.2 ⟨config, _, input, bytes, configured, given, named, read, same⟩
    have writable' := effect.isWritable_again writable
    have carried' := (Plan.carryOut_eq_ok_iff proper).2 writable'
    obtain ⟨-, -, tree'⟩ := carried_of_generate (generate_eq_ok_iff.2 ⟨remade, carried'⟩)
    rw [tree']
    exact effect.again (Plan.effect_of_carryOut proper carried') writable'

/-- After a pass into a directory that was empty or not there, verification of that directory ends
with the status zero, and a second pass leaves all files as they are.  Only if the place of the
project has a name that does not fit, in a directory that the pass has made, verification ends
without a status, because the configuration file cannot be looked up. -/
theorem verify_of_generate (severity severity' severity'' : Severity) (formed : t.IsWellFormed)
    (working : s.workingDirectory.IsProper)
    (asked : requestOf s root descriptors outputDirectory = .ok request)
    (made : Plan.make s t request = .ok p) (vacant : t.IsVacant p.outputDirectory)
    (apart : ¬p.outputDirectory <+: s.temporary) :
    let first := runGenerate s t severity root descriptors outputDirectory
    let verified := runVerify s first.tree severity' root descriptors artifacts
    let second := runGenerate s first.tree severity'' root descriptors outputDirectory
    (first.ending = .ok 0 ∨ first.ending = .ok 1) → s.OffersTemporary first.tree →
      locateArtifacts s first.tree request.root artifacts = .ok p.outputDirectory →
      (verified.ending = .ok 0 ∨ p.CutsOff t request.root ∧
        verified.ending = .error (.file (Place.text (request.root ++ [Config.fileName]))
          .nameTooLong)) ∧
      second.tree.get? = first.tree.get? := by
  intro first verified second completed offers located
  obtain ⟨request', p', asked', done, tree⟩ := exists_generate_of_ending completed
  obtain rfl := Except.ok.inj (asked.symm.trans asked')
  obtain ⟨made', carried, generated⟩ := carried_of_generate done
  obtain rfl := Except.ok.inj (made.symm.trans made')
  have proper := isProper_of_requestOf working asked made
  have writable := (Plan.carryOut_eq_ok_iff proper).1 carried
  have effect := Plan.effect_of_carryOut proper carried
  have after : first.tree = (p.carryOut t).tree := tree.trans generated
  rw [after] at offers located
  refine ⟨?_, ?_⟩
  · simp only [verified, after]
    obtain ⟨place, output, file, rooted, -, described, rfl⟩ := requestOf_eq_ok_iff.1 asked
    cases found : (p.carryOut t).tree.status (place ++ [Config.fileName]) with
    | ok entry =>
      exact .inl (ending_runVerify severity' formed working asked made vacant apart carried
        offers located found)
    | error e =>
      obtain ⟨config, -, -, -, configured, -⟩ := Plan.make_eq_ok_iff.1 made
      obtain ⟨entry, before, -⟩ := Config.load_eq_ok_iff.1 configured
      obtain ⟨rfl, cut⟩ :=
        effect.cutOff_of_status writable formed (isProper_of_locate working rooted) before found
      refine .inr ⟨cut, ending_runVerify_of_lost severity'
        (Plan.isWellFormed_carryOut proper formed carried) offers.fresh rooted located described
        (effect.status_output writable proper) ?_⟩
      simp only [Config.load, found]
  · simp only [second, after]
    exact get?_runGenerate_again severity'' formed working asked made vacant carried

/-! ## Two passes over one file -/

theorem follow_proper {start : Place} {names : Place} (proper : names.IsProper) :
    Path.follow start names = start ++ names := by
  induction names generalizing start with
  | nil => simp [Path.follow]
  | cons name rest ih =>
    have down : name ≠ Path.above := (proper name List.mem_cons_self).down
    have later := @ih (start ++ [name]) fun n mem => proper n (List.mem_cons_of_mem _ mem)
    rw [Path.follow, List.foldl_cons, Path.step, if_neg down, ← Path.follow, later]
    simp

/-- The text of a proper place names that place on the command line. -/
theorem locate_text {place : Place} (proper : place.IsProper)
    (plain : place.any Path.holdsNull = false) : locate s (Place.text place) = .ok place := by
  have home : (Path.mk .top place).expandHome s.homeOf = .ok ⟨.top, place⟩ := by
    rw [Path.expandHome]
  rw [locate, Path.ofString_text proper, Path.locate, home]
  simp [bind, Except.bind, Path.resolve, plain, Path.isAbsolute, follow_proper proper]

/-- A pass over a call and a malformed line is completed with the status one. -/
theorem runGenerate_callLines (severity : Severity) {place output : Place}
    (asked : requestOf s root descriptors outputDirectory =
      .ok ⟨place, some output, some ["calls"], none⟩)
    (loaded : Config.load (callTree callLines) place = .ok .usual)
    (carried : ((Plan.ofBatch .usual output ["calls"] (.ofBytes callLines)).carryOut
      (callTree callLines)).result = .ok ()) :
    (runGenerate s (callTree callLines) severity root descriptors outputDirectory).ending = .ok 1 ∧
      (runGenerate s (callTree callLines) severity root descriptors outputDirectory).tree =
        ((Plan.ofBatch .usual output ["calls"] (.ofBytes callLines)).carryOut
          (callTree callLines)).tree := by
  have made : Plan.make s (callTree callLines) ⟨place, some output, some ["calls"], none⟩ =
      .ok (.ofBatch .usual output ["calls"] (.ofBytes callLines)) :=
    Plan.make_eq_ok_iff.2 ⟨.usual, output, ["calls"], callLines, loaded, rfl, rfl, rfl, rfl⟩
  have done := generate_eq_ok_iff.2 ⟨made, carried⟩
  have unclean : (Plan.ofBatch .usual output ["calls"] (.ofBytes callLines)).isClean = false := by
    rw [Bool.eq_false_iff, ne_eq, Plan.isClean_ofBatch_iff]
    exact not_isUnderstood_callLines
  rw [runGenerate_eq, asked]
  refine ⟨?_, (tree_ofPass severity _).trans (carried_of_generate done).2.2⟩
  simp only [ofPass, done, Answer.ended, unclean]
  rfl

/-- A pass into a directory at the top leaves the temporary directory free. -/
theorem offersTemporary_of_effect {name : String} (other : "tmp" ≠ name)
    (output : p.outputDirectory = [name]) (effect : p.Effect (callTree callLines) t') :
    (Surroundings.mk [] (fun _ => none) ["tmp"]).OffersTemporary t' where
  proper := by decide
  fit := by decide
  fresh := by
    rw [effect.get?_eq ?_ ?_]
    · rfl
    · rw [output]
      simpa using other
    · rw [output]
      simp
  parent := FileTree.get?_nil t'

/-- What a pass over a call and a malformed line leaves is verified. -/
theorem verify_of_generate_callLines :
    let s : Surroundings := ⟨[], fun _ => none, ["tmp"]⟩
    let t := callTree callLines
    let p := Plan.ofBatch .usual ["out"] ["calls"] (.ofBytes callLines)
    let request : PassRequest := ⟨[], some ["out"], some ["calls"], none⟩
    let first := runGenerate s t .warning "/" (some "/calls") (some "/out")
    let verified := runVerify s first.tree .warning "/" (some "/calls") (some "/out")
    let second := runGenerate s first.tree .warning "/" (some "/calls") (some "/out")
    t.IsWellFormed ∧ s.workingDirectory.IsProper ∧
      requestOf s "/" (some "/calls") (some "/out") = .ok request ∧
      Plan.make s t request = .ok p ∧ t.IsVacant p.outputDirectory ∧
      ¬p.outputDirectory <+: s.temporary ∧ first.ending = .ok 1 ∧
      s.OffersTemporary first.tree ∧
      locateArtifacts s first.tree request.root (some "/out") = .ok p.outputDirectory ∧
      verified.ending = .ok 0 ∧ second.tree.get? = first.tree.get? := by
  intro s t p request first verified second
  have formed : t.IsWellFormed := by decide
  have working : s.workingDirectory.IsProper := Place.isProper_nil
  have asked : requestOf s "/" (some "/calls") (some "/out") = .ok request :=
    requestOf_eq_ok_iff.2 ⟨[], some ["out"], some ["calls"], by decide, by decide, by decide, rfl⟩
  have made : Plan.make s t request = .ok p :=
    Plan.make_eq_ok_iff.2 ⟨.usual, _, _, _, rfl, rfl, rfl, rfl, rfl⟩
  have top : t.get? [] = some .directory := rfl
  have writable : p.IsWritable t := Plan.isWritable_of_new formed rfl top rfl (by decide)
  have proper := isProper_of_requestOf working asked made
  have carried := (Plan.carryOut_eq_ok_iff proper).2 writable
  have vacant : t.IsVacant p.outputDirectory := formed.isVacant_of_free rfl
  have apart : ¬p.outputDirectory <+: s.temporary := by
    show ¬["out"] <+: ["tmp"]
    decide
  obtain ⟨ending, tree⟩ := runGenerate_callLines .warning asked rfl carried
  have effect : p.Effect t first.tree := tree ▸ Plan.effect_of_carryOut proper carried
  have offers := offersTemporary_of_effect (by decide) rfl effect
  have located : locateArtifacts s first.tree request.root (some "/out") =
      .ok p.outputDirectory := by
    show locate s "/out" = .ok ["out"]
    decide
  obtain ⟨verified, again⟩ := verify_of_generate .warning .warning .warning
    formed working asked made vacant apart (.inr ending) offers located
  have clean : (runVerify s first.tree .warning "/" (some "/calls") (some "/out")).ending =
      .ok 0 := by
    rcases verified with clean | ⟨⟨above, name, before, -⟩, -⟩
    · exact clean
    · exact absurd (List.prefix_nil.1 before) (by simp)
  exact ⟨formed, working, asked, made, vacant, apart, ending, offers, located, clean, again⟩

/-! ## A name that does not fit -/

/-- A pass that makes the directory in which the name of its own project does not fit is completed,
but verification of what it left ends without a status. -/
theorem ending_of_long_name {name : String} (named : Place.IsName name)
    (plain : Path.holdsNull name = false)
    (long : FileTree.nameLimit < (Text.utf8 name).length) :
    let s : Surroundings := ⟨[], fun _ => none, ["tmp"]⟩
    let t := callTree callLines
    let root := Place.text ["a", name]
    let first := runGenerate s t .warning root (some "/calls") (some "/a")
    let verified := runVerify s first.tree .warning root (some "/calls") (some "/a")
    t.IsWellFormed ∧ locate s "/a" = .ok ["a"] ∧ t.IsVacant ["a"] ∧ ¬["a"] <+: s.temporary ∧
      first.ending = .ok 1 ∧ s.OffersTemporary first.tree ∧ verified.ending =
        .error (.file (Place.text (["a", name] ++ [Config.fileName])) .nameTooLong) := by
  intro s t root first verified
  have formed : t.IsWellFormed := by decide
  have proper : Place.IsProper ["a", name] := by
    simpa [Place.IsProper] using And.intro (by decide : Place.IsName "a") named
  have file : Place.IsName Config.fileName := by decide
  have plainPlace : ∀ n ∈ ["a", name] ++ [Config.fileName], Path.holdsNull n = false := by
    simp [plain, (by decide : Path.holdsNull "a" = false),
      (by decide : Path.holdsNull Config.fileName = false)]
  have rooted : locate s root = .ok ["a", name] :=
    locate_text proper (by simpa using (List.forall_mem_append.1 plainPlace).1)
  have located : locate s "/a" = .ok ["a"] := by decide
  have described : locateOption s (some "/calls") = .ok (some ["calls"]) := by decide
  have asked : requestOf s root (some "/calls") (some "/a") =
      .ok ⟨["a", name], some ["a"], some ["calls"], none⟩ :=
    requestOf_eq_ok_iff.2 ⟨_, some ["a"], _, rooted, by decide, described, rfl⟩
  -- Before the pass the directory is missing, and so is the configuration file.
  have missing : t.reach (["a", name] ++ [Config.fileName]) = .error .notFound := by
    rw [FileTree.reach, if_neg (by simpa using plainPlace)]
    rfl
  have loaded : Config.load t ["a", name] = .ok .usual :=
    Config.load_eq_ok_iff.2 ⟨none, by rw [FileTree.status, missing], .inr ⟨by simp, rfl⟩⟩
  let p := Plan.ofBatch .usual ["a"] ["calls"] (.ofBytes callLines)
  have planProper : p.IsProper := ⟨by decide, by decide⟩
  have top : t.get? [] = some .directory := rfl
  have writable : p.IsWritable t :=
    Plan.isWritable_of_new formed rfl top rfl (by decide)
  have carried := (Plan.carryOut_eq_ok_iff planProper).2 writable
  obtain ⟨ending, tree⟩ := runGenerate_callLines .warning asked loaded carried
  have effect : p.Effect t first.tree :=
    tree ▸ Plan.effect_of_carryOut planProper carried
  have formed' : first.tree.IsWellFormed :=
    tree ▸ Plan.isWellFormed_carryOut planProper formed carried
  have offers := offersTemporary_of_effect (by decide) rfl effect
  -- After the pass the directory is there, and the name does not fit into it.
  have lost : first.tree.status (["a", name] ++ [Config.fileName]) = .error .nameTooLong :=
    (FileTree.status_proper_eq_error_iff (Place.isProper_append_singleton.2 ⟨proper, file⟩)).2
      ⟨rfl, plainPlace, ["a"], name, List.prefix_append _ _, long, by decide,
        fun way before => effect.isOpen way before⟩
  have failed : Config.load first.tree ["a", name] =
      .error (.file (Place.text (["a", name] ++ [Config.fileName])) .nameTooLong) := by
    simp only [Config.load, lost]
  have held : first.tree.status ["a"] = .ok (some .directory) :=
    effect.status_output writable planProper
  exact ⟨formed, located, formed.isVacant_of_free rfl, by decide, ending, offers,
    ending_runVerify_of_lost .warning formed' offers.fresh rooted located described held failed⟩

/-- A name of the same letter. -/
def repeated (n : Nat) : String :=
  String.ofList (List.replicate n 'x')

theorem length_utf8_repeated (n : Nat) : (Text.utf8 (repeated n)).length = n := by
  have one : 'x'.utf8Size = 1 := by decide
  simp [Text.utf8, repeated, Text.encodeUtf8, List.length_flatMap, one]

theorem isName_repeated {n : Nat} (large : 2 < n) : Place.IsName (repeated n) := by
  have letters : (repeated n).toList = List.replicate n 'x' := String.toList_ofList
  have other {s : String} (short : s.length ≤ 2) : repeated n ≠ s := by
    rintro rfl
    rw [← String.length_toList, letters, List.length_replicate] at short
    omega
  refine ⟨?_, other (by decide), ?_⟩
  · simp only [Path.isStep, Bool.and_eq_true, bne_iff_ne]
    exact ⟨other (by decide), other (by decide)⟩
  · simp [letters, List.mem_replicate]

theorem holdsNull_repeated (n : Nat) : Path.holdsNull (repeated n) = false := by
  simp [Path.holdsNull, repeated, List.mem_replicate]

/-- Verification does not always end with the status zero after a pass: the name may have 256
bytes. -/
theorem verify_of_long_name :
    let s : Surroundings := ⟨[], fun _ => none, ["tmp"]⟩
    let t := callTree callLines
    let root := Place.text ["a", repeated 256]
    let first := runGenerate s t .warning root (some "/calls") (some "/a")
    let verified := runVerify s first.tree .warning root (some "/calls") (some "/a")
    t.IsWellFormed ∧ locate s "/a" = .ok ["a"] ∧ t.IsVacant ["a"] ∧ ¬["a"] <+: s.temporary ∧
      first.ending = .ok 1 ∧ s.OffersTemporary first.tree ∧ verified.ending =
        .error (.file (Place.text (["a", repeated 256] ++ [Config.fileName])) .nameTooLong) :=
  ending_of_long_name (isName_repeated (by decide)) (holdsNull_repeated 256)
    (by rw [length_utf8_repeated]; decide)

end CommandLine

end CallSiteIds
