import CallSiteIds.Proofs.Pass.Repeating
import CallSiteIds.Proofs.Verification.Comparisons

/-!
# Reproducing a directory

Verification compares the files below a directory with those that the pass writes now.  The files
of a pass are the same in every directory that is empty or not there (`fileBelow?_output`), and
writing them into the temporary directory leaves the files below the verified one as they are
(`fileBelow?_apart`).  So a verification describes how the directory differs from what the pass
would leave in a fresh one (`describes_of_verify`).
-/

set_option autoImplicit false

namespace CallSiteIds

open Place (IsProper)

/-- A request for a pass that writes into a given directory. -/
def PassRequest.into (r : PassRequest) (directory : Place) : PassRequest :=
  { r with outputDirectory := some directory }

namespace Plan

variable {s : Surroundings} {t t' : FileTree} {r : PassRequest} {p q : Plan}
  {directory other : Place}

/-! ## The files of a plan -/

/-- The bytes that a plan leaves at a way below its output directory. -/
def fileOf? (p : Plan) : Place → Option (List UInt8)
  | [name] => p.written? name
  | _ => none

/-- What a plan leaves below a directory that was empty or not there. -/
theorem Effect.fileBelow?_output (effect : p.Effect t t') (vacant : t.IsVacant p.outputDirectory)
    (way : Place) : t'.fileBelow? p.outputDirectory way = p.fileOf? way := by
  match way with
  | [] =>
    rw [FileTree.fileBelow?, List.append_nil, effect.isOpen _ (List.prefix_refl _)]
    rfl
  | [name] =>
    rw [FileTree.fileBelow?, effect.named, vacant [name] (by simp), Option.or_none, fileOf?]
    cases p.written? name <;> rfl
  | first :: second :: rest =>
    have deeper : ¬p.outputDirectory ++ first :: second :: rest <+: p.outputDirectory :=
      Place.not_append_prefix _ (by simp)
    have away (name : String) :
        p.outputDirectory ++ first :: second :: rest ≠ p.outputDirectory ++ [name] := by
      simp
    rw [FileTree.fileBelow?, effect.others _ deeper away, vacant _ (by simp)]
    rfl

/-- What lies below another directory that does not hold the output directory is as it was. -/
theorem Effect.get?_apart (effect : p.Effect t t') (writable : p.IsWritable t)
    (held : t.get? other = some .directory) (apart : ¬other <+: p.outputDirectory) (way : Place) :
    t'.get? (other ++ way) = t.get? (other ++ way) := by
  refine effect.get?_eq (fun before => apart ((List.prefix_append _ _).trans before)) ?_
  intro name written same
  rcases List.prefix_concat_iff.1 (same ▸ List.prefix_append other way) with here | before
  · exact writable.files name (written?_ne_none_iff.1 written) (here ▸ held)
  · exact apart before

theorem Effect.fileBelow?_apart (effect : p.Effect t t') (writable : p.IsWritable t)
    (held : t.get? other = some .directory) (apart : ¬other <+: p.outputDirectory) :
    t'.fileBelow? other = t.fileBelow? other := by
  funext way
  rw [FileTree.fileBelow?, effect.get?_apart writable held apart, FileTree.fileBelow?]

/-- The same pass in two directories has the same files. -/
theorem fileOf?_of_make
    (made : make s t (r.into directory) = .ok p)
    (made' : make s t (r.into other) = .ok q) :
    p.fileOf? = q.fileOf? := by
  obtain ⟨config, _, descriptors, bytes, configured, chosen, described, read, rfl⟩ :=
    make_eq_ok_iff.1 made
  obtain ⟨config', _, descriptors', bytes', configured', chosen', described', read', rfl⟩ :=
    make_eq_ok_iff.1 made'
  obtain rfl : config = config' := Except.ok.inj (configured.symm.trans configured')
  obtain rfl : descriptors = descriptors' := Except.ok.inj (described.symm.trans described')
  obtain rfl : bytes = bytes' := Except.ok.inj (read.symm.trans read')
  rfl

theorem outputDirectory_of_make
    (made : make s t (r.into directory) = .ok p) :
    p.outputDirectory = directory := by
  obtain ⟨_, output, _, _, -, chosen, -, -, rfl⟩ := make_eq_ok_iff.1 made
  exact (Except.ok.inj chosen).symm

theorem isProper_of_make_into (proper : directory.IsProper)
    (accepted : ∀ c ∈ r.config, c.IsAccepted) (made : make s t (r.into directory) = .ok p) :
    p.IsProper := by
  refine isProper_of_make (r := r.into directory) ?_ ?_ accepted made
  · exact fun absent => absurd absent (by simp [PassRequest.into])
  · simpa [PassRequest.into] using proper

end Plan

/-! ## Verification -/

section Verify

variable {s : Surroundings} {t : FileTree} {r : PassRequest} {p : Plan}

/-- A verification whose pass succeeds describes how the files below the directory differ from
those of the pass. -/
theorem exists_comparison_of_verify (directory : Path) (formed : t.IsWellFormed)
    (accepted : ∀ c ∈ r.config, c.IsAccepted) (temporary : s.temporary.IsProper)
    (fresh : t.get? s.temporary = none)
    (held : t.status directory.parts = .ok (some .directory))
    (apart : ∀ place, t.reach directory.parts = .ok place → ¬place <+: s.temporary)
    (done : (generate s t (r.into s.temporary)).result = .ok p) :
    ∃ place c, t.reach directory.parts = .ok place ∧ (verify s t directory r).2 = .ok c ∧
      c.Describes (t.fileBelow? place) p.fileOf? := by
  obtain ⟨place, reached, top⟩ := FileTree.status_eq_some_iff.1 held
  obtain ⟨made, carried, tree⟩ := carried_of_generate done
  have output : p.outputDirectory = s.temporary := Plan.outputDirectory_of_make made
  have proper := Plan.isProper_of_make_into temporary accepted made
  have writable := (Plan.carryOut_eq_ok_iff proper).1 carried
  have effect := Plan.effect_of_carryOut proper carried
  rw [← tree] at effect
  have formed' : (generate s t (r.into s.temporary)).tree.IsWellFormed := by
    rw [tree]
    exact Plan.isWellFormed_carryOut proper formed carried
  have reached' := effect.reach writable reached
  refine ⟨place, .ofFiles ((generate s t (r.into s.temporary)).tree.filesBelow place)
    ((generate s t (r.into s.temporary)).tree.filesBelow s.temporary), reached, ?_, ?_⟩
  · rw [PassRequest.into] at done reached'
    rw [verify, held]
    simp only
    rw [formed.erase_eq_self fresh, done]
    simp only
    rw [reached']
    rfl
  · have described := formed'.describes_filesBelow place s.temporary
    have before := effect.fileBelow?_apart writable top (output ▸ apart place reached)
    have after := effect.fileBelow?_output (output ▸ formed.isVacant_of_free fresh)
    rw [output] at after
    rwa [before, funext after] at described

/-- A verification describes how the files below the directory differ from those that the pass
leaves in any directory that is empty or not there: it is equal exactly when both are the same map
from ways to bytes. -/
theorem verify_describes_generated (directory : Path) (formed : t.IsWellFormed)
    (accepted : ∀ c ∈ r.config, c.IsAccepted) (temporary : s.temporary.IsProper)
    (fresh : t.get? s.temporary = none)
    (held : t.status directory.parts = .ok (some .directory))
    (apart : ∀ place, t.reach directory.parts = .ok place → ¬place <+: s.temporary)
    (done : (generate s t (r.into s.temporary)).result = .ok p) :
    ∃ place c, t.reach directory.parts = .ok place ∧ (verify s t directory r).2 = .ok c ∧
      ∀ (output : Place) (q : Plan), output.IsProper → t.IsVacant output →
        (generate s t (r.into output)).result = .ok q →
        c.Describes (t.fileBelow? place)
          ((generate s t (r.into output)).tree.fileBelow? output) := by
  obtain ⟨place, c, reached, compared, described⟩ :=
    exists_comparison_of_verify directory formed accepted temporary fresh held apart done
  refine ⟨place, c, reached, compared, fun output q proper vacant done' => ?_⟩
  obtain ⟨made, -, -⟩ := carried_of_generate done
  obtain ⟨made', carried, tree⟩ := carried_of_generate done'
  have same : q.outputDirectory = output := Plan.outputDirectory_of_make made'
  have planProper := Plan.isProper_of_make_into proper accepted made'
  have effect := Plan.effect_of_carryOut planProper carried
  have after := effect.fileBelow?_output (same ▸ vacant)
  rw [same] at after
  rw [tree, funext after, ← Plan.fileOf?_of_make made made']
  exact described

end Verify

/-- A project with an older output directory, in which there are other files too. -/
def oldOutput : FileTree :=
  ⟨[(["p"], .directory), (["p", "callsites.jsonl"], .file (Text.utf8 "?\n")),
    (["p", "old"], .directory), (["p", "old", "intercepts.jsonl"], .file (Text.utf8 "{}\n")),
    (["p", "old", "notes"], .directory), (["p", "old", "notes", "a.txt"], .file (Text.utf8 "a"))],
    by simp⟩

theorem verify_describes_oldOutput :
    let s : Surroundings := ⟨["p"], fun _ => none, ["tmp"]⟩
    let r : PassRequest := ⟨["p"], none, none, none⟩
    let directory := Path.ofPlace ["p", "old"]
    oldOutput.IsWellFormed ∧ (∀ c ∈ r.config, c.IsAccepted) ∧ s.temporary.IsProper ∧
      oldOutput.get? s.temporary = none ∧
      oldOutput.status directory.parts = .ok (some .directory) ∧
      (∀ place, oldOutput.reach directory.parts = .ok place → ¬place <+: s.temporary) ∧
      (∃ p, (generate s oldOutput (r.into s.temporary)).result = .ok p) ∧
      ∃ place c, oldOutput.reach directory.parts = .ok place ∧
        (verify s oldOutput directory r).2 = .ok c ∧
        ∀ (output : Place) (q : Plan), output.IsProper → oldOutput.IsVacant output →
          (generate s oldOutput (r.into output)).result = .ok q →
          c.Describes (oldOutput.fileBelow? place)
            ((generate s oldOutput (r.into output)).tree.fileBelow? output) := by
  intro s r directory
  have formed : oldOutput.IsWellFormed := by decide
  have accepted : ∀ c ∈ r.config, c.IsAccepted := by simp [r]
  have temporary : s.temporary.IsProper := by decide
  have held : oldOutput.status directory.parts = .ok (some .directory) := rfl
  have apart : ∀ place, oldOutput.reach directory.parts = .ok place → ¬place <+: s.temporary := by
    intro place reached
    obtain rfl : ["p", "old"] = place := Except.ok.inj reached
    decide
  let p := Plan.ofBatch .usual ["tmp"] ["p", "callsites.jsonl"] (.ofBytes (Text.utf8 "?\n"))
  have made : Plan.make s oldOutput (r.into s.temporary) = .ok p :=
    Plan.make_eq_ok_iff.2 ⟨.usual, _, _, _, rfl, rfl, rfl, rfl, rfl⟩
  have top : oldOutput.get? [] = some .directory := rfl
  have writable : p.IsWritable oldOutput :=
    Plan.isWritable_of_new formed rfl top rfl (by decide)
  have done := generate_eq_ok_iff.2 ⟨made, (Plan.carryOut_eq_ok_iff
    (Plan.isProper_of_make_into temporary accepted made)).2 writable⟩
  exact ⟨formed, accepted, temporary, rfl, held, apart, ⟨_, done⟩,
    verify_describes_generated directory formed accepted temporary rfl held apart done⟩

end CallSiteIds
