import CallSiteIds.Proofs.Config.Problems

/-!
# What a pass is run with

A pass is run with a configuration, an output directory and a descriptor file, and its plan is made
from these settings and the bytes of the file (`make_eq_settings`).  When the settings are settled
is said by the configuration file and the two texts in it (`isSettled_settingsOf_iff`).
-/

set_option autoImplicit false

namespace CallSiteIds

namespace Plan

variable {s : Surroundings} {t : FileTree} {r : PassRequest} {p : Plan} {e : Problem}

/-- What a pass is run with: the configuration, the output directory and the descriptor file. -/
def settingsOf (s : Surroundings) (t : FileTree) (r : PassRequest) :
    Except Problem (Config × Place × Place) :=
  (configOf t r).bind fun config =>
    (outputOf r config).bind fun output =>
      (descriptorsOf s r config).bind fun descriptors => .ok (config, output, descriptors)

/-- A plan is made from the settings and the bytes of the descriptor file. -/
theorem make_eq_settings (s : Surroundings) (t : FileTree) (r : PassRequest) :
    make s t r = (settingsOf s t r).bind fun (config, output, descriptors) =>
      match t.read descriptors with
      | .error e => .error (.descriptors descriptors e)
      | .ok bytes => .ok (ofBatch config output descriptors (.ofBytes bytes)) := by
  rw [make_eq_bind, settingsOf]
  cases configOf t r with
  | error e => rfl
  | ok config =>
    simp only [Except.bind]
    cases outputOf r config with
    | error e => rfl
    | ok output =>
      simp only
      cases descriptorsOf s r config <;> rfl

/-- The settings of a request without a configuration are settled when each of them is. -/
theorem isSettled_settingsOf_iff (bare : r.config = none) :
    IsSettled (settingsOf s t r) ↔ IsSettled (Config.load t r.root) ∧
      ∀ c, Config.load t r.root = .ok c →
        (r.outputDirectory = none → Config.IsOutputText c.outputDirectory) ∧
        ((∃ output, outputOf r c = .ok output) → r.descriptors = none →
          Config.IsInputText s c.descriptors) := by
  have configured : configOf t r = Config.load t r.root := by rw [configOf, bare]
  have output (c : Config) : IsSettled (outputOf r c) ↔
      (r.outputDirectory = none → Config.IsOutputText c.outputDirectory) := by
    rw [outputOf]
    cases r.outputDirectory with
    | some place => exact iff_of_true (isSettled_ok place) (by rintro ⟨⟩)
    | none =>
      rw [Config.isSettled_resolveOutput_iff]
      exact ⟨fun h _ => h, fun h => h rfl⟩
  have descriptors (c : Config) : IsSettled (descriptorsOf s r c) ↔
      (r.descriptors = none → Config.IsInputText s c.descriptors) := by
    rw [descriptorsOf]
    cases r.descriptors with
    | some place => exact iff_of_true (isSettled_ok place) (by rintro ⟨⟩)
    | none =>
      rw [Config.isSettled_resolveDescriptors_iff]
      exact ⟨fun h _ => h, fun h => h rfl⟩
  rw [settingsOf, configured, isSettled_bind_iff]
  refine and_congr_right fun _ => forall_congr' fun c => imp_congr_right fun _ => ?_
  rw [isSettled_bind_iff, output]
  refine and_congr_right fun _ => ?_
  simp only [isSettled_bind_iff, descriptors, isSettled_ok, implies_true, and_true]
  constructor
  · rintro h ⟨place, given⟩
    exact h place given
  · exact fun h place given => h ⟨place, given⟩

/-- What a plan that is not carried out fails with; once the output directory is there, it is not
for something on the way to it. -/
theorem error_of_carryOut (proper : p.IsProper) (failed : (p.carryOut t).result = .error e) :
    ∃ path kind, e = .file path kind ∧
      ((∃ t₀, t.makeDirectory p.outputDirectory = .ok t₀) →
        kind ≠ .notFound ∧ kind ≠ .notADirectory) := by
  rw [carryOut, files_eq] at failed
  cases made : t.makeDirectory p.outputDirectory with
  | error kind =>
    rw [made] at failed
    injection failed with failed
    exact ⟨_, kind, failed.symm, by rintro ⟨_, ⟨⟩⟩⟩
  | ok t₀ =>
    rw [made] at failed
    have isOpen := (FileTree.effect_of_makeDirectory made).1
    simp only at failed
    cases written : writeAll t₀ (p.namedFiles.map (FileTree.placed p.outputDirectory)) with
    | mk t₁ result =>
      rw [written] at failed
      cases result with
      | ok _ => cases failed
      | error e' =>
        injection failed with failed
        subst failed
        obtain ⟨path, kind, same, other⟩ :=
          FileTree.error_of_writeAll proper.directory proper.named isOpen written
        exact ⟨path, kind, same, fun _ => other⟩

end Plan

end CallSiteIds
