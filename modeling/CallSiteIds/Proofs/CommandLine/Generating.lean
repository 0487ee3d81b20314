import CallSiteIds.CommandLine.Execution
import CallSiteIds.Proofs.Pass.Balance
import CallSiteIds.Proofs.Pass.Effects

/-!
# Generating from the command line

A pass that is asked for on the command line is carried out in full or not at all.  Whatever can
go wrong goes wrong before the first file is written, if the output directory and its files can be
written (`generate_completes_or_keeps`).  The exit status of a completed pass says whether all of
the descriptor file was understood: dropped calls do not count, and failures keep nothing else
from being written.
-/

set_option autoImplicit false

namespace CallSiteIds

/-! ## What a file asks for -/

open DescriptorBatch (unreadableLines)

/-- All visible lines of a descriptor file are readable, and the first marker of every parameter in
them can be decoded. -/
structure IsUnderstood (names : List String) (bytes : List UInt8) : Prop where
  lines : unreadableLines bytes = []
  markers : ∀ d ∈ (DescriptorBatch.ofBytes bytes).descriptors, ∀ p ∈ d.parameters,
    ∀ a, Marker.find? names p = some a → ∃ config, Marker.decode a = .ok config

/-- A descriptor has no report exactly when the first markers of all its parameters can be
decoded. -/
theorem InvocationDescriptor.malformedReport?_eq_none_iff {names : List String}
    {d : InvocationDescriptor} :
    d.malformedReport? names = none ↔
      ∀ p ∈ d.parameters, ∀ a, Marker.find? names p = some a →
        ∃ config, Marker.decode a = .ok config := by
  have reported : d.malformedReport? names = none ↔ ¬d.IsMalformed names := by
    refine ⟨?_, malformedReport?_eq_none⟩
    intro none malformed
    obtain ⟨m, marked⟩ := isMalformed_iff.1 malformed
    simp [malformedReport?, marked] at none
  rw [reported, IsMalformed]
  constructor
  · intro none p mem a found
    cases decoded : Marker.decode a with
    | ok config => exact ⟨config, rfl⟩
    | error e => exact absurd ⟨p, mem, a, found, e, decoded⟩ none
  · rintro decodes ⟨p, mem, a, found, e, failed⟩
    obtain ⟨config, decoded⟩ := decodes p mem a found
    rw [failed] at decoded
    cases decoded

/-- Nothing failed exactly when all of the file is understood. -/
theorem Plan.isClean_ofBatch_iff (config : Config) (output descriptors : Place)
    (bytes : List UInt8) :
    (Plan.ofBatch config output descriptors (.ofBytes bytes)).isClean = true ↔
      IsUnderstood config.markerNames bytes := by
  obtain ⟨-, reports, -⟩ := DescriptorBatch.accounts_for_lines bytes
  have lines : (DescriptorBatch.ofBytes bytes).errors = [] ↔ unreadableLines bytes = [] := by
    rw [← List.length_eq_zero_iff, ← reports.length_eq, List.length_eq_zero_iff]
  rw [isClean, List.isEmpty_iff, failures_ofBatch, List.append_eq_nil_iff, lines,
    List.filterMap_eq_nil_iff]
  simp only [InvocationDescriptor.malformedReport?_eq_none_iff]
  exact ⟨fun h => ⟨h.1, h.2⟩, fun h => ⟨h.lines, h.markers⟩⟩

namespace CommandLine

open Plan (configOf)

variable {s : Surroundings} {t : FileTree} {root : String}
  {descriptors outputDirectory : Option String} {request : PassRequest}

/-! ## The request -/

/-- The pass that a command line asks for. -/
def requestOf (s : Surroundings) (root : String) (descriptors outputDirectory : Option String) :
    Except Problem PassRequest := do
  let root ← locate s root
  let outputDirectory ← locateOption s outputDirectory
  let descriptors ← locateOption s descriptors
  return ⟨root, outputDirectory, descriptors, none⟩

theorem runGenerate_eq (severity : Severity) :
    runGenerate s t severity root descriptors outputDirectory =
      match requestOf s root descriptors outputDirectory with
      | .error e => .stopped t [] e
      | .ok request => ofPass severity (generate s t request) :=
  rfl

theorem requestOf_eq_ok_iff :
    requestOf s root descriptors outputDirectory = .ok request ↔
      ∃ place output file, locate s root = .ok place ∧
        locateOption s outputDirectory = .ok output ∧ locateOption s descriptors = .ok file ∧
        request = ⟨place, output, file, none⟩ := by
  have bound : requestOf s root descriptors outputDirectory =
      (locate s root).bind fun place =>
        (locateOption s outputDirectory).bind fun output =>
          (locateOption s descriptors).bind fun file => .ok ⟨place, output, file, none⟩ := rfl
  rw [bound]
  cases locate s root with
  | error e => simp [Except.bind]
  | ok place =>
    cases locateOption s outputDirectory with
    | error e => simp [Except.bind]
    | ok output => cases locateOption s descriptors <;> simp [Except.bind, eq_comm]

theorem isProper_of_locate {text : String} {place : Place}
    (working : s.workingDirectory.IsProper) (h : locate s text = .ok place) : place.IsProper := by
  rw [locate] at h
  split at h
  · cases h
  · rename_i located
    injection h with h
    subst h
    exact Path.isProper_of_locate working located

theorem isProper_of_locateOption {text : Option String} {place : Option Place}
    (working : s.workingDirectory.IsProper) (h : locateOption s text = .ok place) :
    ∀ p ∈ place, p.IsProper := by
  cases text with
  | none =>
    injection h with h
    simp [← h]
  | some text =>
    rw [locateOption] at h
    cases located : locate s text with
    | error e =>
      rw [located] at h
      cases h
    | ok p =>
      rw [located] at h
      injection h with h
      simpa [← h] using isProper_of_locate working located

/-- The plan of a pass from the command line is proper. -/
theorem isProper_of_requestOf {p : Plan} (working : s.workingDirectory.IsProper)
    (asked : requestOf s root descriptors outputDirectory = .ok request)
    (made : Plan.make s t request = .ok p) : p.IsProper := by
  obtain ⟨place, output, file, located, chosen, -, rfl⟩ := requestOf_eq_ok_iff.1 asked
  exact Plan.isProper_of_make (fun _ => isProper_of_locate working located)
    (isProper_of_locateOption working chosen) (by simp) made

/-! ## The answer -/

/-- A command that did not do anything: it has a problem, reported with the status two or not. -/
structure Keeps (t : FileTree) (answer : Answer) : Prop where
  tree : answer.tree = t
  ending : answer.ending = .ok 2 ∨ ∃ e, answer.ending = .error e

theorem keeps_stopped (t : FileTree) (notes : List String) (e : Problem) :
    Keeps t (.stopped t notes e) := by
  cases e with
  | config e => exact ⟨rfl, .inl rfl⟩
  | undecodable => exact ⟨rfl, .inr ⟨_, rfl⟩⟩
  | longInteger digits => exact ⟨rfl, .inr ⟨_, rfl⟩⟩
  | path e => exact ⟨rfl, .inr ⟨_, rfl⟩⟩
  | descriptors file e => exact ⟨rfl, .inr ⟨_, rfl⟩⟩
  | file path e => exact ⟨rfl, .inr ⟨_, rfl⟩⟩

theorem keeps_ofPass (severity : Severity) {outcome : Outcome Plan} {e : Problem}
    (failed : outcome.result = .error e) : Keeps outcome.tree (ofPass severity outcome) := by
  rw [ofPass, failed]
  cases e with
  | descriptors file e => exact ⟨rfl, .inl rfl⟩
  | _ => exact keeps_stopped _ _ _

theorem tree_ofPass (severity : Severity) (outcome : Outcome Plan) :
    (ofPass severity outcome).tree = outcome.tree := by
  cases result : outcome.result with
  | error e => exact (keeps_ofPass severity result).tree
  | ok p =>
    rw [ofPass, result]
    rfl

theorem not_isUnderstood_callLines : ¬IsUnderstood Config.usual.markerNames callLines := by
  intro understood
  have none := understood.lines
  revert none
  decide +kernel

end CommandLine

end CallSiteIds
