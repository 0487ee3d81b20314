import CallSiteIds.Proofs.FileTree.Making
import CallSiteIds.Proofs.Pass.Plans

/-!
# What a pass does to a tree

Carrying out a plan makes the output directory and writes the files into it.  It succeeds exactly
when the plan is writable (`carryOut_eq_ok_iff`), and then each of the names holds what was
written there last, the way to the directory is made of directories, and every other place is as
it was (`effect_of_carryOut`).  So a pass keeps all directories, and all files but its own.
-/

set_option autoImplicit false

namespace CallSiteIds

open FileTree (Fit placed lastOf? AdmitsDirectory)
open Place (IsName)

/-! ## Proper places -/

namespace Config

theorem isName_of_isFileName {name : String} (h : isFileName name = true)
    (plain : name ≠ Path.above) : IsName name := by
  simp only [isFileName, Bool.and_eq_true, bne_iff_ne, ne_eq, Bool.not_eq_true',
    List.contains_eq_mem, decide_eq_false_iff_not] at h
  obtain ⟨⟨⟨⟨nonempty, slashless⟩, -⟩, dot⟩, -⟩ := h
  exact ⟨by simp [Path.isStep, nonempty, dot], plain, slashless⟩

theorem isName_of_isAccepted {c : Config} (accepted : c.IsAccepted) : IsName c.sourceName := by
  have named := isFileName_of_isAccepted accepted
  refine isName_of_isFileName named ?_
  rintro up
  rw [up] at named
  exact absurd named (by decide)

/-- An accepted output directory is where its path leads from the root, and not beside it. -/
theorem resolve_of_resolveOutput {root place : Place} {text : String}
    (h : resolveOutput root text = .ok place) :
    (Path.ofString text).resolve root = .ok place ∧ root <+: place := by
  unfold resolveOutput at h
  split at h
  · cases h
  · split at h
    · cases h
    · simp only at h
      split at h
      · cases h
      · split at h
        · cases h
        · rename_i resolved
          split at h
          · rename_i below
            injection h with h
            subst h
            exact ⟨resolved, List.isPrefixOf_iff_prefix.1 below⟩
          · cases h

theorem isProper_of_resolveOutput {root place : Place} {text : String} (proper : root.IsProper)
    (h : resolveOutput root text = .ok place) : place.IsProper :=
  (Path.isSplit_ofString text).isProper_of_resolve proper (resolve_of_resolveOutput h).1

theorem isProper_of_resolveDescriptors {s : Surroundings} {root place : Place} {text : String}
    (proper : root.IsProper) (h : resolveDescriptors s root text = .ok place) :
    place.IsProper := by
  unfold resolveDescriptors at h
  split at h
  · cases h
  · rename_i located
    injection h with h
    subst h
    exact Path.isProper_of_locate (s := { s with workingDirectory := root }) proper located

end Config

namespace Plan

variable {p : Plan} {t : FileTree} {name : String}

/-- The output directory is a proper place, and the source is named like a file. -/
structure IsProper (p : Plan) : Prop where
  directory : p.outputDirectory.IsProper
  source : IsName p.summary.sourceName

/-- The plan of a request that names proper places is proper. -/
theorem isProper_of_make {s : Surroundings} {r : PassRequest}
    (root : r.outputDirectory = none → r.root.IsProper)
    (output : ∀ directory ∈ r.outputDirectory, directory.IsProper)
    (accepted : ∀ c ∈ r.config, c.IsAccepted) (h : make s t r = .ok p) : p.IsProper := by
  obtain ⟨config, directory, descriptors, bytes, configured, chosen, -, -, rfl⟩ :=
    make_eq_ok_iff.1 h
  refine ⟨?_, Config.isName_of_isAccepted (isAccepted_of_configOf accepted configured)⟩
  rw [outputOf] at chosen
  split at chosen
  · rename_i given
    injection chosen with chosen
    subst chosen
    exact output _ given
  · rename_i absent
    exact Config.isProper_of_resolveOutput (root absent) chosen

/-! ## Files by their names -/

/-- The files of a plan by their names in the output directory, in the order in which they are
written. -/
def namedFiles (p : Plan) : List (String × List UInt8) :=
  [(p.summary.sourceName, Text.utf8 p.source), (Artifact.manifestName, p.manifestBytes),
    (Artifact.summaryName, p.summaryBytes)]

theorem files_eq (p : Plan) : p.files = p.namedFiles.map (placed p.outputDirectory) := rfl

/-- What a plan leaves under a name in its output directory. -/
def written? (p : Plan) (name : String) : Option (List UInt8) :=
  lastOf? name p.namedFiles

/-- The summary is written after the manifest, and the manifest after the source. -/
theorem written?_eq (p : Plan) (name : String) :
    p.written? name =
      if name = Artifact.summaryName then some p.summaryBytes
      else if name = Artifact.manifestName then some p.manifestBytes
      else if name = p.summary.sourceName then some (Text.utf8 p.source)
      else none := by
  simp only [written?, namedFiles, lastOf?, Option.none_or, eq_comm (a := name)]
  split
  · rfl
  · split <;> simp

theorem written?_summaryName (p : Plan) :
    p.written? Artifact.summaryName = some p.summaryBytes := by
  rw [written?_eq, if_pos rfl]

theorem written?_manifestName (p : Plan) :
    p.written? Artifact.manifestName = some p.manifestBytes := by
  rw [written?_eq, if_neg (by decide), if_pos rfl]

/-- The source is left where it has a name of its own. -/
theorem written?_sourceName (manifest : p.summary.sourceName ≠ Artifact.manifestName)
    (summary : p.summary.sourceName ≠ Artifact.summaryName) :
    p.written? p.summary.sourceName = some (Text.utf8 p.source) := by
  rw [written?_eq, if_neg summary, if_neg manifest, if_pos rfl]

theorem written?_ne_none_iff :
    p.written? name ≠ none ↔ name ∈ p.namedFiles.map Prod.fst := by
  rw [written?, ne_eq, FileTree.lastOf?_eq_none_iff, not_not]

/-- No file of a plan takes the place of the configuration file, unless the source is named like it
and written into the project. -/
theorem fileName_ne_of_written {root : Place}
    (apart : ¬(p.outputDirectory = root ∧ p.summary.sourceName = Config.fileName))
    (written : p.written? name ≠ none) :
    root ++ [Config.fileName] ≠ p.outputDirectory ++ [name] := by
  intro same
  obtain ⟨directory, last⟩ := List.append_inj' same rfl
  injection last with last
  subst last
  have mem := written?_ne_none_iff.1 written
  have manifest : Config.fileName ≠ Artifact.manifestName := by decide
  have summary : Config.fileName ≠ Artifact.summaryName := by decide
  simp only [namedFiles, List.map_cons, List.map_nil, List.mem_cons, List.not_mem_nil, manifest,
    summary, or_false] at mem
  exact apart ⟨directory.symm, mem.symm⟩

theorem IsProper.named (proper : p.IsProper) : ∀ f ∈ p.namedFiles, IsName f.1 := by
  intro f mem
  simp only [namedFiles, List.mem_cons, List.not_mem_nil, or_false] at mem
  rcases mem with rfl | rfl | rfl
  · exact proper.source
  · show IsName Artifact.manifestName
    decide
  · show IsName Artifact.summaryName
    decide

/-! ## Carrying out a plan -/

/-- The output directory can be made and the files can be written into it: no file is on the way
to the directory, no directory has the name of a file in it, and all names fit. -/
structure IsWritable (p : Plan) (t : FileTree) : Prop where
  way : ∀ above, above <+: p.outputDirectory → t.AdmitsDirectory above
  files : ∀ name ∈ p.namedFiles.map Prod.fst,
    t.get? (p.outputDirectory ++ [name]) ≠ some .directory
  fit : Fit (p.outputDirectory ++ [p.summary.sourceName])

theorem IsWritable.fit_named (writable : p.IsWritable t) {f : String × List UInt8}
    (mem : f ∈ p.namedFiles) : Fit (p.outputDirectory ++ [f.1]) := by
  obtain ⟨fit, source⟩ := FileTree.fit_append.1 writable.fit
  refine FileTree.fit_append.2 ⟨fit, ?_⟩
  simp only [namedFiles, List.mem_cons, List.not_mem_nil, or_false] at mem
  rcases mem with rfl | rfl | rfl
  · exact source
  · show Fit [Artifact.manifestName]
    decide
  · show Fit [Artifact.summaryName]
    decide

theorem isWritable_of_isOpen (isOpen : t.IsOpen p.outputDirectory)
    (files : ∀ name ∈ p.namedFiles.map Prod.fst,
      t.get? (p.outputDirectory ++ [name]) ≠ some .directory)
    (fit : Fit (p.outputDirectory ++ [p.summary.sourceName])) : p.IsWritable t where
  way := by
    intro above before bytes file
    rw [isOpen above before] at file
    cases file
  files := files
  fit := fit

/-- A plan can be carried out in a directory that is not there yet but may be made in one that
is. -/
theorem isWritable_of_new {parent : Place} (formed : t.IsWellFormed)
    (new : p.outputDirectory = parent ++ [name]) (held : t.get? parent = some .directory)
    (free : t.get? p.outputDirectory = none)
    (fit : Fit (p.outputDirectory ++ [p.summary.sourceName])) : p.IsWritable t where
  way := by
    intro above before bytes file
    rw [new] at before free
    rcases List.prefix_concat_iff.1 before with rfl | before
    · rw [free] at file
      cases file
    · rw [formed.isOpen_iff.2 held above before] at file
      cases file
  files := by
    intro name _
    rw [formed.get?_eq_none_below (by simp [free]) (by simp)]
    simp
  fit := fit

theorem carryOut_eq_ok {u : Unit} (done : (p.carryOut t).result = .ok u) :
    ∃ t₀, t.makeDirectory p.outputDirectory = .ok t₀ ∧
      writeAll t₀ (p.namedFiles.map (placed p.outputDirectory)) = ((p.carryOut t).tree, .ok ()) := by
  rw [carryOut, files_eq] at *
  cases made : t.makeDirectory p.outputDirectory with
  | error e =>
    rw [made] at done
    cases done
  | ok t₀ =>
    refine ⟨t₀, rfl, ?_⟩
    simp only [made] at done ⊢
    cases written : writeAll t₀ (p.namedFiles.map (placed p.outputDirectory)) with
    | mk t₁ result =>
      cases result with
      | error e =>
        rw [written] at done
        cases done
      | ok u => rfl

/-- A plan is carried out exactly when it is writable. -/
theorem carryOut_eq_ok_iff (proper : p.IsProper) :
    (p.carryOut t).result = .ok () ↔ p.IsWritable t := by
  have apart (name : String) : ¬p.outputDirectory ++ [name] <+: p.outputDirectory :=
    Place.not_append_prefix _ (by simp)
  constructor
  · intro done
    obtain ⟨t₀, made, written⟩ := carryOut_eq_ok done
    obtain ⟨-, way⟩ := FileTree.exists_makeDirectory_iff.1 ⟨t₀, made⟩
    have free := (FileTree.exists_writeAll_iff proper.directory proper.named).1 ⟨_, written⟩
    refine ⟨way, ?_, (free _ List.mem_cons_self).2.1⟩
    intro name mem
    obtain ⟨f, inside, rfl⟩ := List.mem_map.1 mem
    rw [← (FileTree.effect_of_makeDirectory made).2 _ (apart f.1)]
    exact (free f inside).2.2
  · intro writable
    have fit := (FileTree.fit_append.1 writable.fit).1
    obtain ⟨t₀, made⟩ := FileTree.exists_makeDirectory_iff.2
      ⟨fun name mem => (fit name mem).2, writable.way⟩
    obtain ⟨isOpen, others⟩ := FileTree.effect_of_makeDirectory made
    obtain ⟨t₁, written⟩ : ∃ t₁, writeAll t₀ (p.namedFiles.map (placed p.outputDirectory)) =
        (t₁, .ok ()) := by
      refine (FileTree.exists_writeAll_iff proper.directory proper.named).2 fun f mem =>
        ⟨isOpen, writable.fit_named mem, ?_⟩
      rw [others _ (apart f.1)]
      exact writable.files f.1 (List.mem_map_of_mem mem)
    rw [carryOut, made, files_eq]
    simp only [written]

/-- How the tree after a plan was carried out differs from the one before. -/
structure Effect (p : Plan) (t t' : FileTree) : Prop where
  /-- The output directory and all above it are directories. -/
  isOpen : t'.IsOpen p.outputDirectory
  /-- A name in the output directory holds what was written there last. -/
  named : ∀ name, t'.get? (p.outputDirectory ++ [name]) =
    ((p.written? name).map .file).or (t.get? (p.outputDirectory ++ [name]))
  /-- All other places are as they were. -/
  others : ∀ place, ¬place <+: p.outputDirectory → (∀ name, place ≠ p.outputDirectory ++ [name]) →
    t'.get? place = t.get? place

theorem effect_of_carryOut (proper : p.IsProper) (done : (p.carryOut t).result = .ok ()) :
    p.Effect t (p.carryOut t).tree := by
  obtain ⟨t₀, made, written⟩ := carryOut_eq_ok done
  obtain ⟨isOpen, outside⟩ := FileTree.effect_of_makeDirectory made
  obtain ⟨named, others⟩ := FileTree.effect_of_writeAll proper.directory proper.named written
  have beyond (above : Place) (before : above <+: p.outputDirectory) (name : String) :
      above ≠ p.outputDirectory ++ [name] := by
    rintro rfl
    exact Place.not_append_prefix _ (by simp) before
  constructor
  · intro above before
    rw [others above (beyond above before), isOpen above before]
  · intro name
    rw [named, outside _ fun before => beyond _ before name rfl]
    rfl
  · intro place apart away
    rw [others place away, outside place apart]

/-! ## What is kept and what is changed -/

section Effect

variable {t' : FileTree} {place : Place} {bytes : List UInt8} (effect : p.Effect t t')

include effect

/-- Whatever is neither on the way to the output directory nor a file of the plan is as it was. -/
theorem Effect.get?_eq (apart : ¬place <+: p.outputDirectory)
    (other : ∀ name, p.written? name ≠ none → place ≠ p.outputDirectory ++ [name]) :
    t'.get? place = t.get? place := by
  by_cases inside : ∃ name, place = p.outputDirectory ++ [name]
  · obtain ⟨name, rfl⟩ := inside
    have unwritten : p.written? name = none := by
      by_contra written
      exact other name written rfl
    rw [effect.named, unwritten]
    rfl
  · exact effect.others place apart fun name same => inside ⟨name, same⟩

theorem Effect.holds (written : p.written? name = some bytes) :
    t'.get? (p.outputDirectory ++ [name]) = some (.file bytes) := by
  rw [effect.named, written]
  rfl

variable (writable : p.IsWritable t)

include writable

theorem Effect.directory (held : t.get? place = some .directory) :
    t'.get? place = some .directory := by
  by_cases before : place <+: p.outputDirectory
  · exact effect.isOpen place before
  · rw [effect.get?_eq before, held]
    rintro name written rfl
    exact writable.files name (written?_ne_none_iff.1 written) held

/-- A path that led somewhere leads there still. -/
theorem Effect.reach {parts : List String} (reached : t.reach parts = .ok place) :
    t'.reach parts = .ok place :=
  FileTree.reach_of_directories (fun _ => effect.directory writable) reached

/-- A change is a file of the plan, or a new directory on the way to the output directory. -/
theorem Effect.of_ne (changed : t'.get? place ≠ t.get? place) :
    (∃ name, p.written? name ≠ none ∧ place = p.outputDirectory ++ [name]) ∨
      place <+: p.outputDirectory ∧ t.get? place = none ∧ t'.get? place = some .directory := by
  by_cases before : place <+: p.outputDirectory
  · have now := effect.isOpen place before
    refine .inr ⟨before, ?_, now⟩
    cases held : t.get? place with
    | none => rfl
    | some entry =>
      cases entry with
      | directory => exact absurd (now.trans held.symm) changed
      | file bytes => exact absurd held (writable.way place before bytes)
  · refine .inl ?_
    by_contra none
    refine changed (effect.get?_eq before fun name written same => none ⟨name, written, same⟩)

/-- A file that is not one of the plan is read as before. -/
theorem Effect.file (held : t.get? place = some (.file bytes))
    (other : ∀ name, p.written? name ≠ none → place ≠ p.outputDirectory ++ [name]) :
    t'.get? place = some (.file bytes) := by
  rw [effect.get?_eq ?_ other, held]
  intro before
  exact writable.way place before bytes held

/-- The files of a plan are read as they were written. -/
theorem Effect.read (proper : p.IsProper) (written : p.written? name = some bytes) :
    t'.status (p.outputDirectory ++ [name]) = .ok (some (.file bytes)) ∧
      t'.read (p.outputDirectory ++ [name]) = .ok bytes := by
  have mem := written?_ne_none_iff.1 (Option.ne_none_iff_exists'.2 ⟨bytes, written⟩)
  obtain ⟨f, inside, rfl⟩ := List.mem_map.1 mem
  refine FileTree.read_of_reach ?_ (effect.holds written)
  exact (FileTree.reach_append_singleton_iff proper.directory (proper.named f inside)).2
    ⟨rfl, writable.fit_named inside, effect.isOpen⟩

end Effect

/-- A pass keeps a tree well formed. -/
theorem isWellFormed_carryOut (proper : p.IsProper) (formed : t.IsWellFormed)
    (done : (p.carryOut t).result = .ok ()) : (p.carryOut t).tree.IsWellFormed := by
  obtain ⟨t₀, made, written⟩ := carryOut_eq_ok done
  exact (formed.makeDirectory proper.directory made).writeAll proper.directory proper.named written

end Plan

/-- A pass has a plan as its result exactly when the plan is made and carried out. -/
theorem generate_eq_ok_iff {s : Surroundings} {t : FileTree} {r : PassRequest} {p : Plan} :
    (generate s t r).result = .ok p ↔
      Plan.make s t r = .ok p ∧ (p.carryOut t).result = .ok () := by
  constructor
  · intro done
    exact ⟨(carried_of_generate done).1, (carried_of_generate done).2.1⟩
  · rintro ⟨made, carried⟩
    rw [generate, made]
    simp only [carried]
    rfl

end CallSiteIds
