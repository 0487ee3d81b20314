import CallSiteIds.Proofs.Pass.Effects

/-!
# Repeating a pass

A pass that wrote into a directory that was empty or not there has left all of its inputs as they
were: no file was written over another one, and a project without a configuration file has got
none.  So the same pass has the same plan again (`Effect.exists_inputs`) as long as the
configuration file can be looked up, and carrying out a plan twice changes nothing more
(`Effect.again`).
-/

set_option autoImplicit false

namespace CallSiteIds

namespace FileTree

/-- Nothing lies below a place. -/
def IsVacant (t : FileTree) (directory : Place) : Prop :=
  ∀ way, way ≠ [] → t.get? (directory ++ way) = none

theorem IsWellFormed.isVacant_of_free {t : FileTree} {directory : Place} (formed : t.IsWellFormed)
    (free : t.get? directory = none) : t.IsVacant directory :=
  fun _ lower => formed.get?_eq_none_below (by simp [free]) lower

end FileTree

namespace Plan

variable {s : Surroundings} {t t' t'' : FileTree} {r : PassRequest} {p : Plan} {place root : Place}
  {bytes : List UInt8} {config : Config}

/-- The descriptor file of a request with proper places is at a proper place. -/
theorem isProper_of_descriptorsOf (proper : r.root.IsProper)
    (given : ∀ file ∈ r.descriptors, file.IsProper) (h : descriptorsOf s r config = .ok place) :
    place.IsProper := by
  rw [descriptorsOf] at h
  split at h
  · rename_i file chosen
    injection h with h
    exact h ▸ given file chosen
  · exact Config.isProper_of_resolveDescriptors proper h

/-- A place has a name that does not fit, in a directory that a plan has to make. -/
def CutsOff (p : Plan) (t : FileTree) (root : Place) : Prop :=
  ∃ above name, above ++ [name] <+: root ∧ FileTree.nameLimit < (Text.utf8 name).length ∧
    above <+: p.outputDirectory ∧ t.get? above = none

section Effect

variable (effect : p.Effect t t') (writable : p.IsWritable t)
variable (vacant : t.IsVacant p.outputDirectory)

include effect writable vacant

/-- All files are left as they were. -/
theorem Effect.file_of_vacant (held : t.get? place = some (.file bytes)) :
    t'.get? place = some (.file bytes) := by
  refine effect.file writable held ?_
  rintro name - rfl
  rw [vacant [name] (by simp)] at held
  cases held

theorem Effect.read_of_vacant (proper : place.IsProper) (read : t.read place = .ok bytes) :
    t'.status place = .ok (some (.file bytes)) ∧ t'.read place = .ok bytes := by
  obtain ⟨reached, held⟩ := FileTree.get?_of_read proper read
  exact FileTree.read_of_reach (effect.reach writable reached)
    (effect.file_of_vacant writable vacant held)

/-- The same configuration is loaded again, if its file can be looked up. -/
theorem Effect.load_of_vacant {entry : Option Entry} (formed : t.IsWellFormed)
    (proper : root.IsProper) (named : p.summary.sourceName = config.sourceName)
    (loaded : Config.load t root = .ok config)
    (found : t'.status (root ++ [Config.fileName]) = .ok entry) :
    Config.load t' root = .ok config := by
  have fileProper : Place.IsProper (root ++ [Config.fileName]) :=
    Place.isProper_append_singleton.2 ⟨proper, by decide⟩
  obtain ⟨entry₀, status, ⟨bytes, rfl, read⟩ | ⟨other, rfl⟩⟩ := Config.load_eq_ok_iff.1 loaded
  · obtain ⟨place, reached, held⟩ := FileTree.status_eq_some_iff.1 status
    obtain ⟨status', -⟩ := FileTree.read_of_reach (effect.reach writable reached)
      (effect.file_of_vacant writable vacant held)
    exact Config.load_eq_ok_iff.2 ⟨_, status', .inl ⟨bytes, rfl, read⟩⟩
  · refine Config.load_eq_ok_iff.2 ⟨entry, found, .inr ⟨?_, rfl⟩⟩
    rintro bytes rfl
    obtain ⟨place, reached, held⟩ := FileTree.status_eq_some_iff.1 found
    obtain ⟨rfl, fit, -⟩ := (FileTree.reach_proper_iff fileProper).1 reached
    by_cases same : t'.get? (root ++ [Config.fileName]) = t.get? (root ++ [Config.fileName])
    · -- The file was there before, so it would have been found.
      rw [same] at held
      have reached' := formed.reach_of_get? (by simp [held]) fit
      rw [(FileTree.read_of_reach reached' held).1] at status
      exact other bytes (Except.ok.inj status).symm
    · rcases effect.of_ne writable same with ⟨name, written, here⟩ | ⟨-, -, directory⟩
      · refine fileName_ne_of_written ?_ written here
        rw [named]
        rintro ⟨-, source⟩
        exact absurd source (by decide)
      · rw [directory] at held
        cases held

omit vacant in
/-- The configuration file can be looked up after a pass as before it, unless the place of the
project has a name that does not fit, in a directory that the pass has made. -/
theorem Effect.cutOff_of_status {entry : Option Entry} {e : FileError} (formed : t.IsWellFormed)
    (proper : root.IsProper) (found : t.status (root ++ [Config.fileName]) = .ok entry)
    (lost : t'.status (root ++ [Config.fileName]) = .error e) :
    e = .nameTooLong ∧ p.CutsOff t root := by
  have fileProper : Place.IsProper (root ++ [Config.fileName]) :=
    Place.isProper_append_singleton.2 ⟨proper, by decide⟩
  obtain ⟨rfl, plain, way, name, before, long, shorts, open'⟩ :=
    (FileTree.status_proper_eq_error_iff fileProper).1 lost
  refine ⟨rfl, way, name, ?_, long, ?_⟩
  · rcases List.prefix_concat_iff.1 before with whole | within
    · obtain ⟨-, last⟩ := List.append_inj' whole rfl
      injection last with last
      rw [last] at long
      exact absurd long (by decide)
    · exact within
  · have held := open' way (List.prefix_refl _)
    have changed : t'.get? way ≠ t.get? way := by
      intro same
      have cut : t.status (root ++ [Config.fileName]) = .error .nameTooLong := by
        refine (FileTree.status_proper_eq_error_iff fileProper).2
          ⟨rfl, plain, way, name, before, long, shorts, ?_⟩
        exact formed.isOpen_iff.2 (same ▸ held)
      rw [found] at cut
      cases cut
    rcases effect.of_ne writable changed with ⟨n, written, rfl⟩ | ⟨within, free, -⟩
    · obtain ⟨bytes, written⟩ := Option.ne_none_iff_exists'.1 written
      rw [List.nil_append, effect.holds written] at held
      cases held
    · exact ⟨within, free⟩

/-- The inputs of a pass are read again after it, if the configuration file can be looked up. -/
theorem Effect.exists_inputs {entry : Option Entry} (formed : t.IsWellFormed)
    (bare : r.config = none) (proper : r.root.IsProper)
    (given : ∀ file ∈ r.descriptors, file.IsProper) (made : make s t r = .ok p)
    (found : t'.status (r.root ++ [Config.fileName]) = .ok entry) :
    ∃ config output file bytes, configOf t' r = .ok config ∧ outputOf r config = .ok output ∧
      descriptorsOf s r config = .ok file ∧ t'.read file = .ok bytes ∧
      p = ofBatch config output file (.ofBytes bytes) := by
  obtain ⟨config, output, file, bytes, configured, chosen, described, read, rfl⟩ :=
    make_eq_ok_iff.1 made
  have input := isProper_of_descriptorsOf proper given described
  refine ⟨config, output, file, bytes, ?_, chosen, described,
    (effect.read_of_vacant writable vacant input read).2, rfl⟩
  rw [configOf, bare] at configured ⊢
  exact effect.load_of_vacant writable vacant formed proper rfl configured found

end Effect

/-- A plan that was carried out can be carried out again. -/
theorem Effect.isWritable_again (effect : p.Effect t t') (writable : p.IsWritable t) :
    p.IsWritable t' := by
  refine isWritable_of_isOpen effect.isOpen ?_ writable.fit
  intro name mem
  obtain ⟨bytes, written⟩ := Option.ne_none_iff_exists'.1 (written?_ne_none_iff.2 mem)
  rw [effect.holds written]
  simp

/-- Carrying out a plan again changes nothing. -/
theorem Effect.again (effect : p.Effect t t') (effect' : p.Effect t' t'')
    (writable : p.IsWritable t') : t''.get? = t'.get? := by
  funext place
  by_contra changed
  rcases effect'.of_ne writable changed with ⟨name, written, rfl⟩ | ⟨before, free, -⟩
  · obtain ⟨bytes, written⟩ := Option.ne_none_iff_exists'.1 written
    rw [effect.holds written, effect'.holds written] at changed
    exact changed rfl
  · rw [effect.isOpen place before] at free
    cases free

end Plan

end CallSiteIds
