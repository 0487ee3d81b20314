import CallSiteIds.Proofs.Pass.Effects
import CallSiteIds.Proofs.Path.Lexical

/-!
# Output within the project

The output directory that a project asks for is taken from its root.  It is accepted exactly when
the two texts, joined and read by their segments, name a place at the root or below it, however
the way to it goes (`resolveOutput_eq_ok_iff`).  The files of a pass lie in that directory, so all
that the pass changes lies below the root (`output_within_root`).
-/

set_option autoImplicit false

namespace CallSiteIds

open Place (IsName)

namespace Config

/-! ## The directory -/

variable {root place : Place} {text : String}

/-- A text without a null character is either accepted or reported. -/
theorem resolveOutput_of_plain (plain : '\x00' ∉ text.toList) :
    resolveOutput root text =
      if text = "" then .error (.config .outputEmpty)
      else if text.toList.head? = some '~' ∨ text.toList.head? = some '/' then
        .error (.config .outputNotRelative)
      else if root <+: Path.follow root (Path.ofString text).parts then
        .ok (Path.follow root (Path.ofString text).parts)
      else .error (.config (.outputEscapes text)) := by
  unfold resolveOutput
  by_cases empty : text = ""
  · rw [if_pos empty, if_pos empty]
  rw [if_neg empty, if_neg empty]
  by_cases tilde : text.toList.head? = some '~'
  · rw [if_pos tilde, if_pos (Or.inl tilde)]
  by_cases slash : text.toList.head? = some '/'
  · have absolute := Path.isAbsolute_ofString_iff.2 slash
    rw [if_neg tilde, if_pos (Or.inr slash)]
    simp only [absolute, if_true]
  · have relative : ¬(Path.ofString text).isAbsolute = true :=
      mt Path.isAbsolute_ofString_iff.1 slash
    have resolved := Path.resolve_of_plain plain root
    rw [if_neg relative] at resolved
    rw [if_neg tilde, if_neg (not_or.2 ⟨tilde, slash⟩)]
    simp only [relative, Bool.false_eq_true, if_false, resolved, List.isPrefixOf_iff_prefix]

/-- An output directory is accepted when it names a place at the root or below it. -/
theorem resolveOutput_eq_ok_iff {rootText : String} (at' : LexicallyAt rootText root)
    (plain : '\x00' ∉ text.toList) :
    resolveOutput root text = .ok place ↔
      text ≠ "" ∧ text.toList.head? ≠ some '~' ∧ text.toList.head? ≠ some '/' ∧
        LexicallyAt (rootText ++ "/" ++ text) place ∧ root <+: place := by
  rw [resolveOutput_of_plain plain, Path.lexicallyAt_join_iff at']
  by_cases empty : text = ""
  · simp [empty]
  rw [if_neg empty]
  split
  · rename_i front
    constructor
    · rintro ⟨⟩
    · rintro ⟨-, tilde, slash, -⟩
      rcases front with front | front <;> contradiction
  · rename_i front
    rw [not_or] at front
    split
    · rename_i below
      constructor
      · rintro ⟨⟩
        exact ⟨empty, front.1, front.2, rfl, below⟩
      · rintro ⟨-, -, -, rfl, -⟩
        rfl
    · rename_i beside
      constructor
      · rintro ⟨⟩
      · rintro ⟨-, -, -, rfl, below⟩
        exact absurd below beside

theorem resolveOutput_reports (plain : '\x00' ∉ text.toList) :
    (∃ place, resolveOutput root text = .ok place) ∨
      ∃ e, resolveOutput root text = .error (.config e) := by
  rw [resolveOutput_of_plain plain]
  split
  · exact .inr ⟨_, rfl⟩
  split
  · exact .inr ⟨_, rfl⟩
  split
  · exact .inl ⟨_, rfl⟩
  · exact .inr ⟨_, rfl⟩

end Config

/-! ## The files -/

namespace Plan

variable {p : Plan} {root : Place}

/-- The files of a proper plan lie in its output directory, each under one name. -/
theorem IsProper.exists_name (proper : p.IsProper) {f : Place × List UInt8} (mem : f ∈ p.files) :
    ∃ name, IsName name ∧ f.1 = p.outputDirectory ++ [name] := by
  rw [files_eq] at mem
  obtain ⟨g, inside, rfl⟩ := List.mem_map.1 mem
  exact ⟨g.1, proper.named g inside, rfl⟩

/-- A pass with an output directory at the root or below it changes nothing that is not below the
root, when the root is there. -/
theorem below_of_changed {t : FileTree} (proper : p.IsProper)
    (within : root <+: p.outputDirectory) (isOpen : t.IsOpen root)
    (done : (p.carryOut t).result = .ok ()) {place : Place}
    (changed : (p.carryOut t).tree.get? place ≠ t.get? place) : root <+: place ∧ place ≠ root := by
  have writable := (carryOut_eq_ok_iff proper).1 done
  rcases (effect_of_carryOut proper done).of_ne writable changed with
    ⟨name, -, rfl⟩ | ⟨before, vacant, -⟩
  · refine ⟨within.trans (List.prefix_append _ _), ?_⟩
    rintro rfl
    exact Place.not_append_prefix _ (by simp) within
  · have apart : ¬place <+: root := by
      intro above
      rw [isOpen place above] at vacant
      cases vacant
    rcases List.prefix_or_prefix_of_prefix before within with above | below
    · exact absurd above apart
    · refine ⟨below, ?_⟩
      rintro rfl
      exact apart (List.prefix_refl _)

end Plan

/-! ## Containment -/

/-- What is known of the output of a project at a root that a text names: which texts are accepted
as an output directory, and where the files of a pass lie that is not given a directory. -/
structure KeepsOutputWithin (rootText : String) (root : Place) : Prop where
  named : LexicallyAt rootText root
  proper : root.IsProper
  accepted : ∀ text place, '\x00' ∉ text.toList →
    (Config.resolveOutput root text = .ok place ↔
      text ≠ "" ∧ text.toList.head? ≠ some '~' ∧ text.toList.head? ≠ some '/' ∧
        LexicallyAt (rootText ++ "/" ++ text) place ∧ root <+: place)
  reported : ∀ text, '\x00' ∉ text.toList →
    (∀ place, Config.resolveOutput root text ≠ .ok place) →
      ∃ e, Config.resolveOutput root text = .error (.config e)
  steps : ∀ text place, Config.resolveOutput root text = .ok place →
    ∀ name ∈ place, name ≠ "" ∧ name ≠ "." ∧ name ≠ ".." ∧ '/' ∉ name.toList
  /-- A pass writes into the directory of its configuration, and what it changes is below the
  root. -/
  files : ∀ s t r p, r.root = root → r.outputDirectory = none → (∀ c ∈ r.config, c.IsAccepted) →
    Plan.make s t r = .ok p →
      (∃ config, Plan.configOf t r = .ok config ∧
        Config.resolveOutput root config.outputDirectory = .ok p.outputDirectory) ∧
      (∀ f ∈ p.files, root <+: f.1 ∧ f.1 ≠ root ∧
        ∃ name, IsName name ∧ f.1 = p.outputDirectory ++ [name]) ∧
      (t.IsOpen root → (p.carryOut t).result = .ok () → ∀ place,
        (p.carryOut t).tree.get? place ≠ t.get? place → root <+: place ∧ place ≠ root)

/-- Whatever a project asks for, its output lies within its root, and output that would not is
reported. -/
theorem output_within_root (start : Place) {rootText : String}
    (absolute : rootText.toList.head? = some '/') (plain : '\x00' ∉ rootText.toList) :
    ∃ root, (Path.ofString rootText).resolve start = .ok root ∧
      KeepsOutputWithin rootText root := by
  have resolved := Path.resolve_of_plain plain start
  rw [if_pos (Path.isAbsolute_ofString_iff.2 absolute)] at resolved
  have named : LexicallyAt rootText _ := Path.lexicallyAt_iff.2 rfl
  have fromTop := Path.resolve_of_plain plain []
  rw [ite_self] at fromTop
  have proper : Place.IsProper (Path.follow [] (Path.ofString rootText).parts) :=
    (Path.isSplit_ofString rootText).isProper_of_resolve Place.isProper_nil fromTop
  refine ⟨_, resolved, ?_⟩
  exact {
    named := named
    proper := proper
    accepted := fun text place plain => Config.resolveOutput_eq_ok_iff named plain
    reported := by
      intro text plain rejected
      rcases Config.resolveOutput_reports plain with ⟨place, ok⟩ | reported
      · exact absurd ok (rejected place)
      · exact reported
    steps := by
      intro text place ok name mem
      have named := Config.isProper_of_resolveOutput proper ok name mem
      have step := named.step
      simp only [Path.isStep, Bool.and_eq_true, bne_iff_ne, ne_eq] at step
      exact ⟨step.1, step.2, named.down, named.whole⟩
    files := by
      intro s t r p atRoot absent accepted made
      obtain ⟨config, output, descriptors, bytes, configured, chosen, -, -, same⟩ :=
        Plan.make_eq_ok_iff.1 made
      have planned : p.IsProper :=
        Plan.isProper_of_make (by rw [atRoot]; exact fun _ => proper) (by simp [absent]) accepted
          made
      have directory : output = p.outputDirectory := by rw [same]; rfl
      rw [Plan.outputOf, absent] at chosen
      simp only [atRoot, directory] at chosen
      have within := (Config.resolve_of_resolveOutput chosen).2
      refine ⟨⟨config, configured, chosen⟩, ?_, ?_⟩
      · intro f mem
        obtain ⟨name, named, same⟩ := planned.exists_name mem
        rw [same]
        refine ⟨within.trans (List.prefix_append _ _), ?_, name, named, rfl⟩
        intro same
        exact Place.not_append_prefix _ (by simp) (same ▸ within)
      · intro isOpen done place changed
        exact Plan.below_of_changed planned within isOpen done changed }

/-- A way out of the root and back is accepted, and a directory beside the root is not, although
the text of its place starts with that of the root. -/
theorem output_within_a_b :
    "/a/b".toList.head? = some '/' ∧ '\x00' ∉ "/a/b".toList ∧
      KeepsOutputWithin "/a/b" ["a", "b"] ∧
      Config.resolveOutput ["a", "b"] "../b//./c" = .ok ["a", "b", "c"] ∧
      Config.resolveOutput ["a", "b"] "../bc" = .error (.config (.outputEscapes "../bc")) := by
  have absolute : "/a/b".toList.head? = some '/' := by decide
  have plain : '\x00' ∉ "/a/b".toList := by decide
  obtain ⟨root, resolved, within⟩ := output_within_root [] absolute plain
  obtain rfl : ["a", "b"] = root := Except.ok.inj resolved
  exact ⟨absolute, plain, within, by decide, by decide⟩

end CallSiteIds
