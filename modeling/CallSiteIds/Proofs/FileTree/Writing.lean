import CallSiteIds.Pass

/-!
# Writing files

A file that was written is read back, and writing one file changes no other.  The reason is
that writing never touches a directory: paths lead where they led before.  The three files of a
plan have different names in one directory, so each that is written after another leaves it as
it was.
-/

set_option autoImplicit false

namespace CallSiteIds

namespace FileTree

variable {t t' : FileTree} {parts other : List String} {place : Place} {bytes : List UInt8}

/-! ## Where paths lead -/

/-- A path leads where its last part leads from where the others lead. -/
theorem reachFrom_append (t : FileTree) (here : Place) (xs ys : List String) :
    t.reachFrom here (xs ++ ys) =
      match t.reachFrom here xs with
      | .error e => .error e
      | .ok place => t.reachFrom place ys := by
  induction xs generalizing here with
  | nil => rfl
  | cons x xs ih =>
    rw [List.cons_append, reachFrom, reachFrom]
    cases t.get? here with
    | none => rfl
    | some entry =>
      cases entry with
      | file bytes => rfl
      | directory =>
        simp only
        split
        · rfl
        · exact ih _

theorem reach_append_singleton {directory : List String} {name : String}
    (h : t.reach (directory ++ [name]) = .ok place) :
    ∃ base, t.reach directory = .ok base ∧ t.get? base = some .directory ∧
      place = Path.step base name := by
  obtain ⟨plain, h⟩ := (reach_eq_iff (by simp)).1 h
  rw [reachFrom_append] at h
  cases front : t.reachFrom [] directory with
  | error e =>
    rw [front] at h
    cases h
  | ok base =>
    rw [front] at h
    obtain ⟨held, -, last⟩ := reachFrom_cons_eq_ok_iff.1 h
    injection last with last
    exact ⟨base, (reach_eq_iff (by simp)).2 ⟨(List.forall_mem_append.1 plain).1, front⟩, held,
      last.symm⟩

theorem reachFrom_of_directories
    (stay : ∀ p, t.get? p = some .directory → t'.get? p = some .directory) {here : Place}
    (h : t.reachFrom here parts = .ok place) : t'.reachFrom here parts = .ok place := by
  induction parts generalizing here with
  | nil => exact h
  | cons part rest ih =>
    obtain ⟨held, short, further⟩ := reachFrom_cons_eq_ok_iff.1 h
    exact reachFrom_cons_eq_ok_iff.2 ⟨stay here held, short, ih further⟩

/-- Paths lead where they led as long as all directories stay. -/
theorem reach_of_directories
    (stay : ∀ p, t.get? p = some .directory → t'.get? p = some .directory)
    (h : t.reach parts = .ok place) : t'.reach parts = .ok place := by
  obtain ⟨plain, h⟩ := (reach_eq_iff (by simp)).1 h
  exact (reach_eq_iff (by simp)).2 ⟨plain, reachFrom_of_directories stay h⟩

/-! ## Writing one file -/

theorem directory_of_write (h : t.write parts bytes = .ok t') {p : Place}
    (held : t.get? p = some .directory) : t'.get? p = some .directory := by
  obtain ⟨place, -, noDirectory, rfl⟩ := write_eq_ok_iff.1 h
  have other : p ≠ place := by
    rintro rfl
    exact noDirectory held
  rw [get?_put_ne t other, held]

/-- Writing a file changes where no path leads. -/
theorem reach_of_write (h : t.write parts bytes = .ok t') {p : Place}
    (reached : t.reach other = .ok p) : t'.reach other = .ok p :=
  reach_of_directories (fun _ => directory_of_write h) reached

theorem holds_of_write (h : t.write parts bytes = .ok t') :
    ∃ place, t.reach parts = .ok place ∧ t'.get? place = some (.file bytes) := by
  obtain ⟨place, reached, noDirectory, rfl⟩ := write_eq_ok_iff.1 h
  have lower : place ≠ [] := by
    rintro rfl
    exact noDirectory (get?_nil t)
  exact ⟨place, reached, get?_put_self t lower _⟩

theorem get?_of_write (h : t.write parts bytes = .ok t') (reached : t.reach parts = .ok place)
    {p : Place} (ne : p ≠ place) : t'.get? p = t.get? p := by
  obtain ⟨q, reached', -, rfl⟩ := write_eq_ok_iff.1 h
  rw [reached] at reached'
  injection reached' with e
  subst e
  exact get?_put_ne t ne _

theorem read_of_reach (reached : t.reach parts = .ok place)
    (held : t.get? place = some (.file bytes)) :
    t.status parts = .ok (some (.file bytes)) ∧ t.read parts = .ok bytes :=
  ⟨status_eq_some_iff.2 ⟨place, reached, held⟩, read_eq_ok_iff.2 ⟨place, reached, held⟩⟩

end FileTree

/-! ## Carrying out a plan -/

open FileTree

namespace Plan

variable {p : Plan} {t : FileTree}

/-- A plan that is carried out writes its three files one after the other. -/
theorem writes_of_carryOut (done : (p.carryOut t).result = .ok ()) :
    ∃ t₀ t₁ t₂ : FileTree, t₀.write p.sourcePlace (Text.utf8 p.source) = .ok t₁ ∧
      t₁.write p.manifestPlace p.manifestBytes = .ok t₂ ∧
      t₂.write p.summaryPlace p.summaryBytes = .ok (p.carryOut t).tree := by
  rw [carryOut] at done ⊢
  cases made : t.makeDirectory p.outputDirectory with
  | error e =>
    rw [made] at done
    cases done
  | ok t₀ =>
    simp only [made, files, writeAll] at done ⊢
    cases source : t₀.write p.sourcePlace (Text.utf8 p.source) with
    | error e =>
      rw [source] at done
      cases done
    | ok t₁ =>
      simp only [source] at done ⊢
      cases manifest : t₁.write p.manifestPlace p.manifestBytes with
      | error e =>
        rw [manifest] at done
        cases done
      | ok t₂ =>
        simp only [manifest] at done ⊢
        cases summary : t₂.write p.summaryPlace p.summaryBytes with
        | error e =>
          rw [summary] at done
          cases done
        | ok t₃ => exact ⟨t₀, t₁, t₂, source, manifest, summary⟩

/-- A plan whose files can be written one after the other is carried out. -/
theorem carryOut_of_writes {t₀ t₁ t₂ t₃ : FileTree}
    (made : t.makeDirectory p.outputDirectory = .ok t₀)
    (source : t₀.write p.sourcePlace (Text.utf8 p.source) = .ok t₁)
    (manifest : t₁.write p.manifestPlace p.manifestBytes = .ok t₂)
    (summary : t₂.write p.summaryPlace p.summaryBytes = .ok t₃) :
    (p.carryOut t).result = .ok () := by
  rw [carryOut, made]
  simp only [files, writeAll, source, manifest, summary]

/-- The directory and the files that a plan leaves behind when it is carried out.  The source is
only said to be there, for its name may be that of another file. -/
structure Leaves (p : Plan) (t : FileTree) : Prop where
  directory : t.status p.outputDirectory = .ok (some .directory)
  manifest : t.status p.manifestPlace = .ok (some (.file p.manifestBytes)) ∧
    t.read p.manifestPlace = .ok p.manifestBytes
  summary : t.status p.summaryPlace = .ok (some (.file p.summaryBytes)) ∧
    t.read p.summaryPlace = .ok p.summaryBytes
  source : ∃ entry, t.status p.sourcePlace = .ok entry

/-- A plan that is carried out leaves its manifest and its summary behind. -/
theorem leaves_of_carryOut (done : (p.carryOut t).result = .ok ()) :
    p.Leaves (p.carryOut t).tree := by
  obtain ⟨t₀, t₁, t₂, source, manifest, summary⟩ := writes_of_carryOut done
  obtain ⟨sourceAt, sourceReached, -⟩ := holds_of_write source
  obtain ⟨manifestAt, manifestReached, manifestHeld⟩ := holds_of_write manifest
  obtain ⟨summaryAt, summaryReached, summaryHeld⟩ := holds_of_write summary
  have manifestReached₂ := reach_of_write manifest manifestReached
  have manifestReached₃ := reach_of_write summary manifestReached₂
  have summaryReached₃ := reach_of_write summary summaryReached
  have sourceReached₃ := reach_of_write summary
    (reach_of_write manifest (reach_of_write source sourceReached))
  obtain ⟨base, baseReached, baseHeld, manifestStep⟩ := reach_append_singleton manifestReached₃
  obtain ⟨base', baseReached', -, summaryStep⟩ := reach_append_singleton summaryReached₃
  -- Both files lie in one directory under different names.
  have different : manifestAt ≠ summaryAt := by
    rw [baseReached] at baseReached'
    injection baseReached' with e
    subst e
    rw [manifestStep, summaryStep, Path.step, if_neg (by decide), Path.step,
      if_neg (by decide)]
    intro e
    have := List.append_cancel_left e
    exact absurd this (by decide)
  have manifestHeld₃ := manifestHeld
  rw [← get?_of_write summary summaryReached different] at manifestHeld₃
  exact {
    directory := by
      rw [status, baseReached]
      exact congrArg Except.ok baseHeld
    manifest := read_of_reach manifestReached₃ manifestHeld₃
    summary := read_of_reach summaryReached₃ summaryHeld
    source := ⟨(carryOut p t).tree.get? sourceAt, by rw [status, sourceReached₃]⟩ }

end Plan

/-- A pass that has a plan as its result has made the plan and carried it out. -/
theorem carried_of_generate {s : Surroundings} {t : FileTree} {r : PassRequest} {p : Plan}
    (done : (generate s t r).result = .ok p) :
    Plan.make s t r = .ok p ∧ (p.carryOut t).result = .ok () ∧
      (generate s t r).tree = (p.carryOut t).tree := by
  rw [generate] at done ⊢
  cases made : Plan.make s t r with
  | error e =>
    rw [made] at done
    cases done
  | ok q =>
    simp only [made] at done ⊢
    cases carried : (q.carryOut t).result with
    | error e =>
      rw [carried] at done
      cases done
    | ok u =>
      rw [carried] at done
      injection done with same
      subst same
      exact ⟨rfl, carried, rfl⟩

end CallSiteIds
