import CallSiteIds.Path
import CallSiteIds.Proofs.Text.Splitting

/-!
# Proper places

A place is proper when all its names are names that a file can have.  Resolving a path that was
read from a text gives a proper place, whatever the text is, because its parts are cut at the
slashes and those that lead up are followed (`isProper_of_locate`).
-/

set_option autoImplicit false

namespace CallSiteIds

namespace Place

/-- A name that a file can have: it says something, does not lead up, and has no slash. -/
structure IsName (name : String) : Prop where
  step : Path.isStep name = true
  down : name ≠ Path.above
  whole : '/' ∉ name.toList

instance (name : String) : Decidable (IsName name) :=
  decidable_of_iff (Path.isStep name = true ∧ name ≠ Path.above ∧ '/' ∉ name.toList)
    ⟨fun h => ⟨h.1, h.2.1, h.2.2⟩, fun h => ⟨h.1, h.2, h.3⟩⟩

/-- A place all of whose names are names of files. -/
def IsProper (p : Place) : Prop :=
  ∀ name ∈ p, IsName name

instance (p : Place) : Decidable (IsProper p) :=
  inferInstanceAs (Decidable (∀ name ∈ p, IsName name))

@[simp] theorem isProper_nil : IsProper [] :=
  fun _ mem => absurd mem (List.not_mem_nil)

theorem isProper_append {p q : Place} : IsProper (p ++ q) ↔ IsProper p ∧ IsProper q :=
  List.forall_mem_append

theorem isProper_append_singleton {p : Place} {name : String} :
    IsProper (p ++ [name]) ↔ IsProper p ∧ IsName name := by
  rw [isProper_append]
  simp [IsProper]

/-- What lies below a place is not on the way to it. -/
theorem not_append_prefix (p : Place) {way : Place} (lower : way ≠ []) : ¬p ++ way <+: p := by
  intro before
  have long := before.length_le
  have deep := List.length_pos_iff.2 lower
  rw [List.length_append] at long
  omega

/-- What holds on every way to a place holds on the empty one and on those that start with its
first name. -/
theorem forall_prefix_cons_iff {name : String} {rest : Place} {holds : Place → Prop} :
    (∀ way, way <+: name :: rest → holds way) ↔
      holds [] ∧ ∀ way, way <+: rest → holds (name :: way) := by
  constructor
  · intro all
    exact ⟨all [] List.nil_prefix,
      fun way before => all _ (List.cons_prefix_cons.2 ⟨rfl, before⟩)⟩
  · rintro ⟨top, below⟩ way before
    cases way with
    | nil => exact top
    | cons n way =>
      obtain ⟨rfl, within⟩ := List.cons_prefix_cons.1 before
      exact below way within

end Place

open Place (IsProper)

namespace Path

/-- A path whose parts say something and have no slash. -/
def IsSplit (p : Path) : Prop :=
  ∀ part ∈ p.parts, isStep part = true ∧ '/' ∉ part.toList

theorem isSplit_ofString (s : String) : (ofString s).IsSplit := by
  intro part mem
  refine ⟨isStep_of_mem_parts mem, ?_⟩
  simp only [ofString, List.mem_filter, List.mem_map] at mem
  obtain ⟨⟨cs, inside, rfl⟩, -⟩ := mem
  rw [String.toList_ofList]
  exact Text.notMem_of_mem_splitAll inside

theorem IsSplit.expandHome {homeOf : String → Option String} {p q : Path} (split : p.IsSplit)
    (h : p.expandHome homeOf = .ok q) : q.IsSplit := by
  rw [Path.expandHome] at h
  split at h
  · rename_i first rest _ parts
    split at h
    · split at h
      · cases h
      · split at h
        · rename_i home _
          injection h with h
          subst h
          intro part mem
          rcases List.mem_append.1 mem with mem | mem
          · exact isSplit_ofString home part mem
          · exact split part (parts ▸ List.mem_cons_of_mem _ mem)
        · cases h
    · injection h with h
      exact h ▸ split
  · injection h with h
    exact h ▸ split

/-- A path that was read leads from a proper place to a proper place. -/
theorem IsSplit.isProper_of_resolve {start place : Place} {p : Path} (split : p.IsSplit)
    (proper : IsProper start) (h : p.resolve start = .ok place) : IsProper place := by
  rw [resolve] at h
  split at h
  · cases h
  · injection h with h
    subst h
    refine forall_mem_follow ?_ fun name mem down =>
      ⟨(split name mem).1, down, (split name mem).2⟩
    split
    · exact Place.isProper_nil
    · exact proper

theorem isProper_of_locate {s : Surroundings} {text : String} {place : Place}
    (working : IsProper s.workingDirectory) (h : (ofString text).locate s = .ok place) :
    IsProper place := by
  rw [locate] at h
  cases expanded : (ofString text).expandHome s.homeOf with
  | error e =>
    rw [expanded] at h
    cases h
  | ok p =>
    rw [expanded] at h
    exact ((isSplit_ofString text).expandHome expanded).isProper_of_resolve working h

/-! ## Joined names -/

/-- Names that were joined are read again. -/
theorem parts_ofString_intercalate {p : Place} (proper : IsProper p) :
    (ofString ("/".intercalate p)).parts = p := by
  induction p with
  | nil => rfl
  | cons name rest ih =>
    have named := proper name List.mem_cons_self
    have later := ih fun n mem => proper n (List.mem_cons_of_mem _ mem)
    cases rest with
    | nil =>
      rw [String.intercalate_singleton]
      simp [ofString, Text.splitAll_of_notMem named.whole, named.step]
    | cons next rest =>
      have joined : ("/".intercalate (name :: next :: rest)).toList =
          name.toList ++ '/' :: ("/".intercalate (next :: rest)).toList := by
        simp [String.intercalate_cons_cons]
      simp only [ofString] at later ⊢
      rw [joined, Text.splitAll_append_sep, Text.splitAll_of_notMem named.whole,
        List.singleton_append, List.map_cons, String.ofList_toList,
        List.filter_cons_of_pos named.step, later]

/-- The text of a proper place is read as the path of that place. -/
theorem ofString_text {p : Place} (proper : IsProper p) : ofString (Place.text p) = ⟨.top, p⟩ := by
  have parts := parts_ofString_intercalate proper
  have joined : (Place.text p).toList = '/' :: ("/".intercalate p).toList := by
    simp [Place.text]
  have slashes : ((Place.text p).toList.takeWhile (· == '/')).length = 1 := by
    rw [joined]
    cases p with
    | nil => rfl
    | cons name rest =>
      have named := proper name List.mem_cons_self
      obtain ⟨c, cs, whole⟩ : ∃ c cs, name.toList = c :: cs := by
        refine List.exists_cons_of_ne_nil fun empty => ?_
        have step := named.step
        rw [String.toList_eq_nil_iff.1 empty] at step
        exact absurd step (by decide)
      have other : c ≠ '/' := by
        rintro rfl
        exact named.whole (by simp [whole])
      have front : ("/".intercalate (name :: rest)).toList.head? = some c := by
        cases rest <;> simp [whole]
      obtain ⟨tail, text⟩ := List.head?_eq_some_iff.1 front
      simp [text, other]
  simp only [ofString] at parts ⊢
  rw [slashes, joined, Text.splitAll, if_pos rfl, List.map_cons,
    List.filter_cons_of_neg (by decide), parts]
  rfl

/-- Proper places are told apart by their joined names. -/
theorem eq_of_intercalate_eq {p q : Place} (proper : IsProper p) (proper' : IsProper q)
    (same : "/".intercalate p = "/".intercalate q) : p = q := by
  rw [← parts_ofString_intercalate proper, same, parts_ofString_intercalate proper']

end Path

end CallSiteIds
