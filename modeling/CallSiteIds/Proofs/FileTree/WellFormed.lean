import CallSiteIds.FileTree
import CallSiteIds.Proofs.Path.Names
import Mathlib.Data.List.Induction

/-!
# Well-formed trees

A tree is well formed when its names are names of files and whatever it holds stands in a
directory.  So nothing lies below a place that is no directory (`get?_eq_none_below`).  The path
of a proper place leads straight down: it reaches that place exactly when the directories on the
way are there and the names fit (`reach_proper_iff`).
-/

set_option autoImplicit false

namespace CallSiteIds

open Place (IsName IsProper)

namespace FileTree

variable {t t' : FileTree} {place below directory : Place} {name : String}

/-! ## Entries -/

theorem mem_of_findAt? {entry : Entry} {entries : List (Place × Entry)}
    (h : findAt? place entries = some entry) : (place, entry) ∈ entries := by
  induction entries with
  | nil => cases h
  | cons x rest ih =>
    rw [findAt?] at h
    split at h
    · rename_i here
      injection h with h
      rw [← here, ← h]
      exact List.mem_cons_self
    · exact List.mem_cons_of_mem _ (ih h)

theorem findAt?_of_mem {entry : Entry} {entries : List (Place × Entry)}
    (nodup : (entries.map Prod.fst).Nodup) (h : (place, entry) ∈ entries) :
    findAt? place entries = some entry := by
  induction entries with
  | nil => cases h
  | cons x rest ih =>
    rw [List.map_cons, List.nodup_cons] at nodup
    rw [findAt?]
    rcases List.mem_cons.1 h with rfl | h
    · exact if_pos rfl
    · have other : x.1 ≠ place := by
        rintro rfl
        exact nodup.1 (List.mem_map.2 ⟨_, h, rfl⟩)
      rw [if_neg other]
      exact ih nodup.2 h

/-- What lies below the top is held exactly where there is an entry. -/
theorem get?_eq_some_iff {entry : Entry} (lower : place ≠ []) :
    t.get? place = some entry ↔ (place, entry) ∈ t.entries := by
  rw [get?, if_neg lower]
  exact ⟨mem_of_findAt?, findAt?_of_mem t.nodup⟩

/-! ## Well-formed trees -/

/-- Every entry lies below the top under names of files, and in a directory. -/
structure IsWellFormed (t : FileTree) : Prop where
  proper : ∀ place ∈ t.entries.map Prod.fst, place ≠ [] ∧ IsProper place
  closed : ∀ (directory : Place) (name : String),
    t.get? (directory ++ [name]) ≠ none → t.get? directory = some .directory

/-- A tree is well formed when each of its entries is. -/
theorem isWellFormed_iff :
    t.IsWellFormed ↔ ∀ place ∈ t.entries.map Prod.fst,
      (place ≠ [] ∧ IsProper place) ∧ t.get? place.dropLast = some .directory := by
  constructor
  · intro formed place mem
    obtain ⟨lower, proper⟩ := formed.proper place mem
    refine ⟨⟨lower, proper⟩, formed.closed place.dropLast (place.getLast lower) ?_⟩
    obtain ⟨⟨p, entry⟩, inside, rfl⟩ := List.mem_map.1 mem
    rw [List.dropLast_concat_getLast lower, (get?_eq_some_iff lower).2 inside]
    simp
  · intro each
    refine ⟨fun place mem => (each place mem).1, fun directory name held => ?_⟩
    obtain ⟨entry, held⟩ := Option.ne_none_iff_exists'.1 held
    have above := (each _ (List.mem_map_of_mem ((get?_eq_some_iff (by simp)).1 held))).2
    rwa [List.dropLast_concat] at above

instance (t : FileTree) : Decidable t.IsWellFormed :=
  decidable_of_iff _ isWellFormed_iff.symm

/-- Whatever is held has only directories above it. -/
theorem IsWellFormed.directory_above (formed : t.IsWellFormed) {way : Place} (lower : way ≠ [])
    (held : t.get? (place ++ way) ≠ none) : t.get? place = some .directory := by
  induction way using List.reverseRecOn with
  | nil => exact absurd rfl lower
  | append_singleton way name ih =>
    rw [← List.append_assoc] at held
    have above := formed.closed _ _ held
    by_cases here : way = []
    · rwa [here, List.append_nil] at above
    · exact ih here (by simp [above])

/-- Nothing lies below a place that is no directory. -/
theorem IsWellFormed.get?_eq_none_below (formed : t.IsWellFormed)
    (other : t.get? place ≠ some .directory) {way : Place} (lower : way ≠ []) :
    t.get? (place ++ way) = none := by
  by_contra held
  exact other (formed.directory_above lower held)

theorem IsWellFormed.isProper_of_get? (formed : t.IsWellFormed) (held : t.get? place ≠ none) :
    IsProper place := by
  by_cases top : place = []
  · exact top ▸ Place.isProper_nil
  · obtain ⟨entry, held⟩ := Option.ne_none_iff_exists'.1 held
    exact (formed.proper place (List.mem_map_of_mem ((get?_eq_some_iff top).1 held))).2

/-- Putting something into a directory keeps a tree well formed, unless it replaces a directory by
a file. -/
theorem IsWellFormed.put (formed : t.IsWellFormed) {entry : Entry} (proper : IsProper directory)
    (named : IsName name) (inside : t.get? directory = some .directory)
    (kept : t.get? (directory ++ [name]) = some .directory → entry = .directory) :
    (t.put (directory ++ [name]) entry).IsWellFormed where
  proper := by
    intro place mem
    rcases mem_map_fst_putEntry.1 mem with rfl | mem
    · exact ⟨by simp, Place.isProper_append_singleton.2 ⟨proper, named⟩⟩
    · exact formed.proper place mem
  closed := by
    intro d n held
    have above : t.get? d = some .directory := by
      by_cases same : d ++ [n] = directory ++ [name]
      · rw [List.append_inj_left' same rfl]
        exact inside
      · rw [get?_put_ne t same] at held
        exact formed.closed d n held
    by_cases replaced : d = directory ++ [name]
    · rw [replaced] at above ⊢
      rw [kept above, get?_put_self t (by simp)]
    · rw [get?_put_ne t replaced, above]

/-- Nothing is erased at a place that holds nothing. -/
theorem IsWellFormed.erase_eq_self (formed : t.IsWellFormed) (free : t.get? place = none) :
    t.erase place = t := by
  have outside : ∀ e ∈ t.entries, (!place.isPrefixOf e.1) = true := by
    rintro ⟨p, entry⟩ mem
    rw [Bool.not_eq_true', Bool.eq_false_iff, ne_eq, List.isPrefixOf_iff_prefix]
    rintro ⟨way, rfl⟩
    have lower := (formed.proper _ (List.mem_map_of_mem mem)).1
    have held := (get?_eq_some_iff lower).2 mem
    by_cases here : way = []
    · rw [here, List.append_nil, free] at held
      cases held
    · rw [formed.get?_eq_none_below (by simp [free]) here] at held
      cases held
  unfold erase
  cases t with
  | mk entries nodup => simp only [List.filter_eq_self.2 outside]

/-! ## Paths that lead straight down -/

/-- The names fit into a directory. -/
def Fit (names : List String) : Prop :=
  ∀ name ∈ names, Path.holdsNull name = false ∧ (Text.utf8 name).length ≤ nameLimit

instance (names : List String) : Decidable (Fit names) :=
  inferInstanceAs (Decidable (∀ name ∈ names, _ ∧ _))

theorem fit_append {names more : List String} : Fit (names ++ more) ↔ Fit names ∧ Fit more :=
  List.forall_mem_append

/-- A place and all above it are directories. -/
def IsOpen (t : FileTree) (directory : Place) : Prop :=
  ∀ above, above <+: directory → t.get? above = some .directory

/-- In a well-formed tree all that is above a directory is a directory. -/
theorem IsWellFormed.isOpen_iff (formed : t.IsWellFormed) :
    t.IsOpen directory ↔ t.get? directory = some .directory := by
  constructor
  · exact fun isOpen => isOpen _ (List.prefix_refl _)
  · rintro held above ⟨way, rfl⟩
    by_cases here : way = []
    · rwa [here, List.append_nil] at held
    · exact formed.directory_above here (by simp [held])

theorem reachFrom_proper_iff {here reached : Place} {parts : Place} (proper : IsProper parts) :
    t.reachFrom here parts = .ok reached ↔
      reached = here ++ parts ∧ (∀ name ∈ parts, (Text.utf8 name).length ≤ nameLimit) ∧
        ∀ way, way <+: parts → way ≠ parts → t.get? (here ++ way) = some .directory := by
  induction parts generalizing here with
  | nil => simp [reachFrom, eq_comm]
  | cons part rest ih =>
    obtain ⟨named, proper⟩ := List.forall_mem_cons.1 proper
    rw [reachFrom_cons_eq_ok_iff, Path.step, if_neg named.down, ih proper,
      Place.forall_prefix_cons_iff, List.forall_mem_cons]
    simp only [List.append_assoc, List.singleton_append, List.append_nil, ne_eq, List.cons.injEq,
      true_and, reduceCtorEq, not_false_eq_true, forall_const]
    constructor
    · rintro ⟨held, short, same, shorts, further⟩
      exact ⟨same, ⟨short, shorts⟩, held, further⟩
    · rintro ⟨same, ⟨short, shorts⟩, held, further⟩
      exact ⟨held, short, same, shorts, further⟩

/-- The path of a proper place leads there and nowhere else, if the names fit and the directories
above it are there. -/
theorem reach_proper_iff {reached : Place} (proper : IsProper place) :
    t.reach place = .ok reached ↔
      reached = place ∧ Fit place ∧
        ∀ above, above <+: place → above ≠ place → t.get? above = some .directory := by
  rw [reach_eq_iff (by simp), reachFrom_proper_iff proper, Fit]
  simp only [List.nil_append]
  constructor
  · rintro ⟨plain, same, short, above⟩
    exact ⟨same, fun name mem => ⟨plain name mem, short name mem⟩, above⟩
  · rintro ⟨same, fit, above⟩
    exact ⟨fun name mem => (fit name mem).1, same, fun name mem => (fit name mem).2, above⟩

theorem reach_append_singleton_iff {reached : Place} (proper : IsProper directory)
    (named : IsName name) :
    t.reach (directory ++ [name]) = .ok reached ↔
      reached = directory ++ [name] ∧ Fit (directory ++ [name]) ∧ t.IsOpen directory := by
  rw [reach_proper_iff (Place.isProper_append_singleton.2 ⟨proper, named⟩)]
  refine and_congr_right fun _ => and_congr_right fun _ => ⟨?_, ?_⟩
  · intro above p before
    refine above p (before.trans (List.prefix_append _ _)) ?_
    rintro rfl
    exact Place.not_append_prefix directory (by simp) before
  · intro isOpen p before other
    rcases List.prefix_concat_iff.1 before with rfl | before
    · exact absurd rfl other
    · exact isOpen p before

/-- A path holds a name that does not fit, in a directory that the path reaches. -/
def IsCutOff (t : FileTree) (here : Place) (parts : List String) : Prop :=
  ∃ way name, way ++ [name] <+: parts ∧ nameLimit < (Text.utf8 name).length ∧
    (∀ n ∈ way, (Text.utf8 n).length ≤ nameLimit) ∧
    ∀ w, w <+: way → t.get? (here ++ w) = some .directory

/-- A path with a first name is cut off at this name, or further on. -/
theorem isCutOff_cons_iff {here : Place} {part : String} {rest : List String} :
    t.IsCutOff here (part :: rest) ↔
      t.get? here = some .directory ∧
        (nameLimit < (Text.utf8 part).length ∨ t.IsCutOff (here ++ [part]) rest) := by
  constructor
  · rintro ⟨way, name, before, long, shorts, further⟩
    cases way with
    | nil =>
      obtain ⟨rfl, -⟩ := List.cons_prefix_cons.1 before
      exact ⟨by simpa using further [] List.nil_prefix, .inl long⟩
    | cons n way =>
      obtain ⟨rfl, later⟩ := List.cons_prefix_cons.1 before
      obtain ⟨held, further⟩ := Place.forall_prefix_cons_iff.1 further
      rw [List.append_nil] at held
      refine ⟨held, .inr ⟨way, name, later, long, (List.forall_mem_cons.1 shorts).2,
        fun w within => ?_⟩⟩
      rw [← List.append_cons]
      exact further w within
  · rintro ⟨held, cut⟩
    by_cases first : nameLimit < (Text.utf8 part).length
    · exact ⟨[], part, by simp, first, by simp, by simpa using held⟩
    · obtain ⟨way, name, before, long, shorts, further⟩ := cut.resolve_left first
      refine ⟨part :: way, name, List.cons_prefix_cons.2 ⟨rfl, before⟩, long,
        List.forall_mem_cons.2 ⟨Nat.le_of_not_lt first, shorts⟩,
        Place.forall_prefix_cons_iff.2 ⟨by rwa [List.append_nil], fun w within => ?_⟩⟩
      rw [List.append_cons]
      exact further w within

theorem reachFrom_eq_tooLong_iff {here : Place} {parts : Place} (proper : IsProper parts) :
    t.reachFrom here parts = .error .nameTooLong ↔ t.IsCutOff here parts := by
  induction parts generalizing here with
  | nil => simp [reachFrom, IsCutOff]
  | cons part rest ih =>
    obtain ⟨named, proper⟩ := List.forall_mem_cons.1 proper
    rw [reachFrom_cons_eq_tooLong_iff, isCutOff_cons_iff, Path.step, if_neg named.down, ih proper]

/-- Looking at a proper place fails only for a name that does not fit. -/
theorem status_proper_eq_error_iff {e : FileError} (proper : IsProper place) :
    t.status place = .error e ↔
      e = .nameTooLong ∧ (∀ name ∈ place, Path.holdsNull name = false) ∧ t.IsCutOff [] place := by
  rw [status_eq_error_iff, reach_eq_iff (by simp), reachFrom_eq_tooLong_iff proper]

/-- What the path of a proper place leads to is what the place holds. -/
theorem get?_of_status {entry : Entry} (proper : IsProper place)
    (h : t.status place = .ok (some entry)) : t.get? place = some entry := by
  obtain ⟨p, reached, held⟩ := status_eq_some_iff.1 h
  obtain ⟨rfl, -, -⟩ := (reach_proper_iff proper).1 reached
  exact held

/-- What is read by the path of a proper place is what the place holds. -/
theorem get?_of_read {bytes : List UInt8} (proper : IsProper place)
    (h : t.read place = .ok bytes) :
    t.reach place = .ok place ∧ t.get? place = some (.file bytes) := by
  obtain ⟨p, reached, held⟩ := read_eq_ok_iff.1 h
  obtain ⟨rfl, -, -⟩ := (reach_proper_iff proper).1 reached
  exact ⟨reached, held⟩

/-- In a well-formed tree the path of a place that holds something leads there, if the names
fit. -/
theorem IsWellFormed.reach_of_get? (formed : t.IsWellFormed) (held : t.get? place ≠ none)
    (fit : Fit place) : t.reach place = .ok place := by
  refine (reach_proper_iff (formed.isProper_of_get? held)).2 ⟨rfl, fit, ?_⟩
  rintro above ⟨way, rfl⟩ other
  exact formed.directory_above (fun here => other (by simp [here])) held

end FileTree

end CallSiteIds
