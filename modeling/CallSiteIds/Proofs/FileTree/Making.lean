import CallSiteIds.Proofs.FileTree.WellFormed
import CallSiteIds.Proofs.FileTree.Writing

/-!
# Making directories and writing files into them

Making a directory puts directories on the way to it and changes nothing else.  Writing files
into a directory one after the other leaves at each name what was written there last
(`lastOf?`), and changes nothing else.  Both succeed under conditions on the tree before, which
are stated exactly (`exists_makeDirectory_iff`, `exists_writeAll_iff`), and keep a tree well
formed.
-/

set_option autoImplicit false

namespace CallSiteIds

open Place (IsName IsProper)

namespace FileTree

variable {t t' : FileTree} {here directory place : Place} {names : List String} {name : String}

/-! ## Directories -/

/-- A place is a directory or holds nothing. -/
def AdmitsDirectory (t : FileTree) (place : Place) : Prop :=
  ∀ bytes, t.get? place ≠ some (.file bytes)

/-- The tree with a directory at a place. -/
def withDirectory (t : FileTree) (place : Place) : FileTree :=
  if t.get? place = some .directory then t else t.put place .directory

theorem get?_withDirectory (t : FileTree) (lower : place ≠ []) (p : Place) :
    (t.withDirectory place).get? p = if p = place then some .directory else t.get? p := by
  unfold withDirectory
  by_cases here : p = place
  · subst here
    rw [if_pos rfl]
    split
    · assumption
    · exact get?_put_self t lower _
  · rw [if_neg here]
    split
    · rfl
    · exact get?_put_ne t here _

/-- One step of making directories: the name fits, no file is in the way, and the rest is made
with a directory there. -/
theorem makeFrom_cons_iff {rest : List String} :
    t.makeFrom here (name :: rest) = .ok t' ↔
      (Text.utf8 name).length ≤ nameLimit ∧ t.AdmitsDirectory (here ++ [name]) ∧
        (t.withDirectory (here ++ [name])).makeFrom (here ++ [name]) rest = .ok t' := by
  rw [makeFrom]
  by_cases long : nameLimit < (Text.utf8 name).length
  · rw [if_pos long]
    refine iff_of_false (by simp) fun h => ?_
    exact Nat.not_le.2 long h.1
  · rw [if_neg long]
    have short := Nat.le_of_not_lt long
    unfold AdmitsDirectory withDirectory
    cases held : t.get? (here ++ [name]) with
    | none => simp [held, short]
    | some entry => cases entry <;> simp [held, short]

/-- All places on the way are directories afterwards, and nothing else has changed. -/
theorem effect_of_makeFrom (h : t.makeFrom here names = .ok t') :
    (∀ way, way <+: names → way ≠ [] → t'.get? (here ++ way) = some .directory) ∧
      ∀ p, (∀ way, way <+: names → way ≠ [] → p ≠ here ++ way) → t'.get? p = t.get? p := by
  induction names generalizing t here with
  | nil =>
    injection h with h
    subst h
    exact ⟨fun way before lower => absurd (List.prefix_nil.1 before) lower, fun p _ => rfl⟩
  | cons name rest ih =>
    obtain ⟨-, -, made⟩ := makeFrom_cons_iff.1 h
    obtain ⟨later, others⟩ := ih made
    have first : (t.withDirectory (here ++ [name])).get? (here ++ [name]) = some .directory := by
      rw [get?_withDirectory t (by simp), if_pos rfl]
    simp only [Place.forall_prefix_cons_iff, ne_eq, not_true_eq_false, false_implies, true_and,
      reduceCtorEq, not_false_eq_true, true_implies]
    constructor
    · intro way within
      rw [List.append_cons]
      by_cases last : way = []
      · rw [last, List.append_nil, others, first]
        intro way _ lower same
        simp [lower] at same
      · exact later way within last
    · intro p outside
      rw [others, get?_withDirectory t (by simp), if_neg]
      · exact outside [] List.nil_prefix
      · intro way within _
        rw [← List.append_cons]
        exact outside way within

/-- Directories can be made exactly when the names fit and no file is on the way. -/
theorem exists_makeFrom_iff :
    (∃ t', t.makeFrom here names = .ok t') ↔
      (∀ n ∈ names, (Text.utf8 n).length ≤ nameLimit) ∧
        ∀ way, way <+: names → way ≠ [] → t.AdmitsDirectory (here ++ way) := by
  induction names generalizing t here with
  | nil =>
    refine iff_of_true ⟨t, rfl⟩ ⟨by simp, fun way before lower => ?_⟩
    exact absurd (List.prefix_nil.1 before) lower
  | cons name rest ih =>
    have below (way : Place) (lower : way ≠ []) :
        (t.withDirectory (here ++ [name])).AdmitsDirectory (here ++ [name] ++ way) ↔
          t.AdmitsDirectory (here ++ name :: way) := by
      unfold AdmitsDirectory
      rw [get?_withDirectory t (by simp), if_neg (by simp [lower]), ← List.append_cons]
    simp only [makeFrom_cons_iff, exists_and_left, ih, List.forall_mem_cons,
      Place.forall_prefix_cons_iff, ne_eq, not_true_eq_false, false_implies, true_and,
      reduceCtorEq, not_false_eq_true, true_implies]
    constructor
    · rintro ⟨short, free, shorts, later⟩
      refine ⟨⟨short, shorts⟩, fun way within => ?_⟩
      by_cases last : way = []
      · rwa [last]
      · exact (below way last).1 (later way within last)
    · rintro ⟨⟨short, shorts⟩, admits⟩
      exact ⟨short, admits [] List.nil_prefix, shorts,
        fun way within lower => (below way lower).2 (admits way within)⟩

/-- A directory that was made is there with all above it, and nothing else has changed. -/
theorem effect_of_makeDirectory (h : t.makeDirectory directory = .ok t') :
    t'.IsOpen directory ∧ ∀ p, ¬p <+: directory → t'.get? p = t.get? p := by
  obtain ⟨made, others⟩ := effect_of_makeFrom h
  constructor
  · intro above before
    by_cases top : above = []
    · rw [top, get?_nil]
    · exact made above before top
  · intro p outside
    refine others p fun way before _ same => outside ?_
    rwa [same]

theorem exists_makeDirectory_iff :
    (∃ t', t.makeDirectory directory = .ok t') ↔
      (∀ n ∈ directory, (Text.utf8 n).length ≤ nameLimit) ∧
        ∀ above, above <+: directory → t.AdmitsDirectory above := by
  rw [makeDirectory, exists_makeFrom_iff]
  refine and_congr_right fun _ => ⟨fun admits above before => ?_, fun admits way before _ =>
    admits way before⟩
  by_cases top : above = []
  · subst top
    intro bytes
    simp
  · exact admits above before top

theorem IsWellFormed.makeFrom (formed : t.IsWellFormed) (proper : IsProper here)
    (held : t.get? here = some .directory) (named : ∀ n ∈ names, IsName n)
    (h : t.makeFrom here names = .ok t') : t'.IsWellFormed := by
  induction names generalizing t here with
  | nil =>
    injection h with h
    exact h ▸ formed
  | cons name rest ih =>
    obtain ⟨-, -, made⟩ := makeFrom_cons_iff.1 h
    have own := named name List.mem_cons_self
    refine ih ?_ (Place.isProper_append_singleton.2 ⟨proper, own⟩) ?_
      (fun n mem => named n (List.mem_cons_of_mem _ mem)) made
    · unfold withDirectory
      split
      · exact formed
      · exact formed.put proper own held fun _ => rfl
    · rw [get?_withDirectory t (by simp), if_pos rfl]

/-- Making a directory at a proper place keeps a tree well formed. -/
theorem IsWellFormed.makeDirectory (formed : t.IsWellFormed) (proper : IsProper directory)
    (h : t.makeDirectory directory = .ok t') : t'.IsWellFormed :=
  formed.makeFrom Place.isProper_nil (get?_nil t) proper h

/-! ## Files in one directory -/

/-- A file with its place in a directory. -/
def placed (directory : Place) (f : String × List UInt8) : Place × List UInt8 :=
  (directory ++ [f.1], f.2)

/-- What was written under a name last. -/
def lastOf? (name : String) : List (String × List UInt8) → Option (List UInt8)
  | [] => none
  | f :: rest => (lastOf? name rest).or (if f.1 = name then some f.2 else none)

theorem lastOf?_eq_none_iff {files : List (String × List UInt8)} :
    lastOf? name files = none ↔ name ∉ files.map Prod.fst := by
  induction files with
  | nil => simp [lastOf?]
  | cons f rest ih =>
    rw [lastOf?, Option.or_eq_none_iff, ih, List.map_cons, List.mem_cons, not_or, and_comm]
    refine and_congr_left fun _ => ?_
    by_cases same : f.1 = name
    · simp [same]
    · simp [same, Ne.symm same]

theorem mem_of_lastOf? {files : List (String × List UInt8)} {bytes : List UInt8}
    (h : lastOf? name files = some bytes) : (name, bytes) ∈ files := by
  induction files with
  | nil => cases h
  | cons f rest ih =>
    rw [lastOf?, Option.or_eq_some_iff] at h
    rcases h with h | ⟨-, h⟩
    · exact List.mem_cons_of_mem _ (ih h)
    · split at h
      · rename_i same
        injection h with h
        rw [← same, ← h]
        exact List.mem_cons_self
      · cases h

/-- A file that takes no directory's place leaves all directories as they are. -/
theorem get?_put_file_eq_directory_iff (bytes : List UInt8) (lower : place ≠ [])
    (other : t.get? place ≠ some .directory) (p : Place) :
    (t.put place (.file bytes)).get? p = some .directory ↔ t.get? p = some .directory := by
  by_cases here : p = place
  · subst here
    rw [get?_put_self t lower]
    exact iff_of_false (by simp) other
  · rw [get?_put_ne t here]

theorem write_placed_iff (proper : IsProper directory) (named : IsName name)
    (bytes : List UInt8) :
    t.write (directory ++ [name]) bytes = .ok t' ↔
      t.IsOpen directory ∧ Fit (directory ++ [name]) ∧
        t.get? (directory ++ [name]) ≠ some .directory ∧
        t' = t.put (directory ++ [name]) (.file bytes) := by
  constructor
  · intro h
    obtain ⟨place, reached, other, rfl⟩ := write_eq_ok_iff.1 h
    obtain ⟨rfl, fit, isOpen⟩ := (reach_append_singleton_iff proper named).1 reached
    exact ⟨isOpen, fit, other, rfl⟩
  · rintro ⟨isOpen, fit, other, rfl⟩
    exact write_eq_ok_iff.2
      ⟨_, (reach_append_singleton_iff proper named).2 ⟨rfl, fit, isOpen⟩, other, rfl⟩

theorem writeAll_cons_iff {f : Place × List UInt8} {rest : List (Place × List UInt8)} :
    writeAll t (f :: rest) = (t', .ok ()) ↔
      ∃ s, t.write f.1 f.2 = .ok s ∧ writeAll s rest = (t', .ok ()) := by
  rw [writeAll]
  cases t.write f.1 f.2 <;> simp

section Placed

variable {files : List (String × List UInt8)}

/-- Each name holds what was written there last, and nothing else has changed. -/
theorem effect_of_writeAll (proper : IsProper directory) (named : ∀ f ∈ files, IsName f.1)
    (h : writeAll t (files.map (placed directory)) = (t', .ok ())) :
    (∀ name, t'.get? (directory ++ [name]) =
        ((lastOf? name files).map .file).or (t.get? (directory ++ [name]))) ∧
      ∀ p, (∀ name, p ≠ directory ++ [name]) → t'.get? p = t.get? p := by
  induction files generalizing t with
  | nil =>
    injection h with h
    subst h
    exact ⟨fun name => rfl, fun p _ => rfl⟩
  | cons f rest ih =>
    obtain ⟨s, written, later⟩ := writeAll_cons_iff.1 h
    obtain ⟨-, -, -, rfl⟩ := (write_placed_iff proper (named f List.mem_cons_self) f.2).1 written
    obtain ⟨inside, outside⟩ := ih (fun g mem => named g (List.mem_cons_of_mem _ mem)) later
    constructor
    · intro name
      rw [inside, lastOf?]
      by_cases same : f.1 = name
      · rw [if_pos same, same, get?_put_self t (by simp)]
        cases lastOf? name rest <;> rfl
      · rw [if_neg same, get?_put_ne t (by simpa using Ne.symm same), Option.or_none]
    · intro p away
      rw [outside p away, get?_put_ne t (away f.1)]

/-- Files can be written into a directory exactly when it is there, their names fit, and none of
them is the name of a directory in it. -/
theorem exists_writeAll_iff (proper : IsProper directory) (named : ∀ f ∈ files, IsName f.1) :
    (∃ t', writeAll t (files.map (placed directory)) = (t', .ok ())) ↔
      ∀ f ∈ files, t.IsOpen directory ∧ Fit (directory ++ [f.1]) ∧
        t.get? (directory ++ [f.1]) ≠ some .directory := by
  induction files generalizing t with
  | nil => exact iff_of_true ⟨t, rfl⟩ (by simp)
  | cons f rest ih =>
    have step (s : FileTree) := @ih s fun g mem => named g (List.mem_cons_of_mem _ mem)
    have first := named f List.mem_cons_self
    rw [List.forall_mem_cons]
    constructor
    · rintro ⟨t', h⟩
      obtain ⟨s, written, later⟩ := writeAll_cons_iff.1 h
      obtain ⟨isOpen, fit, other, rfl⟩ := (write_placed_iff proper first f.2).1 written
      have same := get?_put_file_eq_directory_iff f.2 (by simp) other
      refine ⟨⟨isOpen, fit, other⟩, fun g mem => ?_⟩
      obtain ⟨-, fits, free⟩ := (step _).1 ⟨t', later⟩ g mem
      exact ⟨isOpen, fits, fun held => free ((same _).2 held)⟩
    · rintro ⟨⟨isOpen, fit, other⟩, others⟩
      have same := get?_put_file_eq_directory_iff f.2 (by simp) other
      have written := (write_placed_iff proper first f.2).2 ⟨isOpen, fit, other, rfl⟩
      obtain ⟨t', later⟩ := (step _).2 fun g mem =>
        ⟨fun above before => (same above).2 (isOpen above before), (others g mem).2.1,
          fun held => (others g mem).2.2 ((same _).1 held)⟩
      exact ⟨t', writeAll_cons_iff.2 ⟨_, written, later⟩⟩

theorem IsWellFormed.writeAll (formed : t.IsWellFormed) (proper : IsProper directory)
    (named : ∀ f ∈ files, IsName f.1)
    (h : writeAll t (files.map (placed directory)) = (t', .ok ())) : t'.IsWellFormed := by
  induction files generalizing t with
  | nil =>
    injection h with h
    exact h ▸ formed
  | cons f rest ih =>
    obtain ⟨s, written, later⟩ := writeAll_cons_iff.1 h
    have first := named f List.mem_cons_self
    obtain ⟨isOpen, -, other, rfl⟩ := (write_placed_iff proper first f.2).1 written
    refine ih (formed.put proper first (isOpen _ (List.prefix_refl _)) ?_)
      (fun g mem => named g (List.mem_cons_of_mem _ mem)) later
    exact fun held => absurd held other

/-! ## Errors -/

/-- A way through directories fails only for a name that is too long. -/
theorem error_of_reachFrom {here : Place} {parts : Place} {e : FileError} (proper : IsProper parts)
    (along : ∀ way, way <+: parts → way ≠ parts → t.get? (here ++ way) = some .directory)
    (h : t.reachFrom here parts = .error e) : e = .nameTooLong := by
  induction parts generalizing here with
  | nil => cases h
  | cons part rest ih =>
    obtain ⟨named, proper⟩ := List.forall_mem_cons.1 proper
    obtain ⟨first, further⟩ := Place.forall_prefix_cons_iff.1 along
    rw [reachFrom, ← List.append_nil here, first (by simp), List.append_nil] at h
    simp only at h
    split at h
    · injection h with h
      exact h.symm
    · rw [Path.step, if_neg named.down] at h
      refine ih proper (fun way before other => ?_) h
      rw [← List.append_cons]
      exact further way before (by simpa using other)

/-- Writing into a directory that is there does not fail for what is on the way to it. -/
theorem error_of_write (proper : IsProper directory) (named : IsName name)
    (isOpen : t.IsOpen directory) {bytes : List UInt8} {e : FileError}
    (h : t.write (directory ++ [name]) bytes = .error e) : e ≠ .notFound ∧ e ≠ .notADirectory := by
  have along (way : Place) (before : way <+: directory ++ [name])
      (other : way ≠ directory ++ [name]) : t.get? ([] ++ way) = some .directory := by
    rcases List.prefix_concat_iff.1 before with same | above
    · exact absurd same other
    · exact isOpen way above
  rw [write] at h
  cases reached : t.reach (directory ++ [name]) with
  | error kind =>
    rw [reached] at h
    injection h with h
    subst h
    rw [reach] at reached
    split at reached
    · injection reached with reached
      subst reached
      decide
    · rw [error_of_reachFrom (Place.isProper_append_singleton.2 ⟨proper, named⟩) along reached]
      decide
  | ok place =>
    rw [reached] at h
    simp only at h
    split at h
    · injection h with h
      subst h
      decide
    · cases h

theorem error_of_writeAll (proper : IsProper directory) (named : ∀ f ∈ files, IsName f.1)
    (isOpen : t.IsOpen directory) {e : Problem}
    (h : writeAll t (files.map (placed directory)) = (t', .error e)) :
    ∃ path kind, e = .file path kind ∧ kind ≠ .notFound ∧ kind ≠ .notADirectory := by
  induction files generalizing t with
  | nil => cases h
  | cons f rest ih =>
    have first := named f List.mem_cons_self
    rw [List.map_cons, CallSiteIds.writeAll] at h
    cases written : t.write (placed directory f).1 (placed directory f).2 with
    | error kind =>
      rw [written] at h
      injection h with _ h
      injection h with h
      subst h
      exact ⟨_, kind, rfl, error_of_write proper first isOpen written⟩
    | ok s =>
      rw [written] at h
      obtain ⟨-, -, other, rfl⟩ := (write_placed_iff proper first f.2).1 written
      have same := get?_put_file_eq_directory_iff f.2 (by simp) other
      exact ih (fun g mem => named g (List.mem_cons_of_mem _ mem))
        (fun above before => (same above).2 (isOpen above before)) h

end Placed

end FileTree

end CallSiteIds
