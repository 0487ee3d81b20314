import CallSiteIds.Proofs.FileTree.WellFormed
import CallSiteIds.Verification
import Mathlib.Data.List.Nodup

/-!
# Comparing two directories

The files below a directory are a map from ways to bytes (`FileTree.fileBelow?`), and a comparison
describes how two such maps differ: each way that only one of them has, and each way with different
bytes, is in exactly one of the three lists, once and in order (`describes_filesBelow`).  Ways are
listed by their joined names, and these tell proper ways apart.
-/

set_option autoImplicit false

namespace CallSiteIds

open Place (IsProper)

namespace Comparison

/-! ## Names of ways -/

/-- A list gives the proper ways with a property, each once and in the order of their names. -/
structure Lists (names : List String) (P : Place → Prop) : Prop where
  mem : ∀ way, IsProper way → ("/".intercalate way ∈ names ↔ P way)
  named : ∀ name ∈ names, ∃ way, IsProper way ∧ "/".intercalate way = name
  sorted : names.Pairwise (· < ·)

section Lists

variable {names others : List String} {P Q : Place → Prop}

theorem Lists.eq_nil_iff (lists : Lists names P) : names = [] ↔ ∀ way, IsProper way → ¬P way := by
  constructor
  · rintro rfl way proper holds
    exact absurd ((lists.mem way proper).2 holds) List.not_mem_nil
  · intro none
    refine List.eq_nil_iff_forall_not_mem.2 fun name mem => ?_
    obtain ⟨way, proper, rfl⟩ := lists.named name mem
    exact none way proper ((lists.mem way proper).1 mem)

theorem Lists.disjoint (lists : Lists names P) (lists' : Lists others Q)
    (apart : ∀ way, P way → ¬Q way) : names.Disjoint others := by
  intro name mem mem'
  obtain ⟨way, proper, rfl⟩ := lists.named name mem
  exact apart way ((lists.mem way proper).1 mem) ((lists'.mem way proper).1 mem')

theorem Lists.congr (lists : Lists names P) (same : ∀ way, P way ↔ Q way) : Lists names Q :=
  ⟨fun way proper => (lists.mem way proper).trans (same way), lists.named, lists.sorted⟩

/-- Sorting the names of different proper ways lists the ways. -/
theorem lists_sortedNames {ways : List Place} (nodup : ways.Nodup)
    (proper : ∀ way ∈ ways, IsProper way) : Lists (sortedNames ways) (· ∈ ways) where
  mem := by
    intro way here
    rw [sortedNames, List.mem_mergeSort, List.mem_map]
    constructor
    · rintro ⟨other, mem, same⟩
      rwa [Path.eq_of_intercalate_eq here (proper other mem) same.symm]
    · exact fun mem => ⟨way, mem, rfl⟩
  named := by
    intro name mem
    rw [sortedNames, List.mem_mergeSort, List.mem_map] at mem
    obtain ⟨way, mem, rfl⟩ := mem
    exact ⟨way, proper way mem, rfl⟩
  sorted := by
    have distinct : (sortedNames ways).Nodup := by
      rw [sortedNames, (List.mergeSort_perm _ _).nodup_iff]
      exact List.Nodup.map_on (fun way mem other mem' same =>
        Path.eq_of_intercalate_eq (proper way mem) (proper other mem') same) nodup
    have ordered : (sortedNames ways).Pairwise (· ≤ ·) := by
      have transitive : ∀ a b c : String, decide (a ≤ b) = true → decide (b ≤ c) = true →
          decide (a ≤ c) = true := by
        simpa using fun a b c => String.le_trans
      have total : ∀ a b : String, (decide (a ≤ b) || decide (b ≤ a)) = true := by
        simpa using String.le_total
      exact (List.pairwise_mergeSort transitive total _).imp fun h => of_decide_eq_true h
    exact (ordered.and distinct).imp fun h => Std.lt_of_le_of_ne h.1 h.2

end Lists

/-! ## Maps of files -/

/-- A list of files gives each file once, by a proper way. -/
structure IsListing (files : List (Place × List UInt8)) : Prop where
  nodup : (files.map Prod.fst).Nodup
  proper : ∀ way ∈ files.map Prod.fst, IsProper way

variable {way : Place} {bytes : List UInt8} {files first second : List (Place × List UInt8)}

theorem bytesOf?_ne_none_iff : bytesOf? way files ≠ none ↔ way ∈ files.map Prod.fst := by
  simp [bytesOf?]

theorem bytesOf?_eq_some_iff (nodup : (files.map Prod.fst).Nodup) :
    bytesOf? way files = some bytes ↔ (way, bytes) ∈ files := by
  induction files with
  | nil => simp [bytesOf?]
  | cons f rest ih =>
    obtain ⟨outside, nodup⟩ := List.nodup_cons.1 (List.map_cons ▸ nodup)
    have later := ih nodup
    rw [bytesOf?] at later ⊢
    rw [List.mem_cons]
    by_cases here : f.1 = way
    · have apart : (way, bytes) ∉ rest := fun mem =>
        outside (here ▸ List.mem_map_of_mem (f := Prod.fst) mem)
      rw [List.find?_cons, beq_iff_eq.2 here]
      simp [here, apart, Prod.ext_iff, eq_comm]
    · have other : (way, bytes) ≠ f := fun same => here (by rw [← same])
      rw [List.find?_cons_of_neg (by simpa using here), later]
      simp [other]

theorem IsListing.isProper (listing : IsListing files) (held : bytesOf? way files ≠ none) :
    IsProper way :=
  listing.proper way (bytesOf?_ne_none_iff.1 held)

/-- What a comparison says of two maps from ways to bytes. -/
structure Describes (c : Comparison) (before after : Place → Option (List UInt8)) : Prop where
  missing : Lists c.missing fun way => before way ≠ none ∧ after way = none
  extra : Lists c.extra fun way => before way = none ∧ after way ≠ none
  mismatches : Lists c.mismatches fun way =>
    ∃ x y, before way = some x ∧ after way = some y ∧ x ≠ y
  disjoint : c.missing.Disjoint c.extra ∧ c.missing.Disjoint c.mismatches ∧
    c.extra.Disjoint c.mismatches
  equal : c.isEqual = true ↔ ∀ way, before way = after way

theorem isEqual_iff (c : Comparison) :
    c.isEqual = true ↔ c.missing = [] ∧ c.extra = [] ∧ c.mismatches = [] := by
  simp [isEqual, and_assoc]

/-- Two maps agree at a way exactly when it is in none of the three lists. -/
theorem eq_iff_not_listed {before after : Option (List UInt8)} :
    before = after ↔ ¬(before ≠ none ∧ after = none) ∧ ¬(before = none ∧ after ≠ none) ∧
      ¬∃ x y, before = some x ∧ after = some y ∧ x ≠ y := by
  cases before <;> cases after <;> simp

/-- The three lists between two maps of proper ways say all that a comparison has to say. -/
theorem describes_of_lists {c : Comparison} {before after : Place → Option (List UInt8)}
    (missing : Lists c.missing fun way => before way ≠ none ∧ after way = none)
    (extra : Lists c.extra fun way => before way = none ∧ after way ≠ none)
    (mismatches : Lists c.mismatches fun way =>
      ∃ x y, before way = some x ∧ after way = some y ∧ x ≠ y)
    (proper : ∀ way, before way ≠ none → IsProper way)
    (proper' : ∀ way, after way ≠ none → IsProper way) : c.Describes before after := by
  refine ⟨missing, extra, mismatches, ⟨?_, ?_, ?_⟩, ?_⟩
  · exact missing.disjoint extra fun way only only' => only.1 only'.1
  · refine missing.disjoint mismatches ?_
    rintro way only ⟨x, y, -, there, -⟩
    simp [only.2] at there
  · refine extra.disjoint mismatches ?_
    rintro way only ⟨x, y, here, -⟩
    simp [only.1] at here
  · rw [isEqual_iff, missing.eq_nil_iff, extra.eq_nil_iff, mismatches.eq_nil_iff]
    constructor
    · rintro ⟨none, none', none''⟩ way
      by_cases named : IsProper way
      · exact eq_iff_not_listed.2 ⟨none way named, none' way named, none'' way named⟩
      · rw [not_not.1 fun held => named (proper way held),
          not_not.1 fun held => named (proper' way held)]
    · intro same
      have each way := eq_iff_not_listed.1 (same way)
      exact ⟨fun way _ => (each way).1, fun way _ => (each way).2.1, fun way _ => (each way).2.2⟩

/-- A comparison describes how the maps of two lists of files differ. -/
theorem describes_ofFiles (listing : IsListing first) (listing' : IsListing second) :
    (ofFiles first second).Describes (bytesOf? · first) (bytesOf? · second) := by
  refine describes_of_lists ?_ ?_ ?_ (fun way => listing.isProper) (fun way => listing'.isProper)
  · refine (lists_sortedNames (listing.nodup.filter _) ?_).congr fun way => ?_
    · exact fun way mem => listing.proper way (List.mem_filter.1 mem).1
    · rw [List.mem_filter, ← bytesOf?_ne_none_iff, Option.isNone_iff_eq_none]
  · refine (lists_sortedNames (listing'.nodup.filter _) ?_).congr fun way => ?_
    · exact fun way mem => listing'.proper way (List.mem_filter.1 mem).1
    · rw [List.mem_filter, ← bytesOf?_ne_none_iff, Option.isNone_iff_eq_none, and_comm]
  · refine (lists_sortedNames (listing.nodup.sublist (List.filter_sublist.map _)) ?_).congr
      fun way => ?_
    · exact fun way mem => listing.proper way ((List.filter_sublist.map _).subset mem)
    · rw [List.mem_map]
      constructor
      · rintro ⟨f, inside, rfl⟩
        obtain ⟨held, differs⟩ := List.mem_filter.1 inside
        cases other : bytesOf? f.1 second with
        | none => simp [other] at differs
        | some y =>
          simp only [other, bne_iff_ne] at differs
          exact ⟨f.2, y, (bytesOf?_eq_some_iff listing.nodup).2 held, rfl, differs.symm⟩
      · rintro ⟨x, y, here, there, differs⟩
        refine ⟨(way, x), List.mem_filter.2 ⟨?_, ?_⟩, rfl⟩
        · exact (bytesOf?_eq_some_iff listing.nodup).1 here
        · simpa [there] using differs.symm

end Comparison

/-! ## Files below a directory -/

namespace FileTree

variable {t : FileTree} {directory way : Place} {bytes : List UInt8}

/-- The bytes of the file at a way below a directory, if there is one. -/
def fileBelow? (t : FileTree) (directory way : Place) : Option (List UInt8) :=
  match t.get? (directory ++ way) with
  | some (.file bytes) => some bytes
  | _ => none

theorem fileBelow?_eq_some_iff :
    t.fileBelow? directory way = some bytes ↔ t.get? (directory ++ way) = some (.file bytes) := by
  rw [fileBelow?]
  cases t.get? (directory ++ way) with
  | none => simp
  | some entry => cases entry <;> simp

/-- What makes an entry a file below a directory. -/
theorem found_below_iff {place : Place} {entry : Entry} {f : Place × List UInt8} :
    (match entry, directory.isPrefixOf? place with
      | .file bytes, some way => some (way, bytes)
      | _, _ => none) = some f ↔ place = directory ++ f.1 ∧ entry = .file f.2 := by
  cases entry with
  | directory => simp
  | file content =>
    cases within : directory.isPrefixOf? place with
    | none =>
      refine iff_of_false (by simp) ?_
      rintro ⟨rfl, -⟩
      rw [List.isPrefixOf?_eq_some_iff_append_eq.2 rfl] at within
      cases within
    | some way =>
      rw [← List.isPrefixOf?_eq_some_iff_append_eq.1 within]
      simp [Prod.ext_iff]

theorem mem_filesBelow_iff :
    (way, bytes) ∈ t.filesBelow directory ↔ (directory ++ way, Entry.file bytes) ∈ t.entries := by
  rw [filesBelow, List.mem_filterMap]
  constructor
  · rintro ⟨⟨place, entry⟩, mem, found⟩
    obtain ⟨rfl, rfl⟩ := found_below_iff.1 found
    exact mem
  · exact fun mem => ⟨_, mem, found_below_iff.2 ⟨rfl, rfl⟩⟩

theorem IsWellFormed.isListing_filesBelow (formed : t.IsWellFormed) (directory : Place) :
    Comparison.IsListing (t.filesBelow directory) where
  nodup := by
    rw [List.nodup_iff_pairwise_ne, List.pairwise_map, filesBelow]
    refine List.Pairwise.filterMap _ ?_ (List.pairwise_map.1 t.nodup)
    rintro e e' apart f found f' found' same
    rw [(found_below_iff.1 found).1, (found_below_iff.1 found').1, same] at apart
    exact apart rfl
  proper := by
    intro way mem
    obtain ⟨⟨way, bytes⟩, inside, rfl⟩ := List.mem_map.1 mem
    have held := List.mem_map_of_mem (f := Prod.fst) (mem_filesBelow_iff.1 inside)
    exact (Place.isProper_append.1 (formed.proper _ held).2).2

/-- The files below a directory are listed by the map of them. -/
theorem IsWellFormed.bytesOf?_filesBelow (formed : t.IsWellFormed) :
    Comparison.bytesOf? way (t.filesBelow directory) = t.fileBelow? directory way := by
  refine Option.ext fun bytes => ?_
  rw [Comparison.bytesOf?_eq_some_iff (formed.isListing_filesBelow directory).nodup,
    mem_filesBelow_iff, fileBelow?_eq_some_iff]
  by_cases top : directory ++ way = []
  · rw [top, get?_nil]
    refine iff_of_false (fun mem => ?_) (by simp)
    exact (formed.proper _ (List.mem_map_of_mem (f := Prod.fst) mem)).1 rfl
  · exact (get?_eq_some_iff top).symm

/-- A comparison of the files below two directories describes how their maps differ. -/
theorem IsWellFormed.describes_filesBelow (formed : t.IsWellFormed) (first second : Place) :
    (Comparison.ofFiles (t.filesBelow first) (t.filesBelow second)).Describes
      (t.fileBelow? first) (t.fileBelow? second) := by
  have described := Comparison.describes_ofFiles (formed.isListing_filesBelow first)
    (formed.isListing_filesBelow second)
  simpa only [formed.bytesOf?_filesBelow] using described

end FileTree

end CallSiteIds
