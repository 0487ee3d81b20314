import CallSiteIds.Proofs.Emission.Isolation
import CallSiteIds.Proofs.Emission.Order
import Mathlib.Data.List.Nodup
import Mathlib.Data.String.Basic

/-!
# One emission for every order of the records

Records at different places are sorted strictly: by the code points of their paths, then by line,
then by column.  So the order in which they come does not show in what is generated, and the
number of a routine, the place of its manifest record and the place of the call in the source
agree (`canonical_generate`).
-/

set_option autoImplicit false

namespace CallSiteIds

open Source

/-! ## The order of places -/

/-- The code points of a text. -/
def codePoints (s : String) : List Nat :=
  s.toList.map Char.toNat

theorem codePoints_strictMono : StrictMono codePoints :=
  fun _ _ less => List.map_lt (fun _ _ lower => lower) (String.lt_iff.1 less)

/-- A place comes before another by path, then by line, then by column. -/
def SourceLocation.Precedes (a b : SourceLocation) : Prop :=
  codePoints a.path < codePoints b.path ∨
    a.path = b.path ∧ (a.line < b.line ∨ a.line = b.line ∧ a.column < b.column)

namespace SourceLocation.Precedes

variable {a b : SourceLocation}

theorem asymm (h : a.Precedes b) : ¬ b.Precedes a := by
  unfold Precedes at *
  rw [codePoints_strictMono.lt_iff_lt] at *
  rintro (path | ⟨path, lines⟩)
  · rcases h with path' | ⟨path', -⟩
    · exact lt_asymm path path'
    · rw [path'] at path
      exact lt_irrefl _ path
  · rcases h with path' | ⟨-, lines'⟩
    · rw [path] at path'
      exact lt_irrefl _ path'
    · omega

theorem irrefl (a : SourceLocation) : ¬ a.Precedes a :=
  fun h => h.asymm h

end SourceLocation.Precedes

namespace CallSiteRecord

/-- A comparison is decided by its first part unless this finds its two values equal. -/
theorem isLE_thenBy_iff {α : Type} [LT α] [DecidableLT α] [DecidableEq α] {x y : α}
    {second : Ordering} :
    (thenBy (compareOfLessAndEq x y) second).isLE = true ↔
      x < y ∨ x = y ∧ second.isLE = true := by
  unfold compareOfLessAndEq
  by_cases less : x < y
  · rw [if_pos less]
    exact ⟨fun _ => Or.inl less, fun _ => rfl⟩
  · rw [if_neg less]
    by_cases same : x = y
    · subst same
      simp [thenBy, less]
    · rw [if_neg same]
      simp [thenBy, same, less]

/-- A record that may come before a record at another place is at a place before it. -/
theorem precedes_of_le {a b : CallSiteRecord} (before : le a b = true)
    (apart : a.location ≠ b.location) : a.location.Precedes b.location := by
  rw [le_iff_isLE, compare, compareTexts, isLE_thenBy_iff, isLE_thenBy_iff,
    isLE_thenBy_iff] at before
  unfold SourceLocation.Precedes
  rw [codePoints_strictMono.lt_iff_lt]
  rcases before with path | ⟨path, line | ⟨line, column | ⟨column, -⟩⟩⟩
  · exact Or.inl path
  · exact Or.inr ⟨path, Or.inl line⟩
  · exact Or.inr ⟨path, Or.inr ⟨line, column⟩⟩
  · have same : a.location = b.location := by
      cases ha : a.location
      cases hb : b.location
      simp_all
    exact absurd same apart

/-- Records at different places are sorted strictly. -/
theorem pairwise_precedes_sorted {rs : List CallSiteRecord}
    (apart : (rs.map (·.location)).Nodup) :
    (sorted rs).Pairwise fun a b => a.location.Precedes b.location := by
  have distinct : ((sorted rs).map (·.location)).Nodup :=
    ((perm_sorted rs).map _).nodup_iff.2 apart
  rw [List.nodup_iff_pairwise_ne, List.pairwise_map] at distinct
  have ordered := (pairwise_sorted rs).and distinct
  exact ordered.imp fun ⟨before, ne⟩ => precedes_of_le before ne

theorem accepted_sublist (rs : List CallSiteRecord) : (accepted rs).Sublist rs :=
  List.filter_sublist

/-- The sorted records that do not fail are those of the given records that do not. -/
theorem perm_accepted_sorted (rs : List CallSiteRecord) :
    (accepted (sorted rs)).Perm (accepted rs) :=
  (perm_sorted rs).filter _

end CallSiteRecord

/-- In a strictly sorted list the order of two members is that of their places. -/
theorem lt_iff_precedes {rs : List CallSiteRecord}
    (ordered : rs.Pairwise fun a b => a.location.Precedes b.location) {m n : Nat}
    {r s : CallSiteRecord} (atM : rs[m]? = some r) (atN : rs[n]? = some s) :
    m < n ↔ r.location.Precedes s.location := by
  obtain ⟨inside, rfl⟩ := List.getElem?_eq_some_iff.1 atM
  obtain ⟨inside', rfl⟩ := List.getElem?_eq_some_iff.1 atN
  have forward := List.pairwise_iff_getElem.1 ordered
  constructor
  · intro less
    exact forward m n inside inside' less
  · intro precedes
    by_contra above
    rcases Nat.lt_or_eq_of_le (Nat.not_lt.1 above) with more | same
    · exact precedes.asymm (forward n m inside' inside more)
    · subst same
      exact precedes.irrefl _

/-- What is known of an emission in which the records that do not fail come by their places: the
routine and the manifest record with a number come from the record at this place, and numbers are
ordered as the places of the calls are. -/
structure IsEmittedInOrder (kept : List CallSiteRecord) (e : Emission) : Prop where
  ascending : kept.Pairwise fun a b => a.location.Precedes b.location
  routines : e.routines.length = kept.length
  intercepts : e.intercepts.length = kept.length
  numbered : ∀ n r, kept[n]? = some r →
    ∃ made i, e.routines[n]? = some made ∧ e.intercepts[n]? = some i ∧ IsEmittedAs r n made i ∧
      made.name.toList = toIdentifier r.methodName.toList ++ '_' :: Decimal.integerText n ∧
      i.locationKey = r.locationKey
  agree : ∀ (m n : Nat) (r s : CallSiteRecord), kept[m]? = some r → kept[n]? = some s →
    (m < n ↔ r.location.Precedes s.location)

namespace Emission

/-- Records at different places give the same source, manifest and failures in whatever order
they come, and the emitted ones come by path, line and column. -/
theorem canonical_generate (options : UnitOptions) {rs : List CallSiteRecord}
    (apart : (rs.map (·.location)).Nodup) :
    (∀ ss, rs.Perm ss →
      (generate options ss).source = (generate options rs).source ∧
        (generate options ss).intercepts = (generate options rs).intercepts ∧
        (generate options ss).failures = (generate options rs).failures) ∧
      ∃ kept, kept.Perm (CallSiteRecord.accepted rs) ∧
        IsEmittedInOrder kept (generate options rs) := by
  constructor
  · intro ss perm
    have same : CallSiteRecord.sorted rs = CallSiteRecord.sorted ss :=
      CallSiteRecord.sorted_eq_of_perm perm (List.inj_on_of_nodup_map apart)
    unfold generate
    rw [same]
    exact ⟨rfl, rfl, rfl⟩
  · have ordered := (CallSiteRecord.pairwise_precedes_sorted apart).sublist
      (CallSiteRecord.accepted_sublist _)
    have emitted := areEmittedFrom_accepted 0 (CallSiteRecord.sorted rs)
    refine ⟨_, CallSiteRecord.perm_accepted_sorted rs, ordered, emitted.length_eq.1,
      emitted.length_eq.2, ?_, ?_⟩
    · intro n r found
      obtain ⟨made, i, routine, intercept, given⟩ := emitted.exists_getElem? found
      rw [Nat.zero_add] at given
      exact ⟨made, i, routine, intercept, given, given.name, given.locationKey⟩
    · intro m n r s atM atN
      exact lt_iff_precedes ordered atM atN

/-- Calls in lines 10, 5 and 9, of which the second asks for a format that is rejected, give what
they give in the order of their lines, and line 9 comes before line 10. -/
theorem canonical_lines_nine_and_ten :
    let late := recordOfFormats "F" 10 [.settled .guid]
    let bad := recordOfFormats "G" 5 [.settled .guid, .written (.int 7)]
    let early := recordOfFormats "H" 9 [.settled .shortHash]
    (generate .usual [bad, early, late]).source = (generate .usual [late, bad, early]).source ∧
      early.location.Precedes late.location ∧
      ∃ kept, kept.Perm [late, early] ∧
        IsEmittedInOrder kept (generate .usual [late, bad, early]) := by
  intro late bad early
  have apart : ([late, bad, early].map (·.location)).Nodup := by decide
  obtain ⟨alike, kept, perm, emitted⟩ :=
    canonical_generate .usual apart
  have reordered : ([late] ++ [bad, early]).Perm ([bad, early] ++ [late]) := List.perm_append_comm
  exact ⟨(alike _ reordered).1, Or.inr ⟨rfl, Or.inl (by decide)⟩, kept, perm, emitted⟩

end Emission

end CallSiteIds
