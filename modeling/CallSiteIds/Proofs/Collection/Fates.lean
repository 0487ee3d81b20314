import CallSiteIds.Proofs.Collection.Kept
import Mathlib.Data.List.Forall2

/-!
# Every candidate has one fate

Collecting settles the candidates one after the other.  What one step may do is said once
(`Fate.Settles`): a malformed marker comes first, then an unknown place, then a call site that
was kept before, and only what passes all three is kept.  A run is a list of such steps
(`Collection.Run`), and the only thing that one step hands on to the next is the keys that were
kept.  So each candidate is reported in one list or kept (`accounts_for_candidates`), and a
candidate that builds no record never stands in the way of another.
-/

set_option autoImplicit false

namespace CallSiteIds

namespace InvocationDescriptor

variable {names : List String}

/-! ## One candidate -/

/-- The first marker of some parameter cannot be decoded. -/
def IsMalformed (names : List String) (d : InvocationDescriptor) : Prop :=
  ∃ p ∈ d.parameters, ∃ a, Marker.find? names p = some a ∧ ∃ e, Marker.decode a = .error e

/-- Reading the markers fails exactly when one of them is malformed. -/
theorem exists_markedFrom_eq_error_iff {target : String} {start : Nat}
    {ps : List ParameterDescriptor} :
    (∃ m, markedFrom names target start ps = .error m) ↔
      ∃ p ∈ ps, ∃ a, Marker.find? names p = some a ∧ ∃ e, Marker.decode a = .error e := by
  induction ps generalizing start with
  | nil =>
    simp [markedFrom]
  | cons p ps ih =>
    have later := @ih (start + 1)
    rw [markedFrom, List.exists_mem_cons_iff, ← later]
    cases found : Marker.find? names p with
    | none => simp
    | some a =>
      cases decoded : Marker.decode a with
      | error e => simp [decoded]
      | ok config =>
        cases markedFrom names target (start + 1) ps <;> simp [decoded]

/-- A malformed marker is reported for the method that was called. -/
theorem target_of_markedFrom_eq_error {target : String} {start : Nat}
    {ps : List ParameterDescriptor} {m : MalformedMarker}
    (h : markedFrom names target start ps = .error m) : m.target = target := by
  induction ps generalizing start with
  | nil => cases h
  | cons p ps ih =>
    obtain ⟨_, _, -, -, rfl⟩ | ⟨-, later⟩ := markedFrom_cons_eq_error_iff.1 h
    · rfl
    · exact ih later

theorem isMalformed_iff {d : InvocationDescriptor} :
    d.IsMalformed names ↔ ∃ m, d.marked names = .error m :=
  exists_markedFrom_eq_error_iff.symm

theorem not_isMalformed_of_marked {d : InvocationDescriptor} {ms : List MarkedParameter}
    (h : d.marked names = .ok ms) : ¬d.IsMalformed names := by
  rw [isMalformed_iff, h]
  rintro ⟨m, failed⟩
  cases failed

/-- A candidate whose markers are well formed has a marked parameter. -/
theorem marked_ne_nil {d : InvocationDescriptor} (candidate : d.isCandidate names = true) :
    d.marked names ≠ .ok [] := by
  intro marked
  obtain ⟨p, mem, found⟩ := List.any_eq_true.1 candidate
  obtain ⟨i, at'⟩ := List.mem_iff_getElem?.1 mem
  obtain ⟨m, inside, -⟩ := (areMarked_of_markedFrom marked).complete i p at' found
  cases inside

end InvocationDescriptor

open InvocationDescriptor (isMalformed_iff not_isMalformed_of_marked marked_ne_nil
  built?_eq_some_iff builds_of_built? record?_of_error record?_of_marked)

/-! ## One step -/

/-- How a candidate may end. -/
inductive Ending where
  | failed
  | unlocated
  | repeated
  | kept
deriving DecidableEq, Repr

namespace Fate

/-- How a fate ends a candidate. -/
def ending : Fate → Ending
  | malformed .. => .failed
  | unlocated .. => .unlocated
  | repeated .. => .repeated
  | kept .. => .kept

/-- The keys of the kept candidates after one more was settled. -/
def keysAfter (seen : List String) : Fate → List String
  | kept r => r.locationKey :: seen
  | _ => seen

/-- What settling a candidate may do after candidates with the given keys were kept. -/
inductive Settles (names seen : List String) (d : InvocationDescriptor) : Fate → Prop where
  | failed {marker : MalformedMarker} (malformed : d.IsMalformed names)
      (marked : d.marked names = .error marker) (target : marker.target = d.target) :
      Settles names seen d (.malformed d.locationKey? marker)
  | unlocated (wellFormed : ¬d.IsMalformed names) (location : d.sourceLocation? = none) :
      Settles names seen d (.unlocated d.target)
  | repeated {r : CallSiteRecord} (wellFormed : ¬d.IsMalformed names)
      (built : d.built? names = some r) (old : r.locationKey ∈ seen) :
      Settles names seen d (.repeated r.locationKey d.target)
  | kept {r : CallSiteRecord} (wellFormed : ¬d.IsMalformed names)
      (built : d.built? names = some r) (new : r.locationKey ∉ seen) :
      Settles names seen d (.kept r)

/-- A candidate is settled in one of the four ways. -/
theorem settles_ofCandidate {names : List String} {d : InvocationDescriptor}
    (candidate : d.isCandidate names = true) (seen : List String) :
    Settles names seen d (ofCandidate names seen d) := by
  unfold ofCandidate
  cases marked : d.marked names with
  | error marker =>
    rw [record?_of_error marked]
    exact .failed (isMalformed_iff.2 ⟨marker, marked⟩) marked
      (InvocationDescriptor.target_of_markedFrom_eq_error marked)
  | ok ms =>
    have wellFormed := not_isMalformed_of_marked marked
    have made := record?_of_marked marked
    have nonempty : ms ≠ [] := fun none => marked_ne_nil candidate (none ▸ marked)
    rw [if_neg nonempty] at made
    cases located : d.sourceLocation? with
    | none =>
      rw [made, located]
      exact .unlocated wellFormed located
    | some l =>
      rw [located] at made
      have built := built?_eq_some_iff.2 made
      rw [made]
      by_cases old : (d.recordWith ms l).locationKey ∈ seen
      · simp only [Option.map_some, if_pos old]
        exact .repeated wellFormed built old
      · simp only [Option.map_some, if_neg old]
        exact .kept wellFormed built old

end Fate

/-! ## A run -/

namespace Collection

variable {names : List String}

/-- Candidates that are settled one after the other, with their fates. -/
inductive Run (names : List String) :
    List String → List InvocationDescriptor → List Fate → Prop where
  | nil (seen : List String) : Run names seen [] []
  | cons {seen : List String} {d : InvocationDescriptor} {ds : List InvocationDescriptor}
      {fate : Fate} {fates : List Fate} (step : fate.Settles names seen d)
      (rest : Run names (fate.keysAfter seen) ds fates) :
      Run names seen (d :: ds) (fate :: fates)

theorem fatesFrom_cons_candidate {d : InvocationDescriptor}
    (candidate : d.isCandidate names = true) (seen : List String)
    (ds : List InvocationDescriptor) :
    fatesFrom names seen (d :: ds) =
      .ofCandidate names seen d ::
        fatesFrom names ((Fate.ofCandidate names seen d).keysAfter seen) ds := by
  rw [fatesFrom, if_pos candidate]
  cases Fate.ofCandidate names seen d <;> rfl

theorem fatesFrom_cons_other {d : InvocationDescriptor} (other : d.isCandidate names = false)
    (seen : List String) (ds : List InvocationDescriptor) :
    fatesFrom names seen (d :: ds) = fatesFrom names seen ds := by
  rw [fatesFrom, if_neg (by simp [other])]

/-- Collecting is a run over the candidates. -/
theorem run_fatesFrom (names seen : List String) (ds : List InvocationDescriptor) :
    Run names seen (ds.filter (InvocationDescriptor.isCandidate names))
      (fatesFrom names seen ds) := by
  induction ds generalizing seen with
  | nil => exact .nil seen
  | cons d ds ih =>
    cases candidate : d.isCandidate names with
    | false =>
      rw [List.filter_cons_of_neg (by simp [candidate]), fatesFrom_cons_other candidate]
      exact ih seen
    | true =>
      rw [List.filter_cons_of_pos candidate, fatesFrom_cons_candidate candidate]
      exact .cons (Fate.settles_ofCandidate candidate seen) (ih _)

theorem Run.length_eq {seen : List String} {ds : List InvocationDescriptor} {fates : List Fate}
    (run : Run names seen ds fates) : fates.length = ds.length := by
  induction run with
  | nil => rfl
  | cons step rest ih => rw [List.length_cons, List.length_cons, ih]

/-! ## The rule -/

/-- How a candidate ends when the keys that satisfy a condition were kept before. -/
structure FollowsRule (names : List String) (earlier : String → Prop) (d : InvocationDescriptor)
    (o : Ending) : Prop where
  failed : o = .failed ↔ d.IsMalformed names
  unlocated : o = .unlocated ↔ ¬d.IsMalformed names ∧ d.sourceLocation? = none
  repeated : o = .repeated ↔
    ¬d.IsMalformed names ∧ ∃ key, d.locationKey? = some key ∧ earlier key
  kept : o = .kept ↔ ¬d.IsMalformed names ∧ ∃ key, d.locationKey? = some key ∧ ¬earlier key

/-- Some candidate before the given position was kept with the key. -/
def IsKeptBefore (ds : List InvocationDescriptor) (endings : List Ending) (k : Nat)
    (key : String) : Prop :=
  ∃ j < k, endings[j]? = some .kept ∧ ∃ d, ds[j]? = some d ∧ d.locationKey? = some key

theorem locationKey?_of_built? {d : InvocationDescriptor} {r : CallSiteRecord}
    (built : d.built? names = some r) : d.locationKey? = some r.locationKey := by
  have builds := builds_of_built? built
  rw [InvocationDescriptor.locationKey?, builds.location, builds.key]
  rfl

theorem locationKey?_eq_none_iff {d : InvocationDescriptor} :
    d.locationKey? = none ↔ d.sourceLocation? = none :=
  Option.map_eq_none_iff

/-- A step follows the rule. -/
theorem followsRule_of_settles {seen : List String} {d : InvocationDescriptor} {fate : Fate}
    (step : fate.Settles names seen d) : FollowsRule names (· ∈ seen) d fate.ending := by
  cases step with
  | failed malformed =>
    constructor <;> simp [Fate.ending, malformed]
  | unlocated wellFormed location =>
    have noKey := locationKey?_eq_none_iff.2 location
    constructor <;> simp [Fate.ending, wellFormed, location, noKey]
  | repeated wellFormed built old =>
    have key := locationKey?_of_built? built
    have located := (builds_of_built? built).location
    constructor <;> simp [Fate.ending, wellFormed, key, located, old]
  | kept wellFormed built new =>
    have key := locationKey?_of_built? built
    have located := (builds_of_built? built).location
    constructor <;> simp [Fate.ending, wellFormed, key, located, new]

theorem mem_keysAfter_iff {seen : List String} {d : InvocationDescriptor} {fate : Fate}
    (step : fate.Settles names seen d) {key : String} :
    key ∈ fate.keysAfter seen ↔
      key ∈ seen ∨ fate.ending = .kept ∧ d.locationKey? = some key := by
  cases step with
  | failed => simp [Fate.keysAfter, Fate.ending]
  | unlocated => simp [Fate.keysAfter, Fate.ending]
  | repeated => simp [Fate.keysAfter, Fate.ending]
  | kept wellFormed built new =>
    simp [Fate.keysAfter, Fate.ending, locationKey?_of_built? built, or_comm, eq_comm]

theorem isKeptBefore_succ_iff {d : InvocationDescriptor} {ds : List InvocationDescriptor}
    {o : Ending} {os : List Ending} {k : Nat} {key : String} :
    IsKeptBefore (d :: ds) (o :: os) (k + 1) key ↔
      o = .kept ∧ d.locationKey? = some key ∨ IsKeptBefore ds os k key := by
  constructor
  · rintro ⟨j, less, kept, e, at', same⟩
    cases j with
    | zero =>
      simp only [List.getElem?_cons_zero, Option.some.injEq] at kept at'
      exact Or.inl ⟨kept, at' ▸ same⟩
    | succ j =>
      rw [List.getElem?_cons_succ] at kept at'
      exact Or.inr ⟨j, by omega, kept, e, at', same⟩
  · rintro (⟨kept, same⟩ | ⟨j, less, kept, e, at', same⟩)
    · exact ⟨0, by omega, by simpa using kept, d, rfl, same⟩
    · exact ⟨j + 1, by omega, by simpa using kept, e, by simpa using at', same⟩

/-- Each step of a run follows the rule for the keys that were kept before it. -/
theorem Run.followsRule {seen : List String} {ds : List InvocationDescriptor}
    {fates : List Fate} (run : Run names seen ds fates) {k : Nat} {d : InvocationDescriptor}
    {o : Ending} (at' : ds[k]? = some d) (ends : (fates.map Fate.ending)[k]? = some o) :
    FollowsRule names
      (fun key => key ∈ seen ∨ IsKeptBefore ds (fates.map Fate.ending) k key) d o := by
  induction run generalizing k with
  | nil => cases at'
  | @cons seen e ds fate fates step rest ih =>
    cases k with
    | zero =>
      simp only [List.map_cons, List.getElem?_cons_zero, Option.some.injEq] at at' ends
      subst at' ends
      have first := followsRule_of_settles step
      have none (key : String) :
          ¬IsKeptBefore (e :: ds) ((fate :: fates).map Fate.ending) 0 key := by
        rintro ⟨j, less, -⟩
        omega
      simpa only [none, or_false] using first
    | succ k =>
      rw [List.getElem?_cons_succ] at at'
      rw [List.map_cons, List.getElem?_cons_succ] at ends
      have later := ih at' ends
      simp only [mem_keysAfter_iff step, or_assoc] at later
      simpa only [List.map_cons, isKeptBefore_succ_iff] using later

/-! ## The lists -/

/-- The report of a malformed candidate: its call site as far as it is known, and the first marker
that cannot be decoded. -/
def ReportsFailure (names : List String) (p : InvocationDescriptor × Ending)
    (f : RecordFailure) : Prop :=
  ∃ m, p.1.marked names = .error m ∧
    f = ⟨p.1.locationKey?, some p.1.target, none, m.message⟩

/-- The report of a dropped candidate: a repeated one is reported with its call site. -/
def ReportsDrop (p : InvocationDescriptor × Ending) (f : RecordFailure) : Prop :=
  p.2 = .unlocated ∧
      f = ⟨none, some p.1.target, none, "Call site has no resolvable source location."⟩ ∨
    p.2 = .repeated ∧ f = ⟨p.1.locationKey?, some p.1.target, none, "Duplicate call site."⟩

/-- The candidates that end in one of some ways, in order. -/
def endingIn (endings : List Ending) (ds : List InvocationDescriptor) (os : List Ending) :
    List (InvocationDescriptor × Ending) :=
  (ds.zip os).filter fun p => p.2 ∈ endings

/-- Each list of a run holds what became of its candidates, in order. -/
theorem Run.lists {seen : List String} {ds : List InvocationDescriptor} {fates : List Fate}
    (run : Run names seen ds fates) :
    List.Forall₂ (ReportsFailure names) (endingIn [.failed] ds (fates.map Fate.ending))
        (fates.filterMap Fate.failure?) ∧
      List.Forall₂ ReportsDrop (endingIn [.unlocated, .repeated] ds (fates.map Fate.ending))
        (fates.filterMap Fate.dropped?) ∧
      List.Forall₂ (fun p r => p.1.built? names = some r)
        (endingIn [.kept] ds (fates.map Fate.ending)) (fates.filterMap Fate.record?) := by
  induction run with
  | nil => exact ⟨.nil, .nil, .nil⟩
  | cons step rest ih =>
    obtain ⟨failures, dropped, records⟩ := ih
    cases step with
    | failed malformed marked target =>
      exact ⟨.cons ⟨_, marked, by rw [target]⟩ failures, dropped, records⟩
    | unlocated wellFormed location =>
      exact ⟨failures, .cons (Or.inl ⟨rfl, rfl⟩) dropped, records⟩
    | repeated wellFormed built old =>
      have key := locationKey?_of_built? built
      exact ⟨failures, .cons (Or.inr ⟨rfl, by rw [key]⟩) dropped, records⟩
    | kept wellFormed built new =>
      exact ⟨failures, dropped, .cons built records⟩

/-- Every candidate is in one of the three lists. -/
theorem candidateCount_eq (c : Collection) :
    c.candidateCount = c.records.length + c.dropped.length + c.failures.length := by
  unfold candidateCount records dropped failures
  induction c.fates with
  | nil => rfl
  | cons fate fates ih =>
    cases fate <;>
      simp only [List.filterMap_cons, Fate.record?, Fate.dropped?, Fate.failure?,
        List.length_cons] <;> omega

theorem candidateCount_ofDescriptors (names : List String) (ds : List InvocationDescriptor) :
    (ofDescriptors names ds).candidateCount =
      (ds.filter (InvocationDescriptor.isCandidate names)).length :=
  (run_fatesFrom names [] ds).length_eq

/-! ## Candidates without a record -/

/-- Tells whether a candidate built a record, kept or not. -/
def builtRecord (fate : Fate) : Bool :=
  fate.ending ∈ [.repeated, .kept]

theorem built?_eq_none {d : InvocationDescriptor}
    (bare : d.IsMalformed names ∨ d.sourceLocation? = none) : d.built? names = none := by
  cases built : d.built? names with
  | none => rfl
  | some r =>
    rcases bare with malformed | unlocated
    · obtain ⟨m, marked⟩ := isMalformed_iff.1 malformed
      rw [InvocationDescriptor.built?, record?_of_error marked] at built
      cases built
    · rw [(builds_of_built? built).location] at unlocated
      cases unlocated

/-- A descriptor without a record changes nothing for those after it. -/
theorem filter_fatesFrom_cons {d : InvocationDescriptor} (bare : d.built? names = none)
    (seen : List String) (ds : List InvocationDescriptor) :
    (fatesFrom names seen (d :: ds)).filter builtRecord =
      (fatesFrom names seen ds).filter builtRecord := by
  cases candidate : d.isCandidate names with
  | false => rw [fatesFrom_cons_other candidate]
  | true =>
    rw [fatesFrom_cons_candidate candidate]
    have step := Fate.settles_ofCandidate candidate seen
    generalize Fate.ofCandidate names seen d = fate at step ⊢
    cases step with
    | failed => rfl
    | unlocated => rfl
    | repeated wellFormed built old =>
      rw [bare] at built
      cases built
    | kept wellFormed built new =>
      rw [bare] at built
      cases built

theorem filter_fatesFrom_append_cons {d : InvocationDescriptor} (bare : d.built? names = none)
    (seen : List String) (before after : List InvocationDescriptor) :
    (fatesFrom names seen (before ++ d :: after)).filter builtRecord =
      (fatesFrom names seen (before ++ after)).filter builtRecord := by
  induction before generalizing seen with
  | nil => exact filter_fatesFrom_cons bare seen after
  | cons e before ih =>
    rw [List.cons_append, List.cons_append]
    cases candidate : e.isCandidate names with
    | false =>
      rw [fatesFrom_cons_other candidate, fatesFrom_cons_other candidate]
      exact ih seen
    | true =>
      rw [fatesFrom_cons_candidate candidate, fatesFrom_cons_candidate candidate,
        List.filter_cons, List.filter_cons, ih]

theorem filterMap_record? (fates : List Fate) :
    fates.filterMap Fate.record? = (fates.filter builtRecord).filterMap Fate.record? := by
  rw [List.filterMap_filter]
  congr 1
  funext fate
  cases fate <;> rfl

theorem filter_filterMap_dropped? (fates : List Fate) :
    (fates.filterMap Fate.dropped?).filter (·.locationKey.isSome) =
      (fates.filter builtRecord).filterMap Fate.dropped? := by
  rw [List.filter_filterMap, List.filterMap_filter]
  congr 1
  funext fate
  cases fate <;> rfl

/-- Without a descriptor that builds no record the same records are kept and the same repeated
calls are dropped. -/
theorem lists_append_cons {d : InvocationDescriptor} (bare : d.built? names = none)
    (before after : List InvocationDescriptor) :
    (ofDescriptors names (before ++ after)).records =
        (ofDescriptors names (before ++ d :: after)).records ∧
      (ofDescriptors names (before ++ after)).dropped.filter (·.locationKey.isSome) =
        (ofDescriptors names (before ++ d :: after)).dropped.filter (·.locationKey.isSome) := by
  have same := filter_fatesFrom_append_cons bare [] before after
  constructor
  · show (fatesFrom names [] (before ++ after)).filterMap Fate.record? = _
    rw [filterMap_record?, ← same, ← filterMap_record?]
    rfl
  · show ((fatesFrom names [] (before ++ after)).filterMap Fate.dropped?).filter _ = _
    rw [filter_filterMap_dropped?, ← same, ← filter_filterMap_dropped?]
    rfl

/-! ## All candidates -/

/-- Every candidate is kept, dropped or reported as malformed, exactly one of the three, by the
rule that a malformed marker counts first, then an unknown place, then a call site that was kept
before.  The three lists follow the order of the descriptors, no two kept records share a key, and
a candidate without a record changes neither what is kept nor what is dropped as repeated. -/
theorem accounts_for_candidates (names : List String) (ds : List InvocationDescriptor) :
    let c := ofDescriptors names ds
    let candidates := ds.filter (InvocationDescriptor.isCandidate names)
    c.candidateCount = candidates.length ∧
    c.candidateCount = c.records.length + c.dropped.length + c.failures.length ∧
    (∃ endings : List Ending, endings.length = candidates.length ∧
      (∀ k d o, candidates[k]? = some d → endings[k]? = some o →
        FollowsRule names (IsKeptBefore candidates endings k) d o) ∧
      List.Forall₂ (ReportsFailure names) (endingIn [.failed] candidates endings) c.failures ∧
      List.Forall₂ ReportsDrop (endingIn [.unlocated, .repeated] candidates endings) c.dropped ∧
      List.Forall₂ (fun p r => p.1.built? names = some r) (endingIn [.kept] candidates endings)
        c.records) ∧
    (c.records.map (·.locationKey)).Nodup ∧
    ∀ before d after, ds = before ++ d :: after →
      d.IsMalformed names ∨ d.sourceLocation? = none →
        (ofDescriptors names (before ++ after)).records = c.records ∧
        (ofDescriptors names (before ++ after)).dropped.filter (·.locationKey.isSome) =
          c.dropped.filter (·.locationKey.isSome) := by
  intro c candidates
  have run : Run names [] candidates c.fates := run_fatesFrom names [] ds
  refine ⟨run.length_eq, candidateCount_eq c, ⟨c.fates.map Fate.ending, ?_, ?_, run.lists⟩,
    nodup_keys_records names ds, ?_⟩
  · rw [List.length_map]
    exact run.length_eq
  · intro k d o at' ends
    have rule := run.followsRule at' ends
    simpa only [List.not_mem_nil, false_or] using rule
  · intro before d after split bare
    have without := lists_append_cons (built?_eq_none bare) before after
    rw [← split] at without
    exact without

/-- A call with one marked parameter, whose marker has the given arguments. -/
def callWith (methodName : String) (arguments : List Json.Value)
    (location : Option LocationDescriptor) : InvocationDescriptor where
  targetType := "N.A"
  methodName := methodName
  returnType := "void"
  isStatic := true
  location := location
  interceptsData := none
  parameters := [⟨"id", "string", false, none, [⟨"UniqueId", arguments, []⟩]⟩]

/-- Of four calls one is malformed, one has no place, and of two at one place the first is
kept. -/
theorem accounts_for_four_calls :
    let here := some ⟨some "a.cs", some 1, some 2⟩
    let malformed := callWith "F" [.null] here
    let others := [callWith "G" [] none, callWith "H" [] here, callWith "I" [] here]
    let c := ofDescriptors Marker.defaultNames (malformed :: others)
    malformed.IsMalformed Marker.defaultNames ∧ c.candidateCount = 4 ∧
      c.records.length = 1 ∧ c.dropped.length = 2 ∧ c.failures.length = 1 ∧
      (ofDescriptors Marker.defaultNames others).records = c.records := by
  intro here malformed others c
  have bad : malformed.IsMalformed Marker.defaultNames :=
    ⟨_, List.mem_cons_self, _, rfl, _, rfl⟩
  obtain ⟨count, -, -, -, without⟩ :=
    accounts_for_candidates Marker.defaultNames (malformed :: others)
  exact ⟨bad, count, rfl, rfl, rfl, (without [] malformed others rfl (Or.inl bad)).1⟩

end Collection

end CallSiteIds
