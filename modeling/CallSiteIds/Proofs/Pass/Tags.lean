import CallSiteIds.Proofs.Validation.CallSites
import CallSiteIds.Proofs.Validation.FreshSource

/-!
# Tags tell call sites apart

A tag can be read back to the call site that it was written for, so two tags are the same text
only when they were written for the same call site: for one token, or for one place without a
token (`Source.tagArguments_eq_iff`).  A pass keeps one record for each place.  What can make two of
its routines carry the same tag is therefore a token that the host gives twice, and nothing else
(`tags_tell_apart`).
-/

set_option autoImplicit false

namespace CallSiteIds

open Source

/-! ## Two tags -/

namespace Source

variable {path path' : String} {line column line' column' : Int} {data data' : Option String}

/-- Tags are the same text exactly when they are written for the same call site. -/
theorem tagArguments_eq_iff_siteOf :
    tagArguments path line column data = tagArguments path' line' column' data' ↔
      siteOf path line column data = siteOf path' line' column' data' := by
  constructor
  · intro same
    -- A tag names its own call site, and as the text of another tag it names that of the other.
    have named : Names (tagArguments path line column data) (siteOf path line column data) :=
      names_tagArguments_iff.2 rfl
    rw [same] at named
    exact names_tagArguments_iff.1 named
  · intro same
    cases data with
    | none =>
      cases data' with
      | none =>
        injection same with path line column
        rw [path, line, column]
      | some token => cases same
    | some token =>
      cases data' with
      | none => cases same
      | some token' =>
        injection same with token
        rw [token]
        rfl

/-- Call sites agree in their tokens, or have none and agree in their places. -/
theorem siteOf_eq_iff :
    siteOf path line column data = siteOf path' line' column' data' ↔
      (∃ token, data = some token ∧ data' = some token) ∨
        data = none ∧ data' = none ∧ path = path' ∧ line = line' ∧ column = column' := by
  cases data <;> cases data' <;> simp [siteOf, eq_comm]

theorem tagArguments_eq_iff :
    tagArguments path line column data = tagArguments path' line' column' data' ↔
      (∃ token, data = some token ∧ data' = some token) ∨
        data = none ∧ data' = none ∧ path = path' ∧ line = line' ∧ column = column' :=
  tagArguments_eq_iff_siteOf.trans siteOf_eq_iff

end Source

/-! ## The tags of records -/

namespace CallSiteRecord

/-- The call site that a record is tagged with. -/
def site (r : CallSiteRecord) : CallSite :=
  siteOf r.location.path r.location.line r.location.column r.interceptsData

variable {r s : CallSiteRecord} {rs : List CallSiteRecord}

theorem tagText_eq_iff :
    tagText r.location r.interceptsData = tagText s.location s.interceptsData ↔
      r.site = s.site := by
  unfold tagText
  rw [String.append_left_inj, String.append_right_inj]
  exact tagArguments_eq_iff_siteOf

theorem site_eq_token_iff {token : String} :
    r.site = .token token ↔ r.interceptsData = some token := by
  unfold site
  cases r.interceptsData <;> simp [siteOf]

/-- Records without a token that are tagged with the same call site stand at the same place. -/
theorem location_eq_of_site_eq (none : r.interceptsData = none) (same : r.site = s.site) :
    r.location = s.location := by
  rcases siteOf_eq_iff.1 same with ⟨token, some, -⟩ | ⟨-, -, path, line, column⟩
  · rw [none] at some
    cases some
  · generalize r.location = l at path line column ⊢
    generalize s.location = l' at path line column ⊢
    cases l
    cases l'
    rw [SourceLocation.mk.injEq]
    exact ⟨path, Int.natCast_inj.1 line, Int.natCast_inj.1 column⟩

theorem token_mem_sites_iff {token : String} :
    CallSite.token token ∈ rs.map site ↔ token ∈ rs.filterMap (·.interceptsData) := by
  simp only [List.mem_map, List.mem_filterMap, site_eq_token_iff]

/-- Records of different places are tagged with different call sites exactly when no token is
given twice. -/
theorem nodup_sites_iff (own : ∀ r ∈ rs, r.locationKey = r.location.key)
    (distinct : (rs.map (·.locationKey)).Nodup) :
    (rs.map site).Nodup ↔ (rs.filterMap (·.interceptsData)).Nodup := by
  induction rs with
  | nil => exact iff_of_true List.nodup_nil List.nodup_nil
  | cons r rs ih =>
    obtain ⟨ownFirst, own⟩ := List.forall_mem_cons.1 own
    rw [List.map_cons, List.nodup_cons] at distinct
    have later := ih own distinct.2
    rw [List.map_cons, List.nodup_cons, later]
    cases given : r.interceptsData with
    | none =>
      have alone : r.site ∉ rs.map site := by
        intro mem
        obtain ⟨s, inside, same⟩ := List.mem_map.1 mem
        have place := location_eq_of_site_eq given same.symm
        apply distinct.1
        rw [ownFirst, place, ← own s inside]
        exact List.mem_map_of_mem inside
      rw [List.filterMap_cons_none given]
      exact and_iff_right alone
    | some token =>
      rw [List.filterMap_cons_some given, List.nodup_cons, site_eq_token_iff.2 given,
        token_mem_sites_iff]

end CallSiteRecord

/-! ## The tags of a pass -/

namespace Emission

variable {rs : List CallSiteRecord} {pairs : List (Routine × InterceptRecord)}
  (each : List.Forall₂ (fun r x => ∃ n, IsEmittedAs r n x.1 x.2) rs pairs)

include each

theorem tags_of_pairs :
    (pairs.map Prod.fst).map (·.tag) = rs.map fun r => tagText r.location r.interceptsData := by
  induction each with
  | nil => rfl
  | cons first _ ih =>
    obtain ⟨n, emitted⟩ := first
    rw [List.map_cons, List.map_cons, List.map_cons, ih, emitted.tag]

theorem tokens_of_pairs :
    (pairs.map Prod.snd).filterMap (·.interceptsData) = rs.filterMap (·.interceptsData) := by
  induction each with
  | nil => rfl
  | cons first _ ih =>
    obtain ⟨n, emitted⟩ := first
    rw [List.map_cons, List.filterMap_cons, List.filterMap_cons, ih, emitted.intercept]
    rfl

end Emission

/-- The routines of valid records carry different tags exactly when the call sites of the records
differ. -/
theorem Emission.nodup_tags_iff (options : UnitOptions) {rs : List CallSiteRecord}
    (valid : ∀ r ∈ rs, r.IsValid) (own : ∀ r ∈ rs, r.locationKey = r.location.key)
    (distinct : (rs.map (·.locationKey)).Nodup) :
    ((ofRecords options rs).routines.map (·.tag)).Nodup ↔
      ((ofRecords options rs).intercepts.filterMap (·.interceptsData)).Nodup := by
  obtain ⟨pairs, routines, intercepts, each⟩ := exists_pairs options valid
  have tags : (rs.map fun r => tagText r.location r.interceptsData).Nodup ↔
      (rs.map CallSiteRecord.site).Nodup := by
    unfold List.Nodup
    rw [List.pairwise_map, List.pairwise_map]
    exact List.Pairwise.iff fun r s => not_congr CallSiteRecord.tagText_eq_iff
  rw [routines, intercepts, tags_of_pairs each, tokens_of_pairs each, tags]
  exact CallSiteRecord.nodup_sites_iff own distinct

/-- The arguments of two tags are the same text exactly when both show the same token, or both
show no token and the same place.  The routines of a pass are those that its manifest names, and
no two of them carry the same tag exactly when the manifest lists no token twice. -/
theorem tags_tell_apart :
    (∀ (path path' : String) (line column line' column' : Int) (data data' : Option String),
      tagArguments path line column data = tagArguments path' line' column' data' ↔
        (∃ token, data = some token ∧ data' = some token) ∨
          data = none ∧ data' = none ∧ path = path' ∧ line = line' ∧ column = column') ∧
    ∀ (config : Config) (output descriptors : Place) (bytes : List UInt8),
      let plan := Plan.ofBatch config output descriptors (.ofBytes bytes)
      ∃ routines : List Routine,
        plan.source = unitText config.unitOptions (routines.map Routine.lines) ∧
        routines.map (·.name) = plan.intercepts.map (·.routineName) ∧
        ((routines.map (·.tag)).Nodup ↔
          (plan.intercepts.filterMap (·.interceptsData)).Nodup) := by
  refine ⟨fun _ _ _ _ _ _ _ _ => tagArguments_eq_iff, ?_⟩
  intro config output descriptors bytes plan
  have perm := CallSiteRecord.perm_sorted (keptRecords config bytes)
  have collected : ∀ r ∈ CallSiteRecord.sorted (keptRecords config bytes), r.IsCollected :=
    fun r mem => isCollected_of_mem_keptRecords (perm.mem_iff.1 mem)
  have distinct :
      ((CallSiteRecord.sorted (keptRecords config bytes)).map (·.locationKey)).Nodup :=
    (perm.map _).nodup_iff.2 (Collection.nodup_keys_records _ _)
  exact ⟨(passEmission config bytes).routines, rfl, Emission.names_routines _ _,
    Emission.nodup_tags_iff _ (fun r mem => (collected r mem).valid)
      (fun r mem => (collected r mem).key) distinct⟩

end CallSiteIds
