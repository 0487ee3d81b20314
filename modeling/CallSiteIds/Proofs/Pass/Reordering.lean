import CallSiteIds.Proofs.Emission.Order
import CallSiteIds.Proofs.Manifest.Reading
import CallSiteIds.Proofs.Pass.Calls

/-!
# Reordered descriptors

A pass sorts what it has collected, so the order of the descriptors matters in one place only:
of the candidates for one call site the first is kept.  Two files in which the same record is
built first for every key give the same source and the same manifest, byte for byte
(`output_of_reordered`).  Where two lines build different records for one call site the order
does show (`manifest_shows_order`).
-/

set_option autoImplicit false

namespace CallSiteIds

open Collection (firstWith? mem_records_iff nodup_keys_records firstWith?_records)

/-! ## Records -/

/-- In both files the same record is built first for every key. -/
def AgreeOnFirst (config : Config) (bytes bytes' : List UInt8) : Prop :=
  ∀ key, firstWith? key (builtRecords config bytes) = firstWith? key (builtRecords config bytes')

variable {config : Config} {bytes bytes' : List UInt8}

theorem mem_keptRecords_iff {r : CallSiteRecord} :
    r ∈ keptRecords config bytes ↔
      firstWith? r.locationKey (builtRecords config bytes) = some r :=
  mem_records_iff

/-- Kept records at the same place are the same. -/
theorem eq_of_location_eq {a b : CallSiteRecord} (ha : a ∈ keptRecords config bytes)
    (hb : b ∈ keptRecords config bytes) (same : a.location = b.location) : a = b := by
  have key {r : CallSiteRecord} (mem : r ∈ keptRecords config bytes) :
      r.locationKey = r.location.key := by
    obtain ⟨d, -, builds⟩ := Collection.exists_builds_of_mem_records mem
    exact builds.key
  have keys : a.locationKey = b.locationKey := by rw [key ha, key hb, same]
  have first := mem_keptRecords_iff.1 ha
  rw [keys, mem_keptRecords_iff.1 hb] at first
  injection first with first
  exact first.symm

theorem nodup_keptRecords (config : Config) (bytes : List UInt8) :
    (keptRecords config bytes).Nodup := by
  have keys := nodup_keys_records config.markerNames (DescriptorBatch.ofBytes bytes).descriptors
  rw [List.nodup_iff_pairwise_ne, List.pairwise_map] at keys
  exact keys.imp fun ne same => ne (congrArg _ same)

/-- The kept records are the same in some order exactly when the first records are. -/
theorem perm_keptRecords_iff :
    (keptRecords config bytes).Perm (keptRecords config bytes') ↔
      AgreeOnFirst config bytes bytes' := by
  rw [List.perm_ext_iff_of_nodup (nodup_keptRecords config bytes)
    (nodup_keptRecords config bytes')]
  simp only [mem_keptRecords_iff]
  constructor
  · intro same key
    have keyOf {rs : List CallSiteRecord} {r : CallSiteRecord} (h : firstWith? key rs = some r) :
        r.locationKey = key := by simpa using List.find?_some h
    apply Option.ext
    intro r
    constructor
    · intro h
      have e := keyOf h
      subst e
      exact (same r).1 h
    · intro h
      have e := keyOf h
      subst e
      exact (same r).2 h
  · intro agree r
    rw [agree]

/-- The sorted records are the same exactly when the first records are. -/
theorem sorted_keptRecords_iff :
    CallSiteRecord.sorted (keptRecords config bytes) =
        CallSiteRecord.sorted (keptRecords config bytes') ↔
      AgreeOnFirst config bytes bytes' := by
  rw [← perm_keptRecords_iff]
  constructor
  · intro same
    have left := CallSiteRecord.perm_sorted (keptRecords config bytes)
    rw [same] at left
    exact left.symm.trans (CallSiteRecord.perm_sorted _)
  · intro perm
    exact CallSiteRecord.sorted_eq_of_perm perm fun a ha b hb => eq_of_location_eq ha hb

/-- Of records that differ in their keys the first with a key is the only one. -/
theorem firstWith?_eq_some_iff {key : String} {r : CallSiteRecord} {rs : List CallSiteRecord}
    (alike : ∀ r ∈ rs, ∀ s ∈ rs, r.locationKey = s.locationKey → r = s) :
    firstWith? key rs = some r ↔ r ∈ rs ∧ r.locationKey = key := by
  constructor
  · intro found
    exact ⟨List.mem_of_find?_eq_some found, by simpa using List.find?_some found⟩
  · rintro ⟨mem, rfl⟩
    cases found : firstWith? r.locationKey rs with
    | none =>
      have missing := List.find?_eq_none.1 found r mem
      simp at missing
    | some s =>
      have same : s.locationKey = r.locationKey := by simpa using List.find?_some found
      rw [alike s (List.mem_of_find?_eq_some found) r mem same]

/-- Where candidates for one call site build one record, their order does not matter. -/
theorem agreeOnFirst_of_perm (perm : (Text.splitLines bytes).Perm (Text.splitLines bytes'))
    (alike : ∀ r ∈ builtRecords config bytes, ∀ s ∈ builtRecords config bytes,
      r.locationKey = s.locationKey → r = s) : AgreeOnFirst config bytes bytes' := by
  have built : (builtRecords config bytes).Perm (builtRecords config bytes') :=
    (DescriptorBatch.perm_descriptors perm).filterMap _
  have alike' : ∀ r ∈ builtRecords config bytes', ∀ s ∈ builtRecords config bytes',
      r.locationKey = s.locationKey → r = s :=
    fun r hr s hs => alike r (built.mem_iff.2 hr) s (built.mem_iff.2 hs)
  intro key
  apply Option.ext
  intro r
  rw [firstWith?_eq_some_iff alike, firstWith?_eq_some_iff alike', built.mem_iff]

/-! ## Output -/

theorem emission_eq_of_sorted_eq (options : Source.UnitOptions) {rs ss : List CallSiteRecord}
    (same : CallSiteRecord.sorted rs = CallSiteRecord.sorted ss) :
    Emission.generate options rs = Emission.generate options ss := by
  rw [Emission.generate, same]
  rfl

/-- Two files with the same lines in different orders give the generator the same records exactly
when the same record is built first for every key, and then the source and the manifest are the
same to the byte.  This is so for every order of the lines when candidates for one call site
build one record. -/
theorem output_of_reordered (config : Config)
    (output output' descriptors descriptors' : Place) {bytes bytes' : List UInt8}
    (perm : (Text.splitLines bytes).Perm (Text.splitLines bytes')) :
    (CallSiteRecord.sorted (keptRecords config bytes) =
        CallSiteRecord.sorted (keptRecords config bytes') ↔
      AgreeOnFirst config bytes bytes') ∧
    (AgreeOnFirst config bytes bytes' →
      (Plan.ofBatch config output descriptors (.ofBytes bytes)).source =
          (Plan.ofBatch config output' descriptors' (.ofBytes bytes')).source ∧
        (Plan.ofBatch config output descriptors (.ofBytes bytes)).manifestBytes =
          (Plan.ofBatch config output' descriptors' (.ofBytes bytes')).manifestBytes) ∧
    ((∀ r ∈ builtRecords config bytes, ∀ s ∈ builtRecords config bytes,
        r.locationKey = s.locationKey → r = s) →
      AgreeOnFirst config bytes bytes') := by
  refine ⟨sorted_keptRecords_iff, ?_, agreeOnFirst_of_perm perm⟩
  intro agree
  have emission := emission_eq_of_sorted_eq config.unitOptions
    (sorted_keptRecords_iff.2 agree)
  constructor
  · exact congrArg Emission.source emission
  · have intercepts := congrArg Emission.intercepts emission
    exact congrArg
      (fun is => Text.encodeUtf8 (Json.linesText (is.map InterceptRecord.toJson))) intercepts

/-! ## Two calls -/

/-- Two calls at different places may be described in either order. -/
theorem output_of_two_calls :
    let bytes := callFile [("F", 1), ("G", 2)]
    let bytes' := callFile [("G", 2), ("F", 1)]
    (Text.splitLines bytes).Perm (Text.splitLines bytes') ∧
      (Plan.ofBatch .usual ["out"] ["calls"] (.ofBytes bytes)).source =
        (Plan.ofBatch .usual ["out"] ["calls"] (.ofBytes bytes')).source ∧
      (Plan.ofBatch .usual ["out"] ["calls"] (.ofBytes bytes)).manifestBytes =
        (Plan.ofBatch .usual ["out"] ["calls"] (.ofBytes bytes')).manifestBytes := by
  have fits : ∀ c ∈ [("F", 1), ("G", 2)], Json.fitsWord ((c.2 : Nat) : Int) = true := by decide
  have perm := perm_splitLines_callFile (List.Perm.swap ("G", 2) ("F", 1) [])
  obtain ⟨-, same, alike⟩ :=
    output_of_reordered .usual ["out"] ["out"] ["calls"] ["calls"] perm
  refine ⟨perm, same (alike ?_)⟩
  rw [builtRecords_callFile fits]
  have apart : (markedRecord "F" 1).locationKey ≠ (markedRecord "G" 2).locationKey := by decide
  intro r hr s hs keys
  simp only [List.map_cons, List.map_nil, List.mem_cons, List.not_mem_nil, or_false] at hr hs
  rcases hr with rfl | rfl <;> rcases hs with rfl | rfl
  · rfl
  · exact absurd keys apart
  · exact absurd keys.symm apart
  · rfl

/-- Of two calls of different methods described at one place the first is kept. -/
theorem keptRecords_same_place (first second : String) :
    keptRecords .usual (callFile [(first, 1), (second, 1)]) = [markedRecord first 1] := by
  have fits : ∀ c ∈ [(first, 1), (second, 1)], Json.fitsWord ((c.2 : Nat) : Int) = true := by
    simp [Json.fitsWord]
  show Collection.recordsFrom _ [] (DescriptorBatch.ofBytes _).descriptors = _
  rw [descriptors_callFile fits, List.map_cons, List.map_cons, List.map_nil,
    Collection.recordsFrom_cons_new (built?_markedDescriptor first 1) (by simp),
    Collection.recordsFrom_cons_old]
  · rfl
  · intro r built
    rw [built?_markedDescriptor] at built
    injection built with built
    subst built
    exact List.mem_singleton.2 rfl

/-- The manifest of a file with two calls at one place lists the first only, and can be read. -/
theorem readManifest_same_place (first second : String) :
    let plan := Plan.ofBatch .usual ["out"] ["calls"]
      (.ofBytes (callFile [(first, 1), (second, 1)]))
    Validation.readManifest plan.manifestBytes = (plan.intercepts, []) ∧
      plan.intercepts.map (·.target) = ["N.A" ++ "." ++ first] := by
  have fits : ∀ c ∈ [(first, 1), (second, 1)], Json.fitsWord ((c.2 : Nat) : Int) = true := by
    simp [Json.fitsWord]
  have few : ∀ d ∈ (DescriptorBatch.ofBytes (callFile [(first, 1), (second, 1)])).descriptors,
      d.parameters.length < FileTree.sizeLimit := by
    rw [descriptors_callFile fits]
    intro d mem
    obtain ⟨c, -, rfl⟩ := List.mem_map.1 mem
    show 1 < FileTree.sizeLimit
    decide
  have small := Plan.fits_intercepts Config.usual.markerNames Config.usual.unitOptions few
  constructor
  · exact Validation.readManifest_linesText (fun i mem => (small i mem).2)
      (fun i mem => (small i mem).1) (Plan.nodup_names_ofBatch _ _ _ _)
      (Plan.nodup_keys_ofBatch _ _ _ _)
  · have listed := Plan.map_intercepts_ofBatch .usual ["out"] ["calls"]
      (callFile [(first, 1), (second, 1)])
    rw [keptRecords_same_place, CallSiteRecord.sorted, List.mergeSort_singleton] at listed
    have targets := congrArg (List.map Prod.snd) listed
    rw [List.map_map, List.map_map] at targets
    exact targets

/-- The order in which two methods are described at one place shows in the manifest: it is not the
case that every order of the lines gives the same source and the same manifest. -/
theorem manifest_shows_order :
    ¬∀ (config : Config) (output descriptors : Place) (bytes bytes' : List UInt8),
      (Text.splitLines bytes).Perm (Text.splitLines bytes') →
        (Plan.ofBatch config output descriptors (.ofBytes bytes)).source =
            (Plan.ofBatch config output descriptors (.ofBytes bytes')).source ∧
          (Plan.ofBatch config output descriptors (.ofBytes bytes)).manifestBytes =
            (Plan.ofBatch config output descriptors (.ofBytes bytes')).manifestBytes := by
  intro claim
  have perm := perm_splitLines_callFile (List.Perm.swap ("G", 1) ("F", 1) [])
  have same := (claim .usual ["out"] ["calls"] _ _ perm).2
  obtain ⟨read, targets⟩ := readManifest_same_place "F" "G"
  obtain ⟨read', targets'⟩ := readManifest_same_place "G" "F"
  rw [same, read'] at read
  injection read with intercepts _
  rw [intercepts, targets] at targets'
  exact absurd targets' (by decide)

end CallSiteIds
