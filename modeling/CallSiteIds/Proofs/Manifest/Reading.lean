import CallSiteIds.Proofs.Manifest.RoundTrip
import CallSiteIds.Validation

/-!
# Validation reads what a pass wrote

Validation reads a manifest line by line and remembers the records of the lines before, to
report a name or a call site that comes twice.  For a written manifest whose names and keys are
distinct the loop returns the records as they were and reports nothing.
-/

set_option autoImplicit false

namespace CallSiteIds.Validation

open Schema

/-- A record that starts on its own: current, small, and unlike the records before. -/
structure IsFresh (before : List InterceptRecord) (r : InterceptRecord) : Prop where
  fits : r.FitsWord
  version : r.schemaVersion = schemaVersion
  name : ∀ b ∈ before, b.routineName ≠ r.routineName
  key : ∀ b ∈ before, b.locationKey ≠ r.locationKey

/-- The line of a manifest record. -/
def lineOf (r : InterceptRecord) : List UInt8 :=
  Text.encodeUtf8 (Json.compact r.toJson)

theorem trimBoth_lineOf (r : InterceptRecord) :
    Text.trimBoth Text.isBlankByte (lineOf r) = lineOf r :=
  Json.trimBoth_object _

theorem isEmpty_lineOf (r : InterceptRecord) : (lineOf r).isEmpty = false := by
  rw [lineOf, InterceptRecord.toJson, Json.compact]
  rfl

/-- The line of a fresh record is read as that record, and nothing is found. -/
theorem readRecord_lineOf {before : List InterceptRecord} {r : InterceptRecord}
    (fresh : IsFresh before r) : readRecord before (lineOf r) = (some r, []) := by
  have deep : Json.nesting r.toJson ≤ Json.Rules.strict.depthLimit :=
    Nat.le_trans r.nesting_toJson_le (by decide)
  have name : (before.any fun b => b.routineName == r.routineName) = false := by
    simpa using fresh.name
  have key : (before.any fun b => b.locationKey == r.locationKey) = false := by
    simpa using fresh.key
  rw [readRecord, lineOf, Json.parseBytes?_compact (InterceptRecord.isPlain_toJson fresh.fits) deep]
  simp only [InterceptRecord.read_toJson, Checked.toExcept]
  rw [name, key, versionFindings, if_pos fresh.version]
  rfl

/-- The lines of records that are fresh one after the other are read as those records.  The
induction is on the lines, with what was read before them. -/
theorem readRecords_map_lineOf (before : List InterceptRecord) {rs : List InterceptRecord}
    (fits : ∀ r ∈ rs, r.FitsWord) (versions : ∀ r ∈ rs, r.schemaVersion = schemaVersion)
    (names : ((before ++ rs).map (·.routineName)).Nodup)
    (keys : ((before ++ rs).map (·.locationKey)).Nodup) (number : Nat) :
    readRecords number before (rs.map lineOf) = (rs, []) := by
  induction rs generalizing before number with
  | nil => rfl
  | cons r rs ih =>
    have fresh : IsFresh before r := by
      refine ⟨fits r List.mem_cons_self, versions r List.mem_cons_self, ?_, ?_⟩
      · intro b mem
        rw [List.map_append, List.nodup_append] at names
        exact names.2.2 _ (List.mem_map_of_mem mem) _ List.mem_cons_self
      · intro b mem
        rw [List.map_append, List.nodup_append] at keys
        exact keys.2.2 _ (List.mem_map_of_mem mem) _ List.mem_cons_self
    have later := ih (before ++ [r])
      (fun s mem => fits s (List.mem_cons_of_mem _ mem))
      (fun s mem => versions s (List.mem_cons_of_mem _ mem))
      (by simpa using names) (by simpa using keys) (number + 1)
    rw [List.map_cons, readRecords]
    simp only [trimBoth_lineOf, isEmpty_lineOf, readRecord_lineOf fresh, Option.toList_some, later]
    rfl

/-- A written manifest with distinct names and distinct keys is read back, and nothing is
found. -/
theorem readManifest_linesText {rs : List InterceptRecord} (fits : ∀ r ∈ rs, r.FitsWord)
    (versions : ∀ r ∈ rs, r.schemaVersion = schemaVersion)
    (names : (rs.map (·.routineName)).Nodup) (keys : (rs.map (·.locationKey)).Nodup) :
    readManifest (Text.encodeUtf8 (Json.linesText (rs.map InterceptRecord.toJson))) =
      (rs, []) := by
  rw [readManifest, Json.splitFeeds_linesText, List.map_map]
  exact readRecords_map_lineOf [] fits versions names keys 1

/-- A written summary of the current version is read back, and nothing is found. -/
theorem readSummary_documentText {s : GenerationSummary} (fits : s.FitsWord)
    (version : s.schemaVersion = schemaVersion) :
    readSummary (Text.encodeUtf8 (Json.documentText s.toJson)) = (some s, []) := by
  have deep : Json.nesting s.toJson ≤ Json.Rules.strict.depthLimit :=
    Nat.le_trans s.nesting_toJson_le (by decide)
  rw [readSummary,
    Json.parseBytes?_documentText (GenerationSummary.isPlain_toJson fits) deep]
  simp only [GenerationSummary.read_toJson, Checked.toExcept]
  rw [versionFindings, if_pos version]

end CallSiteIds.Validation
