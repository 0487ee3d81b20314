import CallSiteIds.Proofs.Decimal.Digits
import CallSiteIds.Proofs.Source.TextLiterals
import CallSiteIds.Proofs.Validation.Consistency
import Mathlib.Data.List.Nodup
import Mathlib.Data.List.Pairwise

/-!
# Call sites of a validated directory

A tag names the call site that the host reads from its arguments: a place, or a token of its
own.  What a record expects names the call site of that record alone (`names_tagArguments_iff`).

A directory in which validation finds nothing wrong can still intercept a call site twice: keys
are compared as texts, of several methods with one name the last is looked at, and further tags
of a method are not.  It intercepts each call site once exactly when no name carries two tags and
no two records have the same call site (`interceptsOnce_iff`).
-/

set_option autoImplicit false

namespace CallSiteIds

open Validation

namespace Source

/-- What the host finds a call by. -/
inductive CallSite where
  | place (file : String) (line column : Int)
  | token (data : String)
deriving DecidableEq, Repr

/-- Reads a literal of either form: the text it stands for, and what follows. -/
def literalValue? (cs : List Char) : Option (List Char × List Char) :=
  (verbatimValue? cs).or (regularValue? cs)

/-- The end of the arguments of a tag with a place, after the file. -/
def placeEnding (line column : Int) : List Char :=
  ',' :: ' ' :: (Decimal.integerText line ++ ',' :: ' ' :: (Decimal.integerText column ++ [')']))

/-- A tag names the call site that its arguments stand for, in whatever form the file or the
token is written. -/
inductive Names (tag : String) : CallSite → Prop where
  | place {cs file : List Char} {line column : Int} (written : tag.toList = '(' :: cs)
      (read : literalValue? cs = some (file, placeEnding line column)) :
      Names tag (.place (String.ofList file) line column)
  | token {cs data : List Char} (written : tag.toList = '(' :: '1' :: ',' :: ' ' :: cs)
      (read : literalValue? cs = some (data, [')'])) : Names tag (.token (String.ofList data))

/-- The call site that a tag is written for. -/
def siteOf (file : String) (line column : Int) : Option String → CallSite
  | some data => .token data
  | none => .place file line column

theorem placeEnding_injective {line column line' column' : Int}
    (h : placeEnding line column = placeEnding line' column') :
    line = line' ∧ column = column' := by
  have comma (i : Int) : ',' ∉ ' ' :: (Decimal.integerText i ++ [')']) := by
    simp [Decimal.notMem_integerText]
  injection h with _ h
  injection h with _ h
  obtain ⟨lines, columns⟩ := Text.append_cons_inj (comma column) (comma column') h
  injection columns with _ columns
  exact ⟨Decimal.integerText_injective lines,
    Decimal.integerText_injective (List.append_cancel_right columns)⟩

theorem literalValue?_verbatimLiteral (cs : List Char) {rest : List Char}
    (apart : ∀ c ∈ rest.head?, c ≠ '"') :
    literalValue? (verbatimLiteral cs ++ rest) = some (cs, rest) := by
  rw [literalValue?, verbatimValue?_verbatimLiteral cs apart, Option.some_or]

theorem literalValue?_regularLiteral (cs rest : List Char) :
    literalValue? (regularLiteral cs ++ rest) = some (cs, rest) := by
  have mark : verbatimValue? (regularLiteral cs ++ rest) = none := by
    rw [regularLiteral_append]
    rfl
  rw [literalValue?, mark, Option.none_or, regularValue?_regularLiteral]

theorem tagArguments_none_toList (path : String) (line column : Int) :
    (tagArguments path line column none).toList =
      '(' :: (verbatimLiteral path.toList ++ placeEnding line column) := by
  simp [tagArguments, placeEnding, Decimal.integerString]

theorem tagArguments_some_toList (path : String) (line column : Int) (data : String) :
    (tagArguments path line column (some data)).toList =
      '(' :: '1' :: ',' :: ' ' :: (regularLiteral data.toList ++ [')']) := by
  simp [tagArguments]

/-- What a place is written with is read as nothing else. -/
theorem names_iff_of_verbatim {tag : String} {file : List Char} {line column : Int}
    {site : CallSite}
    (written : tag.toList = '(' :: (verbatimLiteral file ++ placeEnding line column)) :
    Names tag site ↔ site = .place (String.ofList file) line column := by
  have read : literalValue? (verbatimLiteral file ++ placeEnding line column) =
      some (file, placeEnding line column) :=
    literalValue?_verbatimLiteral _ (by simp [placeEnding])
  constructor
  · intro names
    cases names with
    | place written' read' =>
      have same := (List.cons.inj (written.symm.trans written')).2
      rw [← same, read] at read'
      obtain ⟨rfl, ending⟩ := Prod.mk.inj (Option.some.inj read')
      obtain ⟨rfl, rfl⟩ := placeEnding_injective ending
      rfl
    | token written' =>
      have same := (List.cons.inj (written.symm.trans written')).2
      rw [verbatimLiteral_append] at same
      exact absurd (List.cons.inj same).1 (by decide)
  · rintro rfl
    exact .place written read

/-- What a token is written with is read as nothing else. -/
theorem names_iff_of_regular {tag : String} {data : List Char} {site : CallSite}
    (written : tag.toList = '(' :: '1' :: ',' :: ' ' :: (regularLiteral data ++ [')'])) :
    Names tag site ↔ site = .token (String.ofList data) := by
  have read := literalValue?_regularLiteral data [')']
  constructor
  · intro names
    cases names with
    | place written' read' =>
      have same := (List.cons.inj (written.symm.trans written')).2
      rw [← same] at read'
      simp [literalValue?, verbatimValue?, regularValue?] at read'
    | token written' read' =>
      have same := written.symm.trans written'
      simp only [List.cons.injEq, true_and] at same
      rw [← same, read] at read'
      obtain ⟨rfl, -⟩ := Prod.mk.inj (Option.some.inj read')
      rfl
  · rintro rfl
    exact .token written read

/-- The arguments that are written for a call site name that one and no other. -/
theorem names_tagArguments_iff {path : String} {line column : Int} {data : Option String}
    {site : CallSite} :
    Names (tagArguments path line column data) site ↔ site = siteOf path line column data := by
  cases data with
  | none => rw [names_iff_of_verbatim (tagArguments_none_toList path line column),
      String.ofList_toList, siteOf]
  | some data => rw [names_iff_of_regular (tagArguments_some_toList path line column data),
      String.ofList_toList, siteOf]

end Source

namespace Validation

open Source (CallSite Names TaggedMethod siteOf)

/-- The call site of a record: its token if it has one, and otherwise the place of its key. -/
def site? (r : InterceptRecord) : Option CallSite :=
  match r.interceptsData, Location.Position.ofKey r.locationKey with
  | some data, _ => some (.token data)
  | none, .ok p => some (.place p.file p.line p.column)
  | none, .error _ => none

/-- Two tags name no call site together. -/
def AreApart (a b : String) : Prop :=
  ∀ site, Names a site → ¬Names b site

/-- Each call site is intercepted once: no two tags name the same call site, each tag is the one
that the record of its method expects, and no two records without a token have the same place. -/
structure InterceptsOnce (records : List InterceptRecord) (methods : List TaggedMethod) :
    Prop where
  tags : (methods.flatMap (·.tags)).Pairwise AreApart
  expected : ∀ m ∈ methods, ∀ tag ∈ m.tags,
    ∃ r ∈ records, r.routineName = m.name ∧ Expects r tag
  places : (records.filter fun r => r.interceptsData.isNone).Pairwise fun a b =>
    ∀ p, Location.Position.ofKey a.locationKey = .ok p →
      Location.Position.ofKey b.locationKey ≠ .ok p

/-- Tags with the names of their methods. -/
def namedTags (methods : List TaggedMethod) : List (String × String) :=
  methods.flatMap fun m => m.tags.map fun tag => (m.name, tag)

/-- The name of its method for each tag. -/
def tagOwners (methods : List TaggedMethod) : List String :=
  (namedTags methods).map Prod.fst

variable {records : List InterceptRecord} {methods : List TaggedMethod} {r : InterceptRecord}

theorem mem_namedTags_iff {x : String × String} :
    x ∈ namedTags methods ↔ ∃ m ∈ methods, ∃ tag ∈ m.tags, x = (m.name, tag) := by
  simp [namedTags, eq_comm]

theorem map_snd_namedTags : (namedTags methods).map Prod.snd = methods.flatMap (·.tags) := by
  simp [namedTags, List.map_flatMap, Function.comp_def]

theorem names_iff_of_expects {tag : String} (expects : Expects r tag) {site : CallSite} :
    Names tag site ↔ site? r = some site := by
  obtain ⟨p, key, rfl⟩ := expects
  rw [Source.names_tagArguments_iff, site?, key]
  cases r.interceptsData <;> simp [siteOf, eq_comm]

theorem exists_names_of_expects {tag : String} (expects : Expects r tag) :
    ∃ site, Names tag site := by
  obtain ⟨p, -, rfl⟩ := expects
  exact ⟨_, Source.names_tagArguments_iff.2 rfl⟩

/-- A record that finds its tag finds it among those of the methods with its name. -/
theorem exists_mem_namedTags (tagged : HasTag methods r) :
    ∃ tag, (r.routineName, tag) ∈ namedTags methods ∧ Expects r tag := by
  obtain ⟨m, tag, ⟨named, before, after, split, -⟩, expects, mem⟩ := tagged
  refine ⟨tag, mem_namedTags_iff.2 ⟨m, ?_, tag, mem, by rw [named]⟩, expects⟩
  rw [split]
  exact List.mem_append_right _ List.mem_cons_self

/-- The tags of a source, when each is the one that the record of its method expects. -/
theorem exists_of_mem_namedTags
    (expected : ∀ m ∈ methods, ∀ tag ∈ m.tags,
      ∃ r ∈ records, r.routineName = m.name ∧ Expects r tag)
    {x : String × String} (mem : x ∈ namedTags methods) :
    ∃ r ∈ records, r.routineName = x.1 ∧ Expects r x.2 := by
  obtain ⟨m, memM, tag, memTag, rfl⟩ := mem_namedTags_iff.1 mem
  exact expected m memM tag memTag

section Agreement

variable (names : (records.map (·.routineName)).Nodup)

include names

/-- When the tags are apart and expected, a name has only one of them. -/
theorem nodup_tagOwners (once : InterceptsOnce records methods) : (tagOwners methods).Nodup := by
  have apart := once.tags
  rw [← map_snd_namedTags, List.pairwise_map] at apart
  rw [tagOwners, List.nodup_iff_pairwise_ne, List.pairwise_map]
  refine apart.imp_of_mem ?_
  intro x y memX memY apart same
  obtain ⟨r, memR, named, expects⟩ := exists_of_mem_namedTags once.expected memX
  obtain ⟨s, memS, named', expects'⟩ := exists_of_mem_namedTags once.expected memY
  obtain rfl : r = s :=
    List.inj_on_of_nodup_map names memR memS (named.trans (same.trans named'.symm))
  obtain ⟨site, namesX⟩ := exists_names_of_expects expects
  exact apart site namesX
    ((names_iff_of_expects expects').2 ((names_iff_of_expects expects).1 namesX))

/-- When the tags are apart and each record finds its own, no two records have one call site. -/
theorem nodup_sites (tagged : ∀ r ∈ records, HasTag methods r)
    (apart : (methods.flatMap (·.tags)).Pairwise AreApart) : (records.map site?).Nodup := by
  rw [← map_snd_namedTags, List.pairwise_map] at apart
  rw [List.nodup_iff_pairwise_ne, List.pairwise_map] at names ⊢
  refine names.imp_of_mem ?_
  intro r s memR memS other same
  obtain ⟨tag, mem, expects⟩ := exists_mem_namedTags (tagged r memR)
  obtain ⟨tag', mem', expects'⟩ := exists_mem_namedTags (tagged s memS)
  obtain ⟨site, named⟩ := exists_names_of_expects expects
  have named' : Names tag' site := by
    rw [names_iff_of_expects expects', ← same]
    exact (names_iff_of_expects expects).1 named
  have symmetric : Std.Symm fun x y : String × String => AreApart x.2 y.2 :=
    ⟨fun _ _ apart site named named' => apart site named' named⟩
  exact apart.forall mem mem' (fun equal => other (Prod.mk.inj equal).1) site named named'

end Agreement

/-- When a name has only one tag, it is the one that the record of that name finds. -/
theorem expects_of_nodup_tagOwners (owners : (tagOwners methods).Nodup)
    (tagged : ∀ r ∈ records, HasTag methods r)
    (listed : ∀ m ∈ methods, ∃ r ∈ records, r.routineName = m.name) :
    ∀ m ∈ methods, ∀ tag ∈ m.tags, ∃ r ∈ records, r.routineName = m.name ∧ Expects r tag := by
  intro m mem tag memTag
  obtain ⟨r, memR, named⟩ := listed m mem
  obtain ⟨found, memFound, expects⟩ := exists_mem_namedTags (tagged r memR)
  have same : (r.routineName, found) = (m.name, tag) :=
    List.inj_on_of_nodup_map owners memFound (mem_namedTags_iff.2 ⟨m, mem, tag, memTag, rfl⟩) named
  exact ⟨r, memR, named, (Prod.mk.inj same).2 ▸ expects⟩

/-- When a name has only one tag and a call site only one record, the tags are apart. -/
theorem pairwise_areApart (owners : (tagOwners methods).Nodup)
    (sites : (records.map site?).Nodup)
    (expected : ∀ m ∈ methods, ∀ tag ∈ m.tags,
      ∃ r ∈ records, r.routineName = m.name ∧ Expects r tag) :
    (methods.flatMap (·.tags)).Pairwise AreApart := by
  rw [← map_snd_namedTags, List.pairwise_map]
  rw [tagOwners, List.nodup_iff_pairwise_ne, List.pairwise_map] at owners
  refine owners.imp_of_mem ?_
  intro x y memX memY other site namesX namesY
  obtain ⟨r, memR, named, expects⟩ := exists_of_mem_namedTags expected memX
  obtain ⟨s, memS, named', expects'⟩ := exists_of_mem_namedTags expected memY
  obtain rfl : r = s := List.inj_on_of_nodup_map sites memR memS
    (((names_iff_of_expects expects).1 namesX).trans
      ((names_iff_of_expects expects').1 namesY).symm)
  exact other (named.symm.trans named')

/-- Records with different call sites have different places when they have no token. -/
theorem pairwise_places (sites : (records.map site?).Nodup) :
    (records.filter fun r => r.interceptsData.isNone).Pairwise fun a b =>
      ∀ p, Location.Position.ofKey a.locationKey = .ok p →
        Location.Position.ofKey b.locationKey ≠ .ok p := by
  rw [List.nodup_iff_pairwise_ne, List.pairwise_map] at sites
  refine (sites.filter _).imp_of_mem ?_
  intro a b memA memB other p key key'
  have absent := (List.mem_filter.1 memA).2
  have absent' := (List.mem_filter.1 memB).2
  rw [Option.isNone_iff_eq_none] at absent absent'
  apply other
  rw [site?, site?, absent, absent', key, key']

end Validation

/-- A directory in which validation finds nothing wrong intercepts each call site once exactly
when no name carries two tags and no two records have the same call site. -/
theorem interceptsOnce_iff {t : FileTree} {directory : Path} {asked : Option String}
    {report : Report} (h : validate t directory asked = .ok report)
    (clean : report.isClean = true) :
    ∃ summary lines methods, IsConsistent t directory asked summary lines methods ∧
      (InterceptsOnce (recordsOn lines) methods ↔
        (tagOwners methods).Nodup ∧ ((recordsOn lines).map site?).Nodup) := by
  obtain ⟨summary, lines, methods, consistent⟩ := exists_isConsistent h clean
  have names := consistent.sound.names
  refine ⟨summary, lines, methods, consistent, ?_, ?_⟩
  · intro once
    exact ⟨nodup_tagOwners names once, nodup_sites names consistent.tagged once.tags⟩
  · rintro ⟨owners, sites⟩
    have expected :=
      expects_of_nodup_tagOwners owners consistent.tagged consistent.listed
    exact ⟨pairwise_areApart owners sites expected, expected, pairwise_places sites⟩

/-- The files of one routine intercept its call site once. -/
theorem interceptsOnce_oneRoutine :
    ∃ report, validate (oneTree "") top none = .ok report ∧
      report.isClean = true ∧
      InterceptsOnce (recordsOn (Text.splitFeeds (oneManifest "")))
        [⟨"R", 1, ["(@\"a.cs\", 1, 2)"]⟩] := by
  obtain ⟨report, done, clean⟩ := exists_isClean isConsistent_oneRoutine
  refine ⟨report, done, clean, ?_⟩
  obtain ⟨summary, lines, methods, consistent, once⟩ := interceptsOnce_iff done clean
  obtain ⟨-, sameLines, sameMethods⟩ := consistent.unique isConsistent_oneRoutine
  rw [sameLines, sameMethods] at once
  exact once.2 ⟨by decide +kernel, by decide +kernel⟩

/-- The summary of a pass with two routines. -/
def twoSummary : List UInt8 :=
  Text.utf8 ("\x7b\"source_name\":\"PraefixumInterceptor.g.cs\",\"candidate_count\":2," ++
    "\"record_count\":2,\"routine_count\":2\x7d")

/-- A manifest that writes one place in two ways. -/
def twoManifest : List UInt8 :=
  Text.utf8 ("\x7b\"routine_name\":\"R\",\"target\":\"N.A.F\",\"return_type\":\"void\"," ++
    "\"location_key\":\"a.cs:1:2\",\"literals\":[]\x7d\n" ++
    "\x7b\"routine_name\":\"S\",\"target\":\"N.A.F\",\"return_type\":\"void\"," ++
    "\"location_key\":\"a.cs:1:02\",\"literals\":[]\x7d\n")

/-- A source with that place twice, and with a tag of its own. -/
def twoSource : String :=
  "class C \x7b [InterceptsLocation(@\"a.cs\", 1, 2)] void R() \x7b \x7d " ++
    "[InterceptsLocation(@\"a.cs\", 1, 2), InterceptsLocation(@\"b.cs\", 3, 4)] " ++
    "void S() \x7b \x7d \x7d"

/-- A directory with these files. -/
def twoTree : FileTree :=
  topTree twoSummary twoManifest (Text.utf8 twoSource)

theorem recordsOn_twoManifest : recordsOn (Text.splitFeeds twoManifest) =
    [⟨1, "R", "N.A.F", "void", "a.cs:1:2", none, []⟩,
      ⟨1, "S", "N.A.F", "void", "a.cs:1:02", none, []⟩] := by decide +kernel

theorem isConsistent_twice :
    IsConsistent twoTree top none
      ⟨1, Artifact.usualSourceName, 2, 2, 2, [], []⟩ (Text.splitFeeds twoManifest)
      [⟨"R", 1, ["(@\"a.cs\", 1, 2)"]⟩, ⟨"S", 1, ["(@\"a.cs\", 1, 2)", "(@\"b.cs\", 3, 4)"]⟩] := by
  refine isConsistent_topTree (by decide +kernel) rfl (by decide +kernel)
    ⟨twoSource.toList, by decide +kernel, by decide +kernel⟩ ?_ ?_
    (by rw [recordsOn_twoManifest]; rfl)
  · rw [recordsOn_twoManifest]
    intro r mem
    rcases List.mem_pair.1 mem with rfl | rfl
    · exact ⟨_, _, ⟨rfl, [], _, rfl, by simp⟩, ⟨⟨"a.cs", 1, 2⟩, rfl, rfl⟩, by decide +kernel⟩
    · exact ⟨_, _, ⟨rfl, [_], [], rfl, by simp⟩, ⟨⟨"a.cs", 1, 2⟩, rfl, rfl⟩, by decide +kernel⟩
  · rw [recordsOn_twoManifest]
    intro m mem
    rcases List.mem_pair.1 mem with rfl | rfl
    · exact ⟨_, List.mem_cons_self, rfl⟩
    · exact ⟨_, List.mem_cons_of_mem _ List.mem_cons_self, rfl⟩

/-- Nothing is found in a directory whose two routines intercept the same place and whose second
routine has a tag that no record expects. -/
theorem exists_isClean_twice :
    ∃ report summary lines methods,
      validate twoTree top none = .ok report ∧
      report.isClean = true ∧
      IsConsistent twoTree top none summary lines
        methods ∧
      ¬(methods.flatMap (·.tags)).Pairwise AreApart ∧
      (∃ m ∈ methods, ∃ tag ∈ m.tags, ∀ r ∈ recordsOn lines, ¬Expects r tag) ∧
      ∃ a b p, recordsOn lines = [a, b] ∧ a.interceptsData = none ∧ b.interceptsData = none ∧
        Location.Position.ofKey a.locationKey = .ok p ∧
        Location.Position.ofKey b.locationKey = .ok p := by
  obtain ⟨report, done, clean⟩ := exists_isClean isConsistent_twice
  refine ⟨report, _, _, _, done, clean, isConsistent_twice, ?_, ?_, ?_⟩
  · intro apart
    have text : Source.tagArguments "a.cs" 1 2 none = "(@\"a.cs\", 1, 2)" := by decide +kernel
    have tag : Source.Names "(@\"a.cs\", 1, 2)" (.place "a.cs" 1 2) := by
      rw [← text]
      exact Source.names_tagArguments_iff.2 rfl
    exact List.rel_of_pairwise_cons apart List.mem_cons_self _ tag tag
  · refine ⟨_, List.mem_cons_of_mem _ List.mem_cons_self, "(@\"b.cs\", 3, 4)", by decide, ?_⟩
    rw [recordsOn_twoManifest]
    rintro r mem ⟨p, key, same⟩
    rcases List.mem_pair.1 mem with rfl | rfl
    · cases key
      exact absurd same (by decide +kernel)
    · cases key
      exact absurd same (by decide +kernel)
  · exact ⟨_, _, ⟨"a.cs", 1, 2⟩, recordsOn_twoManifest, rfl, rfl, rfl, rfl⟩

end CallSiteIds
