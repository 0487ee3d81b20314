import CallSiteIds.Proofs.Emission.Order
import CallSiteIds.Proofs.Emission.ReadBack
import CallSiteIds.Proofs.Pass.Calls
import CallSiteIds.Proofs.Source.Folding
import CallSiteIds.Proofs.Validation.Consistency

/-!
# Validation of a fresh source

A source is written as it is, but validation reads it with its line terminators folded.  What is
read of a tag is therefore the tag of the folded path, and it is compared with the tag of the path
as the manifest has it.  The two agree exactly when a token is shown or the path has no carriage
return (`tagArguments_folded_eq_iff`).
-/

set_option autoImplicit false

namespace CallSiteIds

open Source Validation
open Declaration
open Text (foldNewlines)

/-! ## Collected records -/

/-- A record as a descriptor file can give it: its key is that of its place, and the numbers of
its place can be read back. -/
structure CallSiteRecord.IsCollected (r : CallSiteRecord) : Prop where
  valid : r.IsValid
  key : r.locationKey = r.location.key
  line : Decimal.HasFewDigits r.location.line
  column : Decimal.HasFewDigits r.location.column

theorem isCollected_of_mem_keptRecords {config : Config} {bytes : List UInt8}
    {r : CallSiteRecord} (kept : r ∈ keptRecords config bytes) : r.IsCollected := by
  obtain ⟨d, inside, builds⟩ := Collection.exists_builds_of_mem_records kept
  have measured := DescriptorBatch.isMeasured_of_mem_descriptors inside
  obtain ⟨line, column⟩ := measured.position r.location builds.location
  exact ⟨CallSiteRecord.isValid_of_mem_records kept, builds.key, line, column⟩

/-- A record whose tag is not changed by folding, and can be read at all: it shows a token, or a
path without carriage returns and null characters. -/
def CallSiteRecord.IsSteady (r : CallSiteRecord) : Prop :=
  r.interceptsData = none → '\r' ∉ r.location.path.toList ∧ '\x00' ∉ r.location.path.toList

/-! ## Reading one tag -/

namespace Validation

theorem IsSource.unique {bytes : List UInt8} {methods others : List TaggedMethod}
    (h : IsSource bytes methods) (h' : IsSource bytes others) : methods = others := by
  obtain ⟨cs, decoded, read⟩ := h
  obtain ⟨cs', decoded', read'⟩ := h'
  rw [decoded] at decoded'
  cases decoded'
  rw [read] at read'
  exact Option.some.inj read'

theorem isLastNamed_of_mem {methods : List TaggedMethod}
    (distinct : (methods.map (·.name)).Nodup) {m : TaggedMethod} (mem : m ∈ methods) :
    IsLastNamed methods m.name m := by
  obtain ⟨before, after, rfl⟩ := List.append_of_mem mem
  refine ⟨rfl, before, after, rfl, fun n inside same => ?_⟩
  rw [List.map_append, List.map_cons] at distinct
  have later := (List.nodup_cons.1 distinct.of_append_right).1
  exact later (List.mem_map.2 ⟨n, inside, same⟩)

/-- When no two methods share a name, a record is checked against the method with its name. -/
theorem hasTag_iff_of_mem {methods : List TaggedMethod} {i : InterceptRecord}
    (distinct : (methods.map (·.name)).Nodup) {m : TaggedMethod} (mem : m ∈ methods)
    (name : m.name = i.routineName) : HasTag methods i ↔ tagFindings i m = [] := by
  have named : methodNamed? methods i.routineName = some m :=
    methodNamed?_eq_some_iff.2 (name ▸ isLastNamed_of_mem distinct mem)
  rw [← routineFindings_eq_nil_iff, routineFindings, named]
  exact List.map_eq_nil_iff

end Validation

/-- The tags that are read of a text, as validation reads it, if it is nothing but attributes. -/
def readTags? (cs : List Char) : Option (List String) :=
  (Lexeme.ofSource? (foldNewlines cs)).bind fun ls =>
    (attributeLists (ls.length + 1) ls).bind fun (tags, rest) =>
      if rest.isEmpty then some tags else none

/-- The text between the start of the line of a tag and the arguments of the tag. -/
def tagOpening : List Char :=
  (indentTwice ("[" ++ tagAttribute)).toList

/-- What validation reads of the tag of a routine: the lines of the routine stand in the source,
the first of them is read as the tag with the given arguments, and so are its attributes unless
there is a null character in them. -/
structure ReadsTag (bytes : List UInt8) (made : Routine) (arguments : String) : Prop where
  line : ∃ cs before after, Text.decodeUtf8? bytes = some cs ∧
    cs = before ++ linesText (made.lines.map memberLine) ++ after ∧
    foldNewlines cs = foldNewlines before ++ tagOpening ++ arguments.toList ++
      ']' :: '\n' :: foldNewlines (linesText (made.lines.tail.map memberLine) ++ after)
  attributes : '\x00' ∉ arguments.toList → readTags? made.tag.toList = some [arguments]

section OneTag

variable {l : SourceLocation} {data : Option String}

theorem null_mem_tagArguments {path : String} (null : '\x00' ∈ path.toList) (line column : Int) :
    '\x00' ∈ (tagArguments path line column none).toList := by
  have literal : '\x00' ∈ verbatimLiteral path.toList :=
    List.mem_append_left _ <| List.mem_cons_of_mem _ <| List.mem_cons_of_mem _ <|
      List.mem_flatMap.2 ⟨_, null, by decide⟩
  simp [tagArguments, literal]

/-- A tag is read as the tag of the folded path. -/
theorem readTags?_tagText (noNull : '\x00' ∉ (l.foldedArguments data).toList) :
    readTags? (tagText l data).toList = some [l.foldedArguments data] := by
  have readable : data = none → '\x00' ∉ l.folded.path.toList := by
    rintro rfl null
    exact noNull (null_mem_tagArguments null _ _)
  obtain ⟨ps, nonempty, each, ⟨inside, same, lexes⟩, written⟩ :=
    isTagArguments_tagArguments l.folded.path l.line l.column readable
  have text : ("[" ++ tagAttribute ++ ("(" ++ inside) ++ "]").toList =
      foldNewlines (tagText l data).toList := by
    rw [← same, ← String.toList_ofList (l := foldNewlines _)]
    exact congrArg String.toList (foldLine_tagText l data).symm
  have cuts := lexes_tag lexes [] [] (by simp [Stops]) (.blanks (by simp))
  rw [List.append_nil, List.append_nil, text] at cuts
  obtain ⟨ls, read, are⟩ := exists_ofSource_of_cuts cuts
  obtain ⟨tags, areTags, lists⟩ := exists_attributeLists (isAttribute_tag nonempty each) are
  have attributes := lists (ls.length + 1) [] (by omega) rfl
  obtain ⟨here, others, first, last, rfl⟩ := List.forall₂_cons_right_iff.1 areTags
  rw [List.forall₂_nil_right_iff.1 last, tags_eq_of_isTagsOf first, written,
    List.append_nil] at attributes
  rw [readTags?, read, Option.bind_some, attributes]
  rfl

end OneTag

namespace CallSiteRecord.IsCollected

variable {r : CallSiteRecord} {n : Nat} {made : Routine} {i : InterceptRecord}

/-- The manifest record of a collected record expects the tag of its place and token. -/
theorem expects_iff (collected : r.IsCollected) (emitted : IsEmittedAs r n made i) {tag : String} :
    Expects i tag ↔
      tag = tagArguments r.location.path r.location.line r.location.column r.interceptsData := by
  have key : Location.Position.ofKey i.locationKey =
      .ok ⟨r.location.path, r.location.line, r.location.column⟩ := by
    rw [emitted.locationKey, collected.key]
    exact Location.ofKey_key r.location.key_eq collected.line collected.column
  have data : i.interceptsData = r.interceptsData := by
    rw [emitted.intercept]
    rfl
  rw [Expects, key, data]
  simp

/-- The folded tag is the expected one when a token is shown or the path has no carriage return. -/
theorem tagFindings_eq_nil_iff (collected : r.IsCollected) (emitted : IsEmittedAs r n made i)
    {m : TaggedMethod} (tags : m.tags = [r.location.foldedArguments r.interceptsData]) :
    tagFindings i m = [] ↔ (r.interceptsData = none → '\r' ∉ r.location.path.toList) := by
  rw [Validation.tagFindings_eq_nil_iff, tags, ← foldedArguments_eq_iff]
  simp only [collected.expects_iff emitted, List.mem_singleton, exists_eq_left]
  exact eq_comm

end CallSiteRecord.IsCollected

/-! ## Reading the whole source -/

namespace CallSiteRecord

variable {r : CallSiteRecord} {n : Nat} {made : Routine} {i : InterceptRecord}

/-- A record with its path folded. -/
def folded (r : CallSiteRecord) : CallSiteRecord :=
  { r with location := r.location.folded }

theorem IsValid.folded (valid : r.IsValid) : r.folded.IsValid :=
  ⟨valid.marked, valid.inRange, valid.distinct, valid.settled⟩

theorem IsPlain.folded (plain : r.IsPlain) : r.folded.IsPlain :=
  ⟨plain.targetType, plain.methodName, plain.returnType, plain.parameters⟩

theorem IsReadable.folded (readable : r.IsReadable) : r.folded.IsReadable := by
  intro none mem
  refine readable none ?_
  rwa [CallSiteRecord.folded, SourceLocation.folded, foldLine, String.toList_ofList,
    Text.mem_foldNewlines_iff (by decide) (by decide)] at mem

/-- The literals of a record depend on its key, and not on its path. -/
theorem literalsOf_folded (ms : List MarkedParameter) :
    r.folded.literalsOf ms = r.literalsOf ms := by
  induction ms with
  | nil => rfl
  | cons m ms ih =>
    rw [literalsOf, literalsOf, ih]
    rfl

end CallSiteRecord

namespace IsEmittedAs

variable {r : CallSiteRecord} {n : Nat} {made : Routine} {i : InterceptRecord}

theorem tag (emitted : IsEmittedAs r n made i) :
    made.tag = tagText r.location r.interceptsData := by
  rw [emitted.routine]
  rfl

/-- The routine of a folded record is the routine with its tag folded. -/
theorem folded (emitted : IsEmittedAs r n made i) : IsEmittedAs r.folded n made.folded i where
  literals := (CallSiteRecord.literalsOf_folded _).trans emitted.literals
  routine := by
    rw [emitted.routine, Routine.folded]
    simp only [CallSiteRecord.routine, foldLine_tagText]
    rfl
  intercept := emitted.intercept

/-- A carriage return in the routine of a record with plain names stands in its tag. -/
theorem isReturnless (emitted : IsEmittedAs r n made i) (plain : r.IsPlain) :
    made.IsReturnless := by
  rw [emitted.routine]
  constructor
  · have identifier : isIdentifier (String.ofList (toIdentifier r.methodName.toList)).toList :=
      by rw [String.toList_ofList, isIdentifier_toIdentifier]
    exact hasNoReturn_of_isIdentifier (isPlainName_numbered identifier n).identifier
  · exact plain.returnType.hasNoReturn
  · exact hasNoReturn_calleeText plain.targetType plain.methodName _
  · intro t mem
    rcases List.mem_append.1 mem with mem | mem
    · split at mem
      · cases mem
      · rw [List.mem_singleton.1 mem]
        exact hasNoReturn_receiverText plain.targetType
    · obtain ⟨p, inside, rfl⟩ := List.mem_map.1 mem
      exact (plain.parameters p inside).hasNoReturn
  · intro f mem
    obtain ⟨⟨p, k⟩, inside, rfl⟩ := List.mem_map.1 mem
    exact (plain.parameters p (List.fst_mem_of_mem_zipIdx inside)).name.identifier

end IsEmittedAs

theorem exists_of_mem_of_forall₂ {α β : Type} {R : α → β → Prop} {as : List α} {bs : List β}
    (each : List.Forall₂ R as bs) : ∀ a ∈ as, ∃ b ∈ bs, R a b := by
  induction each with
  | nil => simp
  | cons first _ ih =>
    refine List.forall_mem_cons.2 ⟨⟨_, List.mem_cons_self, first⟩, fun a mem => ?_⟩
    obtain ⟨b, inside, related⟩ := ih a mem
    exact ⟨b, List.mem_cons_of_mem _ inside, related⟩

namespace Emission

variable {options : UnitOptions} {rs : List CallSiteRecord} {r : CallSiteRecord} {n : Nat}
  {made : Routine} {i : InterceptRecord}

/-- The lines of a routine stand together in the file. -/
theorem exists_unitText (options : UnitOptions) {routines : List (List String)}
    {routine : List String} (mem : routine ∈ routines) : ∃ before after,
      (unitText options routines).toList =
        before ++ linesText (routine.map memberLine) ++ after := by
  have inside : ∃ xs ys, memberLines routines = xs ++ routine.map memberLine ++ ys := by
    fun_induction memberLines routines with
    | case1 => cases mem
    | case2 only => exact ⟨[], [], by simp [List.mem_singleton.1 mem]⟩
    | case3 first rest _ ih =>
      rcases List.mem_cons.1 mem with rfl | mem
      · exact ⟨[], _, rfl⟩
      · obtain ⟨xs, ys, same⟩ := ih mem
        exact ⟨first.map memberLine ++ "" :: xs, ys, by simp [same]⟩
  obtain ⟨xs, ys, same⟩ := inside
  refine ⟨linesText (frontLines options ++ xs), linesText (ys ++ backLines), ?_⟩
  rw [toList_unitText_eq_linesText options (List.ne_nil_of_mem mem), unitLines_eq, same]
  simp [linesText]

theorem toList_memberLine_tagText (l : SourceLocation) (data : Option String) :
    (memberLine (tagText l data)).toList =
      tagOpening ++ ((tagArguments l.path l.line l.column data).toList ++ [']']) := by
  have visible : (tagText l data).isEmpty = false := by
    rw [Bool.eq_false_iff, ne_eq, String.isEmpty_iff, ← String.toList_inj]
    simp [tagText]
  rw [memberLine, visible, if_neg Bool.false_ne_true]
  simp [tagText, tagOpening, indentTwice]

/-- Validation reads the tag of a record as the tag of the folded path, whatever names there are. -/
theorem readsTag (emitted : IsEmittedAs r n made i) (mem : made ∈ (ofRecords options rs).routines) :
    ReadsTag (Text.utf8 (ofRecords options rs).source) made
      (r.location.foldedArguments r.interceptsData) := by
  have inside : made.lines ∈ (ofRecords options rs).routines.map Routine.lines :=
    List.mem_map_of_mem mem
  obtain ⟨before, after, text⟩ := exists_unitText options inside
  refine ⟨⟨_, before, after, Text.decodeUtf8?_encodeUtf8 _, text, ?_⟩, fun noNull => ?_⟩
  · have source : (ofRecords options rs).source =
      unitText options ((ofRecords options rs).routines.map Routine.lines) := rfl
    have first : linesText (made.lines.map memberLine) = (memberLine made.tag).toList ++
        '\n' :: linesText (made.lines.tail.map memberLine) := linesText_cons _ _
    have visible : tagOpening.head? = some ' ' := by decide +kernel
    have opens : (memberLine made.tag).toList.head? = some ' ' := by
      rw [emitted.tag, toList_memberLine_tagText, List.head?_append, visible, Option.some_or]
    have apart : EndsApart (memberLine made.tag) :=
      endsApart_memberLine (emitted.tag ▸ endsApart_tagText _ _)
    have folded : foldNewlines (memberLine made.tag).toList =
        (memberLine (tagText r.location.folded r.interceptsData)).toList := by
      rw [← foldLine_tagText, ← foldLine_memberLine, ← emitted.tag, foldLine,
        String.toList_ofList]
    rw [source, text, first, List.append_assoc, List.append_assoc, List.cons_append,
      Text.foldNewlines_append fun _ => by simp [opens],
      Text.foldNewlines_append fun last => absurd last apart,
      Text.foldNewlines_cons (by decide), folded, toList_memberLine_tagText]
    simp [SourceLocation.foldedArguments, SourceLocation.folded]
  · rw [emitted.tag]
    exact readTags?_tagText noNull

/-- The source of valid records with plain names is read as its routines with folded tags. -/
theorem exists_isSource (named : options.IsPlain) (valid : ∀ r ∈ rs, r.IsValid)
    (plain : ∀ r ∈ rs, r.IsPlain) (readable : ∀ r ∈ rs, r.IsReadable) :
    ∃ methods, IsSource (Text.utf8 (ofRecords options rs).source) methods ∧
      List.Forall₂ Routine.IsFoundAs ((ofRecords options rs).routines.map Routine.folded)
        (methods.map Declaration.signature) := by
  obtain ⟨pairs, routines, -, each⟩ := exists_pairs options valid
  have folded : List.Forall₂ (fun r x => ∃ n, IsEmittedAs r n x.1 x.2)
      (rs.map CallSiteRecord.folded) (pairs.map fun x => (x.1.folded, x.2)) := by
    rw [List.forall₂_map_left_iff, List.forall₂_map_right_iff]
    exact each.imp fun r x ⟨n, emitted⟩ => ⟨n, emitted.folded⟩
  have isPlain := isPlain_of_pairs folded
    (List.forall_mem_map.2 fun r mem => (valid r mem).folded)
    (List.forall_mem_map.2 fun r mem => (plain r mem).folded)
    (List.forall_mem_map.2 fun r mem => (readable r mem).folded)
  have same : (pairs.map fun x => (x.1.folded, x.2)).map Prod.fst =
      (ofRecords options rs).routines.map Routine.folded := by
    rw [routines, List.map_map, List.map_map]
    rfl
  rw [same] at isPlain
  obtain ⟨methods, read, areFound⟩ := exists_taggedMethods named isPlain
  have back := exists_of_mem_of_forall₂ each.flip
  have made : ∀ made ∈ (ofRecords options rs).routines, made.IsReturnless ∧ EndsApart made.tag := by
    rw [routines, List.forall_mem_map]
    intro x mem
    obtain ⟨r, inside, n, emitted⟩ := back x mem
    exact ⟨emitted.isReturnless (plain r inside), emitted.tag ▸ endsApart_tagText _ _⟩
  refine ⟨methods, ⟨_, Text.decodeUtf8?_encodeUtf8 _, ?_⟩, areFound⟩
  have text : (ofRecords options rs).source =
      unitText options ((ofRecords options rs).routines.map Routine.lines) := rfl
  rw [text, foldNewlines_unitText named (fun r mem => (made r mem).1) fun r mem => (made r mem).2]
  exact read

/-- A source that shows a path with a null character is not well formed. -/
theorem not_isSource_of_null (valid : ∀ r ∈ rs, r.IsValid) {r : CallSiteRecord} (mem : r ∈ rs)
    (unreadable : ¬r.IsReadable) (methods : List TaggedMethod) :
    ¬IsSource (Text.utf8 (ofRecords options rs).source) methods := by
  obtain ⟨none, null⟩ : r.interceptsData = none ∧ '\x00' ∈ r.location.path.toList := by
    simpa [CallSiteRecord.IsReadable] using unreadable
  obtain ⟨pairs, routines, -, each⟩ := exists_pairs options valid
  obtain ⟨x, inside, n, emitted⟩ := exists_of_mem_of_forall₂ each r mem
  have made : x.1 ∈ (ofRecords options rs).routines := by
    rw [routines]
    exact List.mem_map_of_mem inside
  have whole : '\x00' ∈ foldNewlines (ofRecords options rs).source.toList := by
    obtain ⟨cs, before, after, decoded, -, text⟩ := (readsTag emitted made).line
    rw [Text.utf8, Text.decodeUtf8?_encodeUtf8, Option.some.injEq] at decoded
    have arguments : '\x00' ∈ (r.location.foldedArguments r.interceptsData).toList := by
      rw [none]
      refine null_mem_tagArguments ?_ _ _
      rwa [SourceLocation.folded, foldLine, String.toList_ofList,
        Text.mem_foldNewlines_iff (by decide) (by decide)]
    rw [decoded, text]
    simp [arguments]
  rintro ⟨cs, decoded, read⟩
  rw [Text.utf8, Text.decodeUtf8?_encodeUtf8, Option.some.injEq] at decoded
  subst decoded
  rw [taggedMethods?, ofSource?_eq_none_of_null whole] at read
  cases read

/-- The method that is read for a routine: its tag is the folded one. -/
theorem exists_method {pairs : List (Routine × InterceptRecord)} {methods : List TaggedMethod}
    (areFound : List.Forall₂ Routine.IsFoundAs ((pairs.map Prod.fst).map Routine.folded)
      (methods.map Declaration.signature))
    {x : Routine × InterceptRecord} (mem : x ∈ pairs) {r : CallSiteRecord} {n : Nat}
    (emitted : IsEmittedAs r n x.1 x.2) :
    ∃ m ∈ methods, m.name = x.2.routineName ∧
      m.tags = [r.location.foldedArguments r.interceptsData] := by
  obtain ⟨found, inside, isFound⟩ := exists_of_mem_of_forall₂ areFound x.1.folded
    (List.mem_map_of_mem (List.mem_map_of_mem mem))
  obtain ⟨m, method, rfl⟩ := List.mem_map.1 inside
  have data : x.2.interceptsData = r.interceptsData := by
    rw [emitted.intercept]
    rfl
  have same := emitted.folded.eq_of_isFoundAs isFound
  rw [data] at same
  obtain ⟨name, tags⟩ := Prod.mk.inj same
  exact ⟨m, method, name, tags⟩

/-- The methods that are read have the names that the manifest lists, in order. -/
theorem names_eq_of_areFound {pairs : List (Routine × InterceptRecord)}
    {methods : List TaggedMethod}
    (each : List.Forall₂ (fun r x => ∃ n, IsEmittedAs r n x.1 x.2) rs pairs)
    (areFound : List.Forall₂ Routine.IsFoundAs ((pairs.map Prod.fst).map Routine.folded)
      (methods.map Declaration.signature)) :
    methods.map (·.name) = (pairs.map Prod.snd).map (·.routineName) := by
  rw [List.map_map, List.forall₂_map_left_iff, List.forall₂_map_right_iff] at areFound
  have listed : ∀ x ∈ pairs, x.1.name = x.2.routineName := by
    intro x mem
    obtain ⟨r, -, n, emitted⟩ := exists_of_mem_of_forall₂ each.flip x mem
    exact emitted.routineName.symm
  have names : List.Forall₂ (· = ·) (methods.map (·.name)) (pairs.map (·.1.name)) := by
    rw [List.forall₂_map_left_iff, List.forall₂_map_right_iff]
    refine areFound.flip.imp fun m x => ?_
    rintro ⟨arguments, -, same⟩
    exact (Prod.mk.inj same).1
  rw [List.forall₂_eq_eq_eq] at names
  rw [names, List.map_map]
  exact List.map_congr_left listed

/-- Validation finds nothing wrong with a fresh source exactly when folding does not change the
tags of its routines. -/
theorem sourceFindings_eq_nil_iff (named : options.IsPlain)
    (collected : ∀ r ∈ rs, r.IsCollected) (plain : ∀ r ∈ rs, r.IsPlain) :
    sourceFindings (Text.utf8 (ofRecords options rs).source)
      (some (ofRecords options rs).intercepts) = [] ↔ ∀ r ∈ rs, r.IsSteady := by
  have valid : ∀ r ∈ rs, r.IsValid := fun r mem => (collected r mem).valid
  rw [Validation.sourceFindings_eq_nil_iff]
  by_cases readable : ∀ r ∈ rs, r.IsReadable
  · obtain ⟨methods, isSource, areFound⟩ := exists_isSource named valid plain readable
    obtain ⟨pairs, routines, intercepts, each⟩ := exists_pairs options valid
    rw [routines] at areFound
    have names := names_eq_of_areFound each areFound
    have distinct : (methods.map (·.name)).Nodup := by
      rw [names, ← intercepts]
      exact nodup_names_interceptsFrom 0 rs
    -- Each record is emitted as a pair, for which one method is read.
    have accepts {r : CallSiteRecord} {x : Routine × InterceptRecord} {n : Nat} (source : r ∈ rs)
        (mem : x ∈ pairs) (emitted : IsEmittedAs r n x.1 x.2) :
        HasTag methods x.2 ↔ (r.interceptsData = none → '\r' ∉ r.location.path.toList) := by
      obtain ⟨m, method, name, tags⟩ := exists_method areFound mem emitted
      rw [hasTag_iff_of_mem distinct method name,
        (collected r source).tagFindings_eq_nil_iff emitted tags]
    rw [intercepts]
    constructor
    · rintro ⟨others, isSource', tagged, -⟩ r mem none
      obtain rfl := isSource.unique isSource'
      obtain ⟨x, inside, n, emitted⟩ := exists_of_mem_of_forall₂ each r mem
      exact ⟨(accepts mem inside emitted).1 (tagged x.2 (List.mem_map_of_mem inside)) none,
        readable r mem none⟩
    · intro steady
      refine ⟨methods, isSource, List.forall_mem_map.2 fun x mem => ?_, fun m mem => ?_⟩
      · obtain ⟨r, inside, n, emitted⟩ := exists_of_mem_of_forall₂ each.flip x mem
        exact (accepts inside mem emitted).2 fun none => (steady r inside none).1
      · have listed : m.name ∈ methods.map (·.name) := List.mem_map_of_mem mem
        rw [names] at listed
        exact List.mem_map.1 listed
  · obtain ⟨r, mem, unreadable⟩ : ∃ r ∈ rs, ¬r.IsReadable := by simpa using readable
    refine iff_of_false ?_ fun steady => unreadable fun none => (steady r mem none).2
    rintro ⟨methods, isSource, -⟩
    exact not_isSource_of_null valid mem unreadable methods isSource

end Emission

/-! ## A pass and its validation -/

/-- Every kept record has a routine and a manifest record in its pass. -/
theorem exists_emitted_of_kept {config : Config} {bytes : List UInt8} {r : CallSiteRecord}
    (kept : r ∈ keptRecords config bytes) :
    ∃ made i n, made ∈ (passEmission config bytes).routines ∧
      i ∈ (passEmission config bytes).intercepts ∧ IsEmittedAs r n made i := by
  have sorted (s : CallSiteRecord) :
      s ∈ CallSiteRecord.sorted (keptRecords config bytes) ↔ s ∈ keptRecords config bytes :=
    (CallSiteRecord.perm_sorted _).mem_iff
  obtain ⟨pairs, routines, intercepts, each⟩ := Emission.exists_pairs config.unitOptions
    fun s mem => (isCollected_of_mem_keptRecords ((sorted s).1 mem)).valid
  obtain ⟨x, inside, n, emitted⟩ := exists_of_mem_of_forall₂ each r ((sorted r).2 kept)
  refine ⟨x.1, x.2, n, ?_, ?_, emitted⟩
  · rw [passEmission, Emission.generate, routines]
    exact List.mem_map_of_mem inside
  · rw [passEmission, Emission.generate, intercepts]
    exact List.mem_map_of_mem inside

/-- What validation reads of the tag of a kept record is accepted exactly when the record shows a
token, or a path without a carriage return.  The tags of a well-formed source are compared in
this way, and nothing else is reported: if all names are plain, validation finds nothing wrong with
the source exactly when each record shows a token, or a path without carriage returns and null
characters. -/
theorem accepts_tags_iff (config : Config) (bytes : List UInt8) :
    (∀ r ∈ keptRecords config bytes, ∃ made i n arguments,
      made ∈ (passEmission config bytes).routines ∧
      i ∈ (passEmission config bytes).intercepts ∧ IsEmittedAs r n made i ∧
      ReadsTag (Text.utf8 (passEmission config bytes).source) made arguments ∧
      ∀ line, tagFindings i ⟨made.name, line, [arguments]⟩ = [] ↔
        (r.interceptsData = none → '\r' ∉ r.location.path.toList)) ∧
    (config.unitOptions.IsPlain → (∀ r ∈ keptRecords config bytes, r.IsPlain) →
      (sourceFindings (Text.utf8 (passEmission config bytes).source)
          (some (passEmission config bytes).intercepts) = [] ↔
        ∀ r ∈ keptRecords config bytes, r.IsSteady)) := by
  have sorted (r : CallSiteRecord) :
      r ∈ CallSiteRecord.sorted (keptRecords config bytes) ↔ r ∈ keptRecords config bytes :=
    (CallSiteRecord.perm_sorted _).mem_iff
  constructor
  · intro r kept
    obtain ⟨made, i, n, routine, intercept, emitted⟩ := exists_emitted_of_kept kept
    exact ⟨made, i, n, _, routine, intercept, emitted, Emission.readsTag emitted routine,
      fun line => (isCollected_of_mem_keptRecords kept).tagFindings_eq_nil_iff emitted rfl⟩
  · intro named plain
    have whole := Emission.sourceFindings_eq_nil_iff named
      (fun r mem => isCollected_of_mem_keptRecords ((sorted r).1 mem))
      fun r mem => plain r ((sorted r).1 mem)
    simp only [sorted] at whole
    exact whole

theorem isPlain_usual : Config.usual.unitOptions.IsPlain :=
  ⟨isDotted_intercalate "Praefixum" [] (by decide +kernel), by decide +kernel⟩

/-- A static method of a plain name with one text parameter has plain names. -/
theorem isPlain_of_markedRecord {r : CallSiteRecord} (targetType : r.targetType = "N.A")
    (methodName : r.methodName = "F") (returnType : r.returnType = "void")
    (parameters : r.parameters = [⟨"id", "string", false, none⟩]) : r.IsPlain where
  targetType := targetType ▸ isDotted_intercalate "N" ["A"] (by decide +kernel)
  methodName := methodName ▸ by decide +kernel
  returnType := returnType ▸ (isPlainType_of_predefined "void" (by decide +kernel)).1
  parameters := by
    rw [parameters]
    refine List.forall_mem_singleton.2 ⟨by decide +kernel, ?_, by decide⟩
    exact (isPlainType_of_predefined "string" (by decide +kernel)).1

/-- The source of one call is accepted. -/
theorem accepts_tags_oneCall :
    keptRecords .usual (callFile [("F", 1)]) = [markedRecord "F" 1] ∧
      Config.usual.unitOptions.IsPlain ∧ (markedRecord "F" 1).IsPlain ∧
      (markedRecord "F" 1).IsSteady ∧
      sourceFindings (Text.utf8 (passEmission .usual (callFile [("F", 1)])).source)
        (some (passEmission .usual (callFile [("F", 1)])).intercepts) = [] := by
  have fits : ∀ c ∈ [("F", 1)], Json.fitsWord ((c.2 : Nat) : Int) = true := by decide
  have kept : keptRecords .usual (callFile [("F", 1)]) = [markedRecord "F" 1] := by
    show Collection.recordsFrom _ [] (DescriptorBatch.ofBytes _).descriptors = _
    rw [descriptors_callFile fits, List.map_cons,
      Collection.recordsFrom_cons_new (built?_markedDescriptor "F" 1) (by simp)]
    rfl
  have plain : (markedRecord "F" 1).IsPlain := isPlain_of_markedRecord rfl rfl rfl rfl
  have steady : (markedRecord "F" 1).IsSteady := by
    unfold CallSiteRecord.IsSteady
    decide +kernel
  obtain ⟨-, whole⟩ := accepts_tags_iff .usual (callFile [("F", 1)])
  rw [kept, List.forall_mem_singleton, List.forall_mem_singleton] at whole
  exact ⟨kept, isPlain_usual, plain, steady, (whole isPlain_usual plain).2 steady⟩

/-- A line that describes a call in a file whose name holds a carriage return. -/
def returnFile : List UInt8 :=
  Text.utf8 ("\x7b\"target_type\":\"N.A\",\"method_name\":\"F\",\"return_type\":\"void\"," ++
    "\"location\":\x7b\"path\":\"a\\rb.cs\",\"line\":1,\"column\":2\x7d," ++
    "\"parameters\":[\x7b\"name\":\"id\",\"type\":\"string\"," ++
    "\"attributes\":[\x7b\"name\":\"UniqueId\"\x7d]\x7d]\x7d\n")

/-- The one record of that line. -/
theorem exists_keptRecords_returnFile :
    ∃ r, keptRecords .usual returnFile = [r] ∧ r.IsPlain ∧ r.location = ⟨"a\rb.cs", 1, 2⟩ ∧
      r.interceptsData = none := by
  have facts : (keptRecords .usual returnFile).map (fun r =>
      ((r.targetType, r.methodName, r.returnType), r.parameters, r.location, r.interceptsData)) =
      [(("N.A", "F", "void"), [⟨"id", "string", false, none⟩], ⟨"a\rb.cs", 1, 2⟩, none)] := by
    decide +kernel
  obtain ⟨r, kept, same⟩ := List.map_eq_singleton_iff.1 facts
  simp only [Prod.mk.injEq] at same
  obtain ⟨⟨targetType, methodName, returnType⟩, parameters, location, data⟩ := same
  exact ⟨r, kept, isPlain_of_markedRecord targetType methodName returnType parameters, location,
    data⟩

/-- Of a path with a carriage return validation reads another tag than the manifest expects, and
reports the source that a pass has just written. -/
theorem reports_fresh_tag :
    ∃ r made i n, keptRecords .usual returnFile = [r] ∧ r.location = ⟨"a\rb.cs", 1, 2⟩ ∧
      r.interceptsData = none ∧ made ∈ (passEmission .usual returnFile).routines ∧
      i ∈ (passEmission .usual returnFile).intercepts ∧ IsEmittedAs r n made i ∧
      ReadsTag (Text.utf8 (passEmission .usual returnFile).source) made "(@\"a\nb.cs\", 1, 2)" ∧
      Expects i "(@\"a\rb.cs\", 1, 2)" ∧
      (∀ line, tagFindings i ⟨made.name, line, ["(@\"a\nb.cs\", 1, 2)"]⟩ ≠ []) ∧
      sourceFindings (Text.utf8 (passEmission .usual returnFile).source)
        (some (passEmission .usual returnFile).intercepts) ≠ [] := by
  obtain ⟨r, kept, plain, location, data⟩ := exists_keptRecords_returnFile
  have mem : r ∈ keptRecords .usual returnFile := kept ▸ List.mem_singleton_self r
  have collected := isCollected_of_mem_keptRecords mem
  obtain ⟨made, i, n, routine, intercept, emitted⟩ := exists_emitted_of_kept mem
  have read := Emission.readsTag emitted routine
  have arguments : r.location.foldedArguments r.interceptsData = "(@\"a\nb.cs\", 1, 2)" := by
    rw [location, data]
    decide +kernel
  have expected : Expects i "(@\"a\rb.cs\", 1, 2)" := by
    rw [collected.expects_iff emitted, location, data]
    decide +kernel
  have returns : '\r' ∈ r.location.path.toList := by
    rw [location]
    decide +kernel
  rw [arguments] at read
  refine ⟨r, made, i, n, kept, location, data, routine, intercept, emitted, read, expected,
    fun line => ?_, ?_⟩
  · rw [ne_eq, collected.tagFindings_eq_nil_iff emitted (by rw [arguments])]
    exact fun noReturn => noReturn data returns
  · have same : passEmission .usual returnFile =
        Emission.ofRecords Config.usual.unitOptions [r] := by
      rw [passEmission, kept, Emission.generate, CallSiteRecord.sorted, List.mergeSort_singleton]
    rw [same, ne_eq, Emission.sourceFindings_eq_nil_iff isPlain_usual
      (List.forall_mem_singleton.2 collected) (List.forall_mem_singleton.2 plain),
      List.forall_mem_singleton]
    exact fun steady => (steady data).1 returns

end CallSiteIds
